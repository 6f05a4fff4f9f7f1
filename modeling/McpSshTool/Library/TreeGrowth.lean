import McpSshTool.Library.FileTree

/-!
# Directories that are made

A file tree in which a directory is made, and the paths that lead to directories.

* `Tree.withDirectory` — the tree with a new directory, of a free name in a directory;
* `Tree.IsDirectory` — a path leads to a directory, through links as well;
* `IsDirectory.withDirectory`, `directoryFrom_made` — what is a directory stays one, and what is
  made is one;
* `DirectoryFrom.above` — what a path leads to stands in a directory that the path above leads to.
-/

namespace FileTree

variable {limit : ℕ} {here : Location} {path : List String} {name : String}

instance (name : String) : Decidable (IsName name) := inferInstanceAs (Decidable (_ ∧ _ ∧ _ ∧ _))

theorem lookup_cons (e : Entry) (fs : List Entry) (location : Location) :
    lookup (e :: fs) location = if e.location = location then some e.node else lookup fs
      location := by
  cases location with
  | nil => exact (if_neg (List.cons_ne_nil _ _)).symm
  | cons name parent =>
    rw [lookup, List.find?_cons]
    by_cases h : e.location = name :: parent
    · rw [if_pos h, decide_eq_true h]
      rfl
    · rw [if_neg h, decide_eq_false h]
      rfl

theorem location_ne_of_lookup {fs : List Entry} {parent : Location}
    (h : lookup fs (name :: parent) = none) {e : Entry} (he : e ∈ fs) : e.location ≠ name ::
      parent := by
  rw [lookup, Option.map_eq_none_iff, List.find?_eq_none] at h
  simpa using h e he

/-- **The tree with a new directory**, of a free name in a directory. -/
def Tree.withDirectory (tree : Tree) {parent : Location} (hname : IsName name)
    (hparent : lookup tree.entries parent = some .directory)
    (hfree : lookup tree.entries (name :: parent) = none) : Tree where
  entries := ⟨parent, name, .directory⟩ :: tree.entries
  home := tree.home
  distinct := by
    rw [List.map_cons, List.nodup_cons]
    refine ⟨fun hmem => ?_, tree.distinct⟩
    obtain ⟨e, he, hlocation⟩ := List.mem_map.mp hmem
    exact location_ne_of_lookup hfree he hlocation
  rooted := by
    -- what has been a directory is not the new one, or agrees with it
    have hkept : ∀ l, lookup tree.entries l = some .directory →
        lookup (⟨parent, name, .directory⟩ :: tree.entries) l = some .directory := by
      intro l h
      rw [lookup_cons]
      split
      · rfl
      · exact h
    exact List.forall_mem_cons.mpr ⟨hkept _ hparent, fun e he => hkept _ (tree.rooted e he)⟩
  names := List.forall_mem_cons.mpr ⟨hname, tree.names⟩
  home_directory := by
    rw [lookup_cons]
    split
    · rfl
    · exact tree.home_directory

/-! ### Paths to directories -/

/-- The components lead to a directory. -/
def Tree.DirectoryFrom (tree : Tree) (limit : ℕ) (here : Location) (path : List String) : Prop :=
  ∃ d, resolveFrom tree.entries true limit here path = some d ∧
    lookup tree.entries d = some .directory

/-- **The path leads to a directory.** -/
def Tree.IsDirectory (tree : Tree) (limit : ℕ) (path : String) : Prop :=
  path ≠ "" ∧ tree.DirectoryFrom limit (start tree.home path) (components path)

section Made

variable {tree : Tree} {parent : Location} (hname : IsName name)
variable (hparent : lookup tree.entries parent = some .directory)
variable (hfree : lookup tree.entries (name :: parent) = none)

theorem Tree.DirectoryFrom.withDirectory (h : tree.DirectoryFrom limit here path) :
    (tree.withDirectory hname hparent hfree).DirectoryFrom limit here path := by
  obtain ⟨d, hresolve, hd⟩ := h
  have hsub : tree.entries ⊆ (tree.withDirectory hname hparent hfree).entries :=
    List.subset_cons_self _ _
  exact ⟨d, resolveFrom_mono _ hsub limit hresolve, lookup_of_subset _ hsub hd⟩

theorem Tree.IsDirectory.withDirectory {path : String} (h : tree.IsDirectory limit path) :
    (tree.withDirectory hname hparent hfree).IsDirectory limit path :=
  ⟨h.1, h.2.withDirectory hname hparent hfree⟩

/-- **What is made is a directory**, on the path of its parent. -/
theorem directoryFrom_made (hresolve : resolveFrom tree.entries true limit here path =
    some parent) :
    (tree.withDirectory hname hparent hfree).DirectoryFrom limit here (path ++ [name]) := by
  have hsub : tree.entries ⊆ (tree.withDirectory hname hparent hfree).entries :=
    List.subset_cons_self _ _
  have hmade : lookup (tree.withDirectory hname hparent hfree).entries (name :: parent) =
      some .directory := by
    rw [Tree.withDirectory, lookup_cons]
    exact if_pos rfl
  exact ⟨name :: parent, resolveFrom_child_directory _ (List.Subset.refl _) hname hmade limit
    (resolveFrom_mono _ hsub limit hresolve), hmade⟩

end Made

/-! ### The path above -/

section Above

variable (tree : Tree)

/-- What components lead to stands in a directory that those above lead to. -/
theorem walk_above {jump jump' : Location → String → List String → Option Location}
    (hjump : ∀ here target rest l, lookup tree.entries here = some .directory →
      jump here target (rest ++ [name]) = some l →
        ∃ d, jump' here target rest = some d ∧ lookup tree.entries d = some .directory)
    (path : List String) : ∀ {here l : Location}, lookup tree.entries here = some .directory →
      walk tree.entries jump true here (path ++ [name]) = some l →
        ∃ d, walk tree.entries jump' true here path = some d ∧
          lookup tree.entries d = some .directory := by
  induction path with
  | nil => exact fun hhere _ => ⟨_, by rw [walk], hhere⟩
  | cons first rest ih =>
    intro here l hhere h
    rw [List.cons_append, walk] at h
    rw [walk]
    split at h
    · next hdot =>
      rw [if_pos hdot]
      exact ih hhere h
    · next hdot =>
      rw [if_neg hdot]
      split at h
      · next hup =>
        rw [if_pos hup]
        refine ih ?_ h
        cases here with
        | nil => rfl
        | cons => exact lookup_parent tree (List.Subset.refl _) hhere
      · next hup =>
        rw [if_neg hup]
        cases hnode : lookup tree.entries (first :: here) with
        | none =>
          rw [hnode] at h
          cases h
        | some node =>
          rw [hnode] at h
          cases node with
          -- a file is the end of a path
          | file =>
            simp at h
          | directory => exact ih hnode h
          | link target =>
            dsimp only at h ⊢
            rw [if_neg fun h => Bool.noConfusion h.2] at h ⊢
            exact hjump here target rest l hhere h

theorem directoryFrom_above (limit : ℕ) : ∀ {here l : Location} {path : List String},
    lookup tree.entries here = some .directory →
      resolveFrom tree.entries true limit here (path ++ [name]) = some l →
        tree.DirectoryFrom limit here path := by
  induction limit with
  | zero => exact fun hhere h => walk_above tree (by rintro _ _ _ _ _ ⟨⟩) _ hhere h
  | succ limit ih =>
    refine fun hhere h => walk_above tree (fun here target rest l hhere h => ?_) _ hhere h
    rw [← List.append_assoc] at h
    exact ih (lookup_start tree hhere target) h

/-- **Above a directory is a directory.** -/
theorem Tree.DirectoryFrom.above {tree : Tree} (hhere : lookup tree.entries here = some .directory)
    (h : tree.DirectoryFrom limit here (path ++ [name])) : tree.DirectoryFrom limit here path := by
  obtain ⟨l, hresolve, -⟩ := h
  exact directoryFrom_above tree limit hhere hresolve

end Above

end FileTree
