import Mathlib.Data.List.Dedup
import McpSshTool.Library.FileTree

/-!
# Removals and renamings in a file tree

What a removal or a renaming of a location leaves of a tree, where paths need not be resolved.

* `prune`, `relocate` — a location is removed, or is put at another, with what stands beneath it;
* `exists_member` — what stands beneath a directory does so through a member;
* `emptied`, `erase_emptied` — a directory goes when its members are gone;
* `branches` — the tree of two branches, one of which ends with a file.
-/

namespace FileTree

/-! ### What is left -/

/-- What stands at the location or beneath it is removed. -/
def prune (fs : List Entry) (location : Location) : List Entry :=
  fs.filter fun e => ¬location <:+ e.location

/-- The entry, at another location. -/
def Entry.moved (e : Entry) : Location → Entry
  | [] => e
  | name :: parent => { parent, name, node := e.node }

/-- What stands at the location or beneath it is put at another. -/
def relocate (fs : List Entry) (source target : Location) : List Entry :=
  fs.map fun e =>
    if source <:+ e.location then
      e.moved (e.location.take (e.location.length - source.length) ++ target)
    else e

theorem mem_prune {fs : List Entry} {location : Location} {e : Entry} :
    e ∈ prune fs location ↔ e ∈ fs ∧ ¬location <:+ e.location := by
  rw [prune, List.mem_filter, decide_eq_true_eq]

/-- What is there after a renaming was not moved, or is where it was moved to. -/
theorem mem_relocate {fs : List Entry} {source target : Location} {e : Entry} (hne : target ≠ [])
    (h : e ∈ relocate fs source target) :
    e ∈ fs ∧ ¬source <:+ e.location ∨ target <:+ e.location := by
  obtain ⟨e', he', rfl⟩ := List.mem_map.mp h
  split
  · next hbeneath =>
    refine .inr ?_
    set front := e'.location.take (e'.location.length - source.length)
    cases hmoved : front ++ target with
    | nil => exact absurd (List.append_eq_nil_iff.mp hmoved).2 hne
    | cons name parent =>
      change target <:+ name :: parent
      rw [← hmoved]
      exact List.suffix_append front target
  · next hbeneath => exact .inl ⟨he', hbeneath⟩

/-! ### Members -/

section Members

variable (tree : Tree)

/-- **What stands beneath a directory** stands at a member or beneath one. -/
theorem exists_member {l : Location} {e : Entry} (he : e ∈ tree.entries) (h : l <:+ e.parent) :
    ∃ m ∈ listing tree.entries l, m.location <:+ e.location := by
  -- up the tree, as far as the directory
  induction hparent : e.parent generalizing e with
  | nil =>
    obtain rfl : l = [] := List.suffix_nil.mp (hparent ▸ h)
    exact ⟨e, List.mem_filter.mpr ⟨he, decide_eq_true hparent⟩, List.suffix_refl _⟩
  | cons name parent ih =>
    rw [hparent] at h
    obtain rfl | h := List.suffix_cons_iff.mp h
    · exact ⟨e, List.mem_filter.mpr ⟨he, decide_eq_true hparent⟩, List.suffix_refl _⟩
    · have hrooted := tree.rooted e he
      rw [hparent] at hrooted
      obtain ⟨e', he', hlocation, -⟩ := exists_entry hrooted (List.cons_ne_nil _ _)
      obtain ⟨-, hparent'⟩ := List.cons.inj hlocation
      obtain ⟨m, hm, hsuffix⟩ := ih he' (hparent'.symm ▸ h) hparent'
      refine ⟨m, hm, hsuffix.trans ?_⟩
      rw [hlocation, ← hparent]
      exact List.suffix_cons _ _

theorem member_not_beneath {m m' : Entry} (hm : m ∈ tree.entries) (hm' : m' ∈ tree.entries)
    (hparent : m.parent = m'.parent) (hne : m ≠ m') : ¬m.location <:+ m'.location := by
  intro h
  refine hne (eq_of_location tree hm hm' (h.eq_of_length ?_))
  rw [Entry.location, Entry.location, hparent, List.length_cons, List.length_cons]

theorem lookup_of_forall {fs : List Entry} {e : Entry} {node : Node} (he : e ∈ fs)
    (hall : ∀ e' ∈ fs, e'.location = e.location → e'.node = node) :
    lookup fs e.location = some node := by
  have hfound : (fs.find? fun e' => e'.location = e.location).isSome := by
    rw [List.find?_isSome]
    exact ⟨e, he, decide_eq_true rfl⟩
  obtain ⟨e', hfind⟩ := Option.isSome_iff_exists.mp hfound
  have hlocation : e'.location = e.location := by simpa using List.find?_some hfind
  exact lookup_eq_some_iff.mpr ⟨e', hfind, hall e' (List.mem_of_find?_eq_some hfind) hlocation⟩

/-- **The tree without a location** and what stands beneath it, seen from the root. -/
def Tree.pruned (location : Location) : Tree where
  entries := prune tree.entries location
  home := []
  distinct := tree.distinct.sublist (List.filter_sublist.map _)
  rooted := by
    intro e he
    obtain ⟨he, hkept⟩ := mem_prune.mp he
    have hparent := tree.rooted e he
    by_cases hroot : e.parent = []
    · rw [hroot]
      rfl
    · obtain ⟨e', he', hlocation, hnode⟩ := exists_entry hparent hroot
      have hkept' : e' ∈ prune tree.entries location := by
        refine mem_prune.mpr ⟨he', fun h => hkept (h.trans ?_)⟩
        rw [hlocation]
        exact List.suffix_cons _ _
      rw [← hlocation]
      refine lookup_of_forall hkept' fun e'' he'' h => ?_
      rw [eq_of_location tree (mem_prune.mp he'').1 he' h, hnode]
  names := fun e he => tree.names e (mem_prune.mp he).1
  home_directory := rfl

/-! ### Directories without their members -/

/-- What stands beneath the location is removed. -/
def emptied (fs : List Entry) (location : Location) : List Entry :=
  fs.filter fun e => ¬location <:+ e.parent

/-- A directory is emptied by the removal of each of its members. -/
theorem filter_members (l : Location) :
    (tree.entries.filter fun e => ∀ m ∈ listing tree.entries l, ¬m.location <:+ e.location) =
      emptied tree.entries l := by
  refine List.filter_congr fun e he => ?_
  rw [decide_eq_decide]
  constructor
  · intro hall h
    obtain ⟨m, hm, hsuffix⟩ := exists_member tree he h
    exact hall m hm hsuffix
  · intro hkept m hm hsuffix
    have hparent : m.parent = l := of_decide_eq_true (List.mem_filter.mp hm).2
    refine hkept ?_
    rw [← hparent]
    obtain heq | hsuffix := List.suffix_cons_iff.mp hsuffix
    · rw [(List.cons.inj heq).2]
    · exact (List.suffix_cons _ _).trans hsuffix

theorem listing_emptied (fs : List Entry) (l : Location) : listing (emptied fs l) l = [] := by
  rw [listing, List.filter_eq_nil_iff]
  intro e he h
  have hkept := of_decide_eq_true (List.mem_filter.mp he).2
  rw [of_decide_eq_true h] at hkept
  exact hkept (List.suffix_refl l)

/-- The emptied directory is still there. -/
theorem lookup_emptied {l : Location} (h : lookup tree.entries l = some .directory) :
    lookup (emptied tree.entries l) l = some .directory := by
  by_cases hroot : l = []
  · rw [hroot]
    rfl
  · obtain ⟨e, he, rfl, hnode⟩ := exists_entry h hroot
    have hkept : e ∈ emptied tree.entries e.location := by
      refine List.mem_filter.mpr ⟨he, decide_eq_true fun hsuffix => ?_⟩
      have hlength := hsuffix.length_le
      rw [Entry.location, List.length_cons] at hlength
      exact Nat.lt_irrefl _ hlength
    refine lookup_of_forall hkept fun e' he' h => ?_
    rw [eq_of_location tree (List.mem_filter.mp he').1 he h, hnode]

theorem erase_emptied (fs : List Entry) (l : Location) : erase (emptied fs l) l = prune fs l := by
  rw [erase, emptied, prune, List.filter_filter]
  refine List.filter_congr fun e _ => ?_
  rw [← Bool.decide_and, decide_eq_decide, Entry.location, List.suffix_cons_iff, not_or]
  exact and_congr_left fun _ => not_congr eq_comm

theorem erase_eq_prune {e : Entry} (he : e ∈ tree.entries) (hnode : e.node ≠ .directory) :
    erase tree.entries e.location = prune tree.entries e.location := by
  refine List.filter_congr fun e' he' => ?_
  rw [decide_eq_decide]
  constructor
  · intro hne hsuffix
    have hdirectory := lookup_of_suffix tree (lookup_location tree he') hsuffix (Ne.symm hne)
    rw [lookup_location tree he] at hdirectory
    exact hnode (Option.some.inj hdirectory)
  · exact fun hkept heq => hkept (heq ▸ List.suffix_refl _)

end Members

/-! ### Two branches -/

section Branches

variable (file directory : Location)

/-- The locations on two branches. -/
def branchLocations : List Location := ((file.tails ++ directory.tails).filter (· ≠ [])).dedup

/-- What stands at a location on them: the first ends with a file. -/
def branchEntry (l : Location) : Entry where
  parent := l.tail
  name := l.headD ""
  node := if l = file then .file else .directory

theorem mem_branchLocations {l : Location} :
    l ∈ branchLocations file directory ↔ l ≠ [] ∧ (l <:+ file ∨ l <:+ directory) := by
  rw [branchLocations, List.mem_dedup, List.mem_filter, List.mem_append, List.mem_tails,
    List.mem_tails, decide_eq_true_eq]
  exact and_comm

theorem location_branchEntry {l : Location} (hne : l ≠ []) :
    (branchEntry file l).location = l := by
  obtain ⟨name, parent, rfl⟩ := List.exists_cons_of_ne_nil hne
  rfl

/-- The entries of two branches. -/
def branchEntries : List Entry := (branchLocations file directory).map (branchEntry file)

variable {file directory}

theorem mem_branchEntries {e : Entry} :
    e ∈ branchEntries file directory ↔
      (e.location <:+ file ∨ e.location <:+ directory) ∧ e = branchEntry file e.location := by
  constructor
  · intro h
    obtain ⟨l, hl, rfl⟩ := List.mem_map.mp h
    obtain ⟨hne, hl⟩ := (mem_branchLocations file directory).mp hl
    rw [location_branchEntry file hne]
    exact ⟨hl, rfl⟩
  · rintro ⟨hl, he⟩
    rw [he]
    exact List.mem_map_of_mem
      ((mem_branchLocations file directory).mpr ⟨List.cons_ne_nil _ _, hl⟩)

/-- What is on the branches stands there. -/
theorem lookup_branchEntries {l : Location} (hl : l <:+ file ∨ l <:+ directory) (hne : l ≠ file) :
    lookup (branchEntries file directory) l = some .directory := by
  by_cases hroot : l = []
  · rw [hroot]
    rfl
  · have hlocation := location_branchEntry file hroot
    have he : branchEntry file l ∈ branchEntries file directory := by
      rw [mem_branchEntries, hlocation]
      exact ⟨hl, rfl⟩
    rw [← hlocation]
    refine lookup_of_forall he fun e' he' h => ?_
    rw [(mem_branchEntries.mp he').2, h, hlocation]
    exact if_neg hne

theorem lookup_branchEntries_none {l : Location} (hfile : ¬l <:+ file)
    (hdirectory : ¬l <:+ directory) :
    lookup (branchEntries file directory) l = none := by
  cases hl : lookup (branchEntries file directory) l with
  | none => rfl
  | some =>
    have hroot : l ≠ [] := fun h => hfile (h ▸ List.nil_suffix)
    obtain ⟨e, he, rfl, -⟩ := exists_entry hl hroot
    exact absurd (mem_branchEntries.mp he).1 (not_or_intro hfile hdirectory)

/-- **The tree of two branches**, the first of which ends with a file. -/
def branches (hfile : ¬file <:+ directory) (hnames : ∀ name ∈ file ++ directory, IsName name) :
    Tree where
  entries := branchEntries file directory
  home := []
  distinct := by
    rw [branchEntries, List.map_map, List.map_congr_left (g := id), List.map_id]
    · exact List.nodup_dedup _
    · intro l hl
      exact location_branchEntry file ((mem_branchLocations file directory).mp hl).1
  rooted := by
    intro e he
    obtain ⟨hl, -⟩ := mem_branchEntries.mp he
    have hparent : e.parent <:+ e.location := List.suffix_cons _ _
    refine lookup_branchEntries (hl.imp hparent.trans hparent.trans) fun h => ?_
    obtain hl | hl := hl
    · -- nothing stands beneath the file on its own branch
      have hlength := hl.length_le
      rw [Entry.location, List.length_cons, h] at hlength
      exact Nat.lt_irrefl _ hlength
    · exact hfile (h ▸ hparent.trans hl)
  names := by
    intro e he
    obtain ⟨hl, -⟩ := mem_branchEntries.mp he
    refine hnames _ (List.mem_append.mpr ?_)
    have hname : e.name ∈ e.location := List.mem_cons_self
    exact hl.imp (fun h => h.subset hname) fun h => h.subset hname
  home_directory := rfl

end Branches
end FileTree
