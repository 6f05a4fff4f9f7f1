import Mathlib.Data.List.Basic
import Mathlib.Data.List.Infix
import Mathlib.Data.List.Nodup

/-!
# File trees with symbolic links

A finite tree of files, directories and symbolic links, and what a path leads to in it.

* `Location`, `Entry`, `Tree` — where things physically are. Every entry stands in a directory;
* `resolve` — the location a path leads to, through at most so many links; the last component is
  followed or not;
* `resolve_mono` — **a tree that has lost entries** resolves a path to the same place, or to none;
* `resolve_child`, `resolve_child_directory` — the paths of the members of a directory;
* `resolve_follow` — the two ways to resolve a path differ only where it leads to a link;
* `FirstRemoved` — what a removal from the inside out takes first.
-/

namespace FileTree

/-- A physical location: the names on the way to the root, the innermost first. -/
abbrev Location := List String

inductive Node where
  | file
  | directory
  | link (target : String)
deriving DecidableEq, Repr

/-- A member of a directory. -/
structure Entry where
  parent : Location
  name : String
  node : Node
deriving DecidableEq, Repr

def Entry.location (e : Entry) : Location := e.name :: e.parent

/-- What stands at a location. The root is a directory. -/
def lookup (fs : List Entry) : Location → Option Node
  | [] => some .directory
  | name :: parent => (fs.find? fun e => e.location = name :: parent).map Entry.node

/-- The members of a directory. -/
def listing (fs : List Entry) (directory : Location) : List Entry :=
  fs.filter fun e => e.parent = directory

def erase (fs : List Entry) (location : Location) : List Entry :=
  fs.filter fun e => e.location ≠ location

/-- A name that a member of a directory can have. -/
def IsName (name : String) : Prop := name ≠ "" ∧ name ≠ "." ∧ name ≠ ".." ∧ '/' ∉ name.toList

/-- **A file tree**, with the directory that relative paths start from. -/
structure Tree where
  entries : List Entry
  home : Location
  distinct : (entries.map Entry.location).Nodup
  rooted : ∀ e ∈ entries, lookup entries e.parent = some .directory
  names : ∀ e ∈ entries, IsName e.name
  home_directory : lookup entries home = some .directory

/-! ### Paths -/

def components (path : String) : List String := (path.toList.splitOn '/').map String.ofList

def isAbsolute (path : String) : Bool := path.toList.head? = some '/'

theorem components_append_name (path : String) {name : String} (hname : '/' ∉ name.toList) :
    components (path ++ "/" ++ name) = components path ++ [name] := by
  have hslash : (path ++ "/" ++ name).toList = path.toList ++ '/' :: name.toList := by
    simp [String.toList_append]
  unfold components
  rw [hslash, List.splitOn_append_cons_self, List.splitOn_eq_singleton hname, List.map_append]
  simp

/-- Where a path starts, seen from a directory. -/
def start (here : Location) (path : String) : Location := if isAbsolute path then [] else here

/-- One path after the other, as long as there is no link to jump to. -/
def walk (fs : List Entry) (jump : Location → String → List String → Option Location)
    (follow : Bool) : Location → List String → Option Location
  | here, [] => some here
  | here, name :: rest =>
    if name = "" ∨ name = "." then walk fs jump follow here rest
    else if name = ".." then walk fs jump follow here.tail rest
    else
      match lookup fs (name :: here) with
      | none => none
      | some .file => if rest = [] then some (name :: here) else none
      | some .directory => walk fs jump follow (name :: here) rest
      | some (.link target) =>
        if rest = [] ∧ follow = false then some (name :: here) else jump here target rest

/-- The location that components lead to, through at most so many links. -/
def resolveFrom (fs : List Entry) (follow : Bool) : ℕ → Location → List String → Option Location
  | 0 => walk fs (fun _ _ _ => none) follow
  | limit + 1 =>
    walk fs (fun here target rest =>
      resolveFrom fs follow limit (start here target) (components target ++ rest)) follow

/-- **The location that a path leads to.** The empty path leads nowhere. -/
def resolve (fs : List Entry) (home : Location) (limit : ℕ) (follow : Bool) (path : String) :
    Option Location :=
  if path = "" then none
  else resolveFrom fs follow limit (start home path) (components path)

/-! ### Trees that have lost entries -/

section Within

variable (tree : Tree) {fs : List Entry} (hfs : fs ⊆ tree.entries)

theorem lookup_eq_some_iff {fs : List Entry} {name : String} {parent : Location} {node : Node} :
    lookup fs (name :: parent) = some node ↔
      ∃ e, fs.find? (fun e => e.location = name :: parent) = some e ∧ e.node = node := by
  rw [lookup, Option.map_eq_some_iff]

theorem eq_of_location {e e' : Entry} (he : e ∈ tree.entries) (he' : e' ∈ tree.entries)
    (h : e.location = e'.location) : e = e' :=
  List.inj_on_of_nodup_map tree.distinct he he' h

theorem lookup_location {e : Entry} (he : e ∈ tree.entries) :
    lookup tree.entries e.location = some e.node := by
  have hfound : (tree.entries.find? fun e' => e'.location = e.location).isSome := by
    rw [List.find?_isSome]
    exact ⟨e, he, by simp⟩
  obtain ⟨e', hfind⟩ := Option.isSome_iff_exists.mp hfound
  have hlocation : e'.location = e.location := by simpa using List.find?_some hfind
  have heq := eq_of_location tree (List.mem_of_find?_eq_some hfind) he hlocation
  exact lookup_eq_some_iff.mpr ⟨e', hfind, congrArg Entry.node heq⟩

theorem exists_entry {fs : List Entry} {location : Location} {node : Node}
    (h : lookup fs location = some node) (hne : location ≠ []) :
    ∃ e ∈ fs, e.location = location ∧ e.node = node := by
  cases location with
  | nil => exact absurd rfl hne
  | cons =>
    obtain ⟨e, hfind, hnode⟩ := lookup_eq_some_iff.mp h
    exact ⟨e, List.mem_of_find?_eq_some hfind, by simpa using List.find?_some hfind, hnode⟩

include hfs

theorem lookup_of_subset {location : Location} {node : Node}
    (h : lookup fs location = some node) : lookup tree.entries location = some node := by
  cases location with
  | nil => exact h
  | cons =>
    obtain ⟨e, he, hlocation, hnode⟩ := exists_entry h (List.cons_ne_nil _ _)
    rw [← hlocation, ← hnode]
    exact lookup_location tree (hfs he)

theorem lookup_parent {name : String} {parent : Location} {node : Node}
    (h : lookup fs (name :: parent) = some node) :
    lookup tree.entries parent = some .directory := by
  obtain ⟨e, he, hlocation, _⟩ := exists_entry h (List.cons_ne_nil _ _)
  obtain ⟨_, rfl⟩ := List.cons.inj hlocation
  exact tree.rooted e (hfs he)

theorem lookup_in_file {name : String} {location : Location}
    (h : lookup fs location = some .file) : lookup fs (name :: location) = none := by
  cases hchild : lookup fs (name :: location) with
  | none => rfl
  | some =>
    have hdirectory := lookup_parent tree hfs hchild
    rw [lookup_of_subset tree hfs h] at hdirectory
    cases hdirectory

theorem walk_mono {jump jump' : Location → String → List String → Option Location} {follow : Bool}
    (hjump : ∀ here target rest location, jump here target rest = some location →
      jump' here target rest = some location) (path : List String) :
    ∀ {here location : Location}, walk fs jump follow here path = some location →
      walk tree.entries jump' follow here path = some location := by
  induction path with
  | nil => exact fun h => h
  | cons name rest ih =>
    intro here location h
    rw [walk] at h ⊢
    split at h
    · next hdot =>
      rw [if_pos hdot]
      exact ih h
    · next hdot =>
      rw [if_neg hdot]
      split at h
      · next hup =>
        rw [if_pos hup]
        exact ih h
      · next hup =>
        rw [if_neg hup]
        cases hnode : lookup fs (name :: here) with
        | none =>
          rw [hnode] at h
          cases h
        | some node =>
          rw [hnode] at h
          rw [lookup_of_subset tree hfs hnode]
          cases node with
          | file => exact h
          | directory => exact ih h
          | link =>
            dsimp only at h ⊢
            split at h
            · next hlast =>
              rw [if_pos hlast]
              exact h
            · next hlast =>
              rw [if_neg hlast]
              exact hjump _ _ _ _ h

theorem resolveFrom_mono {follow : Bool} (limit : ℕ) :
    ∀ {here location : Location} {path : List String},
      resolveFrom fs follow limit here path = some location →
      resolveFrom tree.entries follow limit here path = some location := by
  induction limit with
  | zero => exact fun h => walk_mono tree hfs (fun _ _ _ _ h => h) _ h
  | succ limit ih => exact fun h => walk_mono tree hfs (fun _ _ _ _ h => ih h) _ h

/-- **A tree that has lost entries** leads to the same place, or to none. -/
theorem resolve_mono {limit : ℕ} {follow : Bool} {path : String} {location : Location}
    (h : resolve fs tree.home limit follow path = some location) :
    resolve tree.entries tree.home limit follow path = some location := by
  unfold resolve at h ⊢
  split at h
  · cases h
  · next hne =>
    rw [if_neg hne]
    exact resolveFrom_mono tree hfs limit h

/-! ### The members of a directory -/

section Child

variable {name : String} (hname : IsName name)

include hname

/-- The member of that name, where there is one. -/
theorem walk_child {jump jump' : Location → String → List String → Option Location}
    (hjump : ∀ here target rest, jump here target (rest ++ [name]) =
      (jump' here target rest).bind fun d => (lookup fs (name :: d)).map fun _ => name :: d)
    (path : List String) :
    ∀ here, walk fs jump false here (path ++ [name]) =
      (walk fs jump' true here path).bind fun d => (lookup fs (name :: d)).map fun _ =>
        name :: d := by
  induction path with
  | nil =>
    intro here
    have hnil : walk fs jump' true here [] = some here := by rw [walk]
    rw [List.nil_append, hnil, walk, if_neg (not_or.mpr ⟨hname.1, hname.2.1⟩), if_neg hname.2.2.1,
      Option.bind_some]
    cases lookup fs (name :: here) with
    | none => rfl
    | some node =>
      cases node with
      | file => rfl
      | directory => rfl
      | link => rfl
  | cons first rest ih =>
    intro here
    have hlonger : rest ++ [name] ≠ [] := by simp
    rw [List.cons_append, walk, walk]
    split
    · exact ih here
    · split
      · exact ih here.tail
      · cases hnode : lookup fs (first :: here) with
        | none => rfl
        | some node =>
          cases node with
          | directory => exact ih (first :: here)
          | file =>
            dsimp only
            split
            · rw [Option.bind_some, lookup_in_file tree hfs hnode]
              rfl
            · rfl
          | link target =>
            dsimp only
            rw [if_neg fun h => hlonger h.1, if_neg fun h => Bool.noConfusion h.2]
            exact hjump here target rest

theorem resolveFrom_child (limit : ℕ) :
    ∀ (here : Location) (path : List String),
      resolveFrom fs false limit here (path ++ [name]) =
        (resolveFrom fs true limit here path).bind fun d =>
          (lookup fs (name :: d)).map fun _ => name :: d := by
  induction limit with
  | zero => exact fun here path => walk_child tree hfs hname (fun _ _ _ => rfl) path here
  | succ limit ih =>
    refine fun here path => walk_child tree hfs hname (fun here target rest => ?_) path here
    rw [← List.append_assoc]
    exact ih _ _

/-- A member that is a directory is where it is, followed or not. -/
theorem walk_child_directory {jump : Location → String → List String → Option Location}
    {d : Location} (hd : lookup fs (name :: d) = some .directory)
    (hjump : ∀ here target rest, jump here target rest = some d →
      jump here target (rest ++ [name]) = some (name :: d)) (path : List String) :
    ∀ here, walk fs jump true here path = some d →
      walk fs jump true here (path ++ [name]) = some (name :: d) := by
  induction path with
  | nil =>
    intro here h
    -- the walk has arrived, and the name is one step more
    obtain rfl : here = d := Option.some.inj h
    rw [List.nil_append, walk, if_neg (not_or.mpr ⟨hname.1, hname.2.1⟩), if_neg hname.2.2.1, hd]
    rfl
  | cons first rest ih =>
    intro here h
    have hlonger : rest ++ [name] ≠ [] := by simp
    rw [List.cons_append, walk]
    rw [walk] at h
    split
    · next hdot =>
      rw [if_pos hdot] at h
      exact ih here h
    · next hdot =>
      rw [if_neg hdot] at h
      split
      · next hup =>
        rw [if_pos hup] at h
        exact ih _ h
      · next hup =>
        rw [if_neg hup] at h
        cases hnode : lookup fs (first :: here) with
        | none =>
          rw [hnode] at h
          cases h
        | some node =>
          rw [hnode] at h
          cases node with
          | directory => exact ih _ h
          | file =>
            dsimp only at h
            split at h
            · obtain rfl := Option.some.inj h
              -- nothing is inside a file
              rw [lookup_in_file tree hfs hnode] at hd
              cases hd
            · cases h
          | link target =>
            dsimp only at h ⊢
            rw [if_neg fun h => Bool.noConfusion h.2] at h ⊢
            exact hjump here target rest h

theorem resolveFrom_child_directory {d : Location} (hd : lookup fs (name :: d) = some .directory)
    (limit : ℕ) :
    ∀ {here : Location} {path : List String}, resolveFrom fs true limit here path = some d →
      resolveFrom fs true limit here (path ++ [name]) = some (name :: d) := by
  induction limit with
  | zero => exact fun h => walk_child_directory tree hfs hname hd (by rintro _ _ _ ⟨⟩) _ _ h
  | succ limit ih =>
    refine fun h => walk_child_directory tree hfs hname hd (fun here target rest h => ?_) _ _ h
    rw [← List.append_assoc]
    exact ih h

omit hfs hname in
/-- Where a path leads nowhere, its members are nowhere. -/
theorem walk_child_none {jump : Location → String → List String → Option Location}
    (hjump : ∀ here target rest, jump here target rest = none →
      jump here target (rest ++ [name]) = none) (path : List String) :
    ∀ here, walk fs jump true here path = none →
      walk fs jump true here (path ++ [name]) = none := by
  induction path with
  | nil =>
    intro here h
    rw [walk] at h
    cases h
  | cons first rest ih =>
    intro here h
    rw [List.cons_append, walk]
    rw [walk] at h
    split
    · next hdot =>
      rw [if_pos hdot] at h
      exact ih here h
    · next hdot =>
      rw [if_neg hdot] at h
      split
      · next hup =>
        rw [if_pos hup] at h
        exact ih _ h
      · next hup =>
        rw [if_neg hup] at h
        cases hnode : lookup fs (first :: here) with
        | none => rfl
        | some node =>
          rw [hnode] at h
          cases node with
          | directory => exact ih _ h
          | file => exact if_neg (by simp)
          | link target =>
            dsimp only at h ⊢
            rw [if_neg fun h => Bool.noConfusion h.2] at h ⊢
            exact hjump here target rest h

omit hfs hname in
theorem resolveFrom_child_none (limit : ℕ) :
    ∀ {here : Location} {path : List String}, resolveFrom fs true limit here path = none →
      resolveFrom fs true limit here (path ++ [name]) = none := by
  induction limit with
  | zero => exact fun h => walk_child_none (fun _ _ _ _ => rfl) _ _ h
  | succ limit ih =>
    refine fun h => walk_child_none (fun here target rest h => ?_) _ _ h
    rw [← List.append_assoc]
    exact ih h

omit hfs in
theorem components_child (path : String) :
    components (path ++ "/" ++ name) = components path ++ [name] :=
  components_append_name path hname.2.2.2

omit hfs hname in
theorem start_child {path : String} (hne : path ≠ "") (home : Location) :
    start home (path ++ "/" ++ name) = start home path := by
  have hchars : path.toList ≠ [] := by simpa using hne
  obtain ⟨c, cs, hcs⟩ := List.exists_cons_of_ne_nil hchars
  simp [start, isAbsolute, String.toList_append, hcs]

omit hfs hname in
theorem child_ne_empty (path : String) : path ++ "/" ++ name ≠ "" := by
  intro h
  have hchars := congrArg String.toList h
  simp at hchars

/-- **The path of a member** leads to it, and to nowhere else. -/
theorem resolve_child {limit : ℕ} {path : String} (hne : path ≠ "") :
    resolve fs tree.home limit false (path ++ "/" ++ name) =
      (resolve fs tree.home limit true path).bind fun d =>
        (lookup fs (name :: d)).map fun _ => name :: d := by
  unfold resolve
  rw [if_neg (child_ne_empty path), if_neg hne, components_child hname, start_child hne]
  exact resolveFrom_child tree hfs hname limit _ _

theorem resolve_child_directory {limit : ℕ} {path : String} {d : Location}
    (h : resolve fs tree.home limit true path = some d)
    (hd : lookup fs (name :: d) = some .directory) :
    resolve fs tree.home limit true (path ++ "/" ++ name) = some (name :: d) := by
  unfold resolve at h ⊢
  split at h
  · cases h
  · next hne =>
    rw [if_neg (child_ne_empty path), components_child hname, start_child hne]
    exact resolveFrom_child_directory tree hfs hname hd limit h

omit hfs in
/-- **Where a path leads nowhere**, so do the paths of its members. -/
theorem resolve_child_none {limit : ℕ} {path : String} (hne : path ≠ "")
    (h : resolve fs tree.home limit true path = none) :
    resolve fs tree.home limit true (path ++ "/" ++ name) = none := by
  unfold resolve at h ⊢
  rw [if_neg hne] at h
  rw [if_neg (child_ne_empty path), components_child hname, start_child hne]
  exact resolveFrom_child_none limit h

end Child

/-! ### Following the last component -/

omit hfs in
theorem walk_follow {jump jump' : Location → String → List String → Option Location} {d : Location}
    (hjump : ∀ here target rest, jump here target rest = some d →
      ∃ l, jump' here target rest = some l ∧ (l = d ∨ ∃ target, lookup fs l = some (.link target)))
    (path : List String) :
    ∀ here, walk fs jump true here path = some d →
      ∃ l, walk fs jump' false here path = some l ∧
        (l = d ∨ ∃ target, lookup fs l = some (.link target)) := by
  induction path with
  | nil =>
    intro here h
    rw [walk] at h
    exact ⟨here, by rw [walk], .inl (Option.some.inj h)⟩
  | cons first rest ih =>
    intro here h
    rw [walk] at h ⊢
    split at h
    · next hdot =>
      rw [if_pos hdot]
      exact ih here h
    · next hdot =>
      rw [if_neg hdot]
      split at h
      · next hup =>
        rw [if_pos hup]
        exact ih _ h
      · next hup =>
        rw [if_neg hup]
        cases hnode : lookup fs (first :: here) with
        | none =>
          rw [hnode] at h
          cases h
        | some node =>
          rw [hnode] at h
          cases node with
          | directory => exact ih _ h
          | file =>
            dsimp only at h ⊢
            exact ⟨d, h, .inl rfl⟩
          | link target =>
            dsimp only at h ⊢
            rw [if_neg fun h => Bool.noConfusion h.2] at h
            split
            · -- the last link is not followed
              exact ⟨first :: here, rfl, .inr ⟨target, hnode⟩⟩
            · exact hjump here target rest h

omit hfs in
theorem resolveFrom_follow {d : Location} (limit : ℕ) :
    ∀ {here : Location} {path : List String}, resolveFrom fs true limit here path = some d →
      ∃ l, resolveFrom fs false limit here path = some l ∧
        (l = d ∨ ∃ target, lookup fs l = some (.link target)) := by
  induction limit with
  | zero => exact fun h => walk_follow (by rintro _ _ _ ⟨⟩) _ _ h
  | succ limit ih => exact fun h => walk_follow (fun _ _ _ h => ih h) _ _ h

omit hfs in
/-- **Where a path leads somewhere**, there is something by that path, which is there or is a
link. -/
theorem resolve_follow {limit : ℕ} {path : String} {d : Location}
    (h : resolve fs tree.home limit true path = some d) :
    ∃ l, resolve fs tree.home limit false path = some l ∧
      (l = d ∨ ∃ target, lookup fs l = some (.link target)) := by
  unfold resolve at h ⊢
  split at h
  · cases h
  · next hne =>
    rw [if_neg hne]
    exact resolveFrom_follow limit h

/-- A path that is not followed ends at something, or at a directory on the way. -/
theorem walk_ends {jump : Location → String → List String → Option Location}
    (hjump : ∀ here target rest l, lookup tree.entries here = some .directory →
      jump here target rest = some l →
        lookup fs l ≠ none ∨ lookup tree.entries l = some .directory) (path : List String) :
    ∀ {here l : Location}, lookup tree.entries here = some .directory →
      walk fs jump false here path = some l →
        lookup fs l ≠ none ∨ lookup tree.entries l = some .directory := by
  induction path with
  | nil =>
    intro here l hhere h
    rw [walk] at h
    obtain rfl := Option.some.inj h
    exact .inr hhere
  | cons first rest ih =>
    intro here l hhere h
    rw [walk] at h
    split at h
    · exact ih hhere h
    · split at h
      · refine ih ?_ h
        cases here with
        | nil =>
          -- the root is above itself
          rfl
        | cons => exact lookup_parent tree (List.Subset.refl _) hhere
      · cases hnode : lookup fs (first :: here) with
        | none =>
          rw [hnode] at h
          cases h
        | some node =>
          have hthere : lookup fs (first :: here) ≠ none := by
            rw [hnode]
            exact Option.some_ne_none node
          rw [hnode] at h
          cases node with
          | directory => exact ih (lookup_of_subset tree hfs hnode) h
          | file =>
            dsimp only at h
            split at h
            · obtain rfl := Option.some.inj h
              exact .inl hthere
            · cases h
          | link target =>
            dsimp only at h
            split at h
            · obtain rfl := Option.some.inj h
              exact .inl hthere
            · exact hjump here target rest l hhere h

omit hfs in
theorem lookup_start {here : Location} (hhere : lookup tree.entries here = some .directory)
    (path : String) : lookup tree.entries (start here path) = some .directory := by
  unfold start
  split
  · rfl
  · exact hhere

theorem resolveFrom_ends (limit : ℕ) :
    ∀ {here l : Location} {path : List String}, lookup tree.entries here = some .directory →
      resolveFrom fs false limit here path = some l →
        lookup fs l ≠ none ∨ lookup tree.entries l = some .directory := by
  induction limit with
  | zero => exact fun hhere h => walk_ends tree hfs (by rintro _ _ _ _ _ ⟨⟩) _ hhere h
  | succ limit ih =>
    exact fun hhere h => walk_ends tree hfs
      (fun here target rest l hhere h => ih (lookup_start tree hhere target) h) _ hhere h

theorem resolve_ends {limit : ℕ} {path : String} {l : Location}
    (h : resolve fs tree.home limit false path = some l) :
    lookup fs l ≠ none ∨ lookup tree.entries l = some .directory := by
  unfold resolve at h
  split at h
  · cases h
  · exact resolveFrom_ends tree hfs limit (lookup_start tree tree.home_directory path) h

end Within

/-! ### What stands beneath a location -/

section Beneath

variable (tree : Tree)

/-- What another thing stands beneath is a directory. -/
theorem lookup_of_suffix {above location : Location} {node : Node}
    (h : lookup tree.entries location = some node) (hsuffix : above <:+ location)
    (hne : above ≠ location) : lookup tree.entries above = some .directory := by
  induction location generalizing node with
  | nil => exact absurd (List.suffix_nil.mp hsuffix) hne
  | cons name parent ih =>
    have hparent := lookup_parent tree (List.Subset.refl _) h
    obtain heq | hsuffix := List.suffix_cons_iff.mp hsuffix
    · exact absurd heq hne
    · by_cases heq : above = parent
      · rw [heq]
        exact hparent
      · exact ih hparent hsuffix heq

/-- The entries within a directory, at any depth. -/
def within (fs : List Entry) (directory : Location) : List Entry :=
  fs.filter fun e => directory <:+ e.parent

/-- There is less within a member than within its directory. -/
theorem within_child_lt {fs : List Entry} {e : Entry} (he : e ∈ fs) :
    (within fs e.location).length < (within fs e.parent).length := by
  have hsub : within fs e.location = (within fs e.parent).filter fun e' =>
    e.location <:+ e'.parent := by
    unfold within
    rw [List.filter_filter]
    refine List.filter_congr fun e' _ => ?_
    rw [Bool.eq_iff_iff]
    simp only [Bool.and_eq_true, decide_eq_true_eq]
    exact ⟨fun h => ⟨h, (List.suffix_cons _ _).trans h⟩, fun h => h.1⟩
  rw [hsub, List.length_filter_lt_length_iff_exists]
  refine ⟨e, List.mem_filter.mpr ⟨he, by simp⟩, ?_⟩
  intro hsuffix
  have hlength := (of_decide_eq_true hsuffix).length_le
  rw [Entry.location, List.length_cons] at hlength
  exact Nat.lt_irrefl _ hlength

/-- **What a removal from the inside out takes first** of a directory: it goes into the first member
as long as there is one, and takes the directory itself where there is none. -/
inductive FirstRemoved (fs : List Entry) : Location → Location → Prop
  | empty {d : Location} (h : listing fs d = []) : FirstRemoved fs d d
  | member {d : Location} {e : Entry} {others : List Entry} (h : listing fs d = e :: others)
      (hnode : e.node ≠ .directory) : FirstRemoved fs d e.location
  | inside {d x : Location} {e : Entry} {others : List Entry} (h : listing fs d = e :: others)
      (hnode : e.node = .directory) (hx : FirstRemoved fs e.location x) : FirstRemoved fs d x

theorem mem_of_listing {fs : List Entry} {d : Location} {e : Entry} {others : List Entry}
    (h : listing fs d = e :: others) : e ∈ fs ∧ e.parent = d := by
  have he : e ∈ listing fs d := h ▸ List.mem_cons_self
  simpa [listing] using he

theorem FirstRemoved.exists_entry {fs : List Entry} {d x : Location} (h : FirstRemoved fs d x)
    (hne : listing fs d ≠ []) : ∃ e ∈ fs, e.location = x := by
  induction h with
  | empty hlisting => exact absurd hlisting hne
  | member hlisting => exact ⟨_, (mem_of_listing hlisting).1, rfl⟩
  | @inside d x e others hlisting _ hx ih =>
    by_cases hinner : listing fs e.location = []
    · cases hx with
      | empty => exact ⟨e, (mem_of_listing hlisting).1, rfl⟩
      | member hlisting' => exact absurd hinner (hlisting' ▸ List.cons_ne_nil _ _)
      | inside hlisting' => exact absurd hinner (hlisting' ▸ List.cons_ne_nil _ _)
    · exact ih hinner

theorem exists_firstRemoved (fs : List Entry) (d : Location) : ∃ x, FirstRemoved fs d x := by
  -- there is less and less within
  induction hn : (within fs d).length using Nat.strong_induction_on generalizing d with
  | _ n ih =>
    cases hlisting : listing fs d with
    | nil => exact ⟨d, .empty hlisting⟩
    | cons e =>
      obtain ⟨he, rfl⟩ := mem_of_listing hlisting
      by_cases hnode : e.node = .directory
      · obtain ⟨x, hx⟩ := ih _ (hn ▸ within_child_lt he) e.location rfl
        exact ⟨x, .inside hlisting hnode hx⟩
      · exact ⟨e.location, .member hlisting hnode⟩

end Beneath

end FileTree
