import McpSshTool.Library.FileTree
import McpSshTool.Ssh.Hosts
import McpSshTool.Ssh.Performs

/-!
# Recursive removal over SFTP

`removeRecursive` on a host that keeps a file tree with symbolic links.

* `sftpHost` — the host: STAT and the opening of a directory follow links, a listing describes the
  members themselves, UNLINK and RMDIR take what stands at the path;
* `rmdirRecursive_ends` — what a run of the recursion can take, and that it comes to an end;
* `rmdirRecursive_takes`, `rmdirRecursive_takes_only` — what it takes first, and that it is lost
  after it has taken its own path;
* `RemovesInside`, `Escapes`, `removes_inside_iff` — when the removal of a path stays inside it.
-/

open Library FileTree

namespace Ssh

open Program

/-! ### The host -/

/-- The type of what stands somewhere, in the bits of its mode. -/
def typeBits : Node → ℕ
  | .file => 0o100000
  | .directory => 0o040000
  | .link _ => 0o120000

/-- The attributes of what stands somewhere. -/
def attributes (node : Node) : Stats :=
  { mode := some (typeBits node), size := none, mtime := none }

/-- An entry of a listing. -/
def listed (e : Entry) : FileEntry := ⟨e.name, attributes e.node⟩

theorem isDirectoryMode_attributes (node : Node) :
    isDirectoryMode (attributes node).mode = decide (node = .directory) := by
  cases node with
  | file => decide
  | directory => decide
  | link =>
    have hbits : isDirectoryMode (some 0o120000) = false := by decide
    rw [attributes, typeBits, hbits]
    exact (decide_eq_false (by rintro ⟨⟩)).symm

section Host

variable (session : Session) (home : Location) (limit : ℕ)

/-- STAT. -/
def statAt (fs : List Entry) (path : String) : Except Failure Stats :=
  match (resolve fs home limit true path).bind (lookup fs) with
  | some node => .ok (attributes node)
  | none => .error noSuchFile

/-- The listing of a directory. -/
def readdirAt (fs : List Entry) (path : String) : Except Failure (List FileEntry) :=
  match resolve fs home limit true path with
  | some d =>
    if lookup fs d = some .directory then .ok ((listing fs d).map listed) else .error sftpFailure
  | none => .error noSuchFile

/-- UNLINK. -/
def unlinkAt (fs : List Entry) (path : String) : List Entry × Except Failure Unit :=
  match resolve fs home limit false path with
  | some l =>
    if lookup fs l ≠ none ∧ lookup fs l ≠ some .directory then (erase fs l, .ok ())
    else (fs, .error sftpFailure)
  | none => (fs, .error noSuchFile)

/-- RMDIR, of an empty directory that is not named by dots. -/
def rmdirAt (fs : List Entry) (path : String) : List Entry × Except Failure Unit :=
  match resolve fs home limit false path with
  | some l =>
    if l ≠ [] ∧ lookup fs l = some .directory ∧ listing fs l = [] ∧
        (components path).getLast? ≠ some "." ∧ (components path).getLast? ≠ some ".." then
      (erase fs l, .ok ())
    else (fs, .error sftpFailure)
  | none => (fs, .error noSuchFile)

/-- **The host**, in a session that has an SFTP channel. -/
def sftpHost (fs : List Entry) : (op : Operation) → List Entry × Answer op
  | .getSession _ => (fs, some session)
  | .sftpStat path => (fs, statAt home limit fs path.text)
  | .sftpReaddir path => (fs, readdirAt home limit fs path.text)
  | .sftpUnlink path => unlinkAt home limit fs path.text
  | .sftpRmdir path => rmdirAt home limit fs path.text
  | op => (fs, refused op)

end Host

/-! ### Single operations -/

section Operations

variable {home : Location} {limit : ℕ} {fs : List Entry} {path : String}

theorem erase_subset (fs : List Entry) (l : Location) : erase fs l ⊆ fs :=
  List.filter_subset_self _

theorem location_of_notMem_erase {l : Location} {e : Entry} (he : e ∈ fs) (h : e ∉ erase fs l) :
    e.location = l := by
  by_contra hne
  exact h (List.mem_filter.mpr ⟨he, by simpa using hne⟩)

theorem unlinkAt_cases (home : Location) (limit : ℕ) (fs : List Entry) (path : String) :
    ((unlinkAt home limit fs path).1 = fs ∧ (unlinkAt home limit fs path).2 ≠ .error .unfinished) ∨
      ∃ l, resolve fs home limit false path = some l ∧
        unlinkAt home limit fs path = (erase fs l, .ok ()) := by
  unfold unlinkAt
  split
  · next l hl =>
    split
    · exact .inr ⟨l, hl, rfl⟩
    · exact .inl ⟨rfl, nofun⟩
  · exact .inl ⟨rfl, nofun⟩

theorem rmdirAt_cases (home : Location) (limit : ℕ) (fs : List Entry) (path : String) :
    ((rmdirAt home limit fs path).1 = fs ∧ (rmdirAt home limit fs path).2 ≠ .error .unfinished) ∨
      ∃ l, resolve fs home limit false path = some l ∧
        rmdirAt home limit fs path = (erase fs l, .ok ()) := by
  unfold rmdirAt
  split
  · next l hl =>
    split
    · exact .inr ⟨l, hl, rfl⟩
    · exact .inl ⟨rfl, nofun⟩
  · exact .inl ⟨rfl, nofun⟩

theorem readdirAt_cases (home : Location) (limit : ℕ) (fs : List Entry) (path : String) :
    (∃ e, readdirAt home limit fs path = .error e ∧ e ≠ .unfinished) ∨
      ∃ d, resolve fs home limit true path = some d ∧ lookup fs d = some .directory ∧
        readdirAt home limit fs path = .ok ((listing fs d).map listed) := by
  unfold readdirAt
  split
  · next d hd =>
    split
    · next hdirectory => exact .inr ⟨d, hd, hdirectory, rfl⟩
    · exact .inl ⟨_, rfl, nofun⟩
  · exact .inl ⟨_, rfl, nofun⟩

end Operations

/-! ### The recursion -/

/-- What the recursion does with a member of the directory. -/
def removeMember (depth : ℕ) (path : RemotePath) (item : FileEntry) : Task Unit :=
  if isDirectoryMode item.attrs.mode then sftpRmdirRecursive depth (path.child item.filename)
  else sftpUnlink (path.child item.filename)

theorem sftpRmdirRecursive_succ (depth : ℕ) (path : RemotePath) :
    sftpRmdirRecursive (depth + 1) path = (do
      let entries ← sftpReaddir path
      let _ ← Program.traverse (removeMember depth path) entries
      sftpRmdir path) := rfl

theorem removeMember_listed (depth : ℕ) (path : RemotePath) (e : Entry) :
    removeMember depth path (listed e) =
      if e.node = .directory then sftpRmdirRecursive depth (path.child e.name)
      else sftpUnlink (path.child e.name) := by
  unfold removeMember listed
  rw [isDirectoryMode_attributes]
  simp only [decide_eq_true_eq]

section Recursion

variable {session : Session} {limit : ℕ} (tree : Tree)

/-- The host of a tree. -/
abbrev hostOf (session : Session) (limit : ℕ) (tree : Tree) :
    List Entry → (op : Operation) → List Entry × Answer op :=
  sftpHost session tree.home limit

/-- Where a path leads in the whole tree, its last component followed. -/
abbrev leadsTo (limit : ℕ) (path : String) : Option Location :=
  resolve tree.entries tree.home limit true path

/-- Where what a path names stands in the whole tree. -/
abbrev ownLocation (limit : ℕ) (path : String) : Option Location :=
  resolve tree.entries tree.home limit false path

/-- **A step of a removal**: nothing is new, and what is gone is so. -/
def Takes (P : Entry → Prop) (fs fs' : List Entry) : Prop :=
  fs' ⊆ fs ∧ ∀ e ∈ fs, e ∉ fs' → P e

section Takes

variable {P P' : Entry → Prop} {fs fs' fs'' : List Entry}

theorem Takes.refl (P : Entry → Prop) (fs : List Entry) : Takes P fs fs :=
  ⟨List.Subset.refl _, fun _ he hne => absurd he hne⟩

theorem Takes.trans (h : Takes P fs fs') (h' : Takes P fs' fs'') : Takes P fs fs'' := by
  refine ⟨List.Subset.trans h'.1 h.1, fun e he hne => ?_⟩
  by_cases he' : e ∈ fs'
  · exact h'.2 e he' hne
  · exact h.2 e he he'

theorem Takes.mono (h : Takes P fs fs') (hP : ∀ e, P e → P' e) : Takes P' fs fs' :=
  ⟨h.1, fun e he hne => hP e (h.2 e he hne)⟩

theorem takes_erase (fs : List Entry) (l : Location) :
    Takes (fun e => e.location = l) fs (erase fs l) :=
  ⟨erase_subset fs l, fun _ he hne => location_of_notMem_erase he hne⟩

end Takes

theorem takes_of_cases {path : String} {fs : List Entry} {r : List Entry × Except Failure Unit}
    (hfs : fs ⊆ tree.entries)
    (h : (r.1 = fs ∧ r.2 ≠ .error .unfinished) ∨
      ∃ l, resolve fs tree.home limit false path = some l ∧ r = (erase fs l, .ok ())) :
    Takes (fun e => ownLocation tree limit path = some e.location) fs r.1 ∧
      r.2 ≠ .error .unfinished := by
  obtain ⟨hsame, hfinished⟩ | ⟨l, hl, rfl⟩ := h
  · exact ⟨hsame.symm ▸ .refl _ _, hfinished⟩
  · refine ⟨(takes_erase fs l).mono fun e he => ?_, nofun⟩
    rw [he]
    exact resolve_mono tree hfs hl

theorem unlink_ends (path : RemotePath) {fs : List Entry} (hfs : fs ⊆ tree.entries) :
    Ends (hostOf session limit tree) (sftpUnlink path) fs fun fs' result =>
      Takes (fun e => ownLocation tree limit path.text = some e.location) fs fs' ∧
        result ≠ .error .unfinished :=
  takes_of_cases tree hfs (unlinkAt_cases tree.home limit fs path.text)

theorem rmdir_ends (path : RemotePath) {fs : List Entry} (hfs : fs ⊆ tree.entries) :
    Ends (hostOf session limit tree) (sftpRmdir path) fs fun fs' result =>
      Takes (fun e => ownLocation tree limit path.text = some e.location) fs fs' ∧
        result ≠ .error .unfinished :=
  takes_of_cases tree hfs (rmdirAt_cases tree.home limit fs path.text)

/-- The listing fails and leaves everything as it is, or it is the listing of the directory that the
path leads to in the whole tree. -/
theorem readdir_bind_ends {path : RemotePath} {fs : List Entry} (hfs : fs ⊆ tree.entries)
    {f : List FileEntry → Task Unit} {Q : List Entry → Except Failure Unit → Prop}
    (herror : ∀ e, e ≠ .unfinished → Q fs (.error e))
    (hok : ∀ d, leadsTo tree limit path.text = some d → lookup fs d = some .directory →
      Ends (hostOf session limit tree) (f ((listing fs d).map listed)) fs Q) :
    Ends (hostOf session limit tree) (sftpReaddir path >>= f) fs Q := by
  change Ends _ (andThen (.done (readdirAt tree.home limit fs path.text)) _) fs Q
  rw [done_andThen]
  obtain ⟨e, hread, hfinished⟩ | ⟨d, hd, hdirectory, hread⟩ :=
    readdirAt_cases tree.home limit fs path.text
  · rw [hread]
    exact herror e hfinished
  · rw [hread]
    exact hok d (resolve_mono tree hfs hd) hdirectory

/-- The member of a directory is what the path of the member names. -/
theorem ownLocation_child {path : RemotePath} {d : Location}
    (hd : leadsTo tree limit path.text = some d)
    {e : Entry} (he : e ∈ tree.entries) (hparent : e.parent = d) :
    ownLocation tree limit (path.child e.name).text = some e.location := by
  have hne : path.text ≠ "" := by
    intro hempty
    rw [hempty] at hd
    cases hd
  have hlookup := lookup_location tree he
  rw [Entry.location, hparent] at hlookup
  rw [leadsTo] at hd
  rw [RemotePath.text_child, ownLocation,
    resolve_child tree (List.Subset.refl _) (tree.names e he) hne, hd, Option.bind_some, hlookup,
    Entry.location, hparent]
  rfl

theorem leadsTo_child {path : RemotePath} {d : Location}
    (hd : leadsTo tree limit path.text = some d)
    {e : Entry} (he : e ∈ tree.entries) (hparent : e.parent = d) (hnode : e.node = .directory) :
    leadsTo tree limit (path.child e.name).text = some e.location := by
  have hlookup := lookup_location tree he
  rw [hnode, Entry.location, hparent] at hlookup
  rw [RemotePath.text_child, Entry.location, hparent]
  exact resolve_child_directory tree (List.Subset.refl _) (tree.names e he) hd hlookup

/-- What the recursion does with a member takes what stands within the directory. -/
theorem removeMember_ends {depth : ℕ} {path : RemotePath} {fs : List Entry} {e : Entry}
    (hfs : fs ⊆ tree.entries) (hd : leadsTo tree limit path.text = some e.parent)
    (he : e ∈ tree.entries)
    (hdirectory : leadsTo tree limit (path.child e.name).text = some e.location →
      Ends (hostOf session limit tree) (sftpRmdirRecursive depth (path.child e.name)) fs
        fun fs' result => Takes (fun e' => e.location <:+ e'.parent ∨
          ownLocation tree limit (path.child e.name).text = some e'.location) fs fs' ∧
            result ≠ .error .unfinished) :
    Ends (hostOf session limit tree) (removeMember depth path (listed e)) fs fun fs' result =>
      Takes (fun e' => e.parent <:+ e'.parent) fs fs' ∧ result ≠ .error .unfinished := by
  have hown := ownLocation_child tree hd he rfl
  have hat : ∀ e' : Entry, ownLocation tree limit (path.child e.name).text = some e'.location →
      e.parent <:+ e'.parent := by
    intro e' h
    obtain ⟨_, hparent⟩ := List.cons.inj (Option.some.inj (hown.symm.trans h))
    rw [hparent]
  rw [removeMember_listed]
  split
  · next hnode =>
    refine (hdirectory (leadsTo_child tree hd he rfl hnode)).mono fun fs' result h =>
      ⟨h.1.mono fun e' hgone => ?_, h.2⟩
    obtain hwithin | h := hgone
    · exact (List.suffix_cons _ _).trans hwithin
    · exact hat e' h
  · exact (unlink_ends tree _ hfs).mono fun fs' result h => ⟨h.1.mono hat, h.2⟩

variable (session limit) in
/-- **What runs of the recursion to a depth can take**: what stands within the directory that the
path leads to, and what stands at the path. The runs come to an end, if the depth is more than there
is within. -/
def RemovesWithin (depth : ℕ) : Prop :=
  ∀ {path : RemotePath} {fs : List Entry} {d : Location}, fs ⊆ tree.entries →
    leadsTo tree limit path.text = some d → (within tree.entries d).length < depth →
    Ends (hostOf session limit tree) (sftpRmdirRecursive depth path) fs fun fs' result =>
      Takes (fun e => d <:+ e.parent ∨ ownLocation tree limit path.text = some e.location) fs fs' ∧
        result ≠ .error .unfinished

/-- Whatever members are taken stand within the directory. -/
theorem members_ends {depth : ℕ} (hrec : RemovesWithin session limit tree depth) {path : RemotePath}
    {d : Location} (hd : leadsTo tree limit path.text = some d)
    (hdepth : (within tree.entries d).length < depth + 1) {members : List Entry}
    (hmembers : ∀ e ∈ members, e ∈ tree.entries ∧ e.parent = d) {fs : List Entry}
    (hfs : fs ⊆ tree.entries) :
    Ends (hostOf session limit tree) (Program.traverse (removeMember depth path)
      (members.map listed)) fs
      fun fs' result => Takes (fun e => d <:+ e.parent) fs fs' ∧
        ∀ e, result = .error e → e ≠ .unfinished := by
  refine ends_traverse ?_ (.refl _ _)
  rintro item hitem fs₁ hfs₁
  obtain ⟨e, he, rfl⟩ := List.mem_map.mp hitem
  obtain ⟨he, rfl⟩ := hmembers e he
  have hsub : fs₁ ⊆ tree.entries := List.Subset.trans hfs₁.1 hfs
  have hless : (within tree.entries e.location).length < depth :=
    Nat.lt_of_lt_of_le (within_child_lt he) (Nat.le_of_lt_succ hdepth)
  refine (removeMember_ends tree hsub hd he fun h => hrec hsub h hless).mono
    fun fs₂ result h => ⟨hfs₁.trans h.1, ?_⟩
  rintro err rfl rfl
  exact h.2 rfl

theorem mem_listing {fs : List Entry} {d : Location} {e : Entry} :
    e ∈ listing fs d ↔ e ∈ fs ∧ e.parent = d := by
  rw [listing, List.mem_filter, decide_eq_true_eq]

/-- **The recursion stays within** what it removes, and ends. -/
theorem rmdirRecursive_ends (depth : ℕ) : RemovesWithin session limit tree depth := by
  induction depth with
  | zero => exact fun _ _ hdepth => absurd hdepth (Nat.not_lt_zero _)
  | succ depth ih =>
    intro path fs d hfs hd hdepth
    rw [sftpRmdirRecursive_succ]
    refine readdir_bind_ends tree hfs (fun e he => ⟨.refl _ _, fun h => he (Except.error.inj h)⟩) ?_
    intro d' hd' _
    obtain rfl : d' = d := Option.some.inj (hd'.symm.trans hd)
    have hmembers := members_ends tree ih hd hdepth
      (fun e he => ⟨hfs (mem_listing.mp he).1, (mem_listing.mp he).2⟩) hfs
    refine hmembers.bind (fun fs₁ _ hfs₁ => ?_) fun fs₁ e hfs₁ => ?_
    · refine (rmdir_ends tree path (List.Subset.trans hfs₁.1.1 hfs)).mono fun fs₂ result h =>
        ⟨(hfs₁.1.mono fun _ => .inl).trans (h.1.mono fun _ => .inr), h.2⟩
    · exact ⟨hfs₁.1.mono fun _ => .inl, fun h => hfs₁.2 e rfl (Except.error.inj h)⟩

/-! ### What is taken first -/

/-- A directory of the whole tree is listed. -/
theorem readdir_bind_of_directory {path : RemotePath} {d : Location}
    (hd : leadsTo tree limit path.text = some d)
    (hdirectory : lookup tree.entries d = some .directory) {f : List FileEntry → Task Unit}
    {Q : List Entry → Except Failure Unit → Prop}
    (h : Ends (hostOf session limit tree) (f ((listing tree.entries d).map listed))
      tree.entries Q) :
    Ends (hostOf session limit tree) (sftpReaddir path >>= f) tree.entries Q := by
  have hread : readdirAt tree.home limit tree.entries path.text =
      .ok ((listing tree.entries d).map listed) := by
    rw [leadsTo] at hd
    unfold readdirAt
    rw [hd]
    exact if_pos hdirectory
  change Ends _ (andThen (.done (readdirAt tree.home limit tree.entries path.text)) _) _ Q
  rw [done_andThen, hread]
  exact h

/-- A member that is no directory is taken by its path. -/
theorem unlink_member {path : RemotePath} {e : Entry}
    (hd : leadsTo tree limit path.text = some e.parent)
    (he : e ∈ tree.entries) (hnode : e.node ≠ .directory)
    {Q : List Entry → Except Failure Unit → Prop} (h : Q (erase tree.entries e.location) (.ok ())) :
    Ends (hostOf session limit tree) (sftpUnlink (path.child e.name)) tree.entries Q := by
  have hown := ownLocation_child tree hd he rfl
  have hunlink : unlinkAt tree.home limit tree.entries (path.child e.name).text =
      (erase tree.entries e.location, .ok ()) := by
    rw [ownLocation] at hown
    unfold unlinkAt
    rw [hown]
    dsimp only
    rw [lookup_location tree he]
    exact if_pos ⟨Option.some_ne_none _, fun h => hnode (Option.some.inj h)⟩
  change Q (unlinkAt tree.home limit tree.entries (path.child e.name).text).1
    (unlinkAt tree.home limit tree.entries (path.child e.name).text).2
  rw [hunlink]
  exact h

/-- Nothing stands at the location any more. -/
def Gone (x : Location) (fs : List Entry) : Prop :=
  fs ⊆ tree.entries ∧ ∀ e ∈ fs, e.location ≠ x

theorem Gone.of_subset {x : Location} {fs fs' : List Entry} (h : Gone tree x fs) (hsub : fs' ⊆ fs) :
    Gone tree x fs' :=
  ⟨List.Subset.trans hsub h.1, fun e he => h.2 e (hsub he)⟩

theorem gone_erase (x : Location) : Gone tree x (erase tree.entries x) :=
  ⟨erase_subset _ _, fun e he => by simpa [erase] using (List.mem_filter.mp he).2⟩

theorem ends_with_name {path : RemotePath} {name : String} (hname : IsName name) :
    (components (path.child name).text).getLast? ≠ some "." ∧
      (components (path.child name).text).getLast? ≠ some ".." := by
  rw [RemotePath.text_child, components_child hname, List.getLast?_concat]
  exact ⟨fun h => hname.2.1 (Option.some.inj h), fun h => hname.2.2.1 (Option.some.inj h)⟩

/-- What holds after the first member is done with, and is kept by the rest of the recursion. -/
theorem recursion_of_first {path : RemotePath} {depth : ℕ} {e : Entry} {others : List Entry}
    (hd : leadsTo tree limit path.text = some e.parent) (he : e ∈ tree.entries)
    (hlisting : listing tree.entries e.parent = e :: others) {K : List Entry → Prop}
    (hfirst : Ends (hostOf session limit tree) (removeMember depth path (listed e)) tree.entries
      fun fs' _ => K fs')
    (hothers : ∀ fs, K fs → Ends (hostOf session limit tree)
      (Program.traverse (removeMember depth path) (others.map listed)) fs fun fs' _ => K fs')
    (hrmdir : ∀ fs, K fs → Ends (hostOf session limit tree) (sftpRmdir path) fs fun fs' _ =>
      K fs') :
    Ends (hostOf session limit tree) (sftpRmdirRecursive (depth + 1) path) tree.entries
      fun fs' _ => K fs' := by
  rw [sftpRmdirRecursive_succ]
  refine readdir_bind_of_directory tree hd (tree.rooted e he) ?_
  rw [hlisting, List.map_cons]
  exact Ends.bind (Q := fun fs' _ => K fs') (ends_traverse_cons hfirst hothers)
    (fun fs' _ h => hrmdir fs' h) fun _ _ h => h

/-- The rest of the recursion takes more, and brings nothing back. -/
theorem gone_of_first {path : RemotePath} {depth : ℕ} {e : Entry} {others : List Entry}
    {x : Location}
    (hd : leadsTo tree limit path.text = some e.parent) (he : e ∈ tree.entries)
    (hdepth : (within tree.entries e.parent).length < depth + 1)
    (hlisting : listing tree.entries e.parent = e :: others)
    (hfirst : Ends (hostOf session limit tree) (removeMember depth path (listed e)) tree.entries
      fun fs' _ => Gone tree x fs') :
    Ends (hostOf session limit tree) (sftpRmdirRecursive (depth + 1) path) tree.entries
      fun fs' _ => Gone tree x fs' := by
  have hmembers : ∀ e' ∈ others, e' ∈ tree.entries ∧ e'.parent = e.parent := fun e' he' =>
    mem_listing.mp (hlisting ▸ List.mem_cons_of_mem _ he')
  refine recursion_of_first tree hd he hlisting hfirst (fun fs hfs => ?_) fun fs hfs => ?_
  · exact (members_ends tree (rmdirRecursive_ends tree depth) hd hdepth hmembers hfs.1).mono
      fun fs' _ h => hfs.of_subset tree h.1.1
  · exact (rmdir_ends tree path hfs.1).mono fun fs' _ h => hfs.of_subset tree h.1.1

/-- **What is taken first is taken**, from the whole tree. -/
theorem rmdirRecursive_takes {d x : Location} (hfirst : FirstRemoved tree.entries d x) :
    ∀ {path : RemotePath} {depth : ℕ}, leadsTo tree limit path.text = some d →
      lookup tree.entries d = some .directory → (within tree.entries d).length < depth →
      (listing tree.entries d = [] → ownLocation tree limit path.text = some d ∧ d ≠ [] ∧
        (components path.text).getLast? ≠ some "." ∧ (components path.text).getLast? ≠ some "..") →
      Ends (hostOf session limit tree) (sftpRmdirRecursive depth path) tree.entries
        fun fs' _ => Gone tree x fs' := by
  induction hfirst with
  | @empty d hlisting =>
    intro path depth hd hdirectory hdepth hown
    obtain ⟨depth, rfl⟩ := Nat.exists_eq_succ_of_ne_zero (Nat.ne_zero_of_lt hdepth)
    obtain ⟨hown, hroot, hdots⟩ := hown hlisting
    rw [sftpRmdirRecursive_succ]
    refine readdir_bind_of_directory tree hd hdirectory ?_
    rw [hlisting]
    change Gone tree d (rmdirAt tree.home limit tree.entries path.text).1
    have hrmdir : rmdirAt tree.home limit tree.entries path.text = (erase tree.entries d,
      .ok ()) := by
      rw [ownLocation] at hown
      unfold rmdirAt
      rw [hown]
      exact if_pos ⟨hroot, hdirectory, hlisting, hdots⟩
    rw [hrmdir]
    exact gone_erase tree d
  | @member d e others hlisting hnode =>
    intro path depth hd _ hdepth _
    obtain ⟨depth, rfl⟩ := Nat.exists_eq_succ_of_ne_zero (Nat.ne_zero_of_lt hdepth)
    obtain ⟨he, rfl⟩ := mem_of_listing hlisting
    refine gone_of_first tree hd he hdepth hlisting ?_
    rw [removeMember_listed, if_neg hnode]
    exact unlink_member tree hd he hnode (gone_erase tree e.location)
  | @inside d x e others hlisting hnode _ ih =>
    intro path depth hd _ hdepth _
    obtain ⟨depth, rfl⟩ := Nat.exists_eq_succ_of_ne_zero (Nat.ne_zero_of_lt hdepth)
    obtain ⟨he, rfl⟩ := mem_of_listing hlisting
    refine gone_of_first tree hd he hdepth hlisting ?_
    rw [removeMember_listed, if_pos hnode]
    refine ih (leadsTo_child tree hd he rfl hnode) (hnode ▸ lookup_location tree he)
      (Nat.lt_of_lt_of_le (within_child_lt he) (Nat.le_of_lt_succ hdepth)) fun _ => ?_
    exact ⟨ownLocation_child tree hd he rfl, List.cons_ne_nil _ _,
      ends_with_name (tree.names e he)⟩

/-! ### Once the path itself is taken -/

/-- The path leads nowhere any more. -/
def Lost (limit : ℕ) (fs : List Entry) (path : RemotePath) : Prop :=
  path.text ≠ "" ∧ resolve fs tree.home limit true path.text = none ∧
    resolve fs tree.home limit false path.text = none

theorem Lost.child {fs : List Entry} {path : RemotePath} (h : Lost tree limit fs path)
    (hfs : fs ⊆ tree.entries) {name : String} (hname : IsName name) :
    Lost tree limit fs (path.child name) := by
  obtain ⟨hne, hfollow, _⟩ := h
  unfold Lost
  rw [RemotePath.text_child]
  refine ⟨child_ne_empty _, resolve_child_none tree hname hne hfollow, ?_⟩
  rw [resolve_child tree hfs hname hne, hfollow]
  rfl

theorem unlink_lost {fs : List Entry} {path : RemotePath} (h : Lost tree limit fs path) :
    Ends (hostOf session limit tree) (sftpUnlink path) fs fun fs' _ => fs' = fs := by
  change (unlinkAt tree.home limit fs path.text).1 = fs
  unfold unlinkAt
  rw [h.2.2]

theorem rmdir_lost {fs : List Entry} {path : RemotePath} (h : Lost tree limit fs path) :
    Ends (hostOf session limit tree) (sftpRmdir path) fs fun fs' _ => fs' = fs := by
  change (rmdirAt tree.home limit fs path.text).1 = fs
  unfold rmdirAt
  rw [h.2.2]

theorem rmdirRecursive_lost {fs : List Entry} {path : RemotePath} (h : Lost tree limit fs path)
    (depth : ℕ) :
    Ends (hostOf session limit tree) (sftpRmdirRecursive depth path) fs fun fs' _ => fs' = fs := by
  cases depth with
  | zero => exact ends_done rfl
  | succ =>
    rw [sftpRmdirRecursive_succ]
    have hread : readdirAt tree.home limit fs path.text = .error noSuchFile := by
      unfold readdirAt
      rw [h.2.1]
    refine Ends.bind (Q := fun fs' result => fs' = fs ∧ result = .error noSuchFile) ⟨rfl, hread⟩
      ?_ fun _ _ h => h.1
    rintro _ _ ⟨_, ⟨⟩⟩

theorem members_lost {fs : List Entry} {path : RemotePath} (h : Lost tree limit fs path)
    (hfs : fs ⊆ tree.entries) {members : List Entry} (hmembers : ∀ e ∈ members, e ∈ tree.entries)
    (depth : ℕ) :
    Ends (hostOf session limit tree) (Program.traverse (removeMember depth path)
      (members.map listed)) fs
      fun fs' _ => fs' = fs := by
  refine (ends_traverse (I := (· = fs)) (E := fun _ => True) ?_ rfl).mono fun _ _ h => h.1
  rintro item hitem fs₁ rfl
  obtain ⟨e, he, rfl⟩ := List.mem_map.mp hitem
  have hchild := h.child tree hfs (tree.names e (hmembers e he))
  rw [removeMember_listed]
  split
  · exact (rmdirRecursive_lost tree hchild depth).mono fun _ _ h => ⟨h, fun _ _ => trivial⟩
  · exact (unlink_lost tree hchild).mono fun _ _ h => ⟨h, fun _ _ => trivial⟩

/-- **Where the first thing taken is what the path runs through**, nothing else is taken. -/
theorem rmdirRecursive_takes_only {d x : Location} (hfirst : FirstRemoved tree.entries d x)
    (hx : lookup tree.entries x ≠ some .directory) :
    ∀ {path : RemotePath} {depth : ℕ}, leadsTo tree limit path.text = some d →
      lookup tree.entries d = some .directory → (within tree.entries d).length < depth →
      (∀ fs, Gone tree x fs → Lost tree limit fs path) →
      Ends (hostOf session limit tree) (sftpRmdirRecursive depth path) tree.entries
        fun fs' _ => Gone tree x fs' ∧ Takes (fun e => e.location = x) tree.entries fs' := by
  have hrest : ∀ {path : RemotePath} {depth : ℕ} {e : Entry} {others : List Entry},
      leadsTo tree limit path.text = some e.parent → e ∈ tree.entries →
      listing tree.entries e.parent = e :: others →
      (∀ fs, Gone tree x fs → Lost tree limit fs path) →
      Ends (hostOf session limit tree) (removeMember depth path (listed e)) tree.entries
        (fun fs' _ => Gone tree x fs' ∧ Takes (fun e => e.location = x) tree.entries fs') →
      Ends (hostOf session limit tree) (sftpRmdirRecursive (depth + 1) path) tree.entries
        fun fs' _ => Gone tree x fs' ∧ Takes (fun e => e.location = x) tree.entries fs' := by
    intro path depth e others hd he hlisting hlost hmember
    have hmembers : ∀ e' ∈ others, e' ∈ tree.entries := fun e' he' =>
      (mem_listing.mp (hlisting ▸ List.mem_cons_of_mem _ he')).1
    refine recursion_of_first tree hd he hlisting hmember (fun fs hfs => ?_) fun fs hfs => ?_
    · refine (members_lost tree (hlost fs hfs.1) hfs.1.1 hmembers depth).mono ?_
      rintro _ _ rfl
      exact hfs
    · refine (rmdir_lost tree (hlost fs hfs.1)).mono ?_
      rintro _ _ rfl
      exact hfs
  induction hfirst with
  | empty =>
    intro path depth _ hdirectory
    exact absurd hdirectory hx
  | @member d e others hlisting hnode =>
    intro path depth hd _ hdepth hlost
    obtain ⟨depth, rfl⟩ := Nat.exists_eq_succ_of_ne_zero (Nat.ne_zero_of_lt hdepth)
    obtain ⟨he, rfl⟩ := mem_of_listing hlisting
    refine hrest hd he hlisting hlost ?_
    rw [removeMember_listed, if_neg hnode]
    exact unlink_member tree hd he hnode ⟨gone_erase tree e.location, takes_erase _ _⟩
  | @inside d x e others hlisting hnode _ ih =>
    intro path depth hd _ hdepth hlost
    obtain ⟨depth, rfl⟩ := Nat.exists_eq_succ_of_ne_zero (Nat.ne_zero_of_lt hdepth)
    obtain ⟨he, rfl⟩ := mem_of_listing hlisting
    refine hrest hd he hlisting hlost ?_
    rw [removeMember_listed, if_pos hnode]
    exact ih hx hrest (leadsTo_child tree hd he rfl hnode) (hnode ▸ lookup_location tree he)
      (Nat.lt_of_lt_of_le (within_child_lt he) (Nat.le_of_lt_succ hdepth))
      fun fs hfs => (hlost fs hfs).child tree hfs.1 (tree.names e he)

end Recursion

/-! ### The service -/

variable {rt : Runtime} (engine : PolicyEngine rt) (session : Session)

/-- The policy lets the session remove the path, and not only explain it. -/
def Removes (path : String) : Prop :=
  ∃ decision, engine.assertAllowed (removeContext path session.policyMode) = .ok decision ∧
    decision.mode ≠ .explain

/-- What `removeRecursive` does over SFTP. -/
def removeBody (depth : ℕ) (path : String) : Task Bool := do
  let stats ← sftpStat path
  if isDirectoryMode stats.mode then sftpRmdirRecursive depth path else sftpUnlink path
  pure true

/-- What `removeRecursive` does in a session with an SFTP channel. -/
def removeGuarded (depth : ℕ) (path : String) : Task Bool := do
  let decision ← ofExcept (engine.assertAllowed (removeContext path session.policyMode))
  if decision.mode = .explain then pure true else removeBody depth path

section Service

variable {engine session} {limit : ℕ} {tree : Tree} {depth : ℕ} {sessionId path : String}
  {Q : List Entry → Except Failure Bool → Prop}

theorem removeRecursive_ends_iff (hsftp : session.sftp = true) :
    Ends (hostOf session limit tree) (removeRecursive engine depth sessionId path) tree.entries Q ↔
      Ends (hostOf session limit tree) (removeGuarded engine session depth path) tree.entries
        fun fs' result => Q fs' (result.mapError fun e => wrapError e .EFS ("Failed to remove " ++
          path ++ ". Check if the path exists and you have write permissions.")) := by
  rw [← ends_wrapping]
  unfold removeGuarded removeBody
  cases session with
  | mk policyMode sftp =>
    obtain rfl : sftp = true := hsftp
    exact Iff.rfl

theorem removeGuarded_of_removes (hremoves : Removes engine session path) :
    removeGuarded engine session depth path = removeBody depth path := by
  obtain ⟨decision, hdecision, hmode⟩ := hremoves
  unfold removeGuarded
  rw [hdecision]
  exact if_neg hmode

/-- A removal that is denied or explained takes nothing. -/
theorem removeGuarded_of_not_removes (hremoves : ¬Removes engine session path) :
    Ends (hostOf session limit tree) (removeGuarded engine session depth path) tree.entries
      fun fs' result => result ≠ .error .unfinished ∧ fs' = tree.entries := by
  unfold removeGuarded
  cases hdecision : engine.assertAllowed (removeContext path session.policyMode) with
  | error =>
    refine ends_done ⟨fun h => ?_, rfl⟩
    have hfinished := (assertAllowed_error engine hdecision).symm.trans (Except.error.inj h)
    cases hfinished
  | ok decision =>
    have hmode : decision.mode = .explain := by
      by_contra hmode
      exact hremoves ⟨decision, hdecision, hmode⟩
    change Ends _ (if decision.mode = .explain then _ else _) _ _
    rw [if_pos hmode]
    exact ends_done ⟨nofun, rfl⟩

end Service

/-! ### Staying inside -/

/-- What stands at a path, or beneath what stands there. -/
def Inside (tree : Tree) (limit : ℕ) (path : String) (e : Entry) : Prop :=
  ∃ own, ownLocation tree limit path = some own ∧ own <:+ e.location

/-- **The removal of a path stays inside it and ends**, where its recursion may go as deep as it
needs. -/
def RemovesInside (engine : PolicyEngine rt) (session : Session) (tree : Tree) (limit : ℕ)
    (sessionId path : String) : Prop :=
  ∃ bound, ∀ depth, bound ≤ depth →
    Ends (hostOf session limit tree) (removeRecursive engine depth sessionId path) tree.entries
      fun fs' result => result ≠ .error .unfinished ∧
        Takes (Inside tree limit path) tree.entries fs'

/-- **The path is a symbolic link to a directory** that has members, and the first thing that a
removal would take of that directory is not the link itself. -/
def Escapes (tree : Tree) (limit : ℕ) (path : String) : Prop :=
  ∃ l target d x, ownLocation tree limit path = some l ∧
    lookup tree.entries l = some (.link target) ∧ leadsTo tree limit path = some d ∧
    lookup tree.entries d = some .directory ∧ listing tree.entries d ≠ [] ∧
    FirstRemoved tree.entries d x ∧ x ≠ l

section Inside

variable {engine session} {tree : Tree} {limit : ℕ} {path : String}

theorem path_ne_empty {follow : Bool} {fs : List Entry} {d : Location}
    (h : resolve fs tree.home limit follow path = some d) : path ≠ "" := by
  rintro rfl
  cases h

/-- Once a link is gone, the path that names it leads nowhere. -/
theorem lost_of_gone {l : Location} {target : String} (hown : ownLocation tree limit path = some l)
    (hlink : lookup tree.entries l = some (.link target)) {fs : List Entry} (h : Gone tree l fs) :
    Lost tree limit fs path := by
  have hroot : l ≠ [] := by
    rintro rfl
    cases hlink
  have hnone : resolve fs tree.home limit false path = none := by
    cases hl : resolve fs tree.home limit false path with
    | none => rfl
    | some l' =>
      obtain rfl : l' = l := Option.some.inj ((resolve_mono tree h.1 hl).symm.trans hown)
      obtain hthere | hdirectory := resolve_ends tree h.1 hl
      · obtain ⟨node, hnode⟩ := Option.ne_none_iff_exists'.mp hthere
        obtain ⟨e, he, hlocation, _⟩ := exists_entry hnode hroot
        exact absurd hlocation (h.2 e he)
      · rw [hlink] at hdirectory
        cases hdirectory
  refine ⟨path_ne_empty hown, ?_, hnone⟩
  change resolve fs tree.home limit true path = none
  cases hd : resolve fs tree.home limit true path with
  | none => rfl
  | some =>
    obtain ⟨l', hl', _⟩ := resolve_follow tree hd
    rw [hnone] at hl'
    cases hl'

/-- What follows the STAT of something. -/
theorem removeBody_of_stat {depth : ℕ} {node : Node} {Q : List Entry → Except Failure Bool → Prop}
    (hstat : statAt tree.home limit tree.entries path = .ok (attributes node))
    (h : Ends (hostOf session limit tree)
      (if node = .directory then sftpRmdirRecursive depth path else sftpUnlink path) tree.entries
      fun fs' result => Q fs' (result.map fun _ => true)) :
    Ends (hostOf session limit tree) (removeBody depth path) tree.entries Q := by
  change Ends _ (andThen (.done (statAt tree.home limit tree.entries path)) _) _ _
  rw [done_andThen, hstat]
  change Ends _ (if isDirectoryMode (attributes node).mode = true then
    (sftpRmdirRecursive depth path >>= fun _ => pure true)
    else (sftpUnlink path >>= fun _ => pure true)) _ _
  rw [isDirectoryMode_attributes]
  by_cases hnode : node = .directory
  · rw [if_pos hnode] at h
    rw [if_pos (decide_eq_true hnode)]
    exact Ends.bind h (fun _ _ ha => ends_done ha) fun _ _ he => he
  · rw [if_neg hnode] at h
    rw [if_neg fun h => hnode (of_decide_eq_true h)]
    exact Ends.bind h (fun _ _ ha => ends_done ha) fun _ _ he => he

/-- The removal of a directory by its own path, or by a link that is gone before anything else. -/
theorem directory_ends {depth : ℕ} (hdepth : tree.entries.length < depth)
    (hsafe : ¬Escapes tree limit path) {d : Location} (hd : leadsTo tree limit path = some d)
    (hdirectory : lookup tree.entries d = some .directory) :
    Ends (hostOf session limit tree) (sftpRmdirRecursive depth path) tree.entries fun fs' _ =>
      Takes (Inside tree limit path) tree.entries fs' := by
  have hwithin : (within tree.entries d).length < depth :=
    Nat.lt_of_le_of_lt (List.length_filter_le _ _) hdepth
  have hall : ∀ e : Entry, ownLocation tree limit path = some e.location →
      Inside tree limit path e := fun e he => ⟨e.location, he, List.suffix_refl _⟩
  obtain ⟨l, hl, rfl | ⟨target, hlink⟩⟩ := resolve_follow tree hd
  · -- the path is the directory's own
    refine (rmdirRecursive_ends tree depth (List.Subset.refl _) hd hwithin).mono
      fun fs' result h => h.1.mono fun e he => ?_
    obtain he | he := he
    · exact ⟨l, hl, he.trans (List.suffix_cons _ _)⟩
    · exact hall e he
  · by_cases hlisting : listing tree.entries d = []
    · -- there is nothing to go into
      obtain ⟨depth, rfl⟩ := Nat.exists_eq_succ_of_ne_zero (Nat.ne_zero_of_lt hdepth)
      rw [sftpRmdirRecursive_succ]
      refine readdir_bind_of_directory tree hd hdirectory ?_
      rw [hlisting]
      exact (rmdir_ends tree path (List.Subset.refl _)).mono fun fs' _ h => h.1.mono hall
    · obtain ⟨x, hx⟩ := exists_firstRemoved tree.entries d
      obtain rfl : x = l := by
        by_contra hne
        exact hsafe ⟨l, target, d, x, hl, hlink, hd, hdirectory, hlisting, hx, hne⟩
      have hnot : lookup tree.entries x ≠ some .directory := by
        rw [hlink]
        nofun
      refine (rmdirRecursive_takes_only tree hx hnot hd hdirectory hwithin
        fun fs hfs => lost_of_gone hl hlink hfs).mono fun fs' _ h => h.2.mono fun e he => ?_
      exact hall e (he.symm ▸ hl)

/-- **What the removal of a path takes** where it does not escape. -/
theorem removeBody_ends {depth : ℕ} (hdepth : tree.entries.length < depth)
    (hsafe : ¬Escapes tree limit path) :
    Ends (hostOf session limit tree) (removeBody depth path) tree.entries fun fs' result =>
      result ≠ .error .unfinished ∧ Takes (Inside tree limit path) tree.entries fs' := by
  have hmap : ∀ {result : Except Failure Unit}, result ≠ .error .unfinished →
      (result.map fun _ => true) ≠ .error .unfinished := by
    intro result h
    cases result with
    | ok => nofun
    | error => exact fun heq => h (congrArg Except.error (Except.error.inj heq))
  cases hnode : (leadsTo tree limit path).bind (lookup tree.entries) with
  | none =>
    have hstat : statAt tree.home limit tree.entries path = .error noSuchFile := by
      unfold statAt
      rw [hnode]
    unfold removeBody
    refine Ends.bind (Q := fun fs' result => fs' = tree.entries ∧ result = .error noSuchFile)
      ⟨rfl, hstat⟩ ?_ ?_
    · rintro _ _ ⟨_, ⟨⟩⟩
    · rintro _ e ⟨rfl, he⟩
      obtain rfl := Except.error.inj he
      exact ⟨nofun, .refl _ _⟩
  | some node =>
  have hstat : statAt tree.home limit tree.entries path = .ok (attributes node) := by
    unfold statAt
    rw [hnode]
  obtain ⟨d, hd, hnode⟩ := Option.bind_eq_some_iff.mp hnode
  refine removeBody_of_stat hstat ?_
  split
  · next hdirectory =>
    subst hdirectory
    have hwithin : (within tree.entries d).length < depth :=
      Nat.lt_of_le_of_lt (List.length_filter_le _ _) hdepth
    exact ((rmdirRecursive_ends tree depth (List.Subset.refl _) hd hwithin).and
      (directory_ends hdepth hsafe hd hnode)).mono fun fs' result h => ⟨hmap h.1.2, h.2⟩
  · exact (unlink_ends tree path (List.Subset.refl _)).mono fun fs' result h =>
      ⟨hmap h.2, h.1.mono fun e he => ⟨e.location, he, List.suffix_refl _⟩⟩

/-- **A path that escapes** loses something outside. -/
theorem removeBody_escapes {depth : ℕ} (hdepth : tree.entries.length < depth)
    (hescapes : Escapes tree limit path) :
    Ends (hostOf session limit tree) (removeBody depth path) tree.entries fun fs' _ =>
      ¬Takes (Inside tree limit path) tree.entries fs' := by
  obtain ⟨l, target, d, x, hl, hlink, hd, hdirectory, hlisting, hx, hne⟩ := hescapes
  have hstat : statAt tree.home limit tree.entries path = .ok (attributes .directory) := by
    rw [leadsTo] at hd
    unfold statAt
    rw [hd, Option.bind_some, hdirectory]
  have hpath : leadsTo tree limit (path : RemotePath).text = some d := hd
  have hgone : Ends (hostOf session limit tree) (sftpRmdirRecursive depth path) tree.entries
      fun fs' _ => Gone tree x fs' :=
    rmdirRecursive_takes tree hx hpath hdirectory
      (Nat.lt_of_le_of_lt (List.length_filter_le _ _) hdepth) fun h => absurd h hlisting
  have houtside : ∀ fs', Gone tree x fs' → ¬Takes (Inside tree limit path) tree.entries fs' := by
    intro fs' hfs' htakes
    obtain ⟨e, he, rfl⟩ := hx.exists_entry hlisting
    obtain ⟨own, hown, hsuffix⟩ := htakes.2 e he fun hmem => hfs'.2 e hmem rfl
    obtain rfl : own = l := Option.some.inj (hown.symm.trans hl)
    have hparent := lookup_of_suffix tree (lookup_location tree he) hsuffix hne.symm
    rw [hlink] at hparent
    cases hparent
  refine removeBody_of_stat hstat ?_
  rw [if_pos rfl]
  exact hgone.mono fun fs' _ h => houtside fs' h

/-- **When the removal of a path stays inside it**: unless it is let happen and the path is a link
to a directory that loses a member before the link is gone. -/
theorem removes_inside_iff (hsftp : session.sftp = true) (tree : Tree) (limit : ℕ)
    (sessionId path : String) :
    RemovesInside engine session tree limit sessionId path ↔
      ¬(Removes engine session path ∧ Escapes tree limit path) := by
  constructor
  · rintro ⟨bound, hbound⟩ ⟨hremoves, hescapes⟩
    have h := hbound (max bound (tree.entries.length + 1)) (Nat.le_max_left _ _)
    rw [removeRecursive_ends_iff hsftp, removeGuarded_of_removes hremoves] at h
    exact removeBody_escapes (Nat.lt_of_succ_le (Nat.le_max_right _ _)) hescapes h.2
  · intro hcond
    refine ⟨tree.entries.length + 1, fun depth hdepth => ?_⟩
    have hwrapped : ∀ {result : Except Failure Bool} {hint : String}, result ≠ .error .unfinished →
        (result.mapError fun e => wrapError e .EFS hint) ≠ .error .unfinished := by
      intro result hint h
      cases result with
      | ok => nofun
      | error =>
        exact fun heq => h (congrArg Except.error (wrapError_eq_unfinished (Except.error.inj heq)))
    rw [removeRecursive_ends_iff hsftp]
    by_cases hremoves : Removes engine session path
    · rw [removeGuarded_of_removes hremoves]
      exact (removeBody_ends (Nat.lt_of_succ_le hdepth) fun h => hcond ⟨hremoves, h⟩).mono
        fun fs' result h => ⟨hwrapped h.1, h.2⟩
    · refine (removeGuarded_of_not_removes hremoves).mono fun fs' result h =>
        ⟨hwrapped h.1, ?_⟩
      rw [h.2]
      exact .refl _ _

end Inside

/-! ### A link to a directory -/

/-- A directory with a file in it, and a link to the directory. -/
def linkedTree : Tree where
  entries := [⟨[], "data", .directory⟩, ⟨["data"], "keep", .file⟩, ⟨[], "link", .link "/data"⟩]
  home := []
  distinct := by decide
  rooted := by decide
  names := by
    rw [List.forall_mem_cons, List.forall_mem_cons, List.forall_mem_singleton]
    exact ⟨⟨by decide, by decide, by decide, by decide⟩,
      ⟨by decide, by decide, by decide, by decide⟩, ⟨by decide, by decide, by decide, by decide⟩⟩
  home_directory := rfl

/-- Where every destructive operation is allowed, a path is removed. -/
theorem exists_removes (rt : Runtime) :
    ∃ engine : PolicyEngine rt, engine.config = { allowDestructiveFs := true } ∧
      ∀ sftp path, Char.ofNat 0 ∉ path.toList → Removes engine ⟨.enforce, sftp⟩ path := by
  obtain ⟨engine, hengine⟩ := PolicyEngine.exists_engine rt { allowDestructiveFs := true }
    (by decide) (by decide) ⟨rfl, rfl⟩
  refine ⟨engine, hengine, fun sftp path hnul => ?_⟩
  have hpermits : engine.Permits (removeContext path .enforce) := by
    rw [removeContext, engine.permits_paths_iff (by decide)]
    intro p hp
    have hdenial : engine.pathDenial true path = none := by
      refine engine.pathDenial_eq_none_iff.mpr ⟨hnul, ?_, fun _ h => ?_⟩
      · rw [PolicyEngine.DenyCovers, PolicyEngine.denyLocations, hengine]
        rintro ⟨d, hd, -⟩
        exact absurd hd List.not_mem_nil
      · rw [hengine] at h
        cases h
    by_cases hne : path = ""
    · simp [truthy, hne] at hp
    · obtain ⟨rfl, _⟩ : path = p ∧ p ≠ "" := by simpa [truthy, hne] using hp
      exact hdenial
  refine ⟨_, (engine.assertAllowed_eq _).trans (if_neg fun h => h.1 hpermits), ?_⟩
  rw [PolicyEngine.evaluate, engine.evaluateWith_mode]
  intro hexplain
  cases hexplain

/-- A directory is removed from inside. -/
theorem removes_inside_iff_directory :
    ∃ engine : PolicyEngine sampleRuntime, engine.config = { allowDestructiveFs := true } ∧
      Removes engine ⟨.enforce, true⟩ "/data" ∧
      RemovesInside engine ⟨.enforce, true⟩ linkedTree 40 "ssh-1" "/data" := by
  obtain ⟨engine, hengine, hremoves⟩ := exists_removes sampleRuntime
  refine ⟨engine, hengine, hremoves true "/data" (by decide), ?_⟩
  refine (removes_inside_iff rfl linkedTree 40 "ssh-1" "/data").mpr fun h => ?_
  obtain ⟨l, target, d, x, hl, hlink, -⟩ := h.2
  have hown : ownLocation linkedTree 40 "/data" = some ["data"] := by decide +kernel
  obtain rfl : ["data"] = l := Option.some.inj (hown.symm.trans hl)
  cases hlink

/-- The removal of a link to a directory deletes what the directory holds. -/
theorem removal_escapes_link :
    ∃ engine : PolicyEngine sampleRuntime, engine.config = { allowDestructiveFs := true } ∧
      ¬RemovesInside engine ⟨.enforce, true⟩ linkedTree 40 "ssh-1" "/link" := by
  obtain ⟨engine, hengine, hremoves⟩ := exists_removes sampleRuntime
  refine ⟨engine, hengine, ?_⟩
  rintro ⟨bound, hbound⟩
  have hown : ownLocation linkedTree 40 "/link" = some ["link"] := by decide +kernel
  have hleads : leadsTo linkedTree 40 "/link" = some ["data"] := by decide +kernel
  have hlisting : listing linkedTree.entries ["data"] = [⟨["data"], "keep", .file⟩] := by decide
  have hescapes : Escapes linkedTree 40 "/link" :=
    ⟨_, "/data", _, _, hown, rfl, hleads, rfl, by decide, .member hlisting (by decide), by decide⟩
  have h := hbound (max bound (linkedTree.entries.length + 1)) (Nat.le_max_left _ _)
  rw [removeRecursive_ends_iff rfl, removeGuarded_of_removes (hremoves true "/link"
    (by decide))] at h
  exact removeBody_escapes (Nat.lt_of_succ_le (Nat.le_max_right _ _)) hescapes h.2

end Ssh
