import McpSshTool.Library.TreeMoves
import McpSshTool.Ssh.RemoveRecursive

/-!
# A host that removes and renames

A host that keeps a file tree and is asked to remove and to rename, over SFTP or through the shell.
No link is followed: an absolute path leads where it reads.

* `locate`, `route` — the location that a path reads, and the names on the way to it;
* `treeHost` — the host: the SFTP operations, `rm -rf` and `mv`;
* `rmdirRecursive_removes` — **the recursion over SFTP** removes what stands at its path, and all
  that stands beneath it.
-/

open Library FileTree

namespace Ssh

open Program

/-! ### Locations of absolute paths -/

/-- The location that a path reads, from the root. -/
def locate (path : String) : Location :=
  ((LexicalPath.walk [] path.toList).map String.ofList).reverse

/-- The names on the way to a location, from the root. -/
def route (l : Location) : List LexicalPath.Segment := (l.map String.toList).reverse

/-- The location at the end of a way. -/
def unroute (names : List LexicalPath.Segment) : Location := (names.map String.ofList).reverse

theorem route_unroute (names : List LexicalPath.Segment) : route (unroute names) = names := by
  rw [route, unroute, List.map_reverse, List.reverse_reverse, List.map_map]
  conv_rhs => rw [← List.map_id names]
  exact List.map_congr_left fun s _ => String.toList_ofList

theorem unroute_route (l : Location) : unroute (route l) = l := by
  rw [route, unroute, List.map_reverse, List.reverse_reverse, List.map_map]
  conv_rhs => rw [← List.map_id l]
  exact List.map_congr_left fun s _ => String.ofList_toList

theorem route_locate (path : String) : route (locate path) = LexicalPath.walk [] path.toList :=
  route_unroute _

theorem route_prefix_iff {l m : Location} : route l <+: route m ↔ l <:+ m := by
  have hid : String.ofList ∘ String.toList = id := funext fun _ => String.ofList_toList
  rw [route, route, List.reverse_prefix]
  constructor
  · intro h
    have hback := h.map String.ofList
    rwa [List.map_map, List.map_map, hid, List.map_id, List.map_id] at hback
  · exact fun h => h.map String.toList

/-- A path and the name of a member lead to the member. -/
theorem locate_child {path name : String} (hname : IsName name) :
    locate (path ++ "/" ++ name) = name :: locate path := by
  have hsegment : LexicalPath.IsName name.toList := by
    obtain ⟨hempty, hdot, hdots, hslash⟩ := hname
    refine ⟨fun h => hempty ?_, fun h => hdot ?_, fun h => hdots ?_, hslash⟩
    · exact String.toList_inj.mp h
    · exact String.toList_inj.mp h
    · exact String.toList_inj.mp h
  have htext : (path ++ "/" ++ name).toList =
      path.toList ++ LexicalPath.render [name.toList] := by
    rw [String.toList_append, String.toList_append, LexicalPath.render_cons, List.append_assoc]
    simp [LexicalPath.render]
  rw [locate, htext, LexicalPath.walk_append_render (fun s hs => ?_), List.map_append,
    List.reverse_append]
  · simp [locate]
  · rw [List.mem_singleton.mp hs]
    exact hsegment

theorem isName_of_mem_unroute {names : List LexicalPath.Segment}
    (h : LexicalPath.IsLocation names) : ∀ name ∈ unroute names, IsName name := by
  intro name hname
  obtain ⟨s, hs, rfl⟩ := List.mem_map.mp (List.mem_reverse.mp hname)
  have hsegment := h s hs
  refine ⟨fun h => ?_, fun h => ?_, fun h => ?_, ?_⟩
  · exact hsegment.ne_nil (String.ofList_inj.mp h)
  · exact hsegment.ne_dot (String.ofList_inj.mp h)
  · exact hsegment.ne_dotdot (String.ofList_inj.mp h)
  · rw [String.toList_ofList]
    exact hsegment.slash_notMem

/-- The last name of a path, as it is written. -/
def lastName (path : String) : Option String := ((components path).filter (· ≠ "")).getLast?

/-- A path that ends with dots. -/
def Dotted (path : String) : Prop := lastName path = some "." ∨ lastName path = some ".."

instance (path : String) : Decidable (Dotted path) := inferInstanceAs (Decidable (_ ∨ _))

theorem lastName_child {path name : String} (hname : IsName name) :
    lastName (path ++ "/" ++ name) = some name := by
  rw [lastName, components_child hname, List.filter_append, List.filter_cons,
    if_pos (decide_eq_true hname.1), List.filter_nil, List.getLast?_concat]

theorem not_dotted_child {path name : String} (hname : IsName name) :
    ¬Dotted (path ++ "/" ++ name) := by
  unfold Dotted
  rw [lastName_child hname]
  rintro (h | h)
  · exact hname.2.1 (Option.some.inj h)
  · exact hname.2.2.1 (Option.some.inj h)

/-! ### The host -/

/-- What such hosts differ in. -/
structure TreeHost where
  osInfo : OSInfo
  /-- Whether a renaming over SFTP replaces what it may replace, or fails where anything is. -/
  overwrites : Bool

namespace TreeHost

/-- What a renaming may replace: nothing at all, an empty directory by a directory, and what is no
directory by what is none. -/
def mayReplace (fs : List Entry) (source target : Location) : Bool :=
  match lookup fs target with
  | none => true
  | some .directory => lookup fs source = some .directory ∧ listing fs target = []
  | some _ => lookup fs source ≠ some .directory

/-- **A renaming** of what there is, other than the root, into a directory, but not into itself. -/
def renamed (fs : List Entry) (source target : Location) : Option (List Entry) :=
  if source ≠ [] ∧ target ≠ [] ∧ lookup fs source ≠ none ∧
      lookup fs target.tail = some .directory ∧ ¬source <:+ target ∧
        mayReplace fs source target then
    some (relocate (erase fs target) source target)
  else none

/-- RENAME. A path that ends with dots is not renamed. -/
def rename (host : TreeHost) (fs : List Entry) (source target : String) :
    List Entry × Except Failure Unit :=
  if Dotted source ∨ Dotted target ∨
      lookup fs (locate target) ≠ none ∧ host.overwrites = false then (fs, .error sftpFailure)
  else
    match renamed fs (locate source) (locate target) with
    | some fs' => (fs', .ok ())
    | none => (fs, .error sftpFailure)

/-- UNLINK. -/
def unlink (fs : List Entry) (path : String) : List Entry × Except Failure Unit :=
  match lookup fs (locate path) with
  | none => (fs, .error noSuchFile)
  | some .directory => (fs, .error sftpFailure)
  | some _ => (erase fs (locate path), .ok ())

/-- RMDIR, of an empty directory that is not named by dots. -/
def rmdir (fs : List Entry) (path : String) : List Entry × Except Failure Unit :=
  let l := locate path
  if l ≠ [] ∧ lookup fs l = some .directory ∧ listing fs l = [] ∧ ¬Dotted path then
    (erase fs l, .ok ())
  else (fs, .error sftpFailure)

/-- STAT. -/
def stat (fs : List Entry) (path : String) : Except Failure Stats :=
  match lookup fs (locate path) with
  | some node => .ok (attributes node)
  | none => .error noSuchFile

/-- The listing of a directory. -/
def readdir (fs : List Entry) (path : String) : Except Failure (List FileEntry) :=
  if lookup fs (locate path) = some .directory then .ok ((listing fs (locate path)).map listed)
  else .error noSuchFile

/-- `rm -rf`, which refuses the root and a path that ends with dots. -/
def rm (fs : List Entry) (path : String) : List Entry × ℕ :=
  if locate path = [] ∨ Dotted path then (fs, 1) else (prune fs (locate path), 0)

/-- Where `mv` puts something: into the target where that is a directory. -/
def landing (fs : List Entry) (source target : Location) : Location :=
  if lookup fs target = some .directory then source.headD "" :: target else target

def mv (fs : List Entry) (source target : String) : List Entry × ℕ :=
  if Dotted source then (fs, 1)
  else
    match renamed fs (locate source) (landing fs (locate source) (locate target)) with
    | some fs' => (fs', 0)
    | none => (fs, 1)

/-- What the shell does of the scripts that remove and rename, where there is one that knows
them. -/
def run (host : TreeHost) (fs : List Entry) (script : Script) : List Entry × ℕ :=
  if host.osInfo.platform = .windows then (fs, 1)
  else
    match script with
    | .remove path => rm fs path
    | .move source target => mv fs source target
    | _ => (fs, 127)

end TreeHost

/-- **The host**, in a session. -/
def treeHost (session : Session) (host : TreeHost) (fs : List Entry) :
    (op : Operation) → List Entry × Answer op
  | .getSession _ => (fs, some session)
  | .getOSInfo _ => (fs, .ok host.osInfo)
  | .exec script _ => ((host.run fs script).1, .ok ⟨some (host.run fs script).2, "", ""⟩)
  | .sftpStat path => (fs, TreeHost.stat fs path.text)
  | .sftpReaddir path => (fs, TreeHost.readdir fs path.text)
  | .sftpUnlink path => TreeHost.unlink fs path.text
  | .sftpRmdir path => TreeHost.rmdir fs path.text
  | .sftpRename source target => host.rename fs source target
  | op => (fs, refused op)

/-! ### Removal over SFTP -/

section Removal

variable {session : Session} {host : TreeHost}

theorem ends_readdir_bind {fs : List Entry} {path : RemotePath}
    (hdirectory : lookup fs (locate path.text) = some .directory) {f : List FileEntry → Task Unit}
    {Q : List Entry → Except Failure Unit → Prop}
    (h : Ends (treeHost session host) (f ((listing fs (locate path.text)).map listed)) fs Q) :
    Ends (treeHost session host) (sftpReaddir path >>= f) fs Q := by
  have hread : TreeHost.readdir fs path.text =
      .ok ((listing fs (locate path.text)).map listed) := if_pos hdirectory
  change Ends _ (andThen (.done (TreeHost.readdir fs path.text)) _) fs Q
  rw [done_andThen, hread]
  exact h

theorem unlink_of_entry {fs : List Entry} {path : String} {node : Node}
    (hnode : lookup fs (locate path) = some node) (hfile : node ≠ .directory) :
    TreeHost.unlink fs path = (erase fs (locate path), .ok ()) := by
  unfold TreeHost.unlink
  rw [hnode]
  cases node with
  | directory => exact absurd rfl hfile
  | file => rfl
  | link => rfl

theorem rmdir_of_empty {fs : List Entry} {path : String} (hroot : locate path ≠ [])
    (hdots : ¬Dotted path) (hdirectory : lookup fs (locate path) = some .directory)
    (hempty : listing fs (locate path) = []) :
    TreeHost.rmdir fs path = (erase fs (locate path), .ok ()) :=
  if_pos ⟨hroot, hdirectory, hempty, hdots⟩

theorem rmdir_subset (fs : List Entry) (path : String) : (TreeHost.rmdir fs path).1 ⊆ fs := by
  unfold TreeHost.rmdir
  dsimp only
  split
  · exact erase_subset fs _
  · exact List.Subset.refl _

variable (session host) in
/-- **Runs of the recursion to a depth remove all there is**, if the depth is more than there is
within the directory, and the directory can be removed by its path. -/
def RemovesAll (depth : ℕ) : Prop :=
  ∀ (tree : Tree) (path : RemotePath), lookup tree.entries (locate path.text) = some .directory →
    locate path.text ≠ [] → ¬Dotted path.text →
    (within tree.entries (locate path.text)).length < depth →
    Ends (treeHost session host) (sftpRmdirRecursive depth path) tree.entries fun fs result =>
      result = .ok () ∧ fs = prune tree.entries (locate path.text)

/-- What the recursion does with a member removes it, with what stands beneath it. -/
theorem removeMember_removes {depth : ℕ} (hrec : RemovesAll session host depth) (tree : Tree)
    {path : RemotePath} {m : Entry} (hm : m ∈ tree.entries)
    (hparent : m.parent = locate path.text)
    (hdepth : (within tree.entries m.location).length < depth) :
    Ends (treeHost session host) (removeMember depth path (listed m)) tree.entries
      fun fs result => result = .ok () ∧ fs = prune tree.entries m.location := by
  have hname := tree.names m hm
  have hlocation : locate (path.child m.name).text = m.location := by
    rw [RemotePath.text_child, locate_child hname, Entry.location, hparent]
  have hlookup := lookup_location tree hm
  rw [removeMember_listed]
  split
  · next hnode =>
    have hends := hrec tree (path.child m.name)
    rw [hlocation] at hends
    refine hends (hnode ▸ hlookup) (List.cons_ne_nil _ _) ?_ hdepth
    rw [RemotePath.text_child]
    exact not_dotted_child hname
  · next hnode =>
    rw [← hlocation] at hlookup
    have hunlink := unlink_of_entry hlookup hnode
    change (TreeHost.unlink tree.entries (path.child m.name).text).2 = _ ∧
      (TreeHost.unlink tree.entries (path.child m.name).text).1 = _
    rw [hunlink, hlocation]
    exact ⟨rfl, erase_eq_prune tree hm hnode⟩

/-- Members that are removed one after the other. -/
theorem members_removed {depth : ℕ} (hrec : RemovesAll session host depth) {path : RemotePath}
    {members : List Entry} (hdistinct : members.Nodup) :
    ∀ tree : Tree, (∀ m ∈ members, m ∈ tree.entries ∧ m.parent = locate path.text) →
      (within tree.entries (locate path.text)).length < depth + 1 →
      Ends (treeHost session host) (Program.traverse (removeMember depth path) (members.map listed))
        tree.entries fun fs result => (∃ done, result = .ok done) ∧
          fs = tree.entries.filter fun e => ∀ m ∈ members, ¬m.location <:+ e.location := by
  induction members with
  | nil =>
    intro tree _ _
    exact ends_done ⟨⟨_, rfl⟩, (List.filter_eq_self.mpr fun e _ => by simp).symm⟩
  | cons m members ih =>
    intro tree hmembers hdepth
    obtain ⟨hm, hparent⟩ := hmembers m List.mem_cons_self
    obtain ⟨hnew, hdistinct⟩ := List.nodup_cons.mp hdistinct
    have hless : (within tree.entries m.location).length < depth :=
      Nat.lt_of_lt_of_le (within_child_lt hm) (hparent ▸ Nat.le_of_lt_succ hdepth)
    refine (removeMember_removes hrec tree hm hparent hless).bind ?_ fun _ _ h => nomatch h.1
    rintro _ _ ⟨-, rfl⟩
    -- the other members are still there
    have hothers : ∀ m' ∈ members, m' ∈ (tree.pruned m.location).entries ∧
        m'.parent = locate path.text := by
      intro m' hm'
      obtain ⟨hmem, hparent'⟩ := hmembers m' (List.mem_cons_of_mem _ hm')
      have hne : m ≠ m' := fun h => hnew (h ▸ hm')
      exact ⟨mem_prune.mpr ⟨hmem, member_not_beneath tree hm hmem
        (hparent.trans hparent'.symm) hne⟩,
        hparent'⟩
    have hwithin : (within (tree.pruned m.location).entries (locate path.text)).length <
      depth + 1 :=
      Nat.lt_of_le_of_lt (List.filter_sublist.filter _).length_le hdepth
    refine (ih hdistinct (tree.pruned m.location) hothers hwithin).bind ?_ fun _ _ h => ?_
    · rintro _ done ⟨-, rfl⟩
      refine ends_done ⟨⟨_, rfl⟩, ?_⟩
      change List.filter _ (prune tree.entries m.location) = _
      rw [prune, List.filter_filter]
      refine List.filter_congr fun e _ => ?_
      rw [← Bool.decide_and, decide_eq_decide, List.forall_mem_cons]
      exact and_comm
    · obtain ⟨_, ⟨⟩⟩ := h.1

theorem listing_removed {depth : ℕ} (hrec : RemovesAll session host depth) (tree : Tree)
    {path : RemotePath} (hdepth : (within tree.entries (locate path.text)).length < depth + 1) :
    Ends (treeHost session host)
      (Program.traverse (removeMember depth path)
        ((listing tree.entries (locate path.text)).map listed))
      tree.entries fun fs result => (∃ done, result = .ok done) ∧
        fs = emptied tree.entries (locate path.text) := by
  have hdistinct : (listing tree.entries (locate path.text)).Nodup :=
    tree.distinct.of_map.filter _
  refine (members_removed hrec hdistinct tree (fun m hm => mem_listing.mp hm) hdepth).mono ?_
  rintro fs result ⟨hdone, rfl⟩
  exact ⟨hdone, filter_members tree _⟩

/-- **The recursion removes what stands at its path**, and all that stands beneath it. -/
theorem rmdirRecursive_removes (depth : ℕ) : RemovesAll session host depth := by
  induction depth with
  | zero => exact fun _ _ _ _ _ hdepth => absurd hdepth (Nat.not_lt_zero _)
  | succ depth ih =>
    intro tree path hdirectory hroot hdots hdepth
    rw [sftpRmdirRecursive_succ]
    refine ends_readdir_bind hdirectory ?_
    refine (listing_removed ih tree hdepth).bind ?_ fun _ _ h => ?_
    · rintro _ _ ⟨-, rfl⟩
      change (TreeHost.rmdir (emptied tree.entries (locate path.text)) path.text).2 = _ ∧
        (TreeHost.rmdir (emptied tree.entries (locate path.text)) path.text).1 = _
      rw [rmdir_of_empty hroot hdots (lookup_emptied tree hdirectory) (listing_emptied _ _)]
      exact ⟨rfl, erase_emptied _ _⟩
    · obtain ⟨_, ⟨⟩⟩ := h.1

theorem rmdirRecursive_empties (tree : Tree) (path : RemotePath) {depth : ℕ}
    (hdirectory : lookup tree.entries (locate path.text) = some .directory)
    (hdepth : (within tree.entries (locate path.text)).length < depth) :
    Ends (treeHost session host) (sftpRmdirRecursive depth path) tree.entries
      fun fs _ => fs ⊆ emptied tree.entries (locate path.text) := by
  obtain ⟨depth, rfl⟩ := Nat.exists_eq_succ_of_ne_zero (Nat.ne_zero_of_lt hdepth)
  rw [sftpRmdirRecursive_succ]
  refine ends_readdir_bind hdirectory ?_
  refine (listing_removed (rmdirRecursive_removes depth) tree hdepth).bind ?_ fun _ _ h => ?_
  · rintro _ _ ⟨-, rfl⟩
    exact rmdir_subset _ path.text
  · obtain ⟨_, ⟨⟩⟩ := h.1

end Removal

/-! ### The shell -/

/-- A script is run, whatever comes of it. -/
theorem execFallback_state (session : Session) (host : TreeHost) (fs : List Entry)
    (sessionId : String) (script : Script) :
    Ends (treeHost session host) (execFallback sessionId script) fs
      fun fs' _ => fs' = (host.run fs script).1 := by
  obtain ⟨sent, hsent⟩ := buildRemoteCommand_ok script.text host.osInfo none
  change (execute (treeHost session host) (andThen (.done (.ok host.osInfo)) _) fs).1 = _
  rw [done_andThen]
  dsimp only
  rw [hsent]
  change (execute (treeHost session host) (if (host.run fs script).2 ≠ 0 then _ else _)
    (host.run fs script).1).1 = _
  split
  · rfl
  · rfl

end Ssh
