import McpSshTool.Library.Run
import McpSshTool.Library.TreeGrowth
import McpSshTool.Ssh.LinesInFile
import McpSshTool.Ssh.RunInversion

/-!
# Recursive creation of directories over SFTP

`makeDirectories` on a server that keeps a file tree with symbolic links. Any step may fail, with
any status; a MKDIR that succeeds has made a directory.

* `mkdirAt`, `treeAfter` — MKDIR, and what an operation leaves of the tree;
* `PassesDirectories` — what is passed over, because STAT has found it or MKDIR has failed with
  status 4, is a directory;
* `PassesName`, `exists_passes` — how a creation that succeeds passes each name of its path;
* `directories_iff` — a creation that succeeds has delivered exactly if it has passed over
  directories only;
* `make_directories_iff` — the same of `makeDirectories`.

Where something else than a directory is passed over, nothing can be made beneath it
(`run_of_not_leads`), so the tree stays as it is from there on.
-/

open Library Program Run FileTree

namespace Ssh

/-! ### The server -/

section Server

variable (limit : ℕ)

/-- MKDIR, where it can succeed: of a free name in a directory. -/
def mkdirAt (tree : Tree) (path : String) : Option Tree :=
  match (components path).getLast?,
    resolveFrom tree.entries true limit (start tree.home path) (components path).dropLast with
  | some name, some parent =>
    if h : IsName name ∧ lookup tree.entries parent = some .directory ∧
        lookup tree.entries (name :: parent) = none then
      some (tree.withDirectory h.1 h.2.1 h.2.2)
    else none
  | _, _ => none

/-- What an operation leaves of the tree. -/
def treeAfter (tree : Tree) : Event → Tree
  | ⟨.sftpMkdir path, .ok _⟩ => (mkdirAt limit tree path).getD tree
  | _ => tree

/-- The server's answer: a MKDIR succeeds only where it can. -/
def Serves (tree : Tree) : Event → Prop
  | ⟨.sftpMkdir path, .ok _⟩ => (mkdirAt limit tree path).isSome = true
  | _ => True

/-- **What is passed over is a directory**: what STAT has found, and where MKDIR has failed with
status 4. -/
def PassesDirectories (tree : Tree) : Event → Prop
  | ⟨.sftpStat path, .ok _⟩ => tree.IsDirectory limit path.text
  | ⟨.sftpMkdir path, .error e⟩ => e.code = some (.status 4) → tree.IsDirectory limit path
  | _ => True

end Server

/-! ### The prefixes of a path -/

/-- Where the creation of a path begins. -/
def firstPath (path : String) : String := if LexicalPath.isAbsolute path.toList then "" else "."

/-- The names on a path. -/
def partsOf (path : String) : List String := (splitText path '/').filter (· ≠ "")

/-- A path with names behind it. -/
def extend (path : String) (parts : List String) : String :=
  parts.foldl (fun text part => text ++ "/" ++ part) path

/-- **The prefixes of a path**, by its names. -/
def prefixesOf (path : String) : List String :=
  ((partsOf path).inits.drop 1).map (extend (firstPath path))

/-- The paths that the creation goes through. -/
def pathsFrom (path : String) : List String → List String
  | [] => []
  | part :: parts => (path ++ "/" ++ part) :: pathsFrom (path ++ "/" ++ part) parts

theorem pathsFrom_eq (path : String) (parts : List String) :
    pathsFrom path parts = (parts.inits.drop 1).map (extend path) := by
  induction parts generalizing path with
  | nil => rfl
  | cons part parts ih =>
    have hinits : parts.inits = [] :: parts.inits.drop 1 := by cases parts <;> rfl
    rw [pathsFrom, ih, List.inits_cons, List.drop_succ_cons, List.drop_zero, hinits, List.map_cons,
      List.map_cons, List.map_map]
    rfl

theorem prefixesOf_eq (path : String) : prefixesOf path = pathsFrom (firstPath path)
    (partsOf path) :=
  (pathsFrom_eq _ _).symm

/-! ### One name -/

/-- How the creation passes a name: it is there, or it is made, or the failure is passed over. -/
inductive PassesName (path : String) (rest : List Event) : List Event → Prop
  | found (stats : Stats) : PassesName path rest (⟨.sftpStat path, .ok stats⟩ :: rest)
  | made (e : Failure) :
      PassesName path rest (⟨.sftpStat path, .error e⟩ :: ⟨.sftpMkdir path, .ok ()⟩ :: rest)
  | tolerated (e e' : Failure) (h : e'.code = some (.status 4)) :
      PassesName path rest (⟨.sftpStat path, .error e⟩ :: ⟨.sftpMkdir path, .error e'⟩ :: rest)

variable {log : List Event} {path part : String} {parts : List String}

theorem sftpMkdirParts_cons (path part : String) (parts : List String) :
    sftpMkdirParts path (part :: parts) =
      (do
        let probe : Task Unit := do
          let _ ← sftpStat (path ++ "/" ++ part : String)
          pure ()
        probe.tryCatch fun _ =>
          (sftpMkdir (path ++ "/" ++ part)).tryCatch fun mkdirErr =>
            if mkdirErr.code = some (.status 4) then pure () else Program.throw mkdirErr
        sftpMkdirParts (path ++ "/" ++ part) parts) := by
  have hpath : (if path = "" then "/" ++ part else path ++ "/" ++ part) = path ++ "/" ++ part := by
    split
    · next h => rw [h, String.empty_append]
    · rfl
  rw [sftpMkdirParts, hpath]

/-- **A creation that succeeds** passes each name in one of these ways. -/
theorem exists_passes (h : Runs (sftpMkdirParts path (part :: parts)) log (.ok ())) :
    ∃ rest, PassesName (path ++ "/" ++ part) rest log ∧
      Runs (sftpMkdirParts (path ++ "/" ++ part) parts) rest (.ok ()) := by
  rw [sftpMkdirParts_cons] at h
  replace h := runs_bind_ok h
  obtain ⟨⟨⟩, log₁, log₂, rfl, hname, h⟩ := h
  refine ⟨log₂, ?_, h⟩
  replace hname := runs_andThen_iff.mp hname
  obtain ⟨log₃, mid, log₄, hprobe, hname, rfl⟩ := hname
  replace hprobe := runs_perform_iff.mp hprobe
  obtain ⟨answer, log₅, rfl, hprobe⟩ := hprobe
  cases answer with
  | ok stats =>
    obtain ⟨rfl, rfl⟩ := runs_done_iff.mp hprobe
    obtain ⟨rfl, -⟩ := runs_done_iff.mp hname
    exact .found stats
  | error e =>
    obtain ⟨rfl, rfl⟩ := runs_done_iff.mp hprobe
    -- STAT has failed, so MKDIR is tried
    replace hname := runs_perform_iff.mp hname
    obtain ⟨answer, log₆, rfl, hmkdir⟩ := hname
    cases answer with
    | ok =>
      obtain ⟨rfl, -⟩ := runs_done_iff.mp hmkdir
      exact .made e
    | error e' =>
      change Runs (if _ then _ else _) _ _ at hmkdir
      split at hmkdir
      · next hstatus =>
        obtain ⟨rfl, -⟩ := runs_done_iff.mp hmkdir
        exact .tolerated e e' hstatus
      · exact absurd (runs_done_iff.mp hmkdir).2 nofun

/-- Any of the ways can be taken. -/
theorem runs_of_passes {rest : List Event} (hname : PassesName (path ++ "/" ++ part) rest log)
    (hrest : Runs (sftpMkdirParts (path ++ "/" ++ part) parts) rest (.ok ())) :
    Runs (sftpMkdirParts path (part :: parts)) log (.ok ()) := by
  rw [sftpMkdirParts_cons]
  refine runs_andThen_iff.mpr ?_
  cases hname with
  | found =>
    refine ⟨[_], .ok (), rest, ?_, hrest, rfl⟩
    change Runs (.perform (Operation.sftpStat _) _) _ _
    exact .perform _ (.done _)
  | made =>
    refine ⟨[_, _], .ok (), rest, ?_, hrest, rfl⟩
    change Runs (.perform (Operation.sftpStat _) _) _ _
    refine .perform _ ?_
    change Runs (.perform (Operation.sftpMkdir _) _) _ _
    exact .perform _ (.done _)
  | tolerated e e' hstatus =>
    refine ⟨[_, _], .ok (), rest, ?_, hrest, rfl⟩
    change Runs (.perform (Operation.sftpStat _) _) _ _
    refine .perform _ ?_
    change Runs (.perform (Operation.sftpMkdir _) _) _ _
    refine .perform _ ?_
    change Runs (if _ then _ else _) _ _
    rw [if_pos hstatus]
    exact .done _

/-! ### The tree meanwhile -/

section Trees

variable {limit : ℕ} {tree : Tree}

/-- Where the paths beneath a path start. -/
def Beneath (tree : Tree) (path : String) : Location := start tree.home (path ++ "/")

theorem start_beneath (tree : Tree) (path part : String) :
    start tree.home (path ++ "/" ++ part) = Beneath tree path := by
  have habsolute : isAbsolute (path ++ "/" ++ part) = isAbsolute (path ++ "/") := by
    unfold isAbsolute
    cases hpath : path.toList with
    | nil => simp [String.toList_append, hpath]
    | cons => simp [String.toList_append, hpath]
  rw [Beneath, start, start, habsolute]

theorem beneath_child (tree : Tree) (path part : String) :
    Beneath tree (path ++ "/" ++ part) = Beneath tree path := by
  have hstart := start_beneath tree path (part ++ "/")
  rwa [← String.append_assoc] at hstart

theorem lookup_beneath (tree : Tree) (path : String) :
    lookup tree.entries (Beneath tree path) = some .directory :=
  lookup_start tree tree.home_directory _

/-- The path is that of a directory, or of a root to start from. -/
def Leads (limit : ℕ) (tree : Tree) (path : String) : Prop :=
  tree.DirectoryFrom limit (Beneath tree path) (components path)

theorem isDirectory_child_iff :
    tree.IsDirectory limit (path ++ "/" ++ part) ↔ Leads limit tree (path ++ "/" ++ part) := by
  unfold Leads Tree.IsDirectory
  rw [start_beneath, beneath_child, and_iff_right (child_ne_empty path)]

theorem Leads.above (hpart : '/' ∉ part.toList) (h : Leads limit tree (path ++ "/" ++ part)) :
    Leads limit tree path := by
  unfold Leads at h ⊢
  rw [beneath_child, components_append_name path hpart] at h
  exact h.above (lookup_beneath tree path)

/-- What MKDIR leaves, where it succeeds. -/
theorem mkdirAt_eq_some {p : String} {tree' : Tree} (h : mkdirAt limit tree p = some tree') :
    ∃ name parent, (components p).getLast? = some name ∧
      resolveFrom tree.entries true limit (start tree.home p) (components p).dropLast =
        some parent ∧
      ∃ (hname : IsName name) (hparent : lookup tree.entries parent = some .directory)
        (hfree : lookup tree.entries (name :: parent) = none),
        tree' = tree.withDirectory hname hparent hfree := by
  unfold mkdirAt at h
  split at h
  · next name parent hlast hresolve =>
    split at h
    · next hfree =>
      exact ⟨name, parent, hlast, hresolve, hfree.1, hfree.2.1, hfree.2.2, (Option.some.inj h).symm⟩
    · cases h
  · cases h

/-- **A directory that is made** is one, and stands in one. -/
theorem mkdirAt_child (hpart : '/' ∉ part.toList) {tree' : Tree}
    (h : mkdirAt limit tree (path ++ "/" ++ part) = some tree') :
    Leads limit tree path ∧ tree'.IsDirectory limit (path ++ "/" ++ part) := by
  obtain ⟨name, parent, hlast, hresolve, hname, hparent, hfree, rfl⟩ := mkdirAt_eq_some h
  rw [components_append_name path hpart, List.getLast?_concat] at hlast
  obtain rfl := Option.some.inj hlast
  rw [components_append_name path hpart, List.dropLast_concat, start_beneath] at hresolve
  refine ⟨⟨parent, hresolve, hparent⟩, child_ne_empty path, ?_⟩
  have hhome : (tree.withDirectory hname hparent hfree).home = tree.home := rfl
  rw [hhome, start_beneath, components_append_name path hpart]
  exact directoryFrom_made hname hparent hfree hresolve

theorem isDirectory_treeAfter {p : String} (h : tree.IsDirectory limit p) (e : Event) :
    (treeAfter limit tree e).IsDirectory limit p := by
  unfold treeAfter
  split
  · next path u =>
    cases hmkdir : mkdirAt limit tree path with
    | none => exact h
    | some =>
      obtain ⟨name, parent, -, -, hname, hparent, hfree, rfl⟩ := mkdirAt_eq_some hmkdir
      exact h.withDirectory hname hparent hfree
  · exact h

theorem isDirectory_run {p : String} (h : tree.IsDirectory limit p) (log : List Event) :
    (run (treeAfter limit) tree log).IsDirectory limit p := by
  induction log generalizing tree with
  | nil => exact h
  | cons e log ih => exact ih (isDirectory_treeAfter h e)

/-- **Where no directory is, nothing is made beneath.** -/
theorem run_of_not_leads (hparts : ∀ part ∈ parts, '/' ∉ part.toList)
    (hnot : ¬Leads limit tree path)
    (h : Runs (sftpMkdirParts path parts) log (.ok ()))
    (hserves : AllSteps (treeAfter limit) (Serves limit) tree log) :
    run (treeAfter limit) tree log = tree := by
  induction parts generalizing path log with
  | nil =>
    obtain ⟨rfl, -⟩ := runs_done_iff.mp h
    rfl
  | cons part parts ih =>
    rw [List.forall_mem_cons] at hparts
    have hbeneath : ¬Leads limit tree (path ++ "/" ++ part) :=
      fun hleads => hnot (hleads.above hparts.1)
    obtain ⟨rest, hname, hrest⟩ := exists_passes h
    cases hname with
    | found =>
      have hleft := ih hparts.2 hbeneath hrest hserves.2
      exact hleft
    | made =>
      obtain ⟨tree', hmade⟩ := Option.isSome_iff_exists.mp hserves.2.1
      exact absurd (mkdirAt_child hparts.1 hmade).1 hnot
    | tolerated =>
      have hleft := ih hparts.2 hbeneath hrest hserves.2.2
      exact hleft

/-- **When a creation that succeeds has delivered**: when it has passed over directories only. -/
theorem directories_iff (hparts : ∀ part ∈ parts, '/' ∉ part.toList)
    (h : Runs (sftpMkdirParts path parts) log (.ok ()))
    (hserves : AllSteps (treeAfter limit) (Serves limit) tree log) :
    (∀ p ∈ pathsFrom path parts, (run (treeAfter limit) tree log).IsDirectory limit p) ↔
      AllSteps (treeAfter limit) (PassesDirectories limit) tree log := by
  induction parts generalizing path log tree with
  | nil =>
    obtain ⟨rfl, -⟩ := runs_done_iff.mp h
    exact ⟨fun _ => trivial, fun _ => nofun⟩
  | cons part parts ih =>
    rw [List.forall_mem_cons] at hparts
    obtain ⟨rest, hname, hrest⟩ := exists_passes h
    rw [pathsFrom, List.forall_mem_cons]
    -- a name that is passed over leaves the tree as it is, and is a directory at the end only if it
    -- was
    have hover : AllSteps (treeAfter limit) (Serves limit) tree rest →
        (((run (treeAfter limit) tree rest).IsDirectory limit (path ++ "/" ++ part) ∧
          ∀ p ∈ pathsFrom (path ++ "/" ++ part) parts,
            (run (treeAfter limit) tree rest).IsDirectory limit p) ↔
        tree.IsDirectory limit (path ++ "/" ++ part) ∧
          AllSteps (treeAfter limit) (PassesDirectories limit) tree rest) := by
      intro hserves
      rw [ih hparts.2 hrest hserves]
      refine and_congr_left fun _ => ⟨fun hend => ?_, fun hbefore => isDirectory_run hbefore rest⟩
      by_contra hbefore
      rw [isDirectory_child_iff] at hbefore
      rw [run_of_not_leads hparts.2 hbefore hrest hserves, isDirectory_child_iff] at hend
      exact hbefore hend
    cases hname with
    | found => exact hover hserves.2
    | tolerated e e' hstatus =>
      refine (hover hserves.2.2).trans ?_
      show _ ↔ True ∧ (_ → _) ∧ _
      rw [true_and, forall_prop_of_true hstatus]
      rfl
    | made =>
      obtain ⟨tree', hmade⟩ := Option.isSome_iff_exists.mp hserves.2.1
      change mkdirAt limit tree _ = some tree' at hmade
      have hafter : treeAfter limit tree ⟨.sftpMkdir (path ++ "/" ++ part), .ok ()⟩ = tree' := by
        unfold treeAfter
        dsimp only
        rw [hmade]
        rfl
      have hrests := hserves.2.2
      change AllSteps (treeAfter limit) (Serves limit)
        (treeAfter limit tree ⟨.sftpMkdir (path ++ "/" ++ part), .ok ()⟩) rest at hrests
      show (run (treeAfter limit) (treeAfter limit tree ⟨.sftpMkdir (path ++ "/" ++ part), .ok ()⟩)
          rest).IsDirectory limit _ ∧ (∀ p ∈ _, (run (treeAfter limit)
          (treeAfter limit tree ⟨.sftpMkdir (path ++ "/" ++ part), .ok ()⟩)
            rest).IsDirectory limit p) ↔
        True ∧ True ∧ AllSteps (treeAfter limit) (PassesDirectories limit)
          (treeAfter limit tree ⟨.sftpMkdir (path ++ "/" ++ part), .ok ()⟩) rest
      rw [hafter] at hrests ⊢
      rw [true_and, true_and, ih hparts.2 hrest hrests]
      exact and_iff_right (isDirectory_run (mkdirAt_child hparts.1 hmade).2 rest)

theorem slash_not_mem_partsOf (path : String) : ∀ part ∈ partsOf path, '/' ∉ part.toList := by
  intro part hpart
  obtain ⟨cs, hcs, rfl⟩ := List.mem_map.mp (List.mem_of_mem_filter hpart)
  rw [String.toList_ofList]
  exact TextLines.notMem_of_mem_splitOn hcs

theorem recursive_iff (h : Runs (sftpMkdirRecursive path) log (.ok ()))
    (hserves : AllSteps (treeAfter limit) (Serves limit) tree log) :
    (∀ p ∈ prefixesOf path, (run (treeAfter limit) tree log).IsDirectory limit p) ↔
      AllSteps (treeAfter limit) (PassesDirectories limit) tree log := by
  rw [prefixesOf_eq]
  exact directories_iff (slash_not_mem_partsOf path) h hserves

end Trees

/-- **When a creation that reports success has delivered** every prefix of its path: when STAT has
found directories only, and MKDIR has failed with status 4 only where a directory was. -/
theorem make_directories_iff {rt : Runtime} (engine : PolicyEngine rt) (limit : ℕ) (tree : Tree)
    (sessionId path : String) (log : List Event)
    (hserves : AllSteps (treeAfter limit) (Serves limit) tree log) :
    (Runs (sftpMkdirRecursive path) log (.ok ()) →
      ((∀ p ∈ prefixesOf path, (run (treeAfter limit) tree log).IsDirectory limit p) ↔
        AllSteps (treeAfter limit) (PassesDirectories limit) tree log)) ∧
    ∀ session : Session, session.policyMode = .enforce → session.sftp = true →
      (∀ e ∈ log, SessionIs session e) → Runs (makeDirectories engine sessionId path) log
        (.ok true) →
        ((∀ p ∈ prefixesOf path, (run (treeAfter limit) tree log).IsDirectory limit p) ↔
          AllSteps (treeAfter limit) (PassesDirectories limit) tree log) := by
  refine ⟨fun h => recursive_iff h hserves, fun session henforce hsftp hsession h => ?_⟩
  replace h := runs_getSession_ok h
  obtain ⟨session', log, rfl, h⟩ := h
  have hanswer := (hsession _ List.mem_cons_self).resolve_left nofun
  obtain rfl : session' = session := Option.some.inj hanswer
  replace h := runs_ofExcept_ok (runs_wrapping_ok h)
  obtain ⟨decision, hdecision, h⟩ := h
  have hmode : decision.mode ≠ .explain := by
    rw [(engine.assertAllowedWith_ok hdecision).1, engine.evaluateWith_mode, henforce]
    exact PolicyMode.noConfusion
  rw [if_neg hmode, hsftp] at h
  replace h := runs_bind_ok h
  obtain ⟨⟨⟩, log₁, log₂, rfl, hmkdir, h⟩ := h
  obtain ⟨rfl, -⟩ := runs_done_iff.mp h
  rw [List.append_nil] at hserves ⊢
  -- the lookup of the session leaves the tree as it is
  have hiff := recursive_iff hmkdir hserves.2
  exact hiff.trans (iff_of_eq (true_and _).symm)

/-! ### Two servers -/

/-- A tree with one member of the root. -/
def oneMember (name : String) (node : Node) (hname : IsName name) : Tree where
  entries := [⟨[], name, node⟩]
  home := []
  distinct := List.nodup_singleton _
  rooted := List.forall_mem_singleton.mpr rfl
  names := List.forall_mem_singleton.mpr hname
  home_directory := rfl

/-- A run of `makeDirectories` around a run of the creation. -/
theorem exists_runs_makeDirectories {path : String} (hnul : Char.ofNat 0 ∉ path.toList)
    {log : List Event} (h : Runs (sftpMkdirRecursive path) log (.ok ())) :
    ∃ engine : PolicyEngine decimalRuntime,
      Runs (makeDirectories engine "ssh-1" path)
        (⟨.getSession "ssh-1", some ⟨.enforce, true⟩⟩ :: log) (.ok true) := by
  obtain ⟨engine, -, hpermits⟩ := exists_permissive decimalRuntime
  have hpermits := hpermits .fsMkdir (by decide) path hnul
  refine ⟨engine, runs_getSession (Runs.tryCatch_ok ?_)⟩
  change Runs (ofExcept (engine.assertAllowed (pathContext .fsMkdir path .enforce)) >>= _) _ _
  have hmode : (engine.evaluate (pathContext .fsMkdir path .enforce)).mode ≠ .explain := by
    rw [PolicyEngine.evaluate, engine.evaluateWith_mode]
    intro hexplain
    cases hexplain
  rw [engine.assertAllowed_eq, if_neg fun h => h.1 hpermits]
  change Runs (if _ then _ else _) _ _
  rw [if_neg hmode]
  rw [← List.append_nil log]
  exact h.bind (.done _)

/-- The answers of a server on which `/a` is there and `/a/b` is not. -/
def secondMade : List Event :=
  [⟨.sftpStat "/a", .ok { mode := none, size := none, mtime := none }⟩,
    ⟨.sftpStat "/a/b", .error noSuchFile⟩, ⟨.sftpMkdir "/a/b", .ok ()⟩]

/-- Beneath a directory one is made. -/
theorem make_directories_iff_child :
    ∃ engine : PolicyEngine decimalRuntime,
      Runs (makeDirectories engine "ssh-1" "/a/b")
        (⟨.getSession "ssh-1", some ⟨.enforce, true⟩⟩ :: secondMade) (.ok true) ∧
      ∀ p ∈ prefixesOf "/a/b", (run (treeAfter 8) (oneMember "a" .directory (by decide))
        (⟨.getSession "ssh-1", some ⟨.enforce, true⟩⟩ :: secondMade)).IsDirectory 8 p := by
  have hruns : Runs (sftpMkdirRecursive "/a/b") secondMade (.ok ()) :=
    runs_of_passes (.found _) (runs_of_passes (.made _) (.done _))
  obtain ⟨engine, hengine⟩ := exists_runs_makeDirectories (by decide) hruns
  refine ⟨engine, hengine, ?_⟩
  have hdirectory : (oneMember "a" .directory (by decide)).IsDirectory 8 "/a" :=
    ⟨by decide, ["a"], by decide, by decide⟩
  have hserves : AllSteps (treeAfter 8) (Serves 8) (oneMember "a" .directory (by decide))
      (⟨.getSession "ssh-1", some ⟨.enforce, true⟩⟩ :: secondMade) :=
    ⟨trivial, trivial, trivial, show (mkdirAt 8 _ "/a/b").isSome = true by decide, trivial⟩
  have hsession : ∀ e ∈ (⟨.getSession "ssh-1", some ⟨.enforce, true⟩⟩ :: secondMade : List Event),
      SessionIs ⟨.enforce, true⟩ e := by
    simp [secondMade, SessionIs]
  have hiff := (make_directories_iff engine 8 _ "ssh-1" "/a/b" _ hserves).2 ⟨.enforce, true⟩ rfl rfl
    hsession hengine
  exact hiff.mpr ⟨trivial, hdirectory, trivial, trivial, trivial⟩

/-- **Success without a directory**: a file is found at the path, or the MKDIR fails with status
4. -/
theorem file_taken_for_directory :
    ∃ engine engine' : PolicyEngine decimalRuntime,
      Runs (makeDirectories engine "ssh-1" "/a")
        [⟨.getSession "ssh-1", some ⟨.enforce, true⟩⟩,
          ⟨.sftpStat "/a", .ok { mode := none, size := none, mtime := none }⟩] (.ok true) ∧
      Runs (makeDirectories engine' "ssh-1" "/b")
        [⟨.getSession "ssh-1", some ⟨.enforce, true⟩⟩, ⟨.sftpStat "/b", .error noSuchFile⟩,
          ⟨.sftpMkdir "/b", .error sftpFailure⟩] (.ok true) ∧
      prefixesOf "/a" = ["/a"] ∧ ¬(oneMember "a" .file (by decide)).IsDirectory 8 "/a" ∧
      prefixesOf "/b" = ["/b"] ∧ ¬(oneMember "a" .file (by decide)).IsDirectory 8 "/b" := by
  obtain ⟨engine, hengine⟩ := exists_runs_makeDirectories (by decide)
    (show Runs (sftpMkdirRecursive "/a") _ _ from runs_of_passes (.found _) (.done _))
  obtain ⟨engine', hengine'⟩ := exists_runs_makeDirectories (by decide)
    (show Runs (sftpMkdirRecursive "/b") _ _ from
      runs_of_passes (.tolerated noSuchFile sftpFailure rfl) (.done _))
  refine ⟨engine, engine', hengine, hengine', by decide, ?_, by decide, ?_⟩
  · rintro ⟨-, d, hresolve, hd⟩
    obtain rfl : ["a"] = d := Option.some.inj ((show _ = _ by decide).trans hresolve)
    exact absurd hd (by decide)
  · rintro ⟨-, d, hresolve, -⟩
    exact absurd hresolve (by rw [show resolveFrom _ true 8 _ _ = none by decide]; nofun)

end Ssh
