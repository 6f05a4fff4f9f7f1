import Mathlib.Logic.Function.Basic
import McpSshTool.Library.Failing
import McpSshTool.Library.Run
import McpSshTool.Ssh.DenialStops
import McpSshTool.Ssh.RunInversion
import McpSshTool.Ssh.WriteAtomic

/-!
# What a download leaves of the local files

`downloadFileWithProgress` on local files that only the download changes, where any step may fail.

* `LocalFiles`, `localAfter` — the local files, and what an operation leaves of them;
* `StopsDownload` — the answers that end a download with an error, once its temporary file is there;
* `CleansUp` — the temporary file is there when none of them comes;
* `download_atomic_iff` — the download is all or nothing exactly if it always cleans up.

The temporary file is removed only where the digests differ.
-/

open Library Program Run LexicalPath

namespace Ssh

/-! ### Local files -/

/-- What stands at a local path. -/
inductive LocalNode where
  | file (data : List UInt8)
  | directory
  | link (target : String)
deriving DecidableEq, Repr

/-- The local files, by their absolute paths. -/
abbrev LocalFiles : Type := String → Option LocalNode

/-- **What an operation leaves of the local files.** A write that fails may have made a file with
some data in it. -/
def localAfter (left : Option (List UInt8)) (files : LocalFiles) : Event → LocalFiles
  | ⟨.localCreateFile path data, .ok _⟩ => Function.update files path (some (.file data))
  | ⟨.localCreateFile path _, .error _⟩ =>
    if files path = none then Function.update files path (left.map .file) else files
  | ⟨.localRemove path, .ok _⟩ => Function.update files path none
  | ⟨.localRename source target, .ok _⟩ =>
    Function.update (Function.update files source none) target (files source)
  | _ => files

/-- How the local file system answers: a file is made only where nothing is, unlinking works, and
the root is there. -/
def LocallyServes (files : LocalFiles) : Event → Prop
  | ⟨.localCreateFile path _, .ok _⟩ => files path = none
  | ⟨.localRemove _, .error _⟩ => False
  | ⟨.localRealpath path, .error _⟩ => path ≠ "/"
  | _ => True

/-- The operation leaves the local files as they are, whatever the answer. -/
def LeavesLocalFiles : Operation → Prop
  | .localCreateFile _ _ => False
  | .localRemove _ => False
  | .localRename _ _ => False
  | _ => True

theorem localAfter_of_leaves {left : Option (List UInt8)} {e : Event} (h : LeavesLocalFiles e.1)
    (files : LocalFiles) : localAfter left files e = files := by
  unfold localAfter
  split
  · exact absurd h id
  · exact absurd h id
  · exact absurd h id
  · exact absurd h id
  · rfl

theorem run_of_leaves {left : Option (List UInt8)} {log : List Event}
    (h : ∀ e ∈ log, LeavesLocalFiles e.1) (files : LocalFiles) :
    run (localAfter left) files log = files :=
  run_of_fixed fun e he => localAfter_of_leaves (h e he) files

/-! ### Answers that stop a download -/

section Stopping

variable {rt : Runtime} (engine : PolicyEngine rt) (target : String)

/-- **The answer ends a download** with an error, once its temporary file is there. A target that is
missing does not. -/
def StopsDownload : Event → Prop
  | ⟨.localRealpath path, .error e⟩ => path = target → isMissingPathError e = false
  | ⟨.localFiles context, files⟩ => ∃ e, engine.assertAllowedWith files context = .error e
  | ⟨.localReadFile _, .error _⟩ => True
  | ⟨.localRename _ _, .error _⟩ => True
  | _ => False

/-- The root is there. -/
def RootResolves : Event → Prop
  | ⟨.localRealpath path, .error _⟩ => path ≠ "/"
  | _ => True

variable {engine} {target}

theorem failsOn_assertLocalAllowed (context : PolicyContext) :
    FailsOn RootResolves (StopsDownload engine target) (assertLocalAllowed engine context) :=
  failsOn_perform fun _ _ => Iff.rfl

theorem failsOn_localReadFile (path : String) :
    FailsOn RootResolves (StopsDownload engine target) (localReadFile path) := by
  refine failsOn_perform fun answer _ => ?_
  cases answer with
  | ok => exact ⟨False.elim, fun ⟨_, h⟩ => nomatch h⟩
  | error e => exact ⟨fun _ => ⟨e, rfl⟩, fun _ => trivial⟩

theorem failsOn_localRealpath {path : String} (hpath : path = target → path = "/") :
    FailsOn RootResolves (StopsDownload engine target) (localRealpath path) := by
  refine failsOn_perform fun answer hroot => ?_
  cases answer with
  | ok => exact ⟨False.elim, fun ⟨_, h⟩ => nomatch h⟩
  | error e => exact ⟨fun _ => ⟨e, rfl⟩, fun _ htarget => absurd (hpath htarget) hroot⟩

theorem failsOn_authorizeLocalReadPath {path absolutePath : String} {mode : PolicyMode}
    (hpath : resolveAbsoluteLocalPath rt path = .ok absolutePath) (hne : absolutePath ≠ target) :
    FailsOn RootResolves (StopsDownload engine target)
      (authorizeLocalReadPath engine path mode) := by
  refine FailsOn.bind ?_ fun canonicalPath => (failsOn_assertLocalAllowed _).bind fun _ =>
    failsOn_ok _
  unfold resolveLocalReadPath
  rw [hpath]
  exact (failsOn_localRealpath fun h => absurd h hne).rethrown fun _ => ⟨_, rfl⟩

/-- Only the root is its own parent. -/
theorem eq_root_of_dirname_eq {loc : List Segment} (hloc : IsLocation loc)
    (h : dirname (locationText loc) = locationText loc) : locationText loc = "/" := by
  have hwalk : walk [] (locationText loc).toList = loc := by
    have hresolve := resolve_text hloc []
    rw [resolve, if_pos (isAbsolute_text loc)] at hresolve
    rw [locationText, String.toList_ofList, hresolve]
  rw [dirname, hwalk] at h
  have htext := String.ofList_injective h
  have hlocs : loc.dropLast = loc :=
    text_injective (fun s hs => hloc s (List.mem_of_mem_dropLast hs)) hloc htext
  cases loc with
  | nil => rfl
  | cons => simpa using congrArg List.length hlocs

/-- What may be written is asked about again: a target that is missing is created. -/
theorem failsOn_authorizeLocalWritePath {localPath : String} {mode : PolicyMode}
    (hpath : resolveAbsoluteLocalPath rt localPath = .ok target)
    (hparent : dirname target = target → target = "/") :
    FailsOn RootResolves (StopsDownload engine target)
      (authorizeLocalWritePath engine localPath mode) := by
  refine FailsOn.bind ?_ fun resolved => (failsOn_assertLocalAllowed _).bind fun _ => failsOn_ok _
  unfold resolveLocalWritePath
  rw [hpath]
  refine FailsOn.bind (p := (localRealpath (dirname target)).tryCatch _) ?_ fun parent => ?_
  · refine (failsOn_localRealpath fun h => ?_).rethrown fun _ => ⟨_, rfl⟩
    rw [h]
    exact hparent h
  -- the answer about the target itself
  intro log result h _
  replace h := runs_perform_iff.mp h
  obtain ⟨answer, log', rfl, h⟩ := h
  cases answer with
  | ok =>
    obtain ⟨rfl, rfl⟩ := runs_done_iff.mp h
    refine ⟨fun ⟨e, he, hstop⟩ => ?_, fun ⟨_, h⟩ => nomatch h⟩
    obtain rfl := List.mem_singleton.mp he
    exact hstop.elim
  | error e =>
    change Runs (if (!isMissingPathError e) = true then _ else _) _ _ at h
    split at h
    · next hother =>
      obtain ⟨rfl, rfl⟩ := runs_done_iff.mp h
      exact ⟨fun _ => ⟨_, rfl⟩, fun _ => ⟨_, List.mem_singleton_self _, fun _ => by
        simpa using hother⟩⟩
    · next hmissing =>
      obtain ⟨rfl, rfl⟩ := runs_done_iff.mp h
      refine ⟨fun ⟨e', he', hstop⟩ => ?_, fun ⟨_, h⟩ => nomatch h⟩
      obtain rfl := List.mem_singleton.mp he'
      exact absurd (hstop rfl) (by simpa using hmissing)

end Stopping

/-! ### The temporary path -/

theorem exists_location {rt : Runtime} {localPath path : String}
    (h : resolveAbsoluteLocalPath rt localPath = .ok path) :
    ∃ loc, IsLocation loc ∧ path = locationText loc ∧ resolveLocal rt localPath = path := by
  have hpath : resolveLocal rt localPath = path := by
    unfold resolveAbsoluteLocalPath at h
    cases hvalid : validateLocalPathInput localPath with
    | error =>
      rw [hvalid] at h
      cases h
    | ok =>
      rw [hvalid] at h
      exact Except.ok.inj h
  exact ⟨_, isLocation_resolve (isLocation_walk isLocation_nil _) _, hpath.symm, hpath⟩

/-- The temporary path stands beside the target. -/
theorem tempLocalPath_eq {rt : Runtime} {localPath target temp : String} {time : ℕ}
    (htarget : resolveAbsoluteLocalPath rt localPath = .ok target)
    (htemp : resolveAbsoluteLocalPath rt (target ++ ".tmp." ++ toString time) = .ok temp) :
    temp = target ++ ".tmp." ++ toString time := by
  obtain ⟨loc, hloc, rfl, -⟩ := exists_location htarget
  obtain ⟨-, -, -, hresolve⟩ := exists_location htemp
  have hslash : '/' ∉ (".tmp." ++ toString time).toList := by
    rw [String.toList_append, List.mem_append, not_or]
    exact ⟨by decide, fun h => Bool.noConfusion (JsText.digits_of_nat time _ h)⟩
  have hlength : 2 < (".tmp." ++ toString time).toList.length := by
    rw [String.toList_append, List.length_append]
    exact Nat.lt_of_lt_of_le (by decide : 2 < ".tmp.".toList.length) (Nat.le_add_right _ _)
  obtain ⟨loc', hloc', htext⟩ := exists_location_append hloc hslash hlength
  have hpath : locationText loc ++ ".tmp." ++ toString time = locationText loc' := by
    rw [locationText, locationText, htext, String.append_assoc, String.ofList_append,
      String.ofList_toList]
  have hlocation : (locationText loc').toList = text loc' := String.toList_ofList
  rw [← hresolve, hpath, resolveLocal, hlocation, resolve_text hloc']

theorem append_temp_ne (target : String) (time : ℕ) :
    target ++ ".tmp." ++ toString time ≠ target := by
  intro h
  have hlength := congrArg (fun text => text.toList.length) h
  simp only [String.toList_append, List.length_append] at hlength
  have htmp : ".tmp.".toList.length = 5 := by decide
  omega

/-! ### Cleaning up -/

section Cleaning

variable {rt : Runtime} (engine : PolicyEngine rt) (base : LocalFiles) (target : String)
variable (left : Option (List UInt8))

/-- **The temporary file is not left behind**: nothing stops the download while it is there, and a
write that fails has left nothing. -/
def CleansUp (files : LocalFiles) : Event → Prop
  | ⟨.localCreateFile path _, .error _⟩ => files path = none → left = none
  | e => files = base ∨ ¬StopsDownload engine target e

variable (rt) in
/-- **All or nothing**: a download that succeeds has left the bytes that were read and verified at
the target, and nothing else; one that fails has left the local files as they were. -/
def LeavesWhole (remotePath : String) (log : List Event) (files : LocalFiles) :
    Except Failure TransferResult → Prop
  | .ok _ => ∃ data path copy, ⟨.sftpReadFile remotePath, .ok data⟩ ∈ log ∧
      ⟨.localReadFile path, .ok copy⟩ ∈ log ∧ rt.sha256 copy = rt.sha256 data ∧
      files = Function.update base target (some (.file data))
  | .error _ => files = base

variable {engine} {base} {target} {left} {files : LocalFiles} {log : List Event}

theorem rootResolves_of_serves (h : AllSteps (localAfter left) LocallyServes files log) :
    ∀ e ∈ log, RootResolves e := by
  induction log generalizing files with
  | nil => exact fun e he => absurd he List.not_mem_nil
  | cons e log ih =>
    refine List.forall_mem_cons.mpr ⟨?_, ih h.2⟩
    have hserves := h.1
    unfold RootResolves
    split
    · exact hserves
    · trivial

theorem cleansUp_of_leaves {e : Event} (h : LeavesLocalFiles e.1) :
    CleansUp engine base target left files e ↔ files = base ∨ ¬StopsDownload engine target e := by
  unfold CleansUp
  split
  · exact absurd h id
  · exact Iff.rfl

/-- **A part that only looks**: it leaves the files as they are, and cleans up exactly if it
succeeds. -/
theorem looks_iff {α : Type} {p : Task α} {result : Except Failure α}
    (hleaves : Performs (fun _ => True) LeavesLocalFiles p)
    (hfails : FailsOn RootResolves (StopsDownload engine target) p) (h : Runs p log result)
    (hroot : ∀ e ∈ log, RootResolves e) (hfiles : files ≠ base) :
    run (localAfter left) files log = files ∧
      (AllSteps (localAfter left) (CleansUp engine base target left) files log ↔
        ∃ a, result = .ok a) := by
  have hlog := (Ensures.of_runs hleaves h fun _ _ => trivial).1
  refine ⟨run_of_leaves hlog files, ?_⟩
  rw [allSteps_of_fixed fun e he => localAfter_of_leaves (hlog e he) files]
  have hclean : (∀ e ∈ log, CleansUp engine base target left files e) ↔
      ¬∃ e ∈ log, StopsDownload engine target e := by
    simp only [not_exists, not_and]
    exact forall₂_congr fun e he => (cleansUp_of_leaves (hlog e he)).trans (or_iff_right hfiles)
  rw [hclean, hfails log result h hroot]
  cases result <;> simp

theorem leaves_assertLocalAllowed (context : PolicyContext) :
    Performs (fun _ => True) LeavesLocalFiles (assertLocalAllowed engine context) :=
  ⟨trivial, fun _ _ => trivial⟩

theorem leaves_localRealpath (path : String) :
    Performs (fun _ => True) LeavesLocalFiles (localRealpath path) :=
  ⟨trivial, fun _ _ => trivial⟩

theorem leaves_authorizeLocalReadPath (path : String) (mode : PolicyMode) :
    Performs (fun _ => True) LeavesLocalFiles (authorizeLocalReadPath engine path mode) := by
  refine Performs.bind ?_ fun _ => (leaves_assertLocalAllowed _).bind fun _ => trivial
  unfold resolveLocalReadPath
  refine Performs.bind (p := ofExcept _) trivial fun _ => ?_
  exact (leaves_localRealpath _).tryCatch fun _ => trivial

theorem leaves_authorizeLocalWritePath (path : String) (mode : PolicyMode) :
    Performs (fun _ => True) LeavesLocalFiles (authorizeLocalWritePath engine path mode) := by
  refine Performs.bind ?_ fun _ => (leaves_assertLocalAllowed _).bind fun _ => trivial
  unfold resolveLocalWritePath
  refine Performs.bind (p := ofExcept _) trivial fun _ => ?_
  refine Performs.bind (Performs.tryCatch (leaves_localRealpath _) fun _ => ?_) fun _ => ?_
  · trivial
  · refine Performs.tryCatch (Performs.bind (leaves_localRealpath _) fun _ => ?_) fun e => ?_
    · trivial
    · split <;> trivial

theorem leaves_localReadFile (path : String) :
    Performs (fun _ => True) LeavesLocalFiles (localReadFile path) :=
  ⟨trivial, fun _ _ => trivial⟩

/-! ### Behind the temporary file -/

variable (engine) (base) (target) (left) in
/-- How a part of a download ends while the temporary file is there. -/
structure EndsWhole (data : List UInt8) (files : LocalFiles) (log : List Event)
    (result : Except Failure TransferResult) : Prop where
  ok : ∀ r, result = .ok r → AllSteps (localAfter left)
    (CleansUp engine base target left) files log ∧
    run (localAfter left) files log = Function.update base target (some (.file data))
  error : ∀ e, result = .error e → (run (localAfter left) files log = base ↔
    AllSteps (localAfter left) (CleansUp engine base target left) files log)

/-- A part that only looks, and what comes after it. -/
theorem EndsWhole.of_looks {α : Type} {p : Task α} {f : α → Task TransferResult} {data : List UInt8}
    {result : Except Failure TransferResult} (hleaves : Performs (fun _ => True) LeavesLocalFiles p)
    (hfails : FailsOn RootResolves (StopsDownload engine target) p) (hfiles : files ≠ base)
    (hrest : ∀ a log₁ log₂, Runs p log₁ (.ok a) → Runs (f a) log₂ result →
      AllSteps (localAfter left) LocallyServes files log₂ →
        EndsWhole engine base target left data files log₂ result)
    (h : Runs (p >>= f) log result) (hserves : AllSteps (localAfter left) LocallyServes files log) :
    EndsWhole engine base target left data files log result := by
  have hroot := rootResolves_of_serves hserves
  obtain ⟨e, rfl, hp⟩ | ⟨a, log₁, log₂, rfl, hp, hf⟩ := runs_bind_cases h
  · obtain ⟨hrun, hclean⟩ := looks_iff hleaves hfails hp hroot hfiles
    refine ⟨fun _ => nofun, fun _ _ => ?_⟩
    rw [hrun, hclean]
    exact ⟨fun h => absurd h hfiles, fun ⟨_, h⟩ => nomatch h⟩
  · have hlooks : run (localAfter left) files log₁ = files ∧ _ :=
      looks_iff hleaves hfails hp (fun e he => hroot e (List.mem_append_left _ he)) hfiles
    obtain ⟨hrun, hclean⟩ := hlooks
    rw [allSteps_append, hrun] at hserves
    obtain ⟨hok, herror⟩ := hrest a log₁ log₂ hp hf hserves.2
    constructor
    · intro r hr
      rw [allSteps_append, run_append, hrun, and_iff_right (hclean.mpr ⟨a, rfl⟩)]
      exact hok r hr
    · intro e he
      rw [allSteps_append, run_append, hrun, and_iff_right (hclean.mpr ⟨a, rfl⟩)]
      exact herror e he

variable (engine) in
/-- The part of a download that comes behind the temporary file. -/
def verifyAndRename (remotePath localPath temp : String) (mode : PolicyMode) (remoteSha256 : String)
    (totalSize startTime : ℕ) : Task TransferResult := do
  let tempReadPath ← authorizeLocalReadPath engine temp mode
  let localData ← localReadFile tempReadPath
  if remoteSha256 ≠ rt.sha256 localData then do
    localRemove temp
    Program.throw (createFilesystemError ("Transfer verification failed for " ++ remotePath)
      (some "Local SHA-256 does not match the remote file after download"))
  else do
    let finalTargetPath ← authorizeLocalWritePath engine localPath mode
    localRename temp finalTargetPath.absolutePath
    verifiedTransfer (basename remotePath) totalSize startTime remoteSha256

/-- What is authorised is the path that was resolved. -/
theorem absolutePath_of_authorized {localPath : String} {mode : PolicyMode}
    {resolved : LocalWritePath}
    (h : Runs (authorizeLocalWritePath engine localPath mode) log (.ok resolved)) :
    resolveAbsoluteLocalPath rt localPath = .ok resolved.absolutePath := by
  replace h := runs_bind_ok h
  obtain ⟨resolved', log₁, log₂, rfl, hresolve, h⟩ := h
  replace h := runs_bind_ok h
  obtain ⟨_, _, _, _, _, h⟩ := h
  obtain rfl := Except.ok.inj (runs_done_iff.mp h).2
  unfold resolveLocalWritePath at hresolve
  replace hresolve := runs_ofExcept_ok hresolve
  obtain ⟨absolutePath, hpath, hresolve⟩ := hresolve
  replace hresolve := runs_bind_ok (p := (localRealpath (dirname absolutePath)).tryCatch _) hresolve
  obtain ⟨parent, log₃, log₄, -, -, hresolve⟩ := hresolve
  replace hresolve := runs_perform_iff.mp hresolve
  obtain ⟨answer, log₅, -, hresolve⟩ := hresolve
  rw [hpath]
  cases answer with
  | ok =>
    obtain rfl := Except.ok.inj (runs_done_iff.mp hresolve).2
    rfl
  | error e =>
    change Runs (if (!isMissingPathError e) = true then _ else _) _ _ at hresolve
    split at hresolve
    · exact absurd (runs_done_iff.mp hresolve).2 nofun
    · obtain rfl := Except.ok.inj (runs_done_iff.mp hresolve).2
      rfl

theorem endsWhole_verifyAndRename {remotePath localPath temp remoteSha256 : String}
    {mode : PolicyMode}
    {totalSize startTime : ℕ} {data : List UInt8} {result : Except Failure TransferResult}
    (htarget : resolveAbsoluteLocalPath rt localPath = .ok target)
    (htemp : resolveAbsoluteLocalPath rt temp = .ok temp) (hne : temp ≠ target)
    (hfree : base temp = none)
    (h : Runs (verifyAndRename engine remotePath localPath temp mode remoteSha256
      totalSize startTime)
      log result)
    (hserves : AllSteps (localAfter left) LocallyServes
      (Function.update base temp (some (.file data))) log) :
    EndsWhole engine base target left data (Function.update base temp (some (.file data))) log
      result := by
  have hfiles : Function.update base temp (some (.file data)) ≠ base := by
    intro heq
    have hthere := congrFun heq temp
    rw [Function.update_self, hfree] at hthere
    cases hthere
  obtain ⟨loc, hloc, hloctarget, -⟩ := exists_location htarget
  refine EndsWhole.of_looks (leaves_authorizeLocalReadPath _ _)
    (failsOn_authorizeLocalReadPath htemp hne) hfiles (fun _ _ log₁ _ h hserves => ?_) h hserves
  refine EndsWhole.of_looks (leaves_localReadFile _) (failsOn_localReadFile _) hfiles
    (fun localData _ log₂ _ h hserves => ?_) h hserves
  split at h
  · -- the digests differ, and the temporary file is removed
    replace h := runs_perform_iff.mp h
    obtain ⟨answer, log₃, rfl, h⟩ := h
    cases answer with
    | error => exact hserves.1.elim
    | ok =>
      obtain ⟨rfl, rfl⟩ := runs_done_iff.mp h
      refine ⟨fun _ => nofun, fun _ _ => iff_of_true ?_ ⟨.inr id, trivial⟩⟩
      show Function.update (Function.update base temp (some (.file data))) temp none = base
      rw [Function.update_idem, ← hfree, Function.update_eq_self]
  · refine EndsWhole.of_looks (leaves_authorizeLocalWritePath _ _)
      (failsOn_authorizeLocalWritePath htarget ?_) hfiles
      (fun final log₃ log₄ hfinal h hserves => ?_) h hserves
    · rw [hloctarget]
      exact eq_root_of_dirname_eq hloc
    have hpath := absolutePath_of_authorized hfinal
    rw [htarget] at hpath
    rw [← Except.ok.inj hpath] at h
    replace h := runs_perform_iff.mp h
    obtain ⟨answer, log₅, rfl, h⟩ := h
    cases answer with
    | error =>
      -- the rename has failed: the temporary file is left
      obtain ⟨rfl, rfl⟩ := runs_done_iff.mp h
      refine ⟨fun _ => nofun, fun _ _ => iff_of_false hfiles fun hclean => ?_⟩
      exact hclean.1.elim hfiles fun hstop => hstop trivial
    | ok =>
      replace h := runs_perform_iff.mp h
      obtain ⟨time, log₆, rfl, h⟩ := h
      obtain ⟨rfl, rfl⟩ := runs_done_iff.mp h
      -- the rename has put the data in place
      refine ⟨fun _ _ => ⟨⟨.inr id, .inr id, trivial⟩, ?_⟩, fun _ => nofun⟩
      show Function.update (Function.update (Function.update base temp
        (some (.file data))) temp none)
        target (Function.update base temp (some (.file data)) temp) = _
      rw [Function.update_self, Function.update_idem, ← hfree, Function.update_eq_self]

/-- A download that succeeds has compared the digests. -/
theorem compared_of_ok {remotePath localPath temp remoteSha256 : String} {mode : PolicyMode}
    {totalSize startTime : ℕ} {r : TransferResult}
    (h : Runs (verifyAndRename engine remotePath localPath temp mode remoteSha256
      totalSize startTime)
      log (.ok r)) :
    ∃ path copy, ⟨.localReadFile path, .ok copy⟩ ∈ log ∧ rt.sha256 copy = remoteSha256 := by
  replace h := runs_bind_ok h
  obtain ⟨path, log₁, log₂, rfl, -, h⟩ := h
  replace h := runs_perform_ok (.localReadFile path) id h
  obtain ⟨_, copy, log₃, rfl, rfl, h⟩ := h
  refine ⟨path, copy, List.mem_append_right _ List.mem_cons_self, ?_⟩
  by_contra hdigest
  rw [if_pos (Ne.symm hdigest)] at h
  replace h := runs_bind_ok h
  obtain ⟨_, _, _, -, -, h⟩ := h
  exact absurd (runs_done_iff.mp h).2 nofun

/-! ### The whole download -/

/-- A transfer fails where its body does. -/
theorem runs_transferring {what : String} {body : Task TransferResult}
    {result : Except Failure TransferResult} (h : Runs (transferring what body) log result) :
    ∃ mid, Runs body log mid ∧ ∀ r, result = .ok r ↔ mid = .ok r := by
  obtain ⟨log₁, mid, log₂, h₁, h₂, rfl⟩ := runs_andThen_iff.mp h
  cases mid with
  | ok r =>
    obtain ⟨rfl, rfl⟩ := runs_done_iff.mp h₂
    exact ⟨.ok r, (List.append_nil log₁).symm ▸ h₁, fun _ => Iff.rfl⟩
  | error e =>
    have hthrows : ∃ e', log₂ = [] ∧ result = .error e' := by
      cases e with
      | sshMcp => exact ⟨_, runs_done_iff.mp h₂⟩
      | other => exact ⟨_, runs_done_iff.mp h₂⟩
      | unfinished => exact ⟨_, runs_done_iff.mp h₂⟩
    obtain ⟨e', rfl, rfl⟩ := hthrows
    exact ⟨.error e, (List.append_nil log₁).symm ▸ h₁, fun _ => ⟨nofun, nofun⟩⟩

/-- What a transfer makes of the end of its body. -/
def transferred (what : String) : Except Failure TransferResult → Except Failure TransferResult
  | .ok r => .ok r
  | .error (.sshMcp error) => .error (.sshMcp error)
  | .error error =>
    .error (createFilesystemError ("Failed to " ++ what ++ ": " ++ error.describe))

theorem runs_transferred (what : String) {body : Task TransferResult}
    {mid : Except Failure TransferResult} (h : Runs body log mid) :
    Runs (transferring what body) log (transferred what mid) := by
  cases mid with
  | ok => exact h.tryCatch_ok
  | error e => cases e <;> exact h.tryCatch_done rfl

variable (engine) in
/-- **How a download goes**: it fails without touching the local files, or comes to its temporary
file. -/
inductive DownloadGoes (remotePath localPath : String) (mode : PolicyMode) :
    List Event → Except Failure TransferResult → Prop
  | failed {log : List Event} (e : Failure) (h : ∀ e ∈ log, LeavesLocalFiles e.1) :
      DownloadGoes remotePath localPath mode log (.error e)
  | created (before after : List Event) (target : String) (data : List UInt8) (time : ℕ)
      (answer : Except Failure Unit) {result : Except Failure TransferResult}
      (hbefore : ∀ e ∈ before, LeavesLocalFiles e.1)
      (hread : ⟨.sftpReadFile remotePath, .ok data⟩ ∈ before)
      (htarget : resolveAbsoluteLocalPath rt localPath = .ok target)
      (htemp : resolveAbsoluteLocalPath rt (target ++ ".tmp." ++ toString time) =
        .ok (target ++ ".tmp." ++ toString time))
      (hrest : (∃ e, answer = .error e ∧ after = [] ∧ ∃ e', result = .error e') ∨
        ∃ totalSize startTime, answer = .ok () ∧
          Runs (verifyAndRename engine remotePath localPath (target ++ ".tmp." ++
            toString time) mode
            (rt.sha256 data) totalSize startTime) after result) :
      DownloadGoes remotePath localPath mode
        (before ++ ⟨.localCreateFile (target ++ ".tmp." ++ toString time) data, answer⟩ ::
          after) result

theorem leaves_transferSession (sessionId : String) :
    Performs (fun _ => True) LeavesLocalFiles (transferSession sessionId) := by
  refine Performs.bind ⟨trivial, fun found _ => ?_⟩ fun session => ?_
  · cases found <;> trivial
  · split <;> trivial

section Going

variable {remotePath localPath : String} {mode : PolicyMode}
  {result : Except Failure TransferResult}

theorem DownloadGoes.prepend {before : List Event} (hbefore : ∀ e ∈ before, LeavesLocalFiles e.1)
    (h : DownloadGoes engine remotePath localPath mode log result) :
    DownloadGoes engine remotePath localPath mode (before ++ log) result := by
  cases h with
  | failed e h => exact .failed e (List.forall_mem_append.mpr ⟨hbefore, h⟩)
  | created _ _ _ _ _ _ hlog hread htarget htemp hrest =>
    rw [← List.append_assoc]
    exact .created _ _ _ _ _ _ (List.forall_mem_append.mpr ⟨hbefore, hlog⟩)
      (List.mem_append_right _ hread) htarget htemp hrest

theorem DownloadGoes.of_leaves {α : Type} {p : Task α} {f : α → Task TransferResult}
    (hleaves : Performs (fun _ => True) LeavesLocalFiles p)
    (hrest : ∀ a log₁ log₂, Runs p log₁ (.ok a) → Runs (f a) log₂ result →
      DownloadGoes engine remotePath localPath mode log₂ result)
    (h : Runs (p >>= f) log result) : DownloadGoes engine remotePath localPath mode log result := by
  obtain ⟨e, rfl, hp⟩ | ⟨a, log₁, log₂, rfl, hp, hf⟩ := runs_bind_cases h
  · exact .failed e (Ensures.of_runs hleaves hp fun _ _ => trivial).1
  · exact (hrest a log₁ log₂ hp hf).prepend (Ensures.of_runs hleaves hp fun _ _ => trivial).1

/-- From the remote file on. -/
theorem downloadGoes_of_read {target : LocalWritePath} {totalSize startTime : ℕ}
    (htarget : resolveAbsoluteLocalPath rt localPath = .ok target.absolutePath)
    (h : Runs (do
      let data ← sftpReadFile remotePath
      let remoteSha256 := rt.sha256 data
      let time ← now
      let tempLocalPath := target.absolutePath ++ ".tmp." ++ toString time
      let tempPath ← authorizeLocalWritePath engine tempLocalPath mode
      localCreateFile tempPath.absolutePath data
      verifyAndRename engine remotePath localPath tempPath.absolutePath mode remoteSha256 totalSize
        startTime) log result) :
    DownloadGoes engine remotePath localPath mode log result := by
  replace h := runs_perform_cases (.sftpReadFile remotePath) id h
  obtain ⟨answer, ⟨e, rfl, rfl, rfl⟩ | ⟨data, log, rfl, rfl, h⟩⟩ := h
  · exact .failed e (List.forall_mem_singleton.mpr trivial)
  replace h := runs_now h
  obtain ⟨time, log, rfl, h⟩ := h
  replace h := runs_bind_cases h
  obtain ⟨e, rfl, hp⟩ | ⟨temp, log₁, log₂, rfl, hp, hf⟩ := h
  · refine .failed e (List.forall_mem_cons.mpr ⟨trivial, List.forall_mem_cons.mpr ⟨trivial, ?_⟩⟩)
    exact (Ensures.of_runs (leaves_authorizeLocalWritePath _ _) hp fun _ _ => trivial).1
  have hresolve := absolutePath_of_authorized hp
  have htemp := tempLocalPath_eq htarget hresolve
  have hlog₁ := (Ensures.of_runs (leaves_authorizeLocalWritePath _ _) hp fun _ _ => trivial).1
  rw [htemp] at hf hresolve
  have hbefore : ∀ e ∈ (⟨.sftpReadFile remotePath, .ok data⟩ :: ⟨.now, time⟩ :: log₁ : List Event),
      LeavesLocalFiles e.1 :=
    List.forall_mem_cons.mpr ⟨trivial, List.forall_mem_cons.mpr ⟨trivial, hlog₁⟩⟩
  replace hf := runs_perform_cases (.localCreateFile _ data) id hf
  obtain ⟨answer, ⟨e, rfl, rfl, rfl⟩ | ⟨_, log₃, rfl, rfl, hf⟩⟩ := hf
  · refine DownloadGoes.created (⟨.sftpReadFile remotePath, .ok data⟩ :: ⟨.now, time⟩ :: log₁) []
      target.absolutePath data time (.error e) hbefore List.mem_cons_self htarget hresolve ?_
    exact .inl ⟨e, rfl, rfl, e, rfl⟩
  · refine DownloadGoes.created (⟨.sftpReadFile remotePath, .ok data⟩ :: ⟨.now, time⟩ :: log₁) log₃
      target.absolutePath data time (.ok ()) hbefore List.mem_cons_self htarget hresolve ?_
    exact .inr ⟨totalSize, startTime, rfl, hf⟩

end Going

/-- **Every download** outside of mode `explain` goes so. -/
theorem download_goes {config : ServerConfig} {remotePath localPath sessionId : String}
    {session : Session} (henforce : session.policyMode = .enforce)
    {result : Except Failure TransferResult} (hsession : ∀ e ∈ log, SessionIs session e)
    (h : Runs (downloadFileWithProgress engine config remotePath localPath sessionId) log result) :
    ∃ mid, (∀ r, result = .ok r ↔ mid = .ok r) ∧
      DownloadGoes engine remotePath localPath .enforce log mid := by
  have hleaves := leaves_transferSession sessionId
  replace h := runs_bind_cases h
  obtain ⟨e, rfl, hp⟩ | ⟨session', log₁, log₂, rfl, hp, h⟩ := h
  · exact ⟨_, fun _ => Iff.rfl, .failed e (Ensures.of_runs hleaves hp fun _ _ => trivial).1⟩
  have hlog₁ := (Ensures.of_runs hleaves hp fun _ _ => trivial).1
  -- the session is the one that is looked up
  have hensures : Ensures (SessionIs session) _ _ (transferSession sessionId) :=
    transferSession_ensures looks_sessionIs sessionId
  have hlooked := (Ensures.of_runs hensures hp fun e he => hsession e (List.mem_append_left _ he)).2
  obtain ⟨rfl, -⟩ := hlooked session' rfl
  replace h := runs_bind_cases h
  obtain ⟨e, rfl, hp⟩ | ⟨decision, log₃, log₄, rfl, hp, h⟩ := h
  · obtain ⟨rfl, -⟩ := runs_done_iff.mp hp
    exact ⟨_, fun _ => Iff.rfl, .failed e (by simpa using hlog₁)⟩
  obtain ⟨rfl, hdecision⟩ := runs_done_iff.mp hp
  have hmode : decision.mode ≠ .explain := by
    rw [(engine.assertAllowedWith_ok hdecision.symm).1, engine.evaluateWith_mode, henforce]
    exact PolicyMode.noConfusion
  rw [if_neg hmode] at h
  replace h := runs_perform_iff.mp h
  obtain ⟨startTime, log₅, rfl, h⟩ := h
  replace h := runs_transferring h
  obtain ⟨mid, h, hmid⟩ := h
  have hnow : ∀ e ∈ ([⟨.now, startTime⟩] : List Event), LeavesLocalFiles e.1 :=
    List.forall_mem_singleton.mpr trivial
  refine ⟨mid, hmid, DownloadGoes.prepend hlog₁ ?_⟩
  rw [List.nil_append, ← List.singleton_append]
  refine DownloadGoes.prepend hnow ?_
  rw [henforce] at h
  refine DownloadGoes.of_leaves (leaves_authorizeLocalWritePath _ _) (fun target _ _ hp h => ?_) h
  refine DownloadGoes.of_leaves (p := sftpStat remotePath) ⟨trivial, fun _ _ => trivial⟩
    (fun stats _ _ _ h => ?_) h
  dsimp only at h
  split at h
  · obtain ⟨rfl, rfl⟩ := runs_done_iff.mp h
    exact .failed _ fun _ => nofun
  · exact downloadGoes_of_read (absolutePath_of_authorized hp) h

end Cleaning

/-- **When a download is all or nothing**: when nothing stops it once its temporary file is there,
and a write that fails leaves nothing. -/
theorem download_atomic_iff {rt : Runtime} (engine : PolicyEngine rt) (config : ServerConfig)
    (base : LocalFiles) (left : Option (List UInt8)) (remotePath localPath sessionId : String)
    {session : Session} (henforce : session.policyMode = .enforce) {log : List Event}
    {result : Except Failure TransferResult} (hsession : ∀ e ∈ log, SessionIs session e)
    (hserves : AllSteps (localAfter left) LocallyServes base log)
    (h : Runs (downloadFileWithProgress engine config remotePath localPath sessionId) log result) :
    LeavesWhole rt base (resolveLocal rt localPath) remotePath log
        (run (localAfter left) base log) result ↔
      AllSteps (localAfter left) (CleansUp engine base (resolveLocal rt localPath) left)
        base log := by
  obtain ⟨mid, hmid, hgoes⟩ := download_goes henforce hsession h
  -- the errors of the body are only given another text
  have hsame : ∀ files, LeavesWhole rt base (resolveLocal rt localPath) remotePath log
    files result ↔
      LeavesWhole rt base (resolveLocal rt localPath) remotePath log files mid := by
    intro files
    cases mid with
    | ok r => rw [(hmid r).mpr rfl]
    | error e =>
      cases result with
      | ok r => exact nomatch (hmid r).mp rfl
      | error => exact Iff.rfl
  rw [hsame]
  clear hsame hmid h
  cases hgoes with
  | failed e hlog =>
    rw [allSteps_of_fixed fun e he => localAfter_of_leaves (hlog e he) base, run_of_leaves hlog]
    exact iff_of_true rfl fun e he => (cleansUp_of_leaves (hlog e he)).mpr (.inl rfl)
  | created before after target data time answer hbefore hread htarget htemp hrest =>
    obtain ⟨-, -, -, htarget'⟩ := exists_location htarget
    rw [htarget']
    have hfirst : AllSteps (localAfter left) (CleansUp engine base target left) base before := by
      rw [allSteps_of_fixed fun e he => localAfter_of_leaves (hbefore e he) base]
      exact fun e he => (cleansUp_of_leaves (hbefore e he)).mpr (.inl rfl)
    rw [allSteps_append, run_of_leaves hbefore] at hserves ⊢
    rw [run_append, run_of_leaves hbefore, and_iff_right hfirst]
    replace hserves := hserves.2
    obtain ⟨e, rfl, rfl, e', rfl⟩ | ⟨totalSize, startTime, rfl, hrest⟩ := hrest
    · -- the write has failed, and has left something or not
      show (if base _ = none then Function.update base _ _ else base) = base ↔ (_ → _) ∧ True
      rw [and_true]
      split
      · next hfree =>
        rw [forall_prop_of_true hfree, Function.update_eq_self_iff, hfree]
        exact Option.map_eq_none_iff
      · next htaken => exact iff_of_true rfl fun hfree => absurd hfree htaken
    · have hfree : base (target ++ ".tmp." ++ toString time) = none := hserves.1
      have hends := endsWhole_verifyAndRename htarget htemp (append_temp_ne target time) hfree hrest
        hserves.2
      have hclean : AllSteps (localAfter left) (CleansUp engine base target left) base
          (⟨.localCreateFile (target ++ ".tmp." ++ toString time) data, .ok ()⟩ :: after) ↔
          AllSteps (localAfter left) (CleansUp engine base target left)
            (Function.update base (target ++ ".tmp." ++ toString time) (some (.file data))) after :=
        and_iff_right (.inl rfl)
      rw [hclean]
      cases mid with
      | error e => exact hends.error e rfl
      | ok r =>
        obtain ⟨path, copy, hcopy, hdigest⟩ := compared_of_ok hrest
        obtain ⟨hsteps, hrun⟩ := hends.ok r rfl
        exact iff_of_true ⟨data, path, copy, List.mem_append_left _ hread,
          List.mem_append_right _ (List.mem_cons_of_mem _ hcopy), hdigest, hrun⟩ hsteps

/-! ### A download over a file, and one over a directory -/

/-- An engine that allows local paths below the root. -/
theorem exists_permitting_local : ∃ engine : PolicyEngine decimalRuntime,
    engine.Permits (pathContext .transferDownload "/srv/a" .enforce) ∧
      ∀ files, ∀ action ∈ localTransferActions, ∀ path secondaryPath : Option String,
        (∀ p ∈ [path, secondaryPath].filterMap truthy, Char.ofNat 0 ∉ p.toList) →
          engine.PermitsWith files { action, path, secondaryPath, mode := some .enforce } := by
  obtain ⟨default, hdefault⟩ :=
    PolicyEngine.normalizePolicyPaths_of_notMem (show ∀ p ∈ defaultAllowedMutationPrefixes,
      _ by decide)
  let engine : PolicyEngine decimalRuntime :=
    ⟨{ localPathAllowPrefixes := ["/"] }, [], [], default, ["/"], [], rfl, rfl, hdefault, by
      decide, rfl⟩
  refine ⟨engine, permits_of_noDenies rfl (by decide) (by decide) .enforce, ?_⟩
  intro files action haction path secondaryPath hnul
  have hdenial : engine.denialWith files { action, path, secondaryPath, mode := some .enforce } =
    none := by
    have hpath : ∀ p ∈ [path, secondaryPath].filterMap truthy, engine.localPathDenial files
      p = none := by
      intro p hp
      unfold PolicyEngine.localPathDenial normalizeLocalPolicyPath
      rw [if_neg (hnul p hp)]
      rfl
    have htunnel : ¬(action = .tunnelLocal ∨ action = .tunnelRemote) := by
      rintro (rfl | rfl) <;> revert haction <;> decide
    rw [PolicyEngine.denialWith, Option.or_eq_none_iff, PolicyEngine.pathsDenial, if_pos haction,
      List.findSome?_eq_none_iff]
    refine ⟨?_, hpath⟩
    simp [PolicyEngine.hostDenial, PolicyEngine.tunnelDenial, PolicyEngine.rootDenial,
      PolicyEngine.rawSudoDenial, PolicyEngine.commandDenial, htunnel]
  unfold PolicyEngine.PermitsWith PolicyEngine.evaluateWith
  rw [hdenial]

section Sample

variable {rt : Runtime} {engine : PolicyEngine rt} {files : String → Option String}
variable {log : List Event}

theorem assertAllowedWith_permitted {context : PolicyContext}
    (h : engine.PermitsWith files context) :
    engine.assertAllowedWith files context = .ok (engine.evaluateWith files context) := by
  unfold PolicyEngine.PermitsWith at h
  unfold PolicyEngine.assertAllowedWith
  simp [h]

theorem runs_assertLocalAllowed {context : PolicyContext} (h : engine.PermitsWith files context) :
    Runs (assertLocalAllowed engine context) [⟨.localFiles context, files⟩]
      (.ok (engine.evaluateWith files context)) := by
  refine runs_perform_iff.mpr ⟨files, [], rfl, ?_⟩
  rw [assertAllowedWith_permitted h]
  exact .done _

theorem not_stops_permitted {target : String} {context : PolicyContext}
    (h : engine.PermitsWith files context) : ¬StopsDownload engine target ⟨.localFiles context,
      files⟩ := by
  rintro ⟨e, herror⟩
  rw [assertAllowedWith_permitted h] at herror
  cases herror

/-- What is asked about a local path that is to be written. -/
def writeContext (resolved : LocalWritePath) : PolicyContext where
  action := resolved.action
  path := some resolved.canonicalPath
  secondaryPath := some resolved.parentCanonicalPath
  mode := some .enforce

theorem runs_authorize {path : String} {resolved : LocalWritePath}
    (hresolve : Runs (resolveLocalWritePath rt path) log (.ok resolved))
    (h : engine.PermitsWith files (writeContext resolved)) :
    Runs (authorizeLocalWritePath engine path .enforce)
      (log ++ [⟨.localFiles (writeContext resolved), files⟩]) (.ok resolved) := by
  refine hresolve.bind ?_
  rw [← List.append_nil [_]]
  exact (runs_assertLocalAllowed h).bind (.done _)

/-- The answers about a path in an existing directory. -/
def resolveAnswers (absolutePath parent : String) (answer : Except Failure String) : List Event :=
  [⟨.localRealpath (dirname absolutePath), .ok parent⟩, ⟨.localRealpath absolutePath, answer⟩]

theorem runs_resolve_overwrite {path absolutePath parent canonicalPath : String}
    (hpath : resolveAbsoluteLocalPath rt path = .ok absolutePath) :
    Runs (resolveLocalWritePath rt path) (resolveAnswers absolutePath parent (.ok canonicalPath))
      (.ok ⟨absolutePath, canonicalPath, parent, .transferLocalOverwrite⟩) := by
  unfold resolveLocalWritePath
  rw [hpath]
  exact runs_perform_iff.mpr ⟨.ok parent, _, rfl, runs_perform_iff.mpr ⟨.ok canonicalPath, _,
    rfl, .done _⟩⟩

theorem runs_resolve_create {path absolutePath parent : String}
    (hpath : resolveAbsoluteLocalPath rt path = .ok absolutePath) :
    Runs (resolveLocalWritePath rt path)
      (resolveAnswers absolutePath parent (.error (.other (some (.named "ENOENT")) "")))
      (.ok ⟨absolutePath, joinPath parent (basename absolutePath), parent,
        .transferLocalCreate⟩) := by
  unfold resolveLocalWritePath
  rw [hpath]
  exact runs_perform_iff.mpr ⟨.ok parent, _, rfl, runs_perform_iff.mpr ⟨.error _, _, rfl, .done _⟩⟩

end Sample

/-- `/tmp/a`, at which there is something, and the temporary file beside it. -/
def sampleTarget : LocalWritePath := ⟨"/tmp/a", "/tmp/a", "/tmp", .transferLocalOverwrite⟩

def sampleTemp : LocalWritePath :=
  ⟨"/tmp/a.tmp.5", joinPath "/tmp" (basename "/tmp/a.tmp.5"), "/tmp", .transferLocalCreate⟩

/-- The answers that authorise them. -/
def targetAnswers : List Event :=
  resolveAnswers "/tmp/a" "/tmp" (.ok "/tmp/a") ++ [⟨.localFiles (writeContext sampleTarget), some⟩]

def tempAnswers : List Event :=
  resolveAnswers "/tmp/a.tmp.5" "/tmp" (.error (.other (some (.named "ENOENT")) "")) ++
    [⟨.localFiles (writeContext sampleTemp), some⟩]

/-- A file of one byte. -/
def sampleStats : Stats := { mode := none, size := some 1, mtime := none }

/-- The answers up to the temporary file. -/
def createdAnswers : List Event :=
  ⟨.getSession "ssh-1", some ⟨.enforce, true⟩⟩ :: ⟨.now, (0 : ℕ)⟩ :: (targetAnswers ++
    ⟨.sftpStat "/srv/a", .ok sampleStats⟩ :: ⟨.sftpReadFile "/srv/a", .ok [104]⟩ ::
      ⟨.now, (5 : ℕ)⟩ ::
      (tempAnswers ++ [⟨.localCreateFile "/tmp/a.tmp.5" [104], .ok ()⟩]))

/-- What is asked about the temporary file that is to be read. -/
def rereadContext : PolicyContext where
  action := .transferLocalRead
  path := some "/tmp/a.tmp.5"
  mode := some .enforce

/-- The answers behind it, up to the move. -/
def verifiedAnswers : List Event :=
  ⟨.localRealpath "/tmp/a.tmp.5", .ok "/tmp/a.tmp.5"⟩ :: ⟨.localFiles rereadContext, some⟩ ::
    ⟨.localReadFile "/tmp/a.tmp.5", .ok [104]⟩ :: targetAnswers

/-- **A download of a byte**, whatever becomes of the move. -/
theorem runs_download {engine : PolicyEngine decimalRuntime}
    (hdownload : engine.Permits (pathContext .transferDownload "/srv/a" .enforce))
    (hlocal : ∀ files, ∀ action ∈ localTransferActions, ∀ path secondaryPath : Option String,
      (∀ p ∈ [path, secondaryPath].filterMap truthy, Char.ofNat 0 ∉ p.toList) →
        engine.PermitsWith files { action, path, secondaryPath, mode := some .enforce })
    {after : List Event} {result : Except Failure TransferResult}
    (h : Runs (localRename "/tmp/a.tmp.5" "/tmp/a" >>= fun _ =>
      verifiedTransfer (basename "/srv/a") 1 0 (decimalRuntime.sha256 [104])) after result) :
    Runs (downloadFileWithProgress engine sampleConfig "/srv/a" "/tmp/a" "ssh-1")
      (createdAnswers ++ (verifiedAnswers ++ after)) (transferred "download /srv/a" result) := by
  have htarget : Runs (authorizeLocalWritePath engine "/tmp/a" .enforce) targetAnswers
      (.ok sampleTarget) :=
    runs_authorize (runs_resolve_overwrite rfl) (hlocal _ _ (by decide) _ _ (by decide))
  have htemp : Runs (authorizeLocalWritePath engine "/tmp/a.tmp.5" .enforce) tempAnswers
      (.ok sampleTemp) :=
    runs_authorize (runs_resolve_create rfl) (hlocal _ _ (by decide) _ _ (by decide))
  have hread : Runs (authorizeLocalReadPath engine "/tmp/a.tmp.5" .enforce)
      [⟨.localRealpath "/tmp/a.tmp.5", .ok "/tmp/a.tmp.5"⟩, ⟨.localFiles rereadContext, some⟩]
      (.ok "/tmp/a.tmp.5") := by
    refine runs_perform_iff.mpr ⟨.ok "/tmp/a.tmp.5", _, rfl, ?_⟩
    have hallowed := runs_assertLocalAllowed
      (hlocal some .transferLocalRead (by decide) (some "/tmp/a.tmp.5") none (by decide))
    exact hallowed.bind (.done _)
  have htail : Runs (verifyAndRename engine "/srv/a" "/tmp/a" "/tmp/a.tmp.5" .enforce
      (decimalRuntime.sha256 [104]) 1 0) (verifiedAnswers ++ after) result := by
    refine hread.bind (runs_perform_iff.mpr ⟨.ok [104], _, rfl, ?_⟩)
    rw [done_andThen]
    dsimp only
    rw [if_neg (not_not_intro rfl)]
    exact htarget.bind h
  refine runs_perform_iff.mpr ⟨some ⟨.enforce, true⟩, _, rfl, ?_⟩
  change Runs (ofExcept (engine.assertAllowed (pathContext .transferDownload "/srv/a" .enforce)) >>=
    _) _ _
  rw [engine.assertAllowed_eq, if_neg fun h => h.1 hdownload]
  have hmode : (engine.evaluate (pathContext .transferDownload "/srv/a" .enforce)).mode ≠
    .explain := by
    rw [PolicyEngine.evaluate, engine.evaluateWith_mode]
    intro hexplain
    cases hexplain
  change Runs (if _ then _ else _) _ _
  rw [if_neg hmode]
  refine runs_perform_iff.mpr ⟨(0 : ℕ), _, rfl, runs_transferred _ ?_⟩
  -- from here on the answers follow the parts
  change Runs _ ((targetAnswers ++ (⟨.sftpStat "/srv/a", .ok sampleStats⟩ ::
    ⟨.sftpReadFile "/srv/a", .ok [104]⟩ :: ⟨.now, (5 : ℕ)⟩ ::
      (tempAnswers ++ [⟨.localCreateFile "/tmp/a.tmp.5" [104], .ok ()⟩]))) ++
        (verifiedAnswers ++ after)) _
  rw [List.append_assoc]
  refine htarget.bind (runs_perform_iff.mpr ⟨.ok sampleStats, _, rfl, ?_⟩)
  rw [done_andThen]
  dsimp only
  rw [if_neg (show ¬(sampleStats.size.getD 0 > sampleConfig.maxTransferBytes) by decide)]
  refine runs_perform_iff.mpr ⟨.ok [104], _, rfl, runs_perform_iff.mpr ⟨(5 : ℕ), _, rfl, ?_⟩⟩
  change Runs (authorizeLocalWritePath engine "/tmp/a.tmp.5" .enforce >>= _)
    ((tempAnswers ++ [⟨.localCreateFile "/tmp/a.tmp.5" [104], .ok ()⟩]) ++
      (verifiedAnswers ++ after)) _
  rw [List.append_assoc]
  exact htemp.bind (runs_perform_iff.mpr ⟨.ok (), _, rfl, htail⟩)

/-- Local files with one thing at `/tmp/a`. -/
def onlyTarget (node : LocalNode) : LocalFiles :=
  Function.update (fun _ => none) "/tmp/a" (some node)

/-- All of the answers. -/
def downloadAnswers (renamed : Except Failure Unit) (rest : List Event) : List Event :=
  createdAnswers ++ (verifiedAnswers ++ ⟨.localRename "/tmp/a.tmp.5" "/tmp/a", renamed⟩ :: rest)

theorem serves_downloadAnswers (node : LocalNode) (renamed : Except Failure Unit)
    {rest : List Event}
    (hrest : ∀ files, AllSteps (localAfter none) LocallyServes files rest) :
    AllSteps (localAfter none) LocallyServes (onlyTarget node) (downloadAnswers renamed rest) := by
  have hname : ("/tmp/a.tmp.5" : String) ≠ "/tmp/a" := by decide
  have hfree : onlyTarget node "/tmp/a.tmp.5" = none := Function.update_of_ne hname _ _
  exact ⟨trivial, trivial, trivial, trivial, trivial, trivial, trivial, trivial, trivial,
    (by decide : ("/tmp/a.tmp.5" : String) ≠ "/"), trivial, hfree, trivial, trivial,
      trivial, trivial,
    trivial, trivial, trivial, hrest _⟩

/-- A file is downloaded over another. -/
theorem download_atomic_iff_file :
    ∃ (engine : PolicyEngine decimalRuntime) (result : TransferResult),
      Runs (downloadFileWithProgress engine sampleConfig "/srv/a" "/tmp/a" "ssh-1")
        (downloadAnswers (.ok ()) [⟨.now, (9 : ℕ)⟩]) (.ok result) ∧
      run (localAfter none) (onlyTarget (.file [1])) (downloadAnswers (.ok ()) [⟨.now, (9 : ℕ)⟩]) =
        onlyTarget (.file [104]) := by
  obtain ⟨engine, hdownload, hlocal⟩ := exists_permitting_local
  have hmoved : Runs (localRename "/tmp/a.tmp.5" "/tmp/a" >>= fun _ =>
      verifiedTransfer (basename "/srv/a") 1 0 (decimalRuntime.sha256 [104]))
      [⟨.localRename "/tmp/a.tmp.5" "/tmp/a", .ok ()⟩, ⟨.now, (9 : ℕ)⟩] (.ok _) :=
    runs_perform_iff.mpr ⟨.ok (), _, rfl, runs_perform_iff.mpr ⟨(9 : ℕ), _, rfl, .done _⟩⟩
  have hruns := runs_download hdownload hlocal hmoved
  refine ⟨engine, _, hruns, ?_⟩
  have hserves : AllSteps (localAfter none) LocallyServes (onlyTarget (.file [1]))
      (downloadAnswers (.ok ()) [⟨.now, (9 : ℕ)⟩]) :=
    serves_downloadAnswers _ _ fun _ => ⟨trivial, trivial⟩
  have hsession : ∀ e ∈ downloadAnswers (.ok ()) [⟨.now, (9 : ℕ)⟩], SessionIs ⟨.enforce,
    true⟩ e := by
    simp [downloadAnswers, createdAnswers, verifiedAnswers, targetAnswers, tempAnswers,
      resolveAnswers, SessionIs]
  have hiff := download_atomic_iff engine sampleConfig (onlyTarget (.file [1])) none "/srv/a"
    "/tmp/a" "ssh-1"
    rfl hsession hserves hruns
  have hpermitted : ¬StopsDownload engine "/tmp/a" ⟨.localFiles (writeContext sampleTarget),
    some⟩ :=
    not_stops_permitted (hlocal _ _ (by decide) _ _ (by decide))
  have hreadable : ¬StopsDownload engine "/tmp/a" ⟨.localFiles rereadContext, some⟩ :=
    not_stops_permitted (hlocal some .transferLocalRead (by decide) _ none (by decide))
  -- up to the temporary file nothing has changed, and behind it nothing stops the download
  obtain ⟨data, -, -, hread, -, -, hrun⟩ :=
    hiff.mpr ⟨.inl rfl, .inl rfl, .inl rfl, .inl rfl, .inl rfl,
    .inl rfl, .inl rfl, .inl rfl, .inl rfl, .inl rfl, .inl rfl, .inl rfl, .inr id,
      .inr hreadable, .inr id,
    .inr id, .inr id, .inr hpermitted, .inr id, .inr id, trivial⟩
  have hdata : data = [104] := by
    simpa [downloadAnswers, createdAnswers, verifiedAnswers, targetAnswers, tempAnswers,
      resolveAnswers]
      using hread
  rw [hdata] at hrun
  exact hrun.trans (Function.update_idem _ _ _)

/-- A file cannot be moved over a directory. -/
def isADirectory : Failure := .other (some (.named "EISDIR"))
    "EISDIR: illegal operation on a directory"

/-- **A move that fails leaves the temporary file behind**: there is a directory at the local
path. -/
theorem temp_file_left_behind :
    ∃ (engine : PolicyEngine decimalRuntime) (e e' : Failure),
      Runs (downloadFileWithProgress engine sampleConfig "/srv/a" "/tmp/a" "ssh-1")
        (downloadAnswers (.error e) []) (.error e') ∧
      AllSteps (localAfter none) LocallyServes (onlyTarget .directory)
        (downloadAnswers (.error e) []) ∧
      run (localAfter none) (onlyTarget .directory) (downloadAnswers (.error e) []) "/tmp/a.tmp.5" =
        some (.file [104]) := by
  obtain ⟨engine, hdownload, hlocal⟩ := exists_permitting_local
  have hfailed : Runs (localRename "/tmp/a.tmp.5" "/tmp/a" >>= fun _ =>
      verifiedTransfer (basename "/srv/a") 1 0 (decimalRuntime.sha256 [104]))
      [⟨.localRename "/tmp/a.tmp.5" "/tmp/a", .error isADirectory⟩] (.error _) :=
    runs_perform_iff.mpr ⟨.error isADirectory, _, rfl, .done _⟩
  refine ⟨engine, isADirectory, _, runs_download hdownload hlocal hfailed, ?_, ?_⟩
  · exact serves_downloadAnswers .directory (.error isADirectory) fun _ => trivial
  · exact Function.update_self (f := onlyTarget .directory) "/tmp/a.tmp.5" (some (.file [104]))

end Ssh
