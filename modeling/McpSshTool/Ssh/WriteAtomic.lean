import Mathlib.Data.List.TakeWhile
import McpSshTool.Ssh.Reaches
import McpSshTool.Ssh.RemoteFiles

/-!
# Writing all or nothing

`writeFile` on a host on which any step may fail.

* `exists_getElem?_tempPathFor` — the temporary path is neither the path nor beneath it;
* `Host.left`, `Host.stagedMode` — the temporary file before it is moved;
* `Kept`, `AllOrNothing` — what a write has to keep to;
* `ends_sftpReplaceFile` — **over SFTP** every write keeps to it;
* `all_or_nothing_iff` — when a write keeps to it, whatever the session goes over.
-/

open Library ShellWords

namespace Ssh

open Program

/-! ### The temporary path -/

theorem exists_getElem?_dotted {directory base other rest : List Char} (h : '/' ∉ base) :
    ∃ c, (directory ++ '.' :: ((if base.length > 0 then base else other) ++ rest))[
      directory.length + base.length]? = some c ∧ c ≠ '/' := by
  rw [List.getElem?_append_right (Nat.le_add_right _ _), Nat.add_sub_cancel_left]
  cases base with
  | nil => exact ⟨'.', rfl, by decide⟩
  | cons c cs =>
    refine ⟨(c :: cs)[cs.length], ?_, fun hc => h (hc ▸ List.getElem_mem _)⟩
    rw [if_pos (show (c :: cs).length > 0 from Nat.succ_pos _), List.length_cons,
      List.getElem?_cons_succ, List.getElem?_append_left (Nat.lt_succ_self _),
      List.getElem?_eq_getElem]

/-- The character of the temporary path that stands where the path ends. -/
theorem exists_getElem?_tempPathFor (path uuid : String) :
    ∃ c, (tempPathFor path uuid).toList[path.toList.length]? = some c ∧ c ≠ '/' := by
  have hlength : (unixSeparators path.toList).length = path.toList.length := by
    rw [unixSeparators, List.length_map]
  unfold tempPathFor
  generalize unixSeparators path.toList = unix at hlength
  dsimp only
  have hslash : '/' ∉ (unix.reverse.takeWhile (· ≠ '/')).reverse := by
    intro h
    simpa using List.mem_takeWhile_imp (List.mem_reverse.mp h)
  have hle : (unix.reverse.takeWhile (· ≠ '/')).reverse.length ≤ unix.length := by
    have hreverse : unix.reverse.length = unix.length := List.length_reverse
    rw [List.length_reverse, ← hreverse]
    exact (List.takeWhile_sublist _).length_le
  generalize (unix.reverse.takeWhile (· ≠ '/')).reverse = base at hslash hle
  have hindex : path.toList.length =
      (unix.take (unix.length - base.length)).length + base.length := by
    rw [List.length_take, ← hlength]
    omega
  have htext : (String.ofList (unix.take (unix.length - base.length)) ++ "." ++
      (if base.length > 0 then String.ofList base else "write") ++ "." ++ uuid ++ ".tmp").toList =
        unix.take (unix.length - base.length) ++ '.' ::
          ((if base.length > 0 then base else "write".toList) ++
            ('.' :: (uuid.toList ++ ".tmp".toList))) := by
    simp only [String.toList_append, String.toList_ofList, apply_ite String.toList,
      List.append_assoc]
    rfl
  rw [htext, hindex]
  exact exists_getElem?_dotted hslash

theorem tempPathFor_ne (path uuid : String) : tempPathFor path uuid ≠ path := by
  intro h
  obtain ⟨c, hc, _⟩ := exists_getElem?_tempPathFor path uuid
  rw [h, List.getElem?_eq_none (Nat.le_refl _)] at hc
  cases hc

theorem tempPathFor_ne_child (path uuid name : String) :
    tempPathFor path uuid ≠ path ++ "/" ++ name := by
  intro h
  obtain ⟨c, hc, hne⟩ := exists_getElem?_tempPathFor path uuid
  rw [h, String.append_assoc, String.toList_append, List.getElem?_append_right (Nat.le_refl _),
    Nat.sub_self, String.toList_append] at hc
  exact hne (Option.some.inj hc).symm

/-! ### The service -/

section Service

variable {rt : Runtime} {engine : PolicyEngine rt} {config : ServerConfig} {session : Session}
  {host : Host} {faults : Faults} {files : Files} {sessionId path data : String} {mode : Option ℕ}
  {Q : Files → Except Failure Bool → Prop}

/-- What a write does to the host. -/
def replaceFile (session : Session) (sessionId path tempPath data : String) (mode : Option ℕ) :
    Task Bool :=
  if !session.sftp then do
    let _ ← execFallback sessionId (.write data tempPath path mode)
    pure true
  else sftpReplaceFile path tempPath (Utf8.encode data) mode

theorem replaceFile_sftp (hsftp : session.sftp = true) (tempPath : String) :
    replaceFile session sessionId path tempPath data mode =
      sftpReplaceFile path tempPath (Utf8.encode data) mode := by
  unfold replaceFile
  rw [hsftp, if_neg (by decide)]

/-- **The write is let happen**: the policy permits it, in a session that does not only explain, and
the data are within the limit. -/
def LetsWrite (engine : PolicyEngine rt) (config : ServerConfig) (session : Session)
    (path data : String) : Prop :=
  session.policyMode = .enforce ∧ engine.Permits (pathContext .fsWrite path .enforce) ∧
    data.utf8ByteSize ≤ config.maxFileWriteBytes

/-- The hint of a write that fails. -/
def writeHint (path : String) : String :=
  "Failed to write file " ++ path ++ ". Check directory permissions and disk space."

theorem ends_writeFile_iff :
    Ends (fileHost session host faults) (writeFile engine config sessionId path data mode) files Q ↔
      Ends (fileHost session host faults)
        (ofExcept (engine.assertAllowed (pathContext .fsWrite path session.policyMode)) >>=
          fun decision =>
            if decision.mode = .explain then pure true
            else if data.utf8ByteSize > config.maxFileWriteBytes then
              Program.throw (createLimitError
                ("Write payload is " ++ toString data.utf8ByteSize ++
                  " bytes, which exceeds the " ++ toString config.maxFileWriteBytes ++
                  " byte write limit")
                (some ("Use file_upload for large files or raise SSH_MCP_MAX_FILE_WRITE_BYTES " ++
                  "intentionally.")))
            else randomUUID >>= fun uuid =>
              replaceFile session sessionId path (tempPathFor path uuid) data mode) files
        fun files' result => Q files' (result.mapError fun e =>
          wrapError e .EFS (writeHint path)) := by
  rw [← ends_wrapping]
  exact Iff.rfl

theorem ends_writeFile_of_lets (hlets : LetsWrite engine config session path data) :
    Ends (fileHost session host faults) (writeFile engine config sessionId path data mode) files Q ↔
      Ends (fileHost session host faults)
        (replaceFile session sessionId path (tempPathFor path host.uuid) data mode) files
        fun files' result => Q files' (result.mapError fun e =>
          wrapError e .EFS (writeHint path)) := by
  obtain ⟨hmode, hpermits, hsize⟩ := hlets
  rw [ends_writeFile_iff, hmode, guarded_eq hpermits rfl, if_neg (Nat.not_lt.mpr hsize)]
  exact Iff.rfl

/-- A write that is not let happen changes nothing. It reports success only where it is
explained. -/
theorem ends_writeFile_of_not_lets (hlets : ¬LetsWrite engine config session path data)
    (hok : session.policyMode = .explain → Q files (.ok true)) (herror : ∀ e, Q files (.error e)) :
    Ends (fileHost session host faults) (writeFile engine config sessionId path data mode) files
      Q := by
  rw [ends_writeFile_iff]
  cases hmode : session.policyMode with
  | explain =>
    have hexplain : (engine.evaluate (pathContext .fsWrite path .explain)).mode = .explain := by
      rw [PolicyEngine.evaluate, engine.evaluateWith_mode]
      rfl
    rw [engine.assertAllowed_eq, if_neg fun h => by cases h.2]
    change Ends _ (if (engine.evaluate (pathContext .fsWrite path .explain)).mode = .explain then _
      else _) _ _
    rw [if_pos hexplain]
    exact hok hmode
  | enforce =>
    by_cases hpermits : engine.Permits (pathContext .fsWrite path .enforce)
    · rw [guarded_eq hpermits rfl, if_pos]
      · exact herror _
      · exact Nat.lt_of_not_le fun hsize => hlets ⟨hmode, hpermits, hsize⟩
    · rw [assertAllowed_denied hpermits rfl]
      exact herror _

end Service

theorem exists_toList_tempPathFor (path uuid : String) :
    ∃ k rest, (tempPathFor path uuid).toList =
      (unixSeparators path.toList).take k ++ '.' :: rest := by
  unfold tempPathFor
  dsimp only
  simp only [String.toList_append, String.toList_ofList, List.append_assoc]
  exact ⟨_, _, rfl⟩

theorem isOption_tempPathFor (h : isOption path = false) (uuid : String) :
    isOption (tempPathFor path uuid) = false := by
  by_contra hoption
  have hhead : (tempPathFor path uuid).toList.head? = some '-' := by
    have hand : (tempPathFor path uuid).toList.head? = some '-' ∧ tempPathFor path uuid ≠ "-" := by
      simpa [isOption] using hoption
    exact hand.1
  by_cases hdash : path = "-"
  · have htemp : tempPathFor path uuid = "." ++ ("-" ++ "." ++ uuid ++ ".tmp") := by
      rw [hdash]
      rfl
    rw [htemp, String.toList_append] at hhead
    cases hhead
  · obtain ⟨k, rest, htemp⟩ := exists_toList_tempPathFor path uuid
    rw [htemp] at hhead
    cases hpath : path.toList with
    | nil =>
      rw [hpath] at hhead
      simp [unixSeparators] at hhead
    | cons c =>
      rw [hpath] at hhead
      cases k with
      | zero => cases hhead
      | succ =>
        have hc : (if c = '\\' then '/' else c) = '-' := Option.some.inj hhead
        have hfirst : c = '-' := by
          split at hc
          · cases hc
          · exact hc
        have hopt : isOption path = true := by
          unfold isOption
          rw [hpath, hfirst]
          simp [hdash]
        rw [hopt] at h
        cases h

/-! ### The temporary file -/

section Staging

variable {host : Host} {faults : Faults} {files : Files} {path data tempPath : String}
  {mode : Option ℕ}

/-- What the writing of a new file leaves. -/
def Host.left (host : Host) (faults : Faults) (path : String) (data : List UInt8) :
    Option (List UInt8) :=
  match faults.write with
  | .works => if host.makeable path then some data else none
  | .fails left => left

/-- The writing of a new file succeeds. -/
def Host.writes (host : Host) (faults : Faults) (path : String) : Bool :=
  faults.write = .works ∧ host.makeable path

theorem write_fresh (hfresh : files path = none) (bytes : List UInt8) :
    host.write faults files path bytes =
      (Function.update files path ((host.left faults path bytes).map (.file · host.defaultMode)),
        host.writes faults path) := by
  have hsame : Function.update files path none = files := by
    rw [← hfresh, Function.update_eq_self]
  have hmode : host.modeAt files path = host.defaultMode := by
    unfold Host.modeAt
    rw [hfresh]
  unfold Host.write Host.left Host.writes
  rw [hmode]
  cases faults.write with
  | works =>
    dsimp only
    by_cases hmakeable : host.makeable path = true
    · rw [if_pos ⟨hmakeable, by rw [hfresh]; nofun⟩, if_pos hmakeable]
      simp [hmakeable]
    · rw [if_neg fun h => hmakeable h.1, if_neg hmakeable, Option.map_none, hsame]
      simp [hmakeable]
  | fails left =>
    cases left with
    | none =>
      dsimp only
      rw [Option.map_none, hsame]
      simp
    | some => simp

/-- The mode that the shell gives the temporary file. -/
def Host.stagedMode (host : Host) (faults : Faults) (tempPath : String) (mode : Option ℕ) : ℕ :=
  match mode with
  | some mode =>
    if mode < 0o10000 ∧ isOption tempPath = false ∧ faults.chmod = false then mode
    else host.defaultMode
  | none => host.defaultMode

/-- **The temporary file of the shell**: what the `printf` left, under the mode that the `chmod`
gave it, if it did. -/
theorem staged_fresh (hfresh : files tempPath = none) :
    host.staged faults files data tempPath mode =
      Function.update files tempPath ((host.left faults tempPath (Utf8.encode data)).map
        (.file · (host.stagedMode faults tempPath mode))) := by
  have hprinted : host.printed faults files data tempPath = Function.update files tempPath
      ((host.left faults tempPath (Utf8.encode data)).map (.file · host.defaultMode)) := by
    unfold Host.printed
    rw [write_fresh hfresh]
  unfold Host.staged Host.stagedMode
  cases mode with
  | none => exact hprinted
  | some mode =>
    dsimp only
    rw [hprinted, Host.runCommand, octalMode_octal]
    dsimp only
    by_cases hcan : mode < 0o10000 ∧ isOption tempPath = false
    · rw [if_pos hcan]
      dsimp only
      cases host.left faults tempPath (Utf8.encode data) with
      | none =>
        unfold Host.chmod
        rw [Function.update_self]
        rfl
      | some =>
        unfold Host.chmod
        rw [Option.map_some, Function.update_self]
        dsimp only
        cases hchmod : faults.chmod with
        | true => simp
        | false => simp [hcan]
    · rw [if_neg hcan, if_neg fun h => hcan ⟨h.1, h.2.1⟩]

/-- `mv` can move a file from one path to the other. -/
def Host.CanMove (host : Host) (faults : Faults) (files : Files) (source target : String) : Prop :=
  isOption source = false ∧ isOption target = false ∧ faults.move = false ∧
    host.receives files true (Host.landing files source target) = true

instance (source target : String) : Decidable (host.CanMove faults files source target) :=
  inferInstanceAs (Decidable (_ ∧ _))

theorem mv_eq {source target : String} {content : List UInt8} {m : ℕ}
    (hsource : files source = some (.file content m)) (hoption : isOption source = false)
    (hoption' : isOption target = false) :
    host.mv faults files source target =
      if host.CanMove faults files source target then
        (Function.update (Function.update files source none) (Host.landing files source target)
          (some (.file content m)), true)
      else (files, false) := by
  unfold Host.mv Host.rename
  rw [hsource, hoption, hoption', if_neg (by decide)]
  exact if_congr ⟨fun h => ⟨hoption, hoption', h.1, h.2⟩, fun h => h.2.2⟩ rfl rfl

theorem mv_none {source target : String} (hsource : files source = none)
    (hoption : isOption source = false) (hoption' : isOption target = false) :
    host.mv faults files source target = (files, false) := by
  unfold Host.mv Host.rename
  rw [hsource, hoption, hoption', if_neg (by decide)]

end Staging

/-! ### All or nothing -/

/-- The path holds the data, under the mode if one is given. -/
def Holds (files : Files) (path data : String) (mode : Option ℕ) : Prop :=
  ∃ m, files path = some (.file (Utf8.encode data) m) ∧
    ∀ given, mode = some given → m = given &&& 0o7777

/-- **What a write has to keep to**: success means that the path holds the data, an error that it is
as it was, and, where unlinking works, that no temporary file is left. -/
def Kept (faults : Faults) (tempPath path data : String) (mode : Option ℕ) (files files' : Files) :
    Except Failure Bool → Prop
  | .ok _ => Holds files' path data mode
  | .error _ => files' path = files path ∧ (faults.unlink = false → files' tempPath = none)

theorem kept_unchanged (faults : Faults) {tempPath path : String} (data : String) (mode : Option ℕ)
    {files : Files} (hfresh : files tempPath = none) (e : Failure) :
    Kept faults tempPath path data mode files files (.error e) :=
  ⟨rfl, fun _ => hfresh⟩

/-- **A write is all or nothing.** One that is only explained leaves everything as it is. -/
def AllOrNothing {rt : Runtime} (engine : PolicyEngine rt) (config : ServerConfig)
    (session : Session) (host : Host) (faults : Faults) (files : Files)
    (sessionId path data : String) (mode : Option ℕ) : Prop :=
  Ends (fileHost session host faults) (writeFile engine config sessionId path data mode) files
    fun files' result =>
      Kept faults (tempPathFor path host.uuid) path data mode files files' result ∨
        session.policyMode = .explain ∧ files' = files ∧ result = .ok true

section Sftp

variable {session : Session} {host : Host} {faults : Faults} {files : Files}
  {path data tempPath : String} {mode : Option ℕ}

/-- **Nothing but the temporary file is touched**, and what it is is a file, or nothing. -/
def OnlyTemp (tempPath : String) (files files' : Files) : Prop :=
  (∀ p, p ≠ tempPath → files' p = files p) ∧ files' tempPath ≠ some .directory

theorem onlyTemp_update {stored : Option Stored} (files : Files) (h : stored ≠ some .directory) :
    OnlyTemp tempPath files (Function.update files tempPath stored) := by
  refine ⟨fun p hp => Function.update_of_ne hp _ _, ?_⟩
  rw [Function.update_self]
  exact h

theorem OnlyTemp.trans {files' files'' : Files} (h : OnlyTemp tempPath files files')
    (h' : OnlyTemp tempPath files' files'') : OnlyTemp tempPath files files'' :=
  ⟨fun p hp => (h'.1 p hp).trans (h.1 p hp), h'.2⟩

/-- The temporary file is written over SFTP. -/
theorem ends_sftpWriteFile (hfresh : files tempPath = none) :
    Ends (fileHost session host faults) (sftpWriteFile tempPath (Utf8.encode data)) files
      fun files' result => OnlyTemp tempPath files files' ∧ ∀ a, result = .ok a →
        files' tempPath = some (.file (Utf8.encode data) host.defaultMode) := by
  have hrun : execute (fileHost session host faults)
    (sftpWriteFile tempPath (Utf8.encode data)) files =
      answered (host.write faults files tempPath (Utf8.encode data)) := rfl
  unfold Ends
  rw [hrun, write_fresh hfresh]
  refine ⟨onlyTemp_update files ?_, fun a ha => ?_⟩
  · cases host.left faults tempPath (Utf8.encode data) with
    | none => nofun
    | some => nofun
  · change Function.update files tempPath _ tempPath = _
    rw [Function.update_self]
    change (if host.writes faults tempPath = true then (.ok () : Except Failure Unit)
      else .error sftpFailure) = _ at ha
    split at ha
    · next hwrites =>
      obtain ⟨hworks, hmakeable⟩ : faults.write = .works ∧ host.makeable tempPath = true := by
        simpa [Host.writes] using hwrites
      unfold Host.left
      rw [hworks]
      dsimp only
      rw [if_pos hmakeable]
      rfl
    · cases ha

/-- It is given the mode, if there is one. -/
theorem ends_sftpChmod {content : List UInt8} {m : ℕ} (mode : Option ℕ)
    (hfile : files tempPath = some (.file content m)) :
    Ends (fileHost session host faults)
      (match mode with
        | some mode => sftpChmod tempPath mode
        | none => pure ()) files
      fun files' result => OnlyTemp tempPath files files' ∧ ∀ a, result = .ok a →
        ∃ m', files' tempPath = some (.file content m') ∧
          ∀ given, mode = some given → m' = given &&& 0o7777 := by
  have hsame : OnlyTemp tempPath files files := ⟨fun _ _ => rfl, by rw [hfile]; nofun⟩
  cases mode with
  | none => exact ⟨hsame, fun _ _ => ⟨m, hfile, nofun⟩⟩
  | some mode =>
    have hrun : execute (fileHost session host faults) (sftpChmod tempPath mode) files =
        answered (Host.chmod faults files tempPath (mode &&& 0o7777)) := rfl
    unfold Ends
    dsimp only
    rw [hrun]
    unfold Host.chmod
    rw [hfile]
    dsimp only
    cases faults.chmod with
    | true => exact ⟨hsame, nofun⟩
    | false =>
      refine ⟨onlyTemp_update files nofun, fun a _ => ⟨mode &&& 0o7777, ?_, ?_⟩⟩
      · exact Function.update_self _ _ _
      · rintro given ⟨⟩
        rfl

/-- It is renamed. -/
theorem ends_sftpRename {content : List UInt8} {m : ℕ}
    (hfile : files tempPath = some (.file content m)) :
    Ends (fileHost session host faults) (sftpRename tempPath path) files
      fun files' result =>
        (∀ a, result = .ok a → files' path = some (.file content m)) ∧
          ∀ e, result = .error e → files' = files := by
  have hrun : execute (fileHost session host faults) (sftpRename tempPath path) files =
      answered (host.rename faults files host.overwrites tempPath path) := rfl
  unfold Ends
  rw [hrun]
  unfold Host.rename
  rw [hfile]
  dsimp only
  split
  · exact ⟨fun _ _ => Function.update_self _ _ _, nofun⟩
  · exact ⟨nofun, fun _ _ => rfl⟩

/-- After an error it is unlinked, where that works. -/
theorem ends_cleanup (e : Failure) (htemp : files tempPath ≠ some .directory) :
    Ends (fileHost session host faults)
      ((sftpUnlink tempPath).tryCatch (fun _ => pure ()) >>= fun _ => (Program.throw e : Task Bool))
      files fun files' result => OnlyTemp tempPath files files' ∧ result = .error e ∧
        (faults.unlink = false → files' tempPath = none) := by
  have hrun : execute (fileHost session host faults) (sftpUnlink tempPath) files =
      answered (Host.unlink faults files tempPath) := rfl
  have hunlink : Ends (fileHost session host faults) (sftpUnlink tempPath) files fun files' _ =>
      OnlyTemp tempPath files files' ∧ (faults.unlink = false → files' tempPath = none) := by
    unfold Ends
    rw [hrun]
    unfold Host.unlink
    cases hstored : files tempPath with
    | none => exact ⟨⟨fun _ _ => rfl, htemp⟩, fun _ => hstored⟩
    | some stored =>
      cases stored with
      | directory => exact absurd hstored htemp
      | file =>
        dsimp only
        cases faults.unlink with
        | true => exact ⟨⟨fun _ _ => rfl, htemp⟩, nofun⟩
        | false => exact ⟨onlyTemp_update files nofun, fun _ => Function.update_self _ _ _⟩
  refine Ends.bind (Q := fun files' result => (OnlyTemp tempPath files files' ∧
      (faults.unlink = false → files' tempPath = none)) ∧ result = .ok ()) ?_
    (fun _ _ h => ends_done ⟨h.1.1, rfl, h.1.2⟩) fun _ _ h => nomatch h.2
  exact hunlink.tryCatch (fun _ _ h => ⟨h, rfl⟩) fun _ _ h => ends_done ⟨h, rfl⟩

theorem sftpReplaceFile_eq (path tempPath : String) (bytes : List UInt8) (mode : Option ℕ) :
    sftpReplaceFile path tempPath bytes mode =
      Program.tryCatch (sftpWriteFile tempPath bytes >>= fun _ =>
        (match mode with
          | some mode => sftpChmod tempPath mode
          | none => pure ()) >>= fun _ =>
        sftpRename tempPath path >>= fun _ => pure true) fun e =>
      (sftpUnlink tempPath).tryCatch (fun _ => pure ()) >>= fun _ => Program.throw e := by
  cases mode with
  | none => rfl
  | some => rfl

/-- **Over SFTP a write is all or nothing**, whatever step fails. -/
theorem ends_sftpReplaceFile (hfresh : files tempPath = none) (hne : tempPath ≠ path) :
    Ends (fileHost session host faults) (sftpReplaceFile path tempPath (Utf8.encode data) mode)
      files
      fun files' result => Kept faults tempPath path data mode files files' result := by
  rw [sftpReplaceFile_eq]
  refine Ends.tryCatch (Q := fun files' result =>
    (∀ a, result = .ok a → Holds files' path data mode) ∧
      ∀ e, result = .error e → OnlyTemp tempPath files files') ?_ (fun _ _ h => h.1 _ rfl) ?_
  · -- one step after the other, as long as they succeed
    refine (ends_sftpWriteFile hfresh).bind (fun files₁ _ h₁ => ?_)
      fun files₁ e h₁ => ⟨nofun, fun _ _ => h₁.1⟩
    refine (ends_sftpChmod mode (h₁.2 _ rfl)).bind (fun files₂ _ h₂ => ?_)
      fun files₂ e h₂ => ⟨nofun, fun _ _ => h₁.1.trans h₂.1⟩
    obtain ⟨m, hfile, hm⟩ := h₂.2 _ rfl
    refine (ends_sftpRename hfile).bind (fun files₃ _ h₃ => ?_) fun files₃ e h₃ => ?_
    · exact ends_done ⟨fun _ _ => ⟨m, h₃.1 _ rfl, hm⟩, nofun⟩
    · rw [h₃.2 e rfl]
      exact ⟨nofun, fun _ _ => h₁.1.trans h₂.1⟩
  · -- the temporary file is cleaned up
    intro files' e h
    have hsame := h.2 e rfl
    refine (ends_cleanup e hsame.2).mono fun files'' result h' => ?_
    obtain ⟨hsame', rfl, hgone⟩ := h'
    exact ⟨(hsame.trans hsame').1 path hne.symm, hgone⟩

end Sftp

/-! ### Over the shell -/

section Shell

variable {session : Session} {host : Host} {faults : Faults} {files : Files}
  {sessionId path data tempPath : String} {mode : Option ℕ} {Q : Files → Except Failure Bool → Prop}

/-- **Over the shell a write reports what its `mv` does.** -/
theorem ends_replaceFile_shell (hsftp : session.sftp = false)
    (htakes : host.ShellTakes faults (.write data tempPath path mode)) :
    Ends (fileHost session host faults) (replaceFile session sessionId path tempPath data mode)
      files
        Q ↔
      Q (host.mv faults (host.staged faults files data tempPath mode) tempPath path).1
        (if (host.mv faults (host.staged faults files data tempPath mode) tempPath path).2 then
          .ok true
        else .error (scriptError (host.deliver []))) := by
  unfold replaceFile
  rw [hsftp, if_pos (by rfl), ends_bind_pure, ends_execFallback htakes trivial, runScript_write]
  dsimp only
  cases (host.mv faults (host.staged faults files data tempPath mode) tempPath path).2 with
  | true => exact Iff.rfl
  | false => exact Iff.rfl

/-- The file at the temporary path does not matter to where it can be moved. -/
theorem canMove_update (host : Host) (faults : Faults) (stored : Option Stored)
    (hne : tempPath ≠ path)
    (hchild : tempPath ≠ path ++ "/" ++ fileName tempPath) :
    Host.landing (Function.update files tempPath stored) tempPath path =
        Host.landing files tempPath path ∧
      (host.CanMove faults (Function.update files tempPath stored) tempPath path ↔
        host.CanMove faults files tempPath path) := by
  have hlanding : Host.landing (Function.update files tempPath stored) tempPath path =
      Host.landing files tempPath path := by
    unfold Host.landing
    rw [Function.update_of_ne hne.symm]
  have hother : Host.landing files tempPath path ≠ tempPath := by
    unfold Host.landing
    split
    · exact hchild.symm
    · exact hne.symm
  refine ⟨hlanding, ?_⟩
  unfold Host.CanMove Host.receives
  rw [hlanding, Function.update_of_ne hother]

/-- **What the shell has to find** where its first command has left something: the target is no
directory, what is left are the data under the mode, and the `mv` works; or else nothing can be
unlinked anyway. -/
def Settles (host : Host) (faults : Faults) (files : Files) (tempPath path data : String)
    (mode : Option ℕ) (content : List UInt8) : Prop :=
  (host.CanMove faults files tempPath path →
    files path ≠ some .directory ∧ content = Utf8.encode data ∧
      ∀ given, mode = some given → host.stagedMode faults tempPath mode = given &&& 0o7777) ∧
  (¬host.CanMove faults files tempPath path → faults.unlink = true)

/-- **What the shell has to find** where `mv` reads the path as options: the path holds the data if
its status is 0, and else no temporary file is left, or none can be unlinked anyway. -/
def SettlesOptioned (host : Host) (faults : Faults) (files : Files) (tempPath path data : String)
    (mode : Option ℕ) : Prop :=
  let moved := host.optioned (.mv tempPath path) (host.staged faults files data tempPath mode)
  (moved.ok = true → Holds files path data mode) ∧
    (moved.ok = false → faults.unlink = false → moved.files tempPath = none)

/-- What the commands of a write have to come to. -/
def ShellSettles (host : Host) (faults : Faults) (files : Files) (tempPath path data : String)
    (mode : Option ℕ) : Prop :=
  if isOption path then SettlesOptioned host faults files tempPath path data mode
  else ∀ content, host.left faults tempPath (Utf8.encode data) = some content →
    Settles host faults files tempPath path data mode content

/-- A path that is read as options is no path to `mv`, and stays as it was. -/
theorem kept_optioned_iff (hfresh : files tempPath = none) (hne : tempPath ≠ path)
    (hoption : isOption path = true) {e : Failure} :
    Kept faults tempPath path data mode files
        (host.mv faults (host.staged faults files data tempPath mode) tempPath path).1
        (if (host.mv faults (host.staged faults files data tempPath mode) tempPath path).2 then
          .ok true
        else .error e) ↔
      SettlesOptioned host faults files tempPath path data mode := by
  have hpath : (host.optioned (.mv tempPath path) (host.staged faults files data tempPath
    mode)).files
      path = files path := by
    rw [host.optioned_keeps _ _ _ (.tail _ (.head _)) hoption, staged_fresh hfresh,
      Function.update_of_ne hne.symm]
  unfold Host.mv SettlesOptioned
  rw [if_pos (.inr hoption)]
  generalize host.optioned (.mv tempPath path) (host.staged faults files data tempPath mode) = moved
    at hpath
  obtain ⟨files', output, ok⟩ := moved
  change files' path = files path at hpath
  cases ok with
  | true =>
    have hholds : Holds files' path data mode ↔ Holds files path data mode := by
      unfold Holds
      rw [hpath]
    exact hholds.trans ⟨fun h => ⟨fun _ => h, nofun⟩, fun h => h.1 rfl⟩
  | false => exact ⟨fun h => ⟨nofun, fun _ => h.2⟩, fun h => ⟨hpath, h.2 rfl⟩⟩

/-- When the script of a write keeps to what a write has to. -/
theorem kept_shell_iff (hfresh : files tempPath = none) (hne : tempPath ≠ path)
    (hchild : tempPath ≠ path ++ "/" ++ fileName tempPath) (hoption : isOption path = false)
    (hoption' : isOption tempPath = false) {e : Failure} :
    Kept faults tempPath path data mode files
        (host.mv faults (host.staged faults files data tempPath mode) tempPath path).1
        (if (host.mv faults (host.staged faults files data tempPath mode) tempPath path).2 then
          .ok true
        else .error e) ↔
      ∀ content, host.left faults tempPath (Utf8.encode data) = some content →
        Settles host faults files tempPath path data mode content := by
  rw [staged_fresh hfresh]
  cases host.left faults tempPath (Utf8.encode data) with
  | none =>
    -- nothing is left, and there is nothing to move
    rw [Option.map_none, mv_none (Function.update_self _ _ _) hoption' hoption]
    refine iff_of_true ⟨?_, fun _ => ?_⟩ nofun
    · exact Function.update_of_ne hne.symm _ _
    · exact Function.update_self _ _ _
  | some content =>
    rw [Option.map_some]
    set m := host.stagedMode faults tempPath mode with hm
    have hsource : Function.update files tempPath (some (Stored.file content m)) tempPath =
        some (.file content m) := Function.update_self _ _ _
    have hpath : Function.update files tempPath (some (Stored.file content m)) path = files path :=
      Function.update_of_ne hne.symm _ _
    obtain ⟨hlanding, hcan⟩ := canMove_update host faults
      (some (.file content m)) hne hchild
    rw [mv_eq hsource hoption' hoption, hlanding]
    have hall : (∀ content', some content = some content' →
        Settles host faults files tempPath path data mode content') ↔
          Settles host faults files tempPath path data mode content :=
      ⟨fun h => h content rfl, fun h content' heq => Option.some.inj heq ▸ h⟩
    rw [hall]
    unfold Settles
    by_cases hmove : host.CanMove faults files tempPath path
    · rw [if_pos (hcan.mpr hmove), if_pos rfl, forall_prop_of_true hmove,
        and_iff_left fun h => absurd hmove h]
      change Holds _ path data mode ↔ _
      unfold Holds
      dsimp only
      by_cases hdirectory : files path = some .directory
      · -- the directory has taken the file in
        have hinto : Host.landing files tempPath path ≠ path := by
          unfold Host.landing
          rw [if_pos hdirectory]
          intro h
          have hlength := congrArg (fun text => text.toList.length) h
          simp at hlength
        rw [Function.update_of_ne hinto.symm, Function.update_of_ne hne.symm, hpath, hdirectory]
        exact iff_of_false (fun ⟨_, h, _⟩ => nomatch h) fun h => h.1 rfl
      · have hthere : Host.landing files tempPath path = path := by
          unfold Host.landing
          rw [if_neg hdirectory]
        rw [hthere, Function.update_self]
        constructor
        · rintro ⟨m', hfile, hmode⟩
          obtain ⟨rfl, rfl⟩ := Stored.file.inj (Option.some.inj hfile)
          exact ⟨hdirectory, rfl, hmode⟩
        · rintro ⟨_, rfl, hmode⟩
          exact ⟨m, rfl, hmode⟩
    · rw [if_neg fun h => hmove (hcan.mp h), if_neg nofun, forall_prop_of_true hmove,
        and_iff_right fun h => absurd h hmove]
      change Function.update files tempPath _ path = files path ∧
        (faults.unlink = false → Function.update files tempPath _ tempPath = none) ↔ _
      rw [hpath, hsource]
      cases faults.unlink with
      | true => exact iff_of_true ⟨rfl, nofun⟩ rfl
      | false => exact iff_of_false (fun h => nomatch h.2 rfl) nofun

end Shell

/-! ### Every write -/

section Writes

variable {rt : Runtime}

/-- The script of a write of this host's. -/
abbrev writeScript (host : Host) (path data : String) (mode : Option ℕ) : Script :=
  .write data (tempPathFor path host.uuid) path mode

/-- What a write that is let happen keeps to. -/
theorem kept_replaceFile_iff (session : Session) (host : Host) (faults : Faults)
    (sessionId path data : String) (mode : Option ℕ) {files : Files}
    (hfresh : files (tempPathFor path host.uuid) = none) :
    Ends (fileHost session host faults)
        (replaceFile session sessionId path (tempPathFor path host.uuid) data mode) files
        (fun files' result =>
          Kept faults (tempPathFor path host.uuid) path data mode files files' result) ↔
      (session.sftp = false → host.ShellTakes faults (writeScript host path data mode) →
        ShellSettles host faults files (tempPathFor path host.uuid) path data mode) := by
  have hne := tempPathFor_ne path host.uuid
  have hchild := tempPathFor_ne_child path host.uuid (fileName (tempPathFor path host.uuid))
  have htemp : isOption path = false → isOption (tempPathFor path host.uuid) = false :=
    fun h => isOption_tempPathFor h host.uuid
  unfold writeScript
  generalize tempPathFor path host.uuid = tempPath at hfresh hne hchild htemp
  cases hsftp : session.sftp with
  | true =>
    refine iff_of_true ?_ nofun
    rw [replaceFile_sftp hsftp]
    exact ends_sftpReplaceFile hfresh hne
  | false =>
    by_cases htakes : host.ShellTakes faults (.write data tempPath path mode)
    · rw [ends_replaceFile_shell hsftp htakes, forall_prop_of_true rfl, forall_prop_of_true htakes]
      unfold ShellSettles
      cases hoption : isOption path with
      | true => exact (kept_optioned_iff hfresh hne hoption).trans (iff_of_eq (if_pos rfl).symm)
      | false =>
        exact (kept_shell_iff hfresh hne hchild hoption (htemp hoption)).trans
          (iff_of_eq (if_neg Bool.false_ne_true).symm)
    · refine iff_of_true ?_ fun _ h => absurd h htakes
      unfold replaceFile
      rw [hsftp, if_pos (by rfl), ends_bind_pure]
      exact ends_execFallback_of_not_takes htakes fun e =>
        kept_unchanged faults data mode hfresh e

/-- What a write that is let happen has to meet to be all or nothing. -/
theorem allOrNothing_iff_of_lets {engine : PolicyEngine rt} {config : ServerConfig}
    {session : Session} {path data : String} (hlets : LetsWrite engine config session path data)
    (host : Host) (faults : Faults) (sessionId : String) (mode : Option ℕ) {files : Files}
    (hfresh : files (tempPathFor path host.uuid) = none) :
    AllOrNothing engine config session host faults files sessionId path data mode ↔
      (session.sftp = false → host.ShellTakes faults (writeScript host path data mode) →
        ShellSettles host faults files (tempPathFor path host.uuid) path data mode) := by
  -- the outcome of the run is left as it is by the wrapping of its error
  have hkept : ∀ files' result,
      (Kept faults (tempPathFor path host.uuid) path data mode files files'
          (Except.mapError (fun e => wrapError e .EFS (writeHint path)) result) ∨
        session.policyMode = .explain ∧ files' = files ∧
          Except.mapError (fun e => wrapError e .EFS (writeHint path)) result = .ok true) ↔
      Kept faults (tempPathFor path host.uuid) path data mode files files' result := by
    intro files' result
    rw [hlets.1]
    cases result with
    | ok => exact or_iff_left fun h => nomatch h.1
    | error => exact or_iff_left fun h => nomatch h.1
  unfold AllOrNothing
  rw [ends_writeFile_of_lets hlets, ends_congr hkept]
  exact kept_replaceFile_iff session host faults sessionId path data mode hfresh

end Writes

/-! ### A sample -/

/-- A host that takes every write. -/
def sampleHost : Host where
  osInfo := .ok linuxHost
  uuid := "1"
  makeable _ := true
  overwrites := false
  defaultMode := 0o644
  lineLimit := 131071
  chunks bytes := [bytes]
  chunks_flatten _ := List.flatten_singleton
  optioned _ files := ⟨files, [], false⟩
  optioned_keeps _ _ _ _ _ := rfl
  optionedStat _ _ := []

/-- The limits of the sample. -/
def sampleConfig : ServerConfig where
  maxFileSize := 1000
  maxFileWriteBytes := 1000
  maxTransferBytes := 1000
  commandTimeoutMs := 1000
  maxCommandOutputBytes := 1000
  maxStreamChunks := 10

/-- Without deny prefixes at its path or above, an operation on a file is permitted, if it is not a
destructive one. -/
theorem permits_of_not_covered {rt : Runtime} {engine : PolicyEngine rt} {action : PolicyAction}
    (haction : action ∉ localTransferActions ++ [.tunnelLocal, .tunnelRemote, .fsRemove])
    {path : String} (hnul : Char.ofNat 0 ∉ path.toList)
    (hdeny : ¬engine.DenyCovers (policyLocation path)) (mode : PolicyMode) :
    engine.Permits (pathContext action path mode) := by
  rw [List.mem_append, not_or] at haction
  have hremove : action ≠ .fsRemove := fun h => haction.2 (by simp [h])
  unfold pathContext
  rw [engine.permits_paths_iff]
  · intro p hp
    by_cases hne : path = ""
    · simp [truthy, hne] at hp
    · obtain ⟨rfl, _⟩ : path = p ∧ p ≠ "" := by simpa [truthy, hne] using hp
      refine engine.pathDenial_eq_none_iff.mpr ⟨hnul, hdeny, fun h => ?_⟩
      simp [hremove] at h
  · rw [List.mem_append, not_or]
    exact ⟨haction.1, fun h => haction.2 (by simp at h ⊢; tauto)⟩

theorem permits_of_noDenies {rt : Runtime} {engine : PolicyEngine rt}
    (hdeny : engine.config.pathDenyPrefixes = []) {action : PolicyAction}
    (haction : action ∉ localTransferActions ++ [.tunnelLocal, .tunnelRemote, .fsRemove])
    {path : String} (hnul : Char.ofNat 0 ∉ path.toList) (mode : PolicyMode) :
    engine.Permits (pathContext action path mode) := by
  refine permits_of_not_covered haction hnul ?_ mode
  rw [PolicyEngine.DenyCovers, PolicyEngine.denyLocations, hdeny]
  exact fun ⟨d, hd, _⟩ => absurd hd List.not_mem_nil

/-- A command passes without lists of commands, if it is not a dangerous one. -/
theorem commandDenial_eq_none {rt : Runtime} {engine : PolicyEngine rt}
    (hregexp : ∀ pattern flags text, rt.regExpTest pattern flags text = false)
    (hallow : engine.config.commandAllow = []) (hdeny : engine.config.commandDeny = [])
    (context : PolicyContext) : engine.commandDenial context = none := by
  unfold PolicyEngine.commandDenial
  dsimp only
  rw [hallow, hdeny]
  cases truthy context.command with
  | none => rfl
  | some command =>
    have hsafe : checkCommandSafety rt command = none := by
      unfold checkCommandSafety
      split
      · rfl
      · exact List.find?_eq_none.mpr fun p _ => by rw [hregexp]; exact Bool.false_ne_true
    change (checkCommandSafety rt command).bind _ = none
    rw [hsafe]
    rfl

theorem permits_command {rt : Runtime} {engine : PolicyEngine rt}
    (hregexp : ∀ pattern flags text, rt.regExpTest pattern flags text = false)
    (hallow : engine.config.commandAllow = []) (hdeny : engine.config.commandDeny = [])
    (script : Script) (mode : PolicyMode) : engine.Permits (commandContext script mode) := by
  rw [engine.permits_iff, PolicyEngine.denialWith, commandDenial_eq_none hregexp hallow hdeny,
    Option.or_none]
  rfl

theorem exists_permissive (rt : Runtime) :
    ∃ engine : PolicyEngine rt, engine.config = {} ∧
      ∀ action ∉ localTransferActions ++ [.tunnelLocal, .tunnelRemote, .fsRemove],
        ∀ path : String, Char.ofNat 0 ∉ path.toList →
          engine.Permits (pathContext action path .enforce) := by
  obtain ⟨engine, hengine⟩ := PolicyEngine.exists_engine rt {} (by decide) (by decide) ⟨rfl, rfl⟩
  exact ⟨engine, hengine, fun action haction path hnul =>
    permits_of_noDenies (by rw [hengine]) haction hnul .enforce⟩

theorem sampleHost_takes {faults : Faults} (hshell : faults.shell = false) :
    sampleHost.ShellTakes faults (writeScript sampleHost "/tmp/file" "data" none) :=
  ⟨linuxHost, rfl, by decide, hshell, by decide +kernel⟩

theorem sampleHost_canMove {faults : Faults} (hmove : faults.move = false) :
    sampleHost.CanMove faults (fun _ => none) (tempPathFor "/tmp/file" sampleHost.uuid)
      "/tmp/file" :=
  ⟨by decide +kernel, by decide, hmove, rfl⟩

/-! ### Every write -/

end Ssh
