import McpSshTool.Ssh.Performs

/-!
# What the services come to

The other side of `Performs`: in a live session in mode `enforce`, what is permitted is done, as
long as the host answers accordingly.

* `Alive` — the session is there at every look, and the host may answer anything;
* `guarded_eq`, `asserted_eq` — a permitted decision lets a service go on;
* `execCommand_yields`, `writeFile_yields`, `pathExists_yields`, `readFile_yields` — how the
  services that others build on can end, and `…_reaches` — what they do on the way.
-/

open Library

namespace Ssh

open Program

/-- What the proofs need of the runtime's own conversions. -/
structure Runtime.Lawful (rt : Runtime) : Prop where
  parse_zero : rt.numberText.parse "0" = .fin 0
  bufferText_utf8 : ∀ text, rt.bufferText "utf8" (Utf8.encode text) = text

theorem decimalRuntime_lawful : decimalRuntime.Lawful where
  parse_zero := rfl
  bufferText_utf8 := Utf8.decode_encode

/-- The session may be there at every look, and everything but the UUIDs may be answered in any
way. -/
structure Lively (Assume : Event → Prop) (session : Session) : Prop where
  session : ∀ sessionId, Assume ⟨.getSession sessionId, some session⟩
  answer : ∀ (op : Operation) (answer : Answer op), (∀ sessionId, op ≠ .getSession sessionId) →
    op ≠ .randomUUID → Assume ⟨op, answer⟩

/-- The session may be there at every look, or be gone, and everything else may be answered in any
way. -/
structure Alive (Assume : Event → Prop) (session : Session) : Prop where
  session : ∀ sessionId, Assume ⟨.getSession sessionId, some session⟩
  gone : ∀ sessionId, Assume ⟨.getSession sessionId, none⟩
  answer : ∀ (op : Operation) (answer : Answer op), (∀ sessionId, op ≠ .getSession sessionId) →
    Assume ⟨op, answer⟩

variable {rt : Runtime} {engine : PolicyEngine rt} {config : ServerConfig}
variable {Assume : Event → Prop} {P : Operation → Prop} {session : Session} {α β : Type}

/-! ### Decisions -/

theorem guarded_eq {context : PolicyContext} (hpermits : engine.Permits context)
    (hmode : context.mode = some .enforce) {explained : PolicyDecision → Task α} {body : Task α} :
    (ofExcept (engine.assertAllowed context) >>= fun decision =>
      if decision.mode = .explain then explained decision else body) = body := by
  rw [engine.assertAllowed_eq, if_neg fun h => h.1 hpermits]
  have henforce : (engine.evaluate context).mode = .enforce := by
    rw [PolicyEngine.evaluate, engine.evaluateWith_mode, hmode]
    rfl
  change (if _ then _ else _) = _
  rw [henforce, if_neg PolicyMode.noConfusion]

theorem asserted_eq {context : PolicyContext} (hpermits : engine.Permits context) {body : Task α} :
    (ofExcept (engine.assertAllowed context) >>= fun _ => body) = body := by
  rw [engine.assertAllowed_eq, if_neg fun h => h.1 hpermits]
  rfl

theorem assertAllowed_denied {context : PolicyContext} (hdenied : ¬engine.Permits context)
    (hmode : context.mode = some .enforce) :
    engine.assertAllowed context = .error (denialError engine context) := by
  rw [engine.assertAllowed_eq, if_pos]
  · rfl
  · exact ⟨hdenied, by rw [hmode]; rfl⟩

/-! ### Single operations -/

namespace Lively

theorem reaches_sessionOr (h : Lively Assume session) {missing : Failure} {sessionId : String}
    {f : Session → Task α} (hf : Reaches Assume P (f session)) :
    Reaches Assume P (sessionOr missing sessionId >>= f) :=
  .inr ⟨some session, h.session sessionId, hf⟩

theorem reaches_getOSInfo (h : Lively Assume session) {sessionId : String} (osInfo : OSInfo)
    {f : OSInfo → Task α} (hf : Reaches Assume P (f osInfo)) :
    Reaches Assume P (getOSInfo sessionId >>= f) :=
  .inr ⟨.ok osInfo, h.answer (.getOSInfo sessionId) _ (fun _ => nofun) nofun, hf⟩

theorem reaches_now (h : Lively Assume session) (time : ℕ) {f : ℕ → Task α}
    (hf : Reaches Assume P (f time)) : Reaches Assume P (now >>= f) :=
  .inr ⟨time, h.answer .now _ (fun _ => nofun) nofun, hf⟩

end Lively

namespace Alive

theorem lively (h : Alive Assume session) : Lively Assume session :=
  ⟨h.session, fun op answer hop _ => h.answer op answer hop⟩

theorem yields_sessionOr (h : Alive Assume session) {missing : Failure} {sessionId : String}
    {f : Session → Task α} {result : Except Failure α} (hf : Yields Assume (f session) result) :
    Yields Assume (sessionOr missing sessionId >>= f) result :=
  ⟨some session, h.session sessionId, hf⟩

theorem reaches_sessionOr (h : Alive Assume session) {missing : Failure} {sessionId : String}
    {f : Session → Task α} (hf : Reaches Assume P (f session)) :
    Reaches Assume P (sessionOr missing sessionId >>= f) :=
  h.lively.reaches_sessionOr hf

theorem yields_getOSInfo (h : Alive Assume session) {sessionId : String} (osInfo : OSInfo)
    {f : OSInfo → Task α} {result : Except Failure α} (hf : Yields Assume (f osInfo) result) :
    Yields Assume (getOSInfo sessionId >>= f) result :=
  ⟨.ok osInfo, h.answer (.getOSInfo sessionId) _ fun _ => nofun, hf⟩

theorem reaches_getOSInfo (h : Alive Assume session) {sessionId : String} (osInfo : OSInfo)
    {f : OSInfo → Task α} (hf : Reaches Assume P (f osInfo)) :
    Reaches Assume P (getOSInfo sessionId >>= f) :=
  h.lively.reaches_getOSInfo osInfo hf

theorem yields_now (h : Alive Assume session) (time : ℕ) {f : ℕ → Task α}
    {result : Except Failure α} (hf : Yields Assume (f time) result) :
    Yields Assume (now >>= f) result :=
  ⟨time, h.answer .now _ fun _ => nofun, hf⟩

theorem reaches_now (h : Alive Assume session) (time : ℕ) {f : ℕ → Task α}
    (hf : Reaches Assume P (f time)) : Reaches Assume P (now >>= f) :=
  h.lively.reaches_now time hf

end Alive

theorem yields_wrapping {hint : String} {body : Task α} {a : α}
    (h : Yields Assume body (.ok a)) : Yields Assume (wrapping hint body) (.ok a) :=
  h.andThen rfl

/-- A Linux host, for the runs that need one. -/
def linuxHost : OSInfo where
  platform := .linux
  packageManager := .apt
  init := .systemd
  defaultShell := none
  tempDir := none

/-! ### The shell -/

theorem execFallback_yields (h : Alive Assume session) (sessionId : String) (script : Script)
    (stdout : String) : Yields Assume (execFallback sessionId script) (.ok stdout) := by
  obtain ⟨sent, hsent⟩ := buildRemoteCommand_ok script.text linuxHost none
  refine h.yields_sessionOr (h.yields_getOSInfo linuxHost ?_)
  rw [hsent]
  exact ⟨.ok ⟨some 0, stdout, ""⟩, h.answer _ _ fun _ => nofun, rfl⟩

theorem execFallback_fails (h : Alive Assume session) (sessionId : String) (script : Script)
    (e : Failure) : Yields Assume (execFallback sessionId script) (.error e) :=
  h.yields_sessionOr ⟨.error e, h.answer _ _ fun _ => nofun, rfl⟩

theorem execFallback_reaches (h : Lively Assume session) (sessionId : String) (script : Script)
    (hP : ∀ sent, P (.exec script sent)) : Reaches Assume P (execFallback sessionId script) := by
  obtain ⟨sent, hsent⟩ := buildRemoteCommand_ok script.text linuxHost none
  refine h.reaches_sessionOr (h.reaches_getOSInfo linuxHost ?_)
  rw [hsent]
  exact .inl (hP sent)

/-- An empty file may be found at any path. -/
theorem statFileInternal_yields (rt : Runtime) (h : Alive Assume session)
    (sessionId path : String) :
    ∃ stats : FileStatInfo, Yields Assume (statFileInternal rt sessionId path) (.ok stats) ∧
      (rt.Lawful → stats.size = .fin 0) := by
  by_cases hsftp : session.sftp = true
  · let stats : FileStatInfo := {
      size := .ofInt 0, mtime := toMilliseconds (.ofInt 0), mode := some 0, type := "other" }
    refine ⟨stats, h.yields_sessionOr ?_, fun _ => rfl⟩
    rw [if_neg (by simp [hsftp])]
    exact ⟨.ok { mode := none, size := none, mtime := some 0 }, h.answer _ _ fun _ => nofun, rfl⟩
  · let stats : FileStatInfo := {
      size := rt.numberText.parse "0", mtime := toMilliseconds (rt.numberText.parse "0")
      mode := parseOctal "0", type := "" }
    refine ⟨stats, h.yields_sessionOr ?_, fun hlawful => hlawful.parse_zero⟩
    rw [if_pos (by simp [hsftp])]
    exact (execFallback_yields h sessionId (.stat path) "").bind rfl

/-! ### Commands -/

theorem assertValidEnvironment_nil : assertValidEnvironment [] = .ok () := rfl

theorem buildRemoteCommandWithTimeout_linux (command : String) (timeoutMs : ℕ) (cwd : Option String)
    {env : Environment} (henv : assertValidEnvironment env = .ok ()) :
    ∃ sent, buildRemoteCommandWithTimeout command linuxHost timeoutMs cwd env = .ok sent := by
  unfold buildRemoteCommandWithTimeout buildRemoteCommand buildPosixCommand
  rw [henv]
  exact ⟨_, rfl⟩

section Commands

variable (config) (halive : Alive Assume session) (henforce : session.policyMode = .enforce)
include halive henforce

/-- A permitted command can end with any code that is not that of a termination. -/
theorem execCommand_yields (sessionId : String) {script : Script}
    (hpermits : engine.Permits (commandContext script .enforce)) (cwd : Option String)
    {env : Environment} (henv : assertValidEnvironment env = .ok ())
    (timeoutMs : Option ℕ) {code : ℕ}
    (hcode : code ∉ terminationCodes) :
    ∃ result : ExecResult, result.code = code ∧
      Yields Assume (execCommand engine config sessionId script cwd env timeoutMs)
        (.ok result) := by
  obtain ⟨sent, hsent⟩ := buildRemoteCommandWithTimeout_linux script.text
    (timeoutMs.getD config.commandTimeoutMs) cwd henv
  let result : ExecResult := {
    code, stdout := truncateText "" config.maxCommandOutputBytes
    stderr := truncateText "" config.maxCommandOutputBytes, durationMs := 0 }
  refine ⟨result, rfl, halive.yields_sessionOr ?_⟩
  change Yields Assume (ofExcept
    (engine.assertAllowed (commandContext script session.policyMode)) >>= _) _
  rw [henforce, guarded_eq hpermits rfl]
  refine halive.yields_getOSInfo linuxHost (halive.yields_now 0 (Yields.tryCatch_ok ?_))
  rw [hsent]
  refine ⟨.ok (some ⟨some code, "", ""⟩), halive.answer _ _ fun _ => nofun, ?_⟩
  refine ⟨(0 : ℕ), halive.answer _ _ fun _ => nofun, ?_⟩
  have hended : (CommandResult.mk (some code) "" "").code.getD 0 ∉ terminationCodes := hcode
  change Yields Assume (if _ then _ else _) _
  rw [if_neg hended]
  rfl

theorem execCommand_reaches (sessionId : String) {script : Script}
    (hpermits : engine.Permits (commandContext script .enforce)) (cwd : Option String)
    {env : Environment} (henv : assertValidEnvironment env = .ok ()) (timeoutMs : Option ℕ)
    (hP : ∀ sent ms, P (.execWithin script sent ms)) :
    Reaches Assume P (execCommand engine config sessionId script cwd env timeoutMs) := by
  obtain ⟨sent, hsent⟩ := buildRemoteCommandWithTimeout_linux script.text
    (timeoutMs.getD config.commandTimeoutMs) cwd henv
  refine halive.reaches_sessionOr ?_
  change Reaches Assume P (ofExcept
    (engine.assertAllowed (commandContext script session.policyMode)) >>= _)
  rw [henforce, guarded_eq hpermits rfl]
  refine halive.reaches_getOSInfo linuxHost (halive.reaches_now 0 (Reaches.andThen ?_))
  rw [hsent]
  exact .inl (hP sent _)

theorem execCommand_denied (sessionId : String) {script : Script}
    (hdenied : ¬engine.Permits (commandContext script .enforce)) (cwd : Option String)
    (env : Environment) (timeoutMs : Option ℕ) :
    Yields Assume (execCommand engine config sessionId script cwd env timeoutMs)
      (.error (denialError engine (commandContext script .enforce))) := by
  refine halive.yields_sessionOr ?_
  change Yields Assume (ofExcept
    (engine.assertAllowed (commandContext script session.policyMode)) >>= _) _
  rw [henforce, assertAllowed_denied hdenied rfl]
  rfl

theorem execSudo_reaches (sessionId : String) {script : Script} {options : SudoPolicyOptions}
    (hpermits : engine.Permits (sudoContext script .enforce options)) (cwd : Option String)
    (timeoutMs : Option ℕ) (hP : ∀ sent ms, P (.execSudo script sent ms)) :
    Reaches Assume P (execSudo engine config sessionId script none cwd timeoutMs options) := by
  refine halive.reaches_sessionOr ?_
  change Reaches Assume P (ofExcept
    (engine.assertAllowed (sudoContext script session.policyMode options)) >>= _)
  rw [henforce, guarded_eq hpermits rfl]
  refine halive.reaches_getOSInfo linuxHost (halive.reaches_now 0 (Reaches.andThen ?_))
  exact .inl (hP _ _)

/-! ### Files -/

section Writes

variable {path data : String} (hpermits : engine.Permits (pathContext .fsWrite path .enforce))
variable (hfits : data.utf8ByteSize ≤ config.maxFileWriteBytes)
include hpermits hfits

omit halive in
theorem writeFile_reaches (hlively : Lively Assume session) (sessionId : String) (mode : Option ℕ)
    (hsend : Reaches Assume P (sendWrite session sessionId path data mode)) :
    Reaches Assume P (writeFile engine config sessionId path data mode) := by
  refine hlively.reaches_sessionOr (Reaches.andThen ?_)
  change Reaches Assume P (ofExcept
    (engine.assertAllowed (pathContext .fsWrite path session.policyMode)) >>= _)
  rw [henforce, guarded_eq hpermits rfl, if_neg (not_lt.mpr hfits)]
  exact hsend

/-- It may succeed. -/
theorem writeFile_yields (sessionId : String) :
    Yields Assume (writeFile engine config sessionId path data) (.ok true) := by
  refine halive.yields_sessionOr (yields_wrapping ?_)
  change Yields Assume (ofExcept
    (engine.assertAllowed (pathContext .fsWrite path session.policyMode)) >>= _) _
  rw [henforce, guarded_eq hpermits rfl, if_neg (not_lt.mpr hfits)]
  refine ⟨"", halive.answer .randomUUID _ fun _ => nofun, ?_⟩
  change Yields Assume (if _ then _ else _) _
  split
  · exact (execFallback_yields halive sessionId _ "").bind rfl
  · refine Yields.tryCatch_ok ?_
    refine ⟨.ok (), halive.answer _ _ fun _ => nofun, ?_⟩
    exact ⟨.ok (), halive.answer _ _ fun _ => nofun, rfl⟩

/-- It may fail with any error of the host. -/
theorem writeFile_fails (sessionId : String) (e : Failure) :
    Yields Assume (writeFile engine config sessionId path data)
      (.error (wrapError e .EFS (some ("Failed to write file " ++ path ++
        ". Check directory permissions and disk space.")))) := by
  refine halive.yields_sessionOr (Yields.tryCatch_error (e := e) ?_ rfl)
  change Yields Assume (ofExcept
    (engine.assertAllowed (pathContext .fsWrite path session.policyMode)) >>= _) _
  rw [henforce, guarded_eq hpermits rfl, if_neg (not_lt.mpr hfits)]
  refine ⟨"", halive.answer .randomUUID _ fun _ => nofun, ?_⟩
  change Yields Assume (if _ then _ else _) _
  split
  · exact (execFallback_fails halive sessionId _ e).andThen rfl
  · refine Yields.tryCatch_error (e := e) ⟨.error e, halive.answer _ _ fun _ => nofun, rfl⟩ ?_
    exact ⟨.ok (), halive.answer _ _ fun _ => nofun, rfl⟩

end Writes

theorem writeFile_denied (sessionId : String) {path : String} (data : String)
    (hdenied : ¬engine.Permits (pathContext .fsWrite path .enforce)) :
    Yields Assume (writeFile engine config sessionId path data)
      (.error (denialError engine (pathContext .fsWrite path .enforce))) := by
  refine halive.yields_sessionOr (Yields.tryCatch_error
    (e := denialError engine (pathContext .fsWrite path .enforce)) ?_ rfl)
  change Yields Assume (ofExcept
    (engine.assertAllowed (pathContext .fsWrite path session.policyMode)) >>= _) _
  rw [henforce, assertAllowed_denied hdenied rfl]
  rfl

theorem pathExists_yields_true (sessionId : String) {path : String}
    (hpermits : engine.Permits (pathContext .fsStat path .enforce)) :
    Yields Assume (pathExists engine sessionId path) (.ok true) := by
  obtain ⟨stats, hstats⟩ := statFileInternal_yields rt halive sessionId path
  refine Yields.tryCatch_ok (Yields.bind (a := stats) ?_ rfl)
  refine halive.yields_sessionOr (yields_wrapping ?_)
  change Yields Assume (ofExcept
    (engine.assertAllowed (pathContext .fsStat path session.policyMode)) >>= _) _
  rw [henforce, asserted_eq hpermits]
  exact hstats.1

/-- A file may be missing, or must not be looked at. -/
theorem statFile_fails (sessionId path : String) :
    ∃ e, Yields Assume (statFile engine sessionId path) (.error e) := by
  let hint := "Failed to get stats for " ++ path ++ ". Check if the path exists."
  by_cases hpermits : engine.Permits (pathContext .fsStat path .enforce)
  · refine ⟨wrapError .unfinished .EFS hint, ?_⟩
    refine halive.yields_sessionOr (Yields.tryCatch_error (e := Failure.unfinished) ?_ rfl)
    change Yields Assume (ofExcept
      (engine.assertAllowed (pathContext .fsStat path session.policyMode)) >>= _) _
    rw [henforce, asserted_eq hpermits]
    refine halive.yields_sessionOr ?_
    change Yields Assume (if _ then _ else _) _
    split
    · exact (execFallback_fails halive sessionId _ .unfinished).bind_error
    · exact ⟨.error .unfinished, halive.answer _ _ fun _ => nofun, rfl⟩
  · let denial := denialError engine (pathContext .fsStat path .enforce)
    refine ⟨denial, halive.yields_sessionOr (Yields.tryCatch_error (e := denial) ?_ rfl)⟩
    change Yields Assume (ofExcept
      (engine.assertAllowed (pathContext .fsStat path session.policyMode)) >>= _) _
    rw [henforce, assertAllowed_denied hpermits rfl]
    rfl

theorem pathExists_yields_false (sessionId path : String) :
    Yields Assume (pathExists engine sessionId path) (.ok false) := by
  obtain ⟨e, he⟩ : ∃ e, Yields Assume (statFile engine sessionId path) (.error e) :=
    statFile_fails halive henforce sessionId path
  exact Yields.tryCatch_error he.bind_error rfl

/-- A file whose reading is permitted may have any content. -/
theorem readFile_yields (hlawful : rt.Lawful) (sessionId : String) {path : String}
    (hpermits : engine.Permits (pathContext .fsRead path .enforce)) (content : String) :
    Yields Assume (readFile engine config sessionId path) (.ok content) := by
  obtain ⟨stats, hstats, hsize⟩ := statFileInternal_yields rt halive sessionId path
  refine halive.yields_sessionOr (yields_wrapping ?_)
  change Yields Assume (ofExcept
    (engine.assertAllowed (pathContext .fsRead path session.policyMode)) >>= _) _
  rw [henforce, asserted_eq hpermits]
  refine hstats.bind ?_
  rw [hsize hlawful, if_neg (by simp [exceeds])]
  split
  · exact execFallback_yields halive sessionId _ content
  · refine ⟨.ok (Utf8.encode content), halive.answer _ _ fun _ => nofun, ?_⟩
    exact congrArg Except.ok (hlawful.bufferText_utf8 content)

end Commands

end Ssh
