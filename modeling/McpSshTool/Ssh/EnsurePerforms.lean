import McpSshTool.Ssh.Ensure
import McpSshTool.Ssh.Performs

/-!
# What the ensure service performs

The ensure service goes through the process and the filesystem services, so all that it does to the
host is behind their decisions.

* `EnsureOperation` — reads, commands with a decision on each, and writes with a decision on each.
  Which commands and which writes is a parameter;
* `PackageCommand`, `ServiceCommand`, `LinesCommand`, `LinesWrite`, `PatchCommand`, `PatchWrite` —
  the commands and the writes of each operation, with what has to come before them;
* `ensurePackage_performs`, `ensureService_performs`, `ensureLinesInFile_performs`,
  `applyPatch_performs`.
-/

open Library

namespace Ssh

open Program

variable {rt : Runtime} (engine : PolicyEngine rt) (config : ServerConfig)
variable {Assume : Event → Prop} {session : Session} {α : Type}

/-! ### The parts of an ensure operation -/

/-- What an ensure operation does, with the commands and the writes that it may come to. -/
inductive EnsureOperation (Assume : Event → Prop) (session : Session) (sessionId : String)
    (Commands : PolicyContext → Script → Prop) (Writes : String → String → Prop) : Operation → Prop
  | lookup {op : Operation} (h : op.IsLookup) :
      EnsureOperation Assume session sessionId Commands Writes op
  | getOSInfo : EnsureOperation Assume session sessionId Commands Writes (.getOSInfo sessionId)
  | read {path : String} {op : Operation} (h : ReadOperation sessionId path op) :
      EnsureOperation Assume session sessionId Commands Writes op
  | command {context : PolicyContext} {script : Script} (h : Commands context script)
      (hpermits : engine.Permits context) (henforce : session.policyMode = .enforce)
        {op : Operation}
      (hop : CommandOperation sessionId script op) :
      EnsureOperation Assume session sessionId Commands Writes op
  | write {path data : String} (h : Writes path data)
      (hpermits : engine.Permits (pathContext .fsWrite path .enforce))
      (henforce : session.policyMode = .enforce)
      (hfits : data.utf8ByteSize ≤ config.maxFileWriteBytes) {op : Operation}
      (hop : WriteOperation Assume session.sftp sessionId path data op) :
      EnsureOperation Assume session sessionId Commands Writes op

section Parts

variable {engine} {config} {sessionId : String} {Commands : PolicyContext → Script → Prop}
variable {Writes : String → String → Prop}

theorem ensureOperation_of_guarded {context : PolicyContext} {script : Script}
    (h : Commands context script) {op : Operation}
    (hop : Guarded engine session context (CommandOperation sessionId script) op) :
    EnsureOperation engine config Assume session sessionId Commands Writes op := by
  rcases hop with hop | ⟨hpermits, henforce, hop⟩
  · exact .lookup hop
  · exact .command h hpermits henforce hop

theorem ensureOperation_of_asserted {context : PolicyContext} {path : String} {op : Operation}
    (hop : Asserted engine session context (ReadOperation sessionId path) op) :
    EnsureOperation engine config Assume session sessionId Commands Writes op := by
  rcases hop with hop | ⟨-, hop⟩
  · exact .lookup hop
  · exact .read hop

theorem ensureOperation_of_write {path data : String} (h : Writes path data) {op : Operation}
    (hop : Guarded engine session (pathContext .fsWrite path session.policyMode)
      (fun op => data.utf8ByteSize ≤ config.maxFileWriteBytes ∧
        WriteOperation Assume session.sftp sessionId path data op) op) :
    EnsureOperation engine config Assume session sessionId Commands Writes op := by
  rcases hop with hop | ⟨hpermits, henforce, hfits, hop⟩
  · exact .lookup hop
  · rw [henforce] at hpermits
    exact .write h hpermits henforce hfits hop

end Parts

/-! ### Packages -/

/-- The command line that `ensurePackage` comes to, for a host that needs it. -/
def packageCommand (state : Presence) (pm : PackageManager) (name : String) :
    Except Failure String :=
  match state with
  | .present => getInstallCommand pm name
  | .absent => getRemoveCommand pm name

/-- The options of that command under sudo. -/
def packageOptions : Presence → SudoPolicyOptions
  | .present => { policyAction := some .ensurePackage, rawSudo := some false }
  | .absent =>
    { policyAction := some .ensurePackage, rawSudo := some false, destructive := some true }

/-- The context of that command. -/
def packageContext (state : Presence) (pm : PackageManager) (command : String) (mode : PolicyMode) :
    PolicyContext :=
  if pm = .brew then commandContext (.setPackage command) mode
  else sudoContext (.setPackage command) mode (packageOptions state)

/-- The commands of `ensurePackage`. A package is removed only where a permitted check has found
it. -/
inductive PackageCommand (mode : PolicyMode) (name : String) (state : Presence) :
    PolicyContext → Script → Prop
  | check {pm : PackageManager} {text : String} (h : checkCommand pm name = some text) :
      PackageCommand mode name state (commandContext (.checkPackage text) mode) (.checkPackage text)
  | set {pm : PackageManager} {command : String} (hvalid : sanitizePackageName name = .ok name)
      (hcommand : packageCommand state pm name = .ok command)
      (hfound : state = .absent → mode = .explain ∨ ∃ text, checkCommand pm name = some text ∧
        engine.Permits (commandContext (.checkPackage text) mode)) :
      PackageCommand mode name state (packageContext state pm command mode) (.setPackage command)

/-- What `ensurePackage` does. -/
abbrev PackageOperation (Assume : Event → Prop) (session : Session) (sessionId name : String)
    (state : Presence) : Operation → Prop :=
  EnsureOperation engine config Assume session sessionId
    (PackageCommand engine session.policyMode name state) fun _ _ => False

theorem eq_ok_of_ite {p : Prop} [Decidable p] {e : Failure} {result : Except Failure α} {a : α}
    (h : (if p then .error e else result) = .ok a) : result = .ok a := by
  split at h
  · cases h
  · exact h

theorem sanitizePackageName_ok {name safe : String} (h : sanitizePackageName name = .ok safe) :
    safe = name := by
  unfold sanitizePackageName at h
  exact (Except.ok.inj (eq_ok_of_ite (eq_ok_of_ite h))).symm

/-- The check of a package, and when it finds it. -/
theorem checkPackageInstalled_ensures (hsession : Looks Assume session) {sessionId name : String}
    {state : Presence} (pm : PackageManager) :
    Ensures Assume (PackageOperation engine config Assume session sessionId name state)
      (fun result => result = .ok true → session.policyMode = .explain ∨
        ∃ text, checkCommand pm name = some text ∧
          engine.Permits (commandContext (.checkPackage text) session.policyMode))
      (checkPackageInstalled engine config sessionId name pm) := by
  unfold checkPackageInstalled
  cases hcommand : checkCommand pm name with
  | none => exact fun h => nomatch h
  | some text =>
    refine Ensures.tryCatch (Q := Passes engine session
      (commandContext (.checkPackage text) session.policyMode)) ?_ ?_ ?_
    · have hexec := execCommand_ensures engine config hsession sessionId
        (.checkPackage text) none [] none
      refine (hexec.weaken fun op hop => ?_).bind (fun result hresult _ _ => hresult result rfl)
        fun _ _ _ h => nomatch h
      exact ensureOperation_of_guarded (.check hcommand) hop
    · intro found hfound _
      rcases hfound found rfl with hexplain | hpermits
      · exact .inl hexplain
      · exact .inr ⟨text, rfl, hpermits⟩
    · exact fun _ _ h => nomatch h

theorem setPackage_performs (hsession : Looks Assume session) {sessionId name command : String}
    {state : Presence} {pm : PackageManager}
    (h : PackageCommand engine session.policyMode name state
      (packageContext state pm command session.policyMode) (.setPackage command)) :
    Performs Assume (PackageOperation engine config Assume session sessionId name state)
      (setPackage engine config sessionId command pm (packageOptions state)) := by
  unfold packageContext at h
  unfold setPackage
  split
  · next hbrew =>
    rw [if_pos hbrew] at h
    have hexec := execCommand_performs engine config hsession sessionId
      (.setPackage command) none [] none
    exact Performs.bind (hexec.weaken fun op hop => ensureOperation_of_guarded h hop)
      fun _ => trivial
  · next hother =>
    rw [if_neg hother] at h
    have hexec := execSudo_performs engine config hsession sessionId
      (.setPackage command) none none none (packageOptions state)
    exact Performs.bind (hexec.weaken fun op hop => ensureOperation_of_guarded h hop)
      fun _ => trivial

/-- **What `ensurePackage` performs.** -/
theorem ensurePackage_performs (hsession : Looks Assume session) (sessionId name : String)
    (state : Presence) :
    Performs Assume (PackageOperation engine config Assume session sessionId name state)
      (ensurePackage engine config sessionId name state) := by
  refine performs_ofExcept_bind fun safe hsafe => ?_
  obtain rfl := sanitizePackageName_ok hsafe
  refine performs_sessionOr hsession (.lookup trivial) ?_
  refine Performs.bind ⟨.getOSInfo, fun _ _ => trivial⟩ fun osInfo => ?_
  change Performs _ _ (if _ then _ else _)
  split
  · trivial
  split
  · trivial
  -- the check tells whether there is anything to do
  refine (checkPackageInstalled_ensures engine config hsession osInfo.packageManager).bind ?_
    fun _ _ => trivial
  intro isInstalled hinstalled
  cases state with
  | absent =>
    cases isInstalled with
    | false => trivial
    | true =>
      refine performs_ofExcept_bind fun command hcommand => ?_
      exact setPackage_performs engine config hsession
        (.set hsafe hcommand fun _ => hinstalled rfl)
  | present =>
    cases isInstalled with
    | true => trivial
    | false =>
      refine performs_ofExcept_bind fun command hcommand => ?_
      exact setPackage_performs engine config hsession (.set hsafe hcommand fun h => nomatch h)

/-! ### System services -/

/-- The options of the command of `ensureService`. -/
def serviceOptions (state : ServiceState) : SudoPolicyOptions where
  policyAction := some .ensureService
  rawSudo := some false
  destructive := some (decide (state ∈ [.stopped, .restarted, .disabled]))

/-- The init systems that `ensureService` knows commands for. -/
def managedInitSystems : List InitSystem := [.systemd, .service]

/-- The command of `ensureService`. -/
inductive ServiceCommand (mode : PolicyMode) (name : String) (state : ServiceState) :
    PolicyContext → Script → Prop
  | set {initSystem : InitSystem} (hvalid : sanitizeServiceName name = .ok name)
      (hinit : initSystem ∈ managedInitSystems) :
      ServiceCommand mode name state
        (sudoContext (.setService (serviceCommand initSystem name state)) mode
          (serviceOptions state))
        (.setService (serviceCommand initSystem name state))

theorem sanitizeServiceName_ok {name safe : String} (h : sanitizeServiceName name = .ok safe) :
    safe = name := by
  unfold sanitizeServiceName at h
  exact (Except.ok.inj (eq_ok_of_ite h)).symm

/-- What `ensureService` does. -/
abbrev ServiceOperation (Assume : Event → Prop) (session : Session) (sessionId name : String)
    (state : ServiceState) : Operation → Prop :=
  EnsureOperation engine config Assume session sessionId
    (ServiceCommand session.policyMode name state) fun _ _ => False

/-- **What `ensureService` performs.** -/
theorem ensureService_performs (hsession : Looks Assume session) (sessionId name : String)
    (state : ServiceState) :
    Performs Assume (ServiceOperation engine config Assume session sessionId name state)
      (ensureService engine config sessionId name state) := by
  refine performs_ofExcept_bind fun safe hsafe => ?_
  obtain rfl := sanitizeServiceName_ok hsafe
  refine performs_sessionOr hsession (.lookup trivial) ?_
  refine Performs.bind ⟨.getOSInfo, fun _ _ => trivial⟩ fun osInfo => ?_
  change Performs _ _ (if _ then _ else _)
  split
  · trivial
  split
  · trivial
  split
  · trivial
  next hlaunchd hwindows hunknown =>
    have hinit : osInfo.init ∈ managedInitSystems := by
      cases h : osInfo.init with
      | systemd => decide
      | service => decide
      | launchd => exact absurd h hlaunchd
      | windowsService => exact absurd h hwindows
      | unknown => exact absurd h hunknown
    refine Performs.bind ?_ fun _ => trivial
    exact (execSudo_performs engine config hsession sessionId _ none none none _).weaken
      fun op hop => ensureOperation_of_guarded (ServiceCommand.set hsafe hinit) hop

/-! ### Lines -/

/-- The content of a file that `ensureLinesInFile` may come to write: an edit of what it has read,
or of nothing. -/
def EditsTo (mode : PolicyMode) (path : String) (lines : List String) (createIfMissing : Bool)
    (state : Presence) (content : String) : Prop :=
  (mode = .enforce → engine.Permits (pathContext .fsRead path mode)) ∧
      (∃ fileContent, (editLines state lines true fileContent).1 = some content) ∨
    state = .present ∧ createIfMissing = true ∧ (editLines state lines false "").1 = some content

/-- A direct write may fail with an error that is taken to be about permissions: the error comes
from the host, or it is one of the server's own. -/
def MayFallBack (sessionId path : String) : Prop :=
  engine.Permits (pathContext .fsWrite path .enforce) ∨ isPermissionError (noSession sessionId) ∨
    isPermissionError (denialError engine (pathContext .fsWrite path .enforce))

/-- The writes of `ensureLinesInFile`: the file itself, or the temporary file. -/
inductive LinesWrite (mode : PolicyMode) (sessionId path : String) (lines : List String)
    (createIfMissing : Bool) (state : Presence) : String → String → Prop
  | direct {content : String} (h : EditsTo engine mode path lines createIfMissing state content) :
      LinesWrite mode sessionId path lines createIfMissing state path content
  | staged {content : String} (h : EditsTo engine mode path lines createIfMissing state content)
      (hfails : MayFallBack engine sessionId path) (osInfo : OSInfo) (time : ℕ) :
      LinesWrite mode sessionId path lines createIfMissing state (linesTempFile osInfo time) content

/-- The command of `ensureLinesInFile`: the temporary file, which was written, is moved. -/
inductive LinesCommand (mode : PolicyMode) (sessionId path : String) (lines : List String)
    (createIfMissing : Bool) (state : Presence) : PolicyContext → Script → Prop
  | move {content : String} (h : EditsTo engine mode path lines createIfMissing state content)
      (hfails : mode = .enforce → MayFallBack engine sessionId path) (osInfo : OSInfo) (time : ℕ)
      (hstaged : mode = .enforce →
        engine.Permits (pathContext .fsWrite (linesTempFile osInfo time) .enforce) ∧
          content.utf8ByteSize ≤ config.maxFileWriteBytes) :
      LinesCommand mode sessionId path lines createIfMissing state
        (sudoContext (.move (linesTempFile osInfo time) path) mode
          (privilegedOptions .ensureLines path true))
        (.move (linesTempFile osInfo time) path)

/-- What `ensureLinesInFile` does. -/
abbrev LinesOperation (Assume : Event → Prop) (session : Session) (sessionId path : String)
    (lines : List String) (createIfMissing : Bool) (state : Presence) : Operation → Prop :=
  EnsureOperation engine config Assume session sessionId
    (LinesCommand engine config session.policyMode sessionId path lines createIfMissing state)
    (LinesWrite engine session.policyMode sessionId path lines createIfMissing state)

variable {sessionId path : String} {lines : List String} {createIfMissing : Bool} {state : Presence}

/-- **What `writeFileWithPrivilegeFallback` performs.** -/
theorem writeFileWithPrivilegeFallback_performs (hsession : Looks Assume session) {content : String}
    (hedits : EditsTo engine session.policyMode path lines createIfMissing state content)
    (osInfo : OSInfo) :
    Performs Assume
      (LinesOperation engine config Assume session sessionId path lines createIfMissing state)
      (writeFileWithPrivilegeFallback engine config osInfo sessionId path content true) := by
  have hwrite : ∀ target, Ensures Assume _ _ _ := fun target =>
    writeFile_ensures engine config hsession sessionId target content none
  unfold writeFileWithPrivilegeFallback
  refine Ensures.tryCatch
    (Q := fun result => ∀ e, result = .error e →
      WriteEnds engine config session sessionId path content (.error e)) ?_ (fun _ _ => trivial) ?_
  · refine ((hwrite path).weaken fun op hop => ensureOperation_of_write (.direct hedits) hop).bind
      ?_ ?_
    · exact fun _ _ _ h => nomatch h
    · rintro e he e' ⟨⟩
      exact he
  intro error herror
  split
  · trivial
  next hpermission =>
  rw [Bool.not_eq_true', Bool.not_eq_false] at hpermission
  have hfails : session.policyMode = .enforce → MayFallBack engine sessionId path := by
    intro henforce
    have hends := herror error rfl
    rw [WriteEnds, henforce] at hends
    rcases hends with hpermits | rfl | rfl
    · exact .inl hpermits
    · exact .inr (.inl hpermission)
    · exact .inr (.inr hpermission)
  refine ⟨.lookup trivial, fun time _ => ?_⟩
  -- what is staged is moved only if the write of the temporary file has succeeded
  refine Ensures.bind (Q := fun result => result = .ok () →
    session.policyMode = .explain ∨
      engine.Permits (pathContext .fsWrite (linesTempFile osInfo time) session.policyMode) ∧
        content.utf8ByteSize ≤ config.maxFileWriteBytes) ?_ ?_ fun _ _ => trivial
  · refine Ensures.tryCatch (Q := fun result => ∀ a, result = .ok a →
      WriteEnds engine config session sessionId (linesTempFile osInfo time) content (.ok true)) ?_
      (fun a ha _ => ha a rfl) fun _ _ h => nomatch h
    refine ((hwrite _).weaken fun op hop => ?_).bind (fun b hb _ _ => hb) fun _ _ _ h => nomatch h
    rcases hop with hop | ⟨hpermits, henforce, hop⟩
    · exact .lookup hop
    · exact ensureOperation_of_write (.staged hedits (hfails henforce) osInfo time)
        (.inr ⟨hpermits, henforce, hop⟩)
  · intro _ hstaged
    have hmove := execSudo_performs engine config hsession sessionId
      (.move (linesTempFile osInfo time) path) none none none
      (privilegedOptions .ensureLines path true)
    refine Performs.bind (hmove.weaken fun op hop => ?_) fun result => ?_
    · refine ensureOperation_of_guarded (LinesCommand.move hedits hfails osInfo time ?_) hop
      intro henforce
      have hends := hstaged rfl
      rw [henforce] at hends
      exact hends.resolve_left PolicyMode.noConfusion
    · split
      · trivial
      · trivial

/-- **What `ensureLinesInFile` performs.** -/
theorem ensureLinesInFile_performs (hsession : Looks Assume session) :
    Performs Assume
      (LinesOperation engine config Assume session sessionId path lines createIfMissing state)
      (ensureLinesInFile engine config sessionId path lines createIfMissing state) := by
  have hwrite : ∀ osInfo edited, (∀ content, edited.1 = some content →
      EditsTo engine session.policyMode path lines createIfMissing state content) →
      Performs Assume
        (LinesOperation engine config Assume session sessionId path lines createIfMissing state)
        (writeEdited engine config osInfo sessionId path edited) := by
    intro osInfo edited hedits
    obtain ⟨newContent, added⟩ := edited
    cases newContent with
    | none => trivial
    | some content =>
      refine Performs.bind ?_ fun _ => trivial
      exact writeFileWithPrivilegeFallback_performs engine config hsession
        (hedits content rfl) osInfo
  unfold ensureLinesInFile
  refine Performs.bind ⟨.getOSInfo, fun _ _ => trivial⟩ fun osInfo => ?_
  refine Performs.bind (Ensures.weaken (probe_performs engine hsession _ sessionId path)
    fun op hop => ensureOperation_of_asserted hop) fun fileExists => ?_
  split
  · have hread := readFile_ensures engine config hsession sessionId path "utf8" none
    refine (hread.weaken fun op hop => ensureOperation_of_asserted hop).bind ?_ fun _ _ => trivial
    intro fileContent hpass
    refine hwrite osInfo _ fun content hcontent => .inl ⟨fun henforce => ?_, fileContent, hcontent⟩
    refine (hpass _ rfl).resolve_left fun hexplain => ?_
    rw [hexplain] at henforce
    cases henforce
  · split
    · trivial
    · next hstate =>
      split
      · trivial
      · next hcreate =>
        refine hwrite osInfo _ fun content hcontent => .inr ⟨?_, ?_, hcontent⟩
        · cases state with
          | present => rfl
          | absent => exact absurd rfl hstate
        · simpa using hcreate

/-! ### Patches -/

/-- A command is behind a decision that permits it, where decisions are enforced. -/
def CommandPasses (mode : PolicyMode) (script : Script) : Prop :=
  mode = .enforce → engine.Permits (commandContext script mode)

/-- The temporary file of a patch may be written. -/
def StagesPatch (mode : PolicyMode) (diff temp : String) : Prop :=
  mode = .enforce → engine.Permits (pathContext .fsWrite temp mode) ∧
    diff.utf8ByteSize ≤ config.maxFileWriteBytes

/-- The write of `applyPatch`: the temporary file, once the patch program was found. -/
inductive PatchWrite (mode : PolicyMode) (diff : String) : String → String → Prop
  | temp (hfound : CommandPasses engine mode (.which "patch")) (osInfo : OSInfo) (time : ℕ) :
      PatchWrite mode diff (patchTempFile osInfo time) diff

/-- The commands of `applyPatch`. All but the first come after the write. -/
inductive PatchCommand (mode : PolicyMode) (path diff : String) : PolicyContext → Script → Prop
  | find : PatchCommand mode path diff (commandContext (.which "patch") mode) (.which "patch")
  | staged {osInfo : OSInfo} {time : ℕ} (hfound : CommandPasses engine mode (.which "patch"))
      (hstaged : StagesPatch engine config mode diff (patchTempFile osInfo time))
      {context : PolicyContext} {script : Script}
      (h : context = commandContext (.patchDryRun path (patchTempFile osInfo time)) mode ∧
          script = .patchDryRun path (patchTempFile osInfo time) ∨
        CommandPasses engine mode (.patchDryRun path (patchTempFile osInfo time)) ∧
          context = commandContext (.patch path (patchTempFile osInfo time)) mode ∧
          script = .patch path (patchTempFile osInfo time) ∨
        context = sudoContext (.patch path (patchTempFile osInfo time)) mode
            (privilegedOptions .patchApply path true) ∧
          script = .patch path (patchTempFile osInfo time) ∨
        ∃ windows, context = commandContext (.discard (patchTempFile osInfo time) windows) mode ∧
          script = .discard (patchTempFile osInfo time) windows) :
      PatchCommand mode path diff context script

/-- What `applyPatch` does. -/
abbrev PatchOperation (Assume : Event → Prop) (session : Session) (sessionId path diff : String) :
    Operation → Prop :=
  EnsureOperation engine config Assume session sessionId
    (PatchCommand engine config session.policyMode path diff)
    (PatchWrite engine session.policyMode diff)

variable {diff : String}

theorem Passes.command {engine : PolicyEngine rt} {script : Script}
    {result : Except Failure α} {a : α}
    (h : Passes engine session (commandContext script session.policyMode) result)
    (hresult : result = .ok a) : CommandPasses engine session.policyMode script := by
  intro henforce
  refine (h a hresult).resolve_left fun hexplain => ?_
  rw [hexplain] at henforce
  cases henforce

/-- **What the application of a staged patch performs.** -/
theorem runPatch_performs (hsession : Looks Assume session) {osInfo : OSInfo} {time : ℕ}
    (hfound : CommandPasses engine session.policyMode (.which "patch"))
    (hstaged : StagesPatch engine config session.policyMode diff (patchTempFile osInfo time)) :
    Performs Assume (PatchOperation engine config Assume session sessionId path diff)
      (runPatch engine config sessionId path (patchTempFile osInfo time)) := by
  have hcommand : ∀ script, Ensures Assume _ _ _ := fun script =>
    execCommand_ensures engine config hsession sessionId script none [] none
  unfold runPatch
  refine ((hcommand _).weaken fun op hop => ensureOperation_of_guarded
    (.staged hfound hstaged (.inl ⟨rfl, rfl⟩)) hop).bind ?_ fun _ _ => trivial
  intro testResult htest
  have htested := Passes.command htest rfl
  split
  · trivial
  refine Performs.bind (((hcommand _).mono fun _ _ => trivial).weaken fun op hop =>
    ensureOperation_of_guarded
      (.staged hfound hstaged (.inr (.inl ⟨htested, rfl, rfl⟩))) hop) fun directResult => ?_
  split
  · trivial
  · have hsudo := execSudo_performs engine config hsession sessionId
      (.patch path (patchTempFile osInfo time)) none none none
      (privilegedOptions .patchApply path true)
    refine Performs.bind (hsudo.weaken fun op hop => ensureOperation_of_guarded
      (.staged hfound hstaged (.inr (.inr (.inl ⟨rfl, rfl⟩)))) hop) fun _ => trivial

/-- **What `applyPatch` performs.** -/
theorem applyPatch_performs (hsession : Looks Assume session) (sessionId path diff : String) :
    Performs Assume (PatchOperation engine config Assume session sessionId path diff)
      (applyPatch engine config sessionId path diff) := by
  unfold applyPatch
  refine Performs.bind ⟨.getOSInfo, fun _ _ => trivial⟩ fun osInfo => ?_
  have hexists : Ensures Assume (PatchOperation engine config Assume session sessionId path diff)
      (fun result => result = .ok true → CommandPasses engine session.policyMode (.which "patch"))
      (commandExists engine config sessionId "patch") := by
    have hwhich := execCommand_ensures engine config hsession sessionId
      (.which "patch") none [] none
    refine Ensures.tryCatch (Q := Passes engine session
      (commandContext (.which "patch") session.policyMode)) ?_ (fun _ h _ => h.command rfl)
      fun _ _ h => nomatch h
    exact (hwhich.weaken fun op hop => ensureOperation_of_guarded .find hop).bind
      (fun result hresult _ _ => hresult result rfl) fun _ _ _ h => nomatch h
  refine hexists.bind ?_ fun _ _ => trivial
  intro hasPatch hfound
  split
  · trivial
  next hhas =>
  have hfound := hfound (by simpa using hhas)
  refine ⟨.lookup trivial, fun time _ => ?_⟩
  -- all that follows is done only if the temporary file was written
  have hwrite := writeFile_ensures engine config hsession sessionId
    (patchTempFile osInfo time) diff none
  refine (hwrite.weaken fun op hop => ensureOperation_of_write (.temp hfound osInfo time) hop).bind
    ?_
    fun _ _ => trivial
  intro _ hends
  have hstaged : StagesPatch engine config session.policyMode diff (patchTempFile osInfo time) := by
    intro henforce
    refine hends.resolve_left fun hexplain => ?_
    rw [hexplain] at henforce
    cases henforce
  refine Performs.tryFinally (runPatch_performs engine config hsession hfound hstaged) ?_
  have hdiscard := execCommand_performs engine config hsession sessionId
    (.discard (patchTempFile osInfo time) (osInfo.platform = .windows)) none [] none
  refine Performs.tryCatch (Performs.bind (hdiscard.weaken fun op hop => ?_) fun _ => trivial)
    fun _ => trivial
  exact ensureOperation_of_guarded
    (.staged hfound hstaged (.inr (.inr (.inr ⟨_, rfl, rfl⟩)))) hop

end Ssh
