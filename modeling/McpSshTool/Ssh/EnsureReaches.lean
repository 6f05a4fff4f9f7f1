import McpSshTool.Ssh.EnsurePerforms
import McpSshTool.Ssh.Reaches

/-!
# What the ensure service comes to

The other side of `EnsurePerforms`: in a live session in mode `enforce`, each operation of the
ensure service gets to its commands and writes, once the decisions on the way permit.

* `ensurePackage_reaches`, `ensureService_reaches` — the command that changes the host;
* `ensureLinesInFile_reaches` — the write of an edited content; `fallback_reaches_direct` and
  `fallback_reaches_staged` — the two ways in which it is made;
* `applyPatch_reaches` — the write of the patch, and the commands that apply it.
-/

open Library

namespace Ssh

open Program

variable {rt : Runtime} {engine : PolicyEngine rt} {config : ServerConfig}
variable {Assume : Event → Prop} {P : Operation → Prop} {session : Session}
variable (config) (halive : Alive Assume session) (henforce : session.policyMode = .enforce)
include halive henforce

/-! ### Packages and system services -/

/-- The check of a package finds it only where it is permitted, and may always miss it. -/
theorem checkPackageInstalled_yields (sessionId name : String) (pm : PackageManager)
    {installed : Bool} (hfound : installed = true → ∃ text, checkCommand pm name = some text ∧
      engine.Permits (commandContext (.checkPackage text) .enforce)) :
    Yields Assume (checkPackageInstalled engine config sessionId name pm) (.ok installed) := by
  unfold checkPackageInstalled
  cases hcommand : checkCommand pm name with
  | none =>
    cases installed with
    | false => rfl
    | true =>
      obtain ⟨text, htext, -⟩ := hfound rfl
      rw [hcommand] at htext
      cases htext
  | some text =>
    by_cases hpermits : engine.Permits (commandContext (.checkPackage text) .enforce)
    · -- the code of the check tells
      have hcode : (if installed then 0 else 1) ∉ terminationCodes := by cases installed <;> decide
      obtain ⟨result, hresult, hyields⟩ := execCommand_yields config halive henforce
        sessionId hpermits none assertValidEnvironment_nil none hcode
      refine Yields.tryCatch_ok (hyields.bind ?_)
      rw [hresult]
      cases installed with
      | false => rfl
      | true => rfl
    · cases installed with
      | false =>
        have hdenied : Yields Assume _ _ := execCommand_denied config halive henforce
          sessionId hpermits none [] none
        exact Yields.tryCatch_error hdenied.bind_error rfl
      | true =>
        obtain ⟨text', htext, hpermits'⟩ := hfound rfl
        rw [hcommand] at htext
        obtain rfl := Option.some.inj htext
        exact absurd hpermits' hpermits

theorem setPackage_reaches (sessionId : String) {command : String} {state : Presence}
    {pm : PackageManager} (hpermits : engine.Permits (packageContext state pm command .enforce))
    (hP : ∀ op : Operation, op.script? = some (.setPackage command) → P op) :
    Reaches Assume P (setPackage engine config sessionId command pm (packageOptions state)) := by
  unfold packageContext at hpermits
  unfold setPackage
  split
  · next hbrew =>
    rw [if_pos hbrew] at hpermits
    exact (execCommand_reaches config halive henforce sessionId hpermits none
      assertValidEnvironment_nil none fun _ _ => hP _ rfl).bind
  · next hother =>
    rw [if_neg hother] at hpermits
    exact (execSudo_reaches config halive henforce sessionId hpermits none none
      fun _ _ => hP _ rfl).bind

/-- **`ensurePackage` gets to the command** that installs or removes the package. -/
theorem ensurePackage_reaches (sessionId : String) {name command : String} {state : Presence}
    {pm : PackageManager} (hvalid : sanitizePackageName name = .ok name)
    (hcommand : packageCommand state pm name = .ok command)
    (hfound : state = .absent → ∃ text, checkCommand pm name = some text ∧
      engine.Permits (commandContext (.checkPackage text) .enforce))
    (hpermits : engine.Permits (packageContext state pm command .enforce))
    (hP : ∀ op : Operation, op.script? = some (.setPackage command) → P op) :
    Reaches Assume P (ensurePackage engine config sessionId name state) := by
  have hset : Reaches Assume P _ := setPackage_reaches config halive henforce sessionId hpermits hP
  have hknown : pm ≠ .unknown := by
    rintro rfl
    cases state with
    | present => cases hcommand
    | absent => cases hcommand
  have hcheck : Yields Assume (checkPackageInstalled engine config sessionId name pm)
      (.ok (state = .absent)) :=
    checkPackageInstalled_yields config halive henforce sessionId name pm fun h =>
      hfound (of_decide_eq_true h)
  unfold ensurePackage
  rw [hvalid]
  refine halive.reaches_sessionOr
    (halive.reaches_getOSInfo { linuxHost with packageManager := pm } ?_)
  change Reaches Assume P (if _ then _ else _)
  rw [if_neg hknown, if_neg Platform.noConfusion]
  refine hcheck.reaches_bind ?_
  cases state with
  | present =>
    change Reaches Assume P (ofExcept (getInstallCommand pm name) >>= _)
    rw [show getInstallCommand pm name = .ok command from hcommand]
    exact hset
  | absent =>
    change Reaches Assume P (ofExcept (getRemoveCommand pm name) >>= _)
    rw [show getRemoveCommand pm name = .ok command from hcommand]
    exact hset

/-- **`ensureService` gets to its command.** -/
theorem ensureService_reaches (sessionId : String) {name : String} {state : ServiceState}
    {initSystem : InitSystem} (hvalid : sanitizeServiceName name = .ok name)
    (hinit : initSystem ∈ managedInitSystems)
    (hpermits : engine.Permits
      (sudoContext (.setService (serviceCommand initSystem name state)) .enforce
        (serviceOptions state)))
    (hP : ∀ op : Operation,
      op.script? = some (.setService (serviceCommand initSystem name state)) → P op) :
    Reaches Assume P (ensureService engine config sessionId name state) := by
  have hne : ∀ other ∉ managedInitSystems, initSystem ≠ other := fun other hother h =>
    hother (h ▸ hinit)
  unfold ensureService
  rw [hvalid]
  refine halive.reaches_sessionOr
    (halive.reaches_getOSInfo { linuxHost with init := initSystem } ?_)
  change Reaches Assume P (if _ then _ else _)
  rw [if_neg (hne _ (by decide)), if_neg (hne _ (by decide)), if_neg (hne _ (by decide))]
  exact (execSudo_reaches config halive henforce sessionId hpermits none none
    fun _ _ => hP _ rfl).bind

/-! ### Lines -/

omit halive henforce in
theorem permits_fsStat_of_fsRead {path : String} {mode : PolicyMode}
    (h : engine.Permits (pathContext .fsRead path mode)) :
    engine.Permits (pathContext .fsStat path mode) := by
  unfold pathContext at h ⊢
  rw [engine.permits_paths_iff (by decide)] at h ⊢
  exact h

omit henforce in
theorem writeFile_missing (sessionId path data : String) :
    Yields Assume (writeFile engine config sessionId path data) (.error (noSession sessionId)) :=
  ⟨none, halive.gone sessionId, rfl⟩

omit halive henforce in
theorem isPermissionError_congr {e e' : Failure} (hcode : e.code = e'.code)
    (hmessage : e.message = e'.message) : isPermissionError e = isPermissionError e' := by
  unfold isPermissionError describeError
  rw [hcode, hmessage]

omit halive henforce in
theorem isPermissionError_wrapped (hint : Option String) :
    isPermissionError (wrapError (plainError "permission") .EFS hint) = true := by
  have h : isPermissionError (.other (some (.named "EFS")) "permission") = true := by decide +kernel
  rw [← h]
  exact isPermissionError_congr rfl rfl

/-- Where a write may fall back, it may fail with an error that is taken to be about permissions. -/
theorem writeFile_fallsBack (sessionId : String) {path data : String}
    (hfits : data.utf8ByteSize ≤ config.maxFileWriteBytes) (h : MayFallBack engine sessionId path) :
    ∃ e, isPermissionError e = true ∧
      Yields Assume (writeFile engine config sessionId path data) (.error e) := by
  by_cases hpermits : engine.Permits (pathContext .fsWrite path .enforce)
  · -- the host does not permit it
    refine ⟨_, ?_, writeFile_fails config halive henforce hpermits hfits sessionId
      (plainError "permission")⟩
    exact isPermissionError_wrapped _
  · rcases h with hwrite | hmissing | hdenial
    · exact absurd hwrite hpermits
    · exact ⟨_, hmissing, writeFile_missing config halive sessionId path data⟩
    · exact ⟨_, hdenial, writeFile_denied config halive henforce sessionId data hpermits⟩

omit halive henforce in
theorem fallback_reaches_direct (osInfo : OSInfo) {sessionId path content : String}
    (h : Reaches Assume P (writeFile engine config sessionId path content)) :
    Reaches Assume P
      (writeFileWithPrivilegeFallback engine config osInfo sessionId path content true) :=
  Reaches.andThen h.bind

omit henforce in
/-- The way by a temporary file. -/
theorem fallback_reaches_staged (osInfo : OSInfo) (time : ℕ) {sessionId path content : String}
    {e : Failure} (he : isPermissionError e = true)
    (hfails : Yields Assume (writeFile engine config sessionId path content) (.error e))
    (h : Reaches Assume P (writeFile engine config sessionId (linesTempFile osInfo time) content) ∨
      Yields Assume (writeFile engine config sessionId (linesTempFile osInfo time) content)
        (.ok true) ∧
      Reaches Assume P (execSudo engine config sessionId (.move (linesTempFile osInfo time) path)
        none none none (privilegedOptions .ensureLines path true))) :
    Reaches Assume P
      (writeFileWithPrivilegeFallback engine config osInfo sessionId path content true) := by
  unfold writeFileWithPrivilegeFallback
  refine hfails.bind_error.reaches ?_
  change Reaches Assume P (if _ then _ else _)
  rw [if_neg (by rw [he]; decide)]
  refine halive.reaches_now time ?_
  rcases h with hstage | ⟨hstaged, hmove⟩
  · exact Reaches.bind (Reaches.andThen hstage.bind)
  · refine Yields.reaches_bind (Yields.tryCatch_ok (hstaged.bind rfl)) ?_
    exact hmove.bind

/-- **`ensureLinesInFile` gets to the write** of whatever it may come to write. -/
theorem ensureLinesInFile_reaches (hlawful : rt.Lawful) (sessionId : String) {path content : String}
    {lines : List String} {createIfMissing : Bool} {state : Presence}
    (hedits : EditsTo engine .enforce path lines createIfMissing state content) (osInfo : OSInfo)
    (h : Reaches Assume P
      (writeFileWithPrivilegeFallback engine config osInfo sessionId path content true)) :
    Reaches Assume P
      (ensureLinesInFile engine config sessionId path lines createIfMissing state) := by
  have hwrite : ∀ edited : Option String × ℤ, edited.1 = some content →
      Reaches Assume P (writeEdited engine config osInfo sessionId path edited) := by
    rintro ⟨newContent, added⟩ rfl
    exact h.bind
  unfold ensureLinesInFile
  refine halive.reaches_getOSInfo osInfo ?_
  rcases hedits with ⟨hread, fileContent, hcontent⟩ | ⟨rfl, rfl, hcontent⟩
  · -- the file is found with that content
    have hpermits := hread rfl
    refine (pathExists_yields_true halive henforce sessionId
      (permits_fsStat_of_fsRead hpermits)).reaches_bind ?_
    refine (readFile_yields config halive henforce hlawful sessionId hpermits
      fileContent).reaches_bind ?_
    exact hwrite _ hcontent
  · -- the file is missing, or must not be looked at
    refine (pathExists_yields_false halive henforce sessionId path).reaches_bind ?_
    exact hwrite _ hcontent

/-! ### Patches -/

theorem commandExists_yields (sessionId : String) {command : String}
    (hpermits : engine.Permits (commandContext (.which command) .enforce)) :
    Yields Assume (commandExists engine config sessionId command) (.ok true) := by
  obtain ⟨result, hresult, hyields⟩ := execCommand_yields config halive henforce sessionId hpermits
    none assertValidEnvironment_nil none (show 0 ∉ terminationCodes by decide)
  refine Yields.tryCatch_ok (hyields.bind ?_)
  rw [hresult]
  rfl

/-- **`applyPatch` gets to the write of the patch**, and past it. -/
theorem applyPatch_reaches (sessionId path diff : String)
    (hfound : engine.Permits (commandContext (.which "patch") .enforce))
    (osInfo : OSInfo) (time : ℕ)
    (h : Reaches Assume P (writeFile engine config sessionId (patchTempFile osInfo time) diff) ∨
      Yields Assume (writeFile engine config sessionId (patchTempFile osInfo time) diff)
        (.ok true) ∧
      Reaches Assume P (runPatch engine config sessionId path (patchTempFile osInfo time))) :
    Reaches Assume P (applyPatch engine config sessionId path diff) := by
  have hexists : Yields Assume (commandExists engine config sessionId "patch") (.ok true) :=
    commandExists_yields config halive henforce sessionId hfound
  unfold applyPatch
  refine halive.reaches_getOSInfo osInfo (hexists.reaches_bind (halive.reaches_now time ?_))
  rcases h with hwrite | ⟨hwritten, hrun⟩
  · exact hwrite.bind
  · exact hwritten.reaches_bind (Reaches.andThen hrun)

/-- A staged patch gets applied, once it was tried. -/
theorem runPatch_reaches (sessionId : String) {path temp : String}
    (htested : engine.Permits (commandContext (.patchDryRun path temp) .enforce))
    (hpermits : engine.Permits (commandContext (.patch path temp) .enforce))
    (hP : ∀ op : Operation, op.script? = some (.patch path temp) → P op) :
    Reaches Assume P (runPatch engine config sessionId path temp) := by
  obtain ⟨result, hresult, hyields⟩ := execCommand_yields config halive henforce sessionId htested
    none assertValidEnvironment_nil none (show 0 ∉ terminationCodes by decide)
  unfold runPatch
  refine hyields.reaches_bind ?_
  change Reaches Assume P (if _ then _ else _)
  rw [if_neg (not_not_intro hresult)]
  exact (execCommand_reaches config halive henforce sessionId hpermits none
    assertValidEnvironment_nil none fun _ _ => hP _ rfl).bind

end Ssh
