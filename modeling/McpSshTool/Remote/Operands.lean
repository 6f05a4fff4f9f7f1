import McpSshTool.Remote.ExecutorCapability

/-!
# Operands and options

Whether an operand that a caller names can be read as an option by the program it is passed to. The
executor passes operands as they are, without a `--` before them, to `systemctl`, `docker` and
`tail`.

* `OsCall.operand` — the operand in an argument vector;
* `operandArg` — the operand that a request names;
* `operands_safe_iff` — no operand is read as an option, unless the request is let through and names
  one that begins with a hyphen.

The pattern of identifiers has the hyphen among its characters, also as the first one, and a path
may begin with one where the policy has a relative path.
-/

open Library

namespace Remote

/-- The operand that a caller has named in an argument vector for `systemctl`, `docker` or `tail`.
It is the last argument; the list of containers has none. -/
def OsCall.operand : OsCall → Option String
  | .spawn command args _ _ =>
    if ["systemctl", "docker", "tail"].contains command && args != ["ps", "--format", "json"] then
      args.getLast?
    else none
  | _ => none

/-- A program reads such an argument as an option. -/
def IsOption (argument : String) : Prop := argument.toList.head? = some '-'

/-- The call passes an operand that is read as an option. -/
def OsCall.PassesOption (call : OsCall) : Prop := ∃ operand, call.operand = some operand ∧
    IsOption operand

/-- A part of an execution passes an operand that is read as an option. -/
abbrev Injects {α : Type} (x : Exec α) : Prop := Traced.Makes OsCall.PassesOption x

/-- The operand that a request names, for the tools that pass one on. -/
def operandArg (nt : NumberText) (action : ActionRequestEnvelope) : Option String :=
  match action.tool with
  | .tail_logs => (argText nt action "unit_or_file").filter isLogFileTarget
  | .restart_service => argText nt action "service"
  | .docker_logs | .docker_restart => argText nt action "container"
  | _ => none

section Tools

variable (nt : NumberText) (host : Host) (os : Os) (policy : AgentPolicy)

theorem not_injects_refuse {α : Type} (code : RemoteErrorCode) (message : String) :
    ¬Injects (refuse code message : Exec α) := Traced.makes_fail

section Commands

variable {os} {command : Command} {cwd : Option String} {timeoutSeconds : JsNumber}
  {maxOutputBytes : ℕ}

theorem injects_runCommand {operand : String}
    (h : (OsCall.spawn command.command command.args cwd timeoutSeconds).operand = some operand) :
    Injects (runCommand os command cwd timeoutSeconds maxOutputBytes) ↔ IsOption operand := by
  refine Traced.makes_perform.trans ?_
  unfold OsCall.PassesOption
  rw [h]
  simp only [Option.some.injEq, exists_eq_left']

theorem not_injects_runCommand
    (h : (OsCall.spawn command.command command.args cwd timeoutSeconds).operand = none) :
    ¬Injects (runCommand os command cwd timeoutSeconds maxOutputBytes) := by
  intro hinjects
  obtain ⟨operand, hoperand, -⟩ := Traced.makes_perform.mp hinjects
  rw [h] at hoperand
  cases hoperand

end Commands

theorem injects_assertSafeIdentifier_bind {β : Type} (value label : String) (f : Unit → Exec β) :
    Injects (assertSafeIdentifier value label >>= f) ↔
      isSafeIdentifier value = true ∧ Injects (f ()) := by
  unfold assertSafeIdentifier
  split
  · next h =>
    rw [Traced.bind_of_ok rfl]
    exact (and_iff_right h).symm
  · next h => exact iff_of_false (not_injects_refuse _ _) fun hx => h hx.1

theorem operand_platformShell (hposix : host.windows = false) (command : String)
    (cwd : Option String) (timeoutSeconds : JsNumber) :
    (OsCall.spawn (platformShell host command).command (platformShell host command).args cwd
      timeoutSeconds).operand = none := by
  unfold platformShell
  rw [hposix]
  rfl

theorem injects_tailLogs (hposix : host.windows = false) (target : String)
    (timeoutSeconds : JsNumber) :
    Injects (tailLogs host os policy target timeoutSeconds) ↔
      LogTargetOk policy target ∧ isLogFileTarget target = true ∧ IsOption target := by
  unfold tailLogs LogTargetOk
  by_cases htarget : target = ""
  · rw [if_pos htarget]
    exact iff_of_false (not_injects_refuse _ _) fun h => h.1.1 htarget
  · rw [if_neg htarget, hposix]
    cases hfile : isLogFileTarget target with
    | true =>
      cases hpath : isPathAllowed policy target with
      | false =>
        refine iff_of_false (not_injects_refuse _ _) fun h => ?_
        exact absurd h.1.2 Bool.false_ne_true
      | true => exact (injects_runCommand rfl).trans (by simp [htarget])
    | false =>
      -- a unit is passed to `journalctl`
      refine iff_of_false ?_ fun h => absurd h.2.1 Bool.false_ne_true
      intro h
      obtain ⟨-, h⟩ := (injects_assertSafeIdentifier_bind _ _ _).mp h
      exact not_injects_runCommand rfl h

theorem injects_restartService (hposix : host.windows = false) (service : String)
    (timeoutSeconds : JsNumber) :
    Injects (restartService host os policy service timeoutSeconds) ↔
      ServiceOk policy service ∧ IsOption service := by
  unfold restartService ServiceOk
  rw [hposix]
  by_cases hservice : service = ""
  · rw [if_pos (by simp [hservice])]
    exact iff_of_false (not_injects_refuse _ _) fun h => h.1.1 hservice
  · cases hallowed : isServiceAllowed policy service with
    | false =>
      rw [if_pos (by simp)]
      exact iff_of_false (not_injects_refuse _ _) fun h => absurd h.1.2.1 Bool.false_ne_true
    | true =>
      -- the check of identifiers lets a dash through at the front
      rw [if_neg (by simp [hservice]), injects_assertSafeIdentifier_bind]
      rw [show Injects _ ↔ IsOption service from injects_runCommand rfl]
      simp [hservice]

theorem injects_onContainer {container : String} {args : List String} {timeoutSeconds : JsNumber}
    (h : (OsCall.spawn "docker" args none timeoutSeconds).operand = some container) :
    Injects (onContainer os policy container args timeoutSeconds) ↔
      ContainerOk policy container ∧ IsOption container := by
  unfold onContainer ContainerOk
  by_cases hcontainer : container = ""
  · rw [if_pos (by simp [hcontainer])]
    exact iff_of_false (not_injects_refuse _ _) fun h => h.1.1 hcontainer
  · cases hallowed : isContainerAllowed policy container with
    | false =>
      rw [if_pos (by simp)]
      exact iff_of_false (not_injects_refuse _ _) fun h => absurd h.1.2.1 Bool.false_ne_true
    | true =>
      rw [if_neg (by simp [hcontainer]), injects_assertSafeIdentifier_bind,
        show Injects _ ↔ IsOption container from injects_runCommand h]
      simp [hcontainer]

theorem not_injects_fileRead (path : String) : ¬Injects (fileRead os policy path) := by
  unfold fileRead
  split
  · exact not_injects_refuse _ _
  · rintro h
    obtain ⟨operand, hoperand, -⟩ := Traced.makes_perform.mp h
    cases hoperand

theorem not_injects_fileWrite (path content : String) :
    ¬Injects (fileWrite os policy path content) := by
  unfold fileWrite
  split
  · exact not_injects_refuse _ _
  · rintro h
    obtain ⟨operand, hoperand, -⟩ := Traced.makes_perform.mp h
    cases hoperand

theorem not_injects_runShell (hposix : host.windows = false) (command : String)
    (cwd : Option String) (timeoutSeconds : JsNumber) :
    ¬Injects (runShell host os policy command cwd timeoutSeconds) := by
  intro h
  obtain h | ⟨-, -, h⟩ := Traced.makes_bind.mp h
  · -- the check of a working directory passes no operand
    unfold checkCwd at h
    split at h
    · obtain ⟨call, hcall, -⟩ := h
      exact absurd hcall List.not_mem_nil
    · obtain ⟨operand, hoperand, -⟩ := Traced.makes_perform.mp h
      cases hoperand
  · exact not_injects_runCommand (operand_platformShell host hposix _ _ _) h

theorem not_injects_runShellAsRoot (hposix : host.windows = false) (command : String)
    (cwd : Option String) (timeoutSeconds : JsNumber) :
    ¬Injects (runShellAsRoot host os policy command cwd timeoutSeconds) := by
  unfold runShellAsRoot
  rw [hposix, if_neg Bool.false_ne_true]
  split
  · exact not_injects_runCommand (operand_platformShell host hposix _ _ _)
  · exact not_injects_runShell host os policy hposix command cwd timeoutSeconds

/-- **When an execution passes an operand that is read as an option**: it comes to its tool, and the
operand that it names begins with a hyphen. -/
theorem injects_executeAllowed (hposix : host.windows = false) (action : ActionRequestEnvelope) :
    Injects (executeAllowed host os policy nt action) ↔
      policy.capabilities action.capability = true ∧ Admissible nt host os policy action ∧
        ∃ operand, operandArg nt action = some operand ∧ IsOption operand := by
  unfold executeAllowed
  cases hcapability : policy.capabilities action.capability with
  | false =>
    exact iff_of_false (not_injects_refuse _ _) fun h => absurd h.1 Bool.false_ne_true
  | true =>
    rw [if_neg (by simp), and_iff_right rfl]
    refine Traced.makes_require_bind.trans ?_
    unfold Admissible
    -- what is left is the same for every number of seconds
    have hwish : ∀ {p : JsNumber → Prop} {q : Prop}, (∀ wish, p wish ↔ q) →
        ((∃ wish, argNumber nt action "timeout_seconds" policy.maxActionTimeoutSeconds = some wish ∧
          p wish) ↔
          (argNumber nt action "timeout_seconds" policy.maxActionTimeoutSeconds).isSome ∧ q) := by
      intro p q h
      cases argNumber nt action "timeout_seconds" policy.maxActionTimeoutSeconds with
      | none => simp
      | some => simp [h]
    rw [and_assoc]
    refine hwish fun wish => ?_
    have hnone : ∀ {x : Exec ExecResult} {p : Prop}, ¬Injects x →
        (Injects x ↔ p ∧ ∃ operand, (none : Option String) = some operand ∧ IsOption operand) :=
      fun h => iff_of_false h fun ⟨_, _, hoperand, _⟩ => nomatch hoperand
    have htext : ∀ {key : String} {f : String → Exec ExecResult},
        Injects (textArg nt action key >>= f) ↔
          ∃ value, argText nt action key = some value ∧ Injects (f value) :=
      Traced.makes_require_bind
    have hquiet : ∀ {key : String} {f : String → Exec ExecResult}, (∀ value, ¬Injects (f value)) →
        ¬Injects (textArg nt action key >>= f) := by
      intro key f h hinjects
      obtain ⟨value, -, hvalue⟩ := htext.mp hinjects
      exact h value hvalue
    have hnamed : ∀ {key : String} {f : String → Exec ExecResult} {admits : String → Prop},
        (∀ value, Injects (f value) ↔ admits value ∧ IsOption value) →
          (Injects (textArg nt action key >>= f) ↔
            (∃ value, argText nt action key = some value ∧ admits value) ∧
              ∃ operand, argText nt action key = some operand ∧ IsOption operand) := by
      intro key f admits h
      refine htext.trans ?_
      simp only [h]
      cases argText nt action key with
      | none => simp
      | some => simp
    have hcwd : ∀ {f : Option String → Exec ExecResult}, (∀ cwd, ¬Injects (f cwd)) →
        ¬Injects (cwdArg nt action >>= f) := by
      intro f h hinjects
      unfold cwdArg at hinjects
      dsimp only at hinjects
      split at hinjects
      · obtain ⟨cwd, -, hcwd⟩ := Traced.makes_require_bind.mp hinjects
        exact h cwd hcwd
      · exact h none hinjects
    unfold operandArg
    cases action.tool with
    | get_system_status =>
      exact hnone (not_injects_runCommand (operand_platformShell host hposix _ _ _))
    | docker_ps => exact hnone (not_injects_runCommand rfl)
    | tail_logs =>
      refine htext.trans ?_
      simp only [injects_tailLogs host os policy hposix, Admits]
      cases argText nt action "unit_or_file" with
      | none => simp
      | some => simp [Option.filter_eq_some_iff, and_assoc]
    | restart_service =>
      exact hnamed fun service => injects_restartService host os policy hposix _ _
    | docker_logs =>
      refine hnamed fun container => Traced.makes_require_bind.trans ?_
      have hcontainer : ∀ lines, Injects (dockerLogs os policy nt container lines
          (wish.min (.ofInt policy.maxActionTimeoutSeconds))) ↔
            ContainerOk policy container ∧ IsOption container :=
        fun lines => injects_onContainer os policy rfl
      simp only [hcontainer, exists_and_right, and_assoc]
      exact and_congr_left fun _ => Option.isSome_iff_exists.symm
    | docker_restart => exact hnamed fun container => injects_onContainer os policy rfl
    | file_read => exact hnone (hquiet fun _ => not_injects_fileRead os policy _)
    | file_write =>
      exact hnone (hquiet fun _ => hquiet fun _ => not_injects_fileWrite os policy _ _)
    | run_shell =>
      exact hnone (hquiet fun _ => hcwd fun _ => not_injects_runShell host os policy hposix _ _ _)
    | run_shell_as_root =>
      exact hnone (hquiet fun _ => hcwd fun _ =>
        not_injects_runShellAsRoot host os policy hposix _ _ _)
    | _ => exact hnone (not_injects_refuse _ _)

end Tools

/-- **When no operand is read as an option.** On POSIX, whatever the policy and the arguments: no
service, container or log path that a caller names begins with a hyphen in the argument vector it
comes to, exactly when the request is not let through with such an operand. -/
theorem operands_safe_iff (nt : NumberText) (host : Host) (os : Os) (policy : AgentPolicy)
    (action : ActionRequestEnvelope) (hposix : host.windows = false) :
    (∀ call ∈ (executeAllowed host os policy nt action).calls, ∀ operand,
      call.operand = some operand → ¬IsOption operand) ↔
      ¬(policy.capabilities action.capability = true ∧ Admissible nt host os policy action ∧
        ∃ operand, operandArg nt action = some operand ∧ IsOption operand) := by
  rw [← injects_executeAllowed nt host os policy hposix action]
  constructor
  · rintro h ⟨call, hcall, operand, hoperand, hoption⟩
    exact h call hcall operand hoperand hoption
  · intro h call hcall operand hoperand hoption
    exact h ⟨call, hcall, operand, hoperand, hoption⟩

/-- The request to restart a service. -/
def restartRequest (service : String) : ActionRequestEnvelope :=
  { sampleRequest .restart_service .serviceManage with args := [("service", .str service)] }

/-- The criterion for a service by its name. -/
theorem operands_safe_iff_nginx :
    (∀ call ∈ (executeAllowed { windows := false, uid := some 0 } quietOs (profilePolicy .fullAdmin)
        samplePlatform.numberText (restartRequest "nginx")).calls, ∀ operand,
      call.operand = some operand → ¬IsOption operand) ↔
      ¬((profilePolicy .fullAdmin).capabilities (restartRequest "nginx").capability = true ∧
        Admissible samplePlatform.numberText { windows := false, uid := some 0 } quietOs
          (profilePolicy .fullAdmin) (restartRequest "nginx") ∧
        ∃ operand, operandArg samplePlatform.numberText (restartRequest "nginx") = some operand ∧
          IsOption operand) :=
  operands_safe_iff samplePlatform.numberText { windows := false, uid := some 0 } quietOs
    (profilePolicy .fullAdmin) (restartRequest "nginx") rfl

/-- **An option in the place of a service**: the services of another host are restarted. -/
theorem service_read_as_option :
    (executeAllowed { windows := false, uid := some 0 } quietOs (profilePolicy .fullAdmin)
        samplePlatform.numberText (restartRequest "-Hroot@other")).calls =
          [.spawn "systemctl" ["restart", "-Hroot@other"] none (.fin 120)] ∧
      (OsCall.spawn "systemctl" ["restart", "-Hroot@other"] none (.fin 120)).operand =
        some "-Hroot@other" ∧ IsOption "-Hroot@other" := by
  refine ⟨by decide +kernel, rfl, ?_⟩
  show "-Hroot@other".toList.head? = some '-'
  decide

end Remote
