import McpSshTool.Remote.Executor

/-!
# The capability check of the executor

The executor checks the capability that an envelope names and runs the tool that it names, and does
not compare the two. `performs_iff` says what it takes for a tool to have an effect, and
`performs_only_enabled_iff` when that is within the policy: for an envelope whose capability is the
one of its tool, always; for any other tool that the executor knows there is a policy that the
envelope gets around (`capability_must_match_iff`).
-/

open Library

namespace Remote

/-- Whether a call does something for a tool: all do, but the check of a working directory. -/
def OsCall.isEffect : OsCall → Bool
  | .access _ => false
  | _ => true

section Effects

variable (nt : NumberText) (host : Host) (os : Os) (policy : AgentPolicy)
  (action : ActionRequestEnvelope)

/-- The execution of an action has an effect. -/
def Performs : Prop :=
  ∃ call ∈ (executeAllowed host os policy nt action).calls, call.isEffect = true

/-- The text an argument is taken as, where its conversion does not throw. -/
def argText (key : String) : Option String :=
  (((Value.obj action.args).member key).orElse (.str "")).toText nt

/-- The number an argument is taken as. -/
def argNumber (key : String) (default : ℕ) : Option JsNumber :=
  (((Value.obj action.args).member key).orElse (.int default)).toNumber nt

/-- The working directory that the arguments name. -/
def argCwd : Option (Option String) :=
  let cwd := (Value.obj action.args).member "cwd"
  if cwd.truthy then (cwd.toText nt).map some else some none

/-- A working directory that the operating system lets the agent have. -/
def CwdOk (cwd : Option String) : Prop :=
  ∀ dir, cwd = some dir → dir ≠ "" → os.access dir = .ok ()

/-- A log target that the executor lets through. -/
def LogTargetOk (target : String) : Prop :=
  target ≠ "" ∧ if isLogFileTarget target then isPathAllowed policy target = true
    else isSafeIdentifier target = true

/-- A service that the executor lets through. -/
def ServiceOk (service : String) : Prop :=
  service ≠ "" ∧ isServiceAllowed policy service = true ∧ isSafeIdentifier service = true

/-- A container that the executor lets through. -/
def ContainerOk (container : String) : Prop :=
  container ≠ "" ∧ isContainerAllowed policy container = true ∧ isSafeIdentifier container = true

/-- **What a tool itself asks of its arguments**, whatever capabilities are enabled. -/
def Admits : RemoteToolName → Prop
  | .get_system_status => True
  | .tail_logs =>
    ∃ target, argText nt action "unit_or_file" = some target ∧ LogTargetOk policy target
  | .restart_service =>
    ∃ service, argText nt action "service" = some service ∧ ServiceOk policy service
  | .docker_ps => True
  | .docker_logs => ∃ container, argText nt action "container" = some container ∧
      (argNumber nt action "lines" 100).isSome ∧ ContainerOk policy container
  | .docker_restart => ∃ container, argText nt action "container" = some container ∧
      ContainerOk policy container
  | .file_read => ∃ path, argText nt action "path" = some path ∧ isPathAllowed policy path = true
  | .file_write => ∃ path, argText nt action "path" = some path ∧
      (argText nt action "content").isSome ∧ isPathAllowed policy path = true
  | .run_shell => ∃ cwd, (argText nt action "command").isSome ∧ argCwd nt action = some cwd ∧
      CwdOk os cwd
  | .run_shell_as_root => ∃ cwd, (argText nt action "command").isSome ∧
      argCwd nt action = some cwd ∧ host.windows = false ∧
      ((host.uid.any fun uid => uid ≠ 0) = false → CwdOk os cwd)
  -- the executor does not know the other tools
  | _ => False

/-- An envelope that passes everything but the check of a capability. -/
def Admissible : Prop :=
  (argNumber nt action "timeout_seconds" policy.maxActionTimeoutSeconds).isSome ∧
    Admits nt host os policy action action.tool

end Effects

/-! ### When a tool has an effect -/

/-- A part of an execution has an effect. -/
def HasEffect {α : Type} (x : Exec α) : Prop := ∃ call ∈ x.calls, call.isEffect = true

theorem hasEffect_refuse {α : Type} (code : RemoteErrorCode) (message : String) :
    ¬ HasEffect (refuse code message : Exec α) := Traced.makes_fail

theorem hasEffect_perform {α : Type} (call : OsCall) (answer : Except Failure α) :
    HasEffect (.perform call answer) ↔ call.isEffect = true := Traced.makes_perform

theorem hasEffect_runCommand (os : Os) (command : Command) (cwd : Option String)
    (timeoutSeconds : JsNumber) (maxOutputBytes : ℕ) :
    HasEffect (runCommand os command cwd timeoutSeconds maxOutputBytes) :=
  (hasEffect_perform _ _).mpr rfl

theorem hasEffect_require_bind {α β : Type} (e : Failure) (a : Option α) (f : α → Exec β) :
    HasEffect (Traced.require e a >>= f) ↔ ∃ x, a = some x ∧ HasEffect (f x) :=
  Traced.makes_require_bind

theorem hasEffect_assertSafeIdentifier_bind {β : Type} (value label : String) (f : Unit → Exec β) :
    HasEffect (assertSafeIdentifier value label >>= f) ↔
      isSafeIdentifier value = true ∧ HasEffect (f ()) := by
  unfold assertSafeIdentifier
  split
  · next h =>
    rw [Traced.bind_of_ok rfl]
    exact (and_iff_right h).symm
  · next h => exact iff_of_false (hasEffect_refuse _ _) fun hx => h hx.1

theorem hasEffect_checkCwd_bind {β : Type} (os : Os) (cwd : Option String) (f : Unit → Exec β) :
    HasEffect (checkCwd os cwd >>= f) ↔ CwdOk os cwd ∧ HasEffect (f ()) := by
  unfold checkCwd CwdOk
  cases cwd with
  | none =>
    show HasEffect (f ()) ↔ _
    simp
  | some dir =>
    by_cases hdir : dir = ""
    · subst hdir
      show HasEffect (f ()) ↔ _
      simp
    · have hfilter : (some dir).filter (fun dir => decide (dir ≠ "")) = some dir := by
        simp [Option.filter, hdir]
      rw [hfilter]
      -- a look at the directory is no effect, so that it comes to what follows
      have hlook : ¬HasEffect (Traced.perform (OsCall.access dir)
          ((os.access dir).mapError Failure.system)) :=
        fun h => Bool.false_ne_true ((hasEffect_perform _ _).mp h)
      refine Traced.makes_bind.trans ((or_iff_right hlook).trans ?_)
      change (∃ a, (os.access dir).mapError Failure.system = .ok a ∧ HasEffect (f a)) ↔ _
      cases haccess : os.access dir with
      | error =>
        constructor
        · rintro ⟨a, h, -⟩
          cases h
        · intro h
          have hok := h.1 dir rfl hdir
          rw [haccess] at hok
          cases hok
      | ok =>
        constructor
        · rintro ⟨_, -, h⟩
          refine ⟨fun dir' hdir' _ => ?_, h⟩
          rw [← Option.some.inj hdir']
          exact haccess
        · exact fun h => ⟨(), rfl, h.2⟩

section Tools

variable (nt : NumberText) (host : Host) (os : Os) (policy : AgentPolicy)

theorem hasEffect_tailLogs (target : String) (timeoutSeconds : JsNumber) :
    HasEffect (tailLogs host os policy target timeoutSeconds) ↔ LogTargetOk policy target := by
  unfold tailLogs LogTargetOk
  by_cases htarget : target = ""
  · simp [htarget, hasEffect_refuse]
  · cases hfile : isLogFileTarget target with
    | true =>
      cases hpath : isPathAllowed policy target with
      | false => simp [htarget, hasEffect_refuse]
      | true => cases host.windows <;> simp [htarget, hasEffect_runCommand]
    | false =>
      cases host.windows <;>
        simp [htarget, hasEffect_assertSafeIdentifier_bind, hasEffect_runCommand]

theorem hasEffect_restartService (service : String) (timeoutSeconds : JsNumber) :
    HasEffect (restartService host os policy service timeoutSeconds) ↔
      ServiceOk policy service := by
  unfold restartService ServiceOk
  by_cases hservice : service = ""
  · simp [hservice, hasEffect_refuse]
  · cases hallowed : isServiceAllowed policy service with
    | false => simp [hasEffect_refuse]
    | true =>
      simp [hservice, hasEffect_assertSafeIdentifier_bind, hasEffect_runCommand]

theorem hasEffect_onContainer (container : String) (args : List String)
    (timeoutSeconds : JsNumber) :
    HasEffect (onContainer os policy container args timeoutSeconds) ↔
      ContainerOk policy container := by
  unfold onContainer ContainerOk
  by_cases hcontainer : container = ""
  · simp [hcontainer, hasEffect_refuse]
  · cases hallowed : isContainerAllowed policy container with
    | false => simp [hasEffect_refuse]
    | true =>
      simp [hcontainer, hasEffect_assertSafeIdentifier_bind, hasEffect_runCommand]

theorem hasEffect_fileRead (path : String) :
    HasEffect (fileRead os policy path) ↔ isPathAllowed policy path = true := by
  unfold fileRead
  cases isPathAllowed policy path with
  | false => simp [hasEffect_refuse]
  | true => simp [hasEffect_perform, OsCall.isEffect]

theorem hasEffect_fileWrite (path content : String) :
    HasEffect (fileWrite os policy path content) ↔ isPathAllowed policy path = true := by
  unfold fileWrite
  cases isPathAllowed policy path with
  | false => simp [hasEffect_refuse]
  | true => simp [hasEffect_perform, OsCall.isEffect]

theorem hasEffect_runShell (command : String) (cwd : Option String) (timeoutSeconds : JsNumber) :
    HasEffect (runShell host os policy command cwd timeoutSeconds) ↔ CwdOk os cwd := by
  unfold runShell
  rw [hasEffect_checkCwd_bind]
  simp [hasEffect_runCommand]

theorem hasEffect_runShellAsRoot (command : String) (cwd : Option String)
    (timeoutSeconds : JsNumber) :
    HasEffect (runShellAsRoot host os policy command cwd timeoutSeconds) ↔
      host.windows = false ∧ ((host.uid.any fun uid => uid ≠ 0) = false → CwdOk os cwd) := by
  unfold runShellAsRoot
  cases host.windows with
  | true => simp [hasEffect_refuse]
  | false =>
    cases host.uid.any fun uid => uid ≠ 0 with
    | true => simp [hasEffect_runCommand]
    | false => simp [hasEffect_runShell]

theorem hasEffect_cwdArg_bind {β : Type} (action : ActionRequestEnvelope)
    (f : Option String → Exec β) :
    HasEffect (cwdArg nt action >>= f) ↔ ∃ cwd, argCwd nt action = some cwd ∧
      HasEffect (f cwd) := by
  unfold cwdArg argCwd
  simp only
  split
  · exact hasEffect_require_bind _ _ _
  · show HasEffect (f none) ↔ _
    simp

/-- **When the execution of an action has an effect**: the capability it names is enabled, and the
rest of it passes. -/
theorem performs_iff (action : ActionRequestEnvelope) :
    Performs nt host os policy action ↔
      policy.capabilities action.capability = true ∧ Admissible nt host os policy action := by
  show HasEffect (executeAllowed host os policy nt action) ↔ _
  unfold executeAllowed Admissible
  cases hcapability : policy.capabilities action.capability with
  | false => simp [hasEffect_refuse]
  | true =>
    -- an argument that is read and not used must be there
    have hnumber : ∀ {α : Type} {a : Option α} {p : Prop}, (∃ x, a = some x ∧ p) ↔
      a.isSome ∧ p := by
      intro α a p
      cases a <;> simp
    simp only [Bool.not_true, Bool.false_eq_true, if_false, true_and]
    unfold numberArg textArg
    rw [hasEffect_require_bind]
    change (∃ x, argNumber nt action "timeout_seconds" policy.maxActionTimeoutSeconds =
      some x ∧ _) ↔ _
    rw [← hnumber]
    refine exists_congr fun wish => and_congr_right fun _ => ?_
    cases action.tool with
    | get_system_status => exact iff_of_true (hasEffect_runCommand _ _ _ _ _) trivial
    | docker_ps => simp [Admits, hasEffect_runCommand]
    | tail_logs =>
      simp only [hasEffect_require_bind, hasEffect_tailLogs]
      rfl
    | restart_service =>
      simp only [hasEffect_require_bind, hasEffect_restartService]
      rfl
    | docker_logs =>
      simp only [hasEffect_require_bind, dockerLogs, hasEffect_onContainer, hnumber]
      rfl
    | docker_restart =>
      simp only [hasEffect_require_bind, dockerRestart, hasEffect_onContainer]
      rfl
    | file_read =>
      simp only [hasEffect_require_bind, hasEffect_fileRead]
      rfl
    | file_write =>
      simp only [hasEffect_require_bind, hasEffect_fileWrite, hnumber]
      rfl
    | run_shell =>
      simp only [hasEffect_require_bind, hasEffect_cwdArg_bind, hasEffect_runShell, hnumber]
      simp only [Admits, exists_and_left]
      rfl
    | run_shell_as_root =>
      simp only [hasEffect_require_bind, hasEffect_cwdArg_bind, hasEffect_runShellAsRoot, hnumber]
      simp only [Admits, exists_and_left]
      rfl
    | _ => simp [Admits, hasEffect_refuse]

end Tools

/-! ### The law of the capability map -/

/-- **When a tool has an effect only if its capability is enabled**: unless the capability that the
envelope names is enabled, the capability of its tool is not, and everything else passes. -/
theorem performs_only_enabled_iff (nt : NumberText) (host : Host) (os : Os) (policy : AgentPolicy)
    (action : ActionRequestEnvelope) :
    (Performs nt host os policy action → policy.capabilities (toolCapabilityMap action.tool) =
      true) ↔
      ¬ (policy.capabilities action.capability = true ∧
        policy.capabilities (toolCapabilityMap action.tool) = false ∧
        Admissible nt host os policy action) := by
  rw [performs_iff]
  constructor
  · rintro h ⟨hnamed, hneeded, hadmissible⟩
    rw [h ⟨hnamed, hadmissible⟩] at hneeded
    exact absurd hneeded (by simp)
  · rintro h ⟨hnamed, hadmissible⟩
    by_contra hneeded
    exact h ⟨hnamed, by simpa using hneeded, hadmissible⟩

/-- The tools that the executor runs. -/
def executorTools : List RemoteToolName :=
  [.get_system_status, .tail_logs, .restart_service, .docker_ps, .docker_logs, .docker_restart,
    .file_read, .file_write, .run_shell, .run_shell_as_root]

/-- An operating system on which every call goes through. -/
def quietOs : Os where
  spawn _ _ _ _ := .ok (.closed (some 0) false [] [])
  readFile _ _ := .ok []
  writeFile _ _ := .ok ()
  access _ := .ok ()

/-- A policy that enables one capability and nothing but it. -/
def onlyPolicy (capability : RemoteCapability) : AgentPolicy :=
  { profilePolicy .fullAdmin with capabilities := fun c => c = capability }

/-- A request with arguments that every tool takes, without a signature. -/
def unsignedRequest (tool : RemoteToolName) (capability : RemoteCapability) :
    ActionRequestEnvelope where
  action_id := "act_1"
  agent_id := "agt_1"
  user_id := "usr_1"
  tool := tool
  capability := capability
  args := [("unit_or_file", .str "web"), ("service", .str "web"), ("container", .str "web"),
    ("path", .str "/tmp/a"), ("command", .str "id")]
  policy_version := 1
  issued_at := "1970-01-01T00:00:00.000Z"
  deadline := "1970-01-01T00:00:00.900Z"
  nonce := "0123456789abcdef"
  signature := ""

/-- The request, as the control plane signs it. -/
def sampleRequest (tool : RemoteToolName) (capability : RemoteCapability) : ActionRequestEnvelope :=
  { unsignedRequest tool capability with
    signature := signEnvelope samplePlatform (unsignedRequest tool capability).toFields "plane" }

theorem admissible_sampleRequest {tool : RemoteToolName} (htool : tool ∈ executorTools)
    (capability : RemoteCapability) :
    Admissible samplePlatform.numberText { windows := false, uid := some 0 } quietOs
      (onlyPolicy capability) (sampleRequest tool capability) := by
  refine ⟨rfl, ?_⟩
  show Admits _ _ _ _ _ tool
  simp only [executorTools, List.mem_cons, List.not_mem_nil, or_false] at htool
  rcases htool with rfl | rfl | rfl | rfl | rfl | rfl | rfl | rfl | rfl | rfl
  · trivial
  · exact ⟨"web", rfl, by decide, rfl⟩
  · exact ⟨"web", rfl, by decide, rfl, rfl⟩
  · trivial
  · exact ⟨"web", rfl, rfl, by decide, rfl, rfl⟩
  · exact ⟨"web", rfl, by decide, rfl, rfl⟩
  · exact ⟨"/tmp/a", rfl, rfl⟩
  · exact ⟨"/tmp/a", rfl, rfl, rfl⟩
  · exact ⟨none, rfl, rfl, fun dir h => absurd h (by simp)⟩
  · exact ⟨none, rfl, rfl, rfl, fun _ dir h => absurd h (by simp)⟩

/-- **Which envelopes keep to every policy**: of the tools that the executor runs, those that name
the capability of their tool. -/
theorem capability_must_match_iff {tool : RemoteToolName} (htool : tool ∈ executorTools)
    (capability : RemoteCapability) :
    (∀ nt host os policy action, action.tool = tool → action.capability = capability →
      Performs nt host os policy action → policy.capabilities (toolCapabilityMap tool) = true) ↔
      capability = toolCapabilityMap tool := by
  constructor
  · intro h
    have hperforms := (performs_iff _ _ _ _ _).mpr
      ⟨decide_eq_true (show capability = capability from rfl),
        admissible_sampleRequest htool capability⟩
    have henabled := h _ _ _ _ (sampleRequest tool capability) rfl rfl hperforms
    exact (of_decide_eq_true henabled).symm
  · rintro rfl nt host os policy action rfl hcapability hperforms
    rw [← hcapability]
    exact ((performs_iff nt host os policy action).mp hperforms).1

/-- **A tool that the policy disables**: the envelope of a root shell names the capability to read
the system, which the profile `read-only` enables. -/
theorem disabled_tool_performs :
    verifyEnvelope samplePlatform (sampleRequest .run_shell_as_root .systemRead).toFields "plane"
        = true ∧
      (profilePolicy .readOnly).capabilities (toolCapabilityMap .run_shell_as_root) = false ∧
      (executeAllowed { windows := false, uid := some 0 } quietOs (profilePolicy .readOnly)
        samplePlatform.numberText (sampleRequest .run_shell_as_root .systemRead)).calls =
          [.spawn "/bin/sh" ["-lc", "id"] none (.fin 120)] := by
  decide +kernel

end Remote
