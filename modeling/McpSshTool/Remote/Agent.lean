import McpSshTool.Library.ExpiringMap
import McpSshTool.Remote.Policy

/-!
# The agent process

`runAgent` of `agent-cli.ts`: one process of the agent, which has one connection to the control
plane and ends when it closes. Between two messages the process is an `AgentProcess`; a message is a
`Delivery`, with the readings of the clock that its handler takes.

* `onmessage` — the handler, up to the point where it waits for the executor;
* `Installs`, `Executes` — when a message makes the agent install a policy or invoke its executor;
* `onmessage_cases` — there is nothing else a message does.

The handler checks an action, remembers it and invokes the executor without waiting in between, so
messages do not interleave before that point. The configuration file is written whenever the
configuration changes, so the model does not tell the two apart.
-/

open Library

namespace Remote

/-! ### The state of the process -/

/-- The configuration file, as far as a running agent reads it. -/
structure AgentConfig where
  agentId : String
  privateKeyPem : String
  controlPlanePublicKeyPem : String
  policy : AgentPolicy

/-- The fields of an `AgentExecutor`. -/
structure AgentExecutor where
  policy : AgentPolicy
  privateKeyPem : String

def AgentExecutor.updatePolicy (policy : AgentPolicy) (executor : AgentExecutor) : AgentExecutor :=
  { executor with policy := policy }

/-- An invocation of the executor, with the policy it held. -/
structure Execution where
  action : ActionRequestEnvelope
  policy : AgentPolicy

/-- A process of the agent. The executor holds the policy of the configuration. -/
structure AgentProcess where
  config : AgentConfig
  executor : AgentExecutor
  seenActions : ExpiringMap String ℤ
  /-- The invocations of the executor so far, oldest first. -/
  executed : List Execution
  executor_policy : executor.policy = config.policy

/-- A message, absent where it is not JSON, and the readings of the clock while it is handled. -/
structure Delivery where
  payload : Option Value
  /-- The reading that the deadline of an action is compared with. -/
  now : ℤ
  /-- The reading that `rememberAction` takes. -/
  later : ℤ

namespace AgentProcess

/-- A process that has just connected. -/
def start (config : AgentConfig) : AgentProcess where
  config := config
  executor := { policy := config.policy, privateKeyPem := config.privateKeyPem }
  seenActions := .empty
  executed := []
  executor_policy := rfl

variable (platform : Platform)

/-- The hello that a process sends when its connection opens. -/
def hello (config : AgentConfig) (now : ℤ) (nonce agentVersion : String)
    (host : AgentHostMetadata) :
    AgentHelloEnvelope :=
  let hello : AgentHelloEnvelope :=
    { agent_id := config.agentId
      timestamp := platform.toISOString now
      nonce := nonce
      capabilities := remoteCapabilities.filter fun c => config.policy.capabilities c
      agent_version := agentVersion
      host := host
      signature := "" }
  { hello with signature := signEnvelope platform hello.toFields config.privateKeyPem }

/-! ### The handler of messages -/

/-- The bound of `seenActions`. -/
def maxSeenActions : ℕ := 10000

def rememberAction (now : ℤ) (actionId deadline : String) (seenActions : ExpiringMap String ℤ) :
    Bool × ExpiringMap String ℤ :=
  -- executed already, and still before its deadline
  if (seenActions.prune now).contains actionId then (false, seenActions.prune now)
  else
    (true, seenActions.remember now actionId (platform.getTime deadline) maxSeenActions
      fun id => id = "")

/-- An update that verifies is installed, in the configuration and in the executor. -/
def onPolicyUpdate (update : PolicyUpdateEnvelope AgentPolicy) (p : AgentProcess) : AgentProcess :=
  if update.agent_id = p.config.agentId ∧
      verifyEnvelope platform (update.toFields fun policy => .obj policy.toFields)
        p.config.controlPlanePublicKeyPem = true then
    { p with
      config := { p.config with policy := update.policy }
      executor := p.executor.updatePolicy update.policy
      executor_policy := rfl }
  else p

/-- An action that passes the checks is remembered and executed. -/
def onActionRequest (now later : ℤ) (action : ActionRequestEnvelope) (p : AgentProcess) :
    AgentProcess :=
  if action.agent_id ≠ p.config.agentId ∨ p.seenActions.contains action.action_id = true then p
  -- at the millisecond of its deadline it still runs
  else if platform.getTime action.deadline < now then p
  -- the action may be one policy version ahead
  else if action.policy_version ≠ p.config.policy.version ∧
      action.policy_version ≠ p.config.policy.version + 1 then p
  else if !verifyEnvelope platform action.toFields p.config.controlPlanePublicKeyPem then p
  else
    { p with
      seenActions := (rememberAction platform later action.action_id action.deadline
        p.seenActions).2
      executed := p.executed ++ [⟨action, p.executor.policy⟩] }

/-- `ws.onmessage`. A handler that throws leaves the process as it was. -/
def onmessage (p : AgentProcess) (d : Delivery) : AgentProcess :=
  match d.payload with
  | none => p
  | some record =>
    if !record.isRecord then p
    else if (record.member "type").asString = some "policy.update" then
      match policyUpdateEnvelopeSchema platform record with
      | none => p
      | some update => p.onPolicyUpdate platform update
    else if (record.member "type").asString ≠ some "action.request" then p
    else
      match actionRequestEnvelopeSchema platform record with
      | none => p
      | some action => p.onActionRequest platform d.now d.later action

/-! ### What a message does -/

/-- The envelope that a message of a type is read as. -/
def envelopeOf {α : Type} (type : String) (schema : Schema α) (payload : Option Value) : Option α :=
  payload.bind fun record =>
    if record.isRecord = true ∧ (record.member "type").asString = some type then schema record
    else none

/-- The policy update that a message is read as. -/
def updateOf (payload : Option Value) : Option (PolicyUpdateEnvelope AgentPolicy) :=
  envelopeOf "policy.update" (policyUpdateEnvelopeSchema platform) payload

/-- The action request that a message is read as. -/
def requestOf (payload : Option Value) : Option ActionRequestEnvelope :=
  envelopeOf "action.request" (actionRequestEnvelopeSchema platform) payload

/-- An update is genuine for an agent: it names it, and the control plane has signed it. -/
def GenuineUpdate (config : AgentConfig) (update : PolicyUpdateEnvelope AgentPolicy) : Prop :=
  update.agent_id = config.agentId ∧
    verifyEnvelope platform (update.toFields fun policy => .obj policy.toFields)
      config.controlPlanePublicKeyPem = true

/-- A request is genuine for an agent. -/
def GenuineRequest (config : AgentConfig) (action : ActionRequestEnvelope) : Prop :=
  action.agent_id = config.agentId ∧
    verifyEnvelope platform action.toFields config.controlPlanePublicKeyPem = true

instance (config : AgentConfig) (update : PolicyUpdateEnvelope AgentPolicy) :
    Decidable (GenuineUpdate platform config update) :=
  inferInstanceAs (Decidable (_ ∧ _))

instance (config : AgentConfig) (action : ActionRequestEnvelope) :
    Decidable (GenuineRequest platform config action) :=
  inferInstanceAs (Decidable (_ ∧ _))

/-- A message makes the agent install a policy. -/
def Installs (p : AgentProcess) (d : Delivery) (update : PolicyUpdateEnvelope AgentPolicy) : Prop :=
  updateOf platform d.payload = some update ∧ GenuineUpdate platform p.config update

/-- **A message makes the agent invoke its executor.** -/
structure Executes (p : AgentProcess) (d : Delivery) (action : ActionRequestEnvelope) : Prop where
  request : requestOf platform d.payload = some action
  genuine : GenuineRequest platform p.config action
  unseen : p.seenActions.get? action.action_id = none
  inTime : d.now ≤ platform.getTime action.deadline
  version : action.policy_version = p.config.policy.version ∨
    action.policy_version = p.config.policy.version + 1

/-- The process after it has installed a policy. -/
def install (policy : AgentPolicy) (p : AgentProcess) : AgentProcess :=
  { p with
    config := { p.config with policy := policy }
    executor := p.executor.updatePolicy policy
    executor_policy := rfl }

/-- The process after it has remembered an action and invoked the executor. -/
def perform (later : ℤ) (action : ActionRequestEnvelope) (p : AgentProcess) : AgentProcess :=
  { p with
    seenActions := (rememberAction platform later action.action_id action.deadline p.seenActions).2
    executed := p.executed ++ [⟨action, p.config.policy⟩] }

section Cases

variable {platform} {p : AgentProcess} {d : Delivery}

/-- A message is an update, or a request, or of no effect. -/
theorem onmessage_eq (platform : Platform) (p : AgentProcess) (d : Delivery) :
    p.onmessage platform d =
      match updateOf platform d.payload, requestOf platform d.payload with
      | some update, _ => p.onPolicyUpdate platform update
      | none, some action => p.onActionRequest platform d.now d.later action
      | none, none => p := by
  unfold onmessage updateOf requestOf envelopeOf
  cases d.payload with
  | none => rfl
  | some record =>
    by_cases hrecord : record.isRecord = true
    · by_cases hupdate : (record.member "type").asString = some "policy.update"
      · simp only [hrecord, hupdate, Option.bind_some]
        cases policyUpdateEnvelopeSchema platform record <;> simp
      · by_cases hrequest : (record.member "type").asString = some "action.request"
        · simp only [hrecord, hrequest, Option.bind_some]
          cases actionRequestEnvelopeSchema platform record <;> simp
        · simp [hrecord, hupdate, hrequest]
    · simp [hrecord]

theorem envelopeOf_eq_some {α : Type} {type : String} {schema : Schema α} {payload : Option Value}
    {a : α} (h : envelopeOf type schema payload = some a) :
    ∃ record, payload = some record ∧ record.isRecord = true ∧
      (record.member "type").asString = some type ∧ schema record = some a := by
  obtain ⟨record, rfl, hread⟩ := Option.bind_eq_some_iff.mp h
  split at hread
  · next htype => exact ⟨record, rfl, htype.1, htype.2, hread⟩
  · exact absurd hread (by simp)

theorem requestOf_of_updateOf {payload : Option Value} {update : PolicyUpdateEnvelope AgentPolicy}
    (h : updateOf platform payload = some update) : requestOf platform payload = none := by
  obtain ⟨record, rfl, -, htype, -⟩ := envelopeOf_eq_some h
  unfold requestOf envelopeOf
  simp [htype]

/-- The checks of an action, in one condition. -/
theorem onActionRequest_eq (now later : ℤ) (action : ActionRequestEnvelope) :
    p.onActionRequest platform now later action =
      if GenuineRequest platform p.config action ∧
          p.seenActions.contains action.action_id = false ∧
          now ≤ platform.getTime action.deadline ∧
          (action.policy_version = p.config.policy.version ∨
            action.policy_version = p.config.policy.version + 1)
      then p.perform platform later action else p := by
  unfold onActionRequest GenuineRequest
  have hperform : { p with
      seenActions :=
        (rememberAction platform later action.action_id action.deadline p.seenActions).2
      executed := p.executed ++ [⟨action, p.executor.policy⟩] } =
      p.perform platform later action := by
    rw [perform, ← p.executor_policy]
  rw [hperform]
  by_cases hid : action.agent_id = p.config.agentId
  · by_cases hseen : p.seenActions.contains action.action_id = true
    · simp [hseen]
    · by_cases htime : platform.getTime action.deadline < now
      · simp [htime, not_le.mpr htime]
      · rw [if_neg (by simp [hid, hseen]), if_neg htime]
        by_cases hversion : action.policy_version = p.config.policy.version ∨
            action.policy_version = p.config.policy.version + 1
        · rw [if_neg (by tauto)]
          by_cases hverify : verifyEnvelope platform action.toFields
              p.config.controlPlanePublicKeyPem = true
          · simp [hid, hseen, hversion, hverify, not_lt.mp htime]
          · simp [hverify]
        · rw [if_pos (by tauto), if_neg (by tauto)]
  · simp [hid]

theorem onmessage_of_installs {update : PolicyUpdateEnvelope AgentPolicy}
    (h : Installs platform p d update) : p.onmessage platform d = p.install update.policy := by
  rw [onmessage_eq, h.1]
  exact if_pos h.2

theorem onmessage_of_executes {action : ActionRequestEnvelope} (h : Executes platform p d action) :
    p.onmessage platform d = p.perform platform d.later action := by
  have hupdate : updateOf platform d.payload = none := by
    cases hu : updateOf platform d.payload with
    | none => rfl
    | some => exact absurd (h.request.symm.trans (requestOf_of_updateOf hu)) (by simp)
  rw [onmessage_eq, hupdate, h.request]
  exact (onActionRequest_eq _ _ action).trans
    (if_pos ⟨h.genuine, OrderedMap.contains_eq_false.mpr h.unseen, h.inTime, h.version⟩)

/-- **There is nothing else a message does.** -/
theorem onmessage_cases (platform : Platform) (p : AgentProcess) (d : Delivery) :
    (∃ update, Installs platform p d update ∧ p.onmessage platform d = p.install update.policy) ∨
    (∃ action, Executes platform p d action ∧
      p.onmessage platform d = p.perform platform d.later action) ∨
    ((∀ update, ¬ Installs platform p d update) ∧ (∀ action, ¬ Executes platform p d action) ∧
      p.onmessage platform d = p) := by
  by_cases hinstalls : ∃ update, Installs platform p d update
  · obtain ⟨update, h⟩ := hinstalls
    exact .inl ⟨update, h, onmessage_of_installs h⟩
  by_cases hexecutes : ∃ action, Executes platform p d action
  · obtain ⟨action, h⟩ := hexecutes
    exact .inr (.inl ⟨action, h, onmessage_of_executes h⟩)
  refine .inr (.inr ⟨not_exists.mp hinstalls, not_exists.mp hexecutes, ?_⟩)
  rw [onmessage_eq]
  cases hu : updateOf platform d.payload with
  | some update => exact if_neg fun hgenuine => hinstalls ⟨update, hu, hgenuine⟩
  | none =>
    cases hr : requestOf platform d.payload with
    | none => rfl
    | some action =>
      show p.onActionRequest platform d.now d.later action = p
      rw [onActionRequest_eq, if_neg]
      rintro ⟨hgenuine, hunseen, htime, hversion⟩
      have hunseen := OrderedMap.contains_eq_false.mp hunseen
      exact hexecutes ⟨action, hr, hgenuine, hunseen, htime, hversion⟩

theorem onmessage_identity (platform : Platform) (p : AgentProcess) (d : Delivery) :
    (p.onmessage platform d).config =
      { p.config with policy := (p.onmessage platform d).config.policy } := by
  rcases onmessage_cases platform p d with ⟨update, -, h⟩ | ⟨action, -, h⟩ | ⟨-, -, h⟩ <;>
    rw [h] <;> rfl

end Cases

/-! ### An agent to evaluate on -/

/-- An agent with the profile `operations`. -/
def sampleConfig : AgentConfig where
  agentId := "agt_1"
  privateKeyPem := "agent"
  controlPlanePublicKeyPem := "plane"
  policy := profilePolicy .operations

/-- An envelope that arrives whole, at a reading of the clock. -/
def arriving (envelope : Fields) (t : ℤ) : Delivery where
  payload := some (.obj envelope)
  now := t
  later := t

/-- A request for the system status with the last moments of 1970's first second to run in, as the
control plane signs it. -/
def sampleAction (actionId : String) : ActionRequestEnvelope :=
  let action : ActionRequestEnvelope :=
    { action_id := actionId
      agent_id := "agt_1"
      user_id := "usr_1"
      tool := .get_system_status
      capability := .systemRead
      args := []
      policy_version := 1
      issued_at := "1970-01-01T00:00:00.000Z"
      deadline := "1970-01-01T00:00:00.900Z"
      nonce := "0123456789abcdef"
      signature := "" }
  { action with signature := signEnvelope samplePlatform action.toFields "plane" }

end AgentProcess
end Remote
