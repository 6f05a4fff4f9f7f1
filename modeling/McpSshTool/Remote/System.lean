import McpSshTool.Remote.Agent
import McpSshTool.Remote.HelloReplay
import McpSshTool.Remote.PolicyPatch

/-!
# The control plane and one agent

A control plane process and an agent, joined by the connection that the agent has opened. What the
control plane writes on that connection arrives in the order it was written, unless the connection
ends first; a new connection is a new process of the agent, which reads its configuration again.

What the control plane gets from the agent, and from everyone else, are events of its own `Step`:
any message on any connection may arrive at any time, so the system runs with every behaviour of the
other side.

* `System.step` — an event at the control plane, a message that arrives at the agent, a connection
  that opens or ends;
* `mem_written` — the commands among what a step of the control plane writes;
* `updateOf_transport`, `requestOf_transport` — what the agent reads of a command.

A message in flight and an execution carry the view of the agent that the control plane had when it
wrote the message; no step looks at it.
-/

open Library

namespace Remote

/-- A message on its way to the agent, with the view of the agent at the control plane when it was
written. -/
structure InFlight where
  message : ServerMessage
  stored : Option RemoteControlPlane.AgentView

/-- An invocation of the agent's executor, with the view of the agent at the control plane when the
action was dispatched. -/
structure SystemExecution where
  execution : Execution
  stored : Option RemoteControlPlane.AgentView

/-- A control plane and an agent. -/
structure System where
  plane : RemoteControlPlane
  agent : AgentProcess
  /-- The connection of the agent, if it has one. -/
  connection : Option ConnectionId
  /-- What was written on the connection and has not arrived, oldest first. -/
  channel : List InFlight
  /-- What the agent has executed, over all its processes. -/
  executions : List SystemExecution

/-- What the system does next. -/
inductive SystemEvent where
  /-- The control plane takes a step. -/
  | plane (e : Step)
  /-- The agent starts a process, which opens a connection. -/
  | connect (c : ConnectionId)
  /-- The oldest message in flight arrives, at these readings of the agent's clock. -/
  | deliver (now later : ℤ)
  /-- The connection ends, and what is in flight is lost. -/
  | disconnect

namespace System

variable (d : Deployment)

/-- The id of the agent. -/
def agentId (S : System) : String := S.agent.config.agentId

/-- What a step of the control plane writes on the connection of the agent. -/
def written (S : System) (plane : RemoteControlPlane) : List InFlight :=
  ((plane.sent.drop S.plane.sent.length).filter fun e => S.connection = some e.1).map fun e =>
    ⟨e.2, plane.view S.agentId⟩

/-- A message in flight, as it arrives at the agent. -/
def arrival (x : InFlight) (now later : ℤ) : Delivery where
  payload := some x.message.toValue.transport
  now := now
  later := later

/-- The oldest message in flight arrives. -/
def deliver (now later : ℤ) (S : System) : System :=
  match S.channel with
  | [] => S
  | x :: rest =>
    let agent := S.agent.onmessage d.platform (arrival x now later)
    { S with
      agent := agent
      channel := rest
      executions := S.executions ++
        (agent.executed.drop S.agent.executed.length).map fun execution => ⟨execution, x.stored⟩ }

/-- One step of the system. -/
def step (S : System) : SystemEvent → System
  | .plane e =>
    let plane := S.plane.step d e
    { S with plane := plane, channel := S.channel ++ S.written plane }
  | .connect c =>
    { S with
      plane := S.plane.connect c
      agent := AgentProcess.start S.agent.config
      connection := some c
      channel := [] }
  | .deliver now later => S.deliver d now later
  | .disconnect => { S with connection := none, channel := [] }

/-! ### What the control plane writes -/

/-- **A command among what is written** is one that the step has added, on the agent's
connection. -/
theorem mem_written {S : System} {e : Step} {x : InFlight} (hx : x ∈ S.written (S.plane.step d e))
    (hcommand : RemoteControlPlane.isCommand x.message = true)
    {added : List (ConnectionId × ServerMessage)}
    (h : (S.plane.step d e).commands = S.plane.commands ++ added) :
    ∃ c, S.connection = some c ∧ (c, x.message) ∈ added ∧
      x.stored = (S.plane.step d e).view S.agentId := by
  obtain ⟨⟨c, message⟩, hmem, rfl⟩ := List.mem_map.mp hx
  obtain ⟨hsent, hc⟩ := List.mem_filter.mp hmem
  refine ⟨c, of_decide_eq_true hc, ?_, rfl⟩
  rw [← RemoteControlPlane.commands_of_sent (RemoteControlPlane.sent_step d S.plane e) h]
  exact List.mem_filter.mpr ⟨hsent, hcommand⟩

/-! ### What the agent reads -/

theorem nodup_policyUpdate_toFields {Policy : Type} (policyValue : Policy → Value)
    (e : PolicyUpdateEnvelope Policy) : ((e.toFields policyValue).map Prod.fst).Nodup := by
  show policyUpdateKeys.Nodup
  decide

theorem nodup_actionRequest_toFields (e : ActionRequestEnvelope) :
    (e.toFields.map Prod.fst).Nodup := by
  show ["type", "action_id", "agent_id", "user_id", "tool", "capability", "args", "policy_version",
    "issued_at", "deadline", "nonce", "signature"].Nodup
  decide

/-- The type that a message says it is of. -/
def typeOf : ServerMessage → String
  | .error _ _ => "error"
  | .agentReady _ _ => "agent.ready"
  | .policyUpdate _ => "policy.update"
  | .actionRequest _ => "action.request"

/-- The type of a message survives the trip. -/
theorem member_type_transport (message : ServerMessage) :
    message.toValue.transport.member "type" = .str (typeOf message) := by
  cases message with
  | error code =>
    refine Value.member_transport_of_nodup ?_ "type"
    show ["type", "code", "message"].Nodup
    decide
  | agentReady agentId policy =>
    refine Value.member_transport_of_nodup ?_ "type"
    show ["type", "agent_id", "policy"].Nodup
    decide
  | policyUpdate envelope =>
    exact Value.member_transport_of_nodup (nodup_policyUpdate_toFields id envelope) "type"
  | actionRequest envelope =>
    exact Value.member_transport_of_nodup (nodup_actionRequest_toFields envelope) "type"

/-- **What the agent reads of a policy update**: its agent and its policy. -/
theorem updateOf_transport {platform : Platform} {message : ServerMessage}
    {update : PolicyUpdateEnvelope AgentPolicy}
    (h : AgentProcess.updateOf platform (some message.toValue.transport) = some update) :
    ∃ envelope, message = .policyUpdate envelope ∧ update.agent_id = envelope.agent_id ∧
      agentPolicySchema envelope.policy.transport = some update.policy := by
  obtain ⟨record, hrecord, -, htype, hschema⟩ := AgentProcess.envelopeOf_eq_some h
  obtain rfl := Option.some.inj hrecord
  rw [member_type_transport] at htype
  cases message with
  | policyUpdate envelope =>
    have hmember : ∀ k, (ServerMessage.policyUpdate envelope).toValue.transport.member k =
        ((Value.obj (envelope.toFields id)).member k).transport :=
      Value.member_transport_of_nodup (nodup_policyUpdate_toFields id envelope)
    obtain ⟨-, hagent, hpolicy, -⟩ := policyUpdateEnvelopeSchema_eq_some hschema
    rw [hmember] at hagent hpolicy
    exact ⟨envelope, rfl, (Value.str.inj hagent).symm, hpolicy⟩
  | _ => exact absurd htype (by simp [typeOf, Value.asString])

/-- **What the agent reads of an action request**: its id, its agent and its version. -/
theorem requestOf_transport {platform : Platform} {message : ServerMessage}
    {action : ActionRequestEnvelope}
    (h : AgentProcess.requestOf platform (some message.toValue.transport) = some action) :
    ∃ envelope, message = .actionRequest envelope ∧ action.action_id = envelope.action_id ∧
      action.agent_id = envelope.agent_id ∧
      action.policy_version = envelope.policy_version := by
  obtain ⟨record, hrecord, -, htype, hschema⟩ := AgentProcess.envelopeOf_eq_some h
  obtain rfl := Option.some.inj hrecord
  rw [member_type_transport] at htype
  cases message with
  | actionRequest envelope =>
    have hmember : ∀ k, (ServerMessage.actionRequest envelope).toValue.transport.member k =
        ((Value.obj envelope.toFields).member k).transport :=
      Value.member_transport_of_nodup (nodup_actionRequest_toFields envelope)
    obtain ⟨-, haction, hagent, -, -, -, -, hversion, -⟩ :=
      actionRequestEnvelopeSchema_eq_some hschema
    rw [hmember] at haction hagent hversion
    have hversion' : Value.int envelope.policy_version = .int action.policy_version := hversion
    have hcast : envelope.policy_version = action.policy_version := by
      simpa [Value.int, JsNumber.ofInt] using hversion'
    exact ⟨envelope, rfl, (Value.str.inj haction).symm, (Value.str.inj hagent).symm, hcast.symm⟩
  | _ => exact absurd htype (by simp [typeOf, Value.asString])

/-! ### Steps -/

/-- An event leaves the agent its id and its keys. -/
theorem agentId_step (S : System) (e : SystemEvent) : (S.step d e).agentId = S.agentId := by
  cases e with
  | plane => rfl
  | connect => rfl
  | disconnect => rfl
  | deliver now later =>
    show (S.deliver d now later).agent.config.agentId = S.agent.config.agentId
    unfold deliver
    split
    · rfl
    · next x rest _ =>
      show (S.agent.onmessage d.platform (arrival x now later)).config.agentId = _
      rw [AgentProcess.onmessage_identity]

/-! ### A system to evaluate on -/

/-- The sample deployment with its agent, which has the policy it was enrolled with and no
connection. -/
def sampleSystem : System where
  plane := RemoteControlPlane.start sampleStore
  agent := AgentProcess.start AgentProcess.sampleConfig
  connection := none
  channel := []
  executions := []

/-- A tool call by the owner of the sample agent. -/
def ownerCalls (tool : RemoteToolName) (args : Fields) (n : ℕ) : SystemEvent :=
  .plane
    { event := .callTool sampleOwner tool (("agent_id_or_alias", .str "agt_1") :: args)
      moment := sampleMoment n }

/-- The owner updates the policy to the profile `operations`. -/
def ownerUpdates (n : ℕ) : SystemEvent :=
  ownerCalls .update_agent_policy [("policy", .obj [("profile", .str "operations")])] n

/-- The owner asks for the system status, within half a second. -/
def ownerAsks (n : ℕ) : SystemEvent :=
  ownerCalls .get_system_status [("timeout_seconds", .num (.fin (1 / 2)))] n

/-- A hello of the agent arrives at the control plane. -/
def helloArrives (c : ConnectionId) (n : ℕ) : SystemEvent :=
  .plane
    { event := .message c (some (.obj RemoteControlPlane.sampleHello.toFields))
      moment := sampleMoment n }

end System
end Remote
