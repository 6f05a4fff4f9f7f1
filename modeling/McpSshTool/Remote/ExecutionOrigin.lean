import McpSshTool.Remote.ExecutorCapability
import McpSshTool.Remote.Mediation
import McpSshTool.Remote.System

/-!
# Where executions come from

What an agent executes, traced to the tool calls at the control plane. A dispatch is a request that
a step of the control plane has written to the agent, with the state and the step it was written in.

* `received` — a request as it is read at the other end: its arguments have been through JSON;
* `InOrder` — the invariant: what was executed, then what is in flight, is what was dispatched, in
  that order and with gaps;
* `executions_traced` — so in every run the agent executes nothing but what was dispatched to it, in
  the order of the dispatches, and each dispatch was mediated in the state it was made in.

The executor asks the policy for the capability that a request names, not for the one that its tool
needs. A request that was dispatched names the capability of its tool, so for the executions of a
run the two are one.
-/

open Library

namespace Remote

/-- A request as it is read at the other end. -/
def ActionRequestEnvelope.received (request : ActionRequestEnvelope) : ActionRequestEnvelope :=
  { request with args := Value.transportMembers request.args }

namespace System

/-! ### What is read of a request -/

/-- **The agent reads a request as it was written**, up to the trip of its arguments. -/
theorem received_of_requestOf {platform : Platform} {message : ServerMessage}
    {action : ActionRequestEnvelope}
    (h : AgentProcess.requestOf platform (some message.toValue.transport) = some action) :
    ∃ request, message = .actionRequest request ∧ action = request.received := by
  obtain ⟨record, hrecord, -, htype, hschema⟩ := AgentProcess.envelopeOf_eq_some h
  obtain rfl := Option.some.inj hrecord
  rw [member_type_transport] at htype
  cases message with
  | actionRequest request =>
    have hmember : ∀ k, (ServerMessage.actionRequest request).toValue.transport.member k =
        ((Value.obj request.toFields).member k).transport :=
      Value.member_transport_of_nodup (nodup_actionRequest_toFields request)
    obtain ⟨-, haction, hagent, huser, htool, hcapability, hargs, hversion, hissued,
      hdeadline, hnonce,
      hsignature⟩ := actionRequestEnvelopeSchema_eq_some hschema
    rw [hmember] at haction hagent huser htool hcapability hargs
    rw [hmember] at hversion hissued hdeadline hnonce hsignature
    have hversion : Value.int request.policy_version = .int action.policy_version := hversion
    have hversion : request.policy_version = action.policy_version := by
      simpa [Value.int, JsNumber.ofInt] using hversion
    have htool : request.tool = action.tool := RemoteToolName.text_injective (Value.str.inj htool)
    have hcapability : request.capability = action.capability :=
      RemoteCapability.text_injective (Value.str.inj hcapability)
    have hargs : (Value.obj request.args).transport = .obj action.args := hargs
    have hargs : Value.transportMembers request.args = action.args := by
      rw [Value.transport] at hargs
      exact Value.obj.inj hargs
    refine ⟨request, rfl, ?_⟩
    obtain ⟨action_id, agent_id, user_id, tool, capability, args, policy_version,
      issued_at, deadline,
      nonce, signature⟩ := action
    rw [ActionRequestEnvelope.received, hargs, htool, hcapability, hversion,
      show request.action_id = action_id from Value.str.inj haction,
      show request.agent_id = agent_id from Value.str.inj hagent,
      show request.user_id = user_id from Value.str.inj huser,
      show request.issued_at = issued_at from Value.str.inj hissued,
      show request.deadline = deadline from Value.str.inj hdeadline,
      show request.nonce = nonce from Value.str.inj hnonce,
      show request.signature = signature from Value.str.inj hsignature]
  | _ => exact absurd htype (by simp [typeOf, Value.asString])

/-! ### Dispatches -/

/-- **A dispatch**: a request, and the state and the step it was written in. -/
structure Dispatch where
  plane : RemoteControlPlane
  step : Step
  request : ActionRequestEnvelope

/-- The request that a message in flight is. -/
def requestIn (x : InFlight) : Option ActionRequestEnvelope :=
  match x.message with
  | .actionRequest request => some request
  | _ => none

/-- A system, and what was dispatched to its agent, oldest first. -/
structure History where
  system : System
  dispatched : List Dispatch

variable (d : Deployment)

/-- What an event dispatches. -/
def dispatches (S : System) : SystemEvent → List Dispatch
  | .plane e =>
    ((S.written (S.plane.step d e)).filterMap requestIn).map fun request => ⟨S.plane, e, request⟩
  | _ => []

def History.step (w : History) (e : SystemEvent) : History where
  system := w.system.step d e
  dispatched := w.dispatched ++ dispatches d w.system e

/-- The requests that are to come out at the other end: of what is in flight. -/
def arriving (S : System) : List ActionRequestEnvelope :=
  (S.channel.filterMap requestIn).map ActionRequestEnvelope.received

/-- What was executed, oldest first. -/
def actions (S : System) : List ActionRequestEnvelope :=
  S.executions.map fun x => x.execution.action

/-- **The invariant**: what was executed, then what is in flight, is some of what was dispatched, in
its order; and every dispatch was mediated. -/
structure InOrder (w : History) : Prop where
  order : (w.system.actions ++ w.system.arriving).Sublist
    (w.dispatched.map fun x => x.request.received)
  agentId : ∀ x ∈ w.system.executions, x.execution.action.agent_id = w.system.agentId
  mediated : ∀ x ∈ w.dispatched, ∃ c principal args agent live,
    x.plane.Mediated d x.step c x.request principal args agent live

variable {d}

/-! ### One step -/

/-- What is dispatched is written by the step, so it is mediated. -/
theorem mediated_of_mem_dispatches {S : System} {e : SystemEvent} {x : Dispatch}
    (hx : x ∈ dispatches d S e) : ∃ c principal args agent live,
      x.plane.Mediated d x.step c x.request principal args agent live := by
  cases e with
  | plane e =>
    obtain ⟨request, hrequest, rfl⟩ := List.mem_map.mp hx
    obtain ⟨y, hy, hread⟩ := List.mem_filterMap.mp hrequest
    obtain ⟨⟨c, message⟩, hsent, rfl⟩ := List.mem_map.mp hy
    have hmessage : message = .actionRequest request := by
      unfold requestIn at hread
      dsimp only at hread
      split at hread
      · rw [Option.some.inj hread]
      · cases hread
    obtain rfl := hmessage
    obtain ⟨principal, args, agent, live, h⟩ :=
      RemoteControlPlane.mediated_step d S.plane e (List.mem_filter.mp hsent).1
    exact ⟨c, principal, args, agent, live, h⟩
  | _ => cases hx

/-- **What a delivery executes** is what arrives, if it is executed at all. -/
theorem actions_deliver (S : System) (now later : ℤ) :
    ((S.deliver d now later).actions ++ (S.deliver d now later).arriving).Sublist
      (S.actions ++ S.arriving) := by
  unfold deliver
  split
  · exact .refl _
  next x rest hchannel =>
    -- unless the agent executes something, only the channel gets shorter
    have hshorter : ∀ agent : AgentProcess, agent.executed = S.agent.executed →
        (actions { S with
          agent := agent
          channel := rest
          executions := S.executions ++ (agent.executed.drop S.agent.executed.length).map
            fun execution =>
            ⟨execution, x.stored⟩ } ++ (rest.filterMap requestIn).map (·.received)).Sublist
          (S.actions ++ S.arriving) := by
      intro agent hsame
      unfold actions arriving
      rw [hsame, List.drop_length, hchannel]
      simp only [List.map_nil, List.append_nil]
      exact (((List.sublist_cons_self x rest).filterMap requestIn).map _).append_left _
    rcases AgentProcess.onmessage_cases d.platform S.agent (arrival x now later) with
      ⟨update, -, hstep⟩ | ⟨action, h, hstep⟩ | ⟨-, -, hstep⟩
    · rw [hstep]
      exact hshorter (S.agent.install update.policy) rfl
    · obtain ⟨request, hmessage, rfl⟩ := received_of_requestOf h.request
      have hone : (S.agent.perform d.platform later request.received).executed.drop
          S.agent.executed.length = [⟨request.received, S.agent.config.policy⟩] := List.drop_left
      have hread : requestIn x = some request := by
        unfold requestIn
        rw [hmessage]
      rw [hstep]
      unfold actions arriving
      dsimp only
      rw [show (arrival x now later).later = later from rfl, hone, hchannel,
        List.filterMap_cons_some hread]
      simp
    · rw [hstep]
      exact hshorter S.agent rfl

/-- What a delivery executes names the agent. -/
theorem mem_executions_deliver {S : System} {now later : ℤ} {x : SystemExecution}
    (hx : x ∈ (S.deliver d now later).executions) :
    x ∈ S.executions ∨ x.execution.action.agent_id = S.agentId := by
  unfold deliver at hx
  split at hx
  · exact .inl hx
  next y rest _ =>
    refine (List.mem_append.mp hx).imp_right fun hnew => ?_
    obtain ⟨execution, hexecution, rfl⟩ := List.mem_map.mp hnew
    rcases AgentProcess.onmessage_cases d.platform S.agent (arrival y now later) with
      ⟨update, -, hstep⟩ | ⟨action, h, hstep⟩ | ⟨-, -, hstep⟩
    · rw [hstep] at hexecution
      have hnone : (S.agent.install update.policy).executed.drop S.agent.executed.length = [] :=
        List.drop_length
      rw [hnone] at hexecution
      cases hexecution
    · have hone : (S.agent.perform d.platform (arrival y now later).later action).executed.drop
          S.agent.executed.length = [⟨action, S.agent.config.policy⟩] := List.drop_left
      rw [hstep, hone] at hexecution
      rw [List.mem_singleton.mp hexecution]
      exact h.genuine.1
    · rw [hstep, List.drop_length] at hexecution
      cases hexecution

/-- **One event keeps the invariant.** -/
theorem inOrder_step {w : History} (hw : InOrder d w) (e : SystemEvent) :
    InOrder d (w.step d e) := by
  have hmediated : ∀ x ∈ (w.step d e).dispatched, ∃ c principal args agent live,
      x.plane.Mediated d x.step c x.request principal args agent live := by
    intro x hx
    rcases List.mem_append.mp hx with hx | hx
    · exact hw.mediated x hx
    · exact mediated_of_mem_dispatches hx
  -- an event that writes nothing and executes nothing may lose what is in flight
  have hquiet : ∀ S' : System, S'.executions = w.system.executions → S'.channel = [] →
      dispatches d w.system e = [] →
      (S'.actions ++ S'.arriving).Sublist ((w.dispatched ++ dispatches d w.system e).map
        fun x => x.request.received) := by
    intro S' hexecutions hchannel hnone
    unfold actions arriving
    rw [hexecutions, hchannel, hnone, List.append_nil, List.filterMap_nil, List.map_nil,
      List.append_nil]
    exact (List.sublist_append_left _ w.system.arriving).trans hw.order
  cases e with
  | plane e =>
    refine ⟨?_, hw.agentId, hmediated⟩
    show (w.system.actions ++ ((w.system.channel ++
      w.system.written (w.system.plane.step d e)).filterMap requestIn).map
        ActionRequestEnvelope.received).Sublist _
    rw [List.filterMap_append, List.map_append, ← List.append_assoc]
    show List.Sublist _ ((w.dispatched ++ _).map fun x => x.request.received)
    rw [List.map_append]
    refine hw.order.append ?_
    show List.Sublist _ ((((w.system.written _).filterMap requestIn).map _).map _)
    rw [List.map_map]
    exact .refl _
  | connect => exact ⟨hquiet _ rfl rfl rfl, hw.agentId, hmediated⟩
  | disconnect => exact ⟨hquiet _ rfl rfl rfl, hw.agentId, hmediated⟩
  | deliver now later =>
    refine ⟨?_, ?_, hmediated⟩
    · show List.Sublist _ ((w.dispatched ++ []).map _)
      rw [List.append_nil]
      exact (actions_deliver w.system now later).trans hw.order
    · intro x hx
      rw [show (w.step d (.deliver now later)).system.agentId = w.system.agentId from
        agentId_step d w.system _]
      rcases mem_executions_deliver hx with hx | hagent
      · exact hw.agentId x hx
      · exact hagent

/-! ### Every run -/

/-- **Executions are traced to tool calls.** In every run from a system that has executed nothing
and has nothing in flight, what the agent has executed is some of what was dispatched, in the order
it was dispatched; and each dispatch was made for a tool call: its caller owns the agent and holds
the scope of the tool, the agent was not revoked, its stored policy enabled the capability of the
tool, and the request names that capability. So what an execution does, it does under a policy that
enables the capability of its tool. -/
theorem executions_traced (d : Deployment) (S : System) (hexecutions : S.executions = [])
    (hchannel : S.channel = []) (es : List SystemEvent) :
    let w := Run.run (History.step d) ⟨S, []⟩ es
    w.system.actions.Sublist (w.dispatched.map fun x => x.request.received) ∧
      (∀ x ∈ w.dispatched, ∃ c principal args agent live,
        x.plane.Mediated d x.step c x.request principal args agent live) ∧
      ∀ x ∈ w.system.executions, x.execution.action.agent_id = w.system.agentId ∧
        x.execution.action.capability = toolCapabilityMap x.execution.action.tool ∧
        ∀ nt host os, Performs nt host os x.execution.policy x.execution.action →
          x.execution.policy.capabilities (toolCapabilityMap x.execution.action.tool) = true := by
  have hstart : InOrder d ⟨S, []⟩ := by
    refine ⟨?_, fun x hx => ?_, fun x hx => by cases hx⟩
    · unfold actions arriving
      rw [hexecutions, hchannel]
      exact .refl _
    · rw [hexecutions] at hx
      cases hx
  have hw : InOrder d (Run.run (History.step d) ⟨S, []⟩ es) :=
    Run.run_of_preserved (P := InOrder d) (C := fun _ _ => True)
      (fun _ e hw _ => inOrder_step hw e) hstart
      (Run.allSteps_of_forall (fun _ _ => trivial) _ es)
  intro w
  change InOrder d w at hw
  have hsublist := (List.sublist_append_left w.system.actions w.system.arriving).trans hw.order
  refine ⟨hsublist, hw.mediated, fun x hx => ?_⟩
  -- the request of an execution names the capability of its tool, for it was dispatched
  obtain ⟨y, hy, hreceived⟩ := List.mem_map.mp (hsublist.subset (List.mem_map_of_mem hx))
  obtain ⟨c, principal, args, agent, live, h⟩ := hw.mediated y hy
  have hcapability : x.execution.action.capability = toolCapabilityMap x.execution.action.tool := by
    rw [← hreceived]
    exact h.capability
  refine ⟨hw.agentId x hx, hcapability, fun nt host os hperforms => ?_⟩
  rw [← hcapability]
  exact ((performs_iff nt host os _ _).mp hperforms).1

/-- The agent connects and says hello, and its owner asks for its status: that is one dispatch, and
it was made for that call. -/
theorem executions_traced_asked :
    let w := Run.run (History.step sampleDeployment) ⟨sampleSystem, []⟩
      [.connect 0, helloArrives 0 2, ownerAsks 3]
    (w.dispatched.map fun x => (x.request.tool, x.request.user_id)) =
        [(.get_system_status, "usr_1")] ∧
      ∀ x ∈ w.dispatched, ∃ c principal args agent live,
        x.plane.Mediated sampleDeployment x.step c x.request principal args agent live := by
  refine ⟨by decide +kernel, ?_⟩
  exact (executions_traced sampleDeployment sampleSystem rfl rfl
    [.connect 0, helloArrives 0 2, ownerAsks 3]).2.1

end System
end Remote
