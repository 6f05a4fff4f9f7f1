import McpSshTool.Library.Run
import McpSshTool.Remote.ControlPlane.Frame

/-!
# Dispatch is mediated

Which checks stand between a tool call and the `action.request` that an agent gets. The scope of the
caller is checked in `callRemoteTool`, the owner of the agent in `resolveAgent`, the stored policy
in `callAgentTool`, the revocation and the connection in `dispatchAction`; no wait lies between
them, so all of them are about the state in which the request is sent.

* `Mediated` — what holds at the step that sends a request;
* `callRemoteTool_checks` — the checks of the tool call, from a command that it has added;
* `dispatch_mediated` — every request of every run is mediated.
-/

open Library

namespace Remote
namespace RemoteControlPlane

variable (d : Deployment)

/-- **A request is mediated** at the step that sends it over a connection: a principal has called
its tool and holds the tool's capability; the agent it names is the principal's, is not revoked, and
its stored policy enables the capability; the request carries the capability and the stored version,
the control plane has signed it, and the connection is the agent's. -/
structure Mediated (s : RemoteControlPlane) (e : Step) (c : ConnectionId)
    (request : ActionRequestEnvelope) (principal : RemotePrincipal) (args : Fields)
    (agent : RemoteAgentRecord) (live : AgentConnection) : Prop where
  called : e.event = .callTool principal request.tool args
  scope : hasCapability principal.capabilities (toolCapabilityMap request.tool) = true
  stored : s.store.getAgent request.agent_id = some agent
  owner : agent.userId = principal.userId
  notRevoked : agent.status ≠ .revoked
  enabled : ((agent.policy.member "capabilities").member
    (toolCapabilityMap request.tool).text).truthy = true
  capability : request.capability = toolCapabilityMap request.tool
  agentId : request.agent_id = agent.id
  version : request.policy_version = agent.policyVersion
  signed : request.signature =
    signEnvelope d.platform request.toFields d.controlPlaneKeyPair.privateKeyPem
  registered : s.agentConnections.get? agent.id = some live
  connection : live.connection = c

/-! ### The checks of a tool call -/

section Checks

variable {d} {m : Moment} {s : RemoteControlPlane} {principal : RemotePrincipal} {args : Fields}

theorem commands_of_effect {s' : RemoteControlPlane}
    (h : StepEffect d s { event := .cleanup, moment := m } s') : s'.commands = s.commands := by
  cases h with
  | quiet h => exact commands_eq_of_ledger h
  | created _ _ _ _ _ hcommands => exact hcommands
  | policyStored _ _ _ _ hrequest => exact absurd hrequest (by simp [updateRequest])
  | revoked _ _ _ hcommands => exact hcommands
  | dispatched _ _ _ _ _ _ hevent => exact absurd hevent (by simp)

/-- A policy update adds no request. -/
theorem not_request_updateAgentPolicy {agent : RemoteAgentRecord} {value : Value}
    {c : ConnectionId} {request : ActionRequestEnvelope} :
    (s.updateAgentPolicy d m principal agent value).2.commands ≠
      s.commands ++ [(c, .actionRequest request)] := by
  intro h
  rcases updateAgentPolicy_cases d m principal agent value s with
    ⟨policy, -, -, -, hstored⟩ | ⟨-, hsame⟩
  · rw [hstored.commands] at h
    have hadded := List.append_cancel_left h
    unfold policyCommands sentCommand at hadded
    split at hadded
    · exact absurd hadded (by simp)
    · split at hadded <;> exact absurd hadded (by simp)
  · rw [hsame] at h
    exact absurd h (by simp)

/-- The request that a dispatch adds names the agent it was given. -/
theorem agentId_of_dispatchAction {agent : RemoteAgentRecord} {tool : RemoteToolName}
    {capability : RemoteCapability} {c : ConnectionId} {request : ActionRequestEnvelope}
    (h : (s.dispatchAction d m principal agent tool capability args).2.commands =
      s.commands ++ [(c, .actionRequest request)]) : request.agent_id = agent.id := by
  have hsame : s.commands ≠ s.commands ++ [(c, .actionRequest request)] := by simp
  cases dispatchAction_inversion d m s principal agent tool capability args with
  | refused _ heq =>
    rw [heq] at h
    exact absurd h hsame
  | sent live _ deadline _ _ _ _ _ _ _ _ _ _ hstore heq =>
    rw [heq] at h
    dsimp only at h
    rw [commands_sendJson _ rfl] at h
    have hadded := List.append_cancel_left h
    unfold sentCommand at hadded
    split at hadded
    · exact absurd hadded (by simp)
    · have hmessage := (Prod.mk.inj (List.head_eq_of_cons_eq hadded)).2
      rw [← ServerMessage.actionRequest.inj hmessage]
      rfl

/-- **The checks of a tool call** that has added a request: the scope, and the stored policy of the
agent that the request names. -/
theorem callRemoteTool_checks {tool : RemoteToolName} {c : ConnectionId}
    {request : ActionRequestEnvelope}
    (h : (s.callRemoteTool d m principal tool args).2.commands =
      s.commands ++ [(c, .actionRequest request)]) :
    hasCapability principal.capabilities (toolCapabilityMap tool) = true ∧
      ∃ agent, s.store.getAgent request.agent_id = some agent ∧
        ((agent.policy.member "capabilities").member (toolCapabilityMap tool).text).truthy =
          true := by
  have hquiet : ∀ {s' : RemoteControlPlane}, s'.commands = s.commands →
      s'.commands ≠ s.commands ++ [(c, .actionRequest request)] := by
    intro s' hs' hadded
    rw [hs'] at hadded
    exact absurd hadded (by simp)
  cases callRemoteTool_inversion d m s principal tool args with
  | kept heq => exact absurd h (hquiet (congrArg commands heq))
  | tokenCreated _ heq =>
    rw [heq] at h
    exact absurd h (hquiet (commands_of_effect (createEnrollmentToken_effect d s _ principal _)))
  | policyUpdated agent _ _ _ _ heq =>
    rw [heq] at h
    exact absurd h not_request_updateAgentPolicy
  | revoked agent _ hopen hagent heq =>
    rw [heq] at h
    exact absurd h (hquiet (commands_of_effect
      (revokeAgent_effect d s _ principal (requireAgent_eq_ok hagent).1 hopen)))
  | denied _ _ _ heq =>
    rw [heq] at h
    exact absurd h (hquiet rfl)
  | dispatched agent hscope hagent henabled heq =>
    rw [heq] at h
    refine ⟨hscope, agent, ?_, henabled⟩
    rw [agentId_of_dispatchAction h]
    exact (requireAgent_eq_ok hagent).1

end Checks

/-! ### Every run -/

/-- What a step sends. -/
def sentBy (s : RemoteControlPlane) (e : Step) : List (ConnectionId × ServerMessage) :=
  (s.step d e).sent.drop s.sent.length

theorem mem_added_of_mem_sentBy {s : RemoteControlPlane} {e : Step}
    {added : List (ConnectionId × ServerMessage)}
    (h : (s.step d e).commands = s.commands ++ added) {x : ConnectionId × ServerMessage}
    (hcommand : isCommand x.2 = true) (hx : x ∈ sentBy d s e) : x ∈ added := by
  rw [← commands_of_sent (sent_step d s e) h]
  exact List.mem_filter.mpr ⟨hx, hcommand⟩

/-- **One step.** -/
theorem mediated_step (s : RemoteControlPlane) (e : Step) {c : ConnectionId}
    {request : ActionRequestEnvelope} (h : (c, .actionRequest request) ∈ sentBy d s e) :
    ∃ principal args agent live, Mediated d s e c request principal args agent live := by
  have hnone : (s.step d e).commands ≠ s.commands := by
    intro hsame
    have hmem := mem_added_of_mem_sentBy d (hsame.trans (List.append_nil _).symm) rfl h
    exact absurd hmem List.not_mem_nil
  cases step_cases d s e with
  | quiet hquiet => exact absurd (commands_eq_of_ledger hquiet) hnone
  | created _ _ _ _ _ hcommands => exact absurd hcommands hnone
  | revoked _ _ _ hcommands => exact absurd hcommands hnone
  | policyStored principal agent value policy _ _ _ hstored =>
    have hmem := mem_added_of_mem_sentBy d hstored.commands rfl h
    unfold policyCommands sentCommand at hmem
    split at hmem
    · exact absurd hmem List.not_mem_nil
    · split at hmem
      · exact absurd hmem List.not_mem_nil
      · exact absurd (List.mem_singleton.mp hmem) (by simp)
  | dispatched principal agent tool args live deadline hevent hagent huser hstatus hlive _
      hcommands =>
    have hmem := mem_added_of_mem_sentBy d hcommands rfl h
    have hsent : s.sentCommand live.connection
        (.actionRequest (actionRequestEnvelope d e.moment principal agent tool
          (toolCapabilityMap tool) args deadline)) = [(c, .actionRequest request)] := by
      unfold sentCommand at hmem ⊢
      split at hmem
      · exact absurd hmem List.not_mem_nil
      · next hopen =>
        rw [if_neg hopen, List.mem_singleton.mp hmem]
    obtain ⟨hc, hrequest⟩ : c = live.connection ∧ request = actionRequestEnvelope d e.moment
        principal agent tool (toolCapabilityMap tool) args deadline := by
      rw [hsent] at hcommands
      unfold sentCommand at hsent
      split at hsent
      · exact absurd hsent (by simp)
      · have hpair := Prod.mk.inj (List.head_eq_of_cons_eq hsent)
        exact ⟨hpair.1.symm, (ServerMessage.actionRequest.inj hpair.2).symm⟩
    have hid : request.agent_id = agent.id := by
      rw [hrequest]
      rfl
    -- the scope and the stored policy, from the tool call
    obtain ⟨hscope, found, hfound, henabled⟩ : hasCapability principal.capabilities
        (toolCapabilityMap tool) = true ∧ ∃ found, s.store.getAgent request.agent_id = some found ∧
          ((found.policy.member "capabilities").member
            (toolCapabilityMap tool).text).truthy = true := by
      have hcall : (s.callRemoteTool d e.moment principal tool args).2.commands =
          s.commands ++ [(c, .actionRequest request)] := by
        rw [← hsent, ← hcommands]
        unfold step
        rw [hevent]
      exact callRemoteTool_checks hcall
    rw [hid] at hfound
    obtain rfl : agent = found := Option.some.inj (hagent.symm.trans hfound)
    have htool : request.tool = tool := by
      rw [hrequest]
      rfl
    refine ⟨principal, args, agent, live, ?_⟩
    exact
      { called := by rw [htool, hevent]
        scope := by rw [htool]; exact hscope
        stored := by rw [hid]; exact hagent
        owner := huser
        notRevoked := hstatus
        enabled := by rw [htool]; exact henabled
        capability := by rw [hrequest]; rfl
        agentId := hid
        version := by rw [hrequest]; rfl
        signed := by rw [hrequest]; rfl
        registered := hlive
        connection := hc.symm }

/-- **Dispatch is mediated.** In every run of the control plane, from whatever state, every request
that a step sends is mediated in the state the step is taken in. -/
theorem dispatch_mediated (s : RemoteControlPlane) (es : List Step) :
    Run.AllSteps (step d) (fun s e => ∀ c request, (c, .actionRequest request) ∈ sentBy d s e →
      ∃ principal args agent live, Mediated d s e c request principal args agent live) s es :=
  Run.allSteps_of_forall (fun s e _ _ h => mediated_step d s e h) s es

end RemoteControlPlane
end Remote
