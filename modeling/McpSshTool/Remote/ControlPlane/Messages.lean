import McpSshTool.Remote.ControlPlane.Ledger

/-!
# What is sent to agents

Which messages a step of the control plane adds to what it has sent. Most operations send nothing
(the lemmas `…_sent`), a refusal sends an error, and the policy of an `agent.ready` is the one that
is stored (`sends_step`).
-/

open Library

namespace Remote

namespace RemoteControlPlane

/-- **Only messages of a kind are added** to what was sent. -/
def Sends (K : ServerMessage → Prop) (s s' : RemoteControlPlane) : Prop :=
  ∃ added, s'.sent = s.sent ++ added ∧ ∀ x ∈ added, K x.2

variable {K : ServerMessage → Prop}

theorem Sends.of_eq {s s' : RemoteControlPlane} (h : s'.sent = s.sent) : Sends K s s' :=
  ⟨[], h.trans (List.append_nil _).symm, fun _ hx => absurd hx List.not_mem_nil⟩

theorem Sends.trans {s s' s'' : RemoteControlPlane} (h : Sends K s s') (h' : Sends K s' s'') :
    Sends K s s'' := by
  obtain ⟨added, heq, hK⟩ := h
  obtain ⟨added', heq', hK'⟩ := h'
  refine ⟨added ++ added', by rw [heq', heq, List.append_assoc], fun x hx => ?_⟩
  exact (List.mem_append.mp hx).elim (hK x) (hK' x)

variable (d : Deployment) (m : Moment) (s : RemoteControlPlane)

theorem sends_sendJson (c : ConnectionId) {message : ServerMessage} (h : K message) :
    Sends K s (s.sendJson c message) := by
  unfold sendJson
  split
  · exact .of_eq rfl
  · refine ⟨[(c, message)], rfl, fun x hx => ?_⟩
    rw [List.mem_singleton.mp hx]
    exact h

/-! ### Operations that send nothing -/

@[simp] theorem writeAgent_sent (agent : RemoteAgentRecord) :
    (s.writeAgent d agent).sent = s.sent := by
  unfold writeAgent
  split <;> rfl

@[simp] theorem markOffline_sent (a : String) : (s.markOffline d m a).sent = s.sent := by
  unfold markOffline
  split
  · rfl
  · split
    · rfl
    · rw [writeAgent_sent]

@[simp] theorem agentDisconnected_sent (c : ConnectionId) (handler : CloseHandler) :
    (s.agentDisconnected d m c handler).sent = s.sent := by
  unfold agentDisconnected
  split
  · rfl
  · split
    · rfl
    · exact markOffline_sent d m _ _

@[simp] theorem notifyClose_sent (c : ConnectionId) (connection : Connection) :
    (s.notifyClose d m c connection).sent = s.sent := by
  have hfold : ∀ (handlers : List CloseHandler) (s : RemoteControlPlane),
      (handlers.foldl (fun s handler => s.agentDisconnected d m c handler) s).sent = s.sent := by
    intro handlers
    induction handlers with
    | nil => exact fun _ => rfl
    | cons handler handlers ih =>
      intro s
      rw [List.foldl_cons, ih, agentDisconnected_sent]
  unfold notifyClose
  split
  · rfl
  · rw [hfold]

@[simp] theorem close_sent (c : ConnectionId) : (s.close d m c).sent = s.sent := by
  unfold close
  split
  · rfl
  · split
    · rfl
    · exact notifyClose_sent d m s c _

@[simp] theorem handleClose_sent (c : ConnectionId) : (s.handleClose d m c).sent = s.sent := by
  unfold handleClose
  split
  · rfl
  · exact notifyClose_sent d m s c _

@[simp] theorem registerHello_sent (c : ConnectionId) (hello : AgentHelloEnvelope)
    (agent : RemoteAgentRecord) : (s.registerHello d m c hello agent).sent = s.sent := by
  unfold registerHello
  dsimp only
  split
  · exact close_sent d m _ _
  · rfl

@[simp] theorem handleAgentEnroll_sent (body : Value) :
    (s.handleAgentEnroll d m body).2.sent = s.sent := by
  rcases handleAgentEnroll_inversion d m s body with
    heq | ⟨_, _, _, _, -, -, -, -, -, -, -, -, -, -, -, heq⟩
  · rw [heq]
  · rw [heq]
    exact writeAgent_sent d _ _

@[simp] theorem createEnrollmentToken_sent (principal : RemotePrincipal) (args : Value) :
    (s.createEnrollmentToken d m principal args).2.sent = s.sent := by
  cases createEnrollmentToken_inversion d m s principal args with
  | kept h => rw [h]
  | pending _ _ _ h => rw [h]
  | created _ _ _ _ _ _ _ _ h =>
    rw [h]
    rfl

@[simp] theorem revokeAgent_sent (principal : RemotePrincipal) (agent : RemoteAgentRecord) :
    (s.revokeAgent d m principal agent).2.sent = s.sent := by
  unfold revokeAgent
  split
  · rfl
  · dsimp only
    split
    · exact writeAgent_sent d s _
    · exact (close_sent d m _ _).trans (writeAgent_sent d s _)

@[simp] theorem shutdown_sent : (s.shutdown d m).sent = s.sent :=
  shutdown_keeps d m s (P := fun s' => s'.sent = s.sent) rfl (fun _ _ _ h => h)
    (fun s' c h => (close_sent d m s' c).trans h) fun _ h => h

@[simp] theorem resume_sent (actionId : String) : (s.resume d m actionId).sent = s.sent := by
  cases resume_inversion d m s actionId with
  | kept _ h => rw [h]
  | dropped _ _ _ _ h => rw [h]
  | finished _ _ _ _ _ _ _ h =>
    rw [h]
    rfl

@[simp] theorem handleActionResult_sent (c : ConnectionId) (result : ActionResultEnvelope) :
    (s.handleActionResult d m c result).2.sent = s.sent := by
  rcases handleActionResult_inversion d m s c result with heq | ⟨action, s₁, -, hs₁, hcases⟩
  · rw [heq]
  · have hsent : s₁.sent = s.sent := by
      rcases hs₁ with rfl | ⟨live, window, -, rfl⟩ <;> rfl
    rcases hcases with ⟨eventType, code, heq⟩ | heq
    · rw [heq]
      exact hsent
    · rw [heq]
      exact hsent

/-! ### Messages -/

/-- The policy of an `agent.ready` is the one that is stored. -/
def ReadyFrom (store : RemoteStore) : ServerMessage → Prop
  | .agentReady a policy => ∃ agent, store.getAgent a = some agent ∧ agent.policy = policy
  | _ => True

theorem sends_reject (store : RemoteStore) (c : ConnectionId) (code : RemoteErrorCode)
    (message : String) : Sends (ReadyFrom store) s (s.reject d m c code message) :=
  (sends_sendJson s c trivial).trans (.of_eq (close_sent d m _ c))

theorem sends_handleAgentHello (c : ConnectionId) (hello : AgentHelloEnvelope) :
    Sends (ReadyFrom s.store) s (s.handleAgentHello d m c hello).2 := by
  cases handleAgentHello_inversion d m s c hello with
  | kept _ h =>
    rw [h]
    exact .of_eq rfl
  | refused s₁ s₂ code message _ hs₁ hs₂ h =>
    rw [h]
    -- the audit row before a refusal is not sent
    have hsent : s₂.sent = s.sent := by
      rcases hs₁ with rfl | rfl <;> rcases hs₂ with rfl | ⟨_, _, _, rfl⟩ <;> rfl
    exact Sends.trans (.of_eq hsent) (sends_reject d m s₂ s.store c code message)
  | accepted agent _ hverdict h =>
    rw [h]
    have hready : ReadyFrom s.store (.agentReady agent.id agent.policy) :=
      ⟨agent, (helloVerdict_accepted d m s hverdict).1, rfl⟩
    refine Sends.trans (.of_eq ?_) (sends_sendJson _ c hready)
    exact (writeAgent_sent d _ _).trans (registerHello_sent d m s c hello agent)

theorem sends_receive (c : ConnectionId) (payload : Option Value) :
    Sends (ReadyFrom s.store) s (s.receive d m c payload) := by
  cases receive_inversion d m s c payload with
  | failed _ h =>
    rw [h]
    exact .of_eq rfl
  | rejected code message _ h =>
    rw [h]
    exact sends_reject d m s s.store c code message
  | hello hello _ _ h =>
    rw [h]
    exact sends_handleAgentHello d m s c hello
  | result result _ _ h =>
    rw [h]
    exact .of_eq (handleActionResult_sent d m s c result)

/-! ### Requests -/

variable (store : RemoteStore)

theorem sends_updateAgentPolicy (principal : RemotePrincipal) (agent : RemoteAgentRecord)
    (value : Value) :
    Sends (ReadyFrom store) s (s.updateAgentPolicy d m principal agent value).2 := by
  unfold updateAgentPolicy
  split
  · exact .of_eq rfl
  split
  · exact .of_eq rfl
  dsimp only
  split
  · exact .of_eq rfl
  split
  · exact .of_eq rfl
  · exact sends_sendJson { s with store := _ } _ trivial

theorem sends_dispatchAction (principal : RemotePrincipal) (agent : RemoteAgentRecord)
    (tool : RemoteToolName) (capability : RemoteCapability) (args : Fields) :
    Sends (ReadyFrom store) s (s.dispatchAction d m principal agent tool capability args).2 := by
  cases dispatchAction_inversion d m s principal agent tool capability args with
  | refused _ h =>
    rw [h]
    exact .of_eq rfl
  | sent _ _ _ _ _ _ _ _ _ _ _ _ _ _ h =>
    rw [h]
    refine Sends.trans (.of_eq ?_) (sends_sendJson _ _ trivial)
    rfl

theorem sends_callRemoteTool (principal : RemotePrincipal) (tool : RemoteToolName)
    (args : Fields) :
    Sends (ReadyFrom store) s (s.callRemoteTool d m principal tool args).2 := by
  cases callRemoteTool_inversion d m s principal tool args with
  | kept h =>
    rw [h]
    exact .of_eq rfl
  | tokenCreated _ h =>
    rw [h]
    exact .of_eq (createEnrollmentToken_sent d m s principal _)
  | policyUpdated agent _ _ _ _ h =>
    rw [h]
    exact sends_updateAgentPolicy d m s store principal agent _
  | revoked agent _ _ _ h =>
    rw [h]
    exact .of_eq (revokeAgent_sent d m s principal agent)
  | denied _ _ _ h =>
    rw [h]
    exact .of_eq rfl
  | dispatched agent _ _ _ h =>
    rw [h]
    exact sends_dispatchAction d m s store principal agent tool _ args

/-! ### Steps -/

/-- **What a step sends**: an `agent.ready` carries the policy that was stored before the step. -/
theorem sends_step (s : RemoteControlPlane) (e : Step) :
    Sends (ReadyFrom s.store) s (s.step d e) := by
  obtain ⟨event, m⟩ := e
  cases event with
  | connect c =>
    refine .of_eq ?_
    change (s.connect c).sent = s.sent
    unfold connect
    split <;> rfl
  | message c payload => exact sends_receive d m s c payload
  | messageFailed c =>
    change Sends _ s (s.recover d m c)
    unfold recover
    split
    · -- a message that fails is answered with an error
      exact sends_reject d m { s with failing := s.failing.erase c } s.store c _ _
    · exact .of_eq rfl
  | socketClosed c => exact .of_eq (handleClose_sent d m s c)
  | enroll body => exact .of_eq (handleAgentEnroll_sent d m s body)
  | createEnrollmentToken principal body =>
    exact .of_eq (createEnrollmentToken_sent d m s principal body)
  | patchArrived request principal agentRef =>
    refine .of_eq ?_
    change (s.awaitPatch request principal agentRef).sent = s.sent
    unfold awaitPatch
    split
    · rfl
    · split <;> rfl
  | patchBody request body =>
    change Sends _ s (s.applyPatch d m request body)
    unfold applyPatch
    split
    · exact .of_eq rfl
    dsimp only
    cases body with
    | none => exact .of_eq rfl
    | some =>
      -- the update goes out where the agent is connected
      exact sends_updateAgentPolicy d m { s with patches := s.patches.delete request } s.store _ _ _
  | revoke principal agentRef =>
    refine .of_eq ?_
    change (s.revokeByRef d m principal agentRef).sent = s.sent
    unfold revokeByRef
    split
    · rfl
    split
    · rfl
    · exact revokeAgent_sent d m s principal _
  | callTool principal tool args => exact sends_callRemoteTool d m s s.store principal tool args
  | authenticationFailed =>
    refine .of_eq ?_
    change (if s.store.isOpen then _ else s : RemoteControlPlane).sent = s.sent
    split <;> rfl
  | actionTimeout actionId =>
    refine .of_eq ?_
    change (s.timeOut actionId).sent = s.sent
    unfold timeOut
    split <;> rfl
  | actionSettled actionId => exact .of_eq (resume_sent d m s actionId)
  | cleanup => exact .of_eq rfl
  | shutdown => exact .of_eq (shutdown_sent d m s)

end RemoteControlPlane
end Remote
