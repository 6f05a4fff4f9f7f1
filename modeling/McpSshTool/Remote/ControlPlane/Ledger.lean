import McpSshTool.Remote.ControlPlane.Inversion

/-!
# The ledger of the control plane

What policies and agents see of a state: for each agent id the policy it is under (`view`), and the
commands that were sent (`commands`). Most of what the control plane does leaves this ledger alone,
and `step_cases` lists the exceptions.

* hellos, results, disconnections, enrollments, timers and reads keep it;
* a step that does not keep it creates an agent, stores a policy, revokes an agent or dispatches an
  action, and `StepEffect` says what the ledger is then.

A stored policy is the one case that is not always computed from the row it overwrites: a PATCH
request carries the record it read before it waited (`RecordSource.waiting`).
-/

open Library

namespace Remote

namespace RemoteControlPlane

variable (d : Deployment)

/-! ### The ledger -/

/-- What a stored record says about the policy an agent is under. -/
structure AgentView where
  userId : String
  revoked : Bool
  policy : Value
  policyVersion : ℕ

/-- The view of a record. -/
def viewOf (agent : RemoteAgentRecord) : AgentView where
  userId := agent.userId
  revoked := agent.status = .revoked
  policy := agent.policy
  policyVersion := agent.policyVersion

/-- The view of an agent id. -/
def view (s : RemoteControlPlane) (a : String) : Option AgentView :=
  (s.store.getAgent a).map viewOf

/-- Whether a message is a command to an agent. -/
def isCommand : ServerMessage → Bool
  | .policyUpdate _ => true
  | .actionRequest _ => true
  | _ => false

/-- The commands that were sent, oldest first. -/
def commands (s : RemoteControlPlane) : List (ConnectionId × ServerMessage) :=
  s.sent.filter fun e => isCommand e.2

/-- The views of all agents and the commands sent. -/
def ledger (s : RemoteControlPlane) :
    (String → Option AgentView) × List (ConnectionId × ServerMessage) :=
  (s.view, s.commands)

theorem view_eq_of_ledger {s s' : RemoteControlPlane} (h : s'.ledger = s.ledger) (a : String) :
    s'.view a = s.view a :=
  congrFun (Prod.mk.inj h).1 a

theorem commands_eq_of_ledger {s s' : RemoteControlPlane} (h : s'.ledger = s.ledger) :
    s'.commands = s.commands :=
  (Prod.mk.inj h).2

theorem view_of_getAgent {s : RemoteControlPlane} {a : String} {agent : RemoteAgentRecord}
    (h : s.store.getAgent a = some agent) : s.view a = some (viewOf agent) := by
  rw [view, h, Option.map_some]

/-! ### What keeps the ledger -/

section Quiet

variable (m : Moment) (s : RemoteControlPlane)

@[simp] theorem ledger_audit (userId agentId actionId : Option String) (eventType : String)
    (severity : Severity) (metadata : Fields) :
    (s.audit d m userId agentId actionId eventType severity metadata).ledger = s.ledger := rfl

@[simp] theorem ledger_auditAgent (agent : RemoteAgentRecord) (eventType : String)
    (severity : Severity) (metadata : Fields) :
    (s.auditAgent d m agent eventType severity metadata).ledger = s.ledger := rfl

@[simp] theorem ledger_onClose (c : ConnectionId) (handler : CloseHandler) :
    (s.onClose c handler).ledger = s.ledger := rfl

@[simp] theorem ledger_cleanupEphemeralState (now : ℤ) :
    (s.cleanupEphemeralState now).ledger = s.ledger := rfl

@[simp] theorem ledger_settle (action : ActionRecord) (outcome : ActionOutcome) :
    (s.settle action outcome).ledger = s.ledger := rfl

@[simp] theorem ledger_refuseResult (action : ActionRecord) (eventType : String)
    (code : Option RemoteErrorCode) :
    (s.refuseResult d m action eventType code).ledger = s.ledger := rfl

@[simp] theorem ledger_connect (c : ConnectionId) : (s.connect c).ledger = s.ledger := by
  unfold connect
  split <;> rfl

theorem ledger_sendJson {message : ServerMessage} (h : isCommand message = false)
    (c : ConnectionId) : (s.sendJson c message).ledger = s.ledger := by
  unfold sendJson
  split
  · rfl
  · show (s.view, (s.sent ++ [(c, message)]).filter _) = (s.view, s.sent.filter _)
    rw [List.filter_append, List.filter_cons_of_neg (by simp [h]), List.filter_nil, List.append_nil]

/-- **A record written back** with the policy, the version and the revocation it was read with
leaves the ledger. -/
theorem ledger_writeAgent (agent old : RemoteAgentRecord)
    (hold : s.store.getAgent agent.id = some old) (hview : viewOf agent = viewOf old) :
    (s.writeAgent d agent).ledger = s.ledger := by
  have hrow := (RemoteStore.getAgent_rows hold).2
  unfold writeAgent
  split
  · next store hstore =>
    refine Prod.ext (funext fun a => ?_) rfl
    show (store.getAgent a).map viewOf = (s.store.getAgent a).map viewOf
    obtain ⟨-, row, hagent, h⟩ := RemoteStore.updateAgent_eq_ok hstore
    rcases h with ⟨-, rfl⟩ | ⟨old', hrow', hold', rfl⟩
    · rfl
    · obtain rfl : old = old' := Option.some.inj (hold.symm.trans hold')
      obtain ⟨-, hid, -, -, hstatus, hpolicy, hversion⟩ := RemoteStore.agentRow_eq_some hagent
      rw [RemoteStore.getAgent_setAgent]
      split
      · next ha =>
        have hida : (RemoteStore.updatedRow row old).id = agent.id := hid
        rw [ha, hida, hold, Option.map_some, Option.map_some, ← hview]
        -- the row has the user it had, and a policy that was read from a row
        have huser : agent.userId = old.userId := congrArg AgentView.userId hview
        have hpol : agent.policy = old.policy := congrArg AgentView.policy hview
        simp only [viewOf, RemoteStore.updatedRow, hstatus, hpolicy, hversion, huser, hpol,
          hrow.policy_read]
      · rfl
  · rfl

@[simp] theorem ledger_markOffline (a : String) : (s.markOffline d m a).ledger = s.ledger := by
  unfold markOffline
  split
  · rfl
  · next latest hlatest =>
    have hid := (RemoteStore.getAgent_rows hlatest).1
    split
    · rfl
    · next hstatus =>
      refine ledger_writeAgent d s _ latest (by rw [← hlatest, ← hid]) ?_
      simp [viewOf, hstatus]

@[simp] theorem ledger_agentDisconnected (c : ConnectionId) (handler : CloseHandler) :
    (s.agentDisconnected d m c handler).ledger = s.ledger := by
  unfold agentDisconnected
  split
  · rfl
  · split
    · rfl
    · rw [ledger_audit, ledger_markOffline]
      rfl

@[simp] theorem ledger_notifyClose (c : ConnectionId) (connection : Connection) :
    (s.notifyClose d m c connection).ledger = s.ledger := by
  have hfold : ∀ (handlers : List CloseHandler) (s : RemoteControlPlane),
      (handlers.foldl (fun s handler => s.agentDisconnected d m c handler) s).ledger =
        s.ledger := by
    intro handlers
    induction handlers with
    | nil => exact fun _ => rfl
    | cons handler handlers ih =>
      intro s
      rw [List.foldl_cons, ih, ledger_agentDisconnected]
  unfold notifyClose
  split
  · rfl
  · rw [hfold]
    rfl

@[simp] theorem ledger_close (c : ConnectionId) : (s.close d m c).ledger = s.ledger := by
  unfold close
  split
  · rfl
  · split
    · rfl
    · rw [ledger_notifyClose]

@[simp] theorem ledger_handleClose (c : ConnectionId) :
    (s.handleClose d m c).ledger = s.ledger := by
  unfold handleClose
  split
  · rfl
  · rw [ledger_notifyClose]

@[simp] theorem ledger_reject (c : ConnectionId) (code : RemoteErrorCode) (message : String) :
    (s.reject d m c code message).ledger = s.ledger := by
  rw [reject, ledger_close, ledger_sendJson _ rfl]

@[simp] theorem ledger_registerHello (c : ConnectionId) (hello : AgentHelloEnvelope)
    (agent : RemoteAgentRecord) : (s.registerHello d m c hello agent).ledger = s.ledger := by
  unfold registerHello
  simp only
  split
  · show (close d m _ _).ledger = s.ledger
    rw [ledger_close]
    rfl
  · rfl

/-- **An accepted hello** keeps the agent's policy. -/
theorem ledger_acceptHello (c : ConnectionId) (hello : AgentHelloEnvelope)
    {agent : RemoteAgentRecord} (hagent : s.store.getAgent agent.id = some agent)
    (hstatus : agent.status ≠ .revoked) : (s.acceptHello d m c hello agent).ledger = s.ledger := by
  unfold acceptHello
  simp only
  rw [ledger_sendJson _ rfl, ledger_auditAgent, ledger_onClose]
  -- closing the earlier connection may have written the row, but not its view
  have hreg := ledger_registerHello d m s c hello agent
  have hview := (view_eq_of_ledger hreg agent.id).trans (view_of_getAgent hagent)
  obtain ⟨old, hold, holdView⟩ := Option.map_eq_some_iff.mp hview
  rw [ledger_writeAgent d _ (onlineRecord d m hello agent) old hold ?_, hreg]
  rw [holdView]
  simp [viewOf, onlineRecord, hstatus]

theorem helloVerdict_accepted {c : ConnectionId} {hello : AgentHelloEnvelope}
    {agent : RemoteAgentRecord} (h : s.helloVerdict d m c hello = .accepted agent) :
    s.store.getAgent agent.id = some agent ∧ agent.id = hello.agent_id ∧
      agent.status ≠ .revoked ∧
      |m.now - d.platform.getTime hello.timestamp| ≤ 300000 ∧
      (((s.cleanupEphemeralState m.later).agentHelloNonces.get? agent.id).getD .empty).contains
        hello.nonce = false := by
  unfold helloVerdict at h
  split at h
  · exact absurd h (by simp)
  · next found hfound =>
    have hid := (RemoteStore.getAgent_rows hfound).1
    split at h
    · exact absurd h (by simp)
    · split at h
      · exact absurd h (by simp)
      · next hstatus =>
        split at h
        · exact absurd h (by simp)
        · split at h
          · exact absurd h (by simp)
          · next hage =>
            simp only at h
            split at h
            · exact absurd h (by simp)
            · split at h
              · exact absurd h (by simp)
              · next hnonce =>
                obtain rfl := HelloVerdict.accepted.inj h
                refine ⟨?_, hid, hstatus, by omega, by simpa using hnonce⟩
                rw [hid]
                exact hfound

@[simp] theorem ledger_handleAgentHello (c : ConnectionId) (hello : AgentHelloEnvelope) :
    (s.handleAgentHello d m c hello).2.ledger = s.ledger := by
  cases handleAgentHello_inversion d m s c hello with
  | kept _ h => rw [h]
  | refused s₁ s₂ code message _ hs₁ hs₂ h =>
    have hcleaned : s₁.ledger = s.ledger := by
      rcases hs₁ with rfl | rfl
      · rfl
      · exact ledger_cleanupEphemeralState s _
    have haudited : s₂.ledger = s₁.ledger := by
      rcases hs₂ with rfl | ⟨agent, eventType, metadata, rfl⟩
      · rfl
      · exact ledger_auditAgent d m s₁ _ _ _ _
    rw [h, ledger_reject, haudited, hcleaned]
  | accepted agent _ hverdict h =>
    obtain ⟨hagent, -, hstatus, -⟩ := helloVerdict_accepted d m s hverdict
    rw [h, ledger_acceptHello d m s c hello hagent hstatus]

@[simp] theorem ledger_handleActionResult (c : ConnectionId) (result : ActionResultEnvelope) :
    (s.handleActionResult d m c result).2.ledger = s.ledger := by
  rcases handleActionResult_inversion d m s c result with heq | ⟨action, s₁, -, hs₁, hcases⟩
  · rw [heq]
  · have hledger : s₁.ledger = s.ledger := by
      rcases hs₁ with rfl | ⟨live, window, -, rfl⟩ <;> rfl
    rcases hcases with ⟨eventType, code, heq⟩ | heq
    · rw [heq, ledger_refuseResult, hledger]
    · rw [heq, ledger_settle, hledger]

@[simp] theorem ledger_receive (c : ConnectionId) (payload : Option Value) :
    (s.receive d m c payload).ledger = s.ledger := by
  cases receive_inversion d m s c payload with
  | failed _ h =>
    rw [h]
    rfl
  | rejected code message _ h => rw [h, ledger_reject]
  | hello hello _ _ h => rw [h, ledger_handleAgentHello]
  | result result _ _ h => rw [h, ledger_handleActionResult]

@[simp] theorem ledger_recover (c : ConnectionId) : (s.recover d m c).ledger = s.ledger := by
  unfold recover
  split
  · rw [ledger_reject]
    rfl
  · rfl

@[simp] theorem ledger_awaitPatch (request : ℕ) (principal : RemotePrincipal) (agentRef : String) :
    (s.awaitPatch request principal agentRef).ledger = s.ledger := by
  unfold awaitPatch
  split
  · rfl
  · split <;> rfl

@[simp] theorem ledger_timeOut (actionId : String) : (s.timeOut actionId).ledger = s.ledger := by
  unfold timeOut
  split <;> rfl

@[simp] theorem ledger_resume (actionId : String) : (s.resume d m actionId).ledger = s.ledger := by
  cases resume_inversion d m s actionId with
  | kept _ h => rw [h]
  | dropped _ _ _ _ h =>
    rw [h]
    rfl
  | finished _ _ _ _ _ _ _ h =>
    rw [h]
    rfl

@[simp] theorem ledger_shutdown : (s.shutdown d m).ledger = s.ledger :=
  shutdown_keeps d m s (P := fun s' => s'.ledger = s.ledger) rfl
    (fun s' e _ h => (ledger_settle s' e.2 _).trans h)
    (fun s' c h => (ledger_close d m s' c).trans h) fun _ h => h

@[simp] theorem ledger_handleAgentEnroll (body : Value) :
    (s.handleAgentEnroll d m body).2.ledger = s.ledger := by
  rcases handleAgentEnroll_inversion d m s body with
    heq | ⟨host, enrollment, agent, store, -, -, -, -, -, -, -, -, hagent, hstatus, hstore, heq⟩
  · rw [heq]
  · rw [heq]
    obtain ⟨-, token, -, -, rfl⟩ := RemoteStore.markEnrollmentTokenUsed_eq_ok hstore
    -- the record that is written has the view of the row it replaces
    have hid := (RemoteStore.getAgent_rows hagent).1
    rw [ledger_auditAgent, ledger_writeAgent d _ _ agent (by rw [← hid] at hagent; exact hagent)
      (by simp [viewOf, enrolledRecord, hstatus])]
    rfl

end Quiet

/-! ### What changes the ledger -/

/-- The commands that sending a message on a connection adds. -/
def sentCommand (s : RemoteControlPlane) (c : ConnectionId) (message : ServerMessage) :
    List (ConnectionId × ServerMessage) :=
  if s.isClosed c then [] else [(c, message)]

theorem commands_sendJson (s : RemoteControlPlane) {message : ServerMessage}
    (h : isCommand message = true) (c : ConnectionId) :
    (s.sendJson c message).commands = s.commands ++ s.sentCommand c message := by
  unfold sendJson sentCommand
  split
  · rw [List.append_nil]
  · show (s.sent ++ [(c, message)]).filter _ = s.sent.filter _ ++ _
    rw [List.filter_append, List.filter_cons_of_pos (by simpa using h), List.filter_nil]

theorem view_sendJson (s : RemoteControlPlane) (message : ServerMessage) (c : ConnectionId) :
    (s.sendJson c message).view = s.view := by
  unfold sendJson
  split <;> rfl

/-- The commands that storing a policy sends: its update, if the agent is registered. -/
def policyCommands (m : Moment) (s : RemoteControlPlane) (updated : RemoteAgentRecord) :
    List (ConnectionId × ServerMessage) :=
  match s.agentConnections.get? updated.id with
  | none => []
  | some live => s.sentCommand live.connection (.policyUpdate (policyUpdateEnvelope d m updated))

theorem mem_sentCommand {s : RemoteControlPlane} {c : ConnectionId} {message : ServerMessage}
    {e : ConnectionId × ServerMessage} (h : e ∈ s.sentCommand c message) : e = (c, message) := by
  unfold sentCommand at h
  split at h
  · exact absurd h List.not_mem_nil
  · exact List.mem_singleton.mp h

theorem mem_policyCommands {m : Moment} {s : RemoteControlPlane} {updated : RemoteAgentRecord}
    {e : ConnectionId × ServerMessage} (h : e ∈ policyCommands d m s updated) :
    e.2 = .policyUpdate (policyUpdateEnvelope d m updated) := by
  unfold policyCommands at h
  split at h
  · exact absurd h List.not_mem_nil
  · rw [mem_sentCommand h]

/-- Whether `updateAgentPolicy` stores the policy that a patch leads to. -/
def Stores (m : Moment) (s : RemoteControlPlane) (principal : RemotePrincipal)
    (agent : RemoteAgentRecord) (policy : Fields) : Prop :=
  hasCapability principal.capabilities .agentsAdmin = true ∧
    ∃ store, s.store.updateAgent d.platform (policyRecord d m agent policy) = .ok store

/-- **What storing a policy does** to the ledger: the agent's row takes the policy, the version and
the revocation of the record that was written. -/
structure PolicyStored (m : Moment) (agent : RemoteAgentRecord) (policy : Fields)
    (s s' : RemoteControlPlane) : Prop where
  view : ∀ a, s'.view a =
    if a = agent.id then
      (s.view a).map fun old =>
        { userId := old.userId
          revoked := agent.status = .revoked
          policy := (Value.obj policy).transport
          policyVersion := agent.policyVersion + 1 }
    else s.view a
  commands : s'.commands = s.commands ++ policyCommands d m s (policyRecord d m agent policy)

/-- **`updateAgentPolicy`** stores the policy it computes, or changes nothing. -/
theorem updateAgentPolicy_cases (m : Moment) (principal : RemotePrincipal)
    (agent : RemoteAgentRecord) (value : Value) (s : RemoteControlPlane) :
    (∃ policy, updatedPolicy d agent value = some policy ∧ Stores d m s principal agent policy ∧
      (s.updateAgentPolicy d m principal agent value).1 = .ok (policyRecord d m agent policy) ∧
      PolicyStored d m agent policy s (s.updateAgentPolicy d m principal agent value).2) ∨
    ((∀ policy, updatedPolicy d agent value = some policy → ¬ Stores d m s principal agent policy) ∧
      (s.updateAgentPolicy d m principal agent value).2 = s) := by
  unfold updateAgentPolicy
  split
  · next hcap =>
    refine .inr ⟨fun policy _ h => ?_, rfl⟩
    rw [h.1] at hcap
    exact absurd hcap (by simp)
  · next hcap =>
    split
    · next hnone => exact .inr ⟨fun policy h => absurd (hnone.symm.trans h) (by simp), rfl⟩
    · next policy hpolicy =>
      simp only
      split
      · next e hstore =>
        refine .inr ⟨fun policy' h hs => ?_, rfl⟩
        obtain rfl := Option.some.inj (hpolicy.symm.trans h)
        obtain ⟨store, hok⟩ := hs.2
        exact absurd (hstore.symm.trans hok) (by simp)
      · next store hstore =>
        refine .inl ⟨policy, hpolicy, ⟨by simpa using hcap, store, hstore⟩, rfl, ?_, ?_⟩
        · intro a
          -- neither the message nor the audit row shows in the views
          have hview : ∀ s₁ : RemoteControlPlane, s₁.store = store →
              s₁.view a = (store.getAgent a).map viewOf := by
            rintro s₁ rfl
            rfl
          have hafter : (match s.agentConnections.get? agent.id with
              | none => { s with store := store }
              | some live => RemoteControlPlane.sendJson live.connection
                  (.policyUpdate (policyUpdateEnvelope d m (policyRecord d m agent policy)))
                  { s with store := store }).view a = (store.getAgent a).map viewOf := by
            split
            · rfl
            · rw [view_sendJson]
              rfl
          refine hafter.trans ?_
          obtain ⟨-, row, hrow, h⟩ := RemoteStore.updateAgent_eq_ok hstore
          obtain ⟨-, hid, -, -, hstatus, hpol, hversion⟩ := RemoteStore.agentRow_eq_some hrow
          rcases h with ⟨hnone, rfl⟩ | ⟨old, hold, hget, rfl⟩
          · by_cases ha : a = agent.id
            · subst ha
              rw [if_pos rfl, RemoteControlPlane.view]
              rw [show s.store.getAgent agent.id = none from hnone]
              rfl
            · rw [if_neg ha]
              rfl
          · rw [RemoteStore.getAgent_setAgent]
            have hida : (RemoteStore.updatedRow row old).id = agent.id := hid
            rw [hida]
            by_cases ha : a = agent.id
            · subst ha
              rw [if_pos rfl, if_pos rfl, RemoteControlPlane.view]
              rw [show s.store.getAgent agent.id = some old from hget]
              simp only [Option.map_some, viewOf, RemoteStore.updatedRow, hstatus, hpol, hversion]
              rfl
            · rw [if_neg ha, if_neg ha]
              rfl
        · show RemoteControlPlane.commands (match s.agentConnections.get? agent.id with
              | none => { s with store := store }
              | some live => RemoteControlPlane.sendJson live.connection
                  (.policyUpdate (policyUpdateEnvelope d m (policyRecord d m agent policy)))
                  { s with store := store }) = _
          unfold policyCommands
          rw [show (policyRecord d m agent policy).id = agent.id from rfl]
          cases s.agentConnections.get? agent.id with
          | none => exact (List.append_nil _).symm
          | some => exact commands_sendJson _ rfl _

/-- The policy update that a step asks for: by whom, over which record, and with what patch. -/
def updateRequest (s : RemoteControlPlane) (e : Step) :
    Option (RemotePrincipal × RemoteAgentRecord × Value) :=
  match e.event with
  | .patchBody request (some body) =>
    (s.patches.get? request).map fun p => (p.1, p.2, body.member "policy")
  | .callTool principal .update_agent_policy args =>
    if hasCapability principal.capabilities .agentsAdmin && s.store.isOpen then
      (s.requireAgent principal.userId args).toOption.map fun agent =>
        (principal, agent, (Value.obj args).member "policy")
    else none
  | _ => none

/-- Where the record that a policy update writes over comes from. -/
inductive RecordSource (s : RemoteControlPlane) (e : Step) (principal : RemotePrincipal)
    (agent : RemoteAgentRecord) : Prop where
  /-- It is the stored one. -/
  | current (h : s.store.getAgent agent.id = some agent)
  /-- A PATCH request read it before it waited for its body. -/
  | waiting (request : ℕ) (body : Value) (hevent : e.event = .patchBody request (some body))
      (h : s.patches.get? request = some (principal, agent))

theorem requireAgent_eq_ok {s : RemoteControlPlane} {userId : String} {args : Fields}
    {agent : RemoteAgentRecord} (h : s.requireAgent userId args = .ok agent) :
    s.store.getAgent agent.id = some agent ∧ agent.userId = userId := by
  unfold requireAgent at h
  split at h
  · next found hfound =>
    obtain rfl := Except.ok.inj h
    exact resolveAgent_eq_some hfound
  · exact absurd h (by simp)

theorem recordSource_of_updateRequest {s : RemoteControlPlane} {e : Step}
    {principal : RemotePrincipal} {agent : RemoteAgentRecord} {value : Value}
    (h : s.updateRequest e = some (principal, agent, value)) :
    RecordSource s e principal agent := by
  unfold updateRequest at h
  split at h
  · next request body hevent =>
    obtain ⟨⟨principal', agent'⟩, hp, heq⟩ := Option.map_eq_some_iff.mp h
    obtain ⟨rfl, heq'⟩ := Prod.mk.inj heq
    obtain ⟨rfl, -⟩ := Prod.mk.inj heq'
    exact .waiting request body hevent hp
  · next args hevent =>
    split at h
    · obtain ⟨found, hfound, heq⟩ := Option.map_eq_some_iff.mp h
      obtain ⟨-, heq⟩ := Prod.mk.inj heq
      obtain ⟨rfl, -⟩ := Prod.mk.inj heq
      cases hrequire : s.requireAgent _ args with
      | error => rw [hrequire] at hfound; exact absurd hfound (by simp [Except.toOption])
      | ok a =>
        rw [hrequire] at hfound
        obtain rfl : a = found := Option.some.inj hfound
        exact .current (requireAgent_eq_ok hrequire).1
    · exact absurd h (by simp)
  · exact absurd h (by simp)

/-- The step of an update is `updateAgentPolicy` on the state, or on what is left of it when the
request has been taken from those that wait. -/
theorem step_of_updateRequest {s : RemoteControlPlane} {e : Step} {principal : RemotePrincipal}
    {agent : RemoteAgentRecord} {value : Value}
    (h : s.updateRequest e = some (principal, agent, value)) :
    ∃ patches,
      s.step d e =
        (({ s with patches := patches }).updateAgentPolicy d e.moment principal agent value).2 := by
  unfold updateRequest at h
  split at h
  · next request body hevent =>
    obtain ⟨⟨principal', agent'⟩, hpatch, heq⟩ := Option.map_eq_some_iff.mp h
    obtain ⟨hprincipal, heq⟩ := Prod.mk.inj heq
    obtain ⟨hagent, hvalue⟩ := Prod.mk.inj heq
    refine ⟨s.patches.delete request, ?_⟩
    unfold step
    rw [hevent]
    change s.applyPatch d e.moment request (some body) = _
    unfold applyPatch
    rw [hpatch, ← hprincipal, ← hagent, ← hvalue]
  · next principal' args hevent =>
    split at h
    · next hguard =>
      obtain ⟨found, hfound, heq⟩ := Option.map_eq_some_iff.mp h
      obtain ⟨hprincipal, heq⟩ := Prod.mk.inj heq
      obtain ⟨hagent, hvalue⟩ := Prod.mk.inj heq
      rw [Bool.and_eq_true] at hguard
      refine ⟨s.patches, ?_⟩
      unfold step
      rw [hevent, ← hprincipal, ← hagent, ← hvalue]
      change (s.callRemoteTool d e.moment principal' .update_agent_policy args).2 = _
      cases hrequire : s.requireAgent principal'.userId args with
      | error =>
        rw [hrequire] at hfound
        cases hfound
      | ok a =>
        rw [hrequire] at hfound
        obtain rfl : a = found := Option.some.inj hfound
        have hcapability : hasCapability principal'.capabilities
            (toolCapabilityMap .update_agent_policy) = true := hguard.1
        unfold callRemoteTool withAgent
        dsimp only
        rw [hcapability, hguard.2, hrequire, if_neg (by decide), if_neg (by decide)]
        rfl
    · cases h
  · cases h

/-- **What a step does to the ledger.** -/
inductive StepEffect (s : RemoteControlPlane) (e : Step) (s' : RemoteControlPlane) : Prop where
  | quiet (h : s'.ledger = s.ledger)
  | created (agent : RemoteAgentRecord) (profile : AgentProfileName)
      (hid : agent.id = freshId e.moment "agt") (hfree : s.view agent.id = none)
      (hview : ∀ a, s'.view a =
        if a = agent.id then
          some
            { userId := agent.userId
              revoked := false
              policy := (Value.obj (createAgentPolicy (.str profile.text))).transport
              policyVersion := 1 }
        else s.view a)
      (hcommands : s'.commands = s.commands)
  | policyStored (principal : RemotePrincipal) (agent : RemoteAgentRecord) (value : Value)
      (policy : Fields) (hrequest : s.updateRequest e = some (principal, agent, value))
      (hpolicy : updatedPolicy d agent value = some policy)
      (hstores : Stores d e.moment s principal agent policy)
      (h : PolicyStored d e.moment agent policy s s')
  | revoked (agent : RemoteAgentRecord) (hagent : s.store.getAgent agent.id = some agent)
      (hview : ∀ a, s'.view a =
        if a = agent.id then some { viewOf agent with revoked := true } else s.view a)
      (hcommands : s'.commands = s.commands)
  | dispatched (principal : RemotePrincipal) (agent : RemoteAgentRecord) (tool : RemoteToolName)
      (args : Fields) (live : AgentConnection) (deadline : String)
      (hevent : e.event = .callTool principal tool args)
      (hagent : s.store.getAgent agent.id = some agent)
      (huser : agent.userId = principal.userId) (hstatus : agent.status ≠ .revoked)
      (hlive : s.agentConnections.get? agent.id = some live) (hview : s'.view = s.view)
      (hcommands : s'.commands = s.commands ++ s.sentCommand live.connection
        (.actionRequest (actionRequestEnvelope d e.moment principal agent tool
          (toolCapabilityMap tool) args deadline)))

theorem createEnrollmentToken_effect (s : RemoteControlPlane) (e : Step)
    (principal : RemotePrincipal) (args : Value) :
    StepEffect d s e (s.createEnrollmentToken d e.moment principal args).2 := by
  -- a failure after the insertion leaves the new row behind
  have hcreated : ∀ {aliasName : String} {store : RemoteStore} {s' : RemoteControlPlane},
      s.store.insertAgent d.platform
        (pendingRecord d e.moment principal aliasName (requestedProfile args)) = .ok store →
      (∀ a, s'.view a = (store.getAgent a).map viewOf) → s'.commands = s.commands →
      StepEffect d s e s' := by
    intro aliasName store s' hstore hs' hcommands
    obtain ⟨-, hfree, row, hrow, hagent, rfl⟩ := RemoteStore.insertAgent_eq_ok hstore
    obtain ⟨-, hid, huser, -, hstatus, hpolicy, hversion⟩ := RemoteStore.agentRow_eq_some hagent
    have hrowView : viewOf row =
        { userId := row.userId
          revoked := false
          policy := (Value.obj (createAgentPolicy (.str (requestedProfile args).text))).transport
          policyVersion := 1 } := by
      simp only [viewOf, hstatus, hpolicy, hversion]
      rfl
    refine .created row (requestedProfile args) hid ?_ (fun a => ?_) hcommands
    · rw [view, hid]
      exact congrArg (Option.map viewOf) hfree
    · rw [hs', RemoteStore.getAgent_setAgent, ← hrowView]
      split <;> rfl
  cases createEnrollmentToken_inversion d e.moment s principal args with
  | kept h =>
    rw [h]
    exact .quiet rfl
  | pending _ store hstore h =>
    rw [h]
    exact hcreated hstore (fun _ => rfl) rfl
  | created _ store _ store' _ hstore _ hstore' h =>
    rw [h]
    obtain ⟨-, -, rfl⟩ := RemoteStore.insertEnrollmentToken_eq_ok hstore'
    exact hcreated hstore (fun _ => rfl) rfl

theorem updateAgentPolicy_effect (s : RemoteControlPlane) (e : Step) (principal : RemotePrincipal)
    (agent : RemoteAgentRecord) (value : Value)
    (hrequest : s.updateRequest e = some (principal, agent, value)) (s₀ : RemoteControlPlane)
    (hstore : s₀.store = s.store) (hconnections : s₀.connections = s.connections)
    (hlive : s₀.agentConnections = s.agentConnections) (hsent : s₀.sent = s.sent) :
    StepEffect d s e (s₀.updateAgentPolicy d e.moment principal agent value).2 := by
  -- `s₀` is `s` up to what no policy update looks at
  have hview : s₀.view = s.view := by
    unfold view
    rw [hstore]
  have hcommands : s₀.commands = s.commands := by
    unfold commands
    rw [hsent]
  have hsentCommand : s₀.sentCommand = s.sentCommand := by
    unfold sentCommand isClosed
    rw [hconnections]
  rcases updateAgentPolicy_cases d e.moment principal agent value s₀ with
    ⟨policy, hpolicy, hstores, -, h⟩ | ⟨-, h⟩
  · refine .policyStored principal agent value policy hrequest hpolicy ?_ ⟨?_, ?_⟩
    · unfold Stores at hstores ⊢
      rwa [hstore] at hstores
    · intro a
      rw [h.view, hview]
    · rw [h.commands, hcommands]
      unfold policyCommands
      rw [hlive, hsentCommand]
  · rw [h]
    exact .quiet (Prod.ext hview hcommands)

/-- **`revokeAgent`** marks the row, which it was given as it is stored, or changes nothing. -/
theorem revokeAgent_cases (m : Moment) (s : RemoteControlPlane) (principal : RemotePrincipal)
    {agent : RemoteAgentRecord} (hagent : s.store.getAgent agent.id = some agent)
    (hopen : s.store.isOpen = true) :
    (s.revokeAgent d m principal agent).2 = s ∨
      ((∀ a, (s.revokeAgent d m principal agent).2.view a =
          if a = agent.id then some { viewOf agent with revoked := true } else s.view a) ∧
        (s.revokeAgent d m principal agent).2.commands = s.commands) := by
  have hrow := (RemoteStore.getAgent_rows hagent).2
  unfold revokeAgent
  split
  · exact .inl rfl
  · right
    -- the write goes through, for the record was read from the row
    have hrevokedRow : IsRow (revokedRecord d m agent) :=
      ⟨hrow.profile_text, hrow.policy_read, hrow.publicKey_read, hrow.lastSeenAt_read⟩
    have hwrite : (s.writeAgent d (revokedRecord d m agent)) =
        { s with store := s.store.setAgent (revokedRecord d m agent) hrevokedRow } := by
      have hold : s.store.getAgent (revokedRecord d m agent).id = some agent := hagent
      unfold writeAgent
      rw [RemoteStore.updateAgent_of_row hopen hold rfl hrevokedRow]
    have hview : ∀ a, (s.writeAgent d (revokedRecord d m agent)).view a =
        if a = agent.id then some { viewOf agent with revoked := true } else s.view a := by
      intro a
      rw [hwrite]
      show ((s.store.setAgent _ hrevokedRow).getAgent a).map viewOf = _
      rw [RemoteStore.getAgent_setAgent, show (revokedRecord d m agent).id = agent.id from rfl]
      split
      · simp [viewOf, revokedRecord]
      · rfl
    have hcommands : (s.writeAgent d (revokedRecord d m agent)).commands = s.commands := by
      rw [hwrite]
      rfl
    have hclosed : ∀ s' : RemoteControlPlane,
        s'.ledger = (s.writeAgent d (revokedRecord d m agent)).ledger →
        (∀ a, s'.view a =
          if a = agent.id then some { viewOf agent with revoked := true } else s.view a) ∧
          s'.commands = s.commands := by
      intro s' hs'
      refine ⟨fun a => ?_, ?_⟩
      · rw [view_eq_of_ledger hs', hview]
      · rw [commands_eq_of_ledger hs', hcommands]
    refine hclosed _ ?_
    show RemoteControlPlane.ledger (audit d m _ _ _ _ _ _ _) = _
    rw [ledger_audit]
    split
    · rfl
    · exact ledger_close d m _ _

theorem revokeAgent_effect (s : RemoteControlPlane) (e : Step) (principal : RemotePrincipal)
    {agent : RemoteAgentRecord} (hagent : s.store.getAgent agent.id = some agent)
    (hopen : s.store.isOpen = true) :
    StepEffect d s e (s.revokeAgent d e.moment principal agent).2 := by
  rcases revokeAgent_cases d e.moment s principal hagent hopen with h | ⟨hview, hcommands⟩
  · rw [h]
    exact .quiet rfl
  · exact .revoked agent hagent hview hcommands

/-- **`dispatchAction`** sends a request on the connection of an agent that is not revoked, or
leaves the ledger. -/
theorem dispatchAction_cases (m : Moment) (s : RemoteControlPlane) (principal : RemotePrincipal)
    (agent : RemoteAgentRecord) (tool : RemoteToolName) (args : Fields) :
    (s.dispatchAction d m principal agent tool (toolCapabilityMap tool) args).2.ledger = s.ledger ∨
      ∃ live deadline, agent.status ≠ .revoked ∧ s.agentConnections.get? agent.id = some live ∧
        (s.dispatchAction d m principal agent tool (toolCapabilityMap tool) args).2.view = s.view ∧
        (s.dispatchAction d m principal agent tool (toolCapabilityMap tool) args).2.commands =
          s.commands ++ s.sentCommand live.connection
            (.actionRequest (actionRequestEnvelope d m principal agent tool
              (toolCapabilityMap tool) args deadline)) := by
  cases dispatchAction_inversion d m s principal agent tool (toolCapabilityMap tool) args with
  | refused e h =>
    rw [h]
    exact .inl rfl
  | sent live seconds deadline action store about hstatus hlive _ _ _ _ _ hstore h =>
    rw [h]
    obtain ⟨-, -, rfl⟩ := RemoteStore.insertAction_eq_ok hstore
    refine .inr ⟨live, deadline, hstatus, hlive, ?_, ?_⟩
    · dsimp only
      rw [view_sendJson]
      rfl
    · dsimp only
      rw [commands_sendJson _ rfl]
      rfl

theorem dispatchAction_effect (s : RemoteControlPlane) (e : Step) (principal : RemotePrincipal)
    {agent : RemoteAgentRecord} (tool : RemoteToolName) (args : Fields)
    (hevent : e.event = .callTool principal tool args)
    (hagent : s.store.getAgent agent.id = some agent) (huser : agent.userId = principal.userId) :
    StepEffect d s e
      (s.dispatchAction d e.moment principal agent tool (toolCapabilityMap tool) args).2 := by
  rcases dispatchAction_cases d e.moment s principal agent tool args with
    h | ⟨live, deadline, hstatus, hlive, hview, hcommands⟩
  · exact .quiet h
  · exact .dispatched principal agent tool args live deadline hevent hagent huser
      hstatus hlive hview
      hcommands

theorem callRemoteTool_effect (s : RemoteControlPlane) (e : Step) (principal : RemotePrincipal)
    (tool : RemoteToolName) (args : Fields) (hevent : e.event = .callTool principal tool args) :
    StepEffect d s e (s.callRemoteTool d e.moment principal tool args).2 := by
  cases callRemoteTool_inversion d e.moment s principal tool args with
  | kept h =>
    rw [h]
    exact .quiet rfl
  | tokenCreated _ h =>
    rw [h]
    exact createEnrollmentToken_effect d s e principal (.obj args)
  | policyUpdated agent htool hscope hopen hagent h =>
    rw [h]
    subst htool
    refine updateAgentPolicy_effect d s e principal agent _ ?_ s rfl rfl rfl rfl
    have hcapability : hasCapability principal.capabilities .agentsAdmin = true := hscope
    unfold updateRequest
    rw [hevent]
    simp only [hcapability, hopen, hagent]
    rfl
  | revoked agent _ hopen hagent h =>
    rw [h]
    exact revokeAgent_effect d s e principal (requireAgent_eq_ok hagent).1 hopen
  | denied agent metadata _ h =>
    rw [h]
    exact .quiet rfl
  | dispatched agent _ hagent _ h =>
    rw [h]
    obtain ⟨hget, huser⟩ := requireAgent_eq_ok hagent
    exact dispatchAction_effect d s e principal tool args hevent hget huser

/-- **What a step can do to the ledger.** -/
theorem step_cases (s : RemoteControlPlane) (e : Step) : StepEffect d s e (s.step d e) := by
  obtain ⟨event, m⟩ := e
  cases event with
  | connect c => exact .quiet (ledger_connect s c)
  | message c payload => exact .quiet (ledger_receive d m s c payload)
  | messageFailed c => exact .quiet (ledger_recover d m s c)
  | socketClosed c => exact .quiet (ledger_handleClose d m s c)
  | enroll body => exact .quiet (ledger_handleAgentEnroll d m s body)
  | createEnrollmentToken principal body => exact createEnrollmentToken_effect d s _ principal body
  | patchArrived request principal agentRef =>
    exact .quiet (ledger_awaitPatch s request principal agentRef)
  | patchBody request body =>
    show StepEffect d s _ (s.applyPatch d m request body)
    unfold applyPatch
    split
    · exact .quiet rfl
    · next principal agent hpatch =>
      cases body with
      | none => exact .quiet rfl
      | some =>
        refine updateAgentPolicy_effect d s _ principal agent _ ?_ _ rfl rfl rfl rfl
        unfold updateRequest
        simp only [hpatch, Option.map_some]
  | revoke principal agentRef =>
    show StepEffect d s _ (s.revokeByRef d m principal agentRef)
    unfold revokeByRef
    split
    · exact .quiet rfl
    · next hopen =>
      split
      · exact .quiet rfl
      · next agent hagent =>
        exact revokeAgent_effect d s _ principal (resolveAgent_eq_some hagent).1
          (by simpa using hopen)
  | callTool principal tool args => exact callRemoteTool_effect d s _ principal tool args rfl
  | authenticationFailed =>
    refine .quiet ?_
    show RemoteControlPlane.ledger (if s.store.isOpen then _ else s) = s.ledger
    split
    · exact ledger_audit d m s _ _ _ _ _ _
    · rfl
  | actionTimeout actionId => exact .quiet (ledger_timeOut s actionId)
  | actionSettled actionId => exact .quiet (ledger_resume d m s actionId)
  | cleanup => exact .quiet (ledger_cleanupEphemeralState s m.now)
  | shutdown => exact .quiet (ledger_shutdown d m s)

end RemoteControlPlane
end Remote
