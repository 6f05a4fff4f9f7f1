import Mathlib.Logic.Relation
import McpSshTool.Remote.ControlPlane.Inversion

/-!
# Routine changes

Most of what the control plane does is made of a few small changes: an audit row, a message, a row
of an agent or of an enrollment token, the state of a connection, a registration that ends. An
operation is `Routine` when it is a sequence of such changes, and `step_routine` lists the steps
that are not.

What every `Change` keeps a routine operation keeps (`Routine.lift`), so a relation between states
is checked against the changes, and not against the operations.
-/

open Library

namespace Remote
namespace RemoteControlPlane

/-- **Rows keep their users.** -/
def KeepsUsers (store store' : RemoteStore) : Prop :=
  ∀ a agent, store.getAgent a = some agent →
    ∃ agent', store'.getAgent a = some agent' ∧ agent'.userId = agent.userId

theorem KeepsUsers.of_eq {store store' : RemoteStore} (h : store'.agents = store.agents) :
    KeepsUsers store store' :=
  fun a agent hagent => ⟨agent, by rw [RemoteStore.getAgent, h]; exact hagent, rfl⟩

theorem KeepsUsers.trans {store store' store'' : RemoteStore} (h : KeepsUsers store store')
    (h' : KeepsUsers store' store'') : KeepsUsers store store'' := by
  intro a agent hagent
  obtain ⟨agent', hagent', huser⟩ := h a agent hagent
  obtain ⟨agent'', hagent'', huser'⟩ := h' a agent' hagent'
  exact ⟨agent'', hagent'', huser'.trans huser⟩

/-- **A small change** of the state. -/
inductive Change (d : Deployment) (m : Moment) : RemoteControlPlane → RemoteControlPlane → Prop
  | audit (s : RemoteControlPlane) (userId agentId actionId : Option String) (eventType : String)
      (severity : Severity) (metadata : Fields) :
      Change d m s (s.audit d m userId agentId actionId eventType severity metadata)
  | sendJson (s : RemoteControlPlane) (c : ConnectionId) (message : ServerMessage) :
      Change d m s (s.sendJson c message)
  /-- Rows of agents or of enrollment tokens are written. -/
  | tables (s : RemoteControlPlane) (store : RemoteStore) (hopen : store.isOpen = s.store.isOpen)
      (hactions : store.actions = s.store.actions)
      (haudit : store.auditEvents = s.store.auditEvents)
      (husers : KeepsUsers s.store store) : Change d m s { s with store := store }
  /-- Connections open or close; their close handlers are those they had. -/
  | connections (s : RemoteControlPlane) (connections : OrderedMap ConnectionId Connection)
      (hhandlers : ∀ c connection, connections.get? c = some connection →
        ∀ handler ∈ connection.closeHandlers,
          ∃ old, s.connections.get? c = some old ∧ handler ∈ old.closeHandlers) :
      Change d m s { s with connections := connections }
  /-- A close handler is added, for an agent and its user. -/
  | onClose (s : RemoteControlPlane) (c : ConnectionId) (agent : RemoteAgentRecord)
      (huser : ∃ row, s.store.getAgent agent.id = some row ∧ row.userId = agent.userId) :
      Change d m s (s.onClose c { agentId := agent.id, userId := agent.userId })
  | unregister (s : RemoteControlPlane) (agentId : String) :
      Change d m s { s with agentConnections := s.agentConnections.delete agentId }
  /-- Handlers that wait for their `catch`. -/
  | failing (s : RemoteControlPlane) (failing : List ConnectionId) :
      Change d m s { s with failing := failing }
  /-- Requests that wait for their body, each with an agent of its caller. -/
  | patches (s : RemoteControlPlane) (patches : OrderedMap ℕ (RemotePrincipal × RemoteAgentRecord))
      (hpatches : ∀ n principal agent, patches.get? n = some (principal, agent) →
        s.patches.get? n = some (principal, agent) ∨
          (s.store.getAgent agent.id = some agent ∧ agent.userId = principal.userId)) :
      Change d m s { s with patches := patches }

/-- **A sequence of small changes.** -/
abbrev Routine (d : Deployment) (m : Moment) : RemoteControlPlane → RemoteControlPlane → Prop :=
  Relation.ReflTransGen (Change d m)

variable {d : Deployment} {m : Moment}

theorem Routine.lift {R : RemoteControlPlane → RemoteControlPlane → Prop} (hrefl : ∀ s, R s s)
    (htrans : ∀ s s' s'', R s s' → R s' s'' → R s s'')
    (hchange : ∀ s s', Change d m s s' → R s s') {s s' : RemoteControlPlane}
    (h : Routine d m s s') : R s s' := by
  induction h with
  | refl => exact hrefl s
  | tail _ hlast ih => exact htrans _ _ _ ih (hchange _ _ hlast)

theorem keepsUsers_of_change {s s' : RemoteControlPlane} (h : Change d m s s') :
    KeepsUsers s.store s'.store := by
  cases h with
  | sendJson =>
    unfold sendJson
    split <;> exact .of_eq rfl
  | tables store _ _ _ husers => exact husers
  | _ => exact .of_eq rfl

theorem keepsUsers_of_routine {s s' : RemoteControlPlane} (h : Routine d m s s') :
    KeepsUsers s.store s'.store :=
  h.lift (R := fun s s' => KeepsUsers s.store s'.store) (fun _ => .of_eq rfl)
    (fun _ _ _ => KeepsUsers.trans) fun _ _ => keepsUsers_of_change

theorem actions_of_routine {s s' : RemoteControlPlane} (h : Routine d m s s') :
    s'.store.actions = s.store.actions := by
  refine h.lift (R := fun s s' => s'.store.actions = s.store.actions) (fun _ => rfl)
    (fun _ _ _ h h' => h'.trans h) fun s s' hchange => ?_
  cases hchange with
  | sendJson =>
    unfold sendJson
    split <;> rfl
  | tables store _ hactions => exact hactions
  | _ => rfl

/-! ### Operations -/

section Operations

variable (d) (m) (s : RemoteControlPlane)

theorem routine_audit (userId agentId actionId : Option String) (eventType : String)
    (severity : Severity) (metadata : Fields) :
    Routine d m s (s.audit d m userId agentId actionId eventType severity metadata) :=
  .single (.audit s userId agentId actionId eventType severity metadata)

theorem routine_sendJson (c : ConnectionId) (message : ServerMessage) :
    Routine d m s (s.sendJson c message) :=
  .single (.sendJson s c message)

theorem tables_updateAgent {store store' : RemoteStore} {agent : RemoteAgentRecord}
    (h : store.updateAgent d.platform agent = .ok store') :
    store'.isOpen = store.isOpen ∧ store'.actions = store.actions ∧
      store'.auditEvents = store.auditEvents ∧ KeepsUsers store store' := by
  obtain ⟨-, row, hrow, h⟩ := RemoteStore.updateAgent_eq_ok h
  rcases h with ⟨-, rfl⟩ | ⟨old, hisRow, hold, rfl⟩
  · exact ⟨rfl, rfl, rfl, .of_eq rfl⟩
  · refine ⟨rfl, rfl, rfl, fun a found hfound => ?_⟩
    have hid : row.id = agent.id := (RemoteStore.agentRow_eq_some hrow).2.1
    rw [RemoteStore.getAgent_setAgent]
    split
    · next ha =>
      -- the row that is written keeps the user of the row it replaces
      rw [show a = agent.id from ha.trans hid, hold] at hfound
      obtain rfl := Option.some.inj hfound
      exact ⟨_, rfl, rfl⟩
    · exact ⟨found, hfound, rfl⟩

theorem routine_writeAgent (agent : RemoteAgentRecord) : Routine d m s (s.writeAgent d agent) := by
  unfold writeAgent
  split
  · next store hstore =>
    obtain ⟨hopen, hactions, haudit, husers⟩ := tables_updateAgent d hstore
    exact .single (.tables s store hopen hactions haudit husers)
  · exact .refl

theorem routine_markOffline (a : String) : Routine d m s (s.markOffline d m a) := by
  unfold markOffline
  split
  · exact .refl
  · split
    · exact .refl
    · exact routine_writeAgent d m s _

theorem routine_agentDisconnected (c : ConnectionId) (handler : CloseHandler) :
    Routine d m s (s.agentDisconnected d m c handler) := by
  unfold agentDisconnected
  split
  · exact .refl
  · split
    · exact .refl
    · exact (Relation.ReflTransGen.single (.unregister s handler.agentId)).trans
        ((routine_markOffline d m _ _).trans (routine_audit d m _ _ _ _ _ _ _))

theorem routine_setConnection {c : ConnectionId} {old connection : Connection}
    (hold : s.connections.get? c = some old)
    (hhandlers : connection.closeHandlers = old.closeHandlers) :
    Routine d m s { s with connections := s.connections.set c connection } := by
  refine .single (.connections s _ fun c' found hfound handler hmem => ?_)
  rw [OrderedMap.get?_set] at hfound
  split at hfound
  · next hc =>
    obtain rfl := Option.some.inj hfound
    exact ⟨old, by rw [hc, hold], hhandlers ▸ hmem⟩
  · exact ⟨found, hfound, hmem⟩

theorem routine_notifyClose {c : ConnectionId} {connection : Connection}
    (hconnection : s.connections.get? c = some connection) :
    Routine d m s (s.notifyClose d m c connection) := by
  have hfold : ∀ (handlers : List CloseHandler) (s : RemoteControlPlane),
      Routine d m s (handlers.foldl (fun s handler => s.agentDisconnected d m c handler) s) := by
    intro handlers
    induction handlers with
    | nil => exact fun _ => .refl
    | cons handler handlers ih =>
      intro s
      rw [List.foldl_cons]
      exact (routine_agentDisconnected d m s c handler).trans (ih _)
  unfold notifyClose
  split
  · exact routine_setConnection d m s hconnection rfl
  · refine Relation.ReflTransGen.trans ?_ (hfold _ _)
    exact routine_setConnection d m s hconnection rfl

theorem routine_close (c : ConnectionId) : Routine d m s (s.close d m c) := by
  unfold close
  split
  · exact .refl
  · next hconnection =>
    split
    · exact .refl
    · exact routine_notifyClose d m s hconnection

theorem routine_handleClose (c : ConnectionId) : Routine d m s (s.handleClose d m c) := by
  unfold handleClose
  split
  · exact .refl
  · next hconnection => exact routine_notifyClose d m s hconnection

theorem routine_reject (c : ConnectionId) (code : RemoteErrorCode) (message : String) :
    Routine d m s (s.reject d m c code message) :=
  (routine_sendJson d m s c _).trans (routine_close d m _ c)

theorem keepsUsers_registerHello (c : ConnectionId) (hello : AgentHelloEnvelope)
    (agent : RemoteAgentRecord) :
    KeepsUsers s.store (s.registerHello d m c hello agent).store := by
  unfold registerHello
  dsimp only
  split
  · next existing _ =>
    have hclose : ∀ s' : RemoteControlPlane, s'.store = s.store →
        KeepsUsers s.store (s'.close d m existing.connection).store := by
      intro s' h
      rw [← h]
      exact keepsUsers_of_routine (routine_close d m s' _)
    exact hclose _ rfl
  · exact .of_eq rfl

theorem routine_acceptHello (c : ConnectionId) (hello : AgentHelloEnvelope)
    {agent : RemoteAgentRecord} (hagent : s.store.getAgent agent.id = some agent) :
    Routine d m (s.registerHello d m c hello agent) (s.acceptHello d m c hello agent) := by
  have hwritten := routine_writeAgent d m (s.registerHello d m c hello agent)
    (onlineRecord d m hello agent)
  unfold acceptHello
  refine Relation.ReflTransGen.trans ?_ (routine_sendJson d m _ _ _)
  refine Relation.ReflTransGen.trans ?_ (routine_audit d m _ _ _ _ _ _ _)
  refine hwritten.trans (.single (.onClose _ c agent ?_))
  exact (keepsUsers_registerHello d m s c hello agent).trans (keepsUsers_of_routine hwritten) _ _
    hagent

theorem routine_connect (c : ConnectionId) : Routine d m s (s.connect c) := by
  unfold connect
  split
  · exact .refl
  · refine .single (.connections s _ fun c' found hfound handler hmem => ?_)
    rw [OrderedMap.get?_set] at hfound
    split at hfound
    · obtain rfl := Option.some.inj hfound
      exact absurd hmem List.not_mem_nil
    · exact ⟨found, hfound, hmem⟩

theorem routine_recover (c : ConnectionId) : Routine d m s (s.recover d m c) := by
  unfold recover
  split
  · exact (Relation.ReflTransGen.single (.failing s (s.failing.erase c))).trans
      (routine_reject d m _ c _ _)
  · exact .refl

theorem routine_awaitPatch (request : ℕ) (principal : RemotePrincipal) (agentRef : String) :
    Routine d m s (s.awaitPatch request principal agentRef) := by
  unfold awaitPatch
  split
  · exact .refl
  · split
    · exact .refl
    · next agent hagent =>
      refine .single (.patches s _ fun n principal' agent' hget => ?_)
      rw [OrderedMap.get?_set] at hget
      split at hget
      · obtain ⟨rfl, rfl⟩ := Prod.mk.inj (Option.some.inj hget)
        exact .inr (resolveAgent_eq_some hagent)
      · exact .inl hget

theorem routine_updateAgentPolicy (principal : RemotePrincipal) (agent : RemoteAgentRecord)
    (value : Value) : Routine d m s (s.updateAgentPolicy d m principal agent value).2 := by
  unfold updateAgentPolicy
  split
  · exact .refl
  · split
    · exact .refl
    · simp only
      split
      · exact .refl
      · next store hstore =>
        obtain ⟨hopen, hactions, haudit, husers⟩ := tables_updateAgent d hstore
        have hstored : Routine d m s { s with store := store } :=
          .single (.tables s store hopen hactions haudit husers)
        refine Relation.ReflTransGen.trans ?_ (routine_audit d m _ _ _ _ _ _ _)
        split
        · exact hstored
        · exact hstored.trans (routine_sendJson d m _ _ _)

theorem routine_applyPatch (request : ℕ) (body : Option Value) :
    Routine d m s (s.applyPatch d m request body) := by
  unfold applyPatch
  split
  · exact .refl
  · have hread : Routine d m s { s with patches := s.patches.delete request } :=
      .single (.patches s _ fun n principal agent hget => by
        rw [OrderedMap.get?_delete] at hget
        split at hget
        · cases hget
        · exact .inl hget)
    cases body with
    | none => exact hread
    | some => exact hread.trans (routine_updateAgentPolicy d m _ _ _ _)

theorem routine_revokeAgent (principal : RemotePrincipal) (agent : RemoteAgentRecord) :
    Routine d m s (s.revokeAgent d m principal agent).2 := by
  unfold revokeAgent
  split
  · exact .refl
  · refine Relation.ReflTransGen.trans ?_ (routine_audit d m _ _ _ _ _ _ _)
    have hforget : ∀ s' : RemoteControlPlane, Routine d m s s' →
        Routine d m s { s' with agentConnections := s'.agentConnections.delete agent.id } :=
      fun s' h => h.trans (.single (.unregister s' agent.id))
    refine hforget _ ?_
    have hwritten := routine_writeAgent d m s (revokedRecord d m agent)
    split
    · exact hwritten
    · exact hwritten.trans (routine_close d m _ _)

theorem routine_revokeByRef (principal : RemotePrincipal) (agentRef : String) :
    Routine d m s (s.revokeByRef d m principal agentRef) := by
  unfold revokeByRef
  split
  · exact .refl
  · split
    · exact .refl
    · exact routine_revokeAgent d m s principal _

theorem routine_createEnrollmentToken (principal : RemotePrincipal) (args : Value) :
    Routine d m s (s.createEnrollmentToken d m principal args).2 := by
  have hinserted : ∀ {aliasName : String} {store : RemoteStore},
      s.store.insertAgent d.platform
        (pendingRecord d m principal aliasName (requestedProfile args)) = .ok store →
      Routine d m s { s with store := store } := by
    intro aliasName store hstore
    obtain ⟨-, hfree, row, hrow, hagentRow, rfl⟩ := RemoteStore.insertAgent_eq_ok hstore
    refine .single (.tables s _ rfl rfl rfl fun a found hfound => ⟨found, ?_, rfl⟩)
    -- the id of the new row was free
    have hid := (RemoteStore.agentRow_eq_some hagentRow).2.1
    have hne : a ≠ row.id := by
      rintro rfl
      rw [hid, hfree] at hfound
      cases hfound
    rw [RemoteStore.getAgent_setAgent, if_neg hne, hfound]
  cases createEnrollmentToken_inversion d m s principal args with
  | kept h => rw [h]
  | pending _ _ hstore h =>
    rw [h]
    exact hinserted hstore
  | created _ _ _ _ _ hstore _ hstore' h =>
    rw [h]
    obtain ⟨-, -, rfl⟩ := RemoteStore.insertEnrollmentToken_eq_ok hstore'
    refine Relation.ReflTransGen.trans ?_ (routine_audit d m _ _ _ _ _ _ _)
    exact (hinserted hstore).tail (.tables _ _ rfl rfl rfl (.of_eq rfl))

theorem routine_handleAgentEnroll (body : Value) :
    Routine d m s (s.handleAgentEnroll d m body).2 := by
  rcases handleAgentEnroll_inversion d m s body with
    heq | ⟨_, _, _, store, -, -, -, -, -, -, -, -, -, -, hstore, heq⟩
  · rw [heq]
  · rw [heq]
    obtain ⟨-, _, -, -, rfl⟩ := RemoteStore.markEnrollmentTokenUsed_eq_ok hstore
    refine (Relation.ReflTransGen.trans ?_ (routine_writeAgent d m _ _)).trans
      (routine_audit d m _ _ _ _ _ _ _)
    exact .single (.tables s _ rfl rfl rfl (.of_eq rfl))

end Operations

/-! ### Tool calls -/

/-- **A dispatch**: an action with a new id becomes pending, and the rest is routine. -/
def Dispatches (d : Deployment) (m : Moment) (s s' : RemoteControlPlane) : Prop :=
  ∃ action store, s.store.insertAction action = .ok store ∧
    Routine d m { s with
      store := store
      pendingActions := s.pendingActions.set action.id action } s'

section Tools

variable (d) (m) (s : RemoteControlPlane)

theorem routine_audit_pending (pending : OrderedMap String ActionRecord)
    (userId agentId actionId : Option String) (eventType : String) (severity : Severity)
    (metadata : Fields) :
    Routine d m { s with pendingActions := pending }
      { s.audit d m userId agentId actionId eventType severity metadata with
        pendingActions := pending } :=
  .single (.audit { s with pendingActions := pending } userId agentId actionId eventType severity
    metadata)

theorem dispatchAction_routine (principal : RemotePrincipal) (agent : RemoteAgentRecord)
    (tool : RemoteToolName) (capability : RemoteCapability) (args : Fields) :
    Routine d m s (s.dispatchAction d m principal agent tool capability args).2 ∨
      Dispatches d m s (s.dispatchAction d m principal agent tool capability args).2 := by
  cases dispatchAction_inversion d m s principal agent tool capability args with
  | refused e h =>
    rw [h]
    exact .inl .refl
  | sent _ _ _ action store _ _ _ _ _ _ _ _ hstore h =>
    rw [h]
    refine .inr ⟨action, store, hstore, ?_⟩
    refine Relation.ReflTransGen.trans ?_ (routine_sendJson d m _ _ _)
    -- the two audit rows are written before the action is pending
    exact (routine_audit_pending d m { s with store := store } _ _ _ _ _ _ _).trans
      (routine_audit_pending d m _ _ _ _ _ _ _ _)

theorem callRemoteTool_routine (principal : RemotePrincipal) (tool : RemoteToolName)
    (args : Fields) :
    Routine d m s (s.callRemoteTool d m principal tool args).2 ∨
      Dispatches d m s (s.callRemoteTool d m principal tool args).2 := by
  cases callRemoteTool_inversion d m s principal tool args with
  | kept h =>
    rw [h]
    exact .inl .refl
  | tokenCreated _ h =>
    rw [h]
    exact .inl (routine_createEnrollmentToken d m s principal _)
  | policyUpdated agent _ _ _ _ h =>
    rw [h]
    exact .inl (routine_updateAgentPolicy d m s principal agent _)
  | revoked agent _ _ _ h =>
    rw [h]
    exact .inl (routine_revokeAgent d m s principal agent)
  | denied _ _ _ h =>
    rw [h]
    exact .inl (routine_audit d m s _ _ _ _ _ _)
  | dispatched agent _ _ _ h =>
    rw [h]
    exact dispatchAction_routine d m s principal agent tool _ args

end Tools

/-! ### Steps -/

/-- **Which steps are routine**: all but a dispatch, a message, the end of an action, a cleanup and
a shutdown. -/
theorem step_routine (d : Deployment) (s : RemoteControlPlane) (e : Step) :
    Routine d e.moment s (s.step d e) ∨
      ((∃ principal tool args, e.event = .callTool principal tool args) ∧
        Dispatches d e.moment s (s.step d e)) ∨
      (∃ c payload, e.event = .message c payload) ∨ (∃ id, e.event = .actionTimeout id) ∨
      (∃ id, e.event = .actionSettled id) ∨ e.event = .cleanup ∨ e.event = .shutdown := by
  obtain ⟨event, m⟩ := e
  cases event with
  | connect c => exact .inl (routine_connect d m s c)
  | messageFailed c => exact .inl (routine_recover d m s c)
  | socketClosed c => exact .inl (routine_handleClose d m s c)
  | enroll body => exact .inl (routine_handleAgentEnroll d m s body)
  | createEnrollmentToken principal body =>
    exact .inl (routine_createEnrollmentToken d m s principal body)
  | patchArrived request principal agentRef =>
    exact .inl (routine_awaitPatch d m s request principal agentRef)
  | patchBody request body => exact .inl (routine_applyPatch d m s request body)
  | revoke principal agentRef => exact .inl (routine_revokeByRef d m s principal agentRef)
  | authenticationFailed =>
    left
    show Routine d m s (if s.store.isOpen then _ else s)
    split
    · exact routine_audit d m s _ _ _ _ _ _
    · exact .refl
  | callTool principal tool args =>
    rcases callRemoteTool_routine d m s principal tool args with h | h
    · exact .inl h
    · exact .inr (.inl ⟨⟨principal, tool, args, rfl⟩, h⟩)
  | message c payload => exact .inr (.inr (.inl ⟨c, payload, rfl⟩))
  | actionTimeout id => exact .inr (.inr (.inr (.inl ⟨id, rfl⟩)))
  | actionSettled id => exact .inr (.inr (.inr (.inr (.inl ⟨id, rfl⟩))))
  | cleanup => exact .inr (.inr (.inr (.inr (.inr (.inl rfl)))))
  | shutdown => exact .inr (.inr (.inr (.inr (.inr (.inr rfl)))))

end RemoteControlPlane
end Remote
