import McpSshTool.Library.EventLog
import McpSshTool.Remote.ConnectionConsistency
import McpSshTool.Remote.Keys

/-!
# The audit trail

What the rows of `audit_events` say about agents and actions, and that it is so.

* `statusAfter` and `stageAfter` — what an audit event says of the status of an agent, and of the
  stage of an action: requested, completed or failed;
* `statusLog` and `stageLog` — the trail as a log of either;
* `Traced` — an operation adds to the trail what it does to the rows;
* `traced_written` — a write of a row with its event;
* `traced_close`, `traced_acceptHello`, … — the operations of the control plane.

An operation writes the row and the event in an order of its own: a revocation writes the row,
closes the agent's connection, which has an event of its own, and then adds its event.
-/

open Library

namespace Remote
namespace RemoteControlPlane

/-! ### What an event says -/

/-- The types of the events that say what status an agent has. -/
def statusEvents : List String :=
  ["enrollment_token_created", "agent_enrolled", "agent_connected", "agent_disconnected",
    "agent_revoked"]

/-- What a type of event makes of the status of its agent. -/
def statusOn (eventType : String) (status : Option AgentStatus) : Option AgentStatus :=
  if eventType = "enrollment_token_created" then some .pending
  else if eventType = "agent_enrolled" then some .offline
  else if eventType = "agent_connected" then some .online
  else if eventType = "agent_disconnected" then
    status.map fun status => if status = .revoked then .revoked else .offline
  else if eventType = "agent_revoked" then some .revoked
  else status

/-- **What an event says of the status** of an agent. -/
def statusAfter (a : String) (status : Option AgentStatus) (event : AuditEvent) :
    Option AgentStatus :=
  if event.agentId = some a then statusOn event.eventType status else status

/-- How far an action has come. -/
inductive ActionStage where
  | requested | completed | failed
deriving DecidableEq, Repr

/-- The types of the events that say how far an action has come. -/
def stageEvents : List String := ["action_requested", "action_completed", "action_denied_or_failed"]

/-- What a type of event makes of the stage of its action. -/
def stageOn (eventType : String) (stage : Option ActionStage) : Option ActionStage :=
  if eventType = "action_requested" then some .requested
  else if eventType = "action_completed" then stage.map fun _ => .completed
  else if eventType = "action_denied_or_failed" then stage.map fun _ => .failed
  else stage

/-- **What an event says of the stage** of an action. -/
def stageAfter (id : String) (stage : Option ActionStage) (event : AuditEvent) :
    Option ActionStage :=
  if event.actionId = some id then stageOn event.eventType stage else stage

/-- The stage that the status of a row stands for. -/
def stageOf : ActionStatus → ActionStage
  | .pending | .sent => .requested
  | .completed => .completed
  | .denied | .timeout | .error => .failed

/-- The stage that the row of an action is in. -/
def storedStage (s : RemoteControlPlane) (id : String) : Option ActionStage :=
  (s.store.actions.get? id).map fun action => stageOf action.status

/-- The trail, as a log of the status of an agent. -/
def statusLog (a : String) : EventLog RemoteControlPlane AuditEvent (Option AgentStatus) where
  log s := s.store.auditEvents
  view s := s.storedStatus a
  apply := statusAfter a

/-- The trail, as a log of the stage of an action. -/
def stageLog (id : String) : EventLog RemoteControlPlane AuditEvent (Option ActionStage) where
  log s := s.store.auditEvents
  view s := s.storedStage id
  apply := stageAfter id

@[simp] theorem statusLog_view (a : String) (s : RemoteControlPlane) :
    (statusLog a).view s = s.storedStatus a := rfl

@[simp] theorem statusLog_apply (a : String) (status : Option AgentStatus) (event : AuditEvent) :
    (statusLog a).apply status event = statusAfter a status event := rfl

@[simp] theorem stageLog_view (id : String) (s : RemoteControlPlane) :
    (stageLog id).view s = s.storedStage id := rfl

@[simp] theorem stageLog_apply (id : String) (stage : Option ActionStage) (event : AuditEvent) :
    (stageLog id).apply stage event = stageAfter id stage event := rfl

theorem statusOn_of_not_mem {eventType : String} (h : eventType ∉ statusEvents)
    (status : Option AgentStatus) : statusOn eventType status = status := by
  simp only [statusEvents, List.mem_cons, List.not_mem_nil, or_false, not_or] at h
  obtain ⟨hcreated, henrolled, hconnected, hdisconnected, hrevoked⟩ := h
  unfold statusOn
  rw [if_neg hcreated, if_neg henrolled, if_neg hconnected, if_neg hdisconnected, if_neg hrevoked]

theorem stageOn_of_not_mem {eventType : String} (h : eventType ∉ stageEvents)
    (stage : Option ActionStage) : stageOn eventType stage = stage := by
  simp only [stageEvents, List.mem_cons, List.not_mem_nil, or_false, not_or] at h
  obtain ⟨hrequested, hcompleted, hfailed⟩ := h
  unfold stageOn
  rw [if_neg hrequested, if_neg hcompleted, if_neg hfailed]

theorem statusAfter_of_eq {a : String} {event : AuditEvent} (h : event.agentId = some a)
    (status : Option AgentStatus) : statusAfter a status event = statusOn event.eventType status :=
  if_pos h

theorem statusAfter_of_ne {a : String} {event : AuditEvent} (h : event.agentId ≠ some a)
    (status : Option AgentStatus) : statusAfter a status event = status :=
  if_neg h

theorem stageAfter_of_none {id : String} {event : AuditEvent} (h : event.actionId = none)
    (stage : Option ActionStage) : stageAfter id stage event = stage := by
  unfold stageAfter
  rw [h]
  exact if_neg (Option.some_ne_none id).symm

theorem statusAfter_disconnected {a : String} {event : AuditEvent}
    (h : event.eventType = "agent_disconnected") :
    statusAfter a (some .revoked) event = some .revoked := by
  unfold statusAfter
  rw [h]
  exact ite_self _

/-! ### Operations that are traced -/

/-- **A closed database has no agent that is registered**, whose connection could still close. -/
def Quiescent (s : RemoteControlPlane) : Prop :=
  s.store.isOpen = false → ∀ a, s.agentConnections.get? a = none

/-- **An operation is traced**: it does to the rows what the events say that it adds, which are of
the kind `p`. -/
structure TracedFrom (p : AuditEvent → Prop) (s s' : RemoteControlPlane) : Prop where
  quiescent : s'.Quiescent
  status : ∀ a, (statusLog a).Accounts p s s'
  stage : ∀ id, (stageLog id).Accounts p s s'

/-- An operation is traced wherever a closed database has no agent that is registered. -/
abbrev Traced (p : AuditEvent → Prop) (s s' : RemoteControlPlane) : Prop :=
  s.Quiescent → TracedFrom p s s'

theorem TracedFrom.trans {p : AuditEvent → Prop} {s s' s'' : RemoteControlPlane}
    (h : TracedFrom p s s') (h' : Traced p s' s'') : TracedFrom p s s'' := by
  have hrest := h' h.quiescent
  exact ⟨hrest.quiescent, fun a => (h.status a).trans (hrest.status a),
    fun id => (h.stage id).trans (hrest.stage id)⟩

namespace Traced

variable {p q : AuditEvent → Prop} {s s' s'' : RemoteControlPlane}

theorem trans (h : Traced p s s') (h' : Traced p s' s'') : Traced p s s'' := fun hs =>
  (h hs).trans h'

theorem mono (hpq : ∀ e, p e → q e) (h : Traced p s s') : Traced q s s' := fun hs =>
  ⟨(h hs).quiescent, fun a => ((h hs).status a).mono hpq, fun id => ((h hs).stage id).mono hpq⟩

/-- What writes neither these rows nor the trail, and registers nobody. -/
theorem of_eq (hopen : s'.store.isOpen = s.store.isOpen)
    (hagents : s'.store.agents = s.store.agents)
    (hactions : s'.store.actions = s.store.actions)
    (haudit : s'.store.auditEvents = s.store.auditEvents)
    (hlive : ∀ a, s.agentConnections.get? a = none → s'.agentConnections.get? a = none) :
    Traced p s s' := by
  intro hs
  refine ⟨fun hclosed a => hlive a (hs (hopen.symm.trans hclosed) a), fun a => .of_eq haudit ?_,
    fun id => .of_eq haudit ?_⟩
  · show s'.storedStatus a = s.storedStatus a
    rw [storedStatus, RemoteStore.getAgent, hagents]
    rfl
  · show s'.storedStage id = s.storedStage id
    rw [storedStage, hactions]
    rfl

theorem refl (s : RemoteControlPlane) : Traced p s s := .of_eq rfl rfl rfl rfl fun _ h => h

end Traced

/-- Any event. -/
abbrev anyEvent : AuditEvent → Prop := fun _ => True

/-- The events of connections that close. -/
abbrev IsDisconnection (event : AuditEvent) : Prop := event.eventType = "agent_disconnected"

section Operations

variable (d : Deployment) (m : Moment) (s : RemoteControlPlane)

/-- **An event that says nothing** of a status or a stage. -/
theorem traced_audit (userId agentId actionId : Option String) {eventType : String}
    (severity : Severity) (metadata : Fields) (hstatus : eventType ∉ statusEvents)
    (hstage : eventType ∉ stageEvents) :
    Traced anyEvent s (s.audit d m userId agentId actionId eventType severity metadata) := by
  refine fun hs => ⟨hs, fun a => .single rfl trivial ?_, fun id => .single rfl trivial ?_⟩
  · exact ((ite_congr rfl (fun _ => statusOn_of_not_mem hstatus _) fun _ => rfl).trans
      (ite_self _)).symm
  · exact ((ite_congr rfl (fun _ => stageOn_of_not_mem hstage _) fun _ => rfl).trans
      (ite_self _)).symm

theorem traced_sendJson {p : AuditEvent → Prop} (c : ConnectionId) (message : ServerMessage) :
    Traced p s (s.sendJson c message) := by
  unfold sendJson
  split
  · exact .refl s
  · exact .of_eq rfl rfl rfl rfl fun _ h => h

/-! ### Writes with their events -/

/-- **The row of an agent is written**, and nothing that the trail tells beside it. -/
structure RowWritten (a : String) (status : Option AgentStatus) (s s' : RemoteControlPlane) :
    Prop where
  isOpen : s'.store.isOpen = s.store.isOpen
  actions : s'.store.actions = s.store.actions
  auditEvents : s'.store.auditEvents = s.store.auditEvents
  live : ∀ x, s.agentConnections.get? x = none → s'.agentConnections.get? x = none
  status : ∀ x, s'.storedStatus x = if x = a then status else s.storedStatus x

/-- **A write with its event**, which says the status that was written. -/
theorem traced_written {p : AuditEvent → Prop} {s' : RemoteControlPlane} {a : String}
    {status : Option AgentStatus} (h : RowWritten a status s s') (userId : Option String)
    {eventType : String} (severity : Severity) (metadata : Fields)
    (htold : statusOn eventType (s.storedStatus a) = status)
    (hp : ∀ event : AuditEvent, event.eventType = eventType → p event) :
    Traced p s (s'.audit d m userId (some a) none eventType severity metadata) := by
  intro hs
  refine ⟨fun hclosed x => h.live x (hs (h.isOpen.symm.trans hclosed) x), fun x => ?_, fun id => ?_⟩
  · refine .single (congrArg (· ++ [_]) h.auditEvents) (hp _ rfl) ?_
    show s'.storedStatus x = statusAfter x (s.storedStatus x) _
    rw [h.status]
    by_cases hx : x = a
    · rw [if_pos hx, statusAfter_of_eq (congrArg some hx.symm), hx, htold]
    · rw [if_neg hx, statusAfter_of_ne fun h => hx (Option.some.inj h).symm]
  · refine .single (congrArg (· ++ [_]) h.auditEvents) (hp _ rfl) ?_
    rw [stageLog_view, stageLog_view, stageLog_apply, stageAfter_of_none rfl]
    show (s'.store.actions.get? id).map _ = _
    rw [h.actions]
    rfl

theorem rowWritten_updateAgent {store : RemoteStore} {agent : RemoteAgentRecord}
    (h : s.store.updateAgent d.platform agent = .ok store) :
    RowWritten agent.id ((s.storedStatus agent.id).map fun _ => agent.status) s
      { s with store := store } := by
  obtain ⟨hopen, hactions, haudit, -⟩ := tables_updateAgent d h
  refine ⟨hopen, hactions, haudit, fun _ h => h, fun x => ?_⟩
  refine (storedStatus_of_updateAgent h x).trans ?_
  split
  · next hx => rw [hx]
  · rfl

/-- **A record written back** under the alias of its row: the write goes through. -/
theorem rowWritten_writeAgent (agent : RemoteAgentRecord) (hopen : s.store.isOpen = true)
    (halias : s.storedAlias agent.id = some agent.aliasName)
    (hprofile : ∃ text, agent.profile = .str text) :
    RowWritten agent.id (some agent.status) s (s.writeAgent d agent) := by
  obtain ⟨store, hstore⟩ := updateAgent_isOk (d := d) agent hopen halias hprofile
  have hwritten := rowWritten_updateAgent d s hstore
  obtain ⟨old, hold, -⟩ := Option.map_eq_some_iff.mp halias
  rw [storedStatus, hold] at hwritten
  unfold writeAgent
  rw [hstore]
  exact hwritten

/-! ### Closing -/

theorem auditEvents_markOffline (a : String) :
    (s.markOffline d m a).store.auditEvents = s.store.auditEvents := by
  unfold markOffline writeAgent
  split
  · rfl
  · split
    · rfl
    · split
      · next hstore => exact (tables_updateAgent d hstore).2.2.1
      · rfl

theorem traced_agentDisconnected (c : ConnectionId) (handler : CloseHandler) :
    Traced IsDisconnection s (s.agentDisconnected d m c handler) := by
  intro hs
  unfold agentDisconnected
  cases hlive : s.agentConnections.get? handler.agentId with
  | none => exact Traced.refl s hs
  | some =>
    dsimp only
    split
    · exact Traced.refl s hs
    · -- the agent is registered, so the database is open
      have hopen : s.store.isOpen = true := by
        by_contra hclosed
        have hnone := hs (by simpa using hclosed) handler.agentId
        exact absurd (hlive.symm.trans hnone) (by simp)
      let s₀ : RemoteControlPlane := { s with
        agentConnections := s.agentConnections.delete handler.agentId }
      have hoffline := routine_markOffline d m s₀ handler.agentId
      have hactions := actions_of_routine hoffline
      have hwritten : RowWritten handler.agentId
          ((s.storedStatus handler.agentId).map fun status =>
            if status = .revoked then .revoked else .offline) s
          (s₀.markOffline d m handler.agentId) := by
        refine ⟨(frame_of_routine d m hoffline).isOpen, hactions, ?_, fun x hx => ?_, fun x => ?_⟩
        · exact auditEvents_markOffline d m s₀ handler.agentId
        · have hlive := liveConnection_markOffline (d := d) (m := m) (s := s₀) handler.agentId x
          rw [liveConnection, liveConnection_delete, liveConnection, hx] at hlive
          simpa using hlive
        · rw [storedStatus_markOffline (s := s₀) hopen]
          split
          · next hx => rw [hx]; rfl
          · rfl
      exact traced_written d m s hwritten (some handler.userId) .info [] rfl (fun _ h => h) hs

theorem traced_notifyClose (c : ConnectionId) (connection : Connection) :
    Traced IsDisconnection s (s.notifyClose d m c connection) := by
  have hfold : ∀ (handlers : List CloseHandler) (s' : RemoteControlPlane),
      Traced IsDisconnection s s' → Traced IsDisconnection s
        (handlers.foldl (fun s handler => s.agentDisconnected d m c handler) s') := by
    intro handlers
    induction handlers with
    | nil => exact fun _ h => h
    | cons handler handlers ih =>
      intro s' h
      rw [List.foldl_cons]
      exact ih _ (h.trans (traced_agentDisconnected d m s' c handler))
  unfold notifyClose
  split
  · exact .of_eq rfl rfl rfl rfl fun _ h => h
  · exact hfold _ _ (.of_eq rfl rfl rfl rfl fun _ h => h)

theorem traced_close (c : ConnectionId) : Traced IsDisconnection s (s.close d m c) := by
  unfold close
  split
  · exact .refl s
  · split
    · exact .refl s
    · exact traced_notifyClose d m s c _

theorem traced_handleClose (c : ConnectionId) : Traced IsDisconnection s (s.handleClose d m c) := by
  unfold handleClose
  split
  · exact .refl s
  · exact traced_notifyClose d m s c _

theorem traced_reject (c : ConnectionId) (code : RemoteErrorCode) (message : String) :
    Traced IsDisconnection s (s.reject d m c code message) :=
  (traced_sendJson s c _).trans (traced_close d m _ c)

/-! ### Messages -/

theorem traced_auditAgent (agent : RemoteAgentRecord) {eventType : String} (severity : Severity)
    (metadata : Fields) (hstatus : eventType ∉ statusEvents) (hstage : eventType ∉ stageEvents) :
    Traced anyEvent s (s.auditAgent d m agent eventType severity metadata) :=
  traced_audit d m s _ _ _ severity metadata hstatus hstage

theorem traced_cleanupEphemeralState {p : AuditEvent → Prop} (now : ℤ) :
    Traced p s (s.cleanupEphemeralState now) := by
  refine .of_eq rfl rfl rfl rfl fun a hnone => ?_
  show (s.agentConnections.mapValues _).get? a = none
  rw [OrderedMap.get?_mapValues, hnone]
  rfl

/-- **An accepted hello**: the event of the earlier connection comes first, and the row is written
before the event of this one. -/
theorem traced_acceptHello (c : ConnectionId) (hello : AgentHelloEnvelope)
    {agent : RemoteAgentRecord} (hopen : s.store.isOpen = true)
    (hagent : s.store.getAgent agent.id = some agent) :
    Traced anyEvent s (s.acceptHello d m c hello agent) := by
  -- a registration is not traced on a closed database, but this one is open
  have hregistered : Traced anyEvent s (s.registerHello d m c hello agent) ∧
      (s.registerHello d m c hello agent).store.isOpen = true ∧
        ∀ x, (s.registerHello d m c hello agent).storedAlias x = s.storedAlias x := by
    have hregister : ∀ (s' : RemoteControlPlane) (connections : OrderedMap String AgentConnection),
        Traced anyEvent s s' → s'.store.isOpen = true → (∀ x, s'.storedAlias x = s.storedAlias x) →
          Traced anyEvent s { s' with agentConnections := connections } ∧
            s'.store.isOpen = true ∧ ∀ x, s'.storedAlias x = s.storedAlias x := by
      intro s' connections h hopen' halias
      refine ⟨fun hs => ⟨fun hclosed => ?_, (h hs).status, (h hs).stage⟩, hopen', halias⟩
      exact absurd (hopen'.symm.trans hclosed) (by decide)
    have hremembered : ∀ nonces, Traced anyEvent s
        { s.cleanupEphemeralState m.later with agentHelloNonces := nonces } := fun nonces =>
      (traced_cleanupEphemeralState s m.later).trans (.of_eq rfl rfl rfl rfl fun _ h => h)
    unfold registerHello
    dsimp only
    split
    · next existing _ =>
      refine hregister _ _
        ((hremembered _).trans ((traced_close d m _ existing.connection).mono fun _ _ => trivial))
        ?_ fun x => ?_
      · rw [(frame_close d m _ _).isOpen]
        exact hopen
      · rw [storedAlias_close]
        rfl
    · exact hregister _ _ (hremembered _) hopen fun _ => rfl
  obtain ⟨htraced, hopen', halias⟩ := hregistered
  have hwritten := rowWritten_writeAgent d (s.registerHello d m c hello agent)
    (onlineRecord d m hello agent) hopen'
    (by rw [halias, storedAlias, show (onlineRecord d m hello agent).id = agent.id from rfl,
      hagent]; rfl)
    (RemoteStore.getAgent_rows hagent).2.profile_text
  unfold acceptHello
  dsimp only
  refine (htraced.trans ?_).trans (traced_sendJson _ c _)
  generalize RemoteControlPlane.registerHello d m c hello agent s = s₁ at hwritten
  have hhandler : RowWritten agent.id (some .online) s₁
      ((s₁.writeAgent d (onlineRecord d m hello agent)).onClose c
        { agentId := agent.id, userId := agent.userId }) :=
    ⟨hwritten.isOpen, hwritten.actions, hwritten.auditEvents, hwritten.live, hwritten.status⟩
  exact traced_written d m s₁ hhandler (some agent.userId) .info _ rfl fun _ _ => trivial

theorem traced_handleAgentHello (c : ConnectionId) (hello : AgentHelloEnvelope) :
    Traced anyEvent s (s.handleAgentHello d m c hello).2 := by
  have hreject : ∀ (s' : RemoteControlPlane) (code : RemoteErrorCode) (message : String),
      Traced anyEvent s s' → Traced anyEvent s (s'.reject d m c code message) :=
    fun s' code message h => h.trans ((traced_reject d m s' c code message).mono fun _ _ => trivial)
  unfold handleAgentHello
  cases hopen : s.store.isOpen with
  | false => exact .refl s
  | true =>
    rw [if_neg (by decide)]
    dsimp only
    cases hverdict : s.helloVerdict d m c hello with
    | notEnrolled => exact hreject s _ _ (.refl s)
    | signatureInvalid agent =>
      exact hreject _ _ _ (traced_auditAgent d m s agent _ _ (by decide) (by decide))
    | expired agent =>
      exact hreject _ _ _ (traced_auditAgent d m s agent _ _ (by decide) (by decide))
    | duplicate agent =>
      exact hreject _ _ _ ((traced_cleanupEphemeralState s m.later).trans
        (traced_auditAgent d m _ agent _ _ (by decide) (by decide)))
    | replayed agent =>
      exact hreject _ _ _ ((traced_cleanupEphemeralState s m.later).trans
        (traced_auditAgent d m _ agent _ _ (by decide) (by decide)))
    | accepted =>
      exact traced_acceptHello d m s c hello hopen (helloVerdict_accepted d m s hverdict).1

theorem traced_refuseResult (action : ActionRecord) {eventType : String}
    (code : Option RemoteErrorCode) (hstatus : eventType ∉ statusEvents)
    (hstage : eventType ∉ stageEvents) :
    Traced anyEvent s (s.refuseResult d m action eventType code) :=
  (traced_audit d m s _ _ _ .warn [] hstatus hstage).trans (.of_eq rfl rfl rfl rfl fun _ h => h)

theorem traced_handleActionResult (c : ConnectionId) (result : ActionResultEnvelope) :
    Traced anyEvent s (s.handleActionResult d m c result).2 := by
  unfold handleActionResult
  split
  · exact .refl s
  next action haction =>
  dsimp only
  split
  · exact .refl s
  split
  · exact traced_refuseResult d m s action _ (by decide) (by decide)
  split
  · exact traced_refuseResult d m s action _ (by decide) (by decide)
  next live hlive =>
  -- the window of a registration is written, under an agent that is registered
  have hwindow : ∀ window, Traced anyEvent s { s with
      agentConnections :=
        s.agentConnections.set result.agent_id { live with seenNonces := window } } := by
    intro window
    refine .of_eq rfl rfl rfl rfl fun a hnone => ?_
    rw [OrderedMap.get?_set_of_ne _ fun ha => ?_]
    · exact hnone
    · rw [ha, hlive] at hnone
      cases hnone
  split
  · exact traced_refuseResult d m s action _ (by decide) (by decide)
  split
  · exact (hwindow _).trans (traced_refuseResult d m _ action _ (by decide) (by decide))
  · exact (hwindow _).trans (.of_eq rfl rfl rfl rfl fun _ h => h)

theorem traced_receive (c : ConnectionId) (payload : Option Value) :
    Traced anyEvent s (s.receive d m c payload) := by
  cases receive_inversion d m s c payload with
  | failed _ h =>
    rw [h]
    exact .of_eq rfl rfl rfl rfl fun _ h => h
  | rejected code message _ h =>
    rw [h]
    exact (traced_reject d m s c code message).mono fun _ _ => trivial
  | hello hello _ _ h =>
    rw [h]
    exact traced_handleAgentHello d m s c hello
  | result result _ _ h =>
    rw [h]
    exact traced_handleActionResult d m s c result

theorem traced_recover (c : ConnectionId) : Traced anyEvent s (s.recover d m c) := by
  unfold recover
  split
  · refine Traced.trans ?_ ((traced_reject d m _ c _ _).mono fun _ _ => trivial)
    exact .of_eq rfl rfl rfl rfl fun _ h => h
  · exact .refl s

/-! ### Owners -/

/-- **A revocation** writes the row, closes the agent's connection and then adds its event; the
event of the connection leaves a revoked agent as it is. -/
theorem traced_revokeAgent (principal : RemotePrincipal) {agent : RemoteAgentRecord}
    (hopen : s.store.isOpen = true) (hagent : s.store.getAgent agent.id = some agent) :
    Traced anyEvent s (s.revokeAgent d m principal agent).2 := by
  intro hs
  unfold revokeAgent
  split
  · exact Traced.refl s hs
  have hwritten := rowWritten_writeAgent d s (revokedRecord d m agent) hopen
    (by rw [storedAlias, show (revokedRecord d m agent).id = agent.id from rfl, hagent]; rfl)
    (RemoteStore.getAgent_rows hagent).2.profile_text
  -- the connection that may have closed
  have hclosed : ∀ s₂ : RemoteControlPlane,
      Traced IsDisconnection (s.writeAgent d (revokedRecord d m agent)) s₂ →
        TracedFrom anyEvent s (({ s₂ with
          agentConnections := s₂.agentConnections.delete agent.id }).audit d m
            (some principal.userId) (some agent.id) none "agent_revoked" .warn []) := by
    intro s₂ h
    have hquiescent : (s.writeAgent d (revokedRecord d m agent)).Quiescent := fun hclosed =>
      absurd (hopen.symm.trans (hwritten.isOpen.symm.trans hclosed)) (by decide)
    obtain ⟨hquiescent₂, hstatus, hstage⟩ := h hquiescent
    refine ⟨fun hclosed x => ?_, fun x => ?_, fun id => ?_⟩
    · show (s₂.agentConnections.delete agent.id).get? x = none
      rw [OrderedMap.get?_delete, hquiescent₂ hclosed x]
      exact ite_self none
    · refine .late hwritten.auditEvents (hstatus x) rfl fun new hnew hview => ?_
      show s₂.storedStatus x = statusAfter x _ _
      refine Eq.trans hview ?_
      rw [statusLog_view, hwritten.status]
      by_cases hx : x = (revokedRecord d m agent).id
      · rw [if_pos hx]
        refine Eq.trans ?_ (statusAfter_of_eq (congrArg some hx.symm) _).symm
        exact EventLog.replay_of_fixed _ fun event hmem => statusAfter_disconnected
          (hnew event hmem)
      · rw [if_neg hx]
        exact (statusAfter_of_ne (fun h => hx (Option.some.inj h).symm) _).symm
    · refine .late hwritten.auditEvents (hstage id) rfl fun new _ hview => ?_
      show s₂.storedStage id = (stageLog id).apply _ _
      rw [stageLog_apply, stageAfter_of_none rfl]
      refine Eq.trans hview ?_
      rw [stageLog_view, storedStage, hwritten.actions]
      rfl
  dsimp only
  split
  · exact hclosed _ (.refl _)
  · exact hclosed _ (traced_close d m _ _)

theorem traced_revokeByRef (principal : RemotePrincipal) (agentRef : String) :
    Traced anyEvent s (s.revokeByRef d m principal agentRef) := by
  unfold revokeByRef
  split
  · exact .refl s
  · next hopen =>
    split
    · exact .refl s
    · next agent hagent =>
      exact traced_revokeAgent d m s principal (by simpa using hopen)
        (resolveAgent_eq_some hagent).1

/-- **A policy update** says nothing of a status, so it is traced if the record it writes has the
status of the row. -/
theorem traced_updateAgentPolicy (principal : RemotePrincipal) (agent : RemoteAgentRecord)
    (value : Value)
    (hstatus : ∀ policy, updatedPolicy d agent value = some policy →
      Stores d m s principal agent policy → ∀ old, s.store.getAgent agent.id = some old →
        agent.status = old.status) :
    Traced anyEvent s (s.updateAgentPolicy d m principal agent value).2 := by
  unfold updateAgentPolicy
  split
  · exact .refl s
  next hcapability =>
  split
  · exact .refl s
  next policy hpolicy =>
  dsimp only
  split
  · exact .refl s
  next store hstore =>
  have hsame := hstatus policy hpolicy ⟨by simpa using hcapability, store, hstore⟩
  obtain ⟨hisOpen, hactions, haudit, -⟩ := tables_updateAgent d hstore
  have hwritten := rowWritten_updateAgent d s hstore
  have hstored : Traced anyEvent s { s with store := store } := by
    intro hs
    refine ⟨fun hclosed => hs (hisOpen.symm.trans hclosed), fun x => .of_eq haudit ?_,
      fun id => .of_eq haudit ?_⟩
    · rw [statusLog_view, statusLog_view, hwritten.status]
      split
      · next hx =>
        -- the status that is written is the one that was there
        rw [hx, show (policyRecord d m agent policy).id = agent.id from rfl, storedStatus]
        cases hold : s.store.getAgent agent.id with
        | none => rfl
        | some old => exact congrArg some (hsame old hold)
      · rfl
    · rw [stageLog_view, stageLog_view, storedStage, hactions]
      rfl
  refine Traced.trans ?_ (traced_audit d m _ _ _ _ _ _ (by decide) (by decide))
  split
  · exact hstored
  · exact hstored.trans (traced_sendJson _ _ _)

theorem traced_awaitPatch (request : ℕ) (principal : RemotePrincipal) (agentRef : String) :
    Traced anyEvent s (s.awaitPatch request principal agentRef) := by
  unfold awaitPatch
  split
  · exact .refl s
  · split
    · exact .refl s
    · exact .of_eq rfl rfl rfl rfl fun _ h => h

/-! ### Enrollment -/

theorem traced_handleAgentEnroll (body : Value) :
    Traced anyEvent s (s.handleAgentEnroll d m body).2 := by
  rcases handleAgentEnroll_inversion d m s body with
    heq | ⟨host, token, agent, store, -, -, -, -, hopen, -, -, -, hagent, -, hstore, heq⟩
  · rw [heq]
    exact .refl s
  · rw [heq]
    obtain ⟨-, row, -, -, rfl⟩ := RemoteStore.markEnrollmentTokenUsed_eq_ok hstore
    have hid := (RemoteStore.getAgent_rows hagent).1
    rw [← hid] at hagent
    let used : RemoteControlPlane := { s with
      store := { s.store with
        enrollmentTokens := s.store.enrollmentTokens.set token.tokenHash
          { row with usedAt := some (nowIso d m) } } }
    have hused : Traced anyEvent s used := .of_eq rfl rfl rfl rfl fun _ h => h
    have hwritten := rowWritten_writeAgent d used
      (enrolledRecord d m ((body.member "public_key").asString.getD "") host agent) hopen
      (congrArg (Option.map _) hagent) (RemoteStore.getAgent_rows hagent).2.profile_text
    exact hused.trans (traced_written d m used hwritten (some agent.userId) .info _ rfl
      fun _ _ => trivial)

/-- **A request for a token** that creates an agent: the token has to be inserted as well, for the
event of the new agent is added after it. -/
theorem traced_createEnrollmentToken {e : Step} {principal : RemotePrincipal} {args : Value}
    (hrequest : enrollmentRequest e = some (principal, args))
    (hcreates : CreatesAgent s e → expiryText d e.moment ≠ none ∧ TokenFree d e.moment s) :
    Traced anyEvent s (s.createEnrollmentToken d e.moment principal args).2 := by
  by_cases hcreated : CreatesAgent s e
  · obtain ⟨hexpiry, hfree⟩ := hcreates hcreated
    obtain ⟨principal', args', aliasName, hrequest', halias, hinserts⟩ := hcreated
    obtain ⟨rfl, rfl⟩ := Prod.mk.inj (Option.some.inj (hrequest.symm.trans hrequest'))
    rcases createEnrollmentToken_inserts (d := d) halias hinserts with
      ⟨error, hfails, -⟩ | ⟨expiresAt, reply, metadata, -, -, houtcome⟩
    · exact absurd hfails (not_or.mpr ⟨hexpiry, not_not.mpr hfree⟩)
    · rw [houtcome]
      have hwritten : RowWritten (freshId e.moment "agt") (some .pending) s
          { withPending d e.moment principal aliasName (requestedProfile args) s with
            store :=
              { (withPending d e.moment principal aliasName (requestedProfile args) s).store with
              enrollmentTokens :=
                s.store.enrollmentTokens.set (hashSecret d.platform e.moment.token)
                (enrollmentToken d e.moment principal expiresAt) } } := by
        refine ⟨rfl, rfl, rfl, fun _ h => h, fun x => ?_⟩
        refine (congrArg (Option.map _) (getAgent_withPending d s _ _ _ _ x)).trans ?_
        split <;> rfl
      exact traced_written d e.moment s hwritten (some principal.userId) .info metadata rfl
        fun _ _ => trivial
  · rw [← step_of_enrollmentRequest d hrequest, step_of_not_createsAgent d hrequest hcreated]
    exact .refl s

/-! ### Actions -/

/-- **A dispatch** inserts its action and adds two events, the first of which says so. -/
theorem traced_dispatchAction (principal : RemotePrincipal) (agent : RemoteAgentRecord)
    (tool : RemoteToolName) (capability : RemoteCapability) (args : Fields) :
    Traced anyEvent s (s.dispatchAction d m principal agent tool capability args).2 := by
  cases dispatchAction_inversion d m s principal agent tool capability args with
  | refused e h =>
    rw [h]
    exact .refl s
  | sent live _ _ action store about _ _ _ _ _ hsent _ hstore h =>
    rw [h]
    obtain ⟨-, -, rfl⟩ := RemoteStore.insertAction_eq_ok hstore
    let inserted : RemoteControlPlane :=
      { s with store := { s.store with actions := s.store.actions.set action.id action } }
    have hrequested : Traced anyEvent s (inserted.audit d m (some principal.userId) (some agent.id)
        (some action.id) "action_requested" .info about) := by
      refine fun hs => ⟨hs, fun x => .single rfl trivial ?_, fun id => .single rfl trivial ?_⟩
      · exact (ite_self _).symm
      · show inserted.storedStage id = _
        have hget : inserted.storedStage id =
            if id = action.id then some .requested else s.storedStage id := by
          unfold storedStage
          show ((s.store.actions.set action.id action).get? id).map _ = _
          rw [OrderedMap.get?_set]
          split
          · rw [Option.map_some, hsent]
            rfl
          · rfl
        rw [hget, stageLog_apply, stageLog_view]
        unfold stageAfter
        by_cases hid : id = action.id
        · rw [if_pos hid, if_pos (congrArg some hid.symm)]
          rfl
        · rw [if_neg hid, if_neg fun h => hid (Option.some.inj h).symm]
    refine (hrequested.trans ?_).trans (traced_sendJson _ _ _)
    refine (traced_audit d m _ (some principal.userId) (some agent.id) (some action.id) .info about
      (show "action_allowed" ∉ statusEvents by decide) (by decide)).trans ?_
    exact .of_eq rfl rfl rfl rfl fun _ h => h

theorem traced_timeOut (id : String) : Traced anyEvent s (s.timeOut id) := by
  unfold timeOut
  split
  · exact .refl s
  · exact .of_eq rfl rfl rfl rfl fun _ h => h

/-- The event of an action that has ended, and the stage that its row is written with. -/
theorem auditFinished_stage (action : ActionRecord) (outcome : ActionOutcome) :
    ∃ eventType severity metadata, eventType ∉ statusEvents ∧
      (∀ stage, stageOn eventType (some stage) =
        some (stageOf (finishedAction d m action outcome).status)) ∧
      stageOn eventType none = none ∧
      ∀ s : RemoteControlPlane, s.auditFinished d m action outcome =
        s.audit d m (some action.userId) (some action.agentId) (some action.id) eventType severity
          metadata := by
  cases outcome with
  | resolved result =>
    by_cases hstatus : result.status = .ok
    · refine ⟨"action_completed", _, _, by decide, fun stage => ?_, rfl,
        fun s => by rw [auditFinished, if_pos hstatus]⟩
      rw [finishedAction, if_pos hstatus]
      rfl
    · refine ⟨"action_denied_or_failed", _, _, by decide, fun stage => ?_, rfl,
        fun s => by rw [auditFinished, if_neg hstatus]⟩
      rw [finishedAction, if_neg hstatus]
      rfl
  | rejected =>
    refine ⟨"action_denied_or_failed", _, _, by decide, fun stage => ?_, rfl, fun _ => rfl⟩
    unfold finishedAction
    dsimp only
    split <;> rfl

/-- **The end of an action** is written to its row and to the trail. -/
theorem traced_resume (id : String) : Traced anyEvent s (s.resume d m id) := by
  unfold resume
  split
  · exact .refl s
  next action outcome hfind =>
  let taken : RemoteControlPlane := { s with settled := s.settled.eraseP fun e => e.1.id = id }
  have htaken : Traced anyEvent s taken := .of_eq rfl rfl rfl rfl fun _ h => h
  unfold finishDispatch
  split
  · exact htaken
  next store hstore =>
  obtain ⟨-, rfl⟩ := RemoteStore.updateAction_eq_ok hstore
  have hid : (finishedAction d m action outcome).id = action.id := by
    cases outcome <;> rfl
  obtain ⟨eventType, severity, metadata, hstatus, hsome, hnone, heq⟩ :=
    auditFinished_stage d m action outcome
  refine htaken.trans fun hs => ?_
  dsimp only
  rw [heq]
  refine ⟨hs, fun x => .single rfl trivial ?_, fun id' => .single rfl trivial ?_⟩
  · exact ((ite_congr rfl (fun _ => statusOn_of_not_mem hstatus _) fun _ => rfl).trans
      (ite_self _)).symm
  · show ((s.store.actions.modify _ _).get? id').map (fun action => stageOf action.status) =
      stageAfter id' (s.storedStage id') _
    rw [OrderedMap.get?_modify, hid]
    unfold stageAfter storedStage
    by_cases hid' : id' = action.id
    · rw [if_pos hid', if_pos (congrArg some hid'.symm), hid']
      cases s.store.actions.get? action.id with
      | none => exact hnone.symm
      | some => exact (hsome _).symm
    · rw [if_neg hid', if_neg fun h => hid' (Option.some.inj h).symm]

/-! ### The end -/

/-- **A shutdown** settles and closes, and then forgets who is registered and closes the
database. -/
theorem traced_shutdown : Traced anyEvent s (s.shutdown d m) := by
  intro hs
  refine shutdown_keeps d m s (P := TracedFrom anyEvent s) (Traced.refl s hs) (fun s' e _ h => ?_)
    (fun s' c h => ?_) fun s' h => ?_
  · exact h.trans (.of_eq rfl rfl rfl rfl fun _ h => h)
  · exact h.trans ((traced_close d m s' c).mono fun _ _ => trivial)
  · exact ⟨fun _ _ => rfl, h.status, h.stage⟩

end Operations
end RemoteControlPlane
end Remote
