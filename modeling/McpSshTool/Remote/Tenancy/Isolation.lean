import McpSshTool.Remote.ActionSettlement
import McpSshTool.Remote.Tenancy.Replies

/-!
# Tenant isolation

A request authenticated as one user shows nothing of the rows of others, and does nothing to them:
alike states give alike answers, and the rows of every other user are as they were
(`tenant_isolation`).

There is one exception. A revocation closes the connection of its agent, and the close handlers of
the connection take every agent offline that said hello on it, whosever it is (`CutOff`,
`revocation_takes_other_offline`).
-/

open Library

namespace Remote
namespace RemoteControlPlane

/-! ### Closing a connection -/

section Close

variable {d : Deployment} {m : Moment} {s : RemoteControlPlane} {userId : String}
  {cut : String → Prop}

theorem OwnedBy.unique {agentId user user' : String} (h : s.OwnedBy agentId user)
    (h' : s.OwnedBy agentId user') : user = user' := by
  obtain ⟨agent, hagent, rfl⟩ := h
  obtain ⟨agent', hagent', rfl⟩ := h'
  rw [Option.some.inj (hagent.symm.trans hagent')]

theorem rowsOf_audit {user : Option String} (huser : user ≠ some userId)
    (agentId actionId : Option String) (eventType : String) (severity : Severity)
    (metadata : Fields) :
    (s.audit d m user agentId actionId eventType severity metadata).store.rowsOf userId =
      s.store.rowsOf userId :=
  RemoteStore.rowsOf_insertAudit huser

theorem rowsOf_writeAgent {agent : RemoteAgentRecord}
    (huser : ∀ old, s.store.getAgent agent.id = some old → old.userId ≠ userId) :
    (s.writeAgent d agent).store.rowsOf userId = s.store.rowsOf userId := by
  unfold writeAgent
  split
  · next hstore => exact RemoteStore.rowsOf_updateAgent hstore huser
  · rfl

/-- An agent that is taken offline is its user's, and cut off. -/
theorem kept_markOffline {agentId : String}
    (hcut : s.OwnedBy agentId userId → cut agentId) :
    (s.store.rowsOf userId).Kept cut ((s.markOffline d m agentId).store.rowsOf userId) := by
  unfold markOffline
  split
  · exact .of_eq rfl
  · next latest hlatest =>
    split
    · exact .of_eq rfl
    · obtain ⟨hid, hrow⟩ := RemoteStore.getAgent_rows hlatest
      have hoffline : IsRow { latest with status := .offline, updatedAt := nowIso d m } :=
        ⟨hrow.profile_text, hrow.policy_read, hrow.publicKey_read, hrow.lastSeenAt_read⟩
      subst hid
      unfold writeAgent
      split
      · next store hstore =>
        obtain ⟨hopen, -⟩ := RemoteStore.updateAgent_eq_ok hstore
        set offline : RemoteAgentRecord :=
          { latest with status := .offline, updatedAt := nowIso d m }
        have hold : s.store.getAgent offline.id = some latest := hlatest
        have hwrite : s.store.updateAgent d.platform offline = .ok _ :=
          RemoteStore.updateAgent_of_row hopen hold rfl hoffline
        obtain rfl := Except.ok.inj (hwrite.symm.trans hstore)
        exact RemoteStore.kept_offline hlatest (fun huser => hcut ⟨latest, hlatest, huser⟩) hoffline
      · exact .of_eq rfl

theorem kept_agentDisconnected {c : ConnectionId} {handler : CloseHandler}
    (howned : s.OwnedBy handler.agentId handler.userId)
    (hcut : ∀ live, s.agentConnections.get? handler.agentId = some live → live.connection = c →
      handler.userId = userId → cut handler.agentId) :
    (s.store.rowsOf userId).Kept cut ((s.agentDisconnected d m c handler).store.rowsOf userId) := by
  unfold agentDisconnected
  split
  · exact .of_eq rfl
  · next live hlive =>
    split
    · exact .of_eq rfl
    · next hc =>
      have hcut := hcut live hlive (not_not.mp hc)
      let s₁ := { s with agentConnections := s.agentConnections.delete handler.agentId }
      have hoffline : (s.store.rowsOf userId).Kept cut
          ((s₁.markOffline d m handler.agentId).store.rowsOf userId) :=
        kept_markOffline (s := s₁) fun hagent => hcut (howned.unique hagent)
      refine hoffline.trans ?_
      by_cases huser : handler.userId = userId
      · -- the audit row is for the user, and about an agent that is cut off
        exact
          { agents := List.forall₂_same.mpr fun _ _ => .inl rfl
            enrollmentTokens := rfl
            actions := rfl
            auditEvents := ⟨[_], by
              simp only [RemoteStore.rowsOf, audit, RemoteStore.insertAudit, List.filter_append]
              rw [List.filter_singleton, decide_eq_true (congrArg some huser)]
              rfl, fun event hmem => by
                rw [List.mem_singleton.mp hmem]
                exact ⟨rfl, handler.agentId, rfl, hcut huser⟩⟩ }
      · exact .of_eq (rowsOf_audit (fun h => huser (Option.some.inj h)) _ _ _ _ _)

/-- The close handlers of a connection run. -/
theorem kept_closeHandlers {c : ConnectionId} : ∀ (handlers : List CloseHandler)
    (s : RemoteControlPlane), (∀ handler ∈ handlers, s.OwnedBy handler.agentId handler.userId) →
    (∀ handler ∈ handlers, ∀ live, s.agentConnections.get? handler.agentId = some live →
      live.connection = c → handler.userId = userId → cut handler.agentId) →
    (s.store.rowsOf userId).Kept cut ((handlers.foldl
      (fun s handler => s.agentDisconnected d m c handler) s).store.rowsOf userId) := by
  intro handlers
  induction handlers with
  | nil => exact fun _ _ _ => .of_eq rfl
  | cons handler handlers ih =>
    intro s howned hcut
    have hroutine := routine_agentDisconnected d m s c handler
    have husers := keepsUsers_of_routine hroutine
    refine (kept_agentDisconnected (howned handler List.mem_cons_self)
      (hcut handler List.mem_cons_self)).trans (ih (s.agentDisconnected d m c handler) ?_ ?_)
    · exact fun h hmem => (howned h (List.mem_cons_of_mem _ hmem)).later husers
    · intro h hmem live hlive
      -- registrations only end here
      exact hcut h (List.mem_cons_of_mem _ hmem) live ((idle_of_routine hroutine).live _ _ hlive)

/-- **A connection closes.** -/
theorem kept_close {c : ConnectionId}
    (hhandlers : ∀ connection, s.connections.get? c = some connection →
      ∀ handler ∈ connection.closeHandlers, s.OwnedBy handler.agentId handler.userId ∧
        ∀ live, s.agentConnections.get? handler.agentId = some live → live.connection = c →
          handler.userId = userId → cut handler.agentId) :
    (s.store.rowsOf userId).Kept cut ((s.close d m c).store.rowsOf userId) := by
  unfold close
  split
  · exact .of_eq rfl
  · next connection hconnection =>
    split
    · exact .of_eq rfl
    · unfold notifyClose
      split
      · exact .of_eq rfl
      · have hhandlers := hhandlers connection hconnection
        let closing : Connection := { connection with closed := true, closeNotified := true }
        exact kept_closeHandlers connection.closeHandlers
          { s with connections := s.connections.set c closing }
          (fun handler hmem => (hhandlers handler hmem).1)
          fun handler hmem => (hhandlers handler hmem).2

end Close

/-! ### What a request does to the rows of others -/

/-- Two agents are registered on one connection. -/
def SharesConnection (s : RemoteControlPlane) (agentId otherId : String) : Prop :=
  ∃ live other, s.agentConnections.get? agentId = some live ∧
    s.agentConnections.get? otherId = some other ∧ other.connection = live.connection

section Requests

variable {d : Deployment} {m : Moment} {s : RemoteControlPlane} {principal : RemotePrincipal}
  {userId : String}

theorem OwnedBy.ne_user {agentId user : String} (h : s.OwnedBy agentId user)
    (huser : user ≠ userId) :
    ∀ old, s.store.getAgent agentId = some old → old.userId ≠ userId := by
  intro old hold heq
  exact huser (h.unique ⟨old, hold, heq⟩)

theorem rowsOf_createEnrollmentToken (huser : principal.userId ≠ userId) (args : Value) :
    (s.createEnrollmentToken d m principal args).2.store.rowsOf userId = s.store.rowsOf userId := by
  cases createEnrollmentToken_inversion d m s principal args with
  | kept h => rw [h]
  | pending _ _ hstore h =>
    rw [h]
    exact RemoteStore.rowsOf_insertAgent hstore huser
  | created _ _ token _ _ hstore htoken hstore' h =>
    rw [h]
    refine (rowsOf_audit (fun h => huser (Option.some.inj h)) _ _ _ _ _).trans ?_
    exact (RemoteStore.rowsOf_insertEnrollmentToken hstore' (htoken ▸ huser)).trans
      (RemoteStore.rowsOf_insertAgent hstore huser)

theorem rowsOf_sendJson (c : ConnectionId) (message : ServerMessage) :
    (s.sendJson c message).store = s.store := by
  unfold sendJson
  split <;> rfl

theorem rowsOf_updateAgentPolicy {agent : RemoteAgentRecord}
    (howned : s.OwnedBy agent.id principal.userId) (huser : principal.userId ≠ userId)
    (value : Value) :
    (s.updateAgentPolicy d m principal agent value).2.store.rowsOf userId =
      s.store.rowsOf userId := by
  unfold updateAgentPolicy
  split
  · rfl
  · split
    · rfl
    · dsimp only
      split
      · rfl
      · next store hstore =>
        have hwritten := RemoteStore.rowsOf_updateAgent hstore (howned.ne_user huser)
        refine (rowsOf_audit (fun h => huser (Option.some.inj h)) _ _ _ _ _).trans ?_
        split
        · exact hwritten
        · rw [rowsOf_sendJson]
          exact hwritten

/-- **A revocation** disconnects the agents that share the connection of its agent. -/
theorem kept_revokeAgent (hs : s.Owned) {agent : RemoteAgentRecord}
    (howned : s.OwnedBy agent.id principal.userId) (huser : principal.userId ≠ userId) :
    (s.store.rowsOf userId).Kept (fun id => s.SharesConnection agent.id id ∧ s.OwnedBy id userId)
    ((s.revokeAgent d m principal agent).2.store.rowsOf userId) := by
  unfold revokeAgent
  split
  · exact .of_eq rfl
  · dsimp only
    let s₁ := s.writeAgent d (revokedRecord d m agent)
    have hroutine := routine_writeAgent d m s (revokedRecord d m agent)
    have hwritten : s₁.store.rowsOf userId = s.store.rowsOf userId :=
      rowsOf_writeAgent (howned.ne_user huser)
    refine Rows.Kept.trans ?_
      (.of_eq (rowsOf_audit (fun h => huser (Option.some.inj h)) _ _ _ _ _))
    split
    · exact .of_eq hwritten
    · next live hlive =>
      have hconnections : s₁.connections = s.connections := by
        show (s.writeAgent d _).connections = _
        unfold writeAgent
        split <;> rfl
      refine (Rows.Kept.of_eq hwritten).trans (kept_close fun connection hget handler hmem => ?_)
      rw [hconnections] at hget
      have hhandler := hs.handlers live.connection connection hget handler hmem
      refine ⟨hhandler.later (keepsUsers_of_routine hroutine), fun other hother hc huser => ?_⟩
      have hlive := (idle_of_routine hroutine).live _ _ hlive
      have hother := (idle_of_routine hroutine).live _ _ hother
      exact ⟨⟨live, other, hlive, hother, hc⟩, huser ▸ hhandler⟩

theorem rowsOf_dispatchAction {agent : RemoteAgentRecord} (huser : principal.userId ≠ userId)
    (tool : RemoteToolName) (capability : RemoteCapability) (args : Fields) :
    (s.dispatchAction d m principal agent tool capability args).2.store.rowsOf userId =
      s.store.rowsOf userId := by
  have haudit : some principal.userId ≠ some userId := fun h => huser (Option.some.inj h)
  unfold dispatchAction
  split
  · rfl
  · split
    · rfl
    · split
      · rfl
      · split
        · rfl
        · dsimp only
          split
          · rfl
          · next store hstore =>
            rw [rowsOf_sendJson]
            refine (rowsOf_audit haudit _ _ _ _ _).trans ?_
            refine (rowsOf_audit haudit _ _ _ _ _).trans ?_
            exact RemoteStore.rowsOf_insertAction hstore huser

/-- The continuation of a dispatch writes the action it is about. -/
theorem rowsOf_finishDispatch {action : ActionRecord} (howned : s.ActionOwned action)
    (huser : action.userId ≠ userId) (outcome : ActionOutcome) :
    (s.finishDispatch d m action outcome).2.store.rowsOf userId = s.store.rowsOf userId := by
  have haudit : some action.userId ≠ some userId := fun h => huser (Option.some.inj h)
  obtain ⟨row, hrow, hrowUser⟩ := howned
  unfold finishDispatch
  split
  · rfl
  · next store hstore =>
    have hid : (finishedAction d m action outcome).id = action.id := by
      cases outcome <;> rfl
    have hwritten : store.rowsOf userId = s.store.rowsOf userId := by
      refine RemoteStore.rowsOf_updateAction hstore fun old hold => ?_
      rw [hid, hrow] at hold
      rw [← Option.some.inj hold, hrowUser]
      exact huser
    refine Eq.trans ?_ hwritten
    unfold auditFinished
    dsimp only
    split
    · split <;> exact rowsOf_audit haudit _ _ _ _ _
    · exact rowsOf_audit haudit _ _ _ _ _

/-- The agent that an event asks to revoke. -/
def revokes (s : RemoteControlPlane) : Event → Option RemoteAgentRecord
  | .revoke principal agentRef => s.resolveAgent principal.userId agentRef
  | .callTool principal .revoke_agent args =>
    s.resolveAgent principal.userId (((Value.obj args).member "agent_id_or_alias").asString.getD "")
  | _ => none

/-- **An event cuts an agent of a user off**: it revokes an agent on the same connection. -/
def CutOff (s : RemoteControlPlane) (event : Event) (userId agentId : String) : Prop :=
  ∃ agent, s.revokes event = some agent ∧ s.SharesConnection agent.id agentId ∧
    s.OwnedBy agentId userId

theorem kept_withAgent {α : Type} {cut : String → Prop} {user : String} {args : Fields}
    {rest : RemoteAgentRecord → Outcome α}
    (hrest : ∀ agent, s.resolveAgent user
      (((Value.obj args).member "agent_id_or_alias").asString.getD "") = some agent →
      (s.store.rowsOf userId).Kept cut ((rest agent).2.store.rowsOf userId)) :
    (s.store.rowsOf userId).Kept cut ((s.withAgent user args rest).2.store.rowsOf userId) := by
  unfold withAgent requireAgent
  split
  · exact .of_eq rfl
  · cases hresolve : s.resolveAgent user
        (((Value.obj args).member "agent_id_or_alias").asString.getD "") with
    | none => exact .of_eq rfl
    | some agent => exact hrest agent hresolve

theorem kept_callRemoteTool (hs : s.Owned) (huser : principal.userId ≠ userId)
    (tool : RemoteToolName) (args : Fields) :
    (s.store.rowsOf userId).Kept (s.CutOff (.callTool principal tool args) userId)
    ((s.callRemoteTool d m principal tool args).2.store.rowsOf userId) := by
  -- a tool of an agent writes rows of its owner
  have hagentTool : ∀ tool (cut : String → Prop),
      (s.store.rowsOf userId).Kept cut ((s.withAgent principal.userId args fun agent =>
        s.callAgentTool d m principal tool args agent).2.store.rowsOf userId) := by
    intro tool cut
    refine kept_withAgent fun agent _ => .of_eq ?_
    unfold callAgentTool
    dsimp only
    split
    · exact rowsOf_audit (fun h => huser (Option.some.inj h)) _ _ _ _ _
    · exact rowsOf_dispatchAction huser tool _ args
  unfold callRemoteTool
  dsimp only
  split
  · exact .of_eq rfl
  · cases tool with
    | list_hosts =>
      dsimp only
      split <;> exact .of_eq rfl
    | list_agents =>
      dsimp only
      split <;> exact .of_eq rfl
    | create_enrollment_token => exact .of_eq (rowsOf_createEnrollmentToken huser _)
    | get_agent_install_command => exact kept_withAgent fun _ _ => .of_eq rfl
    | update_agent_policy =>
      refine kept_withAgent fun agent hagent => .of_eq ?_
      exact rowsOf_updateAgentPolicy ⟨agent, resolveAgent_eq_some hagent⟩ huser _
    | revoke_agent =>
      refine kept_withAgent fun agent hagent => ?_
      refine (kept_revokeAgent hs ⟨agent, resolveAgent_eq_some hagent⟩ huser).mono ?_
      exact fun id ⟨hshares, hid⟩ => ⟨agent, hagent, hshares, hid⟩
    | get_audit_events =>
      dsimp only
      split
      · exact .of_eq rfl
      · split <;> exact .of_eq rfl
    | _ => exact hagentTool _ _

/-- **The step lemma**: what the event of a request leaves of the rows of another user. -/
theorem kept_step (hs : s.Owned) {request : Request} {event : Event}
    (hevent : request.event = some event) {user : String}
    (hrequest : requestUser request s = some user) (huser : user ≠ userId) :
    (s.store.rowsOf userId).Kept (s.CutOff event userId)
    ((s.step d ⟨event, m⟩).store.rowsOf userId) := by
  cases request with
  | api n principal =>
    obtain rfl := Option.some.inj hrequest
    rcases apiEvent_eq_some hevent with ⟨body, rfl⟩ | ⟨agentRef, rfl⟩ | ⟨agentRef, rfl⟩
    · exact .of_eq (rowsOf_createEnrollmentToken huser body)
    · refine .of_eq ?_
      show (s.awaitPatch n principal agentRef).store.rowsOf userId = _
      unfold awaitPatch
      split
      · rfl
      · split <;> rfl
    · show (s.store.rowsOf userId).Kept _
        ((s.revokeByRef d m principal agentRef).store.rowsOf userId)
      unfold revokeByRef
      split
      · exact .of_eq rfl
      · split
        · exact .of_eq rfl
        · next agent hagent =>
          -- a revocation reaches another user through a shared connection
          refine (kept_revokeAgent hs ⟨agent, resolveAgent_eq_some hagent⟩ huser).mono ?_
          exact fun id ⟨hshares, hid⟩ => ⟨agent, hagent, hshares, hid⟩
  | patchBody n body =>
    obtain rfl := Option.some.inj hevent
    refine .of_eq ?_
    show (s.applyPatch d m n body.toOption).store.rowsOf userId = _
    obtain ⟨⟨principal, agent⟩, hget, rfl⟩ := Option.map_eq_some_iff.mp hrequest
    -- the agent that the PATCH has read is of its user
    have howned := hs.patches n principal agent hget
    unfold applyPatch
    rw [hget]
    dsimp only
    split
    · rfl
    · exact rowsOf_updateAgentPolicy (s := { s with patches := s.patches.delete n }) howned huser _
  | mcp =>
    obtain rfl := Option.some.inj hrequest
    obtain ⟨⟨tool, args⟩, -, rfl⟩ := Option.map_eq_some_iff.mp hevent
    exact kept_callRemoteTool hs huser tool args
  | actionSettled actionId =>
    obtain rfl := Option.some.inj hevent
    refine .of_eq ?_
    show (s.resume d m actionId).store.rowsOf userId = _
    obtain ⟨⟨action, outcome⟩, hfind, rfl⟩ := Option.map_eq_some_iff.mp hrequest
    -- the action that is finished is of its user
    have howned := hs.settled _ (List.mem_of_find?_eq_some hfind)
    unfold resume
    rw [hfind]
    exact rowsOf_finishDispatch
      (s := { s with settled := s.settled.eraseP fun e => e.1.id = actionId }) howned huser outcome

end Requests

/-! ### Isolation -/

/-- **Tenant isolation.** Two states that look alike to a user answer every request of the user
alike, and a request of the user leaves the rows of every other user as they are; but when it
revokes an agent, agents on the same connection go offline. -/
theorem tenant_isolation (d : Deployment) (m : Moment) (x : McpSurface) (store : RemoteStore)
    (es : List Step) (other : RemoteControlPlane) (request : Request) (userId : String)
    (hagree : Agree userId (Run.run (step d) (start store) es) other)
    (hfresh : Fresh d m (Run.run (step d) (start store) es)) (hfresh' : Fresh d m other)
    (huser : requestUser request (Run.run (step d) (start store) es) = some userId) :
    ((Run.run (step d) (start store) es).respond d m x request).1 =
        (other.respond d m x request).1 ∧
      ∀ userId', userId' ≠ userId →
        ((Run.run (step d) (start store) es).store.rowsOf userId').Kept
          (fun id => ∃ event, request.event = some event ∧
            (Run.run (step d) (start store) es).CutOff event userId' id)
          (((Run.run (step d) (start store) es).respond d m x request).2.store.rowsOf userId') := by
  have hs := owned_run d store es
  generalize Run.run (step d) (start store) es = s at *
  refine ⟨hagree.respond hs hfresh hfresh' x huser, fun userId' hne => ?_⟩
  rw [respond_state]
  cases hevent : request.event with
  | none => exact .of_eq rfl
  | some event =>
    exact (kept_step hs hevent huser hne.symm).mono fun id hid => ⟨event, rfl, hid⟩

/-! ### Agents of two users on one connection -/

/-- An agent of another user than `sampleAgent`, with the same key. -/
def foreignAgent : RemoteAgentRecord := { Monitored.secondAgent with userId := "usr_2" }

/-- A store with both agents. -/
def twoUserStore : RemoteStore :=
  sampleStore.setAgent foreignAgent ⟨⟨"operations", rfl⟩, rfl, rfl, rfl⟩

/-- A front end without texts. -/
def bareSurface : McpSurface where
  serverVersion := ""
  descriptors := fun _ => []
  prettyJson := fun _ => ""

/-- The user of `sampleAgent` asks for the other agent. -/
def askForForeign : Request :=
  .api 0 sampleOwner
    { method := "GET", pathname := "/api/agents/agt_2", limit := none, body := .ok .null }

/-- It makes no difference whether the other agent is there. -/
theorem tenant_isolation_foreign :
    ((start twoUserStore).respond sampleDeployment (sampleMoment 0) bareSurface askForForeign).1 =
      ((start sampleStore).respond sampleDeployment (sampleMoment 0) bareSurface askForForeign).1 :=
  (tenant_isolation sampleDeployment (sampleMoment 0) bareSurface twoUserStore []
    (start sampleStore)
    askForForeign "usr_1"
    { isOpen := rfl
      rows := rfl
      connected := fun _ _ => rfl
      patches := fun _ _ _ _ => .rfl
      settled := fun _ _ _ _ => .rfl }
    ⟨rfl, rfl, rfl⟩ ⟨rfl, rfl, rfl⟩ rfl).1

/-- Both agents say hello on connection 0. -/
def sharedHellos : List Step :=
  [⟨.connect 0, sampleMoment 0⟩,
    Monitored.arrives 0 (Monitored.helloOfAgent "agt_1" "0123456789abcdef").toFields 1,
    Monitored.arrives 0 (Monitored.helloOfAgent "agt_2" "123456789abcdef0").toFields 2]

/-- The user of `sampleAgent` revokes it. -/
def revokeOwn : Request :=
  .api 0 sampleOwner
    { method := "POST", pathname := "/api/agents/agt_1/revoke", limit := none, body := .ok .null }

/-- **A revocation takes an agent of another user offline.** -/
theorem revocation_takes_other_offline :
    let s := Run.run (step sampleDeployment) (start twoUserStore) sharedHellos
    let after := (s.respond sampleDeployment (sampleMoment 3) bareSurface revokeOwn).2
    requestUser revokeOwn s = some "usr_1" ∧
      (s.store.rowsOf "usr_2").agents.map (fun agent => (agent.id, agent.status)) =
        [("agt_2", .online)] ∧
      (after.store.rowsOf "usr_2").agents.map (fun agent => (agent.id, agent.status)) =
        [("agt_2", .offline)] ∧
      (after.store.rowsOf "usr_2").auditEvents.map (·.eventType) =
        ["agent_connected", "agent_disconnected"] := by
  decide +kernel

end RemoteControlPlane
end Remote
