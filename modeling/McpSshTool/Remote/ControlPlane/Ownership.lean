import McpSshTool.Library.Run
import McpSshTool.Remote.ControlPlane.Ledger
import McpSshTool.Remote.ControlPlane.Routine

/-!
# Whose rows the control plane works on

Requests and agents wait inside the control plane: a PATCH request with the record it has found, an
action with its caller, a connection with the agent that said hello on it. Each names an agent or an
action and a user, and in every state that a process reaches, the row in the database has that user
(`Owned`, `owned_run`). So what is done later on behalf of a user is done to that user's rows.
-/

open Library

namespace Remote
namespace RemoteControlPlane

/-- The row of an agent id has a user. -/
def OwnedBy (s : RemoteControlPlane) (agentId userId : String) : Prop :=
  ∃ agent, s.store.getAgent agentId = some agent ∧ agent.userId = userId

/-- The row of an action has the action's user. -/
def ActionOwned (s : RemoteControlPlane) (action : ActionRecord) : Prop :=
  ∃ row, s.store.actions.get? action.id = some row ∧ row.userId = action.userId

/-- **The invariant**: what waits in memory is about rows of its own user. -/
structure Owned (s : RemoteControlPlane) : Prop where
  patches : ∀ n principal agent, s.patches.get? n = some (principal, agent) →
    s.OwnedBy agent.id principal.userId
  handlers : ∀ c connection, s.connections.get? c = some connection →
    ∀ handler ∈ connection.closeHandlers, s.OwnedBy handler.agentId handler.userId
  pending : ∀ id action, s.pendingActions.get? id = some action → s.ActionOwned action
  settled : ∀ e ∈ s.settled, s.ActionOwned e.1

theorem owned_start (store : RemoteStore) : (start store).Owned where
  patches := by simp [start]
  handlers := by simp [start]
  pending := by simp [start]
  settled := by simp [start]

theorem OwnedBy.later {s s' : RemoteControlPlane} (h : KeepsUsers s.store s'.store)
    {agentId userId : String} (ho : s.OwnedBy agentId userId) : s'.OwnedBy agentId userId := by
  obtain ⟨agent, hagent, rfl⟩ := ho
  exact h agentId agent hagent

/-- A step that keeps users and actions keeps the invariant of what waits. -/
theorem Owned.keep {s s' : RemoteControlPlane} (h : s.Owned) (husers : KeepsUsers s.store s'.store)
    (hactions : s'.store.actions = s.store.actions) (hpatches : s'.patches = s.patches)
    (hconnections : s'.connections = s.connections)
    (hpending : ∀ id action, s'.pendingActions.get? id = some action →
      s.pendingActions.get? id = some action)
    (hsettled : ∀ e ∈ s'.settled, e ∈ s.settled ∨ ∃ id, s.pendingActions.get? id = some e.1) :
    s'.Owned := by
  have howned : ∀ action, s.ActionOwned action → s'.ActionOwned action := by
    rintro action ⟨row, hrow, huser⟩
    exact ⟨row, by rw [hactions]; exact hrow, huser⟩
  exact
    { patches := by
        rw [hpatches]
        exact fun n principal agent hget => (h.patches n principal agent hget).later husers
      handlers := by
        rw [hconnections]
        exact fun c connection hget handler hmem =>
          (h.handlers c connection hget handler hmem).later husers
      pending := fun id action hget => howned action (h.pending id action (hpending id action hget))
      settled := by
        intro e he
        rcases hsettled e he with he | ⟨id, hid⟩
        · exact howned e.1 (h.settled e he)
        · exact howned e.1 (h.pending id e.1 hid) }

/-! ### Routine changes -/

section Routine

variable {d : Deployment} {m : Moment}

theorem owned_change {s s' : RemoteControlPlane} (hchange : Change d m s s') (h : s.Owned) :
    s'.Owned := by
  have husers := keepsUsers_of_change hchange
  have hquiet : ∀ s₁ : RemoteControlPlane, KeepsUsers s.store s₁.store →
      s₁.store.actions = s.store.actions → s₁.patches = s.patches →
      s₁.connections = s.connections → s₁.pendingActions = s.pendingActions →
      s₁.settled = s.settled → s₁.Owned :=
    fun s₁ husers hactions hpatches hconnections hpending hsettled =>
      h.keep husers hactions hpatches hconnections (fun _ _ => by rw [hpending]; exact id)
        (fun _ => by rw [hsettled]; exact .inl)
  cases hchange with
  | audit =>
    exact hquiet _ husers rfl rfl rfl rfl rfl
  | sendJson =>
    unfold sendJson
    split
    · exact h
    · exact hquiet _ (.of_eq rfl) rfl rfl rfl rfl rfl
  | tables store _ hactions => exact hquiet _ husers hactions rfl rfl rfl rfl
  | connections connections hhandlers =>
    exact
      { patches := h.patches
        handlers := by
          intro c connection hget handler hmem
          obtain ⟨old, hold, hmem'⟩ := hhandlers c connection hget handler hmem
          exact h.handlers c old hold handler hmem'
        pending := h.pending
        settled := h.settled }
  | onClose c agent huser =>
    refine { patches := h.patches, handlers := ?_, pending := h.pending, settled := h.settled }
    intro c' connection hget handler hmem
    have hget : (s.connections.modify c fun connection =>
        { connection with closeHandlers := connection.closeHandlers ++
          [{ agentId := agent.id, userId := agent.userId }] }).get? c' = some connection := hget
    rw [OrderedMap.get?_modify] at hget
    split at hget
    · next hc =>
      subst hc
      -- the handler that is added is of the agent's own user
      obtain ⟨old, hold, rfl⟩ := Option.map_eq_some_iff.mp hget
      rcases List.mem_append.mp hmem with hmem | hmem
      · exact h.handlers c' old hold handler hmem
      · rw [List.mem_singleton.mp hmem]
        exact huser
    · exact h.handlers c' connection hget handler hmem
  | unregister => exact hquiet _ husers rfl rfl rfl rfl rfl
  | failing => exact hquiet _ husers rfl rfl rfl rfl rfl
  | patches patches hpatches =>
    refine { patches := ?_, handlers := h.handlers, pending := h.pending, settled := h.settled }
    intro n principal agent hget
    -- a PATCH that arrives has found its agent among those of the user
    rcases hpatches n principal agent hget with hold | hnew
    · exact h.patches n principal agent hold
    · exact ⟨agent, hnew⟩

/-- **A routine operation keeps the invariant.** -/
theorem owned_of_routine {s s' : RemoteControlPlane} (hroutine : Routine d m s s') (h : s.Owned) :
    s'.Owned :=
  hroutine.lift (R := fun s s' => s.Owned → s'.Owned) (fun _ h => h)
    (fun _ _ _ h h' hs => h' (h hs)) (fun _ _ hchange => owned_change hchange) h

end Routine

/-! ### The other steps -/

section Steps

variable {d : Deployment} {m : Moment} {s : RemoteControlPlane}

/-- A dispatched action has a row of its own user. -/
theorem owned_of_dispatches {s' : RemoteControlPlane} (hdispatch : Dispatches d m s s')
    (h : s.Owned) : s'.Owned := by
  obtain ⟨action, store, hstore, hroutine⟩ := hdispatch
  obtain ⟨-, hnone, rfl⟩ := RemoteStore.insertAction_eq_ok hstore
  have hkeep : ∀ old, s.ActionOwned old → ∃ row,
      (s.store.actions.set action.id action).get? old.id = some row ∧
        row.userId = old.userId := by
    rintro old ⟨row, hrow, huser⟩
    have hne : old.id ≠ action.id := by
      intro heq
      rw [heq, hnone] at hrow
      cases hrow
    exact ⟨row, by rw [OrderedMap.get?_set_of_ne _ hne, hrow], huser⟩
  refine owned_of_routine hroutine
    { patches := h.patches
      handlers := h.handlers
      pending := ?_
      settled := fun e he => hkeep e.1 (h.settled e he) }
  intro id pending hget
  have hget : (s.pendingActions.set action.id action).get? id = some pending := hget
  rw [OrderedMap.get?_set] at hget
  split at hget
  · obtain rfl := Option.some.inj hget
    exact ⟨action, OrderedMap.get?_set_self _ _ _, rfl⟩
  · exact hkeep pending (h.pending id pending hget)

/-- A promise that settles moves its action from the pending ones to the settled ones. -/
theorem owned_settle (h : s.Owned) (id : String) {action : ActionRecord}
    (hget : s.pendingActions.get? id = some action) (outcome : ActionOutcome) :
    (s.settle action outcome).Owned := by
  refine h.keep (.of_eq rfl) rfl rfl rfl (fun id' action' hget' => ?_) fun e he => ?_
  · have hget' : (s.pendingActions.delete action.id).get? id' = some action' := hget'
    rw [OrderedMap.get?_delete] at hget'
    split at hget'
    · cases hget'
    · exact hget'
  · rcases List.mem_append.mp he with he | he
    · exact .inl he
    · rw [List.mem_singleton.mp he]
      exact .inr ⟨id, hget⟩

theorem owned_refuseResult (h : s.Owned) (id : String) {action : ActionRecord}
    (hget : s.pendingActions.get? id = some action) (eventType : String)
    (code : Option RemoteErrorCode) : (s.refuseResult d m action eventType code).Owned :=
  owned_settle (owned_of_routine (routine_audit d m s _ _ _ eventType .warn []) h) id hget _

theorem owned_handleActionResult (h : s.Owned) (c : ConnectionId) (result : ActionResultEnvelope) :
    (s.handleActionResult d m c result).2.Owned := by
  rcases handleActionResult_inversion d m s c result with heq | ⟨action, s₁, haction, hs₁, hcases⟩
  · rw [heq]
    exact h
  · obtain ⟨hs₁, haction⟩ : s₁.Owned ∧ s₁.pendingActions.get? result.action_id = some action := by
      rcases hs₁ with rfl | ⟨live, window, -, rfl⟩
      · exact ⟨h, haction⟩
      · exact ⟨h.keep (.of_eq rfl) rfl rfl rfl (fun _ _ h => h) fun _ => .inl, haction⟩
    rcases hcases with ⟨eventType, code, heq⟩ | heq
    · rw [heq]
      exact owned_refuseResult hs₁ _ haction eventType code
    · rw [heq]
      exact owned_settle hs₁ _ haction _

theorem owned_cleanupEphemeralState (h : s.Owned) (now : ℤ) : (s.cleanupEphemeralState now).Owned :=
  h.keep (.of_eq rfl) rfl rfl rfl (fun _ _ h => h) fun _ => .inl

theorem owned_registerHello (h : s.Owned) (c : ConnectionId) (hello : AgentHelloEnvelope)
    (agent : RemoteAgentRecord) : (s.registerHello d m c hello agent).Owned := by
  unfold registerHello
  dsimp only
  have hregister : ∀ (s' : RemoteControlPlane) (registered : OrderedMap String AgentConnection),
      s'.Owned → ({ s' with agentConnections := registered } : RemoteControlPlane).Owned :=
    fun _ _ h => h.keep (.of_eq rfl) rfl rfl rfl (fun _ _ h => h) fun _ => .inl
  refine hregister _ _ ?_
  have hnonces : ∀ nonces : OrderedMap String NonceWindow,
      ({ s.cleanupEphemeralState m.later with agentHelloNonces := nonces } :
        RemoteControlPlane).Owned :=
    fun _ => h.keep (.of_eq rfl) rfl rfl rfl (fun _ _ h => h) fun _ => .inl
  split
  · exact owned_of_routine (routine_close d m _ _) (hnonces _)
  · exact hnonces _

theorem owned_handleAgentHello (h : s.Owned) (c : ConnectionId) (hello : AgentHelloEnvelope) :
    (s.handleAgentHello d m c hello).2.Owned := by
  cases handleAgentHello_inversion d m s c hello with
  | kept _ heq =>
    rw [heq]
    exact h
  | refused s₁ s₂ code message _ hs₁ hs₂ heq =>
    rw [heq]
    have hs₁ : s₁.Owned := by
      rcases hs₁ with rfl | rfl
      · exact h
      · exact owned_cleanupEphemeralState h _
    have hs₂ : s₂.Owned := by
      rcases hs₂ with rfl | ⟨agent, eventType, metadata, rfl⟩
      · exact hs₁
      · exact owned_of_routine (routine_audit d m s₁ _ _ _ _ _ _) hs₁
    exact owned_of_routine (routine_reject d m s₂ c code message) hs₂
  | accepted agent _ hverdict heq =>
    rw [heq]
    have hagent := (helloVerdict_accepted d m s hverdict).1
    exact owned_of_routine (routine_acceptHello d m s c hello hagent)
      (owned_registerHello h c hello agent)

theorem owned_receive (h : s.Owned) (c : ConnectionId) (payload : Option Value) :
    (s.receive d m c payload).Owned := by
  cases receive_inversion d m s c payload with
  | failed _ heq =>
    rw [heq]
    exact owned_of_routine (.single (.failing (d := d) (m := m) s _)) h
  | rejected code message _ heq =>
    rw [heq]
    exact owned_of_routine (routine_reject d m s c code message) h
  | hello hello _ _ heq =>
    rw [heq]
    exact owned_handleAgentHello h c hello
  | result result _ _ heq =>
    rw [heq]
    exact owned_handleActionResult h c result

theorem owned_resume (h : s.Owned) (actionId : String) : (s.resume d m actionId).Owned := by
  cases resume_inversion d m s actionId with
  | kept _ heq =>
    rw [heq]
    exact h
  | dropped action outcome _ _ heq =>
    rw [heq]
    exact h.keep (.of_eq rfl) rfl rfl rfl (fun _ _ h => h)
      fun e he => .inl ((List.eraseP_sublist).subset he)
  | finished action outcome _ _ _ _ _ heq =>
    rw [heq]
    refine owned_of_routine (routine_audit d m _ _ _ _ _ _ _) ?_
    -- the end of an action leaves its row to its user
    have hkeep : ∀ (id : String) (old : ActionRecord) (f : ActionRecord → ActionRecord),
        (∀ row, (f row).userId = row.userId) → s.ActionOwned old →
        ∃ row, (s.store.actions.modify id f).get? old.id = some row ∧
          row.userId = old.userId := by
      rintro id old f hf ⟨row, hrow, huser⟩
      rw [OrderedMap.get?_modify]
      split
      · next hid =>
        rw [← hid, hrow]
        exact ⟨f row, rfl, (hf row).trans huser⟩
      · exact ⟨row, hrow, huser⟩
    exact
      { patches := h.patches
        handlers := h.handlers
        pending := fun id old hget => hkeep _ old _ (fun _ => rfl) (h.pending id old hget)
        settled := fun e he =>
          hkeep _ e.1 _ (fun _ => rfl) (h.settled e ((List.eraseP_sublist).subset he)) }

theorem owned_shutdown (h : s.Owned) : (s.shutdown d m).Owned := by
  -- an action that was pending has a row of its user until the database closes
  refine (shutdown_keeps d m s
    (P := fun s' => s'.Owned ∧ ∀ old, s.ActionOwned old → s'.ActionOwned old)
    ⟨h, fun _ hold => hold⟩ ?_ ?_ ?_).1
  · rintro s' e he ⟨hs', hkeep⟩
    have howned := hkeep e.2 (h.pending e.1 e.2 (OrderedMap.mem_entries_iff.mp he))
    refine ⟨?_, hkeep⟩
    exact
      { patches := hs'.patches
        handlers := hs'.handlers
        pending := fun id action hget => by
          have hget : (s'.pendingActions.delete e.2.id).get? id = some action := hget
          rw [OrderedMap.get?_delete] at hget
          split at hget
          · cases hget
          · exact hs'.pending id action hget
        settled := fun e' he' => by
          rcases List.mem_append.mp he' with he' | he'
          · exact hs'.settled e' he'
          · rw [List.mem_singleton.mp he']
            exact howned }
  · rintro s' c ⟨hs', hkeep⟩
    have hclose := routine_close d m s' c
    refine ⟨owned_of_routine hclose hs', fun old hold => ?_⟩
    unfold ActionOwned
    rw [actions_of_routine hclose]
    exact hkeep old hold
  · rintro s' ⟨hs', hkeep⟩
    exact ⟨hs'.keep (.of_eq rfl) rfl rfl rfl (fun _ _ h => h) fun _ => .inl, hkeep⟩

/-- **The step lemma.** -/
theorem owned_step (h : s.Owned) (e : Step) : (s.step d e).Owned := by
  obtain ⟨event, m⟩ := e
  rcases step_routine d s ⟨event, m⟩ with hr | ⟨-, hr⟩ | ⟨c, payload, rfl⟩ | ⟨id, rfl⟩ |
    ⟨id, rfl⟩ | rfl | rfl
  · exact owned_of_routine hr h
  · exact owned_of_dispatches hr h
  · exact owned_receive h c payload
  · show (s.timeOut id).Owned
    unfold timeOut
    split
    · exact h
    · next haction => exact owned_settle h _ haction _
  · exact owned_resume h id
  · exact owned_cleanupEphemeralState h _
  · exact owned_shutdown h

end Steps

/-- **In every state a process reaches**, what waits in memory is about rows of its own user. -/
theorem owned_run (d : Deployment) (store : RemoteStore) (es : List Step) :
    (Run.run (step d) (start store) es).Owned :=
  Run.run_of_preserved (P := Owned) (C := fun _ _ => True) (fun _ e h _ => owned_step h e)
    (owned_start store) (Run.allSteps_of_forall (fun _ _ => trivial) _ _)

end RemoteControlPlane
end Remote
