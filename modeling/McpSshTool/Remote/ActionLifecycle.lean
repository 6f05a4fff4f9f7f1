import McpSshTool.Remote.ActionSettlement

/-!
# The life of an action

A dispatched action is inserted as `sent`, and the continuation of its promise writes how it ended.
The continuation runs after whatever has settled the promise: a result, a refusal, the timer, or
`close()`, which shuts the database on its way.

* `FinishesActions` — a step writes `sent` rows only, and leaves them with a terminal status;
* `ActionsFinished` — an action with nothing left to run has a terminal status;
* `RowEffect` and `step_rows` — what one step does to the rows of actions and to what waits for
  them;
* `action_lifecycle_iff` — a run has all of this exactly when every `close()` finds the process
  idle.
-/

open Library

namespace Remote

/-- Whether a status is one that an action ends in. -/
def ActionStatus.isTerminal : ActionStatus → Bool
  | .pending => false
  | .sent => false
  | .completed => true
  | .denied => true
  | .timeout => true
  | .error => true

namespace RemoteControlPlane

variable (d : Deployment)

/-! ### The property -/

/-- The record that a step hands to `updateAction`, on a database that is open. -/
def writtenAction (s : RemoteControlPlane) (e : Step) : Option ActionRecord :=
  match e.event, s.store.isOpen with
  | .actionSettled id, true =>
    (s.settled.find? fun x => x.1.id = id).map fun x => finishedAction d e.moment x.1 x.2
  | _, _ => none

/-- What `updateAction` makes of a row. -/
def updatedAction (record old : ActionRecord) : ActionRecord :=
  { old with
    status := record.status
    completedAt := record.completedAt
    result := record.result
    errorCode := record.errorCode }

/-- **A step writes actions from `sent` to a terminal status**: the rows it inserts are `sent`,
those it writes were `sent` and become terminal, and all others stay as they are. -/
structure FinishesActions (s : RemoteControlPlane) (e : Step) : Prop where
  inserted : ∀ id row, s.store.actions.get? id = none →
    (s.step d e).store.actions.get? id = some row → row.status = .sent
  written : ∀ record, writtenAction d s e = some record → record.status.isTerminal = true ∧
    ∃ old, s.store.actions.get? record.id = some old ∧ old.status = .sent ∧
      (s.step d e).store.actions.get? record.id = some (updatedAction record old)
  kept : ∀ id row, s.store.actions.get? id = some row →
    (∀ record, writtenAction d s e = some record → record.id ≠ id) →
      (s.step d e).store.actions.get? id = some row

/-- The ids of the actions that the steps of a run write, in their order. -/
def writtenActions : RemoteControlPlane → List Step → List String
  | _, [] => []
  | s, e :: es =>
    ((writtenAction d s e).map (·.id)).toList ++ writtenActions (s.step d e) es

/-- An action was inserted by this process, which has started on `store`. -/
def OfProcess (store : RemoteStore) (id : String) : Prop := store.actions.get? id = none

/-- **Actions are finished**: an action of this process that is not pending, and whose continuation
does not wait any more, has a terminal status; and once the database is shut, all of them have. -/
structure ActionsFinished (store : RemoteStore) (s : RemoteControlPlane) : Prop where
  settled : ∀ id row, s.store.actions.get? id = some row → OfProcess store id →
    s.pendingActions.get? id = none → (∀ x ∈ s.settled, x.1.id ≠ id) → row.status.isTerminal = true
  shut : s.store.isOpen = false → ∀ id row, s.store.actions.get? id = some row →
    OfProcess store id → row.status.isTerminal = true

/-- **The life of the actions** in a run of a process: they are written from `sent` to a terminal
status, each at most once, and finished. -/
structure ActionLifecycle (store : RemoteStore) (es : List Step) : Prop where
  steps : Run.AllSteps (step d) (FinishesActions d) (start store) es
  once : (writtenActions d (start store) es).Nodup
  finished : Run.Along (step d) (ActionsFinished store) (start store) es

/-- **The condition on a step**: `close()` is called while no action is pending and no continuation
waits. -/
def ClosedWhenIdle (s : RemoteControlPlane) (e : Step) : Prop :=
  e.event = .shutdown → (∀ id, s.pendingActions.get? id = none) ∧ s.settled = []

/-! ### What a step does to the rows -/

/-- **Nothing happens to the rows of actions**, nor to what waits for them. -/
structure SameActions (s s' : RemoteControlPlane) : Prop where
  pending : s'.pendingActions = s.pendingActions
  settled : s'.settled = s.settled
  actions : s'.store.actions = s.store.actions
  isOpen : s'.store.isOpen = s.store.isOpen

theorem SameActions.refl (s : RemoteControlPlane) : SameActions s s := ⟨rfl, rfl, rfl, rfl⟩

theorem SameActions.trans {s s' s'' : RemoteControlPlane} (h : SameActions s s')
    (h' : SameActions s' s'') : SameActions s s'' :=
  ⟨h'.pending.trans h.pending, h'.settled.trans h.settled, h'.actions.trans h.actions,
    h'.isOpen.trans h.isOpen⟩

/-- **What a step does to the rows of actions.** -/
inductive RowEffect (s : RemoteControlPlane) (e : Step) (s' : RemoteControlPlane) : Prop where
  | kept (h : SameActions s s') (hnone : writtenAction d s e = none)
  | dispatched (action : ActionRecord) (hsent : action.status = .sent)
      (hopen : s.store.isOpen = true) (hfree : s.store.actions.get? action.id = none)
      (hpending : s'.pendingActions = s.pendingActions.set action.id action)
      (hsettled : s'.settled = s.settled)
      (hactions : s'.store.actions = s.store.actions.set action.id action)
      (hisOpen : s'.store.isOpen = s.store.isOpen) (hnone : writtenAction d s e = none)
  | settled (id : String) (action : ActionRecord) (outcome : ActionOutcome)
      (hget : s.pendingActions.get? id = some action)
      (hpending : s'.pendingActions = s.pendingActions.delete action.id)
      (hsettled : s'.settled = s.settled ++ [(action, outcome)])
      (hactions : s'.store.actions = s.store.actions)
      (hisOpen : s'.store.isOpen = s.store.isOpen) (hnone : writtenAction d s e = none)
  | resumed (id : String) (action : ActionRecord) (outcome : ActionOutcome)
      (hfind : s.settled.find? (fun x => x.1.id = id) = some (action, outcome))
      (hpending : s'.pendingActions = s.pendingActions)
      (hsettled : s'.settled = s.settled.eraseP fun x => x.1.id = id)
      (hactions : s'.store.actions =
        if s.store.isOpen then
          s.store.actions.modify action.id
            (updatedAction (finishedAction d e.moment action outcome))
        else s.store.actions)
      (hisOpen : s'.store.isOpen = s.store.isOpen)
      (hwritten : writtenAction d s e =
        if s.store.isOpen then some (finishedAction d e.moment action outcome) else none)
  | closed (hevent : e.event = .shutdown) (hactions : s'.store.actions = s.store.actions)
      (hpending : ∀ id action, s'.pendingActions.get? id = some action →
        s.pendingActions.get? id = some action)
      (hsettled : s'.settled =
        s.settled ++ s.pendingActions.entries.map fun x => (x.2, .rejected none))
      (hnone : writtenAction d s e = none)

section Effects

variable {d} {m : Moment} {s : RemoteControlPlane}

theorem sameActions_of_routine {s' : RemoteControlPlane} (h : Routine d m s s') :
    SameActions s s' :=
  have hidle := idle_of_routine h
  ⟨hidle.pending, hidle.settled, hidle.actions, (frame_of_routine d m h).isOpen⟩

/-- A hello, accepted or not, leaves the actions. -/
theorem sameActions_handleAgentHello (c : ConnectionId) (hello : AgentHelloEnvelope) :
    SameActions s (s.handleAgentHello d m c hello).2 := by
  cases handleAgentHello_inversion d m s c hello with
  | kept _ h =>
    rw [h]
    exact .refl s
  | refused s₁ s₂ code message _ hs₁ hs₂ h =>
    rw [h]
    have hcleaned : SameActions s s₁ := by
      rcases hs₁ with rfl | rfl
      · exact .refl _
      · exact ⟨rfl, rfl, rfl, rfl⟩
    have haudited : SameActions s₁ s₂ := by
      rcases hs₂ with rfl | ⟨agent, eventType, metadata, rfl⟩
      · exact .refl _
      · exact ⟨rfl, rfl, rfl, rfl⟩
    exact (hcleaned.trans haudited).trans
      (sameActions_of_routine (routine_reject d m s₂ c code message))
  | accepted agent _ hverdict h =>
    rw [h]
    have hagent := (helloVerdict_accepted d m s hverdict).1
    refine SameActions.trans ?_ (sameActions_of_routine (routine_acceptHello d m s c hello hagent))
    -- the registration closes an earlier connection at most
    unfold registerHello
    dsimp only
    split
    · next existing _ =>
      have hclosed : ∀ s₀ : RemoteControlPlane, SameActions s₀ (s₀.close d m existing.connection) :=
        fun s₀ => sameActions_of_routine (routine_close d m s₀ _)
      exact ⟨(hclosed _).pending, (hclosed _).settled, (hclosed _).actions, (hclosed _).isOpen⟩
    · exact ⟨rfl, rfl, rfl, rfl⟩

/-- A result settles the action it names, or leaves the actions. -/
theorem handleActionResult_rows {e : Step} (c : ConnectionId) (result : ActionResultEnvelope)
    (hnone : writtenAction d s e = none) :
    RowEffect d s e (s.handleActionResult d m c result).2 := by
  rcases handleActionResult_inversion d m s c result with heq | ⟨action, s₁, hget, hs₁, hcases⟩
  · rw [heq]
    exact .kept (.refl s) hnone
  · rcases hcases with ⟨eventType, code, heq⟩ | heq
    · rw [heq]
      rcases hs₁ with rfl | ⟨live, window, -, rfl⟩ <;>
        exact .settled _ action _ hget rfl rfl rfl rfl hnone
    · rw [heq]
      rcases hs₁ with rfl | ⟨live, window, -, rfl⟩ <;>
        exact .settled _ action _ hget rfl rfl rfl rfl hnone

/-- What follows a step and leaves the actions does not show. -/
theorem RowEffect.trans_same {e : Step} {s' s'' : RemoteControlPlane} (h : RowEffect d s e s')
    (hsame : SameActions s' s'') : RowEffect d s e s'' := by
  cases h with
  | kept h hnone => exact .kept (h.trans hsame) hnone
  | dispatched action hsent hopen hfree hpending hsettled hactions hisOpen hnone =>
    exact .dispatched action hsent hopen hfree (hsame.pending.trans hpending)
      (hsame.settled.trans hsettled) (hsame.actions.trans hactions)
        (hsame.isOpen.trans hisOpen) hnone
  | settled id action outcome hget hpending hsettled hactions hisOpen hnone =>
    exact .settled id action outcome hget (hsame.pending.trans hpending)
      (hsame.settled.trans hsettled) (hsame.actions.trans hactions)
        (hsame.isOpen.trans hisOpen) hnone
  | resumed id action outcome hfind hpending hsettled hactions hisOpen hwritten =>
    exact .resumed id action outcome hfind (hsame.pending.trans hpending)
      (hsame.settled.trans hsettled) (hsame.actions.trans hactions) (hsame.isOpen.trans hisOpen)
      hwritten
  | closed hevent hactions hpending hsettled hnone =>
    exact .closed hevent (hsame.actions.trans hactions)
      (fun id action hget => hpending id action (hsame.pending ▸ hget))
      (hsame.settled.trans hsettled) hnone

theorem receive_rows (c : ConnectionId) (payload : Option Value) :
    RowEffect d s ⟨.message c payload, m⟩ (s.receive d m c payload) := by
  cases receive_inversion d m s c payload with
  | failed _ h =>
    rw [h]
    exact .kept ⟨rfl, rfl, rfl, rfl⟩ rfl
  | rejected code message _ h =>
    rw [h]
    exact .kept (sameActions_of_routine (routine_reject d m s c code message)) rfl
  | hello hello _ _ h =>
    rw [h]
    exact .kept (sameActions_handleAgentHello c hello) rfl
  | result result _ _ h =>
    rw [h]
    exact handleActionResult_rows c result rfl

/-- **A dispatch** inserts a row that is `sent`. -/
theorem dispatchAction_rows {e : Step} (principal : RemotePrincipal) (agent : RemoteAgentRecord)
    (tool : RemoteToolName) (capability : RemoteCapability) (args : Fields)
    (hnone : writtenAction d s e = none) :
    RowEffect d s e (s.dispatchAction d m principal agent tool capability args).2 := by
  cases dispatchAction_inversion d m s principal agent tool capability args with
  | refused _ h =>
    rw [h]
    exact .kept (.refl s) hnone
  | sent _ _ _ action _ _ _ _ _ _ hid hsent _ hstore h =>
    rw [h]
    obtain ⟨hopen, hfree, rfl⟩ := RemoteStore.insertAction_eq_ok hstore
    refine RowEffect.trans_same ?_ (sameActions_of_routine (routine_sendJson d m _ _ _))
    exact .dispatched action hsent hopen hfree rfl rfl rfl rfl hnone

theorem callRemoteTool_rows {e : Step} (principal : RemotePrincipal) (tool : RemoteToolName)
    (args : Fields) (hnone : writtenAction d s e = none) :
    RowEffect d s e (s.callRemoteTool d m principal tool args).2 := by
  have hroutine : ∀ {s' : RemoteControlPlane}, Routine d m s s' → RowEffect d s e s' :=
    fun h => .kept (sameActions_of_routine h) hnone
  cases callRemoteTool_inversion d m s principal tool args with
  | kept h =>
    rw [h]
    exact .kept (.refl s) hnone
  | tokenCreated _ h =>
    rw [h]
    exact hroutine (routine_createEnrollmentToken d m s principal _)
  | policyUpdated agent _ _ _ _ h =>
    rw [h]
    exact hroutine (routine_updateAgentPolicy d m s principal agent _)
  | revoked agent _ _ _ h =>
    rw [h]
    exact hroutine (routine_revokeAgent d m s principal agent)
  | denied _ _ _ h =>
    rw [h]
    exact hroutine (routine_audit d m s _ _ _ _ _ _)
  | dispatched agent _ _ _ h =>
    rw [h]
    exact dispatchAction_rows principal agent tool _ args hnone

/-- **A continuation** takes its promise, and writes the row if the database is open. -/
theorem resume_rows (id : String) :
    RowEffect d s ⟨.actionSettled id, m⟩ (s.resume d m id) := by
  cases resume_inversion d m s id with
  | kept hfind h =>
    rw [h]
    refine .kept (.refl s) ?_
    unfold writtenAction
    cases s.store.isOpen with
    | false => rfl
    | true =>
      dsimp only
      rw [hfind]
      rfl
  | dropped action outcome hfind hclosed h =>
    rw [h]
    refine .resumed id action outcome hfind rfl rfl (by rw [hclosed]; rfl) rfl ?_
    unfold writtenAction
    rw [hclosed]
    rfl
  | finished action outcome _ _ _ hfind hopen h =>
    rw [h]
    refine .resumed id action outcome hfind rfl rfl ?_ rfl ?_
    · rw [hopen]
      rfl
    · unfold writtenAction
      rw [hopen]
      dsimp only
      rw [hfind]
      rfl

/-- **A shutdown** settles what is pending, and writes no row. -/
theorem shutdown_rows : RowEffect d s ⟨.shutdown, m⟩ (s.shutdown d m) := by
  obtain ⟨hpending, hsettled, hstore⟩ := settle_fold s.pendingActions.entries s
  unfold shutdown
  dsimp only
  generalize s.pendingActions.entries.foldl (fun s e => s.settle e.2 (.rejected none)) s = s₁
    at hpending hsettled hstore ⊢
  have hidle := idle_closeAll (d := d) m s₁.agentConnections.entries s₁
  refine .closed rfl ?_ (fun id action hget => ?_) (hidle.settled.trans hsettled) rfl
  · exact hidle.actions.trans (congrArg RemoteStore.actions hstore)
  · have hget₁ : s₁.pendingActions.get? id = some action := hidle.pending ▸ hget
    rw [hpending] at hget₁
    split at hget₁
    · cases hget₁
    · exact hget₁

/-- **What a step does to the rows of actions.** -/
theorem step_rows (s : RemoteControlPlane) (e : Step) : RowEffect d s e (s.step d e) := by
  obtain ⟨event, m⟩ := e
  have hroutine : ∀ {s' : RemoteControlPlane}, writtenAction d s ⟨event, m⟩ = none →
      Routine d m s s' → RowEffect d s ⟨event, m⟩ s' :=
    fun hnone h => .kept (sameActions_of_routine h) hnone
  cases event with
  | connect c => exact hroutine rfl (routine_connect d m s c)
  | message c payload => exact receive_rows c payload
  | messageFailed c => exact hroutine rfl (routine_recover d m s c)
  | socketClosed c => exact hroutine rfl (routine_handleClose d m s c)
  | enroll body => exact hroutine rfl (routine_handleAgentEnroll d m s body)
  | createEnrollmentToken principal body =>
    exact hroutine rfl (routine_createEnrollmentToken d m s principal body)
  | patchArrived request principal agentRef =>
    exact hroutine rfl (routine_awaitPatch d m s request principal agentRef)
  | patchBody request body => exact hroutine rfl (routine_applyPatch d m s request body)
  | revoke principal agentRef => exact hroutine rfl (routine_revokeByRef d m s principal agentRef)
  | callTool principal tool args => exact callRemoteTool_rows principal tool args rfl
  | authenticationFailed =>
    change RowEffect d s _ (if s.store.isOpen then _ else s)
    split
    · exact hroutine rfl (routine_audit d m s _ _ _ _ _ _)
    · exact .kept (.refl s) rfl
  | actionTimeout id =>
    change RowEffect d s _ (s.timeOut id)
    unfold timeOut
    split
    · exact .kept (.refl s) rfl
    · next action hget => exact .settled id action _ hget rfl rfl rfl rfl rfl
  | actionSettled id => exact resume_rows id
  | cleanup => exact .kept ⟨rfl, rfl, rfl, rfl⟩ rfl
  | shutdown => exact shutdown_rows

end Effects

/-! ### The invariant -/

/-- A row of this process is still `sent`. -/
def RowSent (store : RemoteStore) (s : RemoteControlPlane) (id : String) : Prop :=
  OfProcess store id ∧ ∃ row, s.store.actions.get? id = some row ∧ row.status = .sent

/-- **The invariant**: what is pending or waits for its continuation has a `sent` row, is one or the
other, and waits once; every other row of the process is terminal; and nothing is left on a database
that is shut. -/
structure Tracked (store : RemoteStore) (s : RemoteControlPlane) : Prop where
  keyed : ∀ id action, s.pendingActions.get? id = some action → action.id = id
  pending : ∀ id action, s.pendingActions.get? id = some action → s.RowSent store id
  waiting : ∀ x ∈ s.settled, s.RowSent store x.1.id ∧ s.pendingActions.get? x.1.id = none
  once : (s.settled.map (·.1.id)).Nodup
  known : ∀ id, store.actions.get? id ≠ none → s.store.actions.get? id ≠ none
  finished : ∀ id row, s.store.actions.get? id = some row → OfProcess store id →
    s.pendingActions.get? id = none → (∀ x ∈ s.settled, x.1.id ≠ id) → row.status.isTerminal = true
  idle : s.store.isOpen = false → (∀ id, s.pendingActions.get? id = none) ∧ s.settled = []

theorem tracked_start (store : RemoteStore) : (start store).Tracked store where
  keyed _ _ h := by cases h
  pending _ _ h := by cases h
  waiting _ h := absurd h List.not_mem_nil
  once := List.nodup_nil
  known _ h := h
  finished id row h hof := by
    rw [show (start store).store = store from rfl, show store.actions.get? id = none from hof] at h
    cases h
  idle _ := ⟨fun _ => rfl, rfl⟩

theorem finished_of_tracked {store : RemoteStore} {s : RemoteControlPlane} (h : s.Tracked store) :
    s.ActionsFinished store where
  settled := h.finished
  shut hclosed id row hrow hof := by
    obtain ⟨hpending, hsettled⟩ := h.idle hclosed
    refine h.finished id row hrow hof (hpending id) fun x hx => ?_
    rw [hsettled] at hx
    exact absurd hx List.not_mem_nil

theorem isTerminal_finishedAction (m : Moment) (action : ActionRecord) (outcome : ActionOutcome) :
    (finishedAction d m action outcome).status.isTerminal = true := by
  cases outcome with
  | resolved result =>
    change (if result.status = .ok then ActionStatus.completed else .error).isTerminal = true
    split <;> rfl
  | rejected code =>
    change (if code.getD .internalError = .agentTimeout then ActionStatus.timeout else
      .error).isTerminal = true
    split <;> rfl

theorem id_finishedAction (m : Moment) (action : ActionRecord) (outcome : ActionOutcome) :
    (finishedAction d m action outcome).id = action.id := by
  cases outcome <;> rfl

/-- What is left when the one with an id is taken from a list in which ids are distinct. -/
theorem mem_eraseP_id {l : List (ActionRecord × ActionOutcome)} (hl : (l.map (·.1.id)).Nodup)
    {id : String} {x : ActionRecord × ActionOutcome} (hx : x ∈ l.eraseP fun y => y.1.id = id) :
    x ∈ l ∧ x.1.id ≠ id := by
  induction l with
  | nil => exact absurd hx List.not_mem_nil
  | cons y l ih =>
    rw [List.map_cons, List.nodup_cons] at hl
    by_cases hy : y.1.id = id
    · -- the rest has none with the id of the first
      rw [List.eraseP_cons_of_pos (by simpa using hy)] at hx
      refine ⟨List.mem_cons_of_mem _ hx, fun hid => hl.1 ?_⟩
      rw [hy, ← hid]
      exact List.mem_map_of_mem (f := fun x : ActionRecord × ActionOutcome => x.1.id) hx
    · rw [List.eraseP_cons_of_neg (by simpa using hy)] at hx
      rcases List.mem_cons.mp hx with rfl | hx
      · exact ⟨List.mem_cons_self, hy⟩
      · exact ⟨List.mem_cons_of_mem _ (ih hl.2 hx).1, (ih hl.2 hx).2⟩

theorem find?_id {l : List (ActionRecord × ActionOutcome)} {id : String}
    {x : ActionRecord × ActionOutcome} (h : l.find? (fun y => y.1.id = id) = some x) :
    x ∈ l ∧ x.1.id = id :=
  ⟨List.mem_of_find?_eq_some h, by simpa using List.find?_some h⟩

section Invariant

variable {d} {store : RemoteStore} {s : RemoteControlPlane} {e : Step}

/-- Whatever leaves the rows keeps the invariant. -/
theorem Tracked.of_same (hs : s.Tracked store) {s' : RemoteControlPlane} (h : SameActions s s') :
    s'.Tracked store := by
  obtain ⟨hpending, hsettled, hactions, hisOpen⟩ := h
  have hsent : ∀ id, s'.RowSent store id ↔ s.RowSent store id := by
    intro id
    unfold RowSent
    rw [hactions]
  refine ⟨?_, ?_, ?_, ?_, ?_, ?_, ?_⟩
  · rw [hpending]
    exact hs.keyed
  · intro id action hget
    rw [hpending] at hget
    exact (hsent id).mpr (hs.pending id action hget)
  · intro x hx
    rw [hsettled] at hx
    rw [hsent, hpending]
    exact hs.waiting x hx
  · rw [hsettled]
    exact hs.once
  · rw [hactions]
    exact hs.known
  · rw [hactions, hpending, hsettled]
    exact hs.finished
  · rw [hisOpen, hpending, hsettled]
    exact hs.idle

/-- An action that is inserted is pending. -/
theorem Tracked.dispatched (hs : s.Tracked store) {s' : RemoteControlPlane} {action : ActionRecord}
    (hsent : action.status = .sent) (hopen : s.store.isOpen = true)
    (hfree : s.store.actions.get? action.id = none)
    (hpending : s'.pendingActions = s.pendingActions.set action.id action)
    (hsettled : s'.settled = s.settled)
    (hactions : s'.store.actions = s.store.actions.set action.id action)
    (hisOpen : s'.store.isOpen = s.store.isOpen) : s'.Tracked store := by
  have hnew : OfProcess store action.id := by
    by_contra hold
    exact hs.known action.id hold hfree
  -- the rows that were there are there still
  have hkept : ∀ id, s.RowSent store id → id ≠ action.id ∧ s'.RowSent store id := by
    rintro id ⟨hof, row, hrow, hstatus⟩
    have hne : id ≠ action.id := by
      rintro rfl
      rw [hfree] at hrow
      cases hrow
    refine ⟨hne, hof, row, ?_, hstatus⟩
    rw [hactions, OrderedMap.get?_set_of_ne _ hne, hrow]
  have hself : s'.RowSent store action.id :=
    ⟨hnew, action, by rw [hactions, OrderedMap.get?_set_self], hsent⟩
  refine ⟨?_, ?_, ?_, ?_, ?_, ?_, ?_⟩
  · intro id found hget
    rw [hpending, OrderedMap.get?_set] at hget
    split at hget
    · next hid => rw [hid, ← Option.some.inj hget]
    · exact hs.keyed id found hget
  · intro id found hget
    rw [hpending, OrderedMap.get?_set] at hget
    split at hget
    · next hid =>
      rw [hid]
      exact hself
    · exact (hkept id (hs.pending id found hget)).2
  · intro x hx
    rw [hsettled] at hx
    obtain ⟨hrow, hnone⟩ := hs.waiting x hx
    obtain ⟨hne, hrow'⟩ := hkept x.1.id hrow
    refine ⟨hrow', ?_⟩
    rw [hpending, OrderedMap.get?_set_of_ne _ hne]
    exact hnone
  · rw [hsettled]
    exact hs.once
  · intro id hid
    rw [hactions, OrderedMap.get?_set]
    split
    · exact Option.some_ne_none _
    · exact hs.known id hid
  · intro id row hrow hof hnone hwaiting
    rw [hpending, OrderedMap.get?_set] at hnone
    rw [hactions, OrderedMap.get?_set] at hrow
    split at hnone
    · cases hnone
    · next hid =>
      rw [if_neg hid] at hrow
      rw [hsettled] at hwaiting
      exact hs.finished id row hrow hof hnone hwaiting
  · intro hclosed
    rw [hisOpen, hopen] at hclosed
    cases hclosed

/-- A promise that settles leaves its row to the continuation. -/
theorem Tracked.settle (hs : s.Tracked store) {s' : RemoteControlPlane} {id : String}
    {action : ActionRecord} {outcome : ActionOutcome} (hget : s.pendingActions.get? id =
      some action)
    (hpending : s'.pendingActions = s.pendingActions.delete action.id)
    (hsettled : s'.settled = s.settled ++ [(action, outcome)])
    (hactions : s'.store.actions = s.store.actions) (hisOpen : s'.store.isOpen = s.store.isOpen) :
    s'.Tracked store := by
  obtain rfl := hs.keyed id action hget
  have hrows : ∀ i, s'.RowSent store i ↔ s.RowSent store i := by
    intro i
    unfold RowSent
    rw [hactions]
  have hrest : ∀ {i found}, s'.pendingActions.get? i = some found →
      s.pendingActions.get? i = some found := by
    intro i found h
    rw [hpending, OrderedMap.get?_delete] at h
    split at h
    · cases h
    · exact h
  refine ⟨fun i found h => hs.keyed i found (hrest h), fun i found h => ?_, fun x hx =>
    ?_, ?_, ?_, ?_,
    fun hclosed => ?_⟩
  · rw [hrows]
    exact hs.pending i found (hrest h)
  · rw [hsettled] at hx
    rw [hrows, hpending, OrderedMap.get?_delete]
    rcases List.mem_append.mp hx with hx | hx
    · obtain ⟨hrow, hnone⟩ := hs.waiting x hx
      refine ⟨hrow, ?_⟩
      rw [hnone]
      split <;> rfl
    · -- the action that is settled is pending no more
      rw [List.mem_singleton.mp hx, if_pos rfl]
      exact ⟨hs.pending _ action hget, rfl⟩
  · -- a pending action does not wait already
    rw [hsettled, List.map_append, List.nodup_append]
    refine ⟨hs.once, List.nodup_singleton _, fun i hi j hj hij => ?_⟩
    obtain ⟨x, hx, rfl⟩ := List.mem_map.mp hi
    have hnone := (hs.waiting x hx).2
    rw [hij, List.mem_singleton.mp hj, hget] at hnone
    cases hnone
  · rw [hactions]
    exact hs.known
  · intro i row hrow hof hnone hwaiting
    rw [hactions] at hrow
    rw [hsettled] at hwaiting
    -- the action that waits now is not among the finished ones
    have hne : i ≠ action.id := by
      rintro rfl
      exact hwaiting (action, outcome) (List.mem_append_right _ (List.mem_singleton_self _)) rfl
    rw [hpending, OrderedMap.get?_delete, if_neg hne] at hnone
    exact hs.finished i row hrow hof hnone fun x hx => hwaiting x (List.mem_append_left _ hx)
  · rw [hisOpen] at hclosed
    rw [(hs.idle hclosed).1] at hget
    cases hget

/-- A continuation that runs finishes its row. -/
theorem Tracked.resume (hs : s.Tracked store) {s' : RemoteControlPlane} {id : String} {m : Moment}
    {action : ActionRecord} {outcome : ActionOutcome}
    (hfind : s.settled.find? (fun x => x.1.id = id) = some (action, outcome))
    (hpending : s'.pendingActions = s.pendingActions)
    (hsettled : s'.settled = s.settled.eraseP fun x => x.1.id = id)
    (hactions : s'.store.actions =
      if s.store.isOpen then
        s.store.actions.modify action.id (updatedAction (finishedAction d m action outcome))
      else s.store.actions)
    (hisOpen : s'.store.isOpen = s.store.isOpen) : s'.Tracked store := by
  obtain ⟨hmem, rfl⟩ := find?_id hfind
  have hopen : s.store.isOpen = true := by
    -- a shutdown leaves no continuation
    by_contra hclosed
    rw [(hs.idle (by simpa using hclosed)).2] at hmem
    exact absurd hmem List.not_mem_nil
  rw [hopen, if_pos rfl] at hactions
  have hother : ∀ i, i ≠ action.id → s'.store.actions.get? i = s.store.actions.get? i := by
    intro i hi
    rw [hactions, OrderedMap.get?_modify, if_neg hi]
  have hrows : ∀ i, i ≠ action.id → s.RowSent store i → s'.RowSent store i := by
    intro i hi h
    unfold RowSent
    rw [hother i hi]
    exact h
  obtain ⟨hrow, hnotPending⟩ := hs.waiting _ hmem
  refine ⟨?_, fun i found h => ?_, fun x hx => ?_, ?_, fun i hi => ?_, ?_, fun hclosed => ?_⟩
  · rw [hpending]
    exact hs.keyed
  · rw [hpending] at h
    refine hrows i ?_ (hs.pending i found h)
    rintro rfl
    rw [hnotPending] at h
    cases h
  · rw [hsettled] at hx
    obtain ⟨hx, hne⟩ := mem_eraseP_id hs.once hx
    rw [hpending]
    exact ⟨hrows _ hne (hs.waiting x hx).1, (hs.waiting x hx).2⟩
  · rw [hsettled]
    exact hs.once.sublist (List.eraseP_sublist.map _)
  · have hknown := hs.known i hi
    by_cases hid : i = action.id
    · rw [hactions, OrderedMap.get?_modify, if_pos hid, Ne, Option.map_eq_none_iff, ← hid]
      exact hknown
    · rw [hother i hid]
      exact hknown
  · intro i row hrow' hof hnone hwaiting
    by_cases hid : i = action.id
    · -- the row that is finished now
      rw [hactions, OrderedMap.get?_modify, if_pos hid] at hrow'
      obtain ⟨old, -, rfl⟩ := Option.map_eq_some_iff.mp hrow'
      exact isTerminal_finishedAction d m action outcome
    · -- any other row waits for what it waited for
      rw [hother i hid] at hrow'
      rw [hpending] at hnone
      refine hs.finished i row hrow' hof hnone fun x hx hxi => ?_
      refine hwaiting x ?_ hxi
      rw [hsettled]
      exact (List.mem_eraseP_of_neg (by simpa [hxi] using hid)).mpr hx
  · rw [hisOpen, hopen] at hclosed
    cases hclosed

/-- **One step keeps the invariant** if it meets the condition. -/
theorem tracked_step (hs : s.Tracked store) (he : ClosedWhenIdle s e) :
    (s.step d e).Tracked store := by
  cases step_rows (d := d) s e with
  | kept h => exact hs.of_same h
  | dispatched action hsent hopen hfree hpending hsettled hactions hisOpen =>
    exact hs.dispatched hsent hopen hfree hpending hsettled hactions hisOpen
  | settled id action outcome hget hpending hsettled hactions hisOpen =>
    exact hs.settle hget hpending hsettled hactions hisOpen
  | resumed id action outcome hfind hpending hsettled hactions hisOpen =>
    exact hs.resume hfind hpending hsettled hactions hisOpen
  | closed hevent hactions hpending hsettled =>
    -- the plane is closed when nothing waits
    obtain ⟨hnonePending, hnoneWaiting⟩ := he hevent
    have hempty : s.pendingActions.entries = [] := by
      refine List.eq_nil_iff_forall_not_mem.mpr fun x hx => ?_
      have hget := OrderedMap.mem_entries_iff.mp (show (x.1, x.2) ∈ _ from hx)
      rw [hnonePending] at hget
      cases hget
    have hnone' : ∀ id, (s.step d e).pendingActions.get? id = none := by
      intro id
      cases hget : (s.step d e).pendingActions.get? id with
      | none => rfl
      | some action =>
        have hold := hpending id action hget
        rw [hnonePending] at hold
        cases hold
    have hsettled' : (s.step d e).settled = [] := by
      rw [hsettled, hnoneWaiting, hempty]
      rfl
    refine ⟨fun id action h => ?_, fun id action h => ?_, fun x hx => ?_, ?_, ?_, ?_,
      fun _ => ⟨hnone', hsettled'⟩⟩
    · rw [hnone'] at h
      cases h
    · rw [hnone'] at h
      cases h
    · rw [hsettled'] at hx
      exact absurd hx List.not_mem_nil
    · rw [hsettled']
      exact List.nodup_nil
    · rw [hactions]
      exact hs.known
    · intro id row hrow hof _ _
      rw [hactions] at hrow
      refine hs.finished id row hrow hof (hnonePending id) fun x hx => ?_
      rw [hnoneWaiting] at hx
      exact absurd hx List.not_mem_nil

end Invariant

/-! ### What the invariant says of steps and runs -/

section Runs

variable {d} {store : RemoteStore} {s : RemoteControlPlane} {e : Step}

/-- **What a step writes** was `sent`, and becomes terminal. -/
theorem finishesActions_of_tracked (hs : s.Tracked store) : FinishesActions d s e := by
  have hquiet : writtenAction d s e = none → (s.step d e).store.actions = s.store.actions →
      FinishesActions d s e := by
    intro hnone hactions
    refine ⟨fun id row hfree hrow => ?_, fun record h => ?_, fun id row hrow _ => ?_⟩
    · rw [hactions, hfree] at hrow
      cases hrow
    · rw [hnone] at h
      cases h
    · rw [hactions]
      exact hrow
  cases step_rows (d := d) s e with
  | kept h hnone => exact hquiet hnone h.actions
  | settled id action outcome hget hpending hsettled hactions hisOpen hnone =>
    exact hquiet hnone hactions
  | closed hevent hactions hpending hsettled hnone =>
    -- a closed connection settles promises, and rows wait for them
    exact hquiet hnone hactions
  | dispatched action hsent hopen hfree hpending hsettled hactions hisOpen hnone =>
    refine ⟨fun id row hnew hrow => ?_, fun record h => ?_, fun id row hrow _ => ?_⟩
    · rw [hactions, OrderedMap.get?_set] at hrow
      split at hrow
      · rw [← Option.some.inj hrow]
        exact hsent
      · rw [hnew] at hrow
        cases hrow
    · rw [hnone] at h
      cases h
    · -- the id of a new row was free
      have hne : id ≠ action.id := by
        rintro rfl
        rw [hfree] at hrow
        cases hrow
      rw [hactions, OrderedMap.get?_set_of_ne _ hne, hrow]
  | resumed id action outcome hfind hpending hsettled hactions hisOpen hwritten =>
    obtain ⟨hmem, rfl⟩ := find?_id hfind
    cases hopen : s.store.isOpen with
    | false =>
      rw [hopen] at hactions hwritten
      -- the database is closed, so nothing is written
      exact hquiet hwritten hactions
    | true =>
      rw [hopen, if_pos rfl] at hactions hwritten
      obtain ⟨-, old, hold, hsent⟩ := (hs.waiting _ hmem).1
      have hid := id_finishedAction d e.moment action outcome
      refine ⟨fun i row hfree hrow => ?_, fun record h => ?_, fun i row hrow hother => ?_⟩
      · rw [hactions, OrderedMap.get?_modify] at hrow
        split at hrow
        · next hi =>
          rw [← hi, hfree] at hrow
          cases hrow
        · rw [hfree] at hrow
          cases hrow
      · obtain rfl := Option.some.inj (hwritten.symm.trans h)
        -- the row that is written is the waiting one with its end
        refine ⟨isTerminal_finishedAction d _ action outcome,
          old, by rw [hid]; exact hold, hsent, ?_⟩
        rw [hactions, hid, OrderedMap.get?_modify, if_pos rfl, hold]
        rfl
      · have hne : i ≠ action.id := by
          rintro rfl
          exact hother _ hwritten hid
        rw [hactions, OrderedMap.get?_modify, if_neg hne]
        exact hrow

/-- **No action is written twice**: a row that is written later in the run, and is there already, is
still `sent`. -/
theorem writtenActions_nodup (es : List Step) (hs : s.Tracked store)
    (hC : Run.AllSteps (step d) ClosedWhenIdle s es) :
    (writtenActions d s es).Nodup ∧
      ∀ id ∈ writtenActions d s es, ∀ row, s.store.actions.get? id = some row →
        row.status = .sent := by
  induction es generalizing s with
  | nil => exact ⟨List.nodup_nil, fun _ h => absurd h List.not_mem_nil⟩
  | cons e es ih =>
    obtain ⟨hnodup, hlater⟩ := ih (tracked_step hs hC.1) hC.2
    have hstep := finishesActions_of_tracked (e := e) (d := d) hs
    unfold writtenActions
    cases hwritten : writtenAction d s e with
    | none =>
      refine ⟨hnodup, fun id hid row hrow => ?_⟩
      refine hlater id hid row (hstep.kept id row hrow fun record h => ?_)
      rw [hwritten] at h
      cases h
    | some record =>
      obtain ⟨hterminal, old, hold, hsent, hnew⟩ := hstep.written record hwritten
      -- its row is terminal from now on
      have hnotLater : record.id ∉ writtenActions d (s.step d e) es := by
        intro hmem
        have hstill := hlater record.id hmem _ hnew
        rw [show (updatedAction record old).status = record.status from rfl] at hstill
        rw [hstill] at hterminal
        cases hterminal
      refine ⟨List.nodup_cons.mpr ⟨hnotLater, hnodup⟩, fun id hid row hrow => ?_⟩
      by_cases hsame : id = record.id
      · rw [hsame, hold] at hrow
        rw [← Option.some.inj hrow]
        exact hsent
      · have hmem : id ∈ writtenActions d (s.step d e) es :=
          (List.mem_cons.mp hid).resolve_left hsame
        refine hlater id hmem row (hstep.kept id row hrow fun record' h => ?_)
        obtain rfl := Option.some.inj (hwritten.symm.trans h)
        exact fun h => hsame h.symm

/-- **A `close()` that leaves every action finished** has found the process idle. -/
theorem closedWhenIdle_of_finished (hs : s.Tracked store)
    (h : (s.step d e).ActionsFinished store) : ClosedWhenIdle s e := by
  intro hevent
  have hrows : (s.step d e).store.isOpen = false ∧
      (s.step d e).store.actions = s.store.actions := by
    obtain ⟨event, m⟩ := e
    obtain rfl : event = .shutdown := hevent
    refine ⟨rfl, ?_⟩
    cases shutdown_rows (d := d) (m := m) (s := s) with
    | closed _ hactions => exact hactions
    | kept h => exact h.actions
    | dispatched _ _ hopen _ _ _ _ hisOpen =>
      rw [hopen] at hisOpen
      cases hisOpen
    | settled _ _ _ _ _ _ hactions => exact hactions
    | resumed _ _ _ _ _ _ hactions hisOpen =>
      have hclosed : s.store.isOpen = false := hisOpen.symm
      rw [hclosed] at hactions
      exact hactions
  have hnone : ∀ id, ¬s.RowSent store id := by
    rintro id ⟨hof, row, hrow, hsent⟩
    have hterminal := h.shut hrows.1 id row (by rw [hrows.2]; exact hrow) hof
    rw [hsent] at hterminal
    cases hterminal
  constructor
  · intro id
    cases hget : s.pendingActions.get? id with
    | none => rfl
    | some action => exact absurd (hs.pending id action hget) (hnone id)
  · exact List.eq_nil_iff_forall_not_mem.mpr fun x hx => hnone x.1.id (hs.waiting x hx).1

end Runs

/-- **When actions have their life.** In every run of a process, actions are written from `sent` to
a terminal status, each at most once, and are finished when nothing of them is left to run or the
database is shut, exactly when `close()` is called only while no action is pending and no
continuation waits. -/
theorem action_lifecycle_iff (store : RemoteStore) (es : List Step) :
    ActionLifecycle d store es ↔ Run.AllSteps (step d) ClosedWhenIdle (start store) es := by
  have hfinished : Run.Along (step d) (ActionsFinished store) (start store) es ↔
      Run.AllSteps (step d) ClosedWhenIdle (start store) es :=
    Run.along_iff_allSteps_of_invariant (J := Tracked store) (fun _ => finished_of_tracked)
      (fun _ _ hs he => tracked_step hs he) (fun _ _ hs h => closedWhenIdle_of_finished hs h)
      (tracked_start store)
  refine ⟨fun h => hfinished.mp h.finished, fun h => ?_⟩
  have htracked := Run.along_of_preserved (P := Tracked store) (fun _ _ hs he => tracked_step hs he)
    (tracked_start store) h
  exact ⟨Run.AllSteps.of_along (D := FinishesActions d)
      (fun _ _ hs _ => finishesActions_of_tracked hs) htracked h,
    (writtenActions_nodup es (tracked_start store) h).1, hfinished.mpr h⟩

/-- An agent is asked for the system status, and the control plane is closed before it answers; the
continuation of the dispatch runs after that. -/
def closedWhilePending : List Step :=
  [⟨.connect 0, sampleMoment 0⟩,
    Monitored.arrives 0 (Monitored.helloOfAgent "agt_1" "0123456789abcdef").toFields 1,
    Monitored.askAgent "agt_1" 2, ⟨.shutdown, sampleMoment 3⟩, ⟨.actionSettled "act_2",
      sampleMoment 4⟩]

/-- **An action that stays `sent`**: it is not pending, its continuation has run, and the database
was shut before. -/
theorem action_left_sent : ¬ActionLifecycle sampleDeployment sampleStore closedWhilePending := by
  intro h
  have hlast := Run.along_iff_prefix.mp h.finished _ List.prefix_rfl
  have hrow : ((Run.run (step sampleDeployment) (start sampleStore)
      closedWhilePending).store.actions.get? "act_2").map (·.status) = some .sent := by
    decide +kernel
  have hpending : ((Run.run (step sampleDeployment) (start sampleStore)
      closedWhilePending).pendingActions.get? "act_2").isNone = true := by
    decide +kernel
  have hsettled : (Run.run (step sampleDeployment) (start sampleStore)
      closedWhilePending).settled.isEmpty = true := by
    decide +kernel
  obtain ⟨row, hrow, hsent⟩ := Option.map_eq_some_iff.mp hrow
  have hterminal := hlast.settled "act_2" row hrow rfl (Option.isNone_iff_eq_none.mp hpending)
    (by rw [List.isEmpty_iff.mp hsettled]; exact fun _ h => absurd h List.not_mem_nil)
  rw [hsent] at hterminal
  cases hterminal

end RemoteControlPlane
end Remote
