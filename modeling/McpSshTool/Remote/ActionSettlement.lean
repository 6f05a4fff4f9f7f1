import McpSshTool.Remote.HelloReplay

/-!
# How actions are settled

Results, timeouts, refusals and a shutdown compete for the pending actions, and a result counts only
from the agent it was asked of. The nonces that a result must not repeat belong to the registration
of the agent: an accepted hello starts a new window, on whatever connection it arrives.

* `SettleEffect` and `step_settles` — what one step does to pending actions, their outcomes and the
  registrations;
* `Monitored` — a process together with its clock, the nonces its agents have used and the outcomes
  of its actions so far;
* `results_authentic` — every result that counts is authentic, and no action is settled twice.
-/

open Library

namespace Remote
namespace RemoteControlPlane

variable (d : Deployment)

/-! ### What leaves actions alone -/

/-- Registrations are as they were, up to nonces that were forgotten at one of the readings of the
clock. -/
def Aged (m : Moment) (s s' : RemoteControlPlane) : Prop :=
  ∀ a live', s'.agentConnections.get? a = some live' →
    ∃ live, s.agentConnections.get? a = some live ∧
      (live'.seenNonces = live.seenNonces ∨
        ∃ t, (t = m.now ∨ t = m.later) ∧ live'.seenNonces = pruneNonceWindow live.seenNonces t)

/-- **Nothing happens to actions**, and registrations at most end. -/
structure Idle (s s' : RemoteControlPlane) : Prop where
  pending : s'.pendingActions = s.pendingActions
  settled : s'.settled = s.settled
  actions : s'.store.actions = s.store.actions
  live : ∀ a live, s'.agentConnections.get? a = some live → s.agentConnections.get? a = some live

theorem Idle.refl (s : RemoteControlPlane) : Idle s s := ⟨rfl, rfl, rfl, fun _ _ h => h⟩

theorem Idle.trans {s s' s'' : RemoteControlPlane} (h : Idle s s') (h' : Idle s' s'') :
    Idle s s'' :=
  ⟨h'.pending.trans h.pending, h'.settled.trans h.settled, h'.actions.trans h.actions,
    fun a live hlive => h.live a live (h'.live a live hlive)⟩

theorem Idle.aged {s s' : RemoteControlPlane} (h : Idle s s') (m : Moment) : Aged m s s' :=
  fun a live hlive => ⟨live, h.live a live hlive, .inl rfl⟩

section Idle

variable {d} {m : Moment} {s s' : RemoteControlPlane}

theorem idle_change (h : Change d m s s') : Idle s s' := by
  cases h with
  | audit => exact ⟨rfl, rfl, rfl, fun _ _ h => h⟩
  | sendJson =>
    unfold sendJson
    split
    · exact .refl s
    · exact ⟨rfl, rfl, rfl, fun _ _ h => h⟩
  | tables store _ hactions => exact ⟨rfl, rfl, hactions, fun _ _ h => h⟩
  | connections => exact ⟨rfl, rfl, rfl, fun _ _ h => h⟩
  | onClose => exact ⟨rfl, rfl, rfl, fun _ _ h => h⟩
  | unregister agentId =>
    refine ⟨rfl, rfl, rfl, fun a live hlive => ?_⟩
    have hdelete : (s.agentConnections.delete agentId).get? a = some live := hlive
    rw [OrderedMap.get?_delete] at hdelete
    split at hdelete
    · exact absurd hdelete (by simp)
    · exact hdelete
  | failing => exact ⟨rfl, rfl, rfl, fun _ _ h => h⟩
  | patches => exact ⟨rfl, rfl, rfl, fun _ _ h => h⟩

/-- **A routine operation is idle.** -/
theorem idle_of_routine (h : Routine d m s s') : Idle s s' :=
  h.lift Idle.refl (fun _ _ _ => Idle.trans) fun _ _ => idle_change

theorem aged_cleanupEphemeralState {t : ℤ} (ht : t = m.now ∨ t = m.later)
    (h : Idle (s.cleanupEphemeralState t) s') : Aged m s s' := by
  intro a live' hlive
  have hmapped := h.live a live' hlive
  change (s.agentConnections.mapValues _).get? a = some live' at hmapped
  rw [OrderedMap.get?_mapValues] at hmapped
  obtain ⟨live, hget, rfl⟩ := Option.map_eq_some_iff.mp hmapped
  exact ⟨live, hget, .inr ⟨t, ht, rfl⟩⟩

end Idle

/-! ### What a step does to actions -/

/-- The key that verifies the results of an agent. -/
def storedKey (s : RemoteControlPlane) (agentId : String) : Option String :=
  (s.store.getAgent agentId).bind (·.publicKey)

/-- **What makes a result count** for a pending action, besides its nonce: it arrives on the
connection that the agent of the action is registered on, names the action, and is signed with the
agent's stored key. -/
structure Counts (s : RemoteControlPlane) (e : Step) (action : ActionRecord)
    (result : ActionResultEnvelope) (live : AgentConnection) : Prop where
  pending : s.pendingActions.get? result.action_id = some action
  agent : action.agentId = result.agent_id
  signed : ∃ publicKey, s.storedKey action.agentId = some publicKey ∧
    verifyEnvelope d.platform result.toFields publicKey = true
  registered : s.agentConnections.get? action.agentId = some live
  arrived : ∃ payload, e.event = .message live.connection (some payload) ∧
    actionResultEnvelopeSchema d.platform payload = some result
  fresh : (pruneNonceWindow live.seenNonces e.moment.now).get? result.nonce = none

/-- **What a step does to actions.** -/
inductive SettleEffect (s : RemoteControlPlane) (e : Step) (s' : RemoteControlPlane) : Prop where
  | kept (hpending : s'.pendingActions = s.pendingActions) (hsettled : s'.settled = s.settled)
      (hactions : s'.store.actions = s.store.actions) (hlive : Aged e.moment s s')
      (hnone : acceptedHello d s e = none)
  | registered (hello : AgentHelloEnvelope) (haccepted : acceptedHello d s e = some hello)
      (hpending : s'.pendingActions = s.pendingActions) (hsettled : s'.settled = s.settled)
      (hactions : s'.store.actions = s.store.actions)
      (hnew : ∀ live, s'.agentConnections.get? hello.agent_id = some live →
        live.seenNonces = rememberNonce .empty hello.nonce e.moment.later)
      (hlive : ∀ a, a ≠ hello.agent_id → ∀ live', s'.agentConnections.get? a = some live' →
        ∃ live, s.agentConnections.get? a = some live ∧
          live'.seenNonces = pruneNonceWindow live.seenNonces e.moment.later)
  | dispatched (action : ActionRecord) (hfree : s.store.actions.get? action.id = none)
      (hpending : s'.pendingActions = s.pendingActions.set action.id action)
      (hsettled : s'.settled = s.settled)
      (hactions : s'.store.actions = s.store.actions.set action.id action)
      (hlive : Aged e.moment s s') (hnone : acceptedHello d s e = none)
  | failed (id : String) (action : ActionRecord) (code : Option RemoteErrorCode)
      (hget : s.pendingActions.get? id = some action)
      (hpending : s'.pendingActions = s.pendingActions.delete action.id)
      (hsettled : s'.settled = s.settled ++ [(action, .rejected code)])
      (hactions : s'.store.actions = s.store.actions) (hlive : Aged e.moment s s')
      (hnone : acceptedHello d s e = none)
  | resolved (action : ActionRecord) (result : ActionResultEnvelope) (live : AgentConnection)
      (hcounts : Counts d s e action result live)
      (hpending : s'.pendingActions = s.pendingActions.delete action.id)
      (hsettled : s'.settled = s.settled ++ [(action, .resolved result)])
      (hactions : s'.store.actions = s.store.actions)
      (hlive : s'.agentConnections = s.agentConnections.set result.agent_id
        { live with
          seenNonces := rememberNonce (pruneNonceWindow live.seenNonces e.moment.now) result.nonce
            e.moment.now })
      (hnone : acceptedHello d s e = none)
  | resumed (hpending : s'.pendingActions = s.pendingActions)
      (hsettled : s'.settled.length ≤ s.settled.length)
      (hactions : ∀ id, s'.store.actions.get? id = none ↔ s.store.actions.get? id = none)
      (hlive : Aged e.moment s s') (hnone : acceptedHello d s e = none)
  | closed (hpending : ∀ id, s'.pendingActions.get? id =
        if id ∈ s.pendingActions.entries.map (·.2.id) then none else s.pendingActions.get? id)
      (hsettled : s'.settled =
        s.settled ++ s.pendingActions.entries.map fun e => (e.2, .rejected none))
      (hactions : s'.store.actions = s.store.actions)
      (hlive : ∀ a, s'.agentConnections.get? a = none) (hnone : acceptedHello d s e = none)

section Effects

variable {d} {s : RemoteControlPlane} {e : Step}

theorem settle_of_idle {s' : RemoteControlPlane} (h : Idle s s')
    (hnone : acceptedHello d s e = none) : SettleEffect d s e s' :=
  .kept h.pending h.settled h.actions (h.aged e.moment) hnone

theorem settle_of_cleaned {s' : RemoteControlPlane} {t : ℤ}
    (ht : t = e.moment.now ∨ t = e.moment.later) (h : Idle (s.cleanupEphemeralState t) s')
    (hnone : acceptedHello d s e = none) : SettleEffect d s e s' :=
  .kept h.pending h.settled h.actions (aged_cleanupEphemeralState ht h) hnone

theorem settle_of_dispatches {s' : RemoteControlPlane} (h : Dispatches d e.moment s s')
    (hnone : acceptedHello d s e = none) : SettleEffect d s e s' := by
  obtain ⟨action, store, hstore, hroutine⟩ := h
  obtain ⟨-, hfree, rfl⟩ := RemoteStore.insertAction_eq_ok hstore
  have hidle := idle_of_routine hroutine
  exact .dispatched action hfree hidle.pending hidle.settled hidle.actions
    (hidle.aged e.moment) hnone

/-- What a registration does: the agent is on its connection with a new window, every other
registration has been cleaned up. -/
theorem registerHello_live (m : Moment) (s : RemoteControlPlane) (c : ConnectionId)
    (hello : AgentHelloEnvelope) (agent : RemoteAgentRecord) :
    ∃ s₁, Idle (s.cleanupEphemeralState m.later) s₁ ∧
      s.registerHello d m c hello agent =
        { s₁ with
          agentConnections := s₁.agentConnections.set agent.id
            { agent, connection := c, seenNonces := rememberNonce .empty hello.nonce m.later }
              } := by
  unfold registerHello
  simp only
  split
  · next existing _ =>
    refine ⟨_, ?_, rfl⟩
    refine Idle.trans ?_ (idle_of_routine (routine_close d m _ _))
    exact ⟨rfl, rfl, rfl, fun _ _ h => h⟩
  · refine ⟨_, ?_, rfl⟩
    exact ⟨rfl, rfl, rfl, fun _ _ h => h⟩

theorem handleAgentHello_settles {c : ConnectionId} {hello : AgentHelloEnvelope}
    (hhello : helloOf d e = some (c, hello)) :
    SettleEffect d s e (s.handleAgentHello d e.moment c hello).2 := by
  cases handleAgentHello_inversion d e.moment s c hello with
  | kept hclosed h =>
    rw [h]
    exact settle_of_idle (.refl s) (by simp [acceptedHello, hhello, hclosed])
  | refused s₁ s₂ code message hverdict hs₁ hs₂ h =>
    rw [h]
    have hnone := acceptedHello_eq_none_of_verdict d hhello hverdict
    have hidle : Idle s₁ (s₂.reject d e.moment c code message) := by
      refine Idle.trans ?_ (idle_of_routine (routine_reject d e.moment s₂ c code message))
      rcases hs₂ with rfl | ⟨agent, eventType, metadata, rfl⟩
      · exact .refl _
      · exact idle_of_routine (routine_audit d e.moment s₁ _ _ _ _ _ _)
    -- nonces are forgotten or not before the refusal
    rcases hs₁ with rfl | rfl
    · exact settle_of_idle hidle hnone
    · exact settle_of_cleaned (.inr rfl) hidle hnone
  | accepted agent hopen hverdict h =>
    rw [h]
    obtain ⟨hagent, hid, -⟩ := helloVerdict_accepted d e.moment s hverdict
    obtain ⟨s₁, hcleaned, hregister⟩ := registerHello_live (d := d) e.moment s c hello agent
    have hafter := idle_of_routine (routine_acceptHello d e.moment s c hello hagent)
    rw [hregister] at hafter
    refine .registered hello (by simp [acceptedHello, hhello, hopen, hverdict])
      (hafter.pending.trans hcleaned.pending) (hafter.settled.trans hcleaned.settled)
      (hafter.actions.trans hcleaned.actions) ?_ ?_
    · intro live hlive
      have hset := hafter.live _ live hlive
      change (s₁.agentConnections.set agent.id _).get? hello.agent_id = some live at hset
      rw [hid, OrderedMap.get?_set_self] at hset
      rw [← Option.some.inj hset]
    · intro a ha live' hlive
      have hset := hafter.live _ live' hlive
      change (s₁.agentConnections.set agent.id _).get? a = some live' at hset
      rw [OrderedMap.get?_set_of_ne _ (by rw [hid]; exact ha)] at hset
      have hmapped := hcleaned.live a live' hset
      change (s.agentConnections.mapValues _).get? a = some live' at hmapped
      rw [OrderedMap.get?_mapValues] at hmapped
      obtain ⟨live, hget, rfl⟩ := Option.map_eq_some_iff.mp hmapped
      exact ⟨live, hget, rfl⟩

theorem handleActionResult_settles {c : ConnectionId} {payload : Value}
    {result : ActionResultEnvelope} (hevent : e.event = .message c (some payload))
    (hresult : actionResultEnvelopeSchema d.platform payload = some result)
    (hnone : acceptedHello d s e = none) :
    SettleEffect d s e (s.handleActionResult d e.moment c result).2 := by
  unfold handleActionResult
  split
  · exact settle_of_idle (.refl s) hnone
  · next action hpending =>
    simp only
    split
    · exact settle_of_idle (.refl s) hnone
    · -- a refusal deletes the action, whatever was found wrong
      have hrefused : ∀ (eventType : String) (code : Option RemoteErrorCode),
          SettleEffect d s e (s.refuseResult d e.moment action eventType code) :=
        fun _ code => .failed result.action_id action code hpending rfl rfl rfl
          ((Idle.refl s).aged e.moment) hnone
      split
      · exact hrefused _ _
      · next hsigned =>
        split
        · exact hrefused _ _
        · next live hlive =>
          split
          · exact hrefused _ _
          · next hsame =>
            obtain ⟨hagent, hconnection⟩ : action.agentId = result.agent_id ∧
              live.connection = c := by
              simpa using hsame
            split
            · -- a nonce seen before: the window is pruned on the way
              refine .failed result.action_id action _ hpending rfl rfl rfl ?_ hnone
              intro a live' hlive'
              have hset : (s.agentConnections.set result.agent_id
                { live with seenNonces := pruneNonceWindow live.seenNonces e.moment.now }).get? a =
                  some live' := hlive'
              rw [OrderedMap.get?_set] at hset
              split at hset
              · next ha =>
                rw [← Option.some.inj hset, ha]
                exact ⟨live, hlive, .inr ⟨e.moment.now, .inl rfl, rfl⟩⟩
              · exact ⟨live', hset, .inl rfl⟩
            · next hfresh =>
              -- the result counts, and its nonce is taken down
              refine .resolved action result live ⟨hpending, hagent, ?_, ?_, ?_, ?_⟩ rfl rfl rfl rfl
                hnone
              · have hany : (s.storedKey result.agent_id).any
                    (fun publicKey => verifyEnvelope d.platform result.toFields publicKey) =
                      true := by
                  simpa [storedKey] using hsigned
                obtain ⟨publicKey, hkey, hverify⟩ := (Option.any_eq_true _ _).mp hany
                rw [hagent]
                exact ⟨publicKey, hkey, hverify⟩
              · rw [hagent]
                exact hlive
              · rw [hconnection]
                exact ⟨payload, hevent, hresult⟩
              · exact OrderedMap.contains_eq_false.mp (by simpa using hfresh)

theorem receive_settles (m : Moment) (c : ConnectionId) (payload : Option Value) :
    SettleEffect d s ⟨.message c payload, m⟩ (s.receive d m c payload) := by
  cases receive_inversion d m s c payload with
  | failed hhello h =>
    rw [h]
    exact settle_of_idle ⟨rfl, rfl, rfl, fun _ _ h => h⟩ (acceptedHello_message_eq_none d hhello)
  | rejected code message hhello h =>
    rw [h]
    exact settle_of_idle (idle_of_routine (routine_reject d m s c code message))
      (acceptedHello_message_eq_none d fun _ => hhello)
  | hello hello hhello _ h =>
    rw [h]
    obtain ⟨payload, rfl, hschema⟩ := Option.bind_eq_some_iff.mp hhello
    exact handleAgentHello_settles (e := ⟨.message c (some payload), m⟩)
      (by simp [helloOf, hschema])
  | result result hhello hresult h =>
    rw [h]
    obtain ⟨payload, rfl, hschema⟩ := Option.bind_eq_some_iff.mp hresult
    exact handleActionResult_settles (e := ⟨.message c (some payload), m⟩) rfl hschema
      (acceptedHello_message_eq_none d fun _ => hhello)

theorem resume_settles (m : Moment) (id : String) (hnone : acceptedHello d s e = none) :
    SettleEffect d s e (s.resume d m id) := by
  have hlength : (s.settled.eraseP fun x => x.1.id = id).length ≤ s.settled.length :=
    List.length_eraseP_le
  cases resume_inversion d m s id with
  | kept _ h =>
    rw [h]
    exact settle_of_idle (.refl s) hnone
  | dropped action outcome _ _ h =>
    rw [h]
    exact .resumed rfl hlength (fun _ => Iff.rfl) ((Idle.refl s).aged e.moment) hnone
  | finished action outcome _ _ _ _ _ h =>
    rw [h]
    -- updating a row adds none
    have hkeys : ∀ i (f : ActionRecord → ActionRecord),
        (s.store.actions.modify action.id f).get? i = none ↔ s.store.actions.get? i = none := by
      intro i f
      rw [OrderedMap.get?_modify]
      split
      · next hi => rw [hi, Option.map_eq_none_iff]
      · exact Iff.rfl
    exact .resumed rfl hlength (fun i => hkeys i _) ((Idle.refl s).aged e.moment) hnone

/-- Settling a list of actions. -/
theorem settle_fold (l : List (String × ActionRecord)) (s : RemoteControlPlane) :
    (∀ id, (l.foldl (fun s e => s.settle e.2 (.rejected none)) s).pendingActions.get? id =
        if id ∈ l.map (·.2.id) then none else s.pendingActions.get? id) ∧
      (l.foldl (fun s e => s.settle e.2 (.rejected none)) s).settled =
        s.settled ++ l.map (fun e => (e.2, .rejected none)) ∧
      (l.foldl (fun s e => s.settle e.2 (.rejected none)) s).store = s.store := by
  induction l generalizing s with
  | nil =>
    refine ⟨fun id => ?_, ?_, rfl⟩
    · rw [List.map_nil, if_neg List.not_mem_nil]
      rfl
    · rw [List.map_nil, List.append_nil]
      rfl
  | cons e l ih =>
    obtain ⟨hpending, hsettled, hstore⟩ := ih (s.settle e.2 (.rejected none))
    rw [List.foldl_cons]
    refine ⟨fun id => ?_, ?_, hstore⟩
    · rw [hpending]
      show (if _ then none else (s.pendingActions.delete e.2.id).get? id) = _
      rw [OrderedMap.get?_delete, List.map_cons]
      by_cases hl : id ∈ l.map (·.2.id)
      · rw [if_pos hl, if_pos (List.mem_cons_of_mem _ hl)]
      · by_cases he : id = e.2.id
        · rw [if_neg hl, if_pos he, if_pos (by rw [he]; exact List.mem_cons_self)]
        · rw [if_neg hl, if_neg he, if_neg (List.not_mem_cons_of_ne_of_not_mem he hl)]
    · rw [hsettled]
      show (s.settled ++ [(e.2, .rejected none)]) ++ _ = _
      rw [List.append_assoc, List.singleton_append, List.map_cons]

theorem idle_closeAll (m : Moment) (l : List (String × AgentConnection)) (s : RemoteControlPlane) :
    Idle s (l.foldl (fun s e => s.close d m e.2.connection) s) :=
  List.foldlRecOn (motive := Idle s) l _ (.refl s) fun s' h e _ =>
    h.trans (idle_of_routine (routine_close d m s' e.2.connection))

theorem shutdown_settles (m : Moment) (hnone : acceptedHello d s e = none) :
    SettleEffect d s e (s.shutdown d m) := by
  unfold shutdown
  simp only
  set s₁ := s.pendingActions.entries.foldl (fun s e => s.settle e.2 (.rejected none)) s with hs₁
  obtain ⟨hpending, hsettled, hstore⟩ := settle_fold s.pendingActions.entries s
  rw [← hs₁] at hpending hsettled hstore
  have hidle := idle_closeAll (d := d) m s₁.agentConnections.entries s₁
  refine .closed ?_ (hidle.settled.trans hsettled) ?_ (fun a => rfl) hnone
  · intro id
    show (List.foldl _ s₁ _).pendingActions.get? id = _
    rw [hidle.pending, hpending]
  · show (List.foldl _ s₁ _).store.actions = _
    rw [hidle.actions, hstore]

/-- **What a step can do to actions.** -/
theorem step_settles (s : RemoteControlPlane) (e : Step) : SettleEffect d s e (s.step d e) := by
  obtain ⟨event, m⟩ := e
  by_cases hmessage : ∃ c payload, event = .message c payload
  · obtain ⟨c, payload, rfl⟩ := hmessage
    exact receive_settles m c payload
  · have hnone : acceptedHello d s ⟨event, m⟩ = none := by
      cases event with
      | message c payload => exact absurd ⟨c, payload, rfl⟩ hmessage
      | _ => rfl
    rcases step_routine d s ⟨event, m⟩ with h | ⟨-, h⟩ | h | ⟨id, h⟩ | ⟨id, h⟩ | h | h
    · exact settle_of_idle (idle_of_routine h) hnone
    · exact settle_of_dispatches h hnone
    · exact absurd h hmessage
    · obtain rfl : event = .actionTimeout id := h
      show SettleEffect d s _ (s.timeOut id)
      unfold timeOut
      split
      · exact settle_of_idle (.refl s) hnone
      · next action hget =>
        exact .failed id action _ hget rfl rfl rfl ((Idle.refl s).aged m) hnone
    · obtain rfl : event = .actionSettled id := h
      exact resume_settles m id hnone
    · obtain rfl : event = .cleanup := h
      exact settle_of_cleaned (.inl rfl) (.refl _) hnone
    · obtain rfl : event = .shutdown := h
      exact shutdown_settles m hnone

end Effects

/-! ### A process under supervision -/

/-- What a step settles. -/
def settledBy (s : RemoteControlPlane) (e : Step) : List (ActionRecord × ActionOutcome) :=
  (s.step d e).settled.drop s.settled.length

/-- The result that an outcome carries. -/
def ActionOutcome.result? : ActionOutcome → Option ActionResultEnvelope
  | .resolved result => some result
  | .rejected _ => none

/-- The result that a step lets count. -/
def acceptedResult (s : RemoteControlPlane) (e : Step) : Option ActionResultEnvelope :=
  (settledBy d s e).findSome? fun x => ActionOutcome.result? x.2

/-- A process, the last reading of its clock, the nonces that each agent has used since the hello
that registered it, with the times until which they are remembered, and the outcomes of the actions
so far. -/
structure Monitored where
  plane : RemoteControlPlane
  clock : ℤ
  used : String → List (String × ℤ)
  outcomes : List (ActionRecord × ActionOutcome)

namespace Monitored

/-- A process that has just started. -/
def start (store : RemoteStore) (clock : ℤ) : Monitored where
  plane := RemoteControlPlane.start store
  clock := clock
  used _ := []
  outcomes := []

/-- One step of a process under supervision. An accepted hello starts the nonces of its agent
anew. -/
def step (w : Monitored) (e : Step) : Monitored where
  plane := w.plane.step d e
  clock := e.moment.later
  used :=
    match acceptedHello d w.plane e, acceptedResult d w.plane e with
    | some hello, _ =>
      Function.update w.used hello.agent_id [(hello.nonce, e.moment.later + agentNonceTtlMs)]
    | none, some result =>
      Function.update w.used result.agent_id
        (w.used result.agent_id ++ [(result.nonce, e.moment.now + agentNonceTtlMs)])
    | none, none => w.used
  outcomes := w.outcomes ++ settledBy d w.plane e

/-- The clock does not go back. -/
def OnTime (w : Monitored) (e : Step) : Prop :=
  w.clock ≤ e.moment.now ∧ e.moment.now ≤ e.moment.later

/-- No action was settled twice. -/
def SettledOnce (w : Monitored) : Prop := (w.outcomes.map (·.1.id)).Nodup

/-- **A result is authentic** for an action: it has arrived on the connection on which the agent of
the action is registered, it names the action, the holder of the agent's stored key has signed it,
and its nonce is none that the agent has used since the hello of that registration and that is still
to be remembered, unless as many as the window holds were used after it. -/
structure Authentic (Signed : String → String → Prop) (w : Monitored) (e : Step)
    (action : ActionRecord) (result : ActionResultEnvelope) : Prop where
  pending : w.plane.pendingActions.get? action.id = some action
  names : result.action_id = action.id
  agent : result.agent_id = action.agentId
  arrived : ∃ live payload, w.plane.agentConnections.get? action.agentId = some live ∧
    e.event = .message live.connection (some payload) ∧
      actionResultEnvelopeSchema d.platform payload = some result
  signed : ∃ publicKey, w.plane.storedKey action.agentId = some publicKey ∧
    Signed publicKey (canonicalJson d.platform.numberText (.obj (unsigned result.toFields)))
  fresh : ∀ earlier nonce expiresAt later,
    w.used action.agentId = earlier ++ (nonce, expiresAt) :: later →
      later.length < maxAgentConnectionNonces → e.moment.now < expiresAt → result.nonce ≠ nonce

/-- **The invariant**: pending actions are found under their ids; those and the settled ones are in
the table of actions; what is settled is not pending, and was settled once; and the windows retain
the nonces that were used. -/
structure Consistent (w : Monitored) : Prop where
  keyed : ∀ id action, w.plane.pendingActions.get? id = some action → action.id = id
  known : ∀ id action, w.plane.pendingActions.get? id = some action →
    w.plane.store.actions.get? id ≠ none
  recorded : ∀ x ∈ w.outcomes, w.plane.store.actions.get? x.1.id ≠ none
  ended : ∀ x ∈ w.outcomes, w.plane.pendingActions.get? x.1.id = none
  once : w.SettledOnce
  windows : ∀ a live, w.plane.agentConnections.get? a = some live →
    ExpiringMap.Retains live.seenNonces (w.used a) w.clock maxAgentConnectionNonces

theorem consistent_start (store : RemoteStore) (clock : ℤ) : (start store clock).Consistent where
  keyed _ _ h := absurd h (by simp [start, RemoteControlPlane.start])
  known _ _ h := absurd h (by simp [start, RemoteControlPlane.start])
  recorded _ h := absurd h List.not_mem_nil
  ended _ h := absurd h List.not_mem_nil
  once := List.nodup_nil
  windows _ _ h := absurd h (by simp [start, RemoteControlPlane.start])

/-! ### One step -/

variable {d} {w : Monitored} {e : Step}

/-- Windows that were at most pruned retain what they retained. -/
theorem windows_of_aged (hw : w.Consistent) (he : OnTime w e)
    {s' : RemoteControlPlane} (hlive : Aged e.moment w.plane s') {a : String}
    {live' : AgentConnection}
    (hget : s'.agentConnections.get? a = some live') :
    ExpiringMap.Retains live'.seenNonces (w.used a) e.moment.later maxAgentConnectionNonces := by
  obtain ⟨live, hold, hseen⟩ := hlive a live' hget
  have hretains := hw.windows a live hold
  rcases hseen with hsame | ⟨t, ht, hpruned⟩
  · rw [hsame]
    exact hretains.later (he.1.trans he.2)
  · rw [hpruned]
    rcases ht with rfl | rfl
    · exact (hretains.prune he.1).later he.2
    · exact hretains.prune (he.1.trans he.2)

/-- An action that is settled was pending, and is not among those settled before. -/
theorem consistent_settle {s' : RemoteControlPlane} {used : String → List (String × ℤ)}
    (hw : w.Consistent) {id : String} {action : ActionRecord} {outcome : ActionOutcome}
    (hget : w.plane.pendingActions.get? id = some action)
    (hpending : s'.pendingActions = w.plane.pendingActions.delete action.id)
    (hactions : s'.store.actions = w.plane.store.actions)
    (hwindows : ∀ a live, s'.agentConnections.get? a = some live →
      ExpiringMap.Retains live.seenNonces (used a) e.moment.later maxAgentConnectionNonces) :
    Consistent ⟨s', e.moment.later, used, w.outcomes ++ [(action, outcome)]⟩ := by
  obtain rfl := hw.keyed id action hget
  have hkept : ∀ {i a}, s'.pendingActions.get? i = some a →
      w.plane.pendingActions.get? i = some a := by
    intro i a hi
    rw [hpending, OrderedMap.get?_delete] at hi
    split at hi
    · exact absurd hi (by simp)
    · exact hi
  refine ⟨fun i a hi => hw.keyed i a (hkept hi), fun i a hi => ?_, fun x hx => ?_,
    fun x hx => ?_, ?_,
    hwindows⟩
  · show s'.store.actions.get? i ≠ none
    rw [hactions]
    exact hw.known i a (hkept hi)
  · show s'.store.actions.get? x.1.id ≠ none
    rw [hactions]
    rcases List.mem_append.mp hx with hx | hx
    · exact hw.recorded x hx
    · rw [List.mem_singleton.mp hx]
      exact hw.known _ action hget
  · show s'.pendingActions.get? x.1.id = none
    rw [hpending, OrderedMap.get?_delete]
    rcases List.mem_append.mp hx with hx | hx
    · rw [hw.ended x hx]
      split <;> rfl
    · rw [List.mem_singleton.mp hx, if_pos rfl]
  · unfold SettledOnce
    rw [List.map_append, List.nodup_append]
    refine ⟨hw.once, List.nodup_singleton _, ?_⟩
    intro i hi j hj hij
    obtain ⟨x, hx, rfl⟩ := List.mem_map.mp hi
    have hended := hw.ended x hx
    rw [hij, List.mem_singleton.mp hj, hget] at hended
    exact absurd hended (by simp)

theorem settledBy_of_append {s : RemoteControlPlane} {added : List (ActionRecord × ActionOutcome)}
    (h : (s.step d e).settled = s.settled ++ added) : settledBy d s e = added := by
  rw [settledBy, h, List.drop_left]

theorem settledBy_of_length_le {s : RemoteControlPlane}
    (h : (s.step d e).settled.length ≤ s.settled.length) : settledBy d s e = [] :=
  List.drop_eq_nil_of_le h

theorem step_of_quiet {added : List (ActionRecord × ActionOutcome)}
    (hnone : acceptedHello d w.plane e = none) (hsettled : settledBy d w.plane e = added)
    (hresult : ∀ x ∈ added, ActionOutcome.result? x.2 = none) :
    w.step d e = ⟨w.plane.step d e, e.moment.later, w.used, w.outcomes ++ added⟩ := by
  have haccepted : acceptedResult d w.plane e = none := by
    rw [acceptedResult, hsettled]
    exact List.findSome?_eq_none_iff.mpr hresult
  unfold step
  rw [hnone, haccepted, hsettled]

/-- A step that settles nothing and keeps the pending actions. -/
theorem consistent_of_pending (hw : w.Consistent) {s' : RemoteControlPlane}
    {used : String → List (String × ℤ)} (hpending : s'.pendingActions = w.plane.pendingActions)
    (hactions : ∀ id, s'.store.actions.get? id = none ↔ w.plane.store.actions.get? id = none)
    (hwindows : ∀ a live, s'.agentConnections.get? a = some live →
      ExpiringMap.Retains live.seenNonces (used a) e.moment.later maxAgentConnectionNonces) :
    Consistent ⟨s', e.moment.later, used, w.outcomes ++ []⟩ := by
  rw [List.append_nil]
  refine ⟨?_, ?_, ?_, ?_, hw.once, hwindows⟩
  · show ∀ id action, s'.pendingActions.get? id = some action → action.id = id
    rw [hpending]
    exact hw.keyed
  · show ∀ id action, s'.pendingActions.get? id = some action → s'.store.actions.get? id ≠ none
    rw [hpending]
    exact fun id action h hnone => hw.known id action h ((hactions id).mp hnone)
  · exact fun x hx hnone => hw.recorded x hx ((hactions _).mp hnone)
  · show ∀ x ∈ w.outcomes, s'.pendingActions.get? x.1.id = none
    rw [hpending]
    exact hw.ended

/-- An action with a new id becomes pending. -/
theorem consistent_dispatched (hw : w.Consistent) {s' : RemoteControlPlane} {action : ActionRecord}
    (hfree : w.plane.store.actions.get? action.id = none)
    (hpending : s'.pendingActions = w.plane.pendingActions.set action.id action)
    (hactions : s'.store.actions = w.plane.store.actions.set action.id action)
    (hwindows : ∀ a live, s'.agentConnections.get? a = some live →
      ExpiringMap.Retains live.seenNonces (w.used a) e.moment.later maxAgentConnectionNonces) :
    Consistent ⟨s', e.moment.later, w.used, w.outcomes ++ []⟩ := by
  rw [List.append_nil]
  have hknown : ∀ id, w.plane.store.actions.get? id ≠ none → s'.store.actions.get? id ≠ none := by
    intro id hid
    rw [hactions, OrderedMap.get?_set]
    split
    · simp
    · exact hid
  refine ⟨fun id a h => ?_, fun id a h => ?_, fun x hx => hknown _ (hw.recorded x hx),
    fun x hx => ?_,
    hw.once, hwindows⟩
  · have h : s'.pendingActions.get? id = some a := h
    rw [hpending, OrderedMap.get?_set] at h
    split at h
    · next hid => rw [hid, ← Option.some.inj h]
    · exact hw.keyed id a h
  · have h : s'.pendingActions.get? id = some a := h
    show s'.store.actions.get? id ≠ none
    rw [hpending, OrderedMap.get?_set] at h
    split at h
    · next hid =>
      rw [hactions, hid, OrderedMap.get?_set_self]
      simp
    · exact hknown id (hw.known id a h)
  · show s'.pendingActions.get? x.1.id = none
    rw [hpending, OrderedMap.get?_set]
    split
    · next hid =>
      -- an id that was settled is in the table already
      have hrecorded := hw.recorded x hx
      rw [hid] at hrecorded
      exact absurd hfree hrecorded
    · exact hw.ended x hx

/-- A shutdown settles all that is pending. -/
theorem consistent_closed (hw : w.Consistent) {s' : RemoteControlPlane}
    (hpending : ∀ id, s'.pendingActions.get? id =
      if id ∈ w.plane.pendingActions.entries.map (·.2.id) then none
      else w.plane.pendingActions.get? id)
    (hactions : s'.store.actions = w.plane.store.actions)
    (hlive : ∀ a, s'.agentConnections.get? a = none) :
    Consistent ⟨s', e.moment.later, w.used,
      w.outcomes ++ w.plane.pendingActions.entries.map fun e => (e.2, .rejected none)⟩ := by
  have hentry : ∀ x ∈ w.plane.pendingActions.entries,
      w.plane.pendingActions.get? x.2.id = some x.2 ∧ x.2.id = x.1 := by
    intro x hx
    have hget := OrderedMap.mem_entries_iff.mp hx
    have hid := hw.keyed x.1 x.2 hget
    rw [hid]
    exact ⟨hget, rfl⟩
  have hkept : ∀ {id a}, s'.pendingActions.get? id = some a →
      w.plane.pendingActions.get? id = some a := by
    intro id a h
    rw [hpending] at h
    split at h
    · exact absurd h (by simp)
    · exact h
  refine ⟨fun id a h => hw.keyed id a (hkept h), fun id a h => ?_, fun x hx => ?_,
    fun x hx => ?_, ?_,
    fun a live h => ?_⟩
  · show s'.store.actions.get? id ≠ none
    rw [hactions]
    exact hw.known id a (hkept h)
  · show s'.store.actions.get? x.1.id ≠ none
    rw [hactions]
    rcases List.mem_append.mp hx with hx | hx
    · exact hw.recorded x hx
    · obtain ⟨y, hy, rfl⟩ := List.mem_map.mp hx
      exact hw.known _ y.2 (hentry y hy).1
  · show s'.pendingActions.get? x.1.id = none
    rw [hpending]
    rcases List.mem_append.mp hx with hx | hx
    · rw [hw.ended x hx]
      split <;> rfl
    · obtain ⟨y, hy, rfl⟩ := List.mem_map.mp hx
      exact if_pos (List.mem_map_of_mem hy)
  · unfold SettledOnce
    have hids : (w.plane.pendingActions.entries.map fun e => (e.2, ActionOutcome.rejected none)).map
        (·.1.id) = w.plane.pendingActions.entries.map Prod.fst := by
      rw [List.map_map]
      exact List.map_congr_left fun x hx => (hentry x hx).2
    -- what is pending had not been settled before
    rw [List.map_append, hids, List.nodup_append]
    refine ⟨hw.once, w.plane.pendingActions.nodup, ?_⟩
    intro i hi j hj hij
    obtain ⟨x, hx, rfl⟩ := List.mem_map.mp hi
    obtain ⟨y, hy, rfl⟩ := List.mem_map.mp hj
    have hended := hw.ended x hx
    rw [hij, ← (hentry y hy).2, (hentry y hy).1] at hended
    exact absurd hended (by simp)
  · have h : s'.agentConnections.get? a = some live := h
    rw [hlive] at h
    exact absurd h (by simp)

/-- **One step keeps a supervised process consistent.** -/
theorem consistent_step (hw : w.Consistent) (he : OnTime w e) : (w.step d e).Consistent := by
  cases step_settles (d := d) w.plane e with
  | kept hpending hsettled hactions hlive hnone =>
    rw [step_of_quiet hnone (settledBy_of_length_le (by rw [hsettled])) (by simp)]
    exact consistent_of_pending hw hpending (fun id => by rw [hactions])
      fun a live h => windows_of_aged hw he hlive h
  | resumed hpending hsettled hactions hlive hnone =>
    rw [step_of_quiet hnone (settledBy_of_length_le hsettled) (by simp)]
    exact consistent_of_pending hw hpending hactions fun a live h => windows_of_aged hw he hlive h
  | registered hello haccepted hpending hsettled hactions hnew hlive =>
    have hstep : w.step d e = ⟨w.plane.step d e, e.moment.later,
        Function.update w.used hello.agent_id [(hello.nonce, e.moment.later + agentNonceTtlMs)],
        w.outcomes ++ []⟩ := by
      -- no promise is settled, and the hello is written down
      unfold step
      rw [haccepted, settledBy_of_length_le (by rw [hsettled])]
    rw [hstep]
    refine consistent_of_pending hw hpending (fun id => by rw [hactions]) fun a live h => ?_
    by_cases ha : a = hello.agent_id
    · -- the new window, with the nonce of the hello
      subst ha
      rw [hnew live h, Function.update_self]
      exact ExpiringMap.Retains.single _ _ _ (by decide)
    · obtain ⟨live₀, hold, hpruned⟩ := hlive a ha live h
      rw [hpruned, Function.update_of_ne ha]
      exact (hw.windows a live₀ hold).prune (he.1.trans he.2)
  | dispatched action hfree hpending hsettled hactions hlive hnone =>
    rw [step_of_quiet hnone (settledBy_of_length_le (by rw [hsettled])) (by simp)]
    exact consistent_dispatched hw hfree hpending hactions
      fun a live h => windows_of_aged hw he hlive h
  | failed id action code hget hpending hsettled hactions hlive hnone =>
    rw [step_of_quiet hnone (settledBy_of_append hsettled)
      (by simp [ActionOutcome.result?])]
    exact consistent_settle hw hget hpending hactions fun a live h => windows_of_aged hw he hlive h
  | resolved action result live hcounts hpending hsettled hactions hlive hnone =>
    have haccepted : acceptedResult d w.plane e = some result := by
      rw [acceptedResult, settledBy_of_append hsettled]
      rfl
    have hstep : w.step d e = ⟨w.plane.step d e, e.moment.later,
        Function.update w.used result.agent_id
          (w.used result.agent_id ++ [(result.nonce, e.moment.now + agentNonceTtlMs)]),
        w.outcomes ++ [(action, .resolved result)]⟩ := by
      unfold step
      rw [hnone, haccepted, settledBy_of_append hsettled]
    rw [hstep]
    refine consistent_settle hw hcounts.pending hpending hactions fun a live' h => ?_
    -- only the window of the agent that answered has grown
    rw [hlive, OrderedMap.get?_set] at h
    by_cases ha : a = result.agent_id
    · -- the window of the agent, with the nonce of the result
      rw [if_pos ha] at h
      rw [← Option.some.inj h, ha, Function.update_self]
      have hretains := (hw.windows _ live hcounts.registered).prune he.1
      rw [hcounts.agent] at hretains
      have hfresh : (ExpiringMap.prune (ExpiringMap.prune live.seenNonces e.moment.now)
          e.moment.now).get? result.nonce = none := by
        rw [ExpiringMap.get?_prune, show (ExpiringMap.prune live.seenNonces e.moment.now).get?
          result.nonce = none from hcounts.fresh]
        rfl
      exact (hretains.remember hfresh _ _).later he.2
    · -- every other window has only aged
      rw [if_neg ha] at h
      rw [Function.update_of_ne ha]
      exact (hw.windows a live' h).later (he.1.trans he.2)
  | closed hpending hsettled hactions hlive hnone =>
    rw [step_of_quiet hnone (settledBy_of_append hsettled) ?_]
    · exact consistent_closed hw hpending hactions hlive
    · -- what a shutdown settles are failures
      intro x hx
      obtain ⟨y, -, rfl⟩ := List.mem_map.mp hx
      rfl

/-- **A result that a step lets count is authentic.** -/
theorem authentic_step {Signed : String → String → Prop}
    (hsign : ∀ publicKey text signature, d.platform.verify publicKey text signature = true →
      Signed publicKey text)
    (hw : w.Consistent) (he : OnTime w e) {action : ActionRecord} {result : ActionResultEnvelope}
    (hmem : (action, .resolved result) ∈ settledBy d w.plane e) :
    Authentic d Signed w e action result := by
  have hnone : ∀ {added : List (ActionRecord × ActionOutcome)}, settledBy d w.plane e = added →
      (∀ x ∈ added, ActionOutcome.result? x.2 = none) → Authentic d Signed w e action result := by
    intro added hadded hno
    rw [hadded] at hmem
    exact absurd (hno _ hmem) (by simp [ActionOutcome.result?])
  cases step_settles (d := d) w.plane e with
  | kept _ hsettled => exact hnone (settledBy_of_length_le (by rw [hsettled])) (by simp)
  | registered _ _ _ hsettled => exact hnone (settledBy_of_length_le (by rw [hsettled])) (by simp)
  | dispatched _ _ _ hsettled => exact hnone (settledBy_of_length_le (by rw [hsettled])) (by simp)
  | resumed _ hsettled => exact hnone (settledBy_of_length_le hsettled) (by simp)
  | failed _ _ _ _ _ hsettled =>
    exact hnone (settledBy_of_append hsettled) (by simp [ActionOutcome.result?])
  | closed _ hsettled =>
    refine hnone (settledBy_of_append hsettled) fun x hx => ?_
    obtain ⟨y, -, rfl⟩ := List.mem_map.mp hx
    rfl
  | resolved action' result' live hcounts _ hsettled =>
    rw [settledBy_of_append hsettled, List.mem_singleton] at hmem
    obtain ⟨rfl, houtcome⟩ := Prod.mk.inj hmem
    obtain rfl := ActionOutcome.resolved.inj houtcome
    have hid := hw.keyed _ _ hcounts.pending
    obtain ⟨publicKey, hkey, hverify⟩ := hcounts.signed
    obtain ⟨payload, hevent, hresult⟩ := hcounts.arrived
    refine ⟨?_, hid.symm, hcounts.agent.symm, ⟨live, payload, hcounts.registered, hevent, hresult⟩,
      ⟨publicKey, hkey, ?_⟩, ?_⟩
    · rw [hid]
      exact hcounts.pending
    · unfold verifyEnvelope at hverify
      split at hverify
      · rw [Bool.and_eq_true] at hverify
        exact hsign _ _ _ hverify.2
      · exact absurd hverify (by simp)
    · intro earlier nonce expiresAt later hused hfew htime hsame
      have hretained := (hw.windows _ live hcounts.registered).get? hused hfew
        (lt_of_le_of_lt he.1 htime)
      -- it would still be in the window
      have hseen : (pruneNonceWindow live.seenNonces e.moment.now).get? nonce = some expiresAt :=
        ExpiringMap.get?_prune_eq_some.mpr ⟨hretained, htime⟩
      have hfresh := hcounts.fresh
      rw [hsame, hseen] at hfresh
      exact absurd hfresh (by simp)

/-! ### Every run -/

variable (d)

/-- **Action results are authentic, and actions are settled once.** In every run of a process whose
clock does not go back, with signatures that only the holder of a key can make: every result that
settles an action is authentic for it, and no action is ever settled twice. -/
theorem results_authentic (store : RemoteStore) (clock : ℤ) (es : List Step)
    (Signed : String → String → Prop)
    (hsign : ∀ publicKey text signature, d.platform.verify publicKey text signature = true →
      Signed publicKey text)
    (htime : Run.AllSteps (step d) OnTime (start store clock) es) :
    Run.AllSteps (step d) (fun w e => ∀ action result,
        (action, .resolved result) ∈ settledBy d w.plane e → Authentic d Signed w e action result)
        (start store clock) es ∧
      Run.Along (step d) SettledOnce (start store clock) es := by
  have hconsistent : Run.Along (step d) Consistent (start store clock) es :=
    Run.along_of_preserved (fun _ _ hw he => consistent_step hw he) (consistent_start store clock)
      htime
  refine ⟨?_, hconsistent.mono fun _ hw => hw.once⟩
  exact Run.AllSteps.of_along (fun _ _ hw he _ _ hmem => authentic_step hsign hw he hmem)
    hconsistent
    htime

/-! ### Two agents on one connection -/

/-- Another agent of the owner of `sampleAgent`, with the same key. -/
def secondAgent : RemoteAgentRecord := { sampleAgent with id := "agt_2", aliasName := "db" }

/-- A store with both agents. -/
def twoAgentStore : RemoteStore :=
  sampleStore.setAgent secondAgent ⟨⟨"operations", rfl⟩, rfl, rfl, rfl⟩

/-- A hello of one of the agents. -/
def helloOfAgent (agentId nonce : String) : AgentHelloEnvelope :=
  let hello : AgentHelloEnvelope := { unsignedHello with agent_id := agentId, nonce := nonce }
  { hello with signature := signEnvelope samplePlatform hello.toFields "agent" }

/-- The result of an action, from one of the agents. -/
def resultOfAgent (agentId actionId nonce : String) : ActionResultEnvelope :=
  let result : ActionResultEnvelope :=
    { action_id := actionId
      agent_id := agentId
      nonce := nonce
      status := .ok
      exit_code := none
      stdout := none
      stderr := none
      started_at := "1970-01-01T00:00:00.000Z"
      finished_at := "1970-01-01T00:00:00.000Z"
      truncated := false
      error_code := none
      message := none
      signature := "" }
  { result with signature := signEnvelope samplePlatform result.toFields "agent" }

/-- An agent is asked for the system status. -/
def askAgent (agentId : String) (n : ℕ) : Step :=
  ⟨.callTool sampleOwner .get_system_status
    [("agent_id_or_alias", .str agentId), ("timeout_seconds", .num (.fin (1 / 2)))], sampleMoment n⟩

/-- A message as it arrives. -/
def arrives (c : ConnectionId) (envelope : Fields) (n : ℕ) : Step :=
  ⟨.message c (some (Value.obj envelope).transport), sampleMoment n⟩

/-- Both agents say hello on connection 0 and are asked for the system status; both answer there,
with one and the same nonce. -/
def sharedConnection : List Step :=
  [⟨.connect 0, sampleMoment 0⟩,
    arrives 0 (helloOfAgent "agt_1" "0123456789abcdef").toFields 1,
    arrives 0 (helloOfAgent "agt_2" "123456789abcdef0").toFields 2,
    askAgent "agt_1" 3, askAgent "agt_2" 4,
    arrives 0 (resultOfAgent "agt_1" "act_3" "23456789abcdef01").toFields 5,
    arrives 0 (resultOfAgent "agt_2" "act_4" "23456789abcdef01").toFields 6]

/-- Authenticity and settlement in that run. -/
theorem results_authentic_sharedConnection :
    Run.AllSteps (step sampleDeployment) (fun w e => ∀ action result,
        (action, .resolved result) ∈ settledBy sampleDeployment w.plane e →
          Authentic sampleDeployment
            (fun publicKey text => ∃ signature,
              samplePlatform.verify publicKey text signature = true) w e action result)
        (start twoAgentStore 0) sharedConnection ∧
      Run.Along (step sampleDeployment) SettledOnce (start twoAgentStore 0) sharedConnection := by
  refine results_authentic sampleDeployment twoAgentStore 0 sharedConnection _
    (fun _ _ signature h => ⟨signature, h⟩) ?_
  refine ⟨?_, ?_, ?_, ?_, ?_, ?_, ?_, trivial⟩ <;> exact ⟨by decide, le_refl _⟩

/-- **A nonce accepted twice on one connection**, for results of two agents. -/
theorem nonce_accepted_twice :
    (Run.run (step sampleDeployment) (start twoAgentStore 0) sharedConnection).outcomes.map
        (fun x => (x.1.id, (ActionOutcome.result? x.2).map (·.nonce))) =
      [("act_3", some "23456789abcdef01"), ("act_4", some "23456789abcdef01")] := by
  decide +kernel

end Monitored

end RemoteControlPlane
end Remote
