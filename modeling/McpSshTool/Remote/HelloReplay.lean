import McpSshTool.Library.ReplayGuard
import McpSshTool.Library.Run
import McpSshTool.Remote.ControlPlane.Frame

/-!
# Replayed hellos

Whether one signed hello is accepted twice. A hello is fresh for five minutes around its timestamp,
and its nonce is remembered for five minutes from the reading of the clock it was recorded at. The
second window does not cover the first: a hello whose timestamp is not before that reading outlives
its nonce, by a millisecond at the edge and by as much as its clock was ahead.

* `nonceExpiry` — the nonces that are remembered;
* `MemoryEffect` and `step_memory` — what one step does to them;
* `Watched` — a process together with the clock and the hellos it has accepted;
* `hello_accepted_once_iff` — along a run no hello is accepted twice exactly when none is presented
  again after its nonce was forgotten, with everything else about it in order.
-/

open Library

namespace Remote

namespace RemoteControlPlane

variable (d : Deployment)

/-! ### The memory of hellos -/

/-- The time until which a nonce of an agent is remembered. -/
def nonceExpiry (s : RemoteControlPlane) (k : String × String) : Option ℤ :=
  ((s.agentHelloNonces.get? k.1).getD .empty).get? k.2

theorem nonceExpiry_of_nonces {s s' : RemoteControlPlane}
    (h : s'.agentHelloNonces = s.agentHelloNonces) : s'.nonceExpiry = s.nonceExpiry := by
  unfold nonceExpiry
  rw [h]

/-- A cleanup forgets what has expired, and an agent of which nothing is left. -/
theorem nonceExpiry_cleanupEphemeralState (s : RemoteControlPlane) (now : ℤ) :
    (s.cleanupEphemeralState now).nonceExpiry = ReplayGuard.forget s.nonceExpiry now := by
  funext k
  show ((((s.agentHelloNonces.mapValues (pruneNonceWindow · now)).filter
    fun _ nonces => nonces.size ≠ 0).get? k.1).getD .empty).get? k.2 = _
  rw [OrderedMap.get?_filter, OrderedMap.get?_mapValues, ReplayGuard.forget, nonceExpiry]
  cases s.agentHelloNonces.get? k.1 with
  | none => rfl
  | some nonces =>
    have hprune : (pruneNonceWindow nonces now).get? k.2 =
        (nonces.get? k.2).filter fun t => decide (now < t) := by
      rw [pruneNonceWindow, ExpiringMap.get?_prune]
      refine congrArg (fun p => (nonces.get? k.2).filter p) (funext fun t => ?_)
      by_cases h : t ≤ now
      · simp [h]
      · simp [h, not_le.mp h]
    rw [Option.map_some, Option.getD_some, ← hprune]
    by_cases hsize : (pruneNonceWindow nonces now).size = 0
    · have hnil : (pruneNonceWindow nonces now).entries = [] := List.length_eq_zero_iff.mp hsize
      have hget : (pruneNonceWindow nonces now).get? k.2 = none := by
        rw [OrderedMap.get?, hnil, OrderedMap.find?_nil]
      simp [Option.filter, hsize, hget]
    · simp [Option.filter, hsize]

/-! ### Which hellos are accepted -/

/-- The hello that a step delivers, and the connection it arrives on. -/
def helloOf (e : Step) : Option (ConnectionId × AgentHelloEnvelope) :=
  match e.event with
  | .message c (some payload) => (agentHelloEnvelopeSchema d.platform payload).map fun h => (c, h)
  | _ => none

/-- The hello that a step accepts. -/
def acceptedHello (s : RemoteControlPlane) (e : Step) : Option AgentHelloEnvelope :=
  match helloOf d e with
  | none => none
  | some (c, hello) =>
    match s.store.isOpen, s.helloVerdict d e.moment c hello with
    | true, .accepted _ => some hello
    | _, _ => none

theorem acceptedHello_eq_none_of_verdict {s : RemoteControlPlane} {e : Step} {c : ConnectionId}
    {hello : AgentHelloEnvelope} (hhello : helloOf d e = some (c, hello))
    (hverdict : ∀ agent, s.helloVerdict d e.moment c hello ≠ .accepted agent) :
    acceptedHello d s e = none := by
  unfold acceptedHello
  rw [hhello]
  dsimp only
  split
  · next agent _ h => exact absurd h (hverdict agent)
  · rfl

/-- A text frame that is no hello is no accepted hello, nor is any on a closed database. -/
theorem acceptedHello_message_eq_none {s : RemoteControlPlane} {m : Moment} {c : ConnectionId}
    {payload : Option Value}
    (h : s.store.isOpen = true → payload.bind (agentHelloEnvelopeSchema d.platform) = none) :
    acceptedHello d s ⟨.message c payload, m⟩ = none := by
  unfold acceptedHello
  split
  · rfl
  · next c' hello hhello =>
    split
    · next agent hopen _ =>
      cases payload with
      | none => cases hhello
      | some payload =>
        have hnone : agentHelloEnvelopeSchema d.platform payload = none := h hopen
        simp [helloOf, hnone] at hhello
    · rfl

/-- **Everything about a hello is in order**, its nonce apart: the agent is enrolled and not
revoked, it has signed the hello, the timestamp is fresh, and the connection is not the one the
agent is registered on. -/
def Admissible (m : Moment) (s : RemoteControlPlane) (c : ConnectionId)
    (hello : AgentHelloEnvelope) : Prop :=
  ∃ agent publicKey, s.store.getAgent hello.agent_id = some agent ∧
    agent.publicKey = some publicKey ∧ agent.status ≠ .revoked ∧
    verifyEnvelope d.platform hello.toFields publicKey = true ∧
    |m.now - d.platform.getTime hello.timestamp| ≤ 300000 ∧
    ∀ live, s.agentConnections.get? hello.agent_id = some live → live.connection ≠ c

/-- **Which hellos are accepted**: those in order whose nonce is not remembered. -/
theorem helloVerdict_accepted_iff (m : Moment) (s : RemoteControlPlane) (c : ConnectionId)
    (hello : AgentHelloEnvelope) :
    (∃ agent, s.helloVerdict d m c hello = .accepted agent) ↔
      Admissible d m s c hello ∧
        ReplayGuard.forget s.nonceExpiry m.later (hello.agent_id, hello.nonce) = none := by
  -- the cleanup before the last two checks keeps the connections
  have hconnected : ∀ a, ((s.cleanupEphemeralState m.later).agentConnections.get? a).any
      (fun live => live.connection = c) =
        (s.agentConnections.get? a).any fun live => live.connection = c := by
    intro a
    show ((s.agentConnections.mapValues _).get? a).any _ = _
    rw [OrderedMap.get?_mapValues]
    cases s.agentConnections.get? a <;> rfl
  have hfree : (∀ live, s.agentConnections.get? hello.agent_id = some live → live.connection ≠ c) ↔
      (s.agentConnections.get? hello.agent_id).any (fun live => live.connection = c) = false := by
    cases s.agentConnections.get? hello.agent_id <;> simp
  rw [← nonceExpiry_cleanupEphemeralState, nonceExpiry]
  unfold helloVerdict Admissible
  rw [hfree]
  cases hagent : s.store.getAgent hello.agent_id with
  | none => simp
  | some agent =>
    have hid := (RemoteStore.getAgent_rows hagent).1
    cases hkey : agent.publicKey with
    | none => simp [hkey]
    | some publicKey =>
      simp only [hid, hconnected, hkey, Option.some.injEq, exists_and_left, exists_eq_left']
      by_cases hstatus : agent.status = .revoked
      · simp [hstatus]
      · by_cases hverify : verifyEnvelope d.platform hello.toFields publicKey = true
        · by_cases hage : 300000 < |m.now - d.platform.getTime hello.timestamp|
          · simp [hstatus, hverify, hage]
          · -- the verdict is up to the connection and the nonce
            cases hlive : (s.agentConnections.get? hello.agent_id).any
              fun live => live.connection = c with
            | true => simp [hstatus, hverify, hage]
            | false =>
              cases hnonce : OrderedMap.get?
                (((s.cleanupEphemeralState m.later).agentHelloNonces.get?
                  hello.agent_id).getD .empty) hello.nonce with
              | none =>
                simp [hstatus, hverify, hage, OrderedMap.contains, hnonce, not_lt.mp hage]
              | some t => simp [hstatus, hverify, hage, OrderedMap.contains, hnonce]
        · simp [hstatus, hverify]

/-! ### One step -/

/-- **What a step does to the memory of hellos.** -/
inductive MemoryEffect (s : RemoteControlPlane) (e : Step) (s' : RemoteControlPlane) : Prop where
  | kept (h : Frame s s') (hnone : acceptedHello d s e = none)
  | cleaned (now : ℤ) (hnow : now = e.moment.now ∨ now = e.moment.later)
      (h : Frame (s.cleanupEphemeralState now) s') (hnone : acceptedHello d s e = none)
  | accepted (hello : AgentHelloEnvelope) (haccepted : acceptedHello d s e = some hello)
      (hexpiry : ∀ k, s'.nonceExpiry k =
        if k = (hello.agent_id, hello.nonce) then some (e.moment.later + agentNonceTtlMs)
        else ReplayGuard.forget s.nonceExpiry e.moment.later k)
  | closed (h : s'.store.isOpen = false) (hnone : acceptedHello d s e = none)

/-- The nonce of an accepted hello is recorded, and nothing that happens after that in the same step
touches the memory. -/
theorem nonceExpiry_acceptHello (s : RemoteControlPlane) (m : Moment) (c : ConnectionId)
    (hello : AgentHelloEnvelope) (agent : RemoteAgentRecord) (k : String × String) :
    (s.acceptHello d m c hello agent).nonceExpiry k =
      if k = (agent.id, hello.nonce) then some (m.later + agentNonceTtlMs)
      else ReplayGuard.forget s.nonceExpiry m.later k := by
  have hregister : (s.registerHello d m c hello agent).agentHelloNonces =
      (s.cleanupEphemeralState m.later).agentHelloNonces.set agent.id
        ((((s.cleanupEphemeralState m.later).agentHelloNonces.get? agent.id).getD .empty).set
          hello.nonce (m.later + agentNonceTtlMs)) := by
    unfold registerHello
    simp only
    split
    · exact (frame_close d m _ _).nonces
    · rfl
  have hnonces : (s.acceptHello d m c hello agent).agentHelloNonces =
      (s.registerHello d m c hello agent).agentHelloNonces := by
    unfold acceptHello
    simp only
    rw [(frame_sendJson _ c _).nonces]
    exact (frame_writeAgent d _ _).nonces
  rw [nonceExpiry, hnonces, hregister, OrderedMap.get?_set, ← nonceExpiry_cleanupEphemeralState]
  obtain ⟨a, n⟩ := k
  by_cases ha : a = agent.id
  · subst ha
    rw [if_pos rfl, Option.getD_some, OrderedMap.get?_set]
    by_cases hn : n = hello.nonce
    · rw [if_pos hn, if_pos (by rw [hn])]
    · rw [if_neg hn, if_neg (fun h => hn (Prod.mk.inj h).2)]
      rfl
  · rw [if_neg ha, if_neg (fun h => ha (Prod.mk.inj h).1)]
    rfl

theorem handleAgentHello_memory (s : RemoteControlPlane) (e : Step) (c : ConnectionId)
    (hello : AgentHelloEnvelope) (hhello : helloOf d e = some (c, hello)) :
    MemoryEffect d s e (s.handleAgentHello d e.moment c hello).2 := by
  cases handleAgentHello_inversion d e.moment s c hello with
  | kept hclosed h =>
    rw [h]
    exact .kept (.refl s) (by simp [acceptedHello, hhello, hclosed])
  | refused s₁ s₂ code message hverdict hs₁ hs₂ h =>
    rw [h]
    have hnone := acceptedHello_eq_none_of_verdict d hhello hverdict
    -- a refusal writes an audit row at most before it closes the connection
    have hframe : Frame s₁ (s₂.reject d e.moment c code message) := by
      refine Frame.trans ?_ (frame_reject d e.moment s₂ c code message)
      rcases hs₂ with rfl | ⟨agent, eventType, metadata, rfl⟩
      · exact .refl _
      · exact frame_audit d _ s₁ _ _ _ _ _ _
    rcases hs₁ with rfl | rfl
    · exact .kept hframe hnone
    · exact .cleaned e.moment.later (.inr rfl) hframe hnone
  | accepted agent hopen hverdict h =>
    rw [h]
    obtain ⟨-, hid, -⟩ := helloVerdict_accepted d e.moment s hverdict
    have hafter := nonceExpiry_acceptHello d s e.moment c hello agent
    rw [hid] at hafter
    exact .accepted hello (by simp [acceptedHello, hhello, hopen, hverdict]) hafter

theorem receive_memory (s : RemoteControlPlane) (m : Moment) (c : ConnectionId)
    (payload : Option Value) :
    MemoryEffect d s ⟨.message c payload, m⟩ (s.receive d m c payload) := by
  cases receive_inversion d m s c payload with
  | failed hhello h =>
    rw [h]
    exact .kept ⟨rfl, rfl, List.prefix_rfl⟩ (acceptedHello_message_eq_none d hhello)
  | rejected code message hhello h =>
    rw [h]
    exact .kept (frame_reject d m s c code message)
      (acceptedHello_message_eq_none d fun _ => hhello)
  | hello hello hhello _ h =>
    rw [h]
    refine handleAgentHello_memory d s ⟨.message c payload, m⟩ c hello ?_
    obtain ⟨payload, rfl, hschema⟩ := Option.bind_eq_some_iff.mp hhello
    simp [helloOf, hschema]
  | result result hhello _ h =>
    rw [h]
    exact .kept (frame_handleActionResult d m s c result)
      (acceptedHello_message_eq_none d fun _ => hhello)

/-- **What a step can do to the memory of hellos.** Everything but a hello, a cleanup and a shutdown
leaves it alone. -/
theorem step_memory (s : RemoteControlPlane) (e : Step) : MemoryEffect d s e (s.step d e) := by
  obtain ⟨event, m⟩ := e
  by_cases hmessage : ∃ c payload, event = .message c payload
  · obtain ⟨c, payload, rfl⟩ := hmessage
    exact receive_memory d s m c payload
  · have hnone : acceptedHello d s ⟨event, m⟩ = none := by
      cases event with
      | message c payload => exact absurd ⟨c, payload, rfl⟩ hmessage
      | _ => rfl
    rcases step_frame d s ⟨event, m⟩ with h | h | h | h
    · exact .kept h hnone
    · exact absurd h hmessage
    · obtain rfl : event = .cleanup := h
      exact .cleaned m.now (.inl rfl) (.refl _) hnone
    · obtain rfl : event = .shutdown := h
      exact .closed rfl hnone

/-! ### A process under watch -/

/-- A process, the last reading of its clock, and the hellos it has accepted so far, each with the
time until which its nonce was to be remembered. -/
structure Watched where
  plane : RemoteControlPlane
  clock : ℤ
  accepted : List (AgentHelloEnvelope × ℤ)

/-- A process that has just started. -/
def Watched.start (store : RemoteStore) (clock : ℤ) : Watched where
  plane := RemoteControlPlane.start store
  clock := clock
  accepted := []

/-- One step of a process under watch. -/
def Watched.step (w : Watched) (e : Step) : Watched where
  plane := w.plane.step d e
  clock := e.moment.later
  accepted := w.accepted ++
    ((acceptedHello d w.plane e).map fun h => (h, e.moment.later + agentNonceTtlMs)).toList

/-- The clock does not go back. -/
def OnTime (w : Watched) (e : Step) : Prop := w.clock ≤ e.moment.now ∧ e.moment.now ≤ e.moment.later

/-- What makes two envelopes one and the same hello. -/
def helloIdentity (hello : AgentHelloEnvelope) : String × String × String :=
  (hello.agent_id, hello.nonce, hello.timestamp)

/-- No hello was accepted twice. -/
def Watched.AcceptedOnce (w : Watched) : Prop := (w.accepted.map fun h => helloIdentity h.1).Nodup

/-- The nonces of the accepted hellos, with the times they were to be remembered until. -/
def Watched.nonceLog (w : Watched) : List ((String × String) × ℤ) :=
  w.accepted.map fun h => ((h.1.agent_id, h.1.nonce), h.2)

/-- **A replay between the windows**: a hello that was accepted before is presented again in good
order, and the nonce it carries was not recorded in the last five minutes. -/
def ForgottenReplay (w : Watched) (e : Step) : Prop :=
  ∃ c hello, helloOf d e = some (c, hello) ∧ w.plane.store.isOpen = true ∧
    Admissible d e.moment w.plane c hello ∧
    helloIdentity hello ∈ w.accepted.map (fun h => helloIdentity h.1) ∧
    ∀ h ∈ w.accepted, (h.1.agent_id, h.1.nonce) = (hello.agent_id, hello.nonce) →
      h.2 ≤ e.moment.later

/-- While the store is open the remembered nonces are those of the accepted hellos. -/
def Watched.Guarded (w : Watched) : Prop :=
  w.plane.store.isOpen = true →
    ReplayGuard.Faithful w.plane.nonceExpiry w.nonceLog w.clock

theorem guarded_start (store : RemoteStore) (clock : ℤ) : (Watched.start store clock).Guarded :=
  fun _ => ReplayGuard.Faithful.nil clock

theorem acceptedHello_eq_some {s : RemoteControlPlane} {e : Step} {hello : AgentHelloEnvelope} :
    acceptedHello d s e = some hello ↔
      ∃ c, helloOf d e = some (c, hello) ∧ s.store.isOpen = true ∧ Admissible d e.moment s c hello ∧
        ReplayGuard.forget s.nonceExpiry e.moment.later (hello.agent_id, hello.nonce) = none := by
  unfold acceptedHello
  cases hhello : helloOf d e with
  | none => simp
  | some p =>
    obtain ⟨c, hello'⟩ := p
    have hiff := helloVerdict_accepted_iff d e.moment s c hello'
    cases hopen : s.store.isOpen with
    | false => simp
    | true =>
      simp only [Option.some.injEq, Prod.mk.injEq, true_and]
      cases hverdict : s.helloVerdict d e.moment c hello' with
      | accepted agent =>
        have hok := hiff.mp ⟨agent, hverdict⟩
        constructor
        · intro h
          obtain rfl := Option.some.inj h
          exact ⟨c, ⟨rfl, rfl⟩, hok⟩
        · rintro ⟨c', ⟨-, rfl⟩, -⟩
          rfl
      | _ =>
        refine ⟨fun h => absurd h (by simp), ?_⟩
        rintro ⟨c', ⟨rfl, rfl⟩, hok⟩
        obtain ⟨agent, hagent⟩ := hiff.mpr hok
        exact absurd (hverdict.symm.trans hagent) (by simp)

/-- **One step keeps the guard faithful.** -/
theorem guarded_step {w : Watched} (hw : w.Guarded) {e : Step} (he : OnTime w e) :
    (w.step d e).Guarded := by
  intro hopen
  have hnow : w.clock ≤ e.moment.later := he.1.trans he.2
  have hlog : ∀ {l}, acceptedHello d w.plane e = l → (w.step d e).nonceLog = w.nonceLog ++
      (l.map fun h => ((h.agent_id, h.nonce), e.moment.later + agentNonceTtlMs)).toList := by
    rintro l rfl
    unfold Watched.nonceLog Watched.step
    rw [List.map_append]
    cases acceptedHello d w.plane e <;> rfl
  show ReplayGuard.Faithful (w.plane.step d e).nonceExpiry _ e.moment.later
  cases step_memory d w.plane e with
  | kept h hnone =>
    rw [nonceExpiry_of_nonces h.nonces, hlog hnone]
    simpa using (hw (h.isOpen.symm.trans hopen)).later hnow
  | cleaned now hor h hnone =>
    rw [nonceExpiry_of_nonces h.nonces, nonceExpiry_cleanupEphemeralState, hlog hnone]
    have hforget : w.clock ≤ now ∧ now ≤ e.moment.later := by
      rcases hor with rfl | rfl
      · exact he
      · exact ⟨hnow, le_refl _⟩
    have hbefore := hw (h.isOpen.symm.trans hopen)
    simpa using (hbefore.forget hforget.1).later hforget.2
  | accepted hello haccepted hexpiry =>
    rw [hlog haccepted]
    obtain ⟨c, -, hstore, -, hforgotten⟩ := (acceptedHello_eq_some d).mp haccepted
    have hrecord := ((hw hstore).forget hnow).record hforgotten (e.moment.later + agentNonceTtlMs)
    rw [← funext hexpiry] at hrecord
    exact hrecord
  | closed h => exact absurd (hopen.symm.trans h) (by simp)

/-- **When one step accepts a hello twice.** -/
theorem acceptedOnce_step_iff {w : Watched} (hw : w.Guarded) (honce : w.AcceptedOnce) {e : Step}
    (he : OnTime w e) : (w.step d e).AcceptedOnce ↔ ¬ ForgottenReplay d w e := by
  have hnow : w.clock ≤ e.moment.later := he.1.trans he.2
  unfold Watched.AcceptedOnce Watched.step
  rw [List.map_append]
  cases haccepted : acceptedHello d w.plane e with
  | none =>
    simp only [Option.map_none, Option.toList_none, List.map_nil, List.append_nil]
    refine ⟨?_, fun _ => honce⟩
    rintro - ⟨c, hello, hhello, hopen, hadmissible, -, hexpired⟩
    -- it would have been accepted, for its nonce is forgotten
    have hforgotten : ReplayGuard.forget w.plane.nonceExpiry e.moment.later
        (hello.agent_id, hello.nonce) = none := by
      by_contra hsome
      have hsome' := Option.isSome_iff_ne_none.mpr hsome
      obtain ⟨t, hmem, ht⟩ := ((hw hopen).remembers_iff hnow).mp hsome'
      obtain ⟨h, hh, heq⟩ := List.mem_map.mp hmem
      obtain ⟨hk, rfl⟩ := Prod.mk.inj heq
      exact absurd (hexpired h hh hk) (not_le.mpr ht)
    have := (acceptedHello_eq_some d).mpr ⟨c, hhello, hopen, hadmissible, hforgotten⟩
    exact absurd (haccepted.symm.trans this) (by simp)
  | some hello =>
    simp only [Option.map_some, Option.toList_some, List.map_cons, List.map_nil]
    obtain ⟨c, hhello, hopen, hadmissible, hforgotten⟩ := (acceptedHello_eq_some d).mp haccepted
    have hexpired : ∀ h ∈ w.accepted, (h.1.agent_id, h.1.nonce) = (hello.agent_id, hello.nonce) →
        h.2 ≤ e.moment.later := by
      intro h hh hk
      by_contra hlt
      have hlog : ((hello.agent_id, hello.nonce), h.2) ∈ w.nonceLog :=
        List.mem_map.mpr ⟨h, hh, by rw [hk]⟩
      have := ((hw hopen).remembers_iff hnow).mpr ⟨h.2, hlog, not_le.mp hlt⟩
      rw [hforgotten] at this
      exact absurd this (by simp)
    rw [List.nodup_append]
    constructor
    · rintro ⟨-, -, hdisjoint⟩ ⟨c', hello', hhello', -, -, hmem, -⟩
      obtain ⟨-, rfl⟩ := Prod.mk.inj (Option.some.inj (hhello.symm.trans hhello'))
      exact hdisjoint _ hmem _ (List.mem_singleton_self _) rfl
    · intro hno
      refine ⟨honce, List.nodup_singleton _, ?_⟩
      rintro a ha b hb rfl
      rw [List.mem_singleton.mp hb] at ha
      exact hno ⟨c, hello, hhello, hopen, hadmissible, ha, hexpired⟩

/-! ### Every run -/

/-- **When hello replay protection holds.** Along a run of a process with a clock that does not go
back, no hello is accepted twice exactly when no step is a replay between the windows. -/
theorem hello_accepted_once_iff (store : RemoteStore) (clock : ℤ) (es : List Step)
    (htime : Run.AllSteps (Watched.step d) OnTime (Watched.start store clock) es) :
    Run.Along (Watched.step d) Watched.AcceptedOnce (Watched.start store clock) es ↔
      Run.AllSteps (Watched.step d) (fun w e => ¬ ForgottenReplay d w e)
        (Watched.start store clock) es :=
  Run.along_iff_allSteps_within (fun _ _ hw he => guarded_step d hw he)
    (fun _ _ hw honce he => acceptedOnce_step_iff d hw honce he) (guarded_start store clock)
    List.nodup_nil htime

/-- A hello of `sampleAgent`, without a signature. -/
def unsignedHello : AgentHelloEnvelope where
  agent_id := "agt_1"
  timestamp := "1970-01-01T00:00:00.000Z"
  nonce := "0123456789abcdef"
  capabilities := []
  agent_version := "1"
  host := { hostname := "h", os := "linux", arch := "x64", platform := "linux" }
  signature := ""

/-- A hello of `sampleAgent`. -/
def sampleHello : AgentHelloEnvelope :=
  { unsignedHello with signature := signEnvelope samplePlatform unsignedHello.toFields "agent" }

/-- The agent connects and says hello; five minutes later the same hello comes on another
connection. -/
def replayedAtEdge : List Step :=
  [⟨.connect 0, sampleMoment 0⟩, ⟨.message 0 (some (.obj sampleHello.toFields)), sampleMoment 0⟩,
    ⟨.connect 1, sampleMoment 300000⟩,
    ⟨.message 1 (some (.obj sampleHello.toFields)), sampleMoment 300000⟩]

/-- **A hello accepted twice**, its second time at the edge of the freshness window. -/
theorem hello_accepted_twice :
    Run.AllSteps (Watched.step sampleDeployment) OnTime (Watched.start sampleStore 0)
      replayedAtEdge ∧
      ¬ (Run.run (Watched.step sampleDeployment) (Watched.start sampleStore 0)
        replayedAtEdge).AcceptedOnce := by
  constructor
  · refine ⟨?_, ?_, ?_, ?_, trivial⟩ <;> unfold OnTime <;> decide
  · unfold Watched.AcceptedOnce
    decide +kernel

/-- The criterion at that run. -/
theorem hello_accepted_once_iff_at_edge :
    Run.Along (Watched.step sampleDeployment) Watched.AcceptedOnce (Watched.start sampleStore 0)
        replayedAtEdge ↔
      Run.AllSteps (Watched.step sampleDeployment)
        (fun w e => ¬ ForgottenReplay sampleDeployment w e) (Watched.start sampleStore 0)
        replayedAtEdge := by
  refine hello_accepted_once_iff sampleDeployment sampleStore 0 replayedAtEdge ?_
  refine ⟨?_, ?_, ?_, ?_, trivial⟩ <;> unfold OnTime <;> decide

end RemoteControlPlane
end Remote
