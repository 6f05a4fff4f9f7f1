import McpSshTool.Ssh.SessionPool

/-!
# The limit on sessions

Whether the manager ever holds more than `maxSessions` sessions, over every interleaving of its
calls. `openSession` looks at the size of the table, evicts, and only after its connection has come
stores the session; in between, others do the same, and the session that it evicts may still be
there.

* `staying` — the sessions that no open in flight has evicted;
* `KeepsRoom` — the steps that leave no more opens in flight than there is room for;
* `held_le_of_keepsRoom` — then the limit holds in every state;
* `limit_exceeded` — two opens that find the same room.

The invariant counts the opens in flight with the sessions that stay. A session that is evicted is
counted no more, and the open that has evicted it is counted in its place.
-/

open Library

namespace Ssh
namespace SessionPool

variable (s : SessionPool)

/-- The sessions that the opens in flight have evicted. -/
def victims : List String := s.opening.values.filterMap Opening.victim

/-- The sessions in the table that no open in flight has evicted. -/
def staying : List String := s.manager.sessions.keys.filter fun k => decide (k ∉ s.victims)

/-- **A step keeps room**: a call of `openSession` that gets as far finds a place beside the opens
in flight, when the sessions that they have evicted are gone, and the one that it evicts itself; and
its connection comes when its own victim is out of the table. -/
def KeepsRoom {rt : Runtime} (engine : PolicyEngine rt) (s : SessionPool) : SessionEvent → Prop
  | .openSession params _ later =>
    s.manager.Proceeds engine params →
      (s.staying.filter fun k => decide (s.victim? later ≠ some k)).length + s.opening.size <
        s.manager.maxSessions
  | .connected n (.ok _) =>
    ∀ o, s.opening.get? n = some o → ∀ victim, o.victim = some victim → ¬ s.Holds victim
  | _ => True

/-- The opens in flight have a place beside the sessions that stay. -/
def RoomKept : Prop := s.staying.length + s.opening.size ≤ s.manager.maxSessions

/-! ### Counting -/

variable {s} {s' : SessionPool} {rt : Runtime} {engine : PolicyEngine rt} {ids : Identifiers}
  {params : ConnectionParams} {closer : Closer} {k : String} {now later time n : ℕ} {o : Opening}

theorem mem_victims : k ∈ s.victims ↔ ∃ n o, s.opening.get? n = some o ∧ o.victim = some k := by
  rw [victims, List.mem_filterMap]
  constructor
  · rintro ⟨o, ho, hk⟩
    obtain ⟨n, hn⟩ := Slots.mem_values.mp ho
    exact ⟨n, o, hn, hk⟩
  · rintro ⟨n, o, hn, hk⟩
    exact ⟨o, Slots.mem_values.mpr ⟨n, hn⟩, hk⟩

theorem mem_staying : k ∈ s.staying ↔ s.Holds k ∧ k ∉ s.victims := by
  rw [staying, List.mem_filter, decide_eq_true_eq, holds_iff]

theorem nodup_staying : s.staying.Nodup := s.manager.sessions.nodup.filter _

theorem length_staying_le {l : List String} (h : ∀ k ∈ s.staying, k ∈ l) :
    s.staying.length ≤ l.length :=
  (nodup_staying.subperm h).length_le

/-- **The opens in flight have at most one victim each**, so that the room that is kept is
enough. -/
theorem RoomKept.held_le (h : s.RoomKept) : s.held ≤ s.manager.maxSessions := by
  have hsplit : ∀ k ∈ s.manager.sessions.keys, k ∈ s.staying ++ s.victims := by
    intro k hk
    rw [List.mem_append, mem_staying]
    by_cases hv : k ∈ s.victims
    · exact .inr hv
    · exact .inl ⟨holds_iff.mpr hk, hv⟩
  have hvictims : s.victims.length ≤ s.opening.size := List.length_filterMap_le _ _
  calc s.held = s.manager.sessions.keys.length := (OrderedMap.length_keys _).symm
    _ ≤ (s.staying ++ s.victims).length :=
        (List.Nodup.subperm s.manager.sessions.nodup hsplit).length_le
    _ = s.staying.length + s.victims.length := List.length_append
    _ ≤ s.staying.length + s.opening.size := Nat.add_le_add_left hvictims _
    _ ≤ s.manager.maxSessions := h

/-! ### One step -/

theorem RoomKept.of_same (h : s.RoomKept) (hkeys : ∀ k, s'.Holds k → s.Holds k)
    (hopening : s'.opening = s.opening) (hmax : s'.manager.maxSessions = s.manager.maxSessions) :
    s'.RoomKept := by
  have hvictims : s'.victims = s.victims := by rw [victims, hopening, victims]
  have hle : s'.staying.length ≤ s.staying.length := by
    refine length_staying_le fun k hk => ?_
    rw [mem_staying, hvictims] at hk
    exact mem_staying.mpr ⟨hkeys k hk.1, hk.2⟩
  rw [RoomKept, hopening, hmax]
  exact Nat.le_trans (Nat.add_le_add_right hle _) h

theorem RoomKept.closeSession (h : s.RoomKept) : (s.closeSession closer k).RoomKept := by
  refine h.of_same (fun k' hk' => ?_) (opening_closeSession s closer k)
    (by rw [manager_closeSession])
  rw [Holds, manager_closeSession] at hk'
  exact hk'

theorem RoomKept.getSession (h : s.RoomKept) : (s.getSession time k).2.RoomKept := by
  rcases getSession_cases s time k with heq | heq | ⟨old, used, hold, heq⟩
  · rw [heq]
    exact h
  · rw [heq]
    exact h.closeSession
  · rw [heq]
    refine h.of_same (fun k' hk' => ?_) rfl rfl
    rw [holds_iff] at hk' ⊢
    exact OrderedMap.keys_set_of_some hold used ▸ hk'

theorem RoomKept.sessionClosed (h : s.RoomKept) : (s.sessionClosed n).RoomKept := by
  unfold SessionPool.sessionClosed
  split
  · exact h
  · refine h.of_same (fun k' hk' => ?_) rfl rfl
    rw [holds_iff] at hk' ⊢
    exact (OrderedMap.mem_keys_delete.mp hk').2

/-- An open that starts takes a place that there is. -/
theorem RoomKept.openSession (h : s.RoomKept)
    (hroom : s.KeepsRoom engine (.openSession params now later)) :
    (s.openSession engine ids params now later).RoomKept := by
  by_cases hproceeds : s.manager.Proceeds engine params
  · have hroom := hroom hproceeds
    rw [openSession_of_proceeds hproceeds]
    generalize hs' : s.awaitConnection ids params now later = s'
    have hmanager : s'.manager = s.manager := hs' ▸ manager_makeRoom s later
    have hopening : s'.opening = s.opening.add
        ⟨ids.draw s.opening.next, params, now, s.victim? later⟩ := by rw [← hs']; rfl
    -- what stays is what stayed, but for the victim
    have hle : s'.staying.length ≤
        (s.staying.filter fun k => decide (s.victim? later ≠ some k)).length := by
      refine length_staying_le fun k hk => ?_
      obtain ⟨hheld, hspared⟩ := mem_staying.mp hk
      rw [mem_victims, hopening] at hspared
      rw [Holds, hmanager] at hheld
      refine List.mem_filter.mpr ⟨mem_staying.mpr ⟨hheld, fun hv => hspared ?_⟩, ?_⟩
      · obtain ⟨n, o, hn, hv⟩ := mem_victims.mp hv
        exact ⟨n, o, Slots.get?_add_of_some hn, hv⟩
      · rw [decide_eq_true_eq]
        exact fun hv => hspared ⟨_, _, Slots.get?_add_next, hv⟩
    rw [RoomKept, hopening, Slots.size_add, hmanager]
    omega
  · obtain ⟨result, metrics, heq, -, -⟩ := openSession_of_not_proceeds ids now later hproceeds
    rw [heq]
    exact h

/-- An open that ends gives its place to its session, or to a victim that is still there. -/
theorem RoomKept.connected {connection : Except Failure Bool} (h : s.RoomKept)
    (hroom : s.KeepsRoom engine (.connected n connection)) :
      (s.connected n connection).RoomKept := by
  unfold SessionPool.connected
  split
  · exact h
  · next o ho =>
    have hsize := Slots.size_remove ho
    -- a session that another open has evicted is still a victim
    have hvictims : ∀ k ∈ s.victims, o.victim = some k ∨
        ∃ n' o', (s.opening.remove n).get? n' = some o' ∧ o'.victim = some k := by
      intro k hk
      obtain ⟨n', o', hn', hk⟩ := mem_victims.mp hk
      by_cases hne : n' = n
      · rw [hne, ho] at hn'
        obtain rfl := Option.some.inj hn'
        exact .inl hk
      · exact .inr ⟨n', o', by rw [Slots.get?_remove, if_neg hne, hn'], hk⟩
    cases connection with
    | error e =>
      dsimp only
      generalize hs' : ({ s with
        opening := s.opening.remove n
        opened := s.opened ++ [(n, .error (SessionManager.connectionFailure e))] } :
          SessionPool) = s'
      have hle : s'.staying.length ≤ (o.victim.toList ++ s.staying).length := by
        refine length_staying_le fun k hk => ?_
        obtain ⟨hheld, hspared⟩ := mem_staying.mp hk
        rw [← hs'] at hheld
        rw [mem_victims, ← hs'] at hspared
        rw [List.mem_append, Option.mem_toList]
        by_cases hv : k ∈ s.victims
        · exact .inl ((hvictims k hv).resolve_right hspared)
        · exact .inr (mem_staying.mpr ⟨hheld, hv⟩)
      have hone : o.victim.toList.length ≤ 1 := by cases o.victim <;> simp
      rw [List.length_append] at hle
      have hopening : s'.opening = s.opening.remove n := by rw [← hs']
      have hmax : s'.manager.maxSessions = s.manager.maxSessions := by rw [← hs']
      rw [RoomKept, hopening, hmax]
      have h : s.staying.length + s.opening.size ≤ s.manager.maxSessions := h
      omega
    | ok sftp =>
      dsimp only
      generalize hs' : ({ s with
        manager := { s.manager with
          sessions := s.manager.sessions.set o.sessionId (s.manager.opened o.params o.now sftp) }
        opening := s.opening.remove n
        metrics := s.metrics.recordSessionCreated
        opened := s.opened ++ [(n, .ok (s.manager.openResult o.params o.sessionId sftp none))] } :
          SessionPool) = s'
      have hle : s'.staying.length ≤ (o.sessionId :: s.staying).length := by
        refine length_staying_le fun k hk => ?_
        obtain ⟨hheld, hspared⟩ := mem_staying.mp hk
        rw [holds_iff, ← hs'] at hheld
        rw [mem_victims, ← hs'] at hspared
        rcases OrderedMap.mem_keys_set.mp hheld with rfl | hheld
        · exact List.mem_cons_self
        · refine List.mem_cons_of_mem _ (mem_staying.mpr ⟨holds_iff.mpr hheld, fun hv => ?_⟩)
          rcases hvictims k hv with hv | hv
          · exact hroom o ho k hv (holds_iff.mpr hheld)
          · exact hspared hv
      have hopening : s'.opening = s.opening.remove n := by rw [← hs']
      have hmax : s'.manager.maxSessions = s.manager.maxSessions := by rw [← hs']
      rw [RoomKept, hopening, hmax]
      have h : s.staying.length + s.opening.size ≤ s.manager.maxSessions := h
      rw [List.length_cons] at hle
      omega

theorem RoomKept.step {e : SessionEvent} (h : s.RoomKept) (hroom : s.KeepsRoom engine e) :
    (step engine ids s e).RoomKept := by
  cases e with
  | openSession => exact h.openSession hroom
  | connected => exact h.connected hroom
  | closeSession => exact h.closeSession
  | inspected => exact h.closeSession
  | sessionClosed => exact h.sessionClosed
  | getSession => exact h.getSession
  | cleanup => exact cleanup_rec h fun _ _ h => h.closeSession

/-! ### Every run -/

theorem fresh_roomKept (manager : SessionManager) : (fresh manager).RoomKept := Nat.zero_le _

theorem maxSessions_step (s : SessionPool) (e : SessionEvent) :
    (step engine ids s e).manager.maxSessions = s.manager.maxSessions := by
  cases e with
  | openSession params now later =>
    by_cases hproceeds : s.manager.Proceeds engine params
    · change (s.openSession engine ids params now later).manager.maxSessions = _
      rw [openSession_of_proceeds hproceeds]
      exact congrArg SessionManager.maxSessions (manager_makeRoom s later)
    · obtain ⟨result, metrics, heq, -, -⟩ := openSession_of_not_proceeds ids now later hproceeds
      change (s.openSession engine ids params now later).manager.maxSessions = _
      rw [heq]
      rfl
  | connected n connection =>
    change (s.connected n connection).manager.maxSessions = _
    unfold SessionPool.connected
    split
    · rfl
    · cases connection <;> rfl
  | closeSession => exact congrArg _ (manager_closeSession s _ _)
  | inspected => exact congrArg _ (manager_closeSession s _ _)
  | sessionClosed n =>
    change (s.sessionClosed n).manager.maxSessions = _
    unfold SessionPool.sessionClosed
    split <;> rfl
  | getSession time sessionId =>
    change (s.getSession time sessionId).2.manager.maxSessions = _
    rcases getSession_cases s time sessionId with heq | heq | ⟨old, used, -, heq⟩
    · rw [heq]
    · rw [heq, manager_closeSession]
    · rw [heq]
  | cleanup =>
    refine cleanup_rec (P := fun s' => s'.manager.maxSessions = s.manager.maxSessions) rfl ?_
    intro s' k h
    rw [manager_closeSession]
    exact h

/-- **The limit on sessions**: in a run whose steps all keep room, the manager never holds more than
`maxSessions`. -/
theorem held_le_of_keepsRoom {rt : Runtime} (engine : PolicyEngine rt) (ids : Identifiers)
    (manager : SessionManager) (es : List SessionEvent)
    (h : Run.AllSteps (step engine ids) (KeepsRoom engine) (fresh manager) es) :
    Run.Along (step engine ids) (fun s => s.held ≤ manager.maxSessions) (fresh manager) es := by
  refine (Run.along_of_preserved
    (P := fun s => s.RoomKept ∧ s.manager.maxSessions = manager.maxSessions) ?_
    ⟨fresh_roomKept manager, rfl⟩ h).mono ?_
  · rintro s e ⟨hkept, hmax⟩ hroom
    exact ⟨hkept.step hroom, (maxSessions_step s e).trans hmax⟩
  · rintro s ⟨hkept, hmax⟩
    exact hmax ▸ hkept.held_le

/-! ### Samples -/

/-- A login that asks for nothing in particular. -/
def sampleLogin : ConnectionParams := { host := "host", username := "demo" }

/-- Identifiers of one character more each. -/
def sampleIdentifiers : Identifiers where
  draw n := String.ofList (List.replicate (n + 1) 'x')
  injective := by
    intro m n h
    have hlength := congrArg String.length h
    simpa using hlength

/-- By default, a login that is not root's gets as far as the connection. -/
theorem exists_proceeds (rt : Runtime) :
    ∃ engine : PolicyEngine rt, engine.config = {} ∧
      ∀ m : SessionManager, m.Proceeds engine sampleLogin := by
  obtain ⟨engine, hengine⟩ := PolicyEngine.exists_engine rt {} (by decide) (by decide) ⟨rfl, rfl⟩
  refine ⟨engine, hengine, fun m => ⟨?_, by decide, fun h => absurd h (by decide)⟩⟩
  have hpermits : engine.Permits (SessionManager.openContext sampleLogin .enforce) := by
    rw [PolicyEngine.permits_iff, PolicyEngine.denialWith]
    unfold PolicyEngine.hostDenial
    rw [hengine]
    rfl
  change (engine.assertAllowed (SessionManager.openContext sampleLogin .enforce)).isOk = true
  rw [engine.assertAllowed_eq, if_neg fun h => h.1 hpermits]
  rfl

/-- A table that is full with one session. -/
def sampleFull : SessionPool :=
  ((fresh { maxSessions := 1 }).awaitConnection sampleIdentifiers sampleLogin 0 0).connected 0
    (.ok true)

theorem step_sampleLogin {engine : PolicyEngine rt}
    (hproceeds : ∀ m : SessionManager, m.Proceeds engine sampleLogin) (s : SessionPool)
    (now later : ℕ) :
    step engine ids s (.openSession sampleLogin now later) =
      s.awaitConnection ids sampleLogin now later :=
  openSession_of_proceeds (hproceeds s.manager)

theorem run_sampleFull {engine : PolicyEngine rt}
    (hproceeds : ∀ m : SessionManager, m.Proceeds engine sampleLogin) :
    Run.run (step engine sampleIdentifiers) (fresh { maxSessions := 1 })
      [.openSession sampleLogin 0 0, .connected 0 (.ok true)] = sampleFull := by
  rw [Run.run_cons, step_sampleLogin hproceeds]
  rfl

/-- A table of one session makes room for the next. -/
theorem held_le_of_keepsRoom_evicts :
    ∃ engine : PolicyEngine sampleRuntime, engine.config = {} ∧
      Run.Along (step engine sampleIdentifiers) (fun s => s.held ≤ 1) (fresh { maxSessions := 1 })
        [.openSession sampleLogin 0 0, .connected 0 (.ok true), .openSession sampleLogin 1 1,
          .sessionClosed 0, .connected 1 (.ok true)] := by
  obtain ⟨engine, hengine, hproceeds⟩ := exists_proceeds sampleRuntime
  have hopen := @step_sampleLogin _ sampleIdentifiers engine hproceeds
  have hconnected : ∀ s n connection, step engine sampleIdentifiers s (.connected n connection) =
      s.connected n connection := fun _ _ _ => rfl
  have hclosed : ∀ s n, step engine sampleIdentifiers s (.sessionClosed n) = s.sessionClosed n :=
    fun _ _ => rfl
  refine ⟨engine, hengine, held_le_of_keepsRoom engine sampleIdentifiers { maxSessions := 1 } _ ?_⟩
  refine ⟨fun _ => by decide, fun o ho victim hvictim => ?_, fun _ => ?_, trivial,
    fun o ho victim hvictim => ?_, trivial⟩
  · rw [hopen] at ho
    obtain rfl : (⟨_, _, _, _⟩ : Opening) = o := Option.some.inj ho
    cases hvictim
  · rw [hopen, hconnected]
    decide +kernel
  · rw [hopen, hconnected, hopen, hclosed] at ho ⊢
    obtain rfl : (⟨_, _, _, _⟩ : Opening) = o := Option.some.inj ho
    obtain rfl : "x" = victim := Option.some.inj hvictim
    decide +kernel

/-- **The limit is exceeded** where two calls look at the table before either has stored its
session. -/
theorem limit_exceeded :
    ∃ engine : PolicyEngine sampleRuntime, engine.config = {} ∧
      ¬Run.Along (step engine sampleIdentifiers) (fun s => s.held ≤ 1) (fresh { maxSessions := 1 })
        [.openSession sampleLogin 0 0, .openSession sampleLogin 0 0, .connected 0 (.ok true),
          .connected 1 (.ok true)] := by
  obtain ⟨engine, hengine, hproceeds⟩ := exists_proceeds sampleRuntime
  have hopen := @step_sampleLogin _ sampleIdentifiers engine hproceeds
  refine ⟨engine, hengine, fun h => ?_⟩
  have hend := h.2.2.2.2
  rw [hopen, hopen] at hend
  have hheld : (((((fresh { maxSessions := 1 }).awaitConnection sampleIdentifiers sampleLogin 0
      0).awaitConnection sampleIdentifiers sampleLogin 0 0).connected 0 (.ok true)).connected 1
        (.ok true)).held = 2 := by decide +kernel
  exact absurd (hheld ▸ hend : 2 ≤ 1) (by decide)

end SessionPool
end Ssh
