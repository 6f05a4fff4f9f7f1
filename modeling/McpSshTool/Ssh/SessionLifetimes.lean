import McpSshTool.Ssh.SessionPool

/-!
# The life of a session

What holds of every session and of every call, in every run of the manager.

* `Sound` — each call of `openSession` is answered once; what is in the table was opened by a call
  that succeeded, and what is closed was in the table and is no more;
* `Goes` — from one state to a later one: sessions leave the table by a call of `closeSession` only,
  and those calls are not forgotten.
-/

open Library

namespace Ssh
namespace SessionPool

/-- The calls of `closeSession` that found their session. -/
def closes (s : SessionPool) : List Closing := s.closing.values ++ s.closed

/-- **The numbers of the calls and the identifiers of the sessions fit.** -/
structure Sound (ids : Identifiers) (s : SessionPool) : Prop where
  /-- A call that waits has the identifier of its number. -/
  opening_draw : ∀ n o, s.opening.get? n = some o → o.sessionId = ids.draw n
  /-- A call that waits has not been answered. -/
  opening_waits : ∀ n o r, s.opening.get? n = some o → (n, r) ∉ s.opened
  opened_lt : ∀ n r, (n, r) ∈ s.opened → n < s.opening.next
  /-- No call is answered twice. -/
  opened_once : ∀ n r r', (n, r) ∈ s.opened → (n, r') ∈ s.opened → r = r'
  /-- What is in the table was opened. -/
  held_opened : ∀ k, s.Holds k → ∃ n r, k = ids.draw n ∧ (n, .ok r) ∈ s.opened
  /-- What is closed was opened. -/
  closes_opened : ∀ c ∈ s.closes, ∃ n r, c.sessionId = ids.draw n ∧ (n, .ok r) ∈ s.opened
  /-- What has been closed is not in the table. -/
  closed_gone : ∀ c ∈ s.closed, ¬ s.Holds c.sessionId
  /-- An eviction was for a call. -/
  eviction_lt : ∀ c ∈ s.closes, ∀ n, c.closer = .eviction n → n < s.opening.next

/-- **Later is later**: what a session or a call of `closeSession` may have come to. -/
structure Goes (s s' : SessionPool) : Prop where
  /-- A session leaves the table by a call of `closeSession`. -/
  held : ∀ k, s.Holds k → s'.Holds k ∨ ∃ c ∈ s'.closes, c.sessionId = k
  closes : ∀ c ∈ s.closes, c ∈ s'.closes
  next_le : s.opening.next ≤ s'.opening.next
  /-- An eviction is for a call that starts with it. -/
  evictions : ∀ c ∈ s'.closes, c ∈ s.closes ∨ ∀ n, c.closer = .eviction n → s.opening.next ≤ n

variable {rt : Runtime} {engine : PolicyEngine rt} {ids : Identifiers} {s s' s'' : SessionPool}
  {params : ConnectionParams} {closer : Closer} {k : String} {now later time n : ℕ} {c : Closing}
  {o : Opening}

/-! ### The parts of a step -/

theorem holds_set {r : SessionPool} {session : SshSession}
    (hr : r.manager.sessions = s.manager.sessions.set k session) {k' : String} :
    r.Holds k' ↔ k' = k ∨ s.Holds k' := by
  rw [holds_iff, hr, OrderedMap.mem_keys_set, holds_iff]

theorem mem_closes_closeSession :
    c ∈ (s.closeSession closer k).closes ↔ c ∈ s.closes ∨ (s.Holds k ∧ c = ⟨k, closer⟩) := by
  by_cases h : s.Holds k
  · rw [closeSession_of_holds h]
    unfold closes
    rw [List.mem_append, Slots.mem_values_add, List.mem_append]
    tauto
  · rw [closeSession_of_not_holds h]
    exact ⟨.inl, fun hc => hc.resolve_right fun hk => h hk.1⟩

theorem mem_closes_sessionClosed : c ∈ (s.sessionClosed n).closes ↔ c ∈ s.closes := by
  unfold sessionClosed
  split
  · exact Iff.rfl
  · next closing hclosing =>
    have hperm := (Slots.values_remove_perm hclosing).mem_iff (a := c)
    unfold closes
    rw [List.mem_cons] at hperm
    rw [List.mem_append, List.mem_append, List.mem_append, List.mem_singleton, ← hperm]
    tauto

theorem holds_sessionClosed {closing : Closing} (h : s.closing.get? n = some closing) :
    (s.sessionClosed n).Holds k ↔ k ≠ closing.sessionId ∧ s.Holds k := by
  rw [holds_iff, sessionClosed, h, holds_iff]
  exact OrderedMap.mem_keys_delete

/-! ### Soundness -/

theorem fresh_sound (manager : SessionManager) : (fresh manager).Sound ids where
  opening_draw _ _ h := nomatch h
  opening_waits _ _ _ h := nomatch h
  opened_lt _ _ h := absurd h List.not_mem_nil
  opened_once _ _ _ h := absurd h List.not_mem_nil
  held_opened _ h := absurd h Bool.false_ne_true
  closes_opened _ h := absurd h List.not_mem_nil
  closed_gone _ h := absurd h List.not_mem_nil
  eviction_lt _ h := absurd h List.not_mem_nil

/-- A call that is about no session in the table leaves no trace but in the metric. -/
theorem Sound.closeSession (h : s.Sound ids)
    (hcloser : ∀ n, closer = .eviction n → n < s.opening.next) :
    (s.closeSession closer k).Sound ids where
  opening_draw := by
    rw [opening_closeSession]
    exact h.opening_draw
  opening_waits := by
    rw [opening_closeSession, opened_closeSession]
    exact h.opening_waits
  opened_lt := by
    rw [opening_closeSession, opened_closeSession]
    exact h.opened_lt
  opened_once := by
    rw [opened_closeSession]
    exact h.opened_once
  held_opened := by
    unfold Holds
    rw [manager_closeSession, opened_closeSession]
    exact h.held_opened
  closes_opened := by
    intro c hc
    rw [opened_closeSession]
    rcases mem_closes_closeSession.mp hc with hc | ⟨hk, rfl⟩
    · exact h.closes_opened c hc
    · exact h.held_opened k hk
  closed_gone := by
    unfold Holds
    rw [manager_closeSession, closed_closeSession]
    exact h.closed_gone
  eviction_lt := by
    intro c hc n hn
    rw [opening_closeSession]
    rcases mem_closes_closeSession.mp hc with hc | ⟨hk, rfl⟩
    · exact h.eviction_lt c hc n hn
    · exact hcloser n hn

theorem Sound.sessionClosed (h : s.Sound ids) : (s.sessionClosed n).Sound ids := by
  cases hclosing : s.closing.get? n with
  | none =>
    unfold SessionPool.sessionClosed
    rw [hclosing]
    exact h
  | some =>
    refine ⟨?_, ?_, ?_, ?_, ?_, ?_, ?_, ?_⟩
    · rw [opening_sessionClosed]
      exact h.opening_draw
    · rw [opening_sessionClosed, opened_sessionClosed]
      exact h.opening_waits
    · rw [opening_sessionClosed, opened_sessionClosed]
      exact h.opened_lt
    · rw [opened_sessionClosed]
      exact h.opened_once
    · intro k hk
      rw [opened_sessionClosed]
      exact h.held_opened k ((holds_sessionClosed hclosing).mp hk).2
    · intro c hc
      rw [opened_sessionClosed]
      exact h.closes_opened c (mem_closes_sessionClosed.mp hc)
    · intro c hc hheld
      obtain ⟨hne, hheld⟩ := (holds_sessionClosed hclosing).mp hheld
      unfold SessionPool.sessionClosed at hc
      rw [hclosing] at hc
      rcases List.mem_append.mp hc with hc | hc
      · exact h.closed_gone c hc hheld
      · exact hne (by rw [List.mem_singleton.mp hc])
    · intro c hc n hn
      rw [opening_sessionClosed]
      exact h.eviction_lt c (mem_closes_sessionClosed.mp hc) n hn

theorem Sound.getSession (h : s.Sound ids) : (s.getSession time k).2.Sound ids := by
  rcases getSession_cases s time k with heq | heq | ⟨old, used, hold, heq⟩
  · rw [heq]
    exact h
  · rw [heq]
    exact h.closeSession nofun
  · rw [heq]
    have hholds : ∀ k', ({ s with manager := { s.manager with
        sessions := s.manager.sessions.set k used } } : SessionPool).Holds k' ↔ s.Holds k' := by
      intro k'
      rw [holds_set rfl]
      exact ⟨fun hk => hk.elim (fun hk => hk ▸ holds_of_stored hold) id, .inr⟩
    exact { h with
      held_opened := fun k' hk' => h.held_opened k' ((hholds k').mp hk')
      closed_gone := fun c hc hk' => h.closed_gone c hc ((hholds _).mp hk') }

/-- A call that is answered at once has a number that no other call has. -/
theorem Sound.openAnswer (h : s.Sound ids) (result : Except Failure SessionResult)
    (metrics : SessionMetrics) :
    ({ s.openAnswer s.opening.next result with metrics := metrics } : SessionPool).Sound ids := by
  have hopened : ∀ n r, (n, r) ∈ s.opened ++ [(s.opening.next, result)] →
      (n, r) ∈ s.opened ∨ n = s.opening.next ∧ r = result := by
    intro n r hr
    rcases List.mem_append.mp hr with hr | hr
    · exact .inl hr
    · exact .inr (Prod.mk.inj (List.mem_singleton.mp hr))
  have hok : ∀ k, (∃ n r, k = ids.draw n ∧ (n, .ok r) ∈ s.opened) →
      ∃ n r, k = ids.draw n ∧ (n, .ok r) ∈ s.opened ++ [(s.opening.next, result)] :=
    fun k ⟨n, r, hk, hr⟩ => ⟨n, r, hk, List.mem_append_left _ hr⟩
  refine ⟨h.opening_draw, ?_, ?_, ?_, fun k hk => hok k (h.held_opened k hk),
    fun c hc => hok _ (h.closes_opened c hc), h.closed_gone,
    fun c hc n hn => Nat.lt_succ_of_lt (h.eviction_lt c hc n hn)⟩
  · intro n o r ho hr
    rcases hopened n r hr with hr | ⟨rfl, -⟩
    · exact h.opening_waits n o r ho hr
    · exact absurd (Slots.lt_of_get? (s := s.opening) ho) (Nat.lt_irrefl _)
  · intro n r hr
    rcases hopened n r hr with hr | ⟨rfl, -⟩
    · exact Nat.lt_succ_of_lt (h.opened_lt n r hr)
    · exact Nat.lt_succ_self _
  · intro n r r' hr hr'
    rcases hopened n r hr with hr | ⟨rfl, rfl⟩
    · rcases hopened n r' hr' with hr' | ⟨rfl, -⟩
      · exact h.opened_once n r r' hr hr'
      · exact absurd (h.opened_lt _ r hr) (Nat.lt_irrefl _)
    · rcases hopened _ r' hr' with hr' | ⟨-, rfl⟩
      · exact absurd (h.opened_lt _ r' hr') (Nat.lt_irrefl _)
      · rfl

/-- A call that waits has a number that no other call has; what it evicts was in the table. -/
theorem Sound.awaitConnection (h : s.Sound ids) :
    (s.awaitConnection ids params now later).Sound ids := by
  have hcloses : ∀ c ∈ (s.awaitConnection ids params now later).closes,
      c ∈ s.closes ∨ (s.Holds c.sessionId ∧ c.closer = .eviction s.opening.next) := by
    intro c hc
    -- one is evicted, or there is room
    cases hvictim : s.victim? later with
    | none =>
      unfold SessionPool.awaitConnection at hc
      rw [makeRoom_of_none hvictim] at hc
      exact .inl hc
    | some =>
      unfold SessionPool.awaitConnection makeRoom at hc
      rw [hvictim] at hc
      rcases mem_closes_closeSession.mp hc with hc | ⟨hk, rfl⟩
      · exact .inl hc
      · exact .inr ⟨hk, rfl⟩
  have hholds : ∀ k, (s.awaitConnection ids params now later).Holds k ↔ s.Holds k := by
    intro k
    unfold Holds SessionPool.awaitConnection
    dsimp only
    rw [manager_makeRoom]
  have hopened : (s.awaitConnection ids params now later).opened = s.opened :=
    opened_makeRoom s later
  refine ⟨?_, ?_, ?_, ?_, ?_, ?_, ?_, ?_⟩
  · intro n o ho
    unfold SessionPool.awaitConnection at ho
    rw [Slots.get?_add] at ho
    split at ho
    · next hn =>
      obtain rfl := Option.some.inj ho
      rw [hn]
    · exact h.opening_draw n o ho
  · intro n o r ho hr
    rw [hopened] at hr
    unfold SessionPool.awaitConnection at ho
    rw [Slots.get?_add] at ho
    split at ho
    · -- the number of the new call is past all answers
      next hn => exact absurd (hn ▸ h.opened_lt n r hr) (Nat.lt_irrefl _)
    · exact h.opening_waits n o r ho hr
  · intro n r hr
    exact Nat.lt_succ_of_lt (h.opened_lt n r (hopened ▸ hr))
  · rw [hopened]
    exact h.opened_once
  · intro k hk
    rw [hopened]
    exact h.held_opened k ((hholds k).mp hk)
  · intro c hc
    rw [hopened]
    rcases hcloses c hc with hc | ⟨hk, -⟩
    · exact h.closes_opened c hc
    · exact h.held_opened _ hk
  · intro c hc hk
    exact h.closed_gone c ((closed_makeRoom s later) ▸ hc) ((hholds _).mp hk)
  · intro c hc n hn
    rcases hcloses c hc with hc | ⟨-, hcloser⟩
    · exact Nat.lt_succ_of_lt (h.eviction_lt c hc n hn)
    · -- the new close is for the call itself
      rw [hcloser] at hn
      obtain rfl := Closer.eviction.inj hn
      exact Nat.lt_succ_self _

/-- The connection of a call makes its session, which has not been in the table before. -/
theorem Sound.connected {connection : Except Failure Bool} (h : s.Sound ids) :
    (s.connected n connection).Sound ids := by
  unfold SessionPool.connected
  split
  · exact h
  · next o ho =>
    have hanswer : ∀ (result : Except Failure SessionResult) n' r,
        (n', r) ∈ s.opened ++ [(n, result)] → (n', r) ∈ s.opened ∨ n' = n ∧ r = result := by
      intro result n' r hr
      rcases List.mem_append.mp hr with hr | hr
      · exact .inl hr
      · exact .inr (Prod.mk.inj (List.mem_singleton.mp hr))
    -- a call that still waits is another than the one that has returned
    have hwaits : ∀ (result : Except Failure SessionResult) n' o' r,
        (s.opening.remove n).get? n' = some o' → (n', r) ∉ s.opened ++ [(n, result)] := by
      intro result n' o' r ho' hr
      rw [Slots.get?_remove] at ho'
      split at ho'
      · cases ho'
      · next hne =>
        exact (hanswer result n' r hr).elim (h.opening_waits n' o' r ho') fun hr => hne hr.1
    have hlt : ∀ (result : Except Failure SessionResult) n' r,
        (n', r) ∈ s.opened ++ [(n, result)] → n' < s.opening.next := by
      intro result n' r hr
      rcases hanswer result n' r hr with hr | ⟨rfl, -⟩
      · exact h.opened_lt n' r hr
      · exact Slots.lt_of_get? ho
    have honce : ∀ (result : Except Failure SessionResult) n' r r',
        (n', r) ∈ s.opened ++ [(n, result)] → (n', r') ∈ s.opened ++ [(n, result)] → r = r' := by
      intro result n' r r' hr hr'
      rcases hanswer result n' r hr with hin | ⟨rfl, rfl⟩
      · -- the call had no answer as long as it was waiting
        rcases hanswer result n' r' hr' with hin' | ⟨rfl, -⟩
        · exact h.opened_once n' r r' hin hin'
        · exact absurd hin (h.opening_waits n' o r ho)
      · rcases hanswer r n' r' hr' with hin' | ⟨-, rfl⟩
        · exact absurd hin' (h.opening_waits n' o r' ho)
        · rfl
    have hok : ∀ (result : Except Failure SessionResult) k,
        (∃ n r, k = ids.draw n ∧ (n, .ok r) ∈ s.opened) →
          ∃ n' r, k = ids.draw n' ∧ (n', .ok r) ∈ s.opened ++ [(n, result)] :=
      fun _ _ ⟨n', r, hk, hr⟩ => ⟨n', r, hk, List.mem_append_left _ hr⟩
    have hdraw : ∀ n' o', (s.opening.remove n).get? n' = some o' → o'.sessionId = ids.draw n' :=
      fun n' o' ho' => h.opening_draw n' o' (Slots.get?_of_remove ho')
    cases connection with
    | error =>
      exact ⟨hdraw, hwaits _, hlt _, honce _, fun k hk => hok _ k (h.held_opened k hk),
        fun c hc => hok _ _ (h.closes_opened c hc), h.closed_gone, h.eviction_lt⟩
    | ok =>
      refine ⟨hdraw, hwaits _, hlt _, honce _, fun k hk => ?_,
        fun c hc => hok _ _ (h.closes_opened c hc), fun c hc hk => ?_, h.eviction_lt⟩
      · rcases (holds_set rfl).mp hk with rfl | hk
        · exact ⟨n, _, h.opening_draw n o ho, List.mem_append_right _ (List.mem_singleton_self _)⟩
        · exact hok _ k (h.held_opened k hk)
      · rcases (holds_set rfl).mp hk with heq | hk
        · -- a session that was closed was opened by a call that has been answered
          obtain ⟨n', r, hdraw', hr⟩ := h.closes_opened c (List.mem_append_right _ hc)
          rw [heq, h.opening_draw n o ho] at hdraw'
          obtain rfl := ids.injective hdraw'
          exact h.opening_waits n o _ ho hr
        · exact h.closed_gone c hc hk

/-- **Every step keeps the numbers and the identifiers.** -/
theorem Sound.step {e : SessionEvent} (h : s.Sound ids) : (step engine ids s e).Sound ids := by
  cases e with
  | openSession params now later =>
    change (s.openSession engine ids params now later).Sound ids
    by_cases hproceeds : s.manager.Proceeds engine params
    · rw [openSession_of_proceeds hproceeds]
      exact h.awaitConnection
    · obtain ⟨result, metrics, heq, -, -⟩ := openSession_of_not_proceeds ids now later hproceeds
      rw [heq]
      exact h.openAnswer result metrics
  | connected => exact h.connected
  | closeSession => exact h.closeSession nofun
  | inspected => exact h.closeSession nofun
  | sessionClosed => exact h.sessionClosed
  | getSession => exact h.getSession
  | cleanup => exact cleanup_rec h fun _ _ h => h.closeSession nofun

theorem Sound.run {es : List SessionEvent} (h : s.Sound ids) :
    (Run.run (SessionPool.step engine ids) s es).Sound ids := by
  induction es generalizing s with
  | nil => exact h
  | cons e es ih => exact ih h.step

/-! ### Later states -/

theorem Goes.refl (s : SessionPool) : s.Goes s :=
  ⟨fun _ hk => .inl hk, fun _ hc => hc, Nat.le_refl _, fun _ hc => .inl hc⟩

theorem Goes.trans (h : s.Goes s') (h' : s'.Goes s'') : s.Goes s'' where
  held k hk := by
    rcases h.held k hk with hk | ⟨c, hc, rfl⟩
    · exact h'.held k hk
    · exact .inr ⟨c, h'.closes c hc, rfl⟩
  closes c hc := h'.closes c (h.closes c hc)
  next_le := Nat.le_trans h.next_le h'.next_le
  evictions c hc := by
    rcases h'.evictions c hc with hc | hn
    · exact h.evictions c hc
    · exact .inr fun n hcloser => Nat.le_trans h.next_le (hn n hcloser)

theorem Goes.of_closes_eq (hheld : ∀ k, s.Holds k → s'.Holds k) (hcloses : s'.closes = s.closes)
    (hnext : s.opening.next ≤ s'.opening.next) : s.Goes s' :=
  ⟨fun k hk => .inl (hheld k hk), fun _ hc => hcloses ▸ hc, hnext, fun _ hc => .inl (hcloses ▸ hc)⟩

theorem goes_closeSession (hcloser : ∀ n, closer = .eviction n → s.opening.next ≤ n) :
    s.Goes (s.closeSession closer k) where
  held k' hk' := by
    refine .inl ?_
    rw [Holds, manager_closeSession]
    exact hk'
  closes c hc := mem_closes_closeSession.mpr (.inl hc)
  next_le := by rw [opening_closeSession]
  evictions c hc := by
    rcases mem_closes_closeSession.mp hc with hc | ⟨-, rfl⟩
    · exact .inl hc
    · exact .inr hcloser

theorem goes_sessionClosed : s.Goes (s.sessionClosed n) where
  held k hk := by
    cases hclosing : s.closing.get? n with
    | none =>
      rw [sessionClosed, hclosing]
      exact .inl hk
    | some closing =>
      rw [holds_sessionClosed hclosing]
      by_cases hne : k = closing.sessionId
      · refine .inr ⟨closing, mem_closes_sessionClosed.mpr ?_, hne.symm⟩
        exact List.mem_append_left _ (Slots.mem_values.mpr ⟨n, hclosing⟩)
      · exact .inl ⟨hne, hk⟩
  closes _ hc := mem_closes_sessionClosed.mpr hc
  next_le := by rw [opening_sessionClosed]
  evictions _ hc := .inl (mem_closes_sessionClosed.mp hc)

theorem goes_getSession : s.Goes (s.getSession time k).2 := by
  rcases getSession_cases s time k with heq | heq | ⟨old, used, -, heq⟩
  · rw [heq]
    exact .refl s
  · rw [heq]
    exact goes_closeSession nofun
  · rw [heq]
    exact .of_closes_eq (fun k' hk' => (holds_set rfl).mpr (.inr hk')) rfl (Nat.le_refl _)

theorem goes_awaitConnection : s.Goes (s.awaitConnection ids params now later) := by
  have hroom : s.Goes (s.makeRoom later) := by
    unfold makeRoom
    split
    · exact .refl s
    · refine goes_closeSession fun n hn => ?_
      obtain rfl := Closer.eviction.inj hn
      exact Nat.le_refl _
  exact ⟨hroom.held, hroom.closes, Nat.le_succ _, hroom.evictions⟩

theorem goes_connected {connection : Except Failure Bool} : s.Goes (s.connected n connection) := by
  unfold connected
  split
  · exact .refl s
  · cases connection with
    | error => exact .of_closes_eq (fun _ hk => hk) rfl (Nat.le_refl _)
    | ok =>
      exact .of_closes_eq (fun k hk => (holds_set rfl).mpr (.inr hk)) rfl (Nat.le_refl _)

theorem goes_step (e : SessionEvent) : s.Goes (step engine ids s e) := by
  cases e with
  | openSession params now later =>
    change s.Goes (s.openSession engine ids params now later)
    by_cases hproceeds : s.manager.Proceeds engine params
    · rw [openSession_of_proceeds hproceeds]
      exact goes_awaitConnection
    · obtain ⟨result, metrics, heq, -, -⟩ := openSession_of_not_proceeds ids now later hproceeds
      rw [heq]
      exact .of_closes_eq (fun _ hk => hk) rfl (Nat.le_succ _)
  | connected => exact goes_connected
  | closeSession => exact goes_closeSession nofun
  | inspected => exact goes_closeSession nofun
  | sessionClosed => exact goes_sessionClosed
  | getSession => exact goes_getSession
  | cleanup =>
    exact cleanup_rec (P := s.Goes) (.refl s) fun _ _ h => h.trans (goes_closeSession nofun)

theorem goes_run (es : List SessionEvent) : s.Goes (Run.run (step engine ids) s es) := by
  induction es generalizing s with
  | nil => exact .refl s
  | cons e es ih => exact (goes_step e).trans ih

end SessionPool
end Ssh
