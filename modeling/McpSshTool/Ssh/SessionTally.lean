import McpSshTool.Ssh.SessionLifetimes

/-!
# Sessions that are used by one caller only

The session pool, when all of its sessions are opened and closed by callers that count them the way
`ssh_host_inspect` does: one more when a session is opened, one less when the call that closes it
has returned, whatever that call found.

* `Loose` — a session that nobody is closing;
* `Tally` — how many sessions are in use and which: the metric has these and the ones that are being
  closed, and whatever is loose is in use;
* one lemma for each operation of the pool: what it makes of a tally. What the pool closes by
  itself, by eviction or expiry, changes nothing.
-/

open Library

namespace Ssh
namespace SessionPool

/-- The session is in the table, and nobody is closing it. -/
def Loose (s : SessionPool) (k : String) : Prop :=
  s.Holds k ∧ ∀ c ∈ s.closing.values, c.sessionId ≠ k

/-- How many calls of `closeSession` are at the end of an inspection. -/
def inspectionsClosing (s : SessionPool) : ℕ := s.closing.count fun c => c.closer = .inspection

/-- **The count is right**: `n` sessions are in use, and `used` tells which. -/
structure Tally (s : SessionPool) (n : ℕ) (used : String → Prop) : Prop where
  /-- No tool has closed a session. -/
  closers : ∀ c ∈ s.closing.values, c.closer ≠ .sessionTool
  active : s.metrics.active = n + s.inspectionsClosing
  loose : ∀ k, s.Loose k → used k

variable {s : SessionPool} {n : ℕ} {used used' : String → Prop} {rt : Runtime}
  {engine : PolicyEngine rt} {ids : Identifiers} {params : ConnectionParams}
  {closer : Closer} {k : String} {now later time call : ℕ}

theorem fresh_tally (manager : SessionManager) : (fresh manager).Tally 0 fun _ => False where
  closers _ h := absurd h List.not_mem_nil
  active := rfl
  loose _ h := absurd h.1 Bool.false_ne_true

theorem Tally.mono (h : s.Tally n used) (hused : ∀ k, used k → used' k) : s.Tally n used' :=
  ⟨h.closers, h.active, fun k hk => hused k (h.loose k hk)⟩

/-- A tally is about the table, the calls of `closeSession` and the metric. -/
theorem Tally.of_eq {s' : SessionPool} (h : s.Tally n used) (hclosing : s'.closing = s.closing)
    (hmetrics : s'.metrics = s.metrics) (hheld : ∀ k, s'.Holds k → s.Holds k) :
    s'.Tally n used where
  closers := by
    rw [hclosing]
    exact h.closers
  active := by
    rw [hmetrics, inspectionsClosing, hclosing]
    exact h.active
  loose := by
    rintro k ⟨hk, hnone⟩
    rw [hclosing] at hnone
    exact h.loose k ⟨hheld k hk, hnone⟩

/-! ### Closing -/

/-- Once a session is being closed, it is not loose any more. -/
theorem loose_closeSession {k' : String} (h : (s.closeSession closer k).Loose k') :
    s.Loose k' ∧ k' ≠ k := by
  obtain ⟨hheld, hnone⟩ := h
  unfold Holds at hheld
  rw [manager_closeSession] at hheld
  by_cases hk : s.Holds k
  · rw [closeSession_of_holds hk] at hnone
    refine ⟨⟨hheld, fun c hc => hnone c (Slots.mem_values_add.mpr (.inl hc))⟩, ?_⟩
    exact (hnone _ (Slots.mem_values_add.mpr (.inr rfl))).symm
  · rw [closeSession_of_not_holds hk] at hnone
    refine ⟨⟨hheld, hnone⟩, ?_⟩
    rintro rfl
    exact hk hheld

/-- **What the pool closes by itself** is in use or being closed as before. -/
theorem Tally.closes (h : s.Tally n used) (htool : closer ≠ .sessionTool)
    (hinspection : closer ≠ .inspection) : (s.closeSession closer k).Tally n used := by
  have hmetrics : s.metrics.closeReturned closer false = s.metrics := by
    cases closer with
    | sessionTool => exact absurd rfl htool
    | inspection => exact absurd rfl hinspection
    | eviction => rfl
    | expiry => rfl
  refine ⟨?_, ?_, fun k' hk' => h.loose k' (loose_closeSession hk').1⟩
  · by_cases hk : s.Holds k
    · rw [closeSession_of_holds hk]
      intro c hc
      rcases Slots.mem_values_add.mp hc with hc | rfl
      · exact h.closers c hc
      · exact htool
    · rw [closeSession_of_not_holds hk]
      exact h.closers
  · by_cases hk : s.Holds k
    · rw [closeSession_of_holds hk, inspectionsClosing]
      dsimp only
      rw [Slots.count_add, if_neg (by simpa using hinspection)]
      exact h.active
    · rw [closeSession_of_not_holds hk, hmetrics]
      exact h.active

/-- **The end of an inspection**: its session is used no more, and it counts until it is closed. -/
theorem Tally.inspected (h : s.Tally (n + 1) used) :
    (s.closeSession .inspection k).Tally n fun k' => used k' ∧ k' ≠ k := by
  refine ⟨?_, ?_, fun k' hk' => ?_⟩
  · by_cases hk : s.Holds k
    · rw [closeSession_of_holds hk]
      intro c hc
      rcases Slots.mem_values_add.mp hc with hc | rfl
      · exact h.closers c hc
      · exact nofun
    · rw [closeSession_of_not_holds hk]
      exact h.closers
  · have hactive := h.active
    by_cases hk : s.Holds k
    · rw [closeSession_of_holds hk, inspectionsClosing]
      dsimp only
      rw [Slots.count_add, if_pos (decide_eq_true rfl), hactive, inspectionsClosing]
      omega
    · rw [closeSession_of_not_holds hk]
      change s.metrics.active - 1 = n + s.inspectionsClosing
      omega
  · obtain ⟨hloose, hne⟩ := loose_closeSession hk'
    exact ⟨h.loose k' hloose, hne⟩

/-- **The rest of a close** takes the session out of the table, and the metric down if it is that of
an inspection. -/
theorem Tally.sessionClosed (h : s.Tally n used) (m : ℕ) : (s.sessionClosed m).Tally n used := by
  cases hclosing : s.closing.get? m with
  | none =>
    unfold SessionPool.sessionClosed
    rw [hclosing]
    exact h
  | some c =>
    have hc : c ∈ s.closing.values := Slots.mem_values.mpr ⟨m, hclosing⟩
    have hcount := Slots.count_remove (p := fun c : Closing => c.closer = .inspection) hclosing
    refine ⟨?_, ?_, ?_⟩
    · unfold SessionPool.sessionClosed
      rw [hclosing]
      exact fun c' hc' => h.closers c' (Slots.mem_of_mem_values_remove hc')
    · have hactive := h.active
      unfold SessionPool.sessionClosed
      rw [hclosing]
      change (s.metrics.closeReturned c.closer true).active =
        n + (s.closing.remove m).count fun c => c.closer = .inspection
      unfold inspectionsClosing at hactive
      cases hcloser : c.closer with
      | sessionTool => exact absurd hcloser (h.closers c hc)
      | inspection =>
        -- a close of an inspection is counted when it returns
        rw [if_pos (decide_eq_true hcloser)] at hcount
        change s.metrics.active - 1 = _
        omega
      | eviction =>
        rw [if_neg (by simp [hcloser])] at hcount
        change s.metrics.active = _
        omega
      | expiry =>
        rw [if_neg (by simp [hcloser])] at hcount
        change s.metrics.active = _
        omega
    · rintro k ⟨hheld, hnone⟩
      obtain ⟨hne, hheld⟩ := (holds_sessionClosed hclosing).mp hheld
      refine h.loose k ⟨hheld, fun c' hc' => ?_⟩
      rcases Slots.mem_values_remove_or hclosing hc' with hc' | rfl
      · refine hnone c' ?_
        unfold SessionPool.sessionClosed
        rw [hclosing]
        exact hc'
      · exact hne.symm

/-! ### Lookups and the timer -/

theorem Tally.getSession (h : s.Tally n used) (time : ℕ) (k : String) :
    (s.getSession time k).2.Tally n used := by
  rcases getSession_cases s time k with heq | heq | ⟨old, used', hold, heq⟩
  · rw [heq]
    exact h
  · rw [heq]
    exact h.closes nofun nofun
  · rw [heq]
    refine h.of_eq rfl rfl fun k' hk' => ?_
    rcases (holds_set rfl).mp hk' with rfl | hk'
    · exact holds_of_stored hold
    · exact hk'

theorem Tally.cleanup (h : s.Tally n used) (time : ℕ) :
    (s.cleanupExpiredSessions time).Tally n used :=
  cleanup_rec (P := fun s => s.Tally n used) h fun _ _ h => h.closes nofun nofun

/-! ### Opening -/

/-- **A call of `openSession` that does not only explain** may evict a session, and opens none
yet. -/
theorem Tally.openSession (h : s.Tally n used)
    (hmode : params.policyMode.getD .enforce ≠ .explain) :
    (s.openSession engine ids params now later).Tally n used := by
  by_cases hproceeds : s.manager.Proceeds engine params
  · rw [openSession_of_proceeds hproceeds]
    have hroom : (s.makeRoom later).Tally n used := by
      unfold makeRoom
      split
      · exact h
      · exact h.closes nofun nofun
    exact hroom.of_eq rfl rfl fun _ hk => hk
  · obtain ⟨result, metrics, heq, hmetrics, -⟩ :=
      openSession_of_not_proceeds ids now later hproceeds
    rw [heq, hmetrics hmode]
    exact h.of_eq rfl rfl fun _ hk => hk

/-- **A connection**: its session is in use. -/
theorem Tally.connected (h : s.Tally n used) {o : Opening} (ho : s.opening.get? call = some o)
    (sftp : Bool) :
    (s.connected call (.ok sftp)).Tally (n + 1) fun k => used k ∨ k = o.sessionId := by
  unfold SessionPool.connected
  rw [ho]
  refine ⟨h.closers, ?_, ?_⟩
  · change s.metrics.active + 1 = n + 1 + s.inspectionsClosing
    rw [h.active]
    omega
  · rintro k ⟨hheld, hnone⟩
    rcases (holds_set (s := s) rfl).mp hheld with rfl | hheld
    · exact .inr rfl
    · exact .inl (h.loose k ⟨hheld, hnone⟩)

theorem Tally.failed (h : s.Tally n used) (call : ℕ) (e : Failure) :
    (s.connected call (.error e)).Tally n used := by
  unfold SessionPool.connected
  split
  · exact h
  · exact h.of_eq rfl rfl fun _ hk => hk

end SessionPool
end Ssh
