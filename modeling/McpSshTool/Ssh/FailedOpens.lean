import McpSshTool.Ssh.SessionLifetimes
import McpSshTool.Ssh.SessionLimit

/-!
# Opens that fail

What a call of `openSession` that ends in an error has done to the table. The call makes room before
it knows whether there will be a connection, so a session may be lost to it.

* `FailsCleanly` — whatever happens while the call is under way, if it fails then what has left the
  table was closed by others, and nothing has come into it;
* `failed_open_changes_nothing_iff` — exactly when nothing is evicted for the call, or only a
  session that others are closing;
* `failed_open_evicts` — a full table, and a host that cannot be reached.
-/

open Library

namespace Ssh
namespace SessionPool

/-- Someone other than the call closes the session, or has closed it. -/
def ClosedByOthers (s : SessionPool) (call : ℕ) (k : String) : Prop :=
  ∃ c ∈ s.closes, c.sessionId = k ∧ c.closer ≠ .eviction call

variable {rt : Runtime} (engine : PolicyEngine rt) (ids : Identifiers)

/-- **A call that fails changes nothing.** After the call and whatever follows or comes in between,
once the call has ended in an error and what it has started has ended too: each session that was in
the table is there, unless others closed it, and the call's own is not. -/
def FailsCleanly (s : SessionPool) (params : ConnectionParams) (now later : ℕ) : Prop :=
  ∀ es, let s' := Run.run (step engine ids) (s.openSession engine ids params now later) es
    (∃ e, (s.opening.next, .error e) ∈ s'.opened) →
    (∀ c ∈ s'.closing.values, c.closer ≠ .eviction s.opening.next) →
      (∀ k, s.Holds k → s'.Holds k ∨ s'.ClosedByOthers s.opening.next k) ∧
        ¬ s'.Holds (ids.draw s.opening.next)

/-- **Nothing is evicted for the call** that is not being closed anyway. -/
def EvictsNothing (s : SessionPool) (params : ConnectionParams) (later : ℕ) : Prop :=
  s.manager.Proceeds engine params → ∀ victim, s.victim? later = some victim →
    ∃ c ∈ s.closing.values, c.sessionId = victim

variable {engine ids} {s : SessionPool} {params : ConnectionParams} {now later : ℕ}

/-! ### What the call closes -/

/-- The call evicts its victim, and nothing else. -/
theorem eviction_of_openSession (hs : s.Sound ids) {c : Closing}
    (hc : c ∈ (s.openSession engine ids params now later).closes)
    (hcloser : c.closer = .eviction s.opening.next) :
    s.manager.Proceeds engine params ∧ s.victim? later = some c.sessionId := by
  have hold : c ∉ s.closes := fun hc =>
    absurd (hs.eviction_lt c hc _ hcloser) (Nat.lt_irrefl _)
  by_cases hproceeds : s.manager.Proceeds engine params
  · refine ⟨hproceeds, ?_⟩
    rw [openSession_of_proceeds hproceeds, awaitConnection] at hc
    cases hvictim : s.victim? later with
    | none =>
      rw [makeRoom_of_none hvictim] at hc
      exact absurd hc hold
    | some =>
      rw [makeRoom, hvictim] at hc
      rcases mem_closes_closeSession.mp hc with hc | ⟨-, rfl⟩
      · exact absurd hc hold
      · rfl
  · obtain ⟨result, metrics, heq, -, -⟩ := openSession_of_not_proceeds ids now later hproceeds
    rw [heq] at hc
    exact absurd hc hold

theorem next_openSession :
    (s.openSession engine ids params now later).opening.next = s.opening.next + 1 := by
  by_cases hproceeds : s.manager.Proceeds engine params
  · rw [openSession_of_proceeds hproceeds]
    rfl
  · obtain ⟨result, metrics, heq, -, -⟩ := openSession_of_not_proceeds ids now later hproceeds
    rw [heq]
    rfl

/-! ### The two directions -/

theorem failsCleanly_of_evictsNothing (hs : s.Sound ids) (h : s.EvictsNothing engine params later) :
    s.FailsCleanly engine ids params now later := by
  intro es s' ⟨e, he⟩ _
  have hsound : (s.openSession engine ids params now later).Sound ids :=
    hs.step (e := .openSession params now later)
  have hsound' : s'.Sound ids := hsound.run
  have hstart : s.Goes (s.openSession engine ids params now later) :=
    goes_step (.openSession params now later)
  have hrest : (s.openSession engine ids params now later).Goes s' := goes_run es
  refine ⟨fun k hk => ?_, fun hk => ?_⟩
  · refine ((hstart.trans hrest).held k hk).imp_right fun ⟨c, hc, hck⟩ => ?_
    by_cases hcloser : c.closer = .eviction s.opening.next
    · -- the call's own eviction was part of its first step, and others close its victim too
      have hfirst : c ∈ (s.openSession engine ids params now later).closes := by
        refine (hrest.evictions c hc).resolve_right fun hn => ?_
        have hle := hn _ hcloser
        rw [next_openSession] at hle
        exact Nat.not_succ_le_self _ hle
      obtain ⟨hproceeds, hvictim⟩ := eviction_of_openSession hs hfirst hcloser
      obtain ⟨c', hc', hck'⟩ := h hproceeds _ hvictim
      have hc'' : c' ∈ s.closes := List.mem_append_left _ hc'
      refine ⟨c', (hstart.trans hrest).closes c' hc'', hck'.trans hck, fun hcloser' => ?_⟩
      exact absurd (hs.eviction_lt c' hc'' _ hcloser') (Nat.lt_irrefl _)
    · exact ⟨c, hc, hck, hcloser⟩
  · -- what is in the table was opened by a call that succeeded
    obtain ⟨n, r, hdraw, hr⟩ := hsound'.held_opened _ hk
    obtain rfl := ids.injective hdraw
    cases hsound'.opened_once _ _ _ he hr

/-- The call alone, to the end: its victim is closed, and its connection fails. -/
theorem run_failing {victim : String} (hproceeds : s.manager.Proceeds engine params)
    (hvictim : s.victim? later = some victim) :
    Run.run (step engine ids) (s.openSession engine ids params now later)
        [.sessionClosed s.closing.next, .connected s.opening.next (.error .unfinished)] =
      { s with
        manager := { s.manager with sessions := s.manager.sessions.delete victim }
        opening := (s.opening.add ⟨ids.draw s.opening.next, params, now, some victim⟩).remove
          s.opening.next
        closing := (s.closing.add ⟨victim, .eviction s.opening.next⟩).remove s.closing.next
        notified := s.notified ++ [(s.closing.next, victim)]
        opened := s.opened ++
          [(s.opening.next, .error (SessionManager.connectionFailure .unfinished))]
        closed := s.closed ++ [⟨victim, .eviction s.opening.next⟩] } := by
  change ((s.openSession engine ids params now later).sessionClosed s.closing.next).connected
    s.opening.next (.error .unfinished) = _
  rw [openSession_of_proceeds hproceeds, awaitConnection, makeRoom_of_some hvictim, hvictim,
    sessionClosed]
  dsimp only
  rw [Slots.get?_add_next]
  dsimp only
  rw [connected]
  dsimp only
  rw [Slots.get?_add_next]
  rfl

/-- A session that nobody else closes is lost. -/
theorem lost_of_victim (hs : s.Sound ids) (hproceeds : s.manager.Proceeds engine params)
    {victim : String} (hvictim : s.victim? later = some victim)
    (hothers : ∀ c ∈ s.closing.values, c.sessionId ≠ victim) :
    ¬ s.FailsCleanly engine ids params now later := by
  intro hclean
  have h := hclean [.sessionClosed s.closing.next, .connected s.opening.next (.error .unfinished)]
  dsimp only at h
  rw [run_failing hproceeds hvictim] at h
  -- the eviction has ended, and what is being closed was being closed before
  have hclosing : ∀ c ∈ ((s.closing.add ⟨victim, .eviction s.opening.next⟩).remove
      s.closing.next).values, c ∈ s.closing.values := by
    intro c hc
    obtain ⟨n, hn⟩ := Slots.mem_values.mp hc
    rw [Slots.get?_remove] at hn
    split at hn
    · cases hn
    · next hne =>
      rw [Slots.get?_add, if_neg hne] at hn
      exact Slots.mem_values.mpr ⟨n, hn⟩
  have hended := h ⟨_, List.mem_append_right _ (List.mem_singleton_self _)⟩ fun c hc hcloser =>
    absurd (hs.eviction_lt c (List.mem_append_left _ (hclosing c hc)) _ hcloser) (Nat.lt_irrefl _)
  rcases hended.1 victim (holds_of_victim? hvictim) with hheld | ⟨c, hc, hck, hcloser⟩
  · rw [holds_iff] at hheld
    exact (OrderedMap.mem_keys_delete.mp hheld).1 rfl
  · rcases List.mem_append.mp hc with hc | hc
    · exact hothers c (hclosing c hc) hck
    · rcases List.mem_append.mp hc with hc | hc
      · exact hs.closed_gone c hc (hck ▸ holds_of_victim? hvictim)
      · exact hcloser (by rw [List.mem_singleton.mp hc])

/-- **When a failed open changes nothing**: exactly when nothing is evicted for it, or only a
session that others are closing. -/
theorem failed_open_changes_nothing_iff {rt : Runtime} (engine : PolicyEngine rt)
    (ids : Identifiers) (manager : SessionManager) (before : List SessionEvent)
    (params : ConnectionParams) (now later : ℕ) :
    (Run.run (step engine ids) (fresh manager) before).FailsCleanly engine ids params now later ↔
      (Run.run (step engine ids) (fresh manager) before).EvictsNothing engine params later := by
  have hs : (Run.run (step engine ids) (fresh manager) before).Sound ids :=
    (fresh_sound manager).run
  refine ⟨fun hclean hproceeds victim hvictim => ?_, failsCleanly_of_evictsNothing hs⟩
  by_contra hothers
  push Not at hothers
  exact lost_of_victim hs hproceeds hvictim hothers hclean

/-- **A full table and a host that cannot be reached**: the session that was there is gone. -/
theorem failed_open_evicts :
    ∃ engine : PolicyEngine sampleRuntime, engine.config = {} ∧
      ¬ (Run.run (step engine sampleIdentifiers) (fresh { maxSessions := 1 })
        [.openSession sampleLogin 0 0, .connected 0 (.ok true)]).FailsCleanly engine
          sampleIdentifiers sampleLogin 1 1 := by
  obtain ⟨engine, hengine, hproceeds⟩ := exists_proceeds sampleRuntime
  refine ⟨engine, hengine, ?_⟩
  rw [run_sampleFull hproceeds]
  have hs : sampleFull.Sound sampleIdentifiers :=
    run_sampleFull hproceeds ▸ (fresh_sound _).run
  have hvictim : sampleFull.victim? 1 = some "x" := by decide +kernel
  exact lost_of_victim hs (hproceeds _) hvictim (by decide +kernel)

end SessionPool
end Ssh
