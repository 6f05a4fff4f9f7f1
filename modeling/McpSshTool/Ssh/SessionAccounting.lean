import McpSshTool.Ssh.SessionLifetimes
import McpSshTool.Ssh.SessionLimit

/-!
# The accounting of sessions

Whether the metric of active sessions agrees with the table. The tools keep it: they count a session
when `openSession` returns to them, and discount it when `closeSession` does. What the manager
closes by itself it does not discount.

* `Quiet` — no call is in flight; `Accounted` — what is asked of the metric and of `closeSession`;
* `Accounts` — the steps after which the metric still agrees;
* `accounted_of_accounts` — over every run;
* `eviction_unaccounted` — a session that was evicted stays counted.

Where all steps account, the metric agrees with the table in every state, and the sessions that are
being closed are distinct and in the table: `Balanced`.
-/

open Library

namespace Ssh
namespace SessionPool

/-- No call is in flight. -/
def Quiet (s : SessionPool) : Prop := s.opening.values = [] ∧ s.closing.values = []

/-- **The accounting**: with no call in flight, as many sessions are active as there are in the
table; and no session has been closed twice. -/
def Accounted (s : SessionPool) : Prop :=
  (s.Quiet → s.metrics.active = s.held) ∧ (s.closed.map Closing.sessionId).Nodup

/-- **A step accounts** for the sessions that it opens and closes: nothing is only explained,
evicted or expired, and nothing is closed that is being closed; what an inspection closes is in the
table. -/
def Accounts {rt : Runtime} (engine : PolicyEngine rt) (s : SessionPool) : SessionEvent → Prop
  | .openSession params _ later =>
    params.policyMode.getD .enforce ≠ .explain ∧
      (s.manager.Proceeds engine params → s.victim? later = none)
  | .closeSession sessionId => ∀ c ∈ s.closing.values, c.sessionId ≠ sessionId
  | .inspected sessionId => s.Holds sessionId ∧ ∀ c ∈ s.closing.values, c.sessionId ≠ sessionId
  | .getSession time sessionId =>
    ∀ session, s.manager.stored sessionId = some session → time ≤ session.info.expiresAt
  | .cleanup time => s.expiredSessions time = []
  | .connected _ _ | .sessionClosed _ => True

/-- The metric agrees with the table, and the sessions that tools are closing are distinct and in
the table. -/
structure Balanced (s : SessionPool) : Prop where
  active : s.metrics.active = s.held
  closing_held : ∀ n c, s.closing.get? n = some c → s.Holds c.sessionId
  closing_tool : ∀ n c, s.closing.get? n = some c →
    c.closer = .sessionTool ∨ c.closer = .inspection
  closing_once : ∀ n n' c c', s.closing.get? n = some c → s.closing.get? n' = some c' →
    c.sessionId = c'.sessionId → n = n'
  closed_once : (s.closed.map Closing.sessionId).Nodup

variable {rt : Runtime} {engine : PolicyEngine rt} {ids : Identifiers} {s : SessionPool}
  {params : ConnectionParams} {closer : Closer} {k : String} {now later time n : ℕ}

theorem Balanced.accounted (h : s.Balanced) : s.Accounted := ⟨fun _ => h.active, h.closed_once⟩

/-! ### One step -/

/-- A tool closes a session that nobody is closing. -/
theorem Balanced.closeSession (h : s.Balanced) (hclosing : ∀ c ∈ s.closing.values, c.sessionId ≠ k)
    (hcloser : closer = .sessionTool ∨ closer = .inspection ∧ s.Holds k) :
    (s.closeSession closer k).Balanced := by
  by_cases hk : s.Holds k
  · rw [closeSession_of_holds hk]
    have hcases : ∀ n c, (s.closing.add ⟨k, closer⟩).get? n = some c →
        n = s.closing.next ∧ c = ⟨k, closer⟩ ∨ s.closing.get? n = some c := by
      intro n c hc
      rw [Slots.get?_add] at hc
      split at hc
      · next hn => exact .inl ⟨hn, (Option.some.inj hc).symm⟩
      · exact .inr hc
    refine ⟨h.active, fun n c hc => ?_, fun n c hc => ?_, fun n n' c c' hc hc' heq => ?_,
      h.closed_once⟩
    · rcases hcases n c hc with ⟨-, rfl⟩ | hc
      · exact hk
      · exact h.closing_held n c hc
    · rcases hcases n c hc with ⟨-, rfl⟩ | hc
      · exact hcloser.imp_right And.left
      · exact h.closing_tool n c hc
    · rcases hcases n c hc with ⟨rfl, rfl⟩ | hold
      · rcases hcases n' c' hc' with ⟨rfl, -⟩ | hold'
        · rfl
        · exact absurd heq.symm (hclosing c' (Slots.mem_values.mpr ⟨n', hold'⟩))
      · rcases hcases n' c' hc' with ⟨rfl, rfl⟩ | hold'
        · exact absurd heq (hclosing c (Slots.mem_values.mpr ⟨n, hold⟩))
        · exact h.closing_once n n' c c' hold hold' heq
  · rw [closeSession_of_not_holds hk]
    obtain rfl : closer = .sessionTool := hcloser.resolve_right fun h => hk h.2
    exact h

/-- A session that a tool has closed is one less, in the table and in the metric. -/
theorem Balanced.sessionClosed (hs : s.Sound ids) (h : s.Balanced) :
    (s.sessionClosed n).Balanced := by
  cases hclosing : s.closing.get? n with
  | none =>
    rw [SessionPool.sessionClosed, hclosing]
    exact h
  | some closing =>
    have hheld := h.closing_held n closing hclosing
    obtain ⟨session, hsession⟩ := Option.isSome_iff_exists.mp hheld
    have hsize : (s.manager.sessions.delete closing.sessionId).size + 1 = s.manager.sessions.size :=
      OrderedMap.length_keys_delete hsession
    have hmetrics : (s.metrics.closeReturned closing.closer true).active =
      s.metrics.active - 1 := by
      rcases h.closing_tool n closing hclosing with hcloser | hcloser <;> rw [hcloser] <;> rfl
    have hother : ∀ n' c, (s.sessionClosed n).closing.get? n' = some c →
        n' ≠ n ∧ s.closing.get? n' = some c := by
      intro n' c hc
      rw [SessionPool.sessionClosed, hclosing] at hc
      dsimp only at hc
      rw [Slots.get?_remove] at hc
      split at hc
      · cases hc
      · next hne => exact ⟨hne, hc⟩
    refine ⟨?_, fun n' c hc => ?_, fun n' c hc => ?_, fun n₁ n₂ c c' hc hc' heq => ?_, ?_⟩
    · rw [SessionPool.sessionClosed, hclosing]
      change (s.metrics.closeReturned closing.closer true).active =
        (s.manager.sessions.delete closing.sessionId).size
      have hactive : s.metrics.active = s.manager.sessions.size := h.active
      omega
    · obtain ⟨hne, hc⟩ := hother n' c hc
      refine (holds_sessionClosed hclosing).mpr ⟨fun heq => hne ?_, h.closing_held n' c hc⟩
      exact h.closing_once n' n c closing hc hclosing heq
    · exact h.closing_tool n' c (hother n' c hc).2
    · exact h.closing_once n₁ n₂ c c' (hother n₁ c hc).2 (hother n₂ c' hc').2 heq
    · rw [SessionPool.sessionClosed, hclosing]
      change ((s.closed ++ [closing]).map Closing.sessionId).Nodup
      rw [List.map_append, List.map_singleton]
      refine List.nodup_append.mpr ⟨h.closed_once, List.nodup_singleton _, ?_⟩
      intro a ha b hb hab
      obtain ⟨c, hc, rfl⟩ := List.mem_map.mp ha
      rw [List.mem_singleton.mp hb] at hab
      -- what has been closed is not in the table
      exact hs.closed_gone c hc (hab ▸ hheld)

/-- A session that is stored is one more, in the table and in the metric. -/
theorem Balanced.connected {connection : Except Failure Bool} (hs : s.Sound ids) (h : s.Balanced) :
    (s.connected n connection).Balanced := by
  unfold SessionPool.connected
  split
  · exact h
  · next o ho =>
    cases connection with
    | error =>
      exact ⟨h.active, h.closing_held, h.closing_tool, h.closing_once, h.closed_once⟩
    | ok =>
      have hnew : s.manager.sessions.get? o.sessionId = none := by
        refine Option.not_isSome_iff_eq_none.mp fun hheld => ?_
        obtain ⟨n', r, hdraw, hr⟩ := hs.held_opened _ hheld
        rw [hs.opening_draw n o ho] at hdraw
        obtain rfl := ids.injective hdraw
        exact hs.opening_waits n o _ ho hr
      refine ⟨?_, fun n' c hc => (holds_set rfl).mpr (.inr (h.closing_held n' c hc)),
        h.closing_tool, h.closing_once, h.closed_once⟩
      change s.metrics.active + 1 = (s.manager.sessions.set o.sessionId _).size
      rw [← OrderedMap.length_keys, OrderedMap.keys_set_of_none hnew, List.length_append,
        OrderedMap.length_keys, List.length_singleton, h.active]
      rfl

theorem Balanced.getSession (h : s.Balanced)
    (haccounts : s.Accounts engine (.getSession time k)) : (s.getSession time k).2.Balanced := by
  unfold SessionPool.getSession
  split
  · exact h
  · next session hsession =>
    rw [if_neg (Nat.not_lt.mpr (haccounts session hsession))]
    have hkeys := OrderedMap.keys_set_of_some hsession
    refine ⟨?_, fun n c hc => (holds_set rfl).mpr (.inr (h.closing_held n c hc)), h.closing_tool,
      h.closing_once, h.closed_once⟩
    change s.metrics.active = (s.manager.sessions.set k _).size
    rw [← OrderedMap.length_keys, hkeys, OrderedMap.length_keys, h.active]
    rfl

theorem Balanced.openSession (h : s.Balanced)
    (haccounts : s.Accounts engine (.openSession params now later)) :
    (s.openSession engine ids params now later).Balanced := by
  by_cases hproceeds : s.manager.Proceeds engine params
  · rw [openSession_of_proceeds hproceeds, awaitConnection,
      makeRoom_of_none (haccounts.2 hproceeds)]
    exact ⟨h.active, h.closing_held, h.closing_tool, h.closing_once, h.closed_once⟩
  · obtain ⟨result, metrics, heq, hmetrics, -⟩ :=
      openSession_of_not_proceeds ids now later hproceeds
    rw [heq, hmetrics haccounts.1]
    exact ⟨h.active, h.closing_held, h.closing_tool, h.closing_once, h.closed_once⟩

theorem Balanced.step {e : SessionEvent} (hs : s.Sound ids) (h : s.Balanced)
    (haccounts : s.Accounts engine e) : (step engine ids s e).Balanced := by
  cases e with
  | openSession => exact h.openSession haccounts
  | connected => exact h.connected hs
  | closeSession => exact h.closeSession haccounts (.inl rfl)
  | inspected => exact h.closeSession haccounts.2 (.inr ⟨rfl, haccounts.1⟩)
  | sessionClosed => exact h.sessionClosed hs
  | getSession => exact h.getSession haccounts
  | cleanup time =>
    change (s.cleanupExpiredSessions time).Balanced
    rw [cleanupExpiredSessions, show s.expiredSessions time = [] from haccounts]
    exact h

/-! ### Every run -/

theorem fresh_balanced (manager : SessionManager) : (fresh manager).Balanced where
  active := rfl
  closing_held _ _ h := nomatch h
  closing_tool _ _ h := nomatch h
  closing_once _ _ _ _ h := nomatch h
  closed_once := List.nodup_nil

/-- **The accounting of sessions**: in a run whose steps all account, the metric agrees with the
table whenever no call is in flight, and no session is closed twice. -/
theorem accounted_of_accounts {rt : Runtime} (engine : PolicyEngine rt) (ids : Identifiers)
    (manager : SessionManager) (es : List SessionEvent)
    (h : Run.AllSteps (SessionPool.step engine ids) (Accounts engine) (fresh manager) es) :
    Run.Along (SessionPool.step engine ids) Accounted (fresh manager) es := by
  refine (Run.along_of_preserved (P := fun s => s.Sound ids ∧ s.Balanced) ?_
    ⟨fresh_sound manager, fresh_balanced manager⟩ h).mono fun s hs => hs.2.accounted
  rintro s e ⟨hs, hbalanced⟩ haccounts
  exact ⟨hs.step, hbalanced.step hs haccounts⟩

/-- A session is opened, and closed by the tool. -/
theorem accounted_of_accounts_closed :
    ∃ engine : PolicyEngine sampleRuntime, engine.config = {} ∧
      Run.Along (step engine sampleIdentifiers) Accounted (fresh { maxSessions := 1 })
        [.openSession sampleLogin 0 0, .connected 0 (.ok true), .closeSession "x",
          .sessionClosed 0] := by
  obtain ⟨engine, hengine, hproceeds⟩ := exists_proceeds sampleRuntime
  refine ⟨engine, hengine, accounted_of_accounts engine sampleIdentifiers { maxSessions := 1 } _ ?_⟩
  refine ⟨⟨by decide, fun _ => by decide⟩, trivial, ?_, trivial, trivial⟩
  rw [step_sampleLogin hproceeds]
  exact fun c hc => absurd hc List.not_mem_nil

/-- **A session that was evicted stays counted**: with one session in the table, and no call in
flight, two are active. -/
theorem eviction_unaccounted :
    ∃ engine : PolicyEngine sampleRuntime, engine.config = {} ∧
      ¬ Run.Along (step engine sampleIdentifiers) Accounted (fresh { maxSessions := 1 })
        [.openSession sampleLogin 0 0, .connected 0 (.ok true), .openSession sampleLogin 1 1,
          .sessionClosed 0, .connected 1 (.ok true)] := by
  obtain ⟨engine, hengine, hproceeds⟩ := exists_proceeds sampleRuntime
  have hopen := @step_sampleLogin _ sampleIdentifiers engine hproceeds
  refine ⟨engine, hengine, fun h => ?_⟩
  have hend := h.2.2.2.2.2
  rw [hopen, hopen] at hend
  have hquiet : (((sampleFull.awaitConnection sampleIdentifiers sampleLogin 1 1).sessionClosed
      0).connected 1 (.ok true)).Quiet := ⟨by decide +kernel, by decide +kernel⟩
  have hactive : (((sampleFull.awaitConnection sampleIdentifiers sampleLogin 1 1).sessionClosed
      0).connected 1 (.ok true)).metrics.active = 2 := by decide +kernel
  have hheld : (((sampleFull.awaitConnection sampleIdentifiers sampleLogin 1 1).sessionClosed
      0).connected 1 (.ok true)).held = 1 := by decide +kernel
  have heq := hend.1 hquiet
  exact absurd (hactive.symm.trans (heq.trans hheld)) (by decide)

end SessionPool
end Ssh
