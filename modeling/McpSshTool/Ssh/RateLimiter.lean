import Mathlib.Algebra.Order.Group.Int
import McpSshTool.Library.OrderedMap
import McpSshTool.Library.SlidingWindow

/-!
# The rate limiter

`rate-limiter.ts`: a log of times for each key, trimmed by each check and by a cleaner.

* `RateLimiter.check`, `RateLimiter.pruneExpiredLogs` — the code;
* `answer` — what a check comes to after a run of checks and cleanings; `acceptedTimes` — when the
  checks of a key were accepted in a run;
* `Exact` — the limiter against the window; `rate_limiter_exact`: after every run.

The clock is the time of each event. That the log of a key agrees with the times of its accepted
checks in the window, and is no longer than the limit, is the invariant (`Follows`).
-/

open Library

namespace Ssh

structure RateLimiterConfig where
  maxRequests : ℕ := 100
  windowMs : ℤ := 60000
  blockOnLimit : Bool := true

structure RateLimitResult where
  allowed : Bool
  remaining : ℕ
  resetIn : ℤ
  blocked : Bool
deriving DecidableEq, Repr

/-- The logs of a `RateLimiter`. -/
abbrev RateLimitLogs := OrderedMap String (List ℤ)

namespace RateLimiter

variable (config : RateLimiterConfig)

/-- The log of a key, empty where there is none. -/
def logOf (logs : RateLimitLogs) (key : String) : List ℤ := (logs.get? key).getD []

/-- The result of a check on a log that has been trimmed, and the log after it. -/
def checkLog (log : List ℤ) (now : ℤ) : RateLimitResult × List ℤ :=
  if log.length ≥ config.maxRequests then
    let oldestInWindow := log.headD now
    (⟨!config.blockOnLimit, 0, oldestInWindow + config.windowMs - now, config.blockOnLimit⟩, log)
  else
    let log := log ++ [now]
    (⟨true, config.maxRequests - log.length, config.windowMs, false⟩, log)

def check (logs : RateLimitLogs) (key : String) (now : ℤ) : RateLimitResult × RateLimitLogs :=
  let cutoff := now - config.windowMs
  let decided := checkLog config (SlidingWindow.trim cutoff (logOf logs key)) now
  (decided.1, logs.set key decided.2)

def pruneExpiredLogs (logs : RateLimitLogs) (now : ℤ) : RateLimitLogs :=
  let cutoff := now - config.windowMs
  (logs.mapValues (SlidingWindow.inWindow cutoff)).filter fun _ activeLog => !activeLog.isEmpty

/-! ### Runs -/

/-- A check of a key, or the timer of the cleaner. -/
inductive Operation where
  | check (key : String)
  | prune
deriving DecidableEq

/-- An operation at a time. -/
structure Event where
  now : ℤ
  operation : Operation
deriving DecidableEq

/-- What an event makes of the logs. -/
def step (logs : RateLimitLogs) (e : Event) : RateLimitLogs :=
  match e.operation with
  | .check key => (check config logs key e.now).2
  | .prune => pruneExpiredLogs config logs e.now

/-- The logs after a run. -/
def logsAfter (logs : RateLimitLogs) (events : List Event) : RateLimitLogs :=
  events.foldl (step config) logs

/-- What a check comes to after a run of a new limiter. -/
def answer (events : List Event) (key : String) (now : ℤ) : RateLimitResult :=
  (check config (logsAfter config .empty events) key now).1

/-- When the checks of a key are accepted in a run. -/
def acceptedFrom (key : String) : RateLimitLogs → List Event → List ℤ
  | _, [] => []
  | logs, e :: events =>
    let accepted := e.operation = .check key ∧ (check config logs key e.now).1.allowed
    (if accepted then [e.now] else []) ++ acceptedFrom key (step config logs e) events

/-- When the checks of a key are accepted in a run of a new limiter. -/
def acceptedTimes (key : String) (events : List Event) : List ℤ :=
  acceptedFrom config key .empty events

/-- Times that never go back, up to a last one. -/
def InOrder (events : List Event) (now : ℤ) : Prop :=
  (events.map Event.now ++ [now]).Pairwise (· ≤ ·)

instance (events : List Event) (now : ℤ) : Decidable (InOrder events now) :=
  inferInstanceAs (Decidable (List.Pairwise _ _))

/-- **The limiter is exact** at a check of a key, after a run. -/
structure Exact (events : List Event) (key : String) (now : ℤ) : Prop where
  /-- It accepts while fewer than `maxRequests` checks of the key were accepted in the window. -/
  accepts_iff : (answer config events key now).allowed = true ↔
    ((acceptedTimes config key events).filter fun t =>
      now - config.windowMs < t ∧ t ≤ now).length < config.maxRequests
  /-- Where it refuses, there is a time to wait. -/
  resetIn_pos : (answer config events key now).allowed = false →
    0 < (answer config events key now).resetIn
  /-- After exactly that time it accepts, whatever else was done but checks of the key. -/
  accepts_after : (answer config events key now).allowed = false →
    ∀ later : List Event, (∀ e ∈ later, e.operation ≠ .check key) →
      let next := now + (answer config events key now).resetIn
      InOrder (events ++ ⟨now, .check key⟩ :: later) next →
        (answer config (events ++ ⟨now, .check key⟩ :: later) key next).allowed = true
  /-- What was cleaned, and the checks of other keys, make no difference. -/
  unaffected : ∀ keep : Event → Bool, (∀ e, e.operation = .check key → keep e = true) →
    answer config (events.filter keep) key now = answer config events key now

/-! ### The log of a key -/

/-- **The log of a key follows a history** of accepted checks, at a time. -/
structure Follows (key : String) (logs : RateLimitLogs) (history : List ℤ) (now : ℤ) : Prop where
  agrees : SlidingWindow.Agrees (now - config.windowMs) (logOf logs key) history
  past : ∀ t ∈ logOf logs key, t ≤ now
  history_past : ∀ t ∈ history, t ≤ now
  length_le : (logOf logs key).length ≤ config.maxRequests

variable {config} {logs : RateLimitLogs} {key other : String} {history : List ℤ} {now next : ℤ}

theorem logOf_set (logs : RateLimitLogs) (key other : String) (log : List ℤ) :
    logOf (logs.set other log) key = if key = other then log else logOf logs key := by
  unfold logOf
  rw [OrderedMap.get?_set]
  split <;> rfl

theorem logOf_check (logs : RateLimitLogs) (key other : String) (now : ℤ) :
    logOf (check config logs other now).2 key =
      if key = other then
        (checkLog config (SlidingWindow.trim (now - config.windowMs) (logOf logs key)) now).2
      else logOf logs key := by
  refine (logOf_set _ _ _ _).trans ?_
  split
  · next h => rw [h]
  · rfl

theorem logOf_pruneExpiredLogs (logs : RateLimitLogs) (key : String) (now : ℤ) :
    logOf (pruneExpiredLogs config logs now) key =
      SlidingWindow.inWindow (now - config.windowMs) (logOf logs key) := by
  unfold logOf pruneExpiredLogs
  dsimp only
  rw [OrderedMap.get?_filter, OrderedMap.get?_mapValues]
  cases logs.get? key with
  | none => rfl
  | some log =>
    cases hlog : SlidingWindow.inWindow (now - config.windowMs) log with
    | nil => simp [Option.filter, hlog]
    | cons => simp [Option.filter, hlog]

/-! ### What an event does to the log of a key -/

/-- The result of a check, from the history. -/
def verdict (config : RateLimiterConfig) (history : List ℤ) (now : ℤ) : RateLimitResult :=
  (checkLog config (SlidingWindow.inWindow (now - config.windowMs) history) now).1

theorem verdict_allowed (hblock : config.blockOnLimit = true) :
    (verdict config history now).allowed = true ↔
      (SlidingWindow.inWindow (now - config.windowMs) history).length < config.maxRequests := by
  unfold verdict checkLog
  split
  · next hfull => simp [hblock, Nat.not_lt.mpr hfull]
  · next hroom => simp [Nat.lt_of_not_ge hroom]

namespace Follows

theorem start (now : ℤ) : Follows config key .empty [] now where
  agrees := .nil _
  past _ ht := absurd ht List.not_mem_nil
  history_past _ ht := absurd ht List.not_mem_nil
  length_le := Nat.zero_le _

theorem later (h : Follows config key logs history now) (hnow : now ≤ next) :
    Follows config key logs history next where
  agrees := h.agrees.later (Int.sub_le_sub_right hnow _)
  past t ht := (h.past t ht).trans hnow
  history_past t ht := (h.history_past t ht).trans hnow
  length_le := h.length_le

theorem check_eq (h : Follows config key logs history now) :
    (check config logs key now).1 = verdict config history now := by
  rw [verdict, ← h.agrees.trim_eq]
  rfl

theorem prune (h : Follows config key logs history now) :
    Follows config key (pruneExpiredLogs config logs now) history now := by
  have hsub : ∀ t ∈ SlidingWindow.inWindow (now - config.windowMs) (logOf logs key),
      t ∈ logOf logs key := fun t ht => (SlidingWindow.mem_inWindow.mp ht).1
  constructor
  · rw [logOf_pruneExpiredLogs]
    exact h.agrees.keep
  · rw [logOf_pruneExpiredLogs]
    exact fun t ht => h.past t (hsub t ht)
  · exact h.history_past
  · rw [logOf_pruneExpiredLogs]
    exact (List.length_filter_le _ _).trans h.length_le

theorem check_of_ne (h : Follows config key logs history now) (hne : key ≠ other) :
    Follows config key (check config logs other now).2 history now := by
  have hlog : logOf (check config logs other now).2 key = logOf logs key := by
    rw [logOf_check, if_neg hne]
  exact ⟨hlog ▸ h.agrees, hlog ▸ h.past, h.history_past, hlog ▸ h.length_le⟩

/-- A check of the key logs its time if it is accepted. -/
theorem check (h : Follows config key logs history now) (hblock : config.blockOnLimit = true) :
    Follows config key (check config logs key now).2
      (history ++ if (RateLimiter.check config logs key now).1.allowed then [now] else []) now := by
  have htrim := h.agrees.trim
  have hsub : ∀ t ∈ SlidingWindow.trim (now - config.windowMs) (logOf logs key), t ≤ now :=
    fun t ht => h.past t ((List.dropWhile_sublist _).subset ht)
  have hallowed : (verdict config history now).allowed = true ↔ _ := verdict_allowed hblock
  rw [← h.check_eq, ← h.agrees.trim_eq] at hallowed
  have hlog : logOf (RateLimiter.check config logs key now).2 key =
      (checkLog config (SlidingWindow.trim (now - config.windowMs) (logOf logs key)) now).2 := by
    rw [logOf_check, if_pos rfl]
  unfold checkLog at hlog
  by_cases hroom : (SlidingWindow.trim (now - config.windowMs) (logOf logs key)).length <
      config.maxRequests
  · rw [if_neg (Nat.not_le.mpr hroom)] at hlog
    rw [if_pos (hallowed.mpr hroom)]
    constructor
    · rw [hlog]
      exact htrim.push hsub
    · rw [hlog]
      intro t ht
      rcases List.mem_append.mp ht with ht | ht
      · exact hsub t ht
      · exact (List.mem_singleton.mp ht).le
    · intro t ht
      rcases List.mem_append.mp ht with ht | ht
      · exact h.history_past t ht
      · exact (List.mem_singleton.mp ht).le
    · rw [hlog]
      dsimp only
      rw [List.length_append]
      exact hroom
  · rw [if_pos (Nat.le_of_not_lt hroom)] at hlog
    rw [if_neg fun hyes => hroom (hallowed.mp hyes), List.append_nil]
    refine ⟨hlog ▸ htrim, hlog ▸ hsub, h.history_past, ?_⟩
    rw [hlog]
    exact ((List.dropWhile_sublist _).length_le).trans h.length_le

/-- **An event keeps the log and the history together.** -/
theorem step {e : Event} (h : Follows config key logs history now)
    (hblock : config.blockOnLimit = true) (hnow : now ≤ e.now) :
    Follows config key (RateLimiter.step config logs e)
      (history ++ if e.operation = .check key ∧
        (RateLimiter.check config logs key e.now).1.allowed then [e.now] else []) e.now := by
  have h := h.later hnow
  obtain ⟨time, operation⟩ := e
  cases operation with
  | prune =>
    have hprune := h.prune
    rw [if_neg fun hcheck => nomatch hcheck.1]
    exact (List.append_nil history).symm ▸ hprune
  | check other =>
    by_cases hkey : key = other
    · subst hkey
      have hkeep := h.check hblock
      simp only [true_and]
      exact hkeep
    · have hkeep := h.check_of_ne hkey
      rw [if_neg fun hcheck => hkey (Operation.check.inj hcheck.1).symm]
      exact (List.append_nil history).symm ▸ hkeep

end Follows

/-! ### Runs in order -/

theorem InOrder.tail {e : Event} {events : List Event} (h : InOrder (e :: events) now) :
    InOrder events now ∧ (∀ e' ∈ events, e.now ≤ e'.now) ∧ e.now ≤ now := by
  obtain ⟨hle, htail⟩ := List.pairwise_cons.mp h
  refine ⟨htail, fun e' he' => hle _ ?_, hle _ ?_⟩
  · exact List.mem_append_left _ (List.mem_map_of_mem he')
  · exact List.mem_append_right _ (List.mem_singleton_self _)

theorem InOrder.filter {events : List Event} (h : InOrder events now) (keep : Event → Bool) :
    InOrder (events.filter keep) now :=
  h.sublist ((List.filter_sublist.map Event.now).append_right [now])

theorem InOrder.exists_start {events : List Event} (h : InOrder events now) :
    ∃ start ≤ now, ∀ e ∈ events, start ≤ e.now := by
  cases events with
  | nil => exact ⟨now, le_rfl, fun _ he => absurd he List.not_mem_nil⟩
  | cons e =>
    obtain ⟨-, hle, hnow⟩ := h.tail
    refine ⟨e.now, hnow, fun e' he' => ?_⟩
    rcases List.mem_cons.mp he' with rfl | he'
    · exact le_rfl
    · exact hle e' he'

/-- **A run keeps the log and the history together.** -/
theorem Follows.run (hblock : config.blockOnLimit = true) {events : List Event} {start : ℤ}
    (h : Follows config key logs history start) (hstart : ∀ e ∈ events, start ≤ e.now)
    (hnow : start ≤ now) (horder : InOrder events now) :
    Follows config key (logsAfter config logs events)
      (history ++ acceptedFrom config key logs events) now := by
  induction events generalizing logs history start with
  | nil =>
    rw [acceptedFrom, List.append_nil]
    exact h.later hnow
  | cons e events ih =>
    obtain ⟨htail, hle, hlast⟩ := horder.tail
    rw [acceptedFrom, ← List.append_assoc]
    exact ih (h.step hblock (hstart e List.mem_cons_self)) hle hlast htail

theorem follows_after (hblock : config.blockOnLimit = true) {events : List Event}
    (horder : InOrder events now) :
    Follows config key (logsAfter config .empty events) (acceptedTimes config key events) now := by
  obtain ⟨start, hnow, hstart⟩ := horder.exists_start
  exact (Follows.start start).run hblock hstart hnow horder

theorem answer_eq (hblock : config.blockOnLimit = true) {events : List Event}
    (horder : InOrder events now) :
    answer config events key now = verdict config (acceptedTimes config key events) now :=
  (follows_after hblock horder).check_eq

theorem acceptedFrom_append (events events' : List Event) (logs : RateLimitLogs) :
    acceptedFrom config key logs (events ++ events') =
      acceptedFrom config key logs events ++
        acceptedFrom config key (logsAfter config logs events) events' := by
  induction events generalizing logs with
  | nil => rfl
  | cons e events ih =>
    rw [List.cons_append, acceptedFrom, ih, acceptedFrom, List.append_assoc]
    rfl

theorem acceptedFrom_of_none {events : List Event}
    (h : ∀ e ∈ events, e.operation ≠ .check key) (logs : RateLimitLogs) :
    acceptedFrom config key logs events = [] := by
  induction events generalizing logs with
  | nil => rfl
  | cons e events ih =>
    rw [acceptedFrom, if_neg fun haccepted => h e List.mem_cons_self haccepted.1,
      ih fun e' he' => h e' (List.mem_cons_of_mem _ he')]
    rfl

/-- **What is left out of a run** makes no difference to a key, unless it is a check of it. -/
theorem acceptedFrom_filter (hblock : config.blockOnLimit = true) {keep : Event → Bool}
    (hkeep : ∀ e, e.operation = .check key → keep e = true) {events : List Event} {start : ℤ}
    {logs' : RateLimitLogs} (h : Follows config key logs history start)
    (h' : Follows config key logs' history start) (hstart : ∀ e ∈ events, start ≤ e.now)
    (horder : InOrder events now) :
    acceptedFrom config key logs' (events.filter keep) = acceptedFrom config key logs events := by
  induction events generalizing logs logs' history start with
  | nil => rfl
  | cons e events ih =>
    obtain ⟨htail, hle, -⟩ := horder.tail
    have hfirst := hstart e List.mem_cons_self
    have hstep := h.step hblock hfirst
    -- the two runs come to the same where the event is a check of the key
    have hsame : (check config logs' key e.now).1 = (check config logs key e.now).1 :=
      (h'.later hfirst).check_eq.trans (h.later hfirst).check_eq.symm
    cases hkept : keep e with
    | true =>
      have hstep' := h'.step hblock hfirst
      rw [List.filter_cons_of_pos hkept, acceptedFrom, acceptedFrom, hsame]
      rw [hsame] at hstep'
      rw [ih hstep hstep' hle htail]
    | false =>
      have hother : ¬ (e.operation = .check key ∧ (check config logs key e.now).1.allowed = true) :=
        fun hcheck => Bool.false_ne_true (hkept.symm.trans (hkeep e hcheck.1))
      rw [if_neg hother, List.append_nil] at hstep
      rw [List.filter_cons_of_neg (by rw [hkept]; exact Bool.false_ne_true), acceptedFrom,
        if_neg hother, List.nil_append]
      exact ih hstep (h'.later hfirst) hle htail

/-! ### Exactness -/

/-- Where a check is refused, the oldest time in the window says how long. -/
theorem refused_cases (hblock : config.blockOnLimit = true) (hmax : 1 ≤ config.maxRequests)
    (h : (verdict config history now).allowed = false) :
    ∃ oldest rest, SlidingWindow.inWindow (now - config.windowMs) history = oldest :: rest ∧
      (verdict config history now).resetIn = oldest + config.windowMs - now := by
  have hfull : ¬ (SlidingWindow.inWindow (now - config.windowMs) history).length <
      config.maxRequests := fun hroom =>
    Bool.false_ne_true (h.symm.trans ((verdict_allowed hblock).mpr hroom))
  cases hwindow : SlidingWindow.inWindow (now - config.windowMs) history with
  | nil =>
    rw [hwindow] at hfull
    exact absurd hmax hfull
  | cons oldest rest =>
    refine ⟨oldest, rest, rfl, ?_⟩
    rw [verdict, checkLog, if_pos (Nat.le_of_not_lt hfull), hwindow]
    rfl

/-- **The rate limiter is exact**: a check is accepted while fewer than `maxRequests` checks of its
key were accepted in the window; a refusal says how long to wait; and neither the cleaner nor other
keys make a difference. -/
theorem rate_limiter_exact (config : RateLimiterConfig) (hblock : config.blockOnLimit = true)
    (hmax : 1 ≤ config.maxRequests) (events : List Event) (key : String) (now : ℤ)
    (horder : InOrder events now) : Exact config events key now := by
  have hfollows : Follows config key _ (acceptedTimes config key events) now :=
    follows_after hblock horder
  have hanswer : answer config events key now = _ := answer_eq hblock horder
  refine ⟨?_, fun hrefused => ?_, ?_, fun keep hkeep => ?_⟩
  · rw [hanswer, verdict_allowed hblock]
    -- no accepted time is after now
    have hwindow : ((acceptedTimes config key events).filter fun t =>
        now - config.windowMs < t ∧ t ≤ now) =
          SlidingWindow.inWindow (now - config.windowMs) (acceptedTimes config key events) := by
      refine List.filter_congr fun t ht => ?_
      rw [decide_eq_decide]
      exact ⟨And.left, fun h => ⟨h, hfollows.history_past t ht⟩⟩
    rw [hwindow]
  · rw [hanswer] at hrefused ⊢
    obtain ⟨oldest, rest, hwindow, hreset⟩ := refused_cases hblock hmax hrefused
    have hin : now - config.windowMs < oldest :=
      (SlidingWindow.mem_inWindow.mp (hwindow ▸ List.mem_cons_self)).2
    rw [hreset]
    omega
  · -- the time of the wait is when the oldest time leaves the window
    intro hrefused later hlater next hnext
    -- no request is accepted until then
    have haccepted : acceptedTimes config key (events ++ ⟨now, .check key⟩ :: later) =
        acceptedTimes config key events := by
      have hnone : ¬ (Operation.check key = .check key ∧
          (check config (logsAfter config .empty events) key now).1.allowed = true) :=
        fun hcheck => Bool.false_ne_true (hrefused.symm.trans hcheck.2)
      unfold acceptedTimes
      rw [acceptedFrom_append, acceptedFrom, if_neg hnone, List.nil_append,
        acceptedFrom_of_none hlater, List.append_nil]
    rw [answer_eq hblock hnext, verdict_allowed hblock, haccepted]
    rw [hanswer] at hrefused
    obtain ⟨oldest, rest, hwindow, hreset⟩ := refused_cases hblock hmax hrefused
    have hmark : next - config.windowMs = oldest := by
      change now + (answer config events key now).resetIn - config.windowMs = oldest
      rw [hanswer, hreset]
      omega
    have hlength : (SlidingWindow.inWindow (now - config.windowMs)
        (acceptedTimes config key events)).length ≤ config.maxRequests := by
      rw [← hfollows.agrees.same _ le_rfl]
      exact (List.length_filter_le _ _).trans hfollows.length_le
    rw [hmark]
    exact Nat.lt_of_lt_of_le (SlidingWindow.length_inWindow_head hwindow) hlength
  · -- requests of other keys count for nothing
    obtain ⟨start, -, hstart⟩ := horder.exists_start
    have hsame : acceptedTimes config key (events.filter keep) = acceptedTimes config key events :=
      acceptedFrom_filter hblock hkeep (.start start) (.start start) hstart horder
    rw [answer_eq hblock (horder.filter keep), hsame, hanswer]

/-- One request in ten milliseconds: the second, five milliseconds later, is refused. -/
theorem rate_limiter_exact_second :
    Exact { maxRequests := 1, windowMs := 10 } [⟨0, .check "a"⟩, ⟨3, .prune⟩] "a" 5 :=
  rate_limiter_exact { maxRequests := 1, windowMs := 10 } rfl (Nat.le_refl 1) _ "a" 5 (by decide)

end RateLimiter
end Ssh
