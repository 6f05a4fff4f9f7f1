import Mathlib.Algebra.Order.Archimedean.Basic
import McpSshTool.Ssh.Process

/-!
# Retries

`retry.ts`: a function is called until it succeeds, fails in a way that is not to be retried, or has
been called often enough.

* `withRetry` — the loop, with the calls, the callbacks and the waits that it makes; it may go on
  for ever, so it is run for a number of rounds;
* `ReturnsWith` — what it comes to, in however many rounds;
* `ReturnsWith.cases`, `returnsWith_of_retried` — at which call it ends;
* `exists_returnsWith_iff` — when it ends at all;
* `AccountsForCalls`, `accounts_for_calls_iff` — when its result says what was done.
-/

namespace Ssh

/-! ### Comparing a count with a number -/

/-- `count <= n`. -/
def countLe (count : ℕ) : JsNumber → Bool
  | .nan => false
  | .negInf => false
  | .posInf => true
  | .fin q => (count : ℚ) ≤ q

/-- `count >= n`. -/
def countGe (count : ℕ) : JsNumber → Bool
  | .nan => false
  | .negInf => true
  | .posInf => false
  | .fin q => q ≤ (count : ℚ)

theorem countLe_of_le {k l : ℕ} {n : JsNumber} (h : k ≤ l) (hl : countLe l n = true) :
    countLe k n = true := by
  cases n with
  | nan => cases hl
  | negInf => cases hl
  | posInf => rfl
  | fin =>
    rw [countLe, decide_eq_true_iff] at hl ⊢
    exact (Nat.cast_le.mpr h).trans hl

theorem countLe_succ_of_countGe {k : ℕ} {n : JsNumber} (h : countGe k n = true) :
    countLe (k + 1) n = false := by
  cases n with
  | nan => rfl
  | negInf => rfl
  | posInf => cases h
  | fin =>
    rw [countGe, decide_eq_true_iff] at h
    rw [countLe, decide_eq_false_iff_not, not_le]
    exact h.trans_lt (Nat.cast_lt.mpr (Nat.lt_succ_self k))

theorem countLe_ofInt {k m : ℕ} : countLe k (.ofInt m) = true ↔ k ≤ m := by
  rw [JsNumber.ofInt, countLe, decide_eq_true_iff, Int.cast_natCast, Nat.cast_le]

/-! ### The loop -/

variable {ε α : Type}

/-- `RetryOptions`, of what `withRetry` itself reads. -/
structure RetryOptions (ε : Type) where
  maxAttempts : JsNumber := .ofInt 3
  isRetryable : Option (ε → Bool) := none
  /-- `onRetry` is given. -/
  onRetry : Bool := false

/-- What a call of `withRetry` meets. -/
structure RetryWorld (ε α : Type) where
  /-- What comes of each call of the function, the first call being the call 1. -/
  outcome : ℕ → Except ε α
  /-- `error.message`, of a value that is an `Error`. -/
  message : ε → Option String
  /-- `calculateDelay(attempt, opts)`. -/
  delayMs : ℕ → JsNumber
  startTime : ℤ := 0
  endTime : ℤ := 0

structure RetryResult (ε α : Type) where
  success : Bool
  result : Option α := none
  error : Option ε := none
  attempts : JsNumber
  totalTimeMs : ℤ

/-- What `withRetry` does. -/
inductive RetryEvent (ε : Type) where
  | call (attempt : ℕ)
  | onRetry (attempt : ℕ) (error : ε) (delayMs : JsNumber)
  | sleep (delayMs : JsNumber)

/-- The event is a call of the function. -/
def RetryEvent.isCall : RetryEvent ε → Bool
  | .call _ => true
  | _ => false

/-- How often the function was called. -/
def calls (events : List (RetryEvent ε)) : ℕ := events.countP RetryEvent.isCall

def defaultIsRetryable (message : ε → Option String) (error : ε) : Bool :=
  match message error with
  | none => false
  | some message =>
    ["timeout", "etimedout", "econnreset", "econnrefused", "epipe", "network", "socket hang up"].any
      fun word => includes (JsText.toLowerCase message) word

section Loop

variable (opts : RetryOptions ε) (world : RetryWorld ε α)

/-- The predicate that is asked. -/
def retries : ε → Bool := opts.isRetryable.getD (defaultIsRetryable world.message)

/-- The result of a call that succeeds. -/
def succeeded (result : α) (attempt : ℕ) : RetryResult ε α where
  success := true
  result := some result
  attempts := .ofInt attempt
  totalTimeMs := world.endTime - world.startTime

/-- The result after the loop. -/
def gaveUp (lastError : Option ε) : RetryResult ε α where
  success := false
  error := lastError
  attempts := opts.maxAttempts
  totalTimeMs := world.endTime - world.startTime

/-- The callback and the wait between two calls. -/
def pause (attempt : ℕ) (error : ε) : List (RetryEvent ε) :=
  (if opts.onRetry then [.onRetry attempt error (world.delayMs attempt)] else []) ++
    [.sleep (world.delayMs attempt)]

/-- The loop from an attempt on, for a number of rounds. -/
def retryLoop : ℕ → ℕ → Option ε → Option (List (RetryEvent ε) × RetryResult ε α)
  | 0, _, _ => none
  | rounds + 1, attempt, lastError =>
    if countLe attempt opts.maxAttempts then
      match world.outcome attempt with
      | .ok result => some ([.call attempt], succeeded world result attempt)
      | .error error =>
        if countGe attempt opts.maxAttempts || !retries opts world error then
          some ([.call attempt], gaveUp opts world (some error))
        else
          (retryLoop rounds (attempt + 1) (some error)).map fun rest =>
            (.call attempt :: pause opts world attempt error ++ rest.1, rest.2)
    else some ([], gaveUp opts world lastError)

/-- **`withRetry`**, for a number of rounds; `none` where they do not suffice. -/
def withRetry (rounds : ℕ) : Option (List (RetryEvent ε) × RetryResult ε α) :=
  retryLoop opts world rounds 1 none

/-- **`withRetry` returns the result**, and has done so much by then. -/
def ReturnsWith (events : List (RetryEvent ε)) (result : RetryResult ε α) : Prop :=
  ∃ rounds, withRetry opts world rounds = some (events, result)

/-! ### The end of the loop -/

/-- All calls before this one fail, and are to be retried. -/
def RetriedBefore (k : ℕ) : Prop :=
  ∀ j, 1 ≤ j → j < k → ∃ error, world.outcome j = .error error ∧ retries opts world error = true

/-- **The loop ends at the call with the result.** It succeeds, or it is not to be retried, or there
is none after it. -/
inductive EndsAt (k : ℕ) : RetryResult ε α → Prop
  | success {result : α} (h : world.outcome k = .ok result) : EndsAt k (succeeded world result k)
  | failure {error : ε} (h : world.outcome k = .error error)
      (hlast : retries opts world error = false ∨ countLe (k + 1) opts.maxAttempts = false) :
      EndsAt k (gaveUp opts world (some error))

end Loop

section Ends

variable {opts : RetryOptions ε} {world : RetryWorld ε α} {rounds attempt k : ℕ}
  {lastError : Option ε}
variable {events : List (RetryEvent ε)} {result : RetryResult ε α}

theorem calls_pause (error : ε) : calls (pause opts world attempt error) = 0 := by
  unfold pause calls
  split
  · rfl
  · rfl

theorem calls_cons_pause (error : ε) (events : List (RetryEvent ε)) :
    calls (.call attempt :: pause opts world attempt error ++ events) = calls events + 1 := by
  have hpause : calls (pause opts world attempt error) = 0 := calls_pause error
  unfold calls at hpause ⊢
  rw [List.cons_append, List.countP_cons_of_pos rfl, List.countP_append, hpause, Nat.zero_add]

theorem RetriedBefore.succ {error : ε} (h : RetriedBefore opts world k)
    (herror : world.outcome k = .error error) (hretries : retries opts world error = true) :
    RetriedBefore opts world (k + 1) := by
  intro j hj hlt
  rcases Nat.lt_succ_iff_lt_or_eq.mp hlt with hbefore | rfl
  · exact h j hj hbefore
  · exact ⟨error, herror, hretries⟩

/-- **Where the loop ends**, and how many calls it has made. -/
theorem retryLoop_cases
    (h : retryLoop opts world rounds attempt lastError = some (events, result))
    (hattempt : countLe attempt opts.maxAttempts = true)
    (hbefore : RetriedBefore opts world attempt) :
    ∃ k, attempt ≤ k ∧ countLe k opts.maxAttempts = true ∧ RetriedBefore opts world k ∧
      attempt + calls events = k + 1 ∧ EndsAt opts world k result := by
  induction rounds generalizing attempt lastError events with
  | zero => cases h
  | succ rounds ih =>
    rw [retryLoop, if_pos hattempt] at h
    cases houtcome : world.outcome attempt with
    | ok =>
      rw [houtcome] at h
      obtain ⟨rfl, rfl⟩ := Prod.mk.inj (Option.some.inj h)
      exact ⟨attempt, le_rfl, hattempt, hbefore, rfl, .success houtcome⟩
    | error error =>
      rw [houtcome] at h
      dsimp only at h
      split at h
      · next hgivesUp =>
        obtain ⟨rfl, rfl⟩ := Prod.mk.inj (Option.some.inj h)
        refine ⟨attempt, le_rfl, hattempt, hbefore, rfl, .failure houtcome ?_⟩
        rcases Bool.or_eq_true _ _ |>.mp hgivesUp with hlast | hnot
        · exact .inr (countLe_succ_of_countGe hlast)
        · exact .inl (by simpa using hnot)
      · next hgoesOn =>
        obtain ⟨⟨later, end'⟩, hlater, heq⟩ := Option.map_eq_some_iff.mp h
        obtain ⟨rfl, rfl⟩ := Prod.mk.inj heq
        have hretries : retries opts world error = true := by
          by_contra hnot
          exact hgoesOn (by rw [Bool.eq_false_of_not_eq_true hnot, Bool.not_false, Bool.or_true])
        dsimp only
        rw [calls_cons_pause]
        by_cases hnext : countLe (attempt + 1) opts.maxAttempts = true
        · obtain ⟨k, hle, hk, hretried, hcalls, hend⟩ :=
            ih hlater hnext (hbefore.succ houtcome hretries)
          exact ⟨k, by omega, hk, hretried, by omega, hend⟩
        · -- a number that is no integer: the loop is left in the next round
          cases rounds with
          | zero => cases hlater
          | succ =>
            rw [retryLoop, if_neg hnext] at hlater
            obtain ⟨rfl, rfl⟩ := Prod.mk.inj (Option.some.inj hlater)
            exact ⟨attempt, le_rfl, hattempt, hbefore, rfl,
              .failure houtcome (.inr (Bool.eq_false_of_not_eq_true hnext))⟩

theorem ReturnsWith.cases (hone : countLe 1 opts.maxAttempts = true)
    (h : ReturnsWith opts world events result) :
    1 ≤ calls events ∧ countLe (calls events) opts.maxAttempts = true ∧
      RetriedBefore opts world (calls events) ∧ EndsAt opts world (calls events) result := by
  obtain ⟨rounds, hrounds⟩ := h
  have hnone : RetriedBefore opts world 1 := fun j hj hlt => absurd hj (Nat.not_le.mpr hlt)
  obtain ⟨k, hle, hk, hretried, hcalls, hend⟩ := retryLoop_cases hrounds hone hnone
  obtain rfl : calls events = k := by omega
  exact ⟨hle, hk, hretried, hend⟩

/-- **The loop gets to its end**, and makes every call up to it. -/
theorem retryLoop_of_retried (hk : countLe k opts.maxAttempts = true)
    (hretried : RetriedBefore opts world k)
    (hend : EndsAt opts world k result) (more : ℕ) (hattempt : 1 ≤ attempt)
    (hle : attempt + more = k) :
    ∃ events, retryLoop opts world (more + 2) attempt lastError = some (events, result) ∧
      calls events = more + 1 := by
  induction more generalizing attempt lastError with
  | zero =>
    obtain rfl : attempt = k := hle
    cases hend with
    | success h =>
      refine ⟨[.call attempt], ?_, rfl⟩
      rw [retryLoop, if_pos hk, h]
    | @failure error h hlast =>
      by_cases hgivesUp :
          (countGe attempt opts.maxAttempts || !retries opts world error) = true
      · refine ⟨[.call attempt], ?_, rfl⟩
        rw [retryLoop, if_pos hk, h]
        dsimp only
        rw [if_pos hgivesUp]
      · -- the next round finds that there is no call after this one
        have hretries : retries opts world error = true := by
          by_contra hnot
          exact hgivesUp (by rw [Bool.eq_false_of_not_eq_true hnot, Bool.not_false, Bool.or_true])
        have hnext : countLe (attempt + 1) opts.maxAttempts = false :=
          hlast.resolve_left (by rw [hretries]; exact Bool.noConfusion)
        refine ⟨.call attempt :: pause opts world attempt error ++ [], ?_,
          calls_cons_pause error []⟩
        rw [retryLoop, if_pos hk, h]
        dsimp only
        rw [if_neg hgivesUp, retryLoop, if_neg (by rw [hnext]; exact Bool.false_ne_true)]
        rfl
  | succ more ih =>
    -- this call fails and is retried, and the rest of the loop follows
    obtain ⟨error, herror, hretries⟩ := hretried attempt hattempt (by omega)
    obtain ⟨events, hevents, hcalls⟩ : ∃ events,
        retryLoop opts world (more + 2) (attempt + 1) (some error) = some (events, result) ∧
          calls events = more + 1 :=
      ih (by omega) (by omega)
    have hallowed : countLe attempt opts.maxAttempts = true := countLe_of_le (by omega) hk
    have hmore : countGe attempt opts.maxAttempts = false := by
      by_contra hreached
      have hstop := countLe_succ_of_countGe (Bool.eq_true_of_not_eq_false hreached)
      rw [countLe_of_le (by omega) hk] at hstop
      cases hstop
    refine ⟨.call attempt :: pause opts world attempt error ++ events, ?_, ?_⟩
    · rw [retryLoop, if_pos hallowed, herror]
      dsimp only
      rw [if_neg (by rw [hmore, hretries]; exact Bool.noConfusion), hevents]
      rfl
    · rw [calls_cons_pause, hcalls]

theorem returnsWith_of_retried (hk1 : 1 ≤ k) (hk : countLe k opts.maxAttempts = true)
    (hretried : RetriedBefore opts world k) (hend : EndsAt opts world k result) :
    ∃ events, ReturnsWith opts world events result ∧ calls events = k := by
  obtain ⟨events, hevents, hcalls⟩ : ∃ events,
      retryLoop opts world (k - 1 + 2) 1 none = some (events, result) ∧ calls events = k - 1 + 1 :=
    retryLoop_of_retried hk hretried hend (k - 1) le_rfl (by omega)
  exact ⟨events, ⟨_, hevents⟩, by omega⟩

/-- A call that is not to be followed by another, for what came of it. -/
def SettlesAt (opts : RetryOptions ε) (world : RetryWorld ε α) (k : ℕ) : Prop :=
  ∀ error, world.outcome k = .error error → retries opts world error = false

theorem exists_endsAt
    (hlast : SettlesAt opts world k ∨ countLe (k + 1) opts.maxAttempts = false) :
    ∃ result, EndsAt opts world k result := by
  cases houtcome : world.outcome k with
  | ok => exact ⟨_, .success houtcome⟩
  | error error =>
    exact ⟨_, .failure houtcome (hlast.imp_left fun hsettles => hsettles error houtcome)⟩

/-- **`withRetry` returns**, unless any number of calls is allowed and each of them fails and is to
be retried. -/
theorem exists_returnsWith_iff (hone : countLe 1 opts.maxAttempts = true) :
    (∃ events result, ReturnsWith opts world events result) ↔
      opts.maxAttempts ≠ .posInf ∨ ∃ k, 1 ≤ k ∧ SettlesAt opts world k := by
  constructor
  · rintro ⟨events, result, h⟩
    obtain ⟨hle, -, -, hend⟩ := h.cases hone
    by_cases hinf : opts.maxAttempts = .posInf
    · refine .inr ⟨calls events, hle, fun error herror => ?_⟩
      cases hend with
      | success hvalue =>
        rw [hvalue] at herror
        cases herror
      | failure hfailure hlast =>
        rw [hinf] at hlast
        rw [hfailure] at herror
        obtain rfl := Except.error.inj herror
        exact hlast.resolve_right Bool.noConfusion
    · exact .inl hinf
  · intro h
    -- the first call that is the last one
    have hstop : ∃ k, 1 ≤ k ∧ (SettlesAt opts world k ∨ countLe (k + 1) opts.maxAttempts =
      false) := by
      rcases h with hfinite | ⟨k, hk, hsettles⟩
      · cases hmax : opts.maxAttempts with
        | nan => exact ⟨1, le_rfl, .inr rfl⟩
        | negInf => exact ⟨1, le_rfl, .inr rfl⟩
        | posInf => exact absurd hmax hfinite
        | fin q =>
          obtain ⟨n, hn⟩ := exists_nat_gt q
          refine ⟨n + 1, Nat.le_add_left 1 n, .inr ?_⟩
          rw [countLe, decide_eq_false_iff_not, not_le]
          exact hn.trans (Nat.cast_lt.mpr (by omega))
      · exact ⟨k, hk, .inl hsettles⟩
    classical
    obtain ⟨hk, hlast⟩ := Nat.find_spec hstop
    have hbefore : ∀ j, 1 ≤ j → j < Nat.find hstop →
        ¬SettlesAt opts world j ∧ countLe (j + 1) opts.maxAttempts = true := fun j hj hlt => by
      have hnot := Nat.find_min hstop hlt
      rw [not_and, not_or, Bool.not_eq_false] at hnot
      exact hnot hj
    have hallowed : countLe (Nat.find hstop) opts.maxAttempts = true := by
      rcases Nat.eq_or_lt_of_le hk with hfirst | hlater
      · rw [← hfirst]
        exact hone
      · have hprevious := (hbefore (Nat.find hstop - 1) (by omega) (by omega)).2
        rwa [Nat.sub_add_cancel hk] at hprevious
    have hretried : RetriedBefore opts world (Nat.find hstop) := fun j hj hlt => by
      obtain ⟨hnot, -⟩ := hbefore j hj hlt
      unfold SettlesAt at hnot
      push Not at hnot
      obtain ⟨error, herror, hretries⟩ := hnot
      exact ⟨error, herror, by simpa using hretries⟩
    obtain ⟨result, hend⟩ := exists_endsAt hlast
    obtain ⟨events, hreturns, -⟩ := returnsWith_of_retried hk hallowed hretried hend
    exact ⟨events, result, hreturns⟩

end Ends

/-! ### What the result says -/

section Accounts

variable (opts : RetryOptions ε) (world : RetryWorld ε α)

/-- Some call that is allowed succeeds, and all before it fail and are to be retried. -/
def SucceedsWithin : Prop :=
  ∃ k, 1 ≤ k ∧ countLe k opts.maxAttempts = true ∧ (∃ value, world.outcome k = .ok value) ∧
    RetriedBefore opts world k

/-- **The result accounts for the calls.** -/
structure AccountsForCalls (events : List (RetryEvent ε)) (result : RetryResult ε α) : Prop where
  /-- As many calls were made as are reported, -/
  attempts : result.attempts = .ofInt (calls events)
  /-- and no more than are allowed. -/
  bounded : countLe (calls events) opts.maxAttempts = true
  success_iff : result.success = true ↔ SucceedsWithin opts world
  value : result.success = true → ∃ value, world.outcome (calls events) = .ok value ∧
    result.result = some value
  error : result.success = false → ∃ error, world.outcome (calls events) = .error error ∧
    result.error = some error

variable {opts world}

/-- **When the result accounts for the calls**: a call succeeds after failures that were to be
retried, or the number of attempts is an integer and every call but the last one is such a
failure. -/
theorem accounts_for_calls_iff (hone : countLe 1 opts.maxAttempts = true) :
    (∃ events result, ReturnsWith opts world events result ∧
        AccountsForCalls opts world events result) ↔
      SucceedsWithin opts world ∨
        ∃ m : ℕ, opts.maxAttempts = .ofInt m ∧ RetriedBefore opts world m := by
  constructor
  · rintro ⟨events, result, hreturns, haccounts⟩
    obtain ⟨hle, hallowed, hretried, hend⟩ := hreturns.cases hone
    cases hend with
    | success h => exact .inl ⟨_, hle, hallowed, ⟨_, h⟩, hretried⟩
    | failure => exact .inr ⟨calls events, haccounts.attempts, hretried⟩
  · intro h
    have hsucceeds : SucceedsWithin opts world → ∃ events result,
        ReturnsWith opts world events result ∧ AccountsForCalls opts world events result := by
      rintro ⟨k, hk, hallowed, ⟨value, hvalue⟩, hretried⟩
      obtain ⟨events, hreturns, rfl⟩ :=
        returnsWith_of_retried hk hallowed hretried (.success hvalue)
      refine ⟨events, _, hreturns, rfl, hallowed, ?_, fun _ => ⟨value, hvalue, rfl⟩,
        Bool.noConfusion⟩
      exact iff_of_true rfl ⟨_, hk, hallowed, ⟨value, hvalue⟩, hretried⟩
    rcases h with hwithin | ⟨m, hmax, hretried⟩
    · exact hsucceeds hwithin
    have hm : 1 ≤ m := by
      rw [hmax] at hone
      exact countLe_ofInt.mp hone
    have hallowed : countLe m opts.maxAttempts = true := by
      rw [hmax]
      exact countLe_ofInt.mpr le_rfl
    cases houtcome : world.outcome m with
    | ok value => exact hsucceeds ⟨m, hm, hallowed, ⟨value, houtcome⟩, hretried⟩
    | error error =>
      have hlast : countLe (m + 1) opts.maxAttempts = false := by
        rw [hmax, Bool.eq_false_iff, ne_eq, countLe_ofInt]
        exact Nat.not_succ_le_self m
      obtain ⟨events, hreturns, rfl⟩ :=
        returnsWith_of_retried hm hallowed hretried (.failure houtcome (.inr hlast))
      refine ⟨events, _, hreturns, hmax, hallowed, ?_, Bool.noConfusion,
        fun _ => ⟨error, houtcome, rfl⟩⟩
      refine iff_of_false Bool.false_ne_true ?_
      rintro ⟨k, hk, hkallowed, ⟨value, hvalue⟩, -⟩
      -- a success would be a call before the last one, or the last one itself
      rw [hmax, countLe_ofInt] at hkallowed
      rcases Nat.eq_or_lt_of_le hkallowed with rfl | hlt
      · rw [houtcome] at hvalue
        cases hvalue
      · obtain ⟨error, herror, -⟩ := hretried k hk hlt
        rw [herror] at hvalue
        cases hvalue

end Accounts

/-! ### Samples -/

/-- Every call fails with the same error, a text. -/
def failingWorld (error : String) : RetryWorld String ℕ where
  outcome _ := .error error
  message := some
  delayMs _ := .ofInt 1000

/-- Three time-outs are three attempts. -/
theorem accounts_for_time_outs : ∃ events result,
    ReturnsWith {} (failingWorld "timeout") events result ∧
      AccountsForCalls {} (failingWorld "timeout") events result :=
  (accounts_for_calls_iff (by decide)).mpr
    (.inr ⟨3, rfl, fun _ _ _ => ⟨"timeout", rfl, by decide +kernel⟩⟩)

/-- By default, an error that is not to be retried ends the loop after one call, and three attempts
are reported. -/
theorem one_call_reported_as_three :
    ReturnsWith {} (failingWorld "auth failed") [.call 1]
        (gaveUp {} (failingWorld "auth failed") (some "auth failed")) ∧
      calls ([.call 1] : List (RetryEvent String)) = 1 ∧
      (gaveUp {} (failingWorld "auth failed") (some "auth failed")).attempts = .ofInt 3 ∧
      ¬∃ events result, ReturnsWith {} (failingWorld "auth failed") events result ∧
        AccountsForCalls {} (failingWorld "auth failed") events result := by
  refine ⟨⟨1, ?_⟩, rfl, rfl, ?_⟩
  · have hgivesUp : (countGe 1 (.ofInt 3) ||
        !retries {} (failingWorld "auth failed") "auth failed") = true := by decide +kernel
    rw [withRetry, retryLoop, if_pos (by decide)]
    exact if_pos hgivesUp
  · rintro ⟨events, result, hreturns, haccounts⟩
    obtain ⟨-, -, hretried, hend⟩ := hreturns.cases (by decide)
    cases hend with
    | success h => cases h
    | failure =>
      have hcalls : (3 : ℚ) = ((calls events : ℤ) : ℚ) := JsNumber.fin.inj haccounts.attempts
      have hthree : calls events = 3 := by exact_mod_cast hcalls.symm
      rw [hthree] at hretried
      obtain ⟨error, herror, hretries⟩ := hretried 1 le_rfl (by decide)
      obtain rfl := Except.error.inj herror
      revert hretries
      decide +kernel

end Ssh
