import Mathlib.Data.List.Basic

/-!
# Computations that call an environment

A computation that makes calls to its environment and may fail, seen from outside: the calls it has
made, in order, and how it ended. What the environment answers is a parameter of the computation, so
a run of it is a value and not a process.

* `perform`, `fail`, and the monad structure;
* `Makes` — the computation makes a call of a kind;
* `PassesOn` — a call that the environment answers with an error ends the computation with that
  error;
* `FailsBy` — a computation fails by such a call or in a way of its own.

Both properties are proved of a computation piece by piece, with one lemma for each way to build it.
-/

namespace Library

/-- The calls a computation has made, and how it ended. -/
structure Traced (κ ε α : Type) where
  calls : List κ
  result : Except ε α

namespace Traced

variable {κ ε α β : Type}

/-- A computation that makes one call and ends with the answer. -/
def perform (call : κ) (answer : Except ε α) : Traced κ ε α := ⟨[call], answer⟩

/-- A computation that fails. -/
def fail (e : ε) : Traced κ ε α := ⟨[], .error e⟩

/-- Run one computation after another, unless the first fails. -/
def andThen (x : Traced κ ε α) (f : α → Traced κ ε β) : Traced κ ε β :=
  match x.result with
  | .ok a => ⟨x.calls ++ (f a).calls, (f a).result⟩
  | .error e => ⟨x.calls, .error e⟩

instance : Monad (Traced κ ε) where
  pure a := ⟨[], .ok a⟩
  bind := andThen

/-- A value that may be missing; it makes no call. -/
def require (e : ε) : Option α → Traced κ ε α
  | some a => pure a
  | none => fail e

@[simp] theorem calls_pure (a : α) : (pure a : Traced κ ε α).calls = [] := rfl

@[simp] theorem calls_fail (e : ε) : (fail e : Traced κ ε α).calls = [] := rfl

@[simp] theorem calls_perform (call : κ) (answer : Except ε α) :
    (perform call answer).calls = [call] := rfl

theorem bind_of_ok {x : Traced κ ε α} {a : α} (h : x.result = .ok a) (f : α → Traced κ ε β) :
    x >>= f = ⟨x.calls ++ (f a).calls, (f a).result⟩ := by
  show andThen x f = _
  rw [andThen, h]

theorem bind_of_error {x : Traced κ ε α} {e : ε} (h : x.result = .error e)
    (f : α → Traced κ ε β) : x >>= f = ⟨x.calls, .error e⟩ := by
  show andThen x f = _
  rw [andThen, h]

@[simp] theorem fail_bind (e : ε) (f : α → Traced κ ε β) :
    (fail e : Traced κ ε α) >>= f = fail e := rfl

@[simp] theorem require_some_bind (e : ε) (a : α) (f : α → Traced κ ε β) :
    (require e (some a) : Traced κ ε α) >>= f = f a := rfl

@[simp] theorem require_none_bind (e : ε) (f : α → Traced κ ε β) :
    (require e none : Traced κ ε α) >>= f = fail e := rfl

/-! ### Calls of a kind -/

section Makes

variable {P : κ → Prop}

/-- The computation makes a call of a kind. -/
def Makes (P : κ → Prop) (x : Traced κ ε α) : Prop := ∃ call ∈ x.calls, P call

theorem makes_fail {e : ε} : ¬Makes P (fail e : Traced κ ε α) := by
  rintro ⟨call, hcall, -⟩
  exact absurd hcall List.not_mem_nil

theorem makes_perform {call : κ} {answer : Except ε α} :
    Makes P (perform call answer) ↔ P call := by
  constructor
  · rintro ⟨call', hcall, h⟩
    rwa [List.mem_singleton.mp hcall] at h
  · exact fun h => ⟨call, List.mem_singleton_self _, h⟩

/-- **A call of one part or of the next**, if it comes to that. -/
theorem makes_bind {x : Traced κ ε α} {f : α → Traced κ ε β} :
    Makes P (x >>= f) ↔ Makes P x ∨ ∃ a, x.result = .ok a ∧ Makes P (f a) := by
  cases hresult : x.result with
  | error =>
    rw [bind_of_error hresult]
    exact (or_iff_left fun ⟨_, h, _⟩ => nomatch h).symm
  | ok a =>
    rw [bind_of_ok hresult]
    constructor
    · rintro ⟨call, hcall, h⟩
      rcases List.mem_append.mp hcall with hcall | hcall
      · exact .inl ⟨call, hcall, h⟩
      · exact .inr ⟨a, rfl, call, hcall, h⟩
    · rintro (⟨call, hcall, h⟩ | ⟨a', ha, call, hcall, h⟩)
      · exact ⟨call, List.mem_append_left _ hcall, h⟩
      · obtain rfl := Except.ok.inj ha
        exact ⟨call, List.mem_append_right _ hcall, h⟩

theorem makes_require_bind {e : ε} {a : Option α} {f : α → Traced κ ε β} :
    Makes P (require e a >>= f) ↔ ∃ x, a = some x ∧ Makes P (f x) := by
  cases a with
  | none =>
    rw [require_none_bind]
    exact iff_of_false makes_fail fun ⟨_, h, _⟩ => nomatch h
  | some => simp

end Makes

/-! ### Errors of the environment -/

section Errors

variable (raises : κ → Option ε)

/-- A call that is answered with an error ends the computation with it. -/
def PassesOn (x : Traced κ ε α) : Prop :=
  ∀ call ∈ x.calls, ∀ e, raises call = some e → x.result = .error e

/-- The computation fails in a way of its own, or by a call that is answered with an error. -/
def FailsBy (own : ε → Prop) (x : Traced κ ε α) : Prop :=
  ∀ e, x.result = .error e → own e ∨ ∃ call ∈ x.calls, raises call = some e

/-- Both at once: errors of the environment come out, and nothing else does but the computation's
own failures. -/
structure Transparent (own : ε → Prop) (x : Traced κ ε α) : Prop where
  passesOn : PassesOn raises x
  failsBy : FailsBy raises own x

variable {raises} {own : ε → Prop}

theorem transparent_pure (a : α) : Transparent raises own (pure a : Traced κ ε α) where
  passesOn call h := absurd h List.not_mem_nil
  failsBy e h := by
    change (Except.ok a : Except ε α) = .error e at h
    exact absurd h (by simp)

theorem transparent_fail {e : ε} (h : own e) :
    Transparent raises own (fail e : Traced κ ε α) where
  passesOn call hcall := absurd hcall List.not_mem_nil
  failsBy e' he := by
    obtain rfl := Except.error.inj he
    exact .inl h

theorem transparent_require {e : ε} (h : own e) (a : Option α) :
    Transparent raises own (require e a : Traced κ ε α) := by
  cases a with
  | none => exact transparent_fail h
  | some a => exact transparent_pure a

theorem transparent_perform {call : κ} {answer : Except ε α}
    (h : ∀ e, raises call = some e ↔ answer = .error e) :
    Transparent raises own (perform call answer) where
  passesOn call' hcall e he := by
    rw [List.mem_singleton.mp hcall] at he
    exact (h e).mp he
  failsBy e he := .inr ⟨call, List.mem_singleton_self _, (h e).mpr he⟩

theorem transparent_bind {x : Traced κ ε α} {f : α → Traced κ ε β}
    (hx : Transparent raises own x) (hf : ∀ a, Transparent raises own (f a)) :
    Transparent raises own (x >>= f) := by
  cases hresult : x.result with
  | error e =>
    rw [bind_of_error hresult]
    refine ⟨fun call hcall e' he' => ?_, fun e' he' => ?_⟩
    · have hpassed := hresult.symm.trans (hx.passesOn call hcall e' he')
      exact congrArg Except.error (Except.error.inj hpassed)
    · obtain rfl : e = e' := Except.error.inj he'
      exact hx.failsBy e hresult
  | ok a =>
    rw [bind_of_ok hresult]
    refine ⟨fun call hcall e' he' => ?_, fun e' he' => ?_⟩
    · -- no call of the first part was answered with an error, for the first part went through
      rcases List.mem_append.mp hcall with hcall | hcall
      · exact absurd (hresult.symm.trans (hx.passesOn call hcall e' he')) (by simp)
      · exact (hf a).passesOn call hcall e' he'
    · rcases (hf a).failsBy e' he' with h | ⟨call, hcall, h⟩
      · exact .inl h
      · exact .inr ⟨call, List.mem_append_right _ hcall, h⟩

end Errors

end Traced
end Library
