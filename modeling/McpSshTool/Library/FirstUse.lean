import Mathlib.Logic.Function.Basic
import Mathlib.Data.List.Basic

/-!
# Trust on first use

A memory that keeps, for each name, the value that was first presented under it. A later value is
accepted if it is that one.

* `record` — a value is presented; `first` — the value that a log presents first under a name;
* `run_record` — the memory after a log: what it had, and otherwise what the log presents first;
* `accepts_run_iff`, `first_of_accepts` — so from an empty memory, a value is accepted exactly if no
  other was first, and is then the first itself.
-/

namespace Library
namespace FirstUse

variable {κ ν : Type*} [DecidableEq κ]

/-- A value is accepted if nothing else is kept under its name. -/
def Accepts (s : κ → Option ν) (k : κ) (v : ν) : Prop := ∀ w, s k = some w → w = v

/-- A value is presented: it is kept if there is none under its name. -/
def record (s : κ → Option ν) (e : κ × ν) : κ → Option ν :=
  Function.update s e.1 ((s e.1).or (some e.2))

/-- **The value that is presented first** under a name. -/
def first (log : List (κ × ν)) (k : κ) : Option ν := (log.find? fun e => e.1 = k).map Prod.snd

theorem first_append (log log' : List (κ × ν)) (k : κ) :
    first (log ++ log') k = (first log k).or (first log' k) := by
  unfold first
  rw [List.find?_append]
  cases log.find? fun e => e.1 = k <;> rfl

theorem first_singleton (e : κ × ν) (k : κ) : first [e] k = if e.1 = k then some e.2 else none := by
  unfold first
  rw [List.find?_singleton]
  by_cases h : e.1 = k <;> simp [h]

/-- **The memory after a log.** -/
theorem run_record (s : κ → Option ν) (log : List (κ × ν)) (k : κ) :
    log.foldl record s k = (s k).or (first log k) := by
  induction log generalizing s with
  | nil => exact (Option.or_none).symm
  | cons e log ih =>
    rw [List.foldl_cons, ih, ← List.singleton_append, first_append, first_singleton,
      ← Option.or_assoc]
    congr 1
    unfold record
    by_cases hk : e.1 = k
    · subst hk
      rw [Function.update_self, if_pos rfl]
    · rw [Function.update_of_ne (Ne.symm hk), if_neg hk, Option.or_none]

/-- **From an empty memory**, a value is accepted exactly if none but it was first. -/
theorem accepts_run_iff (log : List (κ × ν)) (k : κ) (v : ν) :
    Accepts (log.foldl record fun _ => none) k v ↔ ∀ w, first log k = some w → w = v := by
  unfold Accepts
  rw [run_record, Option.none_or]

theorem first_of_accepts {log : List (κ × ν)} {k : κ} {v : ν}
    (h : Accepts (log.foldl record fun _ => none) k v) : first (log ++ [(k, v)]) k = some v := by
  rw [first_append, first_singleton, if_pos rfl]
  cases hfirst : first log k with
  | none => rfl
  | some w =>
    rw [(accepts_run_iff log k v).mp h w hfirst]
    rfl

end FirstUse
end Library
