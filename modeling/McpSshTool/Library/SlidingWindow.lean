import Mathlib.Order.Lattice
import Mathlib.Data.List.Basic

/-!
# Sliding windows

A log of times that is trimmed as a window moves on, against the history of all times that were
logged. The window has a mark at its lower end; what is at the mark or before is out of it.

* `Agrees` — beyond the mark, and beyond any later one, the log and the history are the same;
* `Agrees.trim`, `Agrees.keep`, `Agrees.push` — what may be done to the log: drop what is out of the
  window from the front, keep what is in it, add the next time;
* `Agrees.trim_eq` — the trimmed log is the part of the history in the window.
-/

namespace Library
namespace SlidingWindow

variable {τ : Type} [LinearOrder τ]

/-- The log without what is at the mark or before, taken from the front. -/
def trim (mark : τ) (log : List τ) : List τ := log.dropWhile fun t => decide (t ≤ mark)

/-- The part of a log that is in the window. -/
def inWindow (mark : τ) (log : List τ) : List τ := log.filter fun t => decide (mark < t)

/-- **The log agrees with the history** in the window, and in every later one. -/
structure Agrees (mark : τ) (log history : List τ) : Prop where
  sorted : log.Pairwise (· ≤ ·)
  same : ∀ m, mark ≤ m → inWindow m log = inWindow m history

variable {mark mark' t : τ} {log history : List τ}

theorem mem_inWindow : t ∈ inWindow mark log ↔ t ∈ log ∧ mark < t := by
  rw [inWindow, List.mem_filter, decide_eq_true_eq]

/-- A sorted log has what is out of the window at its front. -/
theorem trim_eq_inWindow (h : log.Pairwise (· ≤ ·)) : trim mark log = inWindow mark log := by
  induction log with
  | nil => rfl
  | cons t log ih =>
    obtain ⟨hle, hlog⟩ := List.pairwise_cons.mp h
    unfold trim inWindow at ih ⊢
    by_cases ht : t ≤ mark
    · rw [List.dropWhile_cons, if_pos (decide_eq_true ht), ih hlog, List.filter_cons,
        if_neg (by simpa using ht)]
    · have hin : ∀ t' ∈ t :: log, mark < t' := by
        intro t' ht'
        rcases List.mem_cons.mp ht' with rfl | ht'
        · exact lt_of_not_ge ht
        · exact lt_of_lt_of_le (lt_of_not_ge ht) (hle t' ht')
      rw [List.dropWhile_cons, if_neg (by simpa using ht), List.filter_eq_self.mpr]
      exact fun t' ht' => decide_eq_true (hin t' ht')

theorem inWindow_inWindow (h : mark ≤ mark') (log : List τ) :
    inWindow mark' (inWindow mark log) = inWindow mark' log := by
  unfold inWindow
  rw [List.filter_filter]
  refine List.filter_congr fun t _ => ?_
  by_cases ht : mark' < t
  · rw [decide_eq_true ht, decide_eq_true (lt_of_le_of_lt h ht), Bool.and_self]
  · rw [decide_eq_false ht, Bool.false_and]

namespace Agrees

theorem nil (mark : τ) : Agrees mark [] [] := ⟨List.Pairwise.nil, fun _ _ => rfl⟩

theorem later (h : Agrees mark log history) (hmark : mark ≤ mark') : Agrees mark' log history :=
  ⟨h.sorted, fun m hm => h.same m (hmark.trans hm)⟩

theorem trim_eq (h : Agrees mark log history) : trim mark log = inWindow mark history := by
  rw [trim_eq_inWindow h.sorted, h.same mark le_rfl]

theorem keep (h : Agrees mark log history) : Agrees mark (inWindow mark log) history where
  sorted := h.sorted.filter _
  same m hm := by rw [inWindow_inWindow hm, h.same m hm]

theorem trim (h : Agrees mark log history) : Agrees mark (trim mark log) history := by
  rw [trim_eq_inWindow h.sorted]
  exact h.keep

theorem push (h : Agrees mark log history) (ht : ∀ t' ∈ log, t' ≤ t) :
    Agrees mark (log ++ [t]) (history ++ [t]) where
  sorted := by
    refine List.pairwise_append.mpr ⟨h.sorted, List.pairwise_singleton _ _,
      fun t' ht' t'' ht'' => ?_⟩
    rw [List.mem_singleton.mp ht'']
    exact ht t' ht'
  same m hm := by
    have hsame := h.same m hm
    unfold inWindow at hsame ⊢
    rw [List.filter_append, List.filter_append, hsame]

end Agrees

/-- **When the first time in the window leaves it**, fewer are left. -/
theorem length_inWindow_head {l : List τ} (hl : inWindow mark log = t :: l) :
    (inWindow t log).length < (inWindow mark log).length := by
  have hmem : t ∈ inWindow mark log := hl ▸ List.mem_cons_self
  have hlater : inWindow t log = inWindow t (t :: l) := by
    rw [← inWindow_inWindow (mem_inWindow.mp hmem).2.le, hl]
  have hdrop : inWindow t (t :: l) = inWindow t l := List.filter_cons_of_neg (by simp)
  rw [hlater, hdrop, hl, List.length_cons]
  exact Nat.lt_succ_of_le (List.length_filter_le _ _)

end SlidingWindow
end Library
