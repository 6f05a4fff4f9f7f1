import Mathlib.Data.Option.Basic
import Mathlib.Order.Lattice

/-!
# Replay guards

A replay guard remembers the keys it has let through, each until a time of its own. This file is
about the guard against the log of what it let through, in terms of lookups alone.

* `Faithful` — what is remembered is in the log, and what is in the log is remembered at least until
  its time has come;
* `forget`, `record` — the two things a guard does, both of which keep it faithful;
* `Faithful.remembers_iff` — a faithful guard knows a key exactly when the log has an entry of it
  whose time has not come.
-/

namespace Library
namespace ReplayGuard

variable {κ τ : Type} [LinearOrder τ]

/-- Forget the keys whose time has come. -/
def forget (remembered : κ → Option τ) (now : τ) : κ → Option τ :=
  fun k => (remembered k).filter fun t => decide (now < t)

theorem forget_eq_some {remembered : κ → Option τ} {now : τ} {k : κ} {t : τ} :
    forget remembered now k = some t ↔ remembered k = some t ∧ now < t := by
  rw [forget, Option.filter_eq_some_iff, decide_eq_true_eq]

/-- **A guard that is faithful to a log** at a time. -/
structure Faithful (remembered : κ → Option τ) (log : List (κ × τ)) (now : τ) : Prop where
  covers : ∀ e ∈ log, e.2 ≤ now ∨ ∃ t, remembered e.1 = some t ∧ e.2 ≤ t
  logged : ∀ k t, remembered k = some t → (k, t) ∈ log

namespace Faithful

variable {remembered : κ → Option τ} {log : List (κ × τ)} {now now' : τ}

theorem nil (now : τ) : Faithful (fun _ : κ => (none : Option τ)) [] now where
  covers e he := absurd he List.not_mem_nil
  logged k t h := absurd h (by simp)

theorem later (h : Faithful remembered log now) (hnow : now ≤ now') :
    Faithful remembered log now' where
  covers e he := (h.covers e he).imp_left fun ht => ht.trans hnow
  logged := h.logged

theorem forget (h : Faithful remembered log now) (hnow : now ≤ now') :
    Faithful (forget remembered now') log now' where
  covers e he := by
    rcases h.covers e he with ht | ⟨t, ht, hle⟩
    · exact .inl (ht.trans hnow)
    · rcases le_or_gt t now' with htn | htn
      · exact .inl (hle.trans htn)
      · exact .inr ⟨t, forget_eq_some.mpr ⟨ht, htn⟩, hle⟩
  logged k t hk := h.logged k t (forget_eq_some.mp hk).1

/-- **Recording a key** that the guard does not know. -/
theorem record [DecidableEq κ] (h : Faithful remembered log now) {k : κ}
    (hk : remembered k = none) (t : τ) :
    Faithful (fun k' => if k' = k then some t else remembered k') (log ++ [(k, t)]) now where
  covers e he := by
    rcases List.mem_append.mp he with he | he
    · rcases h.covers e he with ht | ⟨t', ht', hle⟩
      · exact .inl ht
      · have hne : e.1 ≠ k := by
          intro hek
          rw [hek, hk] at ht'
          exact absurd ht' (by simp)
        exact .inr ⟨t', by rw [if_neg hne, ht'], hle⟩
    · obtain rfl := List.mem_singleton.mp he
      exact .inr ⟨t, if_pos rfl, le_rfl⟩
  logged k' t' hk' := by
    split at hk'
    · next heq =>
      obtain rfl := Option.some.inj hk'
      rw [heq]
      exact List.mem_append_right _ (List.mem_singleton_self _)
    · exact List.mem_append_left _ (h.logged k' t' hk')

/-- **What a guard knows** once it has forgotten. -/
theorem remembers_iff (h : Faithful remembered log now) (hnow : now ≤ now') {k : κ} :
    (ReplayGuard.forget remembered now' k).isSome ↔ ∃ t, (k, t) ∈ log ∧ now' < t := by
  constructor
  · intro hsome
    obtain ⟨t, ht⟩ := Option.isSome_iff_exists.mp hsome
    exact ⟨t, h.logged k t (forget_eq_some.mp ht).1, (forget_eq_some.mp ht).2⟩
  · rintro ⟨t, hmem, ht⟩
    rcases h.covers _ hmem with hle | ⟨t', ht', hle⟩
    · exact absurd (hle.trans hnow) (not_le.mpr ht)
    · exact Option.isSome_iff_exists.mpr ⟨t', forget_eq_some.mpr ⟨ht', ht.trans_le hle⟩⟩

end Faithful

end ReplayGuard
end Library
