import Mathlib.Data.List.Basic
import Mathlib.Order.Basic

/-!
# Runs of a deterministic machine

A machine is a step function on states and events; a run is the fold of its events. Whatever order
events arrive in is a list of events, so a property of every interleaving is a property of every
list.

* `AllSteps` — every step of a run meets a condition on the state before it and the event taken;
* `Along` — a property holds in the start state and in every state the run reaches;
* `along_of_preserved` — the invariant rule: what a conditioned step preserves, a run preserves;
* `NeverDecreases` — a measure of the states never decreases along a run.
-/

namespace Library
namespace Run

variable {σ ε : Type} (step : σ → ε → σ)

/-- The state a list of events leads to. -/
def run (s : σ) (es : List ε) : σ := es.foldl step s

@[simp] theorem run_nil (s : σ) : run step s [] = s := rfl

@[simp] theorem run_cons (s : σ) (e : ε) (es : List ε) :
    run step s (e :: es) = run step (step s e) es := rfl

theorem run_append (s : σ) (es es' : List ε) :
    run step s (es ++ es') = run step (run step s es) es' :=
  List.foldl_append

/-- Every step of the run from `s` meets `C`, a condition on the state before the step. -/
def AllSteps (C : σ → ε → Prop) : σ → List ε → Prop
  | _, [] => True
  | s, e :: es => C s e ∧ AllSteps C (step s e) es

/-- `P` holds in every state of the run from `s`, both ends included. -/
def Along (P : σ → Prop) : σ → List ε → Prop
  | s, [] => P s
  | s, e :: es => P s ∧ Along P (step s e) es

variable {step}

theorem allSteps_append {C : σ → ε → Prop} {s : σ} {es es' : List ε} :
    AllSteps step C s (es ++ es') ↔
      AllSteps step C s es ∧ AllSteps step C (run step s es) es' := by
  induction es generalizing s with
  | nil => simp [AllSteps]
  | cons e es ih => simp [AllSteps, ih, and_assoc]

theorem run_of_fixed {s : σ} {es : List ε} (h : ∀ e ∈ es, step s e = s) : run step s es = s := by
  induction es with
  | nil => rfl
  | cons e es ih =>
    rw [List.forall_mem_cons] at h
    rw [run_cons, h.1, ih h.2]

theorem allSteps_of_fixed {C : σ → ε → Prop} {s : σ} {es : List ε} (h : ∀ e ∈ es, step s e = s) :
    AllSteps step C s es ↔ ∀ e ∈ es, C s e := by
  induction es with
  | nil => simp [AllSteps]
  | cons e es ih =>
    rw [List.forall_mem_cons] at h ⊢
    rw [AllSteps, h.1, ih h.2]

theorem AllSteps.mono {C D : σ → ε → Prop} (hCD : ∀ s e, C s e → D s e) {s : σ} {es : List ε}
    (h : AllSteps step C s es) : AllSteps step D s es := by
  induction es generalizing s with
  | nil => trivial
  | cons e es ih => exact ⟨hCD s e h.1, ih h.2⟩

theorem AllSteps.and {C D : σ → ε → Prop} {s : σ} {es : List ε} (hC : AllSteps step C s es)
    (hD : AllSteps step D s es) : AllSteps step (fun s e => C s e ∧ D s e) s es := by
  induction es generalizing s with
  | nil => trivial
  | cons e es ih => exact ⟨⟨hC.1, hD.1⟩, ih hC.2 hD.2⟩

theorem Along.mono {P Q : σ → Prop} (hPQ : ∀ s, P s → Q s) {s : σ} {es : List ε}
    (h : Along step P s es) : Along step Q s es := by
  induction es generalizing s with
  | nil => exact hPQ s h
  | cons e es ih => exact ⟨hPQ s h.1, ih h.2⟩

theorem Along.head {P : σ → Prop} {s : σ} {es : List ε} (h : Along step P s es) : P s := by
  cases es with
  | nil => exact h
  | cons => exact h.1

theorem along_iff_prefix {P : σ → Prop} {s : σ} {es : List ε} :
    Along step P s es ↔ ∀ es', es' <+: es → P (run step s es') := by
  induction es generalizing s with
  | nil =>
    constructor
    · intro h es' hp
      rw [List.prefix_nil.mp hp]
      exact h
    · exact fun h => h [] List.prefix_rfl
  | cons e es ih =>
    constructor
    · intro h es' hp
      cases es' with
      | nil => exact h.1
      | cons e' es' =>
        obtain ⟨rfl, hp'⟩ := List.cons_prefix_cons.mp hp
        exact ih.mp h.2 es' hp'
    · intro h
      exact ⟨h [] List.nil_prefix,
        ih.mpr fun es' hp => h (e :: es') (List.cons_prefix_cons.mpr ⟨rfl, hp⟩)⟩

theorem run_filter {p : ε → Bool} (hquiet : ∀ s e, p e = false → step s e = s) (s : σ)
    (es : List ε) : run step s (es.filter p) = run step s es := by
  induction es generalizing s with
  | nil => rfl
  | cons e es ih =>
    cases hp : p e with
    | true => rw [List.filter_cons_of_pos hp, run_cons, run_cons, ih]
    | false =>
      rw [List.filter_cons_of_neg (by rw [hp]; simp), run_cons, hquiet s e hp, ih]

/-- A condition that events without effect meet is a condition on the others. -/
theorem allSteps_filter {C : σ → ε → Prop} {p : ε → Bool}
    (hquiet : ∀ s e, p e = false → step s e = s) (hC : ∀ s e, p e = false → C s e) {s : σ}
    {es : List ε} : AllSteps step C s (es.filter p) ↔ AllSteps step C s es := by
  induction es generalizing s with
  | nil => exact Iff.rfl
  | cons e es ih =>
    cases hp : p e with
    | true =>
      rw [List.filter_cons_of_pos hp]
      exact and_congr_right fun _ => ih
    | false =>
      rw [List.filter_cons_of_neg (by rw [hp]; simp), ih]
      show _ ↔ C s e ∧ AllSteps step C (step s e) es
      rw [hquiet s e hp, and_iff_right (hC s e hp)]

/-- **The invariant rule.** What every step that meets `C` preserves holds all along a run whose
steps meet `C`. -/
theorem along_of_preserved {C : σ → ε → Prop} {P : σ → Prop}
    (hstep : ∀ s e, P s → C s e → P (step s e)) {s : σ} {es : List ε} (hs : P s)
    (hC : AllSteps step C s es) : Along step P s es := by
  induction es generalizing s with
  | nil => exact hs
  | cons e es ih => exact ⟨hs, ih (hstep s e hs hC.1) hC.2⟩

theorem run_of_preserved {C : σ → ε → Prop} {P : σ → Prop}
    (hstep : ∀ s e, P s → C s e → P (step s e)) {s : σ} {es : List ε} (hs : P s)
    (hC : AllSteps step C s es) : P (run step s es) :=
  along_iff_prefix.mp (along_of_preserved hstep hs hC) es List.prefix_rfl

/-- **The exact form of the invariant rule**, inside an invariant `I` that the steps considered
keep. Where a step from a `P`-state ends in a `P`-state exactly when it meets `C`, a run stays in
`P` exactly when all its steps meet `C`. -/
theorem along_iff_allSteps_within {C D : σ → ε → Prop} {I P : σ → Prop}
    (hkeep : ∀ s e, I s → D s e → I (step s e))
    (hstep : ∀ s e, I s → P s → D s e → (P (step s e) ↔ C s e)) {s : σ} {es : List ε} (hI : I s)
    (hs : P s) (hD : AllSteps step D s es) : Along step P s es ↔ AllSteps step C s es := by
  induction es generalizing s with
  | nil => exact ⟨fun _ => trivial, fun _ => hs⟩
  | cons e es ih =>
    have hone := hstep s e hI hs hD.1
    have hrest : P (step s e) → (Along step P (step s e) es ↔ AllSteps step C (step s e) es) :=
      fun hs' => ih (hkeep s e hI hD.1) hs' hD.2
    constructor
    · intro h
      exact ⟨hone.mp h.2.head, (hrest h.2.head).mp h.2⟩
    · intro h
      have hs' := hone.mpr h.1
      exact ⟨hs, (hrest hs').mpr h.2⟩

/-- **The exact form, by an invariant.** Where an invariant `J` implies `P`, is kept by the steps
that meet `C`, and a step out of it into a `P`-state has met `C`, a run stays in `P` exactly when
all its steps meet `C`. -/
theorem along_iff_allSteps_of_invariant {C : σ → ε → Prop} {J P : σ → Prop} (himp : ∀ s, J s → P s)
    (hkeep : ∀ s e, J s → C s e → J (step s e)) (hforce : ∀ s e, J s → P (step s e) → C s e) {s : σ}
    {es : List ε} (hs : J s) : Along step P s es ↔ AllSteps step C s es := by
  refine ⟨fun h => ?_, fun h => (along_of_preserved hkeep hs h).mono himp⟩
  induction es generalizing s with
  | nil => trivial
  | cons e es ih =>
    have hC := hforce s e hs h.2.head
    exact ⟨hC, ih (hkeep s e hs hC) h.2⟩

theorem AllSteps.of_along {C D : σ → ε → Prop} {P : σ → Prop} (hstep : ∀ s e, P s → C s e → D s e)
    {s : σ} {es : List ε} (hP : Along step P s es) (hC : AllSteps step C s es) :
    AllSteps step D s es := by
  induction es generalizing s with
  | nil => trivial
  | cons e es ih => exact ⟨hstep s e hP.1 hC.1, ih hP.2 hC.2⟩

theorem allSteps_of_forall {C : σ → ε → Prop} (h : ∀ s e, C s e) (s : σ) (es : List ε) :
    AllSteps step C s es := by
  induction es generalizing s with
  | nil => trivial
  | cons e es ih => exact ⟨h s e, ih _⟩

theorem along_iff_allSteps {C : σ → ε → Prop} {P : σ → Prop}
    (hstep : ∀ s e, P s → (P (step s e) ↔ C s e)) {s : σ} {es : List ε} (hs : P s) :
    Along step P s es ↔ AllSteps step C s es :=
  along_iff_allSteps_within (I := fun _ => True) (D := fun _ _ => True) (fun _ _ _ _ => trivial)
    (fun s e _ hs _ => hstep s e hs) trivial hs (allSteps_of_forall (fun _ _ => trivial) s es)

/-! ### Measures that never decrease -/

section NeverDecreases

variable {α : Type} [Preorder α] (f : σ → α)

/-- A measure never decreases along a run: whatever state the run reaches later, the measure is at
least what it was in the states before. -/
def NeverDecreases (step : σ → ε → σ) (s : σ) (es : List ε) : Prop :=
  ∀ es₁ es₂, es₁ ++ es₂ <+: es → f (run step s es₁) ≤ f (run step s (es₁ ++ es₂))

/-- It is enough to look at single steps. -/
theorem neverDecreases_iff_allSteps {s : σ} {es : List ε} :
    NeverDecreases f step s es ↔ AllSteps step (fun s e => f s ≤ f (step s e)) s es := by
  induction es generalizing s with
  | nil =>
    refine ⟨fun _ => trivial, fun _ es₁ es₂ hp => ?_⟩
    rw [List.prefix_nil.mp hp, (List.append_eq_nil_iff.mp (List.prefix_nil.mp hp)).1]
  | cons e es ih =>
    constructor
    · intro h
      refine ⟨h [] [e] (List.cons_prefix_cons.mpr ⟨rfl, List.nil_prefix⟩), ih.mp ?_⟩
      intro es₁ es₂ hp
      exact h (e :: es₁) es₂ (List.cons_prefix_cons.mpr ⟨rfl, hp⟩)
    · intro h es₁ es₂ hp
      have hrest := ih.mpr h.2
      cases es₁ with
      | cons e₁ es₁ =>
        obtain ⟨rfl, hp'⟩ := List.cons_prefix_cons.mp hp
        exact hrest es₁ es₂ hp'
      | nil =>
        cases es₂ with
        | nil => exact le_refl _
        | cons e₂ es₂ =>
          -- the first step, and then the rest of the run from its start
          obtain ⟨rfl, hp'⟩ := List.cons_prefix_cons.mp hp
          exact h.1.trans (hrest [] es₂ hp')

end NeverDecreases

end Run
end Library
