import Mathlib.Data.List.Basic

/-!
# Self-delimiting texts

When the texts of several items are written one after the other, a reader has to see where each
ends. Two texts are `ReadApart` when no rests that follow them, each beginning with a stop symbol,
make the same whole of them unless the texts are equal.

* `readApart_of_forall` — texts without stop symbols are read apart.
* `separated_inj` — a list of items that are read apart, separated and closed by stop symbols,
  shows its items and its rest.
-/

namespace Library

variable {α : Type*} {stop : α → Prop}

/-- The rest of a text after an item: it is over, or goes on with a stop symbol. -/
def Stops (stop : α → Prop) (rest : List α) : Prop := ∀ c ∈ rest.head?, stop c

/-- A reader who sees one of the two items, with a rest after it, knows which and what rest. -/
def ReadApart (stop : α → Prop) (a b : List α) : Prop :=
  ∀ s t, Stops stop s → Stops stop t → a ++ s = b ++ t → a = b ∧ s = t

theorem stops_cons {c : α} (hc : stop c) (rest : List α) : Stops stop (c :: rest) := by
  intro c' hc'
  obtain rfl := Option.some.inj hc'
  exact hc

theorem readApart_self (a : List α) : ReadApart stop a a :=
  fun _ _ _ _ h => ⟨rfl, List.append_cancel_left h⟩

theorem readApart_of_ne {a b : List α} (h : ∀ s t, a ++ s ≠ b ++ t) : ReadApart stop a b :=
  fun s t _ _ heq => absurd heq (h s t)

/-- **Items without stop symbols** end where the first stop symbol stands. -/
theorem readApart_of_forall {a b : List α} (ha : ∀ c ∈ a, ¬stop c) (hb : ∀ c ∈ b, ¬stop c) :
    ReadApart stop a b := by
  induction a generalizing b with
  | nil =>
    intro s t hs _ heq
    cases b with
    | nil => exact ⟨rfl, heq⟩
    | cons d b =>
      -- the rest would begin with a symbol of `b`
      have hd : stop d := hs d (by rw [List.nil_append] at heq; rw [heq]; rfl)
      exact absurd hd (hb d List.mem_cons_self)
  | cons c a ih =>
    intro s t hs ht heq
    cases b with
    | nil =>
      have hc : stop c := ht c (by rw [List.nil_append] at heq; rw [← heq]; rfl)
      exact absurd hc (ha c List.mem_cons_self)
    | cons =>
      rw [List.cons_append, List.cons_append, List.cons.injEq] at heq
      obtain ⟨rfl, heq⟩ := heq
      obtain ⟨rfl, rfl⟩ := ih (fun c hc => ha c (List.mem_cons_of_mem _ hc))
        (fun c hc => hb c (List.mem_cons_of_mem _ hc)) s t hs ht heq
      exact ⟨rfl, rfl⟩

/-! ### Lists of items -/

/-- What follows the first item of a list: a separator before each of the others. -/
def tailText (sep : α) : List (List α) → List α
  | [] => []
  | a :: items => sep :: (a ++ tailText sep items)

theorem intercalate_cons_eq (sep : α) (a : List α) (items : List (List α)) :
    [sep].intercalate (a :: items) = a ++ tailText sep items := by
  induction items generalizing a with
  | nil => rw [List.intercalate_singleton, tailText, List.append_nil]
  | cons b items ih =>
    rw [List.intercalate_cons_cons, ih b, tailText, List.append_assoc, List.singleton_append]

/-- The others are read back one after the other. -/
theorem tailText_inj {sep close : α} (hsep : stop sep) (hclose : stop close) (hne : sep ≠ close)
    {items items' : List (List α)} {s t : List α}
    (hapart : ∀ a ∈ items, ∀ b ∈ items', ReadApart stop a b)
    (heq : tailText sep items ++ close :: s = tailText sep items' ++ close :: t) :
    items = items' ∧ s = t := by
  have hstops : ∀ (l : List (List α)) (u : List α), Stops stop (tailText sep l ++ close :: u) := by
    intro l u
    cases l with
    | nil => exact stops_cons hclose u
    | cons => exact stops_cons hsep _
  induction items generalizing items' with
  | nil =>
    cases items' with
    | nil => exact ⟨rfl, (List.cons.inj heq).2⟩
    | cons => exact absurd (List.cons.inj heq).1.symm hne
  | cons a items ih =>
    cases items' with
    | nil => exact absurd (List.cons.inj heq).1 hne
    | cons b =>
      rw [tailText, tailText, List.cons_append, List.cons_append, List.cons.injEq,
        List.append_assoc, List.append_assoc] at heq
      obtain ⟨rfl, hrest⟩ := hapart a List.mem_cons_self b List.mem_cons_self _ _ (hstops _ _)
        (hstops _ _) heq.2
      obtain ⟨rfl, rfl⟩ := ih
        (fun a ha b hb => hapart a (List.mem_cons_of_mem _ ha) b (List.mem_cons_of_mem _ hb)) hrest
      exact ⟨rfl, rfl⟩

/-- **A closed list shows its items and its rest.** No item begins like the end of the list. -/
theorem separated_inj {sep close : α} (hsep : stop sep) (hclose : stop close) (hne : sep ≠ close)
    {items items' : List (List α)} {s t : List α}
    (hapart : ∀ a ∈ items, ∀ b ∈ items', ReadApart stop a b)
    (hitems : ∀ a ∈ items, ∃ c rest, a = c :: rest ∧ c ≠ close)
    (hitems' : ∀ a ∈ items', ∃ c rest, a = c :: rest ∧ c ≠ close)
    (heq : [sep].intercalate items ++ close :: s = [sep].intercalate items' ++ close :: t) :
    items = items' ∧ s = t := by
  cases items with
  | nil =>
    cases items' with
    | nil => exact ⟨rfl, (List.cons.inj heq).2⟩
    | cons b =>
      obtain ⟨c, rest, rfl, hc⟩ := hitems' b List.mem_cons_self
      rw [intercalate_cons_eq] at heq
      exact absurd (List.cons.inj heq).1.symm hc
  | cons a items =>
    cases items' with
    | nil =>
      obtain ⟨c, rest, rfl, hc⟩ := hitems a List.mem_cons_self
      rw [intercalate_cons_eq] at heq
      exact absurd (List.cons.inj heq).1 hc
    | cons b items' =>
      rw [intercalate_cons_eq, intercalate_cons_eq] at heq
      -- a separator in front of both lists makes them tails
      have htail : tailText sep (a :: items) ++ close :: s =
          tailText sep (b :: items') ++ close :: t := congrArg (sep :: ·) heq
      exact tailText_inj hsep hclose hne hapart htail

end Library
