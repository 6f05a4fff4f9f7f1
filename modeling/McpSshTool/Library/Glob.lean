import Mathlib.Data.List.Basic

/-!
# Patterns with wildcards

Patterns of characters, of wildcards for one character and of wildcards for any number, against
texts. What a wildcard may stand for is a parameter, since some matchers keep it from line ends.

* `Globs` — a pattern matches a text, as a relation;
* `globs_nil_iff`, `globs_char_iff`, `globs_one_iff`, `globs_many_iff` — its equations;
* `Globs.mono`, `globs_iff_of_all` — what a wildcard may stand for;
* `globs_self` — a pattern that is a text matches it.
-/

namespace Library

/-- A part of a pattern. -/
inductive GlobToken (α : Type) where
  | char (a : α)
  | one
  | many
deriving DecidableEq

variable {α : Type} {ok ok' : α → Prop} {a : α} {pattern : List (GlobToken α)} {text : List α}

/-- **The pattern matches the text**, where a wildcard stands for characters that are `ok`. -/
inductive Globs (ok : α → Prop) : List (GlobToken α) → List α → Prop
  | nil : Globs ok [] []
  | char (a : α) {pattern : List (GlobToken α)} {text : List α} (h : Globs ok pattern text) :
      Globs ok (.char a :: pattern) (a :: text)
  | one {a : α} (ha : ok a) {pattern : List (GlobToken α)} {text : List α}
      (h : Globs ok pattern text) : Globs ok (.one :: pattern) (a :: text)
  | skip {pattern : List (GlobToken α)} {text : List α} (h : Globs ok pattern text) :
      Globs ok (.many :: pattern) text
  | take {a : α} (ha : ok a) {pattern : List (GlobToken α)} {text : List α}
      (h : Globs ok (.many :: pattern) text) : Globs ok (.many :: pattern) (a :: text)

/-! ### Equations -/

theorem globs_nil_iff : Globs ok [] text ↔ text = [] := by
  constructor
  · intro h
    cases h
    rfl
  · rintro rfl
    exact .nil

theorem globs_char_iff :
    Globs ok (.char a :: pattern) text ↔ ∃ rest, text = a :: rest ∧ Globs ok pattern rest := by
  constructor
  · intro h
    cases h with
    | char a h => exact ⟨_, rfl, h⟩
  · rintro ⟨rest, rfl, h⟩
    exact .char a h

theorem globs_one_iff :
    Globs ok (.one :: pattern) text ↔ ∃ a rest, text = a :: rest ∧ ok a ∧
      Globs ok pattern rest := by
  constructor
  · intro h
    cases h with
    | one ha h => exact ⟨_, _, rfl, ha, h⟩
  · rintro ⟨a, rest, rfl, ha, h⟩
    exact .one ha h

/-- A wildcard for any number stands for a part of the text. -/
theorem globs_many_iff :
    Globs ok (.many :: pattern) text ↔
      ∃ taken rest, text = taken ++ rest ∧ (∀ a ∈ taken, ok a) ∧ Globs ok pattern rest := by
  constructor
  · intro h
    generalize hp : GlobToken.many :: pattern = p at h
    induction h with
    | nil => cases hp
    | char => cases hp
    | one => cases hp
    | skip h =>
      cases hp
      exact ⟨[], _, rfl, fun _ ha => absurd ha List.not_mem_nil, h⟩
    | take ha h ih =>
      obtain ⟨taken, rest, rfl, hok, hrest⟩ := ih hp
      exact ⟨_ :: taken, rest, rfl, List.forall_mem_cons.mpr ⟨ha, hok⟩, hrest⟩
  · rintro ⟨taken, rest, rfl, hok, hrest⟩
    induction taken with
    | nil => exact .skip hrest
    | cons a taken ih =>
      obtain ⟨ha, hok⟩ := List.forall_mem_cons.mp hok
      exact .take ha (ih hok)

/-! ### What a wildcard may stand for -/

theorem Globs.mono (h : Globs ok pattern text) (hok : ∀ a, ok a → ok' a) :
    Globs ok' pattern text := by
  induction h with
  | nil => exact .nil
  | char a _ ih => exact .char a ih
  | one ha _ ih => exact .one (hok _ ha) ih
  | skip _ ih => exact .skip ih
  | take ha _ ih => exact .take (hok _ ha) ih

theorem Globs.of_all (h : Globs ok' pattern text) (hall : ∀ a ∈ text, ok a) :
    Globs ok pattern text := by
  induction h with
  | nil => exact .nil
  | char a _ ih => exact .char a (ih (List.forall_mem_cons.mp hall).2)
  | one _ _ ih =>
    obtain ⟨ha, hall⟩ := List.forall_mem_cons.mp hall
    exact .one ha (ih hall)
  | skip _ ih => exact .skip (ih hall)
  | take _ _ ih =>
    obtain ⟨ha, hall⟩ := List.forall_mem_cons.mp hall
    exact .take ha (ih hall)

theorem globs_iff_of_all (hall : ∀ a ∈ text, ok a) :
    Globs (fun _ => True) pattern text ↔ Globs ok pattern text :=
  ⟨fun h => h.of_all hall, fun h => h.mono fun _ _ => trivial⟩

/-- **A pattern that is a text matches it**, if the characters that are read as wildcards are such
characters. -/
theorem globs_self {token : α → GlobToken α}
    (htoken : ∀ a, token a = .char a ∨ (token a = .one ∨ token a = .many) ∧ ok a) (text : List α) :
    Globs ok (text.map token) text := by
  induction text with
  | nil => exact .nil
  | cons a text ih =>
    rw [List.map_cons]
    rcases htoken a with hchar | ⟨hone | hmany, ha⟩
    · rw [hchar]
      exact .char a ih
    · rw [hone]
      exact .one ha ih
    · rw [hmany]
      exact .take ha (.skip ih)

end Library
