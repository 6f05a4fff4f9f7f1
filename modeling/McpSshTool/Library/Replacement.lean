import Mathlib.Data.List.Infix

/-!
# Replacement of all matches

A text is read from its front. Where a matcher says how long a match is, a mask takes the place of
the match, and the text behind it is read on.

* `replaceAll` — the replacement;
* `FreeOf` — what begins at a place of the text never has some property;
* `Blind` — a mask in the place of a match cannot bring the property about;
* `freeOf_replaceAll` — the text is free of it where the matcher sees every place that has it, or
  where there was none; `replaceAll_of_freeOf` — a text without a match stays as it is.
-/

namespace Library
namespace Replacement

variable {α : Type}

/-- The replacement, with so much left of a match that was replaced. A match is not empty. -/
def replaceFrom (matcher : List α → Option ℕ) (mask : List α) : ℕ → List α → List α
  | _, [] => []
  | skip + 1, _ :: text => replaceFrom matcher mask skip text
  | 0, a :: text =>
    match matcher (a :: text) with
    | some (length + 1) => mask ++ replaceFrom matcher mask length text
    | _ => a :: replaceFrom matcher mask 0 text

/-- **A mask takes the place of every match**, from the front. -/
def replaceAll (matcher : List α → Option ℕ) (mask text : List α) : List α :=
  replaceFrom matcher mask 0 text

/-- The matcher sees a match at the front. -/
def Sees (matcher : List α → Option ℕ) (text : List α) : Prop :=
  ∃ length, matcher text = some (length + 1)

/-- **Nowhere in the text** does something begin that has the property. -/
def FreeOf (p : List α → Prop) (text : List α) : Prop := ∀ rest, rest <:+ text → ¬p rest

/-- **A mask cannot bring the property about** in the place of what the matcher sees. -/
structure Blind (p : List α → Prop) (mask : List α) (matcher : List α → Option ℕ) : Prop where
  nil : ¬p []
  /-- Nothing that begins in the mask has it. -/
  inside : ∀ before after rest, before ++ after = mask → after ≠ [] → ¬p (after ++ rest)
  /-- What begins before the mask had it before. -/
  across : ∀ before rest, before ≠ [] → p (before ++ (mask ++ rest)) →
    ∀ text, Sees matcher text → p (before ++ text)

variable {matcher : List α → Option ℕ} {mask text : List α} {p : List α → Prop}

theorem FreeOf.of_suffix {rest : List α} (h : FreeOf p text) (hrest : rest <:+ text) :
    FreeOf p rest := fun rest' hrest' => h rest' (hrest'.trans hrest)

theorem freeOf_append {first second : List α}
    (hfirst : ∀ before after, before ++ after = first → after ≠ [] → ¬p (after ++ second))
    (hsecond : FreeOf p second) : FreeOf p (first ++ second) := by
  rintro rest ⟨before, hbefore⟩
  rcases List.append_eq_append_iff.mp hbefore with ⟨after, hfirst', hrest⟩ | ⟨after, -, hrest⟩
  · rcases eq_or_ne after [] with rfl | hne
    · rw [hrest, List.nil_append]
      exact hsecond _ List.suffix_rfl
    · rw [hrest]
      exact hfirst before after hfirst'.symm hne
  · exact hsecond rest ⟨after, hrest.symm⟩

/-- **What is left of a text**, and what begins before it. -/
theorem replaceFrom_spec (hblind : Blind p mask matcher) (skip : ℕ) (text : List α)
    (hseen : ∀ rest, rest <:+ text → p rest → Sees matcher rest) :
    FreeOf p (replaceFrom matcher mask skip text) ∧
      ∀ before, before ≠ [] → p (before ++ replaceFrom matcher mask skip text) →
        p (before ++ text.drop skip) := by
  have hnil : FreeOf p [] := by
    intro rest hrest
    rw [List.suffix_nil.mp hrest]
    exact hblind.nil
  induction text generalizing skip with
  | nil =>
    refine ⟨?_, ?_⟩
    · cases skip <;> exact hnil
    · intro before _ h
      rw [List.drop_nil]
      cases skip <;> exact h
  | cons a text ih =>
    have hrest : ∀ rest, rest <:+ text → p rest → Sees matcher rest :=
      fun rest hrest => hseen rest (hrest.trans (List.suffix_cons a text))
    cases skip with
    | succ skip => exact ih skip hrest
    | zero =>
      rw [replaceFrom]
      split
      · next length hlength =>
        obtain ⟨hfree, -⟩ := ih length hrest
        refine ⟨freeOf_append (fun before after => hblind.inside before after _) hfree, ?_⟩
        intro before hbefore h
        exact hblind.across before _ hbefore h (a :: text) ⟨length, hlength⟩
      · next hnone =>
        obtain ⟨hfree, hbehind⟩ := ih 0 hrest
        -- what begins with `a` has not changed
        have hfirst : ¬p (a :: replaceFrom matcher mask 0 text) := by
          intro h
          have hp : p (a :: text) := hbehind [a] (List.cons_ne_nil _ _) h
          obtain ⟨length, hlength⟩ := hseen _ List.suffix_rfl hp
          exact hnone length hlength
        refine ⟨?_, ?_⟩
        · intro rest hsuffix
          rcases List.suffix_cons_iff.mp hsuffix with rfl | hsuffix
          · exact hfirst
          · exact hfree rest hsuffix
        · intro before hbefore h
          change p (before ++ a :: text)
          rw [List.append_cons] at h ⊢
          exact hbehind (before ++ [a]) (by simp) h

/-- **The text is free of the property** where every place that has it is seen, one way or
another. -/
theorem freeOf_replaceAll (hblind : Blind p mask matcher)
    (hseen : ∀ rest, rest <:+ text → p rest → Sees matcher rest) :
    FreeOf p (replaceAll matcher mask text) := (replaceFrom_spec hblind 0 text hseen).1

theorem FreeOf.replaceAll (h : FreeOf p text) (hblind : Blind p mask matcher) :
    FreeOf p (replaceAll matcher mask text) :=
  freeOf_replaceAll hblind fun rest hrest hp => absurd hp (h rest hrest)

/-- **A text without a match stays as it is.** -/
theorem replaceAll_of_freeOf (h : FreeOf (Sees matcher) text) :
    replaceAll matcher mask text = text := by
  unfold replaceAll
  induction text with
  | nil => rfl
  | cons a text ih =>
    rw [replaceFrom]
    split
    · next length hlength => exact absurd ⟨length, hlength⟩ (h _ List.suffix_rfl)
    · rw [ih (h.of_suffix (List.suffix_cons a text))]

end Replacement
end Library
