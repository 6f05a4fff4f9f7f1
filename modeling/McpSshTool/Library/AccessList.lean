import Mathlib.Data.List.Basic
import Mathlib.Tactic.TypeStar

/-!
# Access lists

A list of what is denied and a list of what is allowed, over entries that hit values. A value passes
if no entry denies it and an entry allows it; what passes where nothing is listed as allowed is a
parameter, for some lists are open then, some are closed and some have a default.

* `Admits` — what a list lets through;
* `Tightens` — fewer values are listed as allowed and more as denied, and what is allowed is not
  emptied where that would open the list;
* `Tightens.admits` — a list that is tightened lets no more through.
-/

namespace Library

/-- What is denied and what is allowed. -/
structure AccessList (ρ : Type*) where
  deny : List ρ
  allow : List ρ

namespace AccessList

variable {ρ α : Type*} (hits : ρ → α → Prop) (unlisted : α → Prop)

/-- **What a list lets through**: `unlisted` is what passes where nothing is listed as allowed. -/
def Admits (l : AccessList ρ) (a : α) : Prop :=
  (∀ r ∈ l.deny, ¬hits r a) ∧ if l.allow = [] then unlisted a else ∃ r ∈ l.allow, hits r a

/-- A list is tightened. The last condition is about a list whose entries are all taken away: what
passes then must have been allowed before. -/
structure Tightens (l' l : AccessList ρ) : Prop where
  deny : l.deny ⊆ l'.deny
  allow : l'.allow ⊆ l.allow
  emptied : l'.allow = [] → l.allow = [] ∨ ∀ a, unlisted a → ∃ r ∈ l.allow, hits r a

variable {hits unlisted} {l l' l'' : AccessList ρ}

theorem Tightens.refl (l : AccessList ρ) : Tightens hits unlisted l l :=
  ⟨fun _ h => h, fun _ h => h, .inl⟩

/-- **A list that is tightened lets no more through.** -/
theorem Tightens.admits (h : Tightens hits unlisted l' l) {a : α}
    (ha : l'.Admits hits unlisted a) : l.Admits hits unlisted a := by
  obtain ⟨hdenied, hallowed⟩ := ha
  refine ⟨fun r hr => hdenied r (h.deny hr), ?_⟩
  by_cases hnil : l.allow = []
  · -- a list that was open can only have been given entries
    have hnil' : l'.allow = [] := List.subset_nil.mp (hnil ▸ h.allow)
    rw [if_pos hnil'] at hallowed
    rwa [if_pos hnil]
  · rw [if_neg hnil]
    by_cases hnil' : l'.allow = []
    · rw [if_pos hnil'] at hallowed
      exact (h.emptied hnil').resolve_left hnil a hallowed
    · rw [if_neg hnil'] at hallowed
      obtain ⟨r, hr, hhits⟩ := hallowed
      exact ⟨r, h.allow hr, hhits⟩

theorem Tightens.of_closed (hdeny : l.deny ⊆ l'.deny) (hallow : l'.allow ⊆ l.allow) :
    Tightens hits (fun _ => False) l' l :=
  ⟨hdeny, hallow, fun _ => .inr fun _ h => h.elim⟩

theorem Tightens.of_filled (hdeny : l.deny ⊆ l'.deny) (hallow : l'.allow ⊆ l.allow)
    (hfilled : l'.allow = [] → l.allow = []) : Tightens hits unlisted l' l :=
  ⟨hdeny, hallow, fun h => .inl (hfilled h)⟩

end AccessList
end Library
