import Mathlib.Algebra.GroupWithZero.Nat
import McpSshTool.Js.Utf8

/-!
# Ill-formed bytes

How long a text gets that is read from bytes which need not be an encoding. `decode` reads each
ill-formed sequence as one U+FFFD, whose own encoding has three bytes; the sequence has one to
three.

* `illFormed` — the lengths of the ill-formed sequences in some bytes;
* `growth` — by how much the text is longer than the bytes;
* `length_encode_decode` — the length of the text, and with it when it is that of the bytes.

The induction is on the bytes, from any state of the decoder: `After k p` says which states it is in
when it has read `k` bytes of a code point, and which code points it can end with.
-/

namespace Utf8

/-- The lengths of the ill-formed sequences that the decoder meets, when it has read so many bytes
of a code point. -/
def illFormedFrom (read : ℕ) (p : Pending) : List UInt8 → List ℕ
  | [] => if p.needed = 0 then [] else [read]
  | b :: bs =>
    let b := b.toNat
    let started :=
      (if (lead b).1 = ['\uFFFD'] then [1] else []) ++
        illFormedFrom (if (lead b).2.needed = 0 then 0 else 1) (lead b).2 bs
    if p.needed = 0 then started
    else if p.lower ≤ b ∧ b ≤ p.upper then
      if p.needed = 1 then illFormedFrom 0 .none bs
      else illFormedFrom (read + 1) ⟨p.codePoint * 64 + b % 64, p.needed - 1, 0x80, 0xBF⟩ bs
    else read :: started

/-- **The ill-formed sequences** in some bytes, by their lengths. -/
def illFormed (bytes : List UInt8) : List ℕ := illFormedFrom 0 .none bytes

/-- What three bytes for each ill-formed sequence add. -/
def growthOf (lengths : List ℕ) : ℕ := (lengths.map (3 - ·)).sum

/-- By how much the text of some bytes is longer than they are. -/
def growth (bytes : List UInt8) : ℕ := growthOf (illFormed bytes)

theorem growthOf_append (l l' : List ℕ) : growthOf (l ++ l') = growthOf l + growthOf l' := by
  rw [growthOf, List.map_append, List.sum_append_nat]
  rfl

/-! ### The states of the decoder -/

/-- The states of the decoder after so many bytes of a code point. -/
inductive After : ℕ → Pending → Prop
  | none : After 0 .none
  | oneOfTwo {v : ℕ} (h : 2 ≤ v ∧ v < 0x20) : After 1 ⟨v, 1, 0x80, 0xBF⟩
  | oneOfThree {v lower upper : ℕ} (h : v < 0x10) (hlower : 0x80 ≤ lower ∧ (v = 0 → lower = 0xA0))
      (hupper : upper ≤ 0xBF ∧ (v = 0xD → upper = 0x9F)) : After 1 ⟨v, 2, lower, upper⟩
  | twoOfThree {v : ℕ} (h : 0x20 ≤ v ∧ v < 0x400 ∧ ¬(0x360 ≤ v ∧ v < 0x380)) :
      After 2 ⟨v, 1, 0x80, 0xBF⟩
  | oneOfFour {v lower upper : ℕ} (h : v ≤ 4) (hlower : 0x80 ≤ lower ∧ (v = 0 → lower = 0x90))
      (hupper : upper ≤ 0xBF ∧ (v = 4 → upper = 0x8F)) : After 1 ⟨v, 3, lower, upper⟩
  | twoOfFour {v : ℕ} (h : 0x10 ≤ v ∧ v < 0x110) : After 2 ⟨v, 2, 0x80, 0xBF⟩
  | threeOfFour {v : ℕ} (h : 0x400 ≤ v ∧ v < 0x4400) : After 3 ⟨v, 1, 0x80, 0xBF⟩

theorem After.lower {k : ℕ} {p : Pending} (h : After k p) : 0x80 ≤ p.lower := by
  cases h with
  | oneOfThree h hlower => exact hlower.1
  | oneOfFour h hlower => exact hlower.1
  | _ => exact le_refl _

theorem After.read_le {k : ℕ} {p : Pending} (h : After k p) : k ≤ 3 := by
  cases h <;> decide

theorem After.read_eq_zero {k : ℕ} {p : Pending} (h : After k p) (hneeded : p.needed = 0) :
    k = 0 := by
  cases h with
  | none => rfl
  | _ => cases hneeded

/-- **What a byte starts**: a character, nothing that is well-formed, or a code point. -/
theorem lead_cases {b : ℕ} (hb : b < 256) :
    (b < 0x80 ∧ lead b = ([Char.ofNat b], .none)) ∨ lead b = (['\uFFFD'], .none) ∨
      ∃ p, lead b = ([], p) ∧ p.needed ≠ 0 ∧ After 1 p := by
  by_cases h1 : b < 0x80
  · exact .inl ⟨h1, by rw [lead, if_pos h1]⟩
  · refine .inr ?_
    -- the three ranges of bytes that begin a sequence; the bounds on the next byte differ at their
    -- ends
    by_cases h2 : 0xC2 ≤ b ∧ b ≤ 0xDF
    · exact .inr ⟨_, lead_two h2, Nat.one_ne_zero, .oneOfTwo (by omega)⟩
    · by_cases h3 : 0xE0 ≤ b ∧ b ≤ 0xEF
      · refine .inr ⟨_, lead_three h3, Nat.succ_ne_zero 1, .oneOfThree (by omega) ?_ ?_⟩
        · split_ifs <;> omega
        · split_ifs <;> omega
      · by_cases h4 : 0xF0 ≤ b ∧ b ≤ 0xF4
        · refine .inr ⟨_, lead_four h4, Nat.succ_ne_zero 2, .oneOfFour (by omega) ?_ ?_⟩
          · split_ifs <;> omega
          · split_ifs <;> omega
        · refine .inl ?_
          rw [lead, if_neg h1, if_neg h2, if_neg (by omega), if_neg (by omega), if_neg (by omega),
            if_neg (by omega), if_neg (by omega), if_neg (by omega)]

theorem After.middle {k : ℕ} {p : Pending} (h : After k p) (hneeded : 2 ≤ p.needed) {b : ℕ}
    (hb : p.lower ≤ b ∧ b ≤ p.upper) :
    After (k + 1) ⟨p.codePoint * 64 + b % 64, p.needed - 1, 0x80, 0xBF⟩ := by
  cases h with
  | oneOfThree => exact .twoOfThree (by dsimp only at hb ⊢; omega)
  | oneOfFour => exact .twoOfFour (by dsimp only at hb ⊢; omega)
  | twoOfFour => exact .threeOfFour (by dsimp only at hb ⊢; omega)
  | none => exact absurd hneeded (by decide)
  | oneOfTwo => exact (Nat.not_succ_le_self 1 hneeded).elim
  | twoOfThree => exact (Nat.not_succ_le_self 1 hneeded).elim
  | threeOfFour => exact (Nat.not_succ_le_self 1 hneeded).elim

/-! ### The length of what is decoded -/

/-- The bytes that some characters are encoded with. -/
def encodedLength (cs : List Char) : ℕ := (cs.flatMap String.utf8EncodeChar).length

theorem encodedLength_cons (c : Char) (cs : List Char) :
    encodedLength (c :: cs) = (String.utf8EncodeChar c).length + encodedLength cs := by
  rw [encodedLength, List.flatMap_cons, List.length_append]
  rfl

theorem length_encodeChar_ofNat {n : ℕ} (h : n < 0xD800 ∨ (0xDFFF < n ∧ n < 0x110000)) :
    (String.utf8EncodeChar (Char.ofNat n)).length =
      if n ≤ 0x7F then 1 else if n ≤ 0x7FF then 2 else if n ≤ 0xFFFF then 3 else 4 := by
  have hval : (Char.ofNat n).val.toNat = n := by
    have hvalid : n.isValidChar := h
    rw [Char.ofNat, dif_pos hvalid]
    rfl
  rw [String.utf8EncodeChar]
  simp only [hval]
  split_ifs <;> rfl

/-- The last byte of a code point: the character has as many bytes as have been read. -/
theorem After.last {k : ℕ} {p : Pending} (h : After k p) (hneeded : p.needed = 1) {b : ℕ}
    (hb : p.lower ≤ b ∧ b ≤ p.upper) :
    (String.utf8EncodeChar (Char.ofNat (p.codePoint * 64 + b % 64))).length = k + 1 := by
  cases h with
  -- where one byte is missing, the code point is known well enough for its length
  | oneOfTwo h =>
    dsimp only at hb ⊢
    rw [length_encodeChar_ofNat (by omega), if_neg (by omega), if_pos (by omega)]
  | twoOfThree h =>
    dsimp only at hb ⊢
    rw [length_encodeChar_ofNat (by omega), if_neg (by omega), if_neg (by omega), if_pos (by omega)]
  | threeOfFour h =>
    dsimp only at hb ⊢
    rw [length_encodeChar_ofNat (by omega), if_neg (by omega), if_neg (by omega), if_neg (by omega)]
  | none => cases hneeded
  | oneOfThree h hlower hupper => cases hneeded
  | oneOfFour h hlower hupper => cases hneeded
  | twoOfFour h => cases hneeded

theorem length_encodeChar_replacement : (String.utf8EncodeChar '\uFFFD').length = 3 := by decide

/-- **The length of what is decoded**, from any state of the decoder: the bytes of the code point
that is pending, those that follow, and what the ill-formed sequences add. -/
theorem encodedLength_decodeFrom (bs : List UInt8) {k : ℕ} {p : Pending} (h : After k p) :
    encodedLength (decodeFrom p bs) = k + bs.length + growthOf (illFormedFrom k p bs) := by
  induction bs generalizing k p with
  | nil =>
    unfold decodeFrom illFormedFrom
    by_cases hneeded : p.needed = 0
    · rw [if_pos hneeded, if_pos hneeded, h.read_eq_zero hneeded]
      rfl
    · rw [if_neg hneeded, if_neg hneeded, encodedLength_cons, length_encodeChar_replacement]
      have hread := h.read_le
      show 3 + 0 = k + 0 + (3 - k + 0)
      omega
  | cons b bs ih =>
    -- a byte that starts anew, whatever was pending before it
    have hstarted : encodedLength ((lead b.toNat).1 ++ decodeFrom (lead b.toNat).2 bs) =
        1 + bs.length + growthOf ((if (lead b.toNat).1 = ['\uFFFD'] then [1] else []) ++
          illFormedFrom (if (lead b.toNat).2.needed = 0 then 0 else 1) (lead b.toNat).2 bs) := by
      have hb : b.toNat < 256 := b.toNat_lt
      obtain ⟨hascii, hlead⟩ | hlead | ⟨p', hlead, hneeded, hafter⟩ := lead_cases hb
      · have hne : Char.ofNat b.toNat ≠ '\uFFFD' := by
          intro heq
          have hlength := length_encodeChar_ofNat (n := b.toNat) (by omega)
          rw [heq, if_pos (by omega)] at hlength
          exact absurd hlength (by decide)
        rw [hlead]
        dsimp only
        rw [if_neg (by simpa using hne), List.nil_append, List.singleton_append, encodedLength_cons,
          ih .none, length_encodeChar_ofNat (by omega), if_pos (by omega)]
        show 1 + (0 + bs.length + _) = 1 + bs.length + growthOf (illFormedFrom 0 .none bs)
        omega
      · rw [hlead]
        dsimp only
        rw [if_pos rfl, List.singleton_append, encodedLength_cons, ih .none,
          length_encodeChar_replacement, growthOf_append]
        show 3 + (0 + bs.length + _) = 1 + bs.length + (2 + growthOf (illFormedFrom 0 .none bs))
        omega
      · rw [hlead]
        dsimp only
        rw [if_neg (by simp), if_neg hneeded, List.nil_append, List.nil_append, ih hafter]
    rw [decodeFrom, illFormedFrom]
    dsimp only
    rw [List.length_cons]
    by_cases hneeded : p.needed = 0
    · rw [if_pos hneeded, if_pos hneeded, hstarted, h.read_eq_zero hneeded]
      omega
    · rw [if_neg hneeded, if_neg hneeded]
      by_cases hb : p.lower ≤ b.toNat ∧ b.toNat ≤ p.upper
      · rw [if_pos hb, if_pos hb]
        by_cases hlast : p.needed = 1
        · rw [if_pos hlast, if_pos hlast, encodedLength_cons, h.last hlast hb, ih .none]
          omega
        · rw [if_neg hlast, if_neg hlast, ih (h.middle (by omega) hb)]
          omega
      · -- the code point is cut short, and the byte starts anew
        rw [if_neg hb, if_neg hb, encodedLength_cons, length_encodeChar_replacement, hstarted]
        have hread := h.read_le
        show _ = k + (bs.length + 1) + (3 - k + growthOf _)
        omega

/-- **The length of a text that is decoded.** -/
theorem length_encode_decode (bytes : List UInt8) :
    (encode (decode bytes)).length = bytes.length + growth bytes := by
  rw [encode_eq, decode, String.toList_ofList]
  refine (encodedLength_decodeFrom bytes .none).trans ?_
  rw [Nat.zero_add]
  rfl

/-! ### Bytes that are well-formed -/

/-- A byte below 0x80 ends what comes before it, and is well-formed itself. -/
theorem illFormedFrom_append_ascii (bs : List UInt8) {k : ℕ} {p : Pending} (h : After k p)
    {a : UInt8} (ha : a.toNat < 0x80) (as : List UInt8) :
    illFormedFrom k p (bs ++ a :: as) = illFormedFrom k p bs ++ illFormed as := by
  induction bs generalizing k p with
  | nil =>
    -- an ASCII byte goes on with nothing: what is pending is ill-formed, and the byte stands for
    -- itself
    have hlead : lead a.toNat = ([Char.ofNat a.toNat], .none) := by rw [lead, if_pos ha]
    have hne : Char.ofNat a.toNat ≠ '\uFFFD' := by
      intro heq
      have hlength := length_encodeChar_ofNat (n := a.toNat) (by omega)
      rw [heq, if_pos (by omega)] at hlength
      exact absurd hlength (by decide)
    have hlower := h.lower
    rw [List.nil_append, illFormedFrom, illFormedFrom, hlead]
    dsimp only
    rw [if_neg (show ¬[Char.ofNat a.toNat] = ['\uFFFD'] by simpa using hne),
      if_neg (show ¬(p.lower ≤ a.toNat ∧ a.toNat ≤ p.upper) by omega)]
    split
    · rfl
    · rfl
  | cons b bs ih =>
    -- where the byte does not go on with what is pending, it begins anew
    have hstarted : illFormedFrom (if (lead b.toNat).2.needed = 0 then 0 else 1) (lead b.toNat).2
        (bs ++ a :: as) = illFormedFrom (if (lead b.toNat).2.needed = 0 then 0 else 1)
          (lead b.toNat).2 bs ++ illFormed as := by
      have hb : b.toNat < 256 := b.toNat_lt
      obtain ⟨-, hlead⟩ | hlead | ⟨p', hlead, hneeded, hafter⟩ := lead_cases hb
      · rw [hlead]
        exact ih .none
      · rw [hlead]
        exact ih .none
      · rw [hlead]
        dsimp only
        rw [if_neg hneeded]
        exact ih hafter
    rw [List.cons_append, illFormedFrom, illFormedFrom, hstarted]
    -- nothing is pending, or the byte does not belong to it, or it does and may be the last
    by_cases hneeded : p.needed = 0
    · rw [if_pos hneeded, if_pos hneeded, List.append_assoc]
    · rw [if_neg hneeded, if_neg hneeded]
      by_cases hb : p.lower ≤ b.toNat ∧ b.toNat ≤ p.upper
      · rw [if_pos hb, if_pos hb]
        by_cases hlast : p.needed = 1
        · rw [if_pos hlast, if_pos hlast, ih .none]
        · rw [if_neg hlast, if_neg hlast, ih (h.middle (by omega) hb)]
      · rw [if_neg hb, if_neg hb, List.cons_append, List.append_assoc]

theorem illFormed_ascii {as : List UInt8} (h : ∀ a ∈ as, a.toNat < 0x80) : illFormed as = [] := by
  induction as with
  | nil => rfl
  | cons a as ih =>
    rw [List.forall_mem_cons] at h
    rw [illFormed]
    refine (illFormedFrom_append_ascii [] .none h.1 as).trans ?_
    rw [ih h.2]
    rfl

theorem growth_append_ascii (bs : List UInt8) {as : List UInt8} (h : ∀ a ∈ as, a.toNat < 0x80) :
    growth (bs ++ as) = growth bs := by
  cases as with
  | nil => rw [List.append_nil]
  | cons a as =>
    rw [List.forall_mem_cons] at h
    rw [growth, illFormed, illFormedFrom_append_ascii bs .none h.1 as, illFormed_ascii h.2,
      List.append_nil]
    rfl

theorem lt_of_mem_encode {s : String} (h : ∀ c ∈ s.toList, c.toNat < 0x80) :
    ∀ b ∈ encode s, b.toNat < 0x80 := by
  intro b hb
  rw [encode_eq, List.mem_flatMap] at hb
  obtain ⟨c, hc, hb⟩ := hb
  have hsmall : c.val.toNat < 0x80 := h c hc
  rw [String.utf8EncodeChar, if_pos (by omega), List.mem_singleton] at hb
  rw [hb, toNat_ofNat_byte (by omega)]
  exact hsmall

end Utf8
