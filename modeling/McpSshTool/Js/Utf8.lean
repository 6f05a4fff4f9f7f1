import Mathlib.Data.Char

/-!
# Bytes and text

`Buffer.from(s)` and `buffer.toString("utf8")`. Decoding never fails: a byte that no encoding has in
its place is read as U+FFFD, and so is an encoding that is cut short.
-/

namespace Utf8

/-- `Buffer.from(s)`. -/
def encode (s : String) : List UInt8 := s.toUTF8.data.toList

/-- The bytes of a code point that are still to come: the bits read so far, how many bytes are
missing, and the bounds of the next one. -/
structure Pending where
  codePoint : ℕ
  needed : ℕ
  lower : ℕ
  upper : ℕ

/-- No code point is pending. -/
def Pending.none : Pending := ⟨0, 0, 0x80, 0xBF⟩

/-- A byte where a code point starts: what it stands for on its own, and what it starts. -/
def lead (b : ℕ) : List Char × Pending :=
  if b < 0x80 then ([Char.ofNat b], .none)
  else if 0xC2 ≤ b ∧ b ≤ 0xDF then ([], ⟨b % 32, 1, 0x80, 0xBF⟩)
  -- the bounds of the second byte keep out overlong forms, surrogates and what is too large
  else if b = 0xE0 then ([], ⟨0, 2, 0xA0, 0xBF⟩)
  else if b = 0xED then ([], ⟨0xD, 2, 0x80, 0x9F⟩)
  else if 0xE1 ≤ b ∧ b ≤ 0xEF then ([], ⟨b % 16, 2, 0x80, 0xBF⟩)
  else if b = 0xF0 then ([], ⟨0, 3, 0x90, 0xBF⟩)
  else if b = 0xF4 then ([], ⟨4, 3, 0x80, 0x8F⟩)
  else if 0xF1 ≤ b ∧ b ≤ 0xF3 then ([], ⟨b % 8, 3, 0x80, 0xBF⟩)
  else (['\uFFFD'], .none)

def decodeFrom (p : Pending) : List UInt8 → List Char
  | [] => if p.needed = 0 then [] else ['\uFFFD']
  | b :: bs =>
    let b := b.toNat
    if p.needed = 0 then (lead b).1 ++ decodeFrom (lead b).2 bs
    else if p.lower ≤ b ∧ b ≤ p.upper then
      let codePoint := p.codePoint * 64 + b % 64
      if p.needed = 1 then Char.ofNat codePoint :: decodeFrom .none bs
      else decodeFrom ⟨codePoint, p.needed - 1, 0x80, 0xBF⟩ bs
    else '\uFFFD' :: ((lead b).1 ++ decodeFrom (lead b).2 bs)

/-- `buffer.toString("utf8")`. -/
def decode (bytes : List UInt8) : String := String.ofList (decodeFrom .none bytes)

/-! ### Decoding what was encoded -/

theorem encode_eq (s : String) : encode s = s.toList.flatMap String.utf8EncodeChar := by
  rw [encode, String.toUTF8, ← String.utf8Encode_toList, List.utf8Encode, List.data_toByteArray,
    List.toList_toArray]

theorem toNat_ofNat_byte {n : ℕ} (h : n < 256) : (UInt8.ofNat n).toNat = n := by
  rw [UInt8.toNat_ofNat']
  exact Nat.mod_eq_of_lt h

theorem decodeFrom_lead {n : ℕ} (bs : List UInt8) (hn : n < 256) :
    decodeFrom .none (UInt8.ofNat n :: bs) = (lead n).1 ++ decodeFrom (lead n).2 bs := by
  rw [decodeFrom, toNat_ofNat_byte hn]
  exact if_pos rfl

theorem lead_two {b : ℕ} (h : 0xC2 ≤ b ∧ b ≤ 0xDF) : lead b = ([], ⟨b % 32, 1, 0x80, 0xBF⟩) := by
  rw [lead, if_neg (by omega), if_pos h]

theorem lead_three {b : ℕ} (h : 0xE0 ≤ b ∧ b ≤ 0xEF) :
    lead b = ([], ⟨b % 16, 2, if b = 0xE0 then 0xA0 else 0x80,
      if b = 0xED then 0x9F else 0xBF⟩) := by
  rw [lead, if_neg (by omega), if_neg (by omega)]
  by_cases h0 : b = 0xE0
  · subst h0
    rfl
  · rw [if_neg h0]
    by_cases hD : b = 0xED
    · subst hD
      rfl
    · rw [if_neg hD, if_pos (by omega), if_neg h0, if_neg hD]

theorem lead_four {b : ℕ} (h : 0xF0 ≤ b ∧ b ≤ 0xF4) :
    lead b = ([], ⟨b % 8, 3, if b = 0xF0 then 0x90 else 0x80,
      if b = 0xF4 then 0x8F else 0xBF⟩) := by
  rw [lead, if_neg (by omega), if_neg (by omega), if_neg (by omega), if_neg (by omega),
    if_neg (by omega)]
  by_cases h0 : b = 0xF0
  · subst h0
    rfl
  · rw [if_neg h0]
    by_cases h4 : b = 0xF4
    · subst h4
      rfl
    · rw [if_neg h4, if_pos (by omega), if_neg h0, if_neg h4]

theorem decodeFrom_middle {p : Pending} {n : ℕ} (bs : List UInt8) (hneeded : 2 ≤ p.needed)
    (hn : n < 256) (hbounds : p.lower ≤ n ∧ n ≤ p.upper) :
    decodeFrom p (UInt8.ofNat n :: bs) =
      decodeFrom ⟨p.codePoint * 64 + n % 64, p.needed - 1, 0x80, 0xBF⟩ bs := by
  rw [decodeFrom, toNat_ofNat_byte hn, if_neg (by omega), if_pos hbounds, if_neg (by omega)]

theorem decodeFrom_last {p : Pending} {n : ℕ} (bs : List UInt8) (hneeded : p.needed = 1)
    (hn : n < 256) (hbounds : p.lower ≤ n ∧ n ≤ p.upper) :
    decodeFrom p (UInt8.ofNat n :: bs) =
      Char.ofNat (p.codePoint * 64 + n % 64) :: decodeFrom .none bs := by
  rw [decodeFrom, toNat_ofNat_byte hn, if_neg (by omega), if_pos hbounds, if_pos hneeded]

/-- **A code point is read back from its encoding**, which starts with no code point pending and
leaves none. -/
theorem decodeFrom_encodeChar (c : Char) (bs : List UInt8) :
    decodeFrom .none (String.utf8EncodeChar c ++ bs) = c :: decodeFrom .none bs := by
  have hvalid : c.val.toNat < 0xD800 ∨ (0xDFFF < c.val.toNat ∧ c.val.toNat < 0x110000) := c.valid
  have hcode : Char.ofNat c.val.toNat = c := Char.ofNat_toNat c
  rw [String.utf8EncodeChar]
  generalize c.val.toNat = v at hvalid hcode ⊢
  -- the bounds of the second byte hold, for `v` is no surrogate and its encoding is the shortest
  split_ifs with h1 h2 h3
  · rw [List.singleton_append, decodeFrom_lead _ (by omega), lead, if_pos (by omega), hcode]
    rfl
  · rw [List.cons_append, List.singleton_append, decodeFrom_lead _ (by omega), lead_two (by omega),
      List.nil_append, decodeFrom_last bs rfl (by omega)]
    · dsimp only
      rw [show (v / 64 % 0x20 + 0xc0) % 32 * 64 + (v % 0x40 + 0x80) % 64 = v by omega, hcode]
    · dsimp only
      omega
  · rw [List.cons_append, List.cons_append, List.singleton_append, decodeFrom_lead _ (by omega),
      lead_three (by omega), List.nil_append, decodeFrom_middle _ (le_refl 2) (by omega),
      decodeFrom_last bs rfl (by omega)]
    · dsimp only
      rw [show ((v / 4096 % 0x10 + 0xe0) % 16 * 64 + (v / 64 % 0x40 + 0x80) % 64) * 64 +
        (v % 0x40 + 0x80) % 64 = v by omega, hcode]
    · dsimp only
      omega
    · dsimp only
      split_ifs <;> omega
  · rw [List.cons_append, List.cons_append, List.cons_append, List.singleton_append,
      decodeFrom_lead _ (by omega), lead_four (by omega), List.nil_append,
      decodeFrom_middle _ (Nat.le_succ 2) (by omega), decodeFrom_middle _ (le_refl 2) (by omega),
      decodeFrom_last bs rfl (by omega)]
    · dsimp only
      rw [show (((v / 262144 % 8 + 0xf0) % 8 * 64 + (v / 4096 % 0x40 + 0x80) % 64) * 64 +
        (v / 64 % 0x40 + 0x80) % 64) * 64 + (v % 0x40 + 0x80) % 64 = v by omega, hcode]
    · dsimp only
      omega
    · dsimp only
      omega
    · dsimp only
      split_ifs <;> omega

/-- **Text is read back from its bytes.** -/
theorem decode_encode (s : String) : decode (encode s) = s := by
  have hchars : ∀ cs : List Char, decodeFrom .none (cs.flatMap String.utf8EncodeChar) = cs := by
    intro cs
    induction cs with
    | nil => rfl
    | cons c cs ih => rw [List.flatMap_cons, decodeFrom_encodeChar, ih]
  rw [decode, encode_eq, hchars, String.ofList_toList]

theorem encode_injective : Function.Injective encode :=
  Function.LeftInverse.injective decode_encode

end Utf8
