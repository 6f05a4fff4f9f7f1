import Mathlib.Data.Int.Log
import Mathlib.Data.Rat.Floor
import Mathlib.Tactic.Linarith
import Mathlib.Tactic.Positivity
import Mathlib.Tactic.Ring
import McpSshTool.Js.Value

/-!
# Rounding to a double

What an operation on numbers gives where its exact result is no double: the double nearest to it,
and of two that are equally near the one with the even last digit.

* `roundEven` — the same for whole numbers;
* `spacing` — how far the doubles of a size lie apart; `round`; `JsNumber.ofRat`, which overflows;
* `Reaches`, `le_round_iff` — when the double nearest to a number is not below a whole number.
-/

namespace Double

/-- The nearest whole number, or the even one of two. -/
def roundEven (x : ℚ) : ℤ :=
  if 2 * (x - ⌊x⌋) < 1 ∨ 2 * (x - ⌊x⌋) = 1 ∧ Even ⌊x⌋ then ⌊x⌋ else ⌊x⌋ + 1

/-- The place of the last digit of a double of this size. -/
def exponent (x : ℚ) : ℤ := max (Int.log 2 |x| - 52) (-1074)

/-- How far the doubles of this size lie apart. -/
def spacing (x : ℚ) : ℚ := (2 : ℚ) ^ exponent x

/-- **The nearest double**, with no bound on its size. -/
def round (x : ℚ) : ℚ := roundEven (x / spacing x) * spacing x

/-- The double nearest to `z` is not below `n`: `z` is not, or it is nearer to `n` than half the
distance of doubles. -/
def Reaches (z : ℚ) (n : ℤ) : Prop :=
  n ≤ z ∨ 2 * (n - z) < spacing z ∨ 2 * (n - z) = spacing z ∧ (spacing z < 1 ∨ Even n)

instance (z : ℚ) (n : ℤ) : Decidable (Reaches z n) := inferInstanceAs (Decidable (_ ∨ _ ∨ _))

/-! ### Whole numbers -/

/-- **Where rounding reaches a whole number.** -/
theorem le_roundEven_iff {x : ℚ} {n : ℤ} :
    n ≤ roundEven x ↔ 1 < 2 * (x - n) + 2 ∨ 2 * (x - n) + 2 = 1 ∧ Even n := by
  have hfloor := Int.floor_le x
  have hlt := Int.lt_floor_add_one x
  unfold roundEven
  rcases lt_trichotomy n (⌊x⌋ + 1) with hn | rfl | hn
  · -- below the number: rounding never goes below the floor
    have hle : n ≤ ⌊x⌋ := Int.lt_add_one_iff.mp hn
    have hcast : (n : ℚ) ≤ ⌊x⌋ := by exact_mod_cast hle
    refine iff_of_true ?_ (.inl (by linarith))
    split <;> omega
  · -- the next one: it is reached where the number is past the middle
    rw [Int.even_add_one]
    push_cast
    split
    · next h =>
      refine iff_of_false (by omega) ?_
      rintro (h' | ⟨h', hodd⟩)
      · rcases h with h | ⟨h, -⟩ <;> linarith
      · rcases h with h | ⟨-, heven⟩
        · linarith
        · exact hodd heven
    · next h =>
      refine iff_of_true le_rfl ?_
      rw [not_or, not_and] at h
      rcases (not_lt.mp h.1).lt_or_eq with hpast | hmiddle
      · exact .inl (by linarith)
      · exact .inr ⟨by linarith, h.2 hmiddle.symm⟩
  · -- two steps away
    have hcast : (⌊x⌋ : ℚ) + 1 + 1 ≤ n := by exact_mod_cast Int.add_one_le_iff.mpr hn
    refine iff_of_false ?_ ?_
    · split <;> omega
    · rintro (h | ⟨h, -⟩) <;> linarith

theorem le_roundEven {x : ℚ} {n : ℤ} (h : (n : ℚ) ≤ x) : n ≤ roundEven x :=
  le_roundEven_iff.mpr (.inl (by linarith))

theorem roundEven_le {x : ℚ} {n : ℤ} (h : x ≤ n) : roundEven x ≤ n := by
  refine Int.not_lt.mp fun hlt => ?_
  rcases le_roundEven_iff.mp (Int.add_one_le_iff.mpr hlt) with h' | ⟨h', -⟩ <;>
    · push_cast at h'
      linarith

/-! ### Doubles -/

theorem spacing_pos (x : ℚ) : 0 < spacing x := zpow_pos two_pos _

theorem spacing_le (x : ℚ) : spacing x ≤ |x| + 1 := by
  unfold spacing exponent
  rcases max_choice (Int.log 2 |x| - 52) (-1074) with h | h <;> rw [h]
  · rcases eq_or_ne x 0 with rfl | hx
    · rw [abs_zero, Int.log_zero_right]
      norm_num
    · calc (2 : ℚ) ^ (Int.log 2 |x| - 52) ≤ 2 ^ Int.log 2 |x| :=
            zpow_le_zpow_right₀ one_le_two (by omega)
        _ ≤ |x| := by exact_mod_cast Int.zpow_log_le_self one_lt_two (abs_pos.mpr hx)
        _ ≤ |x| + 1 := by linarith
  · have hsmall : (2 : ℚ) ^ (-1074 : ℤ) ≤ 1 := zpow_le_one_of_nonpos₀ one_le_two (by decide)
    linarith [abs_nonneg x]

theorem exponent_nonpos {x : ℚ} (hx : 0 ≤ x) (hlt : x < 2 ^ 53) : exponent x ≤ 0 := by
  refine max_le ?_ (by decide)
  rcases hx.eq_or_lt with rfl | hpos
  · rw [abs_zero, Int.log_zero_right]
    decide
  · have hlog := (Int.lt_zpow_iff_log_lt (R := ℚ) one_lt_two hpos (x := 53)).mp
      (by exact_mod_cast hlt)
    rw [abs_of_pos hpos]
    omega

theorem spacing_le_one {x : ℚ} (hx : 0 ≤ x) (hlt : x < 2 ^ 53) : spacing x ≤ 1 :=
  zpow_le_one_of_nonpos₀ one_le_two (exponent_nonpos hx hlt)

theorem not_reaches_of_le {z : ℚ} {n : ℤ} (hz : z ≤ n - 1) (hpos : 1 ≤ n) (hn : (n : ℚ) ≤ 2 ^ 53) :
    ¬Reaches z n := by
  have hone : (1 : ℚ) ≤ n := by exact_mod_cast hpos
  have hspacing : spacing z < 2 * (n - z) := by
    rcases le_or_gt 0 z with h | h
    · have hle := spacing_le_one h (by linarith)
      linarith
    · have hsize := spacing_le z
      rw [abs_of_neg h] at hsize
      linarith
  rintro (h | h | ⟨h, -⟩) <;> linarith

/-- From `2 ^ 53` on, the nearest double is that large, too. -/
theorem le_round_of_le {z : ℚ} (hz : (2 : ℚ) ^ 53 ≤ z) : (2 : ℚ) ^ 53 ≤ round z := by
  have hpos : (0 : ℚ) < z := lt_of_lt_of_le (by positivity) hz
  have hlog : (53 : ℤ) ≤ Int.log 2 z :=
    (Int.zpow_le_iff_le_log (R := ℚ) one_lt_two hpos).mp (by exact_mod_cast hz)
  have hexponent : exponent z = Int.log 2 z - 52 := by
    unfold exponent
    rw [abs_of_pos hpos]
    omega
  have hspacing : (2 : ℚ) ^ 52 * spacing z = 2 ^ Int.log 2 z := by
    rw [spacing, hexponent, ← zpow_natCast (2 : ℚ) 52, ← zpow_add₀ two_ne_zero]
    congr 1
    push_cast
    omega
  have hround : (2 : ℤ) ^ 52 ≤ roundEven (z / spacing z) := by
    have hfirst : (2 : ℚ) ^ 52 ≤ z / spacing z := by
      rw [le_div_iff₀ (spacing_pos z), hspacing]
      exact_mod_cast Int.zpow_log_le_self one_lt_two hpos
    exact le_roundEven (by exact_mod_cast hfirst)
  have hcast : (2 : ℚ) ^ 52 ≤ roundEven (z / spacing z) := by exact_mod_cast hround
  calc (2 : ℚ) ^ 53 ≤ 2 ^ Int.log 2 z := by
        rw [← zpow_natCast]
        exact zpow_le_zpow_right₀ one_le_two (by exact_mod_cast hlog)
    _ = 2 ^ 52 * spacing z := hspacing.symm
    _ ≤ round z := mul_le_mul_of_nonneg_right hcast (spacing_pos z).le

theorem round_nonpos {x : ℚ} (hx : x ≤ 0) : round x ≤ 0 := by
  have hround : roundEven (x / spacing x) ≤ 0 :=
    roundEven_le (by exact_mod_cast div_nonpos_of_nonpos_of_nonneg hx (spacing_pos x).le)
  exact mul_nonpos_of_nonpos_of_nonneg (by exact_mod_cast hround) (spacing_pos x).le

/-- **When the nearest double is not below a whole number.** -/
theorem le_round_iff {z : ℚ} {n : ℤ} (hpos : 1 ≤ n) (hn : (n : ℚ) ≤ 2 ^ 53) :
    (n : ℚ) ≤ round z ↔ Reaches z n := by
  rcases lt_or_ge z 0 with hneg | hz
  · -- a negative number is rounded to one that is not positive
    have hone : (1 : ℚ) ≤ n := by exact_mod_cast hpos
    refine iff_of_false (not_le.mpr ?_) (not_reaches_of_le (by linarith) hpos hn)
    exact (round_nonpos hneg.le).trans_lt (by linarith)
  · rcases lt_or_ge z (2 ^ 53) with hlt | hlarge
    · -- the whole number is a multiple of the spacing
      obtain ⟨k, hk⟩ := Int.eq_ofNat_of_zero_le (neg_nonneg.mpr (exponent_nonpos hz hlt))
      have hspacing : spacing z * 2 ^ k = 1 := by
        rw [spacing, ← zpow_natCast, ← zpow_add₀ two_ne_zero, ← hk, add_neg_cancel, zpow_zero]
      have hs := spacing_pos z
      have hmultiple : ((n * 2 ^ k : ℤ) : ℚ) * spacing z = n := by
        push_cast
        rw [mul_assoc, mul_comm (2 ^ k), hspacing, mul_one]
      have heven : Even (n * 2 ^ k) ↔ spacing z < 1 ∨ Even n := by
        cases k with
        | zero =>
          rw [pow_zero, mul_one] at hspacing
          rw [pow_zero, mul_one, hspacing]
          exact (or_iff_right (lt_irrefl _)).symm
        | succ k =>
          refine iff_of_true ?_ (.inl ?_)
          · rw [pow_succ, ← mul_assoc]
            exact even_two.mul_left _
          · have htwo : (2 : ℚ) ≤ 2 ^ (k + 1) := le_self_pow₀ one_le_two (Nat.succ_ne_zero k)
            nlinarith
      have hquotient : z / spacing z - (n * 2 ^ k : ℤ) = (z - n) / spacing z := by
        rw [sub_div, sub_right_inj, eq_div_iff hs.ne', hmultiple]
      rw [round, ← hmultiple, mul_le_mul_iff_left₀ hs, Int.cast_le, le_roundEven_iff, heven,
        hquotient]
      have hpast : 1 < 2 * ((z - n) / spacing z) + 2 ↔ 2 * (n - z) < spacing z := by
        rw [← sub_pos, show 2 * ((z - n) / spacing z) + 2 - 1 = (spacing z - 2 * (n - z)) /
          spacing z by
          field_simp; ring, div_pos_iff_of_pos_right hs, sub_pos]
      have hmiddle : 2 * ((z - n) / spacing z) + 2 = 1 ↔ 2 * (n - z) = spacing z := by
        rw [← sub_eq_zero, show 2 * ((z - n) / spacing z) + 2 - 1 = (spacing z - 2 * (n - z)) /
          spacing z by
          field_simp; ring, div_eq_zero_iff, or_iff_left hs.ne', sub_eq_zero, eq_comm]
      rw [hpast, hmiddle, Reaches]
      refine ⟨.inr, fun h => h.elim (fun hle => .inl ?_) id⟩
      linarith
    · exact iff_of_true (hn.trans (le_round_of_le hlarge)) (.inl (hn.trans hlarge))

/-- A whole number past `2 ^ 53` is reached by large numbers only. -/
theorem le_round_of_reaches {z : ℚ} {n : ℤ} (h : Reaches z n) (hn : (2 : ℚ) ^ 53 < n) :
    (2 : ℚ) ^ 53 ≤ round z := by
  refine le_round_of_le (not_lt.mp fun hlt => ?_)
  have hspacing : spacing z < 2 * (n - z) := by
    rcases le_or_gt 0 z with hz | hz
    · have hnext : (2 : ℚ) ^ 53 + 1 ≤ n := by exact_mod_cast hn
      have hone := spacing_le_one hz hlt
      linarith
    · have hsize := spacing_le z
      rw [abs_of_neg hz] at hsize
      have hlarge : (1 : ℚ) ≤ 2 ^ 53 := one_le_pow₀ one_le_two
      linarith
  rcases h with h | h | ⟨h, -⟩ <;> linarith

end Double

/-- The number that stands for an exact result. -/
def JsNumber.ofRat (q : ℚ) : JsNumber :=
  if |Double.round q| < 2 ^ 1024 then .fin (Double.round q) else if 0 < q then .posInf else .negInf

example : JsNumber.ofRat 9007199254740993 = .ofInt 9007199254740992 := by decide +kernel
