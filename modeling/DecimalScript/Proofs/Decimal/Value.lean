import Mathlib.Data.Int.Log
import Mathlib.Data.Rat.Floor
import Mathlib.Tactic.Positivity
import Mathlib.Tactic.FieldSimp
import DecimalScript.Decimal.Order
import DecimalScript.Proofs.Decimal.Digits

/-!
# The number that a decimal stands for

`Decimal.toRat` is the rational number `coeff * 10 ^ exp`. The comparison of decimals, which decides
by signs and by the positions of the leading digits before it brings anything to one exponent, is
the order of these numbers (`cmp_eq_compare_toRat`); so two decimals are equal if and only if they
stand for one number (`equal_iff_toRat_eq`).
-/

namespace DecimalScript.Decimal

/-- The number that a decimal stands for. -/
def toRat (d : Decimal) : ℚ :=
  d.coeff * 10 ^ d.exp

theorem ten_zpow_pos (e : ℤ) : (0 : ℚ) < 10 ^ e := zpow_pos (by norm_num) e

theorem toRat_pos_iff {d : Decimal} : 0 < d.toRat ↔ 0 < d.coeff := by
  rw [toRat, mul_pos_iff_of_pos_right (ten_zpow_pos _), Int.cast_pos]

theorem toRat_neg_iff {d : Decimal} : d.toRat < 0 ↔ d.coeff < 0 := by
  rw [toRat, ← neg_pos, ← neg_mul, mul_pos_iff_of_pos_right (ten_zpow_pos _), neg_pos,
    Int.cast_lt_zero]

theorem toRat_eq_zero_iff {d : Decimal} : d.toRat = 0 ↔ d.coeff = 0 := by
  rw [toRat, mul_eq_zero_iff_right (ten_zpow_pos _).ne', Int.cast_eq_zero]

theorem abs_toRat (d : Decimal) : |d.toRat| = d.coeff.natAbs * 10 ^ d.exp := by
  rw [toRat, abs_mul, abs_of_pos (ten_zpow_pos _), Nat.cast_natAbs, Int.cast_abs]

/-- Over a smaller exponent the coefficient stands for the same number. -/
theorem scaledTo_mul_zpow {d : Decimal} {exp : ℤ} (h : exp ≤ d.exp) :
    (d.scaledTo exp : ℚ) * 10 ^ exp = d.toRat := by
  -- the zeros that are written behind the coefficient make up for the exponent
  have hexp : d.exp = (d.exp - exp).toNat + exp := by omega
  rw [toRat, scaledTo, pow10_eq]
  conv_rhs => rw [hexp, zpow_add₀ (by norm_num : (10 : ℚ) ≠ 0), zpow_natCast]
  push_cast
  ring

/-! ### The leading digit -/

/-- The number is below the power of ten over its leading digit. -/
theorem abs_toRat_lt_zpow (d : Decimal) : |d.toRat| < 10 ^ d.leading := by
  rw [abs_toRat, leading, zpow_add₀ (by norm_num : (10 : ℚ) ≠ 0), zpow_natCast]
  refine mul_lt_mul_of_pos_right ?_ (ten_zpow_pos _)
  exact_mod_cast lt_pow_digitCount d.coeff.natAbs

/-- A number other than zero is at least the power of ten at its leading digit. -/
theorem zpow_le_abs_toRat {d : Decimal} (hd : d.coeff ≠ 0) :
    (10 : ℚ) ^ (d.leading - 1) ≤ |d.toRat| := by
  -- there is at least one digit, so the difference of the counts is not cut off at zero
  have hsplit : d.leading - 1 = (digitCount d.coeff.natAbs - 1 : ℕ) + d.exp := by
    have := digitCount_pos d.coeff.natAbs
    rw [leading]
    omega
  rw [abs_toRat, hsplit, zpow_add₀ (by norm_num : (10 : ℚ) ≠ 0), zpow_natCast]
  refine mul_le_mul_of_nonneg_right ?_ (ten_zpow_pos _).le
  exact_mod_cast pow_pred_digitCount_le (Int.natAbs_pos.2 hd)

/-- Of two numbers, the one with the higher leading digit is the greater in magnitude. -/
theorem abs_toRat_lt_of_leading_lt {x y : Decimal} (hy : y.coeff ≠ 0) (h : x.leading < y.leading) :
    |x.toRat| < |y.toRat| :=
  calc |x.toRat| < 10 ^ x.leading := abs_toRat_lt_zpow x
    _ ≤ 10 ^ (y.leading - 1) := zpow_le_zpow_right₀ (by norm_num) (by omega)
    _ ≤ |y.toRat| := zpow_le_abs_toRat hy

/-! ### The order -/

theorem compare_scaledTo (x y : Decimal) :
    compare (x.scaledTo (min x.exp y.exp)) (y.scaledTo (min x.exp y.exp)) =
      compare x.toRat y.toRat := by
  rw [← scaledTo_mul_zpow (min_le_left x.exp y.exp), ← scaledTo_mul_zpow (min_le_right x.exp y.exp)]
  -- over one exponent the numbers compare as their coefficients do
  have hpos := ten_zpow_pos (min x.exp y.exp)
  -- three cases for the coefficients, and in each the numbers fall in the same way
  rcases lt_trichotomy (x.scaledTo (min x.exp y.exp)) (y.scaledTo (min x.exp y.exp)) with h | h | h
  · rw [compare_lt_iff_lt.2 h, eq_comm, compare_lt_iff_lt, mul_lt_mul_iff_left₀ hpos]
    exact_mod_cast h
  · rw [h]
    simp
  · rw [compare_gt_iff_gt.2 h, eq_comm, compare_gt_iff_gt, mul_lt_mul_iff_left₀ hpos]
    exact_mod_cast h

theorem sign_lt_sign {x y : Decimal} (h : x.coeff.sign < y.coeff.sign) : x.toRat < y.toRat := by
  -- the signs are apart only if one is on the other side of zero, or is zero
  have hsigns : x.coeff < 0 ∧ 0 ≤ y.coeff ∨ x.coeff ≤ 0 ∧ 0 < y.coeff := by
    rcases lt_trichotomy x.coeff 0 with hx | hx | hx <;>
      rcases lt_trichotomy y.coeff 0 with hy | hy | hy <;>
      simp only [hx, hy, Int.sign_eq_neg_one_of_neg, Int.sign_eq_one_of_pos, Int.sign_zero] at h <;>
      omega
  -- zero stands between the two numbers
  rcases hsigns with ⟨hx, hy⟩ | ⟨hx, hy⟩
  · exact lt_of_lt_of_le (toRat_neg_iff.2 hx) (not_lt.1 fun hneg => by
      have := toRat_neg_iff.1 hneg
      omega)
  · exact lt_of_le_of_lt (not_lt.1 fun hpos => by
      have := toRat_pos_iff.1 hpos
      omega) (toRat_pos_iff.2 hy)

theorem toRat_lt_of_leading_lt {x y : Decimal} (hx : 0 < x.coeff) (hy : 0 < y.coeff)
    (h : x.leading < y.leading) : x.toRat < y.toRat := by
  -- the magnitudes are ordered by the leading digit, and so are the numbers above zero
  have habs := abs_toRat_lt_of_leading_lt hy.ne' h
  rwa [abs_of_pos (toRat_pos_iff.2 hx), abs_of_pos (toRat_pos_iff.2 hy)] at habs

/-- Below zero the number with the higher leading digit is the smaller one. -/
theorem toRat_lt_of_lt_leading {x y : Decimal} (hx : x.coeff < 0) (hy : y.coeff < 0)
    (h : x.leading < y.leading) : y.toRat < x.toRat := by
  have habs := abs_toRat_lt_of_leading_lt hy.ne h
  rw [abs_of_neg (toRat_neg_iff.2 hx), abs_of_neg (toRat_neg_iff.2 hy)] at habs
  exact neg_lt_neg_iff.1 habs

theorem coeff_signs {x y : Decimal} (hsign : x.coeff.sign = y.coeff.sign) (hx : x.coeff ≠ 0) :
    x.coeff < 0 ∧ y.coeff < 0 ∨ 0 < x.coeff ∧ 0 < y.coeff := by
  rcases lt_or_gt_of_ne hx with hneg | hpos
  · rw [Int.sign_eq_neg_one_of_neg hneg, eq_comm, Int.sign_eq_neg_one_iff_neg] at hsign
    exact .inl ⟨hneg, hsign⟩
  · rw [Int.sign_eq_one_of_pos hpos, eq_comm, Int.sign_eq_one_iff_pos] at hsign
    exact .inr ⟨hpos, hsign⟩

/-- **The order of decimals is the order of the numbers.** -/
theorem cmp_eq_compare_toRat (x y : Decimal) : x.cmp y = compare x.toRat y.toRat := by
  -- the comparison in its own order: the signs, then the leading digits, then the scaled
  -- coefficients
  unfold cmp
  split
  · next h => exact (compare_lt_iff_lt.2 (sign_lt_sign (compare_lt_iff_lt.1 h))).symm
  · next h => exact (compare_gt_iff_gt.2 (sign_lt_sign (compare_gt_iff_gt.1 h))).symm
  · next h =>
    have hsign : x.coeff.sign = y.coeff.sign := compare_eq_iff_eq.1 h
    split
    · next hx =>
      -- two zeros, with whatever exponents
      have hy : y.coeff = 0 := by
        rwa [hx, Int.sign_zero, eq_comm, Int.sign_eq_zero_iff_zero] at hsign
      rw [toRat_eq_zero_iff.2 hx, toRat_eq_zero_iff.2 hy, eq_comm, compare_eq_iff_eq]
    · next hx =>
      obtain ⟨hneg, hneg'⟩ | ⟨hpos, hpos'⟩ := coeff_signs hsign hx
      · -- below zero the number with the higher leading digit comes first
        rw [if_pos hneg, if_pos hneg]
        split
        · exact compare_scaledTo x y
        · next hlead =>
          rw [eq_comm, compare_gt_iff_gt]
          exact toRat_lt_of_lt_leading hneg hneg' (compare_lt_iff_lt.1 hlead)
        · next hlead =>
          rw [eq_comm, compare_lt_iff_lt]
          exact toRat_lt_of_lt_leading hneg' hneg (compare_gt_iff_gt.1 hlead)
      · -- above zero it is the other way round
        rw [if_neg hpos.not_gt, if_neg hpos.not_gt]
        split
        · exact compare_scaledTo x y
        · next hlead =>
          rw [eq_comm, compare_lt_iff_lt]
          exact toRat_lt_of_leading_lt hpos hpos' (compare_lt_iff_lt.1 hlead)
        · next hlead =>
          rw [eq_comm, compare_gt_iff_gt]
          exact toRat_lt_of_leading_lt hpos' hpos (compare_gt_iff_gt.1 hlead)

theorem equal_iff_toRat_eq {x y : Decimal} : x.equal y = true ↔ x.toRat = y.toRat := by
  rw [equal, beq_iff_eq, cmp_eq_compare_toRat, compare_eq_iff_eq]

end DecimalScript.Decimal
