import DecimalScript.Proofs.Decimal.Canonical

/-!
# Shifts that are cut short

Before two coefficients are divided, one of them is shifted so far that the whole quotient has one or
two digits more than are kept. Of a shift of more than 32 bits only the greatest that has no more is
made, and the exponent of the result is still that of the whole shift. So the result is the rounded
quotient moved by as many places as the shift was cut short, at the least: its magnitude is a tenth
of the rounded quotient or less if the dividend was to be shifted (`ten_mul_abs_le_of_lt`), and ten
times as much or more if the divisor was (`ten_mul_abs_le_of_gt`).

In the first case digits are missing from the whole quotient, and where they are, a digit is rounded
off that should have been kept. In the second case the whole quotient has more digits than it should,
perhaps so many that the power of ten by which they are to be dropped is capped as well. Both only
move the result further away.
-/

namespace DecimalScript.Decimal

variable {x y d : Decimal} {r : ℚ} {k : ℤ}

/-! ### Guard digits -/

/-- Digits that are missing are not made up for: rounding off a digit all the same leaves no more than
the rounded number would be. -/
theorem dropGuardDigits_le (hr : 1 ≤ r) (hcap : k ≤ 4294967296) :
    dropGuardDigits ⌊r⌋₊ k ≤ ⌊r / 10 ^ k + 1 / 2⌋₊ := by
  -- with digits to drop this is the floor itself, without any the division by ten is one too many
  rcases lt_or_ge 0 k with hk | hk
  · exact (dropGuardDigits_floor (zero_le_one.trans hr) hk hcap).le
  · have hone : 0 < ⌊r⌋₊ := Nat.floor_pos.2 hr
    have hexp : (k - 1).toNat = 0 := by omega
    have hle : r ≤ r / 10 ^ k := le_div_self (zero_le_one.trans hr) (ten_zpow_pos k)
      (zpow_le_one_of_nonpos₀ (by norm_num) hk)
    calc dropGuardDigits ⌊r⌋₊ k = (⌊r⌋₊ + 5) / 10 := by
          rw [dropGuardDigits, hexp]
          exact congrArg (fun n => (n + 5) / 10) (Nat.div_one _)
      _ ≤ ⌊r⌋₊ := by omega
      _ ≤ ⌊r / 10 ^ k + 1 / 2⌋₊ := Nat.floor_mono (by linarith)

/-- Fewer digits are dropped than asked for if there are too many, and then more of the number is
left. -/
theorem le_dropGuardDigits (hr : 0 ≤ r) (hk : 0 < k) :
    ⌊r / 10 ^ k + 1 / 2⌋₊ ≤ dropGuardDigits ⌊r⌋₊ k := by
  -- the number of digits is positive, so it is named as a successor
  obtain ⟨j, rfl⟩ : ∃ j : ℕ, k = (j + 1 : ℕ) := ⟨(k - 1).toNat, by omega⟩
  have hexp : ((j + 1 : ℕ) - 1 : ℤ).toNat = j := by omega
  have hcap : cappedPow10 j ≤ 10 ^ j := by
    rw [cappedPow10, pow10_eq]
    exact Nat.pow_le_pow_right (by decide) (min_le_left _ _)
  have hpos : 0 < cappedPow10 j := Nat.pow_pos (by decide)
  -- the divisor that is used is not greater than the one that is meant, so its quotient is not
  -- smaller
  rw [zpow_natCast, ← dropDigits_floor hr (Nat.succ_pos j), dropDigits, dropGuardDigits, hexp,
    pow10_eq]
  have hdiv : ⌊r⌋₊ / 10 ^ j ≤ ⌊r⌋₊ / cappedPow10 j := Nat.div_le_div_left hcap hpos
  omega

/-! ### Quotients of another magnitude -/

theorem abs_toRat_of_div (hx : x.coeff ≠ 0) (hy : y.coeff ≠ 0) (h : x.div y = .ok d) :
    |d.toRat| = dropGuardDigits (wholeQuotient x.coeff.natAbs y.coeff.natAbs)
      (guardDigits x.coeff.natAbs y.coeff.natAbs) * 10 ^ checkedPlace x y := by
  -- the sign of the coefficient does not matter for the magnitude
  rw [div_eq hx hy] at h
  rw [(isCanonical_of_staged h).2, abs_mul, abs_of_pos (ten_zpow_pos _), ← natAbs_roundedCoeff,
    Nat.cast_natAbs, Int.cast_abs]

/-- The dividend was to be shifted further than it was. -/
theorem ten_mul_abs_le_of_lt (hx : x.coeff ≠ 0) (hy : y.coeff ≠ 0)
    (hshift : 4294967295 < quotientShift x.coeff.natAbs y.coeff.natAbs) (h : x.div y = .ok d) :
    10 * |d.toRat| ≤ |roundSignificant quotientDigits (x.toRat / y.toRat)| := by
  rw [abs_toRat_of_div hx hy h]
  rcases eq_or_ne (wholeQuotient x.coeff.natAbs y.coeff.natAbs) 0 with hq | hq
  · -- no digit is left at all
    have hnone (k : ℤ) : dropGuardDigits 0 k = 0 := by
      rw [dropGuardDigits, Nat.zero_div]
    rw [hq, hnone, Nat.cast_zero, zero_mul, mul_zero]
    exact abs_nonneg _
  · have hcapped : cappedShift x.coeff.natAbs y.coeff.natAbs = 4294967295 := by
      rw [cappedShift]
      omega
    have htwo := guardDigits_le_two (Int.natAbs_pos.2 hy) hq (by omega)
    -- the coefficient is no greater, and the place is lower by at least one
    have hcoeff : (dropGuardDigits (wholeQuotient x.coeff.natAbs y.coeff.natAbs)
        (guardDigits x.coeff.natAbs y.coeff.natAbs) : ℚ) ≤
          ⌊|x.toRat / y.toRat| / 10 ^ lastPlace quotientDigits (x.toRat / y.toRat) + 1 / 2⌋₊ := by
      rw [abs_div_lastPlace hq, wholeQuotient_eq_floor]
      exact_mod_cast dropGuardDigits_le (one_le_shifted hq) (by omega)
    rw [abs_roundSignificant_eq, mul_left_comm, ← zpow_one_add₀ (by norm_num)]
    refine mul_le_mul hcoeff (zpow_le_zpow_right₀ (by norm_num) ?_) (ten_zpow_pos _).le
      (Nat.cast_nonneg _)
    rw [checkedPlace_eq hq]
    omega

/-- The divisor was to be shifted further than it was. -/
theorem ten_mul_abs_le_of_gt (hx : x.coeff ≠ 0) (hy : y.coeff ≠ 0)
    (hshift : quotientShift x.coeff.natAbs y.coeff.natAbs < -4294967295) (h : x.div y = .ok d) :
    10 * |roundSignificant quotientDigits (x.toRat / y.toRat)| ≤ |d.toRat| := by
  have hcapped : cappedShift x.coeff.natAbs y.coeff.natAbs = -4294967295 := by
    rw [cappedShift]
    omega
  have hx' := Int.natAbs_pos.2 hx
  have hy' := Int.natAbs_pos.2 hy
  have hq := wholeQuotient_ne_zero_of_le hx' hy' (by omega)
  have hguard := guardDigits_pos hx' hy' (by omega)
  -- here the coefficient is no smaller and the place is higher by at least one
  have hcoeff : (⌊|x.toRat / y.toRat| / 10 ^ lastPlace quotientDigits (x.toRat / y.toRat) + 1 / 2⌋₊ :
      ℚ) ≤ dropGuardDigits (wholeQuotient x.coeff.natAbs y.coeff.natAbs)
        (guardDigits x.coeff.natAbs y.coeff.natAbs) := by
    rw [abs_div_lastPlace hq, wholeQuotient_eq_floor]
    exact_mod_cast le_dropGuardDigits (shifted_nonneg _ _) hguard
  rw [abs_toRat_of_div hx hy h, abs_roundSignificant_eq, mul_left_comm, ← zpow_one_add₀ (by norm_num)]
  refine mul_le_mul hcoeff (zpow_le_zpow_right₀ (by norm_num) ?_) (ten_zpow_pos _).le
    (Nat.cast_nonneg _)
  rw [checkedPlace_eq hq]
  omega

/-- **A quotient whose shift was cut short is off by a factor of ten at the least.** -/
theorem off_of_not_shiftFits (hx : x.coeff ≠ 0) (hy : y.coeff ≠ 0) (hfits : ¬ShiftFits x y)
    (h : x.div y = .ok d) :
    10 * |d.toRat| ≤ |roundSignificant quotientDigits (x.toRat / y.toRat)| ∨
      10 * |roundSignificant quotientDigits (x.toRat / y.toRat)| ≤ |d.toRat| := by
  rw [ShiftFits, not_and_or, not_le, not_le] at hfits
  exact hfits.symm.imp (ten_mul_abs_le_of_lt hx hy · h) (ten_mul_abs_le_of_gt hx hy · h)

end DecimalScript.Decimal
