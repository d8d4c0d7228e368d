import DecimalScript.Decimal.Whole
import DecimalScript.Proofs.Decimal.Value

/-!
# Decimals that convert to integers

A decimal converts to an integer if its exponent is not negative and the number fits 64 bits, and
then to the number that it stands for (`toInt?_eq_some_iff`). The bound on the exponent, which is
asked for before the number is computed, turns none away that fits: what is not zero has more than
nineteen digits then (`outOfRange_of_exp`). An integer as a decimal has the exponent zero, so it
converts back whenever it has 64 bits.

Main result: `toInt_exact_at_limits`.
-/

namespace DecimalScript.Decimal

variable {d : Decimal} {n : ℤ}

/-- Over an exponent that is not negative the number is an integer. -/
theorem toRat_eq_intCast_iff (hexp : 0 ≤ d.exp) :
    d.toRat = n ↔ d.coeff * pow10 d.exp.toNat = n := by
  have hscaled : (d.coeff * pow10 d.exp.toNat : ℤ) = d.toRat := by
    have h := scaledTo_mul_zpow hexp
    rwa [scaledTo, sub_zero, zpow_zero, mul_one] at h
  rw [← hscaled, Int.cast_inj]

theorem lt_natAbs_of_exp {c : ℤ} (hc : c ≠ 0) {k : ℕ} (hk : 19 < k) :
    9223372036854775808 < (c * pow10 k).natAbs := by
  have hone : 1 ≤ c.natAbs := Int.natAbs_pos.2 hc
  -- the least power above the cut is already greater than the magnitude of the least integer
  calc 9223372036854775808 < 10 ^ 20 := by decide
    _ ≤ 10 ^ k := Nat.pow_le_pow_right (by decide) hk
    _ ≤ c.natAbs * 10 ^ k := Nat.le_mul_of_pos_left _ hone
    _ = (c * pow10 k).natAbs := by rw [Int.natAbs_mul, Int.natAbs_natCast, pow10_eq]

/-- The bound on the exponent turns away nothing that fits. -/
theorem outOfRange_of_exp (hne : d.coeff ≠ 0) (hexp : 19 < d.exp) (hnum : d.toRat = n) :
    n < -9223372036854775808 ∨ 9223372036854775807 < n := by
  have hsize := lt_natAbs_of_exp hne (show 19 < d.exp.toNat by omega)
  rw [(toRat_eq_intCast_iff (by omega)).1 hnum] at hsize
  omega

/-- The integer is the number, if the exponent is not negative and the number fits. -/
theorem toInt?_eq_some_iff :
    d.toInt? = some n ↔
      0 ≤ d.exp ∧ d.toRat = n ∧ -9223372036854775808 ≤ n ∧ n ≤ 9223372036854775807 := by
  -- the checks in the order in which they are made
  rw [toInt?]
  split
  · next hneg => exact iff_of_false (by simp) fun h => absurd h.1 (not_le.2 hneg)
  next hneg =>
  have hexp : 0 ≤ d.exp := not_lt.1 hneg
  split
  · next hzero =>
    rw [toRat_eq_intCast_iff hexp, hzero, zero_mul, Option.some.injEq]
    omega
  next hne =>
  -- the cut on the exponent answers before any power is computed
  split
  · next hlarge =>
    refine iff_of_false (by simp) ?_
    rintro ⟨-, hnum, hlow, hhigh⟩
    have := outOfRange_of_exp hne hlarge hnum
    omega
  · rw [toRat_eq_intCast_iff hexp]
    dsimp only
    split
    · -- the integer that was computed is the number, so it fits or does not
      next hfits =>
      rw [Option.some.injEq]
      constructor
      · rintro rfl
        exact ⟨hexp, rfl, hfits⟩
      · exact fun h => h.2.1
    · next hfits =>
      refine iff_of_false (by simp) ?_
      rintro ⟨-, rfl, h⟩
      exact hfits h

theorem toInt_eq_ok_iff : d.toInt = .ok n ↔ d.toInt? = some n := by
  rw [toInt]
  cases d.toInt? <;> simp

/-- A decimal that does not convert is shown by its text. -/
theorem toInt_eq_error_iff {cause : Cause} :
    d.toInt = .error cause ↔ cause = .notWhole d.text ∧ d.toInt? = none := by
  rw [toInt]
  cases d.toInt? <;> simp [eq_comm]

theorem toRat_ofInt (n : ℤ) : (ofInt n).toRat = n := by
  rw [toRat, ofInt, zpow_zero, mul_one]

/-- An integer comes back from its decimal if it has 64 bits. -/
theorem toInt?_ofInt_eq_some_iff :
    (ofInt n).toInt? = some n ↔ -9223372036854775808 ≤ n ∧ n ≤ 9223372036854775807 := by
  rw [toInt?_eq_some_iff, toRat_ofInt]
  exact ⟨fun h => h.2.2, fun h => ⟨le_rfl, rfl, h⟩⟩

/-- **The conversion to an integer is exact at its limits.** A decimal converts to `n` just if its
exponent is not negative and it is the number `n` of 64 bits, and it fails, with its text, just if
there is no such `n`. The bound of nineteen on the exponent turns nothing away that has 64 bits:
over a greater exponent only zero has. An integer comes back from its decimal just if it has 64
bits. -/
theorem toInt_exact_at_limits (d : Decimal) :
    (∀ n : ℤ, d.toInt = .ok n ↔ 0 ≤ d.exp ∧ d.toRat = n ∧ -2 ^ 63 ≤ n ∧ n ≤ 2 ^ 63 - 1) ∧
    (∀ cause, d.toInt = .error cause ↔ cause = .notWhole d.text ∧
      ¬∃ n : ℤ, 0 ≤ d.exp ∧ d.toRat = n ∧ -2 ^ 63 ≤ n ∧ n ≤ 2 ^ 63 - 1) ∧
    (d.coeff ≠ 0 → 19 < d.exp → ∀ n : ℤ, d.toRat = n → ¬(-2 ^ 63 ≤ n ∧ n ≤ 2 ^ 63 - 1)) ∧
    ∀ n : ℤ, (ofInt n).toInt = .ok n ↔ -2 ^ 63 ≤ n ∧ n ≤ 2 ^ 63 - 1 := by
  have hleast : (-2 ^ 63 : ℤ) = -9223372036854775808 := by norm_num
  have hgreatest : (2 ^ 63 - 1 : ℤ) = 9223372036854775807 := by norm_num
  simp only [hleast, hgreatest]
  refine ⟨fun n => toInt_eq_ok_iff.trans toInt?_eq_some_iff, fun cause => ?_,
    fun hne hexp n hnum hfits => ?_, fun n => toInt_eq_ok_iff.trans toInt?_ofInt_eq_some_iff⟩
  · -- an integer is refused just if no integer satisfies the conditions of the first part
    rw [toInt_eq_error_iff, Option.eq_none_iff_forall_ne_some, not_exists]
    exact and_congr_right fun _ => forall_congr' fun n => not_congr toInt?_eq_some_iff
  · have := outOfRange_of_exp hne hexp hnum
    omega

/-- The least and the greatest integer of 64 bits come back, and zero converts over the greatest
exponent. One more than the greatest does not convert, nor does minus one over the exponent twenty,
nor the least with a zero behind the point. -/
theorem least_and_greatest_come_back :
    (ofInt (-9223372036854775808)).toInt = .ok (-9223372036854775808) ∧
    (ofInt 9223372036854775807).toInt = .ok 9223372036854775807 ∧
    (Decimal.mk 0 2147483647 (by decide) (by decide)).toInt = .ok 0 ∧
    (ofInt 9223372036854775808).toInt = .error (.notWhole "9.22337203685*10^18") ∧
    (Decimal.mk (-1) 20 (by decide) (by decide)).toInt = .error (.notWhole "-1*10^20") ∧
    (Decimal.mk (-92233720368547758080) (-1) (by decide) (by decide)).toInt =
      .error (.notWhole "-9.22337203685*10^18") := by
  refine ⟨?_, ?_, ?_, ?_, ?_, ?_⟩
  · exact ((toInt_exact_at_limits zero).2.2.2 _).2 (by norm_num)
  · exact ((toInt_exact_at_limits zero).2.2.2 _).2 (by norm_num)
  · refine ((toInt_exact_at_limits _).1 _).2 ⟨by decide, ?_, by norm_num⟩
    norm_num [toRat]
  · refine ((toInt_exact_at_limits _).2.1 _).2 ⟨by decide +kernel, ?_⟩
    rintro ⟨n, -, hnum, -, hhigh⟩
    rw [toRat_ofInt, Int.cast_inj] at hnum
    omega
  · obtain ⟨-, hfails, hbound, -⟩ := toInt_exact_at_limits ⟨-1, 20, by decide, by decide⟩
    have hlarge := hbound (by decide) (by decide)
    refine (hfails _).2 ⟨by decide +kernel, ?_⟩
    rintro ⟨n, -, hnum, hfits⟩
    exact hlarge n hnum hfits
  · refine ((toInt_exact_at_limits _).2.1 _).2 ⟨by decide +kernel, ?_⟩
    rintro ⟨n, hexp, -⟩
    exact absurd hexp (by decide)

end DecimalScript.Decimal
