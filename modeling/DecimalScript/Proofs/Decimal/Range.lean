import DecimalScript.Proofs.Decimal.Shift

/-!
# Results out of range

When products, quotients and canonical decimals are given up because an exponent leaves its range,
said of the numbers. A canonical decimal is given up only where there is none. A product and a
quotient are also given up where there is one: their exponents are checked before the trailing zeros
of the coefficient move them up, so a result whose exponent is in range can be lost at the low end.
For a quotient the exponent that is checked is the place of the sixteenth significant digit, even if
the quotient has fewer digits than that; so a decimal near the low end does not survive a division
by one (`least_div_one_overflows`). This is said of the quotients whose shift fits (`ShiftFits`); of
any other it would be said of a number that is not the quotient.

Main result: `overflow_iff`.
-/

namespace DecimalScript.Decimal

variable {x y : Decimal}

theorem toRat_mul (x y : Decimal) :
    ((x.coeff * y.coeff : ℤ) : ℚ) * 10 ^ (x.exp + y.exp) = x.toRat * y.toRat := by
  rw [toRat, toRat, zpow_add₀ (by norm_num)]
  push_cast
  ring

theorem mul_eq_error_iff {cause : Cause} :
    x.mul y = .error cause ↔
      cause = .exponentOutOfRange ∧ ∃ e, HasExponent (x.toRat * y.toRat) e ∧
        (x.exp + y.exp < -2147483648 ∨ 2147483647 < e) := by
  rw [mul]
  -- a product of zero has no canonical exponent, so both sides are false
  split_ifs with hzero
  · refine iff_of_false (by simp) ?_
    rintro ⟨-, e, he, -⟩
    refine he.ne_zero ?_
    rw [← toRat_mul, hzero, Int.cast_zero, zero_mul]
  · rw [staged_eq_error_iff hzero, toRat_mul]

theorem roundedCoeff_ne_zero (hfits : ShiftFits x y) (hx : x.coeff ≠ 0) (hy : y.coeff ≠ 0) :
    roundedCoeff x y ≠ 0 := by
  have hround := roundSignificant_ne_zero (show 0 < quotientDigits by decide)
    (div_toRat_ne_zero hx hy)
  -- a rounded quotient of zero would be the rounding of a number that is zero
  intro hzero
  rw [← roundedCoeff_mul_zpow hfits hx hy, hzero, Int.cast_zero, zero_mul] at hround
  exact hround rfl

theorem div_eq_error_iff (hfits : ShiftFits x y) (hx : x.coeff ≠ 0) (hy : y.coeff ≠ 0)
    {cause : Cause} :
    x.div y = .error cause ↔ cause = .exponentOutOfRange ∧
      ∃ e, HasExponent (roundSignificant quotientDigits (x.toRat / y.toRat)) e ∧
        (lastPlace quotientDigits (x.toRat / y.toRat) < -2147483648 ∨ 2147483647 < e) := by
  rw [div_eq hx hy, staged_eq_error_iff (roundedCoeff_ne_zero hfits hx hy),
    roundedCoeff_mul_zpow hfits hx hy, checkedPlace_eq_lastPlace hfits hx hy]

theorem div_eq_ok_iff (hfits : ShiftFits x y) (hx : x.coeff ≠ 0) (hy : y.coeff ≠ 0) {r : Decimal} :
    x.div y = .ok r ↔ -2147483648 ≤ lastPlace quotientDigits (x.toRat / y.toRat) ∧ r.IsCanonical ∧
      r.toRat = roundSignificant quotientDigits (x.toRat / y.toRat) := by
  rw [div_eq hx hy, staged_eq_ok_iff (roundedCoeff_ne_zero hfits hx hy),
    roundedCoeff_mul_zpow hfits hx hy, checkedPlace_eq_lastPlace hfits hx hy]

theorem div_of_zero_divisor (hy : y.coeff = 0) : x.div y = .error .divisionByZero := by
  rw [div, if_pos hy]

theorem div_of_zero_dividend (hy : y.coeff ≠ 0) (hx : x.coeff = 0) : x.div y = .ok zero := by
  rw [div, if_neg hy, if_pos hx]

/-- There are two causes for which a division fails. -/
theorem cause_of_div {cause : Cause} (h : x.div y = .error cause) :
    (cause = .divisionByZero ∧ y.coeff = 0) ∨
      (cause = .exponentOutOfRange ∧ x.coeff ≠ 0 ∧ y.coeff ≠ 0) := by
  -- the divisor is looked at first, then the dividend
  by_cases hy : y.coeff = 0
  · rw [div_of_zero_divisor hy] at h
    exact .inl ⟨(Except.error.inj h).symm, hy⟩
  by_cases hx : x.coeff = 0
  · rw [div_of_zero_dividend hy hx] at h
    cases h
  · rw [div_eq hx hy] at h
    exact .inr ⟨cause_of_staged h, hx, hy⟩

theorem div_eq_divisionByZero_iff : x.div y = .error .divisionByZero ↔ y.coeff = 0 := by
  refine ⟨fun h => ?_, div_of_zero_divisor⟩
  obtain ⟨-, hy⟩ | ⟨hcause, -⟩ := cause_of_div h
  · exact hy
  · cases hcause

/-! ### Dividing by one -/

/-- A canonical decimal is left alone by rounding if and only if it has no more digits than are
kept. -/
theorem roundSignificant_toRat_iff {digits : ℕ} (hx : ¬10 ∣ x.coeff) :
    roundSignificant digits x.toRat = x.toRat ↔ digitCount x.coeff.natAbs ≤ digits := by
  have hne : x.coeff ≠ 0 := fun h => hx (h ▸ dvd_zero 10)
  have hdvd : ¬(10 : ℤ) ∣ x.coeff.natAbs := by rwa [Int.dvd_natAbs]
  constructor
  · -- the last digit is not a zero, so the place at which the rounding ends is not above it
    intro hround
    obtain ⟨n, hn⟩ := roundSignificant_eq_self_iff.1 hround
    rw [lastPlace_toRat digits hne, abs_toRat] at hn
    have hunits : ((x.coeff.natAbs : ℤ) * 10 ^ x.exp : ℚ) =
        (n : ℤ) * 10 ^ (x.leading - digits) := by
      rwa [Int.cast_natCast, Int.cast_natCast]
    have hle := exp_le_of_eq hdvd hunits
    rw [leading] at hle
    omega
  · exact roundSignificant_toRat_of_le hne

theorem toRat_one : one.toRat = 1 := by
  rw [toRat]
  simp [one, ofInt]

/-- Only from a coefficient of billions of digits does a division by one have to take digits away
beyond what the shift can do. -/
theorem shiftFits_one_of_le (h : digitCount x.coeff.natAbs ≤ quotientDigits) : ShiftFits x one := by
  have hone : digitCount one.coeff.natAbs = 1 := by decide
  have hpos := digitCount_pos x.coeff.natAbs
  have hdigits : quotientDigits = 16 := rfl
  rw [ShiftFits, quotientShift, hone]
  omega

/-- A decimal that a division by one gives back was not too long for it: else the quotient would be
too great by a factor of ten. -/
theorem shiftFits_one_of_div (hx : x.coeff ≠ 0) (h : x.div one = .ok x) : ShiftFits x one := by
  -- a shift below the cap takes too few digits away, and the quotient keeps ten times too much
  by_contra hfits
  have hone : digitCount one.coeff.natAbs = 1 := by decide
  have hpos := digitCount_pos x.coeff.natAbs
  have hdigits : quotientDigits = 16 := rfl
  have hgt : quotientShift x.coeff.natAbs one.coeff.natAbs < -4294967295 := by
    rw [ShiftFits, quotientShift, hone] at hfits
    rw [quotientShift, hone]
    omega
  have hoff := ten_mul_abs_le_of_gt hx (by decide) hgt h
  have hlt := abs_lt_ten_mul_roundSignificant (show 0 < quotientDigits by decide)
    (toRat_eq_zero_iff.not.2 hx)
  rw [toRat_one, div_one] at hoff
  exact absurd hoff (not_le.2 hlt)

theorem div_one_eq_ok_iff :
    x.div one = .ok x ↔ x.IsCanonical ∧ digitCount x.coeff.natAbs ≤ quotientDigits ∧
      (x.coeff = 0 ∨ -2147483648 ≤ x.leading - quotientDigits) := by
  have hone : one.coeff ≠ 0 := by decide
  by_cases hx : x.coeff = 0
  · have hdigits : digitCount x.coeff.natAbs ≤ quotientDigits := by
      rw [hx]
      decide
    rw [div_of_zero_dividend hone hx, Except.ok.injEq]
    -- among the zeros only the one with the exponent zero is given back
    constructor
    · rintro rfl
      exact ⟨.inl rfl, hdigits, .inl hx⟩
    · rintro ⟨hzero | hdvd, -⟩
      · exact hzero.symm
      · exact absurd (hx ▸ dvd_zero 10) hdvd
  · -- where the shift fits, both sides speak of the rounded quotient, which for a divisor of one is
    -- the rounded dividend
    have hiff (hfits : ShiftFits x one) : x.div one = .ok x ↔
        -2147483648 ≤ x.leading - quotientDigits ∧ x.IsCanonical ∧
          roundSignificant quotientDigits x.toRat = x.toRat := by
      rw [div_eq_ok_iff hfits hx hone, toRat_one, div_one, lastPlace_toRat _ hx,
        eq_comm (a := x.toRat)]
    rw [or_iff_right hx]
    constructor
    · intro h
      -- from the result to the right side the shift is shown to fit first, else nothing is known of
      -- the quotient
      obtain ⟨hlow, hcanonical, hround⟩ := (hiff (shiftFits_one_of_div hx h)).1 h
      have hdvd := hcanonical.not_dvd hx
      exact ⟨hcanonical, (roundSignificant_toRat_iff hdvd).1 hround, hlow⟩
    · rintro ⟨hcanonical, hdigits, hlow⟩
      have hdvd := hcanonical.not_dvd hx
      exact (hiff (shiftFits_one_of_le hdigits)).2
        ⟨hlow, hcanonical, (roundSignificant_toRat_iff hdvd).2 hdigits⟩

/-- **Main theorem.** A product is given up if and only if its exponents add up to less than the
least exponent, or the exponent of its canonical form is above the greatest. A quotient is given up
as a division by zero if and only if the divisor is zero, and for no other cause but its exponent:
where the shift fits, if and only if neither decimal is zero and the place of the sixteenth
significant digit of the quotient is below the least exponent, or the exponent of the canonical form
of the rounded quotient is above the greatest. A canonical decimal is given up if and only if its
exponent is above the greatest. So a division by one gives a canonical decimal of at most sixteen
digits back if and only if the place of its sixteenth significant digit is in range. -/
theorem overflow_iff (x y : Decimal) :
    (∀ cause, x.mul y = .error cause ↔
      cause = .exponentOutOfRange ∧ ∃ e, HasExponent (x.toRat * y.toRat) e ∧
        (x.exp + y.exp < -2147483648 ∨ 2147483647 < e)) ∧
    (∀ cause, x.div y = .error cause → cause = .divisionByZero ∨ cause = .exponentOutOfRange) ∧
    (x.div y = .error .divisionByZero ↔ y.coeff = 0) ∧
    (x.coeff = 0 ∨ y.coeff = 0 ∨ ShiftFits x y →
      (x.div y = .error .exponentOutOfRange ↔ x.coeff ≠ 0 ∧ y.coeff ≠ 0 ∧
        ∃ e, HasExponent (roundSignificant 16 (x.toRat / y.toRat)) e ∧
          (lastPlace 16 (x.toRat / y.toRat) < -2147483648 ∨ 2147483647 < e))) ∧
    (∀ cause, x.canonical = .error cause ↔
      cause = .exponentOutOfRange ∧ ∃ e, HasExponent x.toRat e ∧ 2147483647 < e) ∧
    (x.div one = .ok x ↔ x.IsCanonical ∧ digitCount x.coeff.natAbs ≤ 16 ∧
      (x.coeff = 0 ∨ -2147483648 ≤ x.leading - 16)) := by
  refine ⟨fun _ => mul_eq_error_iff, fun _ h => (cause_of_div h).imp And.left And.left,
    div_eq_divisionByZero_iff, fun hcase => ?_, fun _ => canonical_eq_error_iff,
    div_one_eq_ok_iff⟩
  constructor
  · intro h
    -- a divisor of zero has the other cause
    obtain ⟨hcause, -⟩ | ⟨-, hx, hy⟩ := cause_of_div h
    · cases hcause
    · have hfits := (hcase.resolve_left hx).resolve_left hy
      exact ⟨hx, hy, ((div_eq_error_iff hfits hx hy).1 h).2⟩
  · rintro ⟨hx, hy, hrange⟩
    have hfits := (hcase.resolve_left hx).resolve_left hy
    exact (div_eq_error_iff hfits hx hy).2 ⟨rfl, hrange⟩

/-- Fifteen places above the least exponent a power of ten survives a division by one, and a place
further down it does not. -/
theorem lowest_power_divisible :
    (Decimal.mk 1 (-2147483633) (by decide) (by decide)).div one =
      .ok (.mk 1 (-2147483633) (by decide) (by decide)) ∧
    ShiftFits (.mk 1 (-2147483634) (by decide) (by decide)) one ∧
    (Decimal.mk 1 (-2147483634) (by decide) (by decide)).div one = .error .exponentOutOfRange := by
  have hfits : ShiftFits (.mk 1 (-2147483634) (by decide) (by decide)) one := by decide
  obtain ⟨-, -, -, -, -, hback⟩ := overflow_iff ⟨1, -2147483633, by decide, by decide⟩ one
  obtain ⟨-, -, -, hgiven, -, -⟩ := overflow_iff ⟨1, -2147483634, by decide, by decide⟩ one
  refine ⟨hback.2 ⟨.inr (by decide), by decide, .inr (by decide)⟩, hfits, ?_⟩
  refine (hgiven (.inr (.inr hfits))).2 ⟨by decide, by decide, -2147483634, ?_, .inl ?_⟩
  · -- the place of the sixteenth digit is one below the range
    rw [toRat_one, div_one, (roundSignificant_toRat_iff (by decide)).2 (by decide)]
    exact ⟨1, by decide, rfl⟩
  · rw [toRat_one, div_one, lastPlace_toRat _ (by decide)]
    decide

/-- The least power of ten: a canonical decimal of one digit. -/
def least : Decimal := { coeff := 1, exp := -2147483648 }

/-- The least power of ten divided by one is itself, also when rounded, and its exponent is in
range; yet the division is given up. -/
theorem least_div_one_overflows :
    least.IsCanonical ∧ digitCount least.coeff.natAbs ≤ 16 ∧
      HasExponent (roundSignificant 16 (least.toRat / one.toRat)) (-2147483648) ∧
      least.div one = .error .exponentOutOfRange := by
  have hcanonical : least.IsCanonical := .inr (by decide)
  have hdigits : digitCount least.coeff.natAbs ≤ 16 := by decide
  refine ⟨hcanonical, hdigits, ?_, by rfl⟩
  rw [toRat_one, div_one, (roundSignificant_toRat_iff (by decide)).2 hdigits]
  exact ⟨1, by decide, rfl⟩

end DecimalScript.Decimal
