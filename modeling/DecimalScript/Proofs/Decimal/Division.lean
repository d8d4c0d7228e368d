import DecimalScript.Proofs.Decimal.Range
import DecimalScript.Proofs.Decimal.Sum

/-!
# Division is correctly rounded

What it means that a number is another one rounded to so many significant digits, said without the
way in which it is computed: `RoundsHalfUp digits q r` asks for the power of ten over which `q` has
so many digits before its point, and for `r` to be a whole multiple of it that lies at most half of
it away from `q`, the upper one of two in magnitude. There is only one such number, and
`roundSignificant` is it (`roundsHalfUp_iff`).

A quotient of decimals is computed in two cuts and a rounding, from a dividend or a divisor that was
shifted. None of it shows in the result as long as the shift fits: the quotient is the canonical
decimal of the exact quotient rounded once, and there is one if the place of its sixteenth digit is
in range. If the shift does not fit, no quotient is the right one; so the quotient of a number and
itself may be zero (`exact_quotients_lost`).

Main result: `quotient_rounded_iff_shift_fits`.
-/

namespace DecimalScript.Decimal

/-- `r` is `q` rounded to so many significant digits, a half away from zero. -/
def RoundsHalfUp (digits : ℕ) (q r : ℚ) : Prop :=
  SignType.sign r = SignType.sign q ∧
    ∃ (place : ℤ) (n : ℕ),
      (10 : ℚ) ^ (place + digits - 1) ≤ |q| ∧ |q| < 10 ^ (place + digits) ∧
      |r| = n * 10 ^ place ∧
      (n - 1 / 2 : ℚ) * 10 ^ place ≤ |q| ∧ |q| < (n + 1 / 2 : ℚ) * 10 ^ place

variable {digits : ℕ} {q r : ℚ}

/-- The power of ten at which a number has so many digits is that of the last place. -/
theorem eq_lastPlace {place : ℤ} (hlow : (10 : ℚ) ^ (place + digits - 1) ≤ |q|)
    (hhigh : |q| < 10 ^ (place + digits)) : place = lastPlace digits q := by
  have hlog : Int.log 10 |q| = place + digits - 1 := by
    refine log_eq hlow ?_
    rwa [sub_add_cancel]
  rw [lastPlace, hlog]
  ring

theorem roundsHalfUp_roundSignificant (hdigits : 0 < digits) (hq : q ≠ 0) :
    RoundsHalfUp digits q (roundSignificant digits q) := by
  have habs : 0 < |q| := abs_pos.2 hq
  have hunit := ten_zpow_pos (lastPlace digits q)
  -- the logarithm is the power of the first digit, and the last one that is kept is `digits - 1`
  -- below
  have hlow : (10 : ℚ) ^ (lastPlace digits q + digits - 1) ≤ |q| := by
    have hexp : lastPlace digits q + digits - 1 = Int.log 10 |q| := by
      rw [lastPlace]
      ring
    rw [hexp]
    exact_mod_cast Int.zpow_log_le_self (by decide) habs
  have hhigh : |q| < (10 : ℚ) ^ (lastPlace digits q + digits) := by
    have hexp : lastPlace digits q + digits = Int.log 10 |q| + 1 := by
      rw [lastPlace]
      ring
    rw [hexp]
    exact_mod_cast Int.lt_zpow_succ_log_self (by decide) |q|
  refine ⟨sign_roundSignificant hdigits q, lastPlace digits q,
    ⌊|q| / 10 ^ lastPlace digits q + 1 / 2⌋₊, hlow, hhigh, abs_roundSignificant_eq digits q, ?_, ?_⟩
  · -- the floor is at most the number with its half added
    have hfloor := Nat.floor_le (a := |q| / 10 ^ lastPlace digits q + 1 / 2) (by positivity)
    rw [← le_div_iff₀ hunit]
    linarith
  · -- and less than one away from it
    have hfloor := Nat.lt_floor_add_one (|q| / 10 ^ lastPlace digits q + 1 / 2)
    rw [← div_lt_iff₀ hunit]
    linarith

/-- No two whole multiples of the last unit are both at most half a unit away. -/
theorem RoundsHalfUp.unique {r' : ℚ} (h : RoundsHalfUp digits q r) (h' : RoundsHalfUp digits q r') :
    r = r' := by
  obtain ⟨hsign, place, n, hlow, hhigh, habs, hbelow, habove⟩ := h
  obtain ⟨hsign', place', n', hlow', hhigh', habs', hbelow', habove'⟩ := h'
  -- both are multiples of the same unit, since the digits of `q` fix it
  obtain rfl : place = place' := (eq_lastPlace hlow hhigh).trans (eq_lastPlace hlow' hhigh').symm
  have hunit := ten_zpow_pos place
  -- half a unit on either side is less than a unit in all
  have hlt : (n : ℚ) < n' + 1 := by
    have := lt_of_mul_lt_mul_right (hbelow.trans_lt habove') hunit.le
    linarith
  have hlt' : (n' : ℚ) < n + 1 := by
    have := lt_of_mul_lt_mul_right (hbelow'.trans_lt habove) hunit.le
    linarith
  have hn : n = n' := by
    have h₁ : n < n' + 1 := by exact_mod_cast hlt
    have h₂ : n' < n + 1 := by exact_mod_cast hlt'
    omega
  rw [← sign_mul_abs r, ← sign_mul_abs r', hsign, hsign', habs, habs', hn]

theorem roundsHalfUp_iff (hdigits : 0 < digits) (hq : q ≠ 0) :
    RoundsHalfUp digits q r ↔ r = roundSignificant digits q := by
  have hround := roundsHalfUp_roundSignificant hdigits hq
  constructor
  · exact fun h => h.unique hround
  · rintro rfl
    exact hround

/-- A number of at most so many digits over some power of ten is left alone. -/
theorem roundSignificant_eq_self_of_lt {c e : ℤ} (hc : c.natAbs < 10 ^ digits)
    (hq : q = c * 10 ^ e) : roundSignificant digits q = q := by
  rw [roundSignificant_eq_self_iff]
  rcases eq_or_ne q 0 with rfl | hne
  · exact ⟨0, by simp⟩
  have habs : |q| = c.natAbs * 10 ^ e := by
    rw [hq, abs_mul, abs_of_pos (ten_zpow_pos e), Nat.cast_natAbs, Int.cast_abs]
  -- the number ends above its last place, or just there
  have hlog : Int.log 10 |q| < digits + e := by
    rw [← Int.lt_zpow_iff_log_lt (by decide) (abs_pos.2 hne), habs]
    push_cast
    rw [zpow_add₀ (by norm_num), zpow_natCast]
    refine mul_lt_mul_of_pos_right ?_ (ten_zpow_pos e)
    exact_mod_cast hc
  have hplace : lastPlace digits q ≤ e := by
    rw [lastPlace]
    omega
  -- so the number is a whole multiple of the unit of its last place
  obtain ⟨k, hk⟩ := Int.le.dest hplace
  refine ⟨c.natAbs * 10 ^ k, ?_⟩
  rw [habs, ← hk, zpow_add₀ (by norm_num), zpow_natCast]
  push_cast
  ring

/-! ### Quotients -/

section Quotients

variable {x y d : Decimal}

theorem isCanonical_iff_not_dvd (hd : d.toRat ≠ 0) : d.IsCanonical ↔ ¬10 ∣ d.coeff :=
  ⟨fun h => h.not_dvd (toRat_eq_zero_iff.not.1 hd), .inr⟩

theorem div_eq_ok_iff_roundsHalfUp (hfits : ShiftFits x y) (hx : x.coeff ≠ 0) (hy : y.coeff ≠ 0) :
    x.div y = .ok d ↔ -2147483648 ≤ lastPlace 16 (x.toRat / y.toRat) ∧
      RoundsHalfUp 16 (x.toRat / y.toRat) d.toRat ∧ ¬10 ∣ d.coeff := by
  have hquotient := div_toRat_ne_zero hx hy
  rw [div_eq_ok_iff hfits hx hy, roundsHalfUp_iff (by decide) hquotient]
  refine and_congr_right fun _ => ?_
  rw [and_comm]
  refine and_congr_right fun hround => isCanonical_iff_not_dvd ?_
  -- nothing is rounded to zero
  rw [hround]
  exact roundSignificant_ne_zero (by decide) hquotient

/-- A quotient of no more than sixteen digits is not changed by the rounding. -/
theorem div_eq_ok_iff_exact (hfits : ShiftFits x y) (hx : x.coeff ≠ 0) (hy : y.coeff ≠ 0) {c e : ℤ}
    (hc : c.natAbs < 10 ^ 16) (hexact : x.toRat / y.toRat = c * 10 ^ e) :
    x.div y = .ok d ↔ -2147483648 ≤ lastPlace 16 (x.toRat / y.toRat) ∧
      d.toRat = x.toRat / y.toRat ∧ ¬10 ∣ d.coeff := by
  have hquotient := div_toRat_ne_zero hx hy
  rw [div_eq_ok_iff_roundsHalfUp hfits hx hy, roundsHalfUp_iff (by decide) hquotient,
    roundSignificant_eq_self_of_lt hc hexact]

/-- **Main theorem.** There is no quotient by zero, and a dividend of zero has the quotient zero. Of
other decimals whose shift fits there is a quotient if the place of the sixteenth significant digit
is in range and a canonical decimal exists, and it is the canonical decimal of the exact quotient
rounded half up to sixteen significant digits; so a quotient that has no more than sixteen digits is
exact. If the shift does not fit, any quotient is at most a tenth of the rounded one or at least ten
times as great, and so never the rounded one. -/
theorem quotient_rounded_iff_shift_fits (x y : Decimal) :
    (y.coeff = 0 → ∀ d, x.div y ≠ .ok d) ∧
    (y.coeff ≠ 0 → x.coeff = 0 → x.div y = .ok zero) ∧
    (y.coeff ≠ 0 → x.coeff ≠ 0 → ShiftFits x y →
      (∀ d, x.div y = .ok d ↔ -2147483648 ≤ lastPlace 16 (x.toRat / y.toRat) ∧
        RoundsHalfUp 16 (x.toRat / y.toRat) d.toRat ∧ ¬10 ∣ d.coeff) ∧
      ∀ c e : ℤ, c.natAbs < 10 ^ 16 → x.toRat / y.toRat = c * 10 ^ e →
        ∀ d, x.div y = .ok d ↔ -2147483648 ≤ lastPlace 16 (x.toRat / y.toRat) ∧
          d.toRat = x.toRat / y.toRat ∧ ¬10 ∣ d.coeff) ∧
    (y.coeff ≠ 0 → x.coeff ≠ 0 → ¬ShiftFits x y → ∀ d, x.div y = .ok d →
      ¬RoundsHalfUp 16 (x.toRat / y.toRat) d.toRat ∧
      ∀ r, RoundsHalfUp 16 (x.toRat / y.toRat) r →
        10 * |d.toRat| ≤ |r| ∨ 10 * |r| ≤ |d.toRat|) := by
  refine ⟨fun hy d h => ?_, fun hy hx => div_of_zero_dividend hy hx,
    fun hy hx hfits => ⟨fun d => div_eq_ok_iff_roundsHalfUp hfits hx hy,
      fun c e hc hexact d => div_eq_ok_iff_exact hfits hx hy hc hexact⟩,
    fun hy hx hfits d h => ?_⟩
  · -- nothing is divided by zero
    rw [div_of_zero_divisor hy] at h
    cases h
  · have hquotient := div_toRat_ne_zero hx hy
    have hoff := off_of_not_shiftFits hx hy hfits h
    have hrounded : roundSignificant 16 (x.toRat / y.toRat) ≠ 0 :=
      roundSignificant_ne_zero (by decide) hquotient
    have hpos := abs_pos.2 hrounded
    constructor
    · -- the rounded quotient is not zero, so it is neither a tenth of itself nor ten times as great
      intro hrounds
      rw [(roundsHalfUp_iff (by decide) hquotient).1 hrounds] at hoff
      have hquotientDigits : quotientDigits = 16 := rfl
      rw [hquotientDigits] at hoff
      rcases hoff with hoff | hoff <;> linarith
    · intro r hrounds
      rw [(roundsHalfUp_iff (by decide) hquotient).1 hrounds]
      exact hoff

/-- The quotient has sixteen nines before a last digit that is a tie: it is rounded away from zero, and
the carry goes through all the digits. -/
theorem carried_quotient_rounded :
    ∃ x y d : Decimal, x.coeff = -299999999999999985 ∧ x.exp = 7 ∧ y.coeff = 3 ∧ y.exp = -2 ∧
      ShiftFits x y ∧ x.div y = .ok d ∧ d.coeff = -1 ∧ d.exp = 26 ∧
      RoundsHalfUp 16 (x.toRat / y.toRat) d.toRat ∧ ¬10 ∣ d.coeff := by
  -- computed, for the general theorem says what the quotient is only where there is one
  have hdiv : (Decimal.mk (-299999999999999985) 7).div (Decimal.mk 3 (-2)) =
      .ok (Decimal.mk (-1) 26) := by
    decide +kernel
  have hfits : ShiftFits (Decimal.mk (-299999999999999985) 7) (Decimal.mk 3 (-2)) := by
    decide +kernel
  obtain ⟨-, -, hround, -⟩ :=
    quotient_rounded_iff_shift_fits (Decimal.mk (-299999999999999985) 7) (Decimal.mk 3 (-2))
  obtain ⟨-, hrounded, hdvd⟩ := ((hround (by decide) (by decide) hfits).1 _).1 hdiv
  exact ⟨_, _, _, rfl, rfl, rfl, rfl, hfits, hdiv, rfl, rfl, hrounded, hdvd⟩

/-! ### A quotient that is lost -/

theorem digitCount_pow (k : ℕ) : digitCount (10 ^ k) = k + 1 :=
  digitCount_eq le_rfl (Nat.pow_lt_pow_right (by decide) (Nat.lt_succ_self k))

/-- One digit over so many that the shift is cut short by all the guard digits there would be. -/
theorem div_eq_zero_of_pow {k : ℕ} (hk : k = 4294967295) (hxc : x.coeff = 1)
    (hyc : y.coeff = (10 ^ k : ℕ)) (hexp : x.exp - y.exp = k) : x.div y = .ok zero := by
  have hx : x.coeff ≠ 0 := by
    rw [hxc]
    decide
  have hy : y.coeff ≠ 0 := by
    rw [hyc]
    exact_mod_cast (Nat.pow_pos (by decide)).ne'
  -- all that the division computes on the way, with `10 ^ k` left as it is
  have hone : digitCount 1 = 1 := by decide
  have hdigits : quotientDigits = 16 := rfl
  have hxabs : x.coeff.natAbs = 1 := by
    rw [hxc]
    rfl
  have hyabs : y.coeff.natAbs = 10 ^ k := by rw [hyc, Int.natAbs_natCast]
  have hshift : quotientShift 1 (10 ^ k) = k + 17 := by
    rw [quotientShift, digitCount_pow, hone, hdigits]
    push_cast
    ring
  -- both are shifted to the same power of ten
  have hwhole : wholeQuotient 1 (10 ^ k) = 1 := by
    have hnat : (k + 17 : ℤ).toNat = k + 17 := Int.toNat_natCast (k + 17)
    have hcap : min (k + 17 : ℤ).toNat 4294967295 = k := by
      rw [hnat, ← hk]
      exact min_eq_right (Nat.le_add_right k 17)
    rw [wholeQuotient, hshift, if_pos (by omega), cappedPow10, hcap, pow10_eq, one_mul,
      Nat.div_self (Nat.pow_pos (by decide))]
  -- one digit in place of seventeen: fifteen digits too few, where one or two too many were asked
  -- for
  have hguard : guardDigits 1 (10 ^ k) = -15 := by
    rw [guardDigits, hwhole, hone, hdigits]
    rfl
  -- the only digit is taken for a guard digit and rounded off
  have hcoeff : roundedCoeff x y = 0 := by
    rw [← Int.natAbs_eq_zero, natAbs_roundedCoeff, hxabs, hyabs, hguard, hwhole]
    decide
  have hplace : checkedPlace x y = -32 := by
    rw [checkedPlace, hxabs, hyabs, hshift, hguard, hexp]
    ring
  rw [div_eq hx hy, hcoeff, hplace, staged_eq_canonical (by decide) (by decide), canonical, if_pos rfl]

/-- Two exact quotients of one digit that are not returned. The greatest power of ten, divided by the
same number over the least exponent, is one, but the result is zero: the divisor has as many digits
as the two exponents are apart, and the shift does not fit. The least power of ten, divided by one, is
itself, but the division is given up. -/
theorem exact_quotients_lost :
    (∃ x y : Decimal, x.coeff = 1 ∧ x.exp = 2147483647 ∧
      y = x.add ⟨0, -2147483648, by decide, by decide⟩ ∧ x.toRat / y.toRat = 1 ∧
      x.div y = .ok zero) ∧
    least.toRat / one.toRat = (1 : ℤ) * 10 ^ (-2147483648 : ℤ) ∧ ∀ d, least.div one ≠ .ok d := by
  refine ⟨?_, ?_, fun d h => ?_⟩
  · -- the number of digits is a variable here, for the power itself is not to be written out
    obtain ⟨k, hk⟩ : ∃ k : ℕ, k = 4294967295 := ⟨_, rfl⟩
    let x : Decimal := ⟨1, 2147483647, by decide, by decide⟩
    let z : Decimal := ⟨0, -2147483648, by decide, by decide⟩
    have hrat : (x.add z).toRat = x.toRat := by
      rw [toRat_add, toRat_eq_zero_iff.2 (show z.coeff = 0 from rfl), add_zero]
    have hcoeff : (x.add z).coeff = (10 ^ k : ℕ) := by
      have hdistance : (x.exp - min x.exp z.exp).toNat = k := by
        rw [hk]
        decide
      have hadd : (x.add z).coeff =
          x.scaledTo (min x.exp z.exp) + z.scaledTo (min x.exp z.exp) := rfl
      rw [hadd, scaledTo, scaledTo, hdistance, pow10_eq]
      change 1 * ((10 ^ k : ℕ) : ℤ) + 0 * _ = _
      rw [one_mul, zero_mul, add_zero]
    have hexp : x.exp - (x.add z).exp = k := by
      rw [hk]
      decide
    have hx : x.toRat ≠ 0 := toRat_eq_zero_iff.not.2 (by decide)
    refine ⟨x, x.add z, rfl, rfl, rfl, ?_, div_eq_zero_of_pow hk rfl hcoeff hexp⟩
    rw [hrat, div_self hx]
  · rw [toRat_one, div_one]
    rfl
  · have hgiven : least.div one = .error .exponentOutOfRange := by rfl
    rw [hgiven] at h
    cases h

end Quotients

end DecimalScript.Decimal
