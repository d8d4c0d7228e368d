import Mathlib.Algebra.Order.Floor.Semifield
import Mathlib.Data.Sign.Basic
import DecimalScript.Decimal.Written
import DecimalScript.Proofs.Decimal.Value

/-!
# Rounding to significant digits

What a quotient is, said of rational numbers. `roundSignificant digits q` keeps so many digits of
`q`, counted from the first digit that is not zero, and rounds a half up in magnitude;
`lastPlace digits q` is the exponent of the last digit that it keeps.

A quotient of decimals is computed on whole numbers: a shifted dividend over a shifted divisor, of
which all digits after the first guard digit are cut off before the last one is rounded. The cuts
lose nothing, because each of them is a floor of a floor (`dropDigits_floor`,
`wholeQuotient_eq_floor`), so the coefficient that comes out is that of the rounded quotient
(`roundedCoeff_mul_zpow`), over the place of its last digit (`checkedPlace_eq_lastPlace`).

All this holds where the shift is made as it is asked for (`ShiftFits`). Of a shift of more than 32
bits only a part is made, the greatest that has no more, but the exponent of the quotient is that of
the whole shift.
-/

namespace DecimalScript.Decimal

/-- The exponent of the last of the first `digits` significant digits. -/
def lastPlace (digits : ℕ) (q : ℚ) : ℤ :=
  Int.log 10 |q| - (digits - 1)

/-- The number rounded to so many significant digits, a half up in magnitude. -/
def roundSignificant (digits : ℕ) (q : ℚ) : ℚ :=
  let unit : ℚ := 10 ^ lastPlace digits q
  if q < 0 then -(⌊|q| / unit + 1 / 2⌋₊ * unit) else ⌊|q| / unit + 1 / 2⌋₊ * unit

theorem abs_roundSignificant_eq (digits : ℕ) (q : ℚ) :
    |roundSignificant digits q| =
      ⌊|q| / 10 ^ lastPlace digits q + 1 / 2⌋₊ * 10 ^ lastPlace digits q := by
  have hunit := ten_zpow_pos (lastPlace digits q)
  rw [roundSignificant]
  split_ifs
  · rw [abs_neg, abs_of_nonneg (by positivity)]
  · exact abs_of_nonneg (by positivity)

/-- The last place is not above the first digit. -/
theorem zpow_lastPlace_le {digits : ℕ} (hdigits : 0 < digits) {q : ℚ} (hq : q ≠ 0) :
    10 ^ lastPlace digits q ≤ |q| :=
  calc (10 : ℚ) ^ lastPlace digits q ≤ 10 ^ Int.log 10 |q| :=
        zpow_le_zpow_right₀ (by norm_num) (by rw [lastPlace]; omega)
    _ ≤ |q| := Int.zpow_log_le_self (by decide) (abs_pos.2 hq)

/-- Rounding keeps the first digit, so no number is rounded to zero. -/
theorem roundSignificant_ne_zero {digits : ℕ} (hdigits : 0 < digits) {q : ℚ} (hq : q ≠ 0) :
    roundSignificant digits q ≠ 0 := by
  have hunit := ten_zpow_pos (lastPlace digits q)
  -- at least one unit of the last place is there, for the last place is not above the first digit
  have hone : 1 ≤ |q| / 10 ^ lastPlace digits q :=
    (one_le_div hunit).2 (zpow_lastPlace_le hdigits hq)
  have hfloor : 0 < ⌊|q| / 10 ^ lastPlace digits q + 1 / 2⌋₊ := Nat.floor_pos.2 (by linarith)
  have hcoeff : (⌊|q| / 10 ^ lastPlace digits q + 1 / 2⌋₊ : ℚ) ≠ 0 := by exact_mod_cast hfloor.ne'
  rw [roundSignificant]
  split_ifs
  · exact neg_ne_zero.2 (mul_ne_zero hcoeff hunit.ne')
  · exact mul_ne_zero hcoeff hunit.ne'

/-- A number is left alone by rounding if and only if it is a whole number of the last unit kept. -/
theorem roundSignificant_eq_self_iff {digits : ℕ} {q : ℚ} :
    roundSignificant digits q = q ↔ ∃ n : ℕ, |q| = n * 10 ^ lastPlace digits q := by
  rw [roundSignificant]
  constructor
  · intro h
    refine ⟨⌊|q| / 10 ^ lastPlace digits q + 1 / 2⌋₊, ?_⟩
    -- with either sign the equation is one of magnitudes
    split_ifs at h with hneg
    · rw [abs_of_neg hneg] at h ⊢
      linarith
    · rw [abs_of_nonneg (not_lt.1 hneg)] at h ⊢
      exact h.symm
  · -- a whole number is not changed by the half that rounding adds
    rintro ⟨n, hn⟩
    have hfloor : ⌊|q| / 10 ^ lastPlace digits q + 1 / 2⌋₊ = n := by
      rw [hn, mul_div_cancel_right₀ _ (ten_zpow_pos _).ne', Nat.floor_eq_iff (by positivity)]
      constructor <;> linarith
    rw [hfloor, ← hn]
    split_ifs with hneg
    · rw [abs_of_neg hneg, neg_neg]
    · exact abs_of_nonneg (not_lt.1 hneg)

/-- Rounding keeps the sign and rounds the magnitude. -/
theorem sign_roundSignificant {digits : ℕ} (hdigits : 0 < digits) (q : ℚ) :
    SignType.sign (roundSignificant digits q) = SignType.sign q := by
  rcases eq_or_ne q 0 with rfl | hq
  · -- zero is rounded to zero
    rw [roundSignificant_eq_self_iff.2 ⟨0, by simp⟩]
  have hne := roundSignificant_ne_zero hdigits hq
  have hunit := ten_zpow_pos (lastPlace digits q)
  rw [roundSignificant] at hne ⊢
  -- the sign is put back on a magnitude that is not zero
  split_ifs at hne ⊢ with hneg
  · rw [sign_neg hneg, sign_neg]
    exact lt_of_le_of_ne (neg_nonpos.2 (by positivity)) hne
  · rw [sign_pos (lt_of_le_of_ne (not_lt.1 hneg) hq.symm), sign_pos]
    exact lt_of_le_of_ne (by positivity) hne.symm

theorem abs_roundSignificant (digits : ℕ) (q : ℚ) :
    |roundSignificant digits q| = roundSignificant digits |q| := by
  have hplace : lastPlace digits |q| = lastPlace digits q := by rw [lastPlace, lastPlace, abs_abs]
  rw [abs_roundSignificant_eq, roundSignificant, if_neg (abs_nonneg q).not_gt, abs_abs, hplace]

/-- A number has at most one digit more than what it is rounded to. -/
theorem abs_lt_ten_mul_roundSignificant {digits : ℕ} (hdigits : 0 < digits) {q : ℚ} (hq : q ≠ 0) :
    |q| < 10 * |roundSignificant digits q| := by
  have hunit := ten_zpow_pos (lastPlace digits q)
  have hle : 10 ^ lastPlace digits q ≤ |q| := zpow_lastPlace_le hdigits hq
  have hone : 1 ≤ |q| / 10 ^ lastPlace digits q := (one_le_div hunit).2 hle
  -- the floor takes less than a unit of the last place away, and leaves at least one
  have hfloor := Nat.lt_floor_add_one (|q| / 10 ^ lastPlace digits q + 1 / 2)
  have hpos : (1 : ℚ) ≤ ⌊|q| / 10 ^ lastPlace digits q + 1 / 2⌋₊ := by
    exact_mod_cast Nat.floor_pos.2 (by linarith)
  rw [abs_roundSignificant_eq, ← mul_assoc, ← div_lt_iff₀ hunit]
  linarith

/-! ### The position of the leading digit -/

theorem digitCount_eq_log {n : ℕ} (hn : n ≠ 0) : digitCount n = Nat.log 10 n + 1 :=
  digitCount_eq (Nat.pow_log_le_self 10 hn) (Nat.lt_pow_succ_log_self (by decide) n)

theorem log_eq_digitCount {r : ℚ} (hr : 1 ≤ r) : Int.log 10 r = digitCount ⌊r⌋₊ - 1 := by
  -- the digits of a number are those of its whole part
  have hfloor : ⌊r⌋₊ ≠ 0 := (Nat.floor_pos.2 hr).ne'
  rw [Int.log_of_one_le_right 10 hr, digitCount_eq_log hfloor]
  push_cast
  ring

/-- The powers of ten around a number determine its logarithm. -/
theorem log_eq {q : ℚ} {e : ℤ} (hlow : 10 ^ e ≤ q) (hhigh : q < 10 ^ (e + 1)) :
    Int.log 10 q = e := by
  -- the logarithm is bounded from both sides, so that it is the exponent
  have hq : 0 < q := lt_of_lt_of_le (ten_zpow_pos e) hlow
  have hle : e ≤ Int.log 10 q :=
    (Int.zpow_le_iff_le_log (by decide) hq).1 (by exact_mod_cast hlow)
  have hlt : Int.log 10 q < e + 1 :=
    (Int.lt_zpow_iff_log_lt (by decide) hq).1 (by exact_mod_cast hhigh)
  omega

theorem log_abs_toRat {d : Decimal} (hd : d.coeff ≠ 0) : Int.log 10 |d.toRat| = d.leading - 1 := by
  refine log_eq (zpow_le_abs_toRat hd) ?_
  rw [sub_add_cancel]
  exact abs_toRat_lt_zpow d

theorem log_mul_zpow {q : ℚ} (hq : 0 < q) (k : ℤ) :
    Int.log 10 (q * 10 ^ k) = Int.log 10 q + k := by
  refine log_eq ?_ ?_
  · -- the power of ten moves both bounds alike
    rw [zpow_add₀ (by norm_num)]
    exact mul_le_mul_of_nonneg_right (Int.zpow_log_le_self (by decide) hq) (ten_zpow_pos k).le
  · rw [add_right_comm, zpow_add₀ (by norm_num)]
    exact mul_lt_mul_of_pos_right (Int.lt_zpow_succ_log_self (by decide) q) (ten_zpow_pos k)

theorem lastPlace_toRat {d : Decimal} (digits : ℕ) (hd : d.coeff ≠ 0) :
    lastPlace digits d.toRat = d.leading - digits := by
  rw [lastPlace, log_abs_toRat hd]
  omega

/-- A decimal with no more digits than are kept, the zeros at its end not counted, is left alone. -/
theorem roundSignificant_toRat_of_strip_le {d : Decimal} {digits : ℕ} (hd : d.coeff ≠ 0)
    (h : digitCount (stripZeros d.coeff.natAbs) ≤ digits) :
    roundSignificant digits d.toRat = d.toRat := by
  obtain ⟨k, rfl⟩ := Nat.exists_eq_add_of_le h
  have hcount := digitCount_eq_add_trailingZeros (Int.natAbs_ne_zero.2 hd)
  -- the zeros that are not counted stand above the last place that is kept, or below it
  have hexp : (trailingZeros d.coeff.natAbs : ℤ) + d.exp =
      k + (d.leading - (digitCount (stripZeros d.coeff.natAbs) + k : ℕ)) := by
    rw [leading, hcount]
    push_cast
    ring
  rw [roundSignificant_eq_self_iff, lastPlace_toRat _ hd, abs_toRat]
  refine ⟨stripZeros d.coeff.natAbs * 10 ^ k, ?_⟩
  calc (d.coeff.natAbs : ℚ) * 10 ^ d.exp
      = stripZeros d.coeff.natAbs * 10 ^ ((trailingZeros d.coeff.natAbs : ℤ) + d.exp) := by
        rw [zpow_add₀ (by norm_num), zpow_natCast, ← mul_assoc]
        congr 1
        exact_mod_cast (stripZeros_mul_pow d.coeff.natAbs).symm
    _ = _ := by
        rw [hexp, zpow_add₀ (by norm_num), zpow_natCast]
        push_cast
        ring

/-- A decimal with no more digits than are kept is left alone. -/
theorem roundSignificant_toRat_of_le {d : Decimal} {digits : ℕ} (hd : d.coeff ≠ 0)
    (h : digitCount d.coeff.natAbs ≤ digits) : roundSignificant digits d.toRat = d.toRat := by
  have hcount := digitCount_eq_add_trailingZeros (Int.natAbs_ne_zero.2 hd)
  exact roundSignificant_toRat_of_strip_le hd (by omega)

/-! ### Cutting digits off -/

/-- Digits cut off a whole part are rounded as the number itself is. -/
theorem dropDigits_floor {r : ℚ} (hr : 0 ≤ r) {k : ℕ} (hk : 0 < k) :
    dropDigits ⌊r⌋₊ k = ⌊r / 10 ^ k + 1 / 2⌋₊ := by
  obtain ⟨k, rfl⟩ := Nat.exists_eq_succ_of_ne_zero hk.ne'
  -- half a unit of the last digit is five of the guard digit
  have hsplit : r / 10 ^ (k + 1) + 1 / 2 = (r / (10 ^ k : ℕ) + 5) / 10 := by
    push_cast
    field_simp
    ring
  have hnonneg : 0 ≤ r / (10 ^ k : ℕ) := by positivity
  rw [hsplit, Nat.floor_div_ofNat, Nat.floor_add_ofNat hnonneg, Nat.floor_div_natCast]
  rfl

/-! ### The whole quotient -/

/-- The shift that is made: the one that is asked for, but with no more than 32 bits either way. -/
def cappedShift (n m : ℕ) : ℤ :=
  max (-4294967295) (min 4294967295 (quotientShift n m))

/-- The shift of the quotient is made as it is asked for: it has no more than 32 bits. -/
def ShiftFits (x y : Decimal) : Prop :=
  -4294967295 ≤ quotientShift x.coeff.natAbs y.coeff.natAbs ∧
    quotientShift x.coeff.natAbs y.coeff.natAbs ≤ 4294967295

instance (x y : Decimal) : Decidable (ShiftFits x y) := inferInstanceAs (Decidable (_ ∧ _))

theorem ShiftFits.cappedShift_eq {x y : Decimal} (h : ShiftFits x y) :
    cappedShift x.coeff.natAbs y.coeff.natAbs = quotientShift x.coeff.natAbs y.coeff.natAbs := by
  rw [cappedShift, min_eq_right h.2, max_eq_right h.1]

/-- The quotient of the coefficients after the shift that is made. -/
def shifted (n m : ℕ) : ℚ := n / m * 10 ^ cappedShift n m

theorem shifted_nonneg (n m : ℕ) : 0 ≤ shifted n m :=
  mul_nonneg (by positivity) (ten_zpow_pos _).le

/-- The whole quotient is the shifted quotient of the coefficients, cut off. -/
theorem wholeQuotient_eq_floor (n m : ℕ) : wholeQuotient n m = ⌊shifted n m⌋₊ := by
  rw [wholeQuotient, shifted]
  split
  · -- the dividend is shifted, and the division of naturals is a floor
    next h =>
    have hshift : cappedShift n m = (min (quotientShift n m).toNat 4294967295 : ℕ) := by
      rw [cappedShift]
      omega
    rw [hshift, zpow_natCast, ← Nat.floor_div_eq_div (K := ℚ), cappedPow10, pow10_eq]
    congr 1
    push_cast
    ring
  · next h =>
    -- the divisor is shifted in place of the dividend
    have hshift : cappedShift n m = -(min (-quotientShift n m).toNat 4294967295 : ℕ) := by
      rw [cappedShift]
      omega
    rw [hshift, zpow_neg, zpow_natCast, ← Nat.floor_div_eq_div (K := ℚ), cappedPow10, pow10_eq]
    congr 1
    push_cast
    field_simp

/-- A whole quotient that is not zero was cut off a number with a digit before its point. -/
theorem one_le_shifted {n m : ℕ} (hq : wholeQuotient n m ≠ 0) : 1 ≤ shifted n m := by
  rw [wholeQuotient_eq_floor] at hq
  exact Nat.floor_pos.1 (Nat.pos_of_ne_zero hq)

/-- A shift that is made as it is asked for leaves at least one digit more than are kept; one digit
is missing for each by which the shift is cut short. -/
theorem zpow_le_shifted {n m : ℕ} (hn : 0 < n) (hm : 0 < m) :
    (10 : ℚ) ^ (quotientDigits + (cappedShift n m - quotientShift n m)) ≤ shifted n m := by
  have hnlow : (10 : ℚ) ^ (digitCount n - 1) ≤ n := by exact_mod_cast pow_pred_digitCount_le hn
  have hmhigh : (m : ℚ) ≤ 10 ^ digitCount m := by exact_mod_cast (lt_pow_digitCount m).le
  -- the fewest digits that the dividend can have over the most that the divisor can
  have hexp : quotientDigits + (cappedShift n m - quotientShift n m) =
      (digitCount n - 1 : ℕ) - digitCount m + cappedShift n m := by
    have := digitCount_pos n
    rw [quotientShift]
    omega
  calc (10 : ℚ) ^ (quotientDigits + (cappedShift n m - quotientShift n m))
      = 10 ^ (digitCount n - 1) / 10 ^ digitCount m * 10 ^ cappedShift n m := by
        rw [hexp, zpow_add₀ (by norm_num), zpow_sub₀ (by norm_num), zpow_natCast, zpow_natCast]
    _ ≤ n / m * 10 ^ cappedShift n m := by
        have := (ten_zpow_pos (cappedShift n m)).le
        gcongr

/-- A shift that is made as it is asked for leaves at most two digits more than are kept. -/
theorem shifted_lt_zpow {n m : ℕ} (hm : 0 < m) :
    shifted n m < (10 : ℚ) ^ (quotientDigits + 2 + (cappedShift n m - quotientShift n m)) := by
  have hnhigh : (n : ℚ) < 10 ^ digitCount n := by exact_mod_cast lt_pow_digitCount n
  have hmlow : (10 : ℚ) ^ (digitCount m - 1) ≤ m := by exact_mod_cast pow_pred_digitCount_le hm
  -- the most digits that the dividend can have over the fewest that the divisor can
  have hexp : quotientDigits + 2 + (cappedShift n m - quotientShift n m) =
      digitCount n - (digitCount m - 1 : ℕ) + cappedShift n m := by
    have := digitCount_pos m
    rw [quotientShift]
    omega
  have hlt : (n / m : ℚ) < 10 ^ digitCount n / 10 ^ (digitCount m - 1) :=
    div_lt_div₀ hnhigh hmlow (by positivity) (by positivity)
  calc shifted n m = n / m * 10 ^ cappedShift n m := rfl
    _ < 10 ^ digitCount n / 10 ^ (digitCount m - 1) * 10 ^ cappedShift n m :=
        mul_lt_mul_of_pos_right hlt (ten_zpow_pos _)
    _ = 10 ^ (quotientDigits + 2 + (cappedShift n m - quotientShift n m)) := by
        rw [hexp, zpow_add₀ (by norm_num), zpow_sub₀ (by norm_num), zpow_natCast, zpow_natCast]

/-! ### The rounded quotient -/

/-- How many digits the whole quotient has more than are kept. -/
def guardDigits (n m : ℕ) : ℤ := digitCount (wholeQuotient n m) - quotientDigits

/-- Where the whole quotient is not zero, its digits are those of the shifted quotient. -/
theorem guardDigits_eq_log {n m : ℕ} (hq : wholeQuotient n m ≠ 0) :
    guardDigits n m = Int.log 10 (shifted n m) + 1 - quotientDigits := by
  rw [guardDigits, wholeQuotient_eq_floor, log_eq_digitCount (one_le_shifted hq)]
  ring

theorem wholeQuotient_ne_zero_of_le {n m : ℕ} (hn : 0 < n) (hm : 0 < m)
    (hshift : quotientShift n m ≤ cappedShift n m) : wholeQuotient n m ≠ 0 := by
  -- with the whole shift or more the dividend has at least seventeen digits before the point
  have hone : (1 : ℚ) ≤ shifted n m :=
    calc (1 : ℚ) = 10 ^ (0 : ℤ) := (zpow_zero _).symm
      _ ≤ 10 ^ (quotientDigits + (cappedShift n m - quotientShift n m)) :=
          zpow_le_zpow_right₀ (by norm_num) (by omega)
      _ ≤ shifted n m := zpow_le_shifted hn hm
  rw [wholeQuotient_eq_floor]
  exact (Nat.floor_pos.2 hone).ne'

/-- Unless the shift was cut short there is a guard digit. -/
theorem guardDigits_pos {n m : ℕ} (hn : 0 < n) (hm : 0 < m)
    (hshift : quotientShift n m ≤ cappedShift n m) : 0 < guardDigits n m := by
  have hlow := zpow_le_shifted hn hm
  have hpos : 0 < shifted n m := (ten_zpow_pos _).trans_le hlow
  -- a bound on a number by a power of ten is one on its logarithm
  have hlog := (Int.zpow_le_iff_le_log (b := 10) (by decide) hpos).1 (by exact_mod_cast hlow)
  rw [guardDigits_eq_log (wholeQuotient_ne_zero_of_le hn hm hshift)]
  omega

/-- If no more than the shift that is asked for is made, there are at most two guard digits. -/
theorem guardDigits_le_two {n m : ℕ} (hm : 0 < m) (hq : wholeQuotient n m ≠ 0)
    (hshift : cappedShift n m ≤ quotientShift n m) : guardDigits n m ≤ 2 := by
  have hpos : 0 < shifted n m := one_pos.trans_le (one_le_shifted hq)
  -- the number is below a power that has two digits more than are kept
  have hlog := (Int.lt_zpow_iff_log_lt (b := 10) (by decide) hpos).1
    (by exact_mod_cast shifted_lt_zpow hm)
  rw [guardDigits_eq_log hq]
  omega

/-- Digits cut off a whole part are rounded as the number itself is, if the power of ten by which
they are cut off is not capped. -/
theorem dropGuardDigits_floor {r : ℚ} (hr : 0 ≤ r) {k : ℤ} (hk : 0 < k) (hcap : k ≤ 4294967296) :
    dropGuardDigits ⌊r⌋₊ k = ⌊r / 10 ^ k + 1 / 2⌋₊ := by
  -- the last digit goes with the rounding and the others before it, so one less is cut off
  obtain ⟨j, rfl⟩ : ∃ j : ℕ, k = (j + 1 : ℕ) := ⟨(k - 1).toNat, by omega⟩
  rw [zpow_natCast, ← dropDigits_floor hr (Nat.succ_pos j), dropDigits, dropGuardDigits,
    cappedPow10]
  have hexp : min ((j + 1 : ℕ) - 1 : ℤ).toNat 4294967295 = j := by omega
  rw [hexp]

section Quotient

variable {x y : Decimal}

theorem abs_div_toRat (x y : Decimal) :
    |x.toRat / y.toRat| = shifted x.coeff.natAbs y.coeff.natAbs *
      10 ^ (x.exp - y.exp - cappedShift x.coeff.natAbs y.coeff.natAbs) := by
  rw [abs_div, abs_toRat, abs_toRat, shifted, mul_assoc, ← zpow_add₀ (by norm_num), add_sub_cancel,
    zpow_sub₀ (by norm_num), mul_div_mul_comm]

/-- The coefficient of the quotient before its zeros are stripped. -/
def roundedCoeff (x y : Decimal) : ℤ :=
  let rounded : ℤ := dropGuardDigits (wholeQuotient x.coeff.natAbs y.coeff.natAbs)
    (guardDigits x.coeff.natAbs y.coeff.natAbs)
  if x.isNegative = y.isNegative then rounded else -rounded

theorem natAbs_roundedCoeff (x y : Decimal) :
    (roundedCoeff x y).natAbs = dropGuardDigits (wholeQuotient x.coeff.natAbs y.coeff.natAbs)
      (guardDigits x.coeff.natAbs y.coeff.natAbs) := by
  rw [roundedCoeff]
  split_ifs
  · rw [Int.natAbs_natCast]
  · rw [Int.natAbs_neg, Int.natAbs_natCast]

/-- The exponent of the quotient before its zeros are stripped. -/
def checkedPlace (x y : Decimal) : ℤ :=
  x.exp - y.exp - quotientShift x.coeff.natAbs y.coeff.natAbs +
    guardDigits x.coeff.natAbs y.coeff.natAbs

/-- The quotient of decimals other than zero is the canonical decimal of the rounded coefficient over
its exponent, if that is in range. -/
theorem div_eq (hx : x.coeff ≠ 0) (hy : y.coeff ≠ 0) :
    x.div y = (do (← ofParts (roundedCoeff x y) (checkedPlace x y)).canonical) := by
  rw [div, if_neg hy, if_neg hx]
  rfl

/-- The exponent is that of the last place that is kept, but for what the shift was cut short. -/
theorem checkedPlace_eq (hq : wholeQuotient x.coeff.natAbs y.coeff.natAbs ≠ 0) :
    checkedPlace x y = lastPlace quotientDigits (x.toRat / y.toRat) +
      (cappedShift x.coeff.natAbs y.coeff.natAbs -
        quotientShift x.coeff.natAbs y.coeff.natAbs) := by
  have hpos : 0 < shifted x.coeff.natAbs y.coeff.natAbs := one_pos.trans_le (one_le_shifted hq)
  rw [checkedPlace, guardDigits_eq_log hq, lastPlace, abs_div_toRat, log_mul_zpow hpos]
  ring

/-- The number over the unit of the last place that is kept. -/
theorem abs_div_lastPlace (hq : wholeQuotient x.coeff.natAbs y.coeff.natAbs ≠ 0) :
    |x.toRat / y.toRat| / 10 ^ lastPlace quotientDigits (x.toRat / y.toRat) =
      shifted x.coeff.natAbs y.coeff.natAbs / 10 ^ guardDigits x.coeff.natAbs y.coeff.natAbs := by
  -- where the checked place is, the guard digits are already added
  have hplace : lastPlace quotientDigits (x.toRat / y.toRat) =
      x.exp - y.exp - cappedShift x.coeff.natAbs y.coeff.natAbs +
        guardDigits x.coeff.natAbs y.coeff.natAbs := by
    have := checkedPlace_eq hq
    rw [checkedPlace] at this
    omega
  rw [hplace, abs_div_toRat, zpow_add₀ (by norm_num), mul_comm (10 ^ _ : ℚ), ← div_div,
    mul_div_right_comm, mul_div_cancel_right₀ _ (ten_zpow_pos _).ne']

theorem div_toRat_ne_zero (hx : x.coeff ≠ 0) (hy : y.coeff ≠ 0) : x.toRat / y.toRat ≠ 0 :=
  div_ne_zero (toRat_eq_zero_iff.not.2 hx) (toRat_eq_zero_iff.not.2 hy)

theorem div_toRat_neg_iff (hx : x.coeff ≠ 0) (hy : y.coeff ≠ 0) :
    x.toRat / y.toRat < 0 ↔ ¬x.isNegative = y.isNegative := by
  rw [div_neg_iff, toRat_pos_iff, toRat_pos_iff, toRat_neg_iff, toRat_neg_iff, isNegative,
    isNegative, decide_eq_decide]
  omega

theorem ShiftFits.wholeQuotient_ne_zero (hfits : ShiftFits x y) (hx : x.coeff ≠ 0)
    (hy : y.coeff ≠ 0) : wholeQuotient x.coeff.natAbs y.coeff.natAbs ≠ 0 :=
  wholeQuotient_ne_zero_of_le (Int.natAbs_pos.2 hx) (Int.natAbs_pos.2 hy)
    hfits.cappedShift_eq.ge

/-- The exponent that is checked is the place of the last digit that is kept. -/
theorem checkedPlace_eq_lastPlace (hfits : ShiftFits x y) (hx : x.coeff ≠ 0) (hy : y.coeff ≠ 0) :
    checkedPlace x y = lastPlace quotientDigits (x.toRat / y.toRat) := by
  rw [checkedPlace_eq (hfits.wholeQuotient_ne_zero hx hy), hfits.cappedShift_eq, sub_self, add_zero]

/-- The coefficient over that exponent is the rounded quotient. -/
theorem roundedCoeff_mul_zpow (hfits : ShiftFits x y) (hx : x.coeff ≠ 0) (hy : y.coeff ≠ 0) :
    roundedCoeff x y * 10 ^ checkedPlace x y =
      roundSignificant quotientDigits (x.toRat / y.toRat) := by
  have hq := hfits.wholeQuotient_ne_zero hx hy
  -- one digit or two are cut off, which is far below the cap
  have hguard := guardDigits_pos (Int.natAbs_pos.2 hx) (Int.natAbs_pos.2 hy) hfits.cappedShift_eq.ge
  have htwo := guardDigits_le_two (Int.natAbs_pos.2 hy) hq hfits.cappedShift_eq.le
  have hfloor : ⌊|x.toRat / y.toRat| / 10 ^ lastPlace quotientDigits (x.toRat / y.toRat) + 1 / 2⌋₊ =
      dropGuardDigits (wholeQuotient x.coeff.natAbs y.coeff.natAbs)
        (guardDigits x.coeff.natAbs y.coeff.natAbs) := by
    rw [abs_div_lastPlace hq, wholeQuotient_eq_floor,
      dropGuardDigits_floor (shifted_nonneg _ _) hguard (by omega)]
  rw [checkedPlace_eq_lastPlace hfits hx hy, roundSignificant, hfloor, roundedCoeff]
  -- the magnitude is rounded, and the sign that is put back is that of the quotient
  by_cases hneg : x.toRat / y.toRat < 0
  · rw [if_pos hneg, if_neg ((div_toRat_neg_iff hx hy).1 hneg)]
    push_cast
    ring
  · rw [if_neg hneg, if_pos (not_not.1 fun h => hneg ((div_toRat_neg_iff hx hy).2 h))]
    push_cast
    rfl

end Quotient

end DecimalScript.Decimal
