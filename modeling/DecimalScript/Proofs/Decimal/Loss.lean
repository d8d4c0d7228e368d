import DecimalScript.Proofs.Decimal.ReadBack

/-!
# What writing a decimal loses

A decimal whose written form is a literal is read back as the same number, unless its written form
shows a power of ten and it has more significant digits than a mantissa keeps; then it is read back
as the number rounded to the digits of a mantissa, a half up in magnitude. What is read back loses
nothing more when it is written again, in whichever form that is: the forms without a power of ten
are kept, and a mantissa that was rounded once has no digit left to drop
(`significantDigits_readBack?`).

Main result: `text_loses_only_rounding`.
-/

namespace DecimalScript.Decimal

/-- Whether the written form shows a power of ten. -/
def ShowsPower (d : Decimal) : Prop :=
  ['*', '1', '0', '^'] <:+: d.text.toList

/-- How many digits the coefficient has, the zeros at its end not counted. -/
def significantDigits (d : Decimal) : ℕ :=
  digitCount (stripZeros d.coeff.natAbs)

variable {d r : Decimal}

/-! ### Which forms show a power of ten -/

theorem digit_or_point_of_form {n : ℕ} {exp : ℤ}
    (hform : formOf (digitCount n) exp ≠ .scientific) :
    ∀ c ∈ magnitudeChars n exp, c.isDigit = true ∨ c = '.' := by
  intro c hc
  have hdigit : ∀ {ds}, AllDigits ds → c ∈ ds → c.isDigit = true ∨ c = '.' :=
    fun hds hmem => .inl (hds c hmem)
  have hall := allDigits_toDigits n
  rw [magnitudeChars, ← digitCount] at hc
  -- each form is its digits with at most a point between them, but for the last
  cases hchosen : formOf (digitCount n) exp with
  | integer =>
    rw [hchosen] at hc
    exact hdigit (hall.append (allDigits_zeros exp.toNat)) hc
  | fixed =>
    rw [hchosen, List.mem_append, List.mem_append, List.mem_singleton] at hc
    obtain (hc | rfl) | hc := hc
    · exact hdigit (hall.take _) hc
    · exact .inr rfl
    · exact hdigit (hall.drop _) hc
  | leadingZeros =>
    rw [hchosen] at hc
    change c ∈ ['0', '.'] ++ _ ++ _ at hc
    rw [List.append_assoc, List.mem_append] at hc
    obtain hc | hc := hc
    · rcases List.mem_pair.1 hc with rfl | rfl
      · exact .inl rfl
      · exact .inr rfl
    · exact hdigit ((allDigits_zeros _).append hall) hc
  | scientific => exact absurd hchosen hform

theorem showsPower_iff :
    d.ShowsPower ↔ d.coeff ≠ 0 ∧ formOf (digitCount d.coeff.natAbs) d.exp = .scientific := by
  rw [ShowsPower, text, String.toList_ofList, chars]
  split
  · next hd =>
    -- a zero is written with no more than its digit
    refine iff_of_false (fun h => ?_) (fun h => h.1 hd)
    exact absurd h.length_le (by decide)
  next hd =>
  constructor
  · intro h
    refine ⟨hd, ?_⟩
    by_contra hform
    -- without a power of ten there is no star in the text
    have hstar := h.subset (show '*' ∈ ['*', '1', '0', '^'] by decide)
    rw [List.mem_append] at hstar
    obtain hstar | hstar := hstar
    · -- what stands in front of the magnitude is a sign at most
      split at hstar
      · exact absurd hstar (by decide)
      · exact absurd hstar (by decide)
    · exact absurd (digit_or_point_of_form hform _ hstar) (by decide)
  · rintro ⟨-, hform⟩
    rw [magnitudeChars, ← digitCount, hform]
    refine .trans ?_ (List.suffix_append _ _).isInfix
    exact ⟨_, _, rfl⟩

/-! ### What a text with a power of ten shows -/

/-- The coefficient that a text with a power of ten shows. -/
def shownCoeff (d : Decimal) : ℤ :=
  d.coeff.sign * stripZeros (mantissaOf d.coeff.natAbs)

/-- The exponent that a text with a power of ten shows. -/
def shownExp (d : Decimal) : ℤ :=
  d.exp + droppedDigits d.coeff.natAbs + trailingZeros (mantissaOf d.coeff.natAbs)

theorem natAbs_shownCoeff (hd : d.coeff ≠ 0) :
    d.shownCoeff.natAbs = stripZeros (mantissaOf d.coeff.natAbs) := by
  rw [shownCoeff, Int.natAbs_mul, Int.natAbs_sign_of_ne_zero hd, one_mul, Int.natAbs_natCast]

theorem not_dvd_shownCoeff (hd : d.coeff ≠ 0) : ¬10 ∣ d.shownCoeff := by
  rw [← Int.natAbs_dvd_natAbs, natAbs_shownCoeff hd]
  exact not_dvd_stripZeros (mantissaOf_ne_zero (Int.natAbs_ne_zero.2 hd))

theorem shownCoeff_neg_iff (hd : d.coeff ≠ 0) : d.shownCoeff < 0 ↔ d.coeff < 0 := by
  have hpos : (0 : ℤ) < stripZeros (mantissaOf d.coeff.natAbs) :=
    Int.natCast_pos.2 (Nat.pos_of_ne_zero
      (stripZeros_ne_zero (mantissaOf_ne_zero (Int.natAbs_ne_zero.2 hd))))
  -- the sign has no share in the magnitude, which is not zero
  rcases lt_or_gt_of_ne hd with hneg | hgt
  · rw [shownCoeff, Int.sign_eq_neg_one_of_neg hneg]
    omega
  · rw [shownCoeff, Int.sign_eq_one_of_pos hgt]
    omega

theorem shownCoeff_mul_zpow (hd : d.coeff ≠ 0) :
    (d.shownCoeff : ℚ) * 10 ^ d.shownExp = roundSignificant mantissaDigits d.toRat := by
  -- the zeros of the mantissa go into the exponent
  have hzeros : (stripZeros (mantissaOf d.coeff.natAbs) : ℚ) *
      10 ^ trailingZeros (mantissaOf d.coeff.natAbs) = mantissaOf d.coeff.natAbs := by
    exact_mod_cast stripZeros_mul_pow (mantissaOf d.coeff.natAbs)
  rw [← mantissaOf_mul_zpow hd, shownCoeff, shownExp, zpow_add₀ (by norm_num),
    zpow_natCast, Int.cast_mul, Int.cast_mul, Int.cast_natCast, Int.cast_natCast, ← hzeros]
  ring

/-! ### What is read back -/

theorem parse_text_eq_ok_iff : parse d.text = .ok r ↔ readBack? d = some r := by
  rw [parse_text]
  cases readBack? d <;> simp

theorem toRat_readBack?_of_not_showsPower (hform : ¬d.ShowsPower) (h : readBack? d = some r) :
    r.toRat = d.toRat := by
  -- on the form that was written, in the order in which it was chosen
  rw [readBack?] at h
  split at h
  · next hd =>
    obtain rfl := Option.some.inj h
    rw [toRat_zero, toRat_eq_zero_iff.2 hd]
  next hd =>
  have hbounds := formOf_bounds (digitCount d.coeff.natAbs) d.exp
  cases hchosen : formOf (digitCount d.coeff.natAbs) d.exp with
  | integer =>
    -- the zeros that are written after the digits are part of the coefficient that is read
    rw [hchosen] at h hbounds
    obtain ⟨hcoeff, hexp⟩ := ofParts?_eq_some_iff.1 h
    rw [toRat, hcoeff, hexp]
    exact scaledTo_mul_zpow hbounds.1
  | fixed =>
    -- both forms with a point keep the parts as they are
    rw [hchosen] at h
    rw [Option.some.inj h]
  | leadingZeros =>
    rw [hchosen] at h
    rw [Option.some.inj h]
  | scientific => exact absurd (showsPower_iff.2 ⟨hd, hchosen⟩) hform

theorem readBack?_of_showsPower (hform : d.ShowsPower) :
    readBack? d = ofParts? d.shownCoeff d.shownExp := by
  obtain ⟨hd, hchosen⟩ := showsPower_iff.1 hform
  rw [readBack?, if_neg hd, hchosen]
  rfl

theorem toRat_readBack?_of_showsPower (hform : d.ShowsPower) (h : readBack? d = some r) :
    r.toRat = roundSignificant mantissaDigits d.toRat := by
  rw [readBack?_of_showsPower hform] at h
  obtain ⟨hcoeff, hexp⟩ := ofParts?_eq_some_iff.1 h
  rw [← shownCoeff_mul_zpow (showsPower_iff.1 hform).1, toRat, hcoeff, hexp]

/-- A mantissa that was read has no more digits than are kept, not even if rounding carried into
one digit more, since that leaves only zeros behind the first. -/
theorem significantDigits_readBack? (hform : d.ShowsPower) (h : readBack? d = some r) :
    r.significantDigits ≤ mantissaDigits := by
  have hd := (showsPower_iff.1 hform).1
  rw [readBack?_of_showsPower hform] at h
  -- the coefficient that was read is stripped already, so stripping it once more changes nothing
  have hmantissa := mantissaOf_ne_zero (Int.natAbs_ne_zero.2 hd)
  have hstripped := stripZeros_ne_zero hmantissa
  have hsame : stripZeros (stripZeros (mantissaOf d.coeff.natAbs)) =
      stripZeros (mantissaOf d.coeff.natAbs) :=
    stripZeros_eq (k := 0) (not_dvd_stripZeros hmantissa) (by rw [pow_zero, mul_one])
  have hcoeff : r.coeff.natAbs = stripZeros (mantissaOf d.coeff.natAbs) := by
    rw [(ofParts?_eq_some_iff.1 h).1, natAbs_shownCoeff hd]
  rw [significantDigits, hcoeff, hsame]
  rcases (mantissaOf_le (n := d.coeff.natAbs)).lt_or_eq with hlt | hcarry
  · have hcount := digitCount_eq_add_trailingZeros hmantissa
    have hdigits := (digitCount_le_iff (show 0 < mantissaDigits by decide)).2 hlt
    omega
  · -- the carry: the mantissa is the power of ten itself, and its one significant digit is left
    have hone : stripZeros (mantissaOf d.coeff.natAbs) = 1 :=
      stripZeros_eq (by decide) (hcarry.trans (one_mul _).symm)
    rw [hone]
    decide

/-- What is read back from a form without a power of ten is written in such a form again. -/
theorem not_showsPower_readBack? (hform : ¬d.ShowsPower) (h : readBack? d = some r) :
    ¬r.ShowsPower := by
  rw [readBack?] at h
  split at h
  · obtain rfl := Option.some.inj h
    exact fun hzero => (showsPower_iff.1 hzero).1 rfl
  next hd =>
  -- on the form again: what is read back is short enough for the same kind of form
  have hbounds := formOf_bounds (digitCount d.coeff.natAbs) d.exp
  cases hchosen : formOf (digitCount d.coeff.natAbs) d.exp with
  | integer =>
    rw [hchosen] at h hbounds
    obtain ⟨hcoeff, hexp⟩ := ofParts?_eq_some_iff.1 h
    -- the coefficient that is read has the zeros as digits, so it is as long as the text
    have hscaled : r.coeff.natAbs = d.coeff.natAbs * 10 ^ d.exp.toNat := by
      rw [hcoeff, scaledTo, Int.natAbs_mul, Int.natAbs_natCast, pow10_eq, sub_zero]
    have hdigits : digitCount r.coeff.natAbs = digitCount d.coeff.natAbs + d.exp.toNat := by
      rw [hscaled, digitCount_mul_pow (Int.natAbs_pos.2 hd)]
    rw [showsPower_iff, hexp, formOf, if_pos le_rfl, if_pos]
    · rintro ⟨-, habsurd⟩
      cases habsurd
    · rw [hdigits, maxDigits]
      omega
  | fixed =>
    rw [hchosen] at h
    rwa [← Option.some.inj h]
  | leadingZeros =>
    rw [hchosen] at h
    rwa [← Option.some.inj h]
  | scientific => exact absurd (showsPower_iff.2 ⟨hd, hchosen⟩) hform

/-! ### What is lost -/

/-- A number that is written exactly, or with digits enough, is read back. -/
theorem toRat_readBack?_of_exact (hexact : ¬d.ShowsPower ∨ d.significantDigits ≤ mantissaDigits)
    (h : readBack? d = some r) : r.toRat = d.toRat := by
  -- the text without a power of ten is exact by itself, the other because nothing is rounded away
  by_cases hform : d.ShowsPower
  · rw [toRat_readBack?_of_showsPower hform h]
    exact roundSignificant_toRat_of_strip_le (showsPower_iff.1 hform).1
      (hexact.resolve_left (not_not.2 hform))
  · exact toRat_readBack?_of_not_showsPower hform h

/-- **Writing loses nothing but the rounding of a mantissa.** Of a decimal whose text is read back,
the number stays the same if the text shows no power of ten or if the decimal has at most twelve
significant digits. Otherwise the sign stays and the magnitude is rounded to twelve significant
digits, a half up. A second round of writing and reading loses nothing. -/
theorem text_loses_only_rounding {d r : Decimal} (h : parse d.text = .ok r) :
    (¬d.ShowsPower ∨ d.significantDigits ≤ 12 → r.toRat = d.toRat) ∧
    (d.ShowsPower → 12 < d.significantDigits →
      SignType.sign r.toRat = SignType.sign d.toRat ∧
        |r.toRat| = roundSignificant 12 |d.toRat|) ∧
    (∀ r', parse r.text = .ok r' → r'.toRat = r.toRat) := by
  rw [parse_text_eq_ok_iff] at h
  refine ⟨fun hexact => toRat_readBack?_of_exact hexact h, fun hform _ => ?_, fun r' h' => ?_⟩
  · rw [toRat_readBack?_of_showsPower hform h]
    exact ⟨sign_roundSignificant (by decide) _, abs_roundSignificant _ _⟩
  · refine toRat_readBack?_of_exact ?_ (parse_text_eq_ok_iff.1 h')
    -- by what was read back the first time, which is one of the two exact cases
    by_cases hform : d.ShowsPower
    · exact .inr (significantDigits_readBack? hform h)
    · exact .inl (not_showsPower_readBack? hform h)

/-- Thirteen digits of which the rounding carries through all: the number read back is a power of
ten, and it is written and read back as itself from then on. -/
theorem carried_nines_lose_only_rounding : ∃ d r : Decimal,
    d.coeff = -9999999999995 ∧ d.exp = 10 ∧ d.text = "-1*10^23" ∧
    parse d.text = .ok r ∧ r.coeff = -1 ∧ r.exp = 23 ∧
    SignType.sign r.toRat = SignType.sign d.toRat ∧ |r.toRat| = roundSignificant 12 |d.toRat| ∧
    parse r.text = .ok r := by
  have hread : parse (Decimal.mk (-9999999999995) 10).text = .ok (Decimal.mk (-1) 23) := by
    decide +kernel
  have hform : (Decimal.mk (-9999999999995) 10).ShowsPower :=
    showsPower_iff.2 ⟨by decide, by decide +kernel⟩
  have hdigits : 12 < (Decimal.mk (-9999999999995) 10).significantDigits := by decide +kernel
  obtain ⟨hsign, habs⟩ := (text_loses_only_rounding hread).2.1 hform hdigits
  exact ⟨_, _, rfl, rfl, by decide +kernel, hread, rfl, rfl, hsign, habs, by decide +kernel⟩

end DecimalScript.Decimal
