import DecimalScript.Proofs.Decimal.Loss

/-!
# Decimals with one written form

When two decimals are written alike. A text without a power of ten tells the number. A text with one
tells the number rounded to the digits of a mantissa, and nothing else: it is put together from the
canonical form of that number (`chars_of_showsPower`), from which it can be taken apart again
(`powerChars_inj`). That the text is a literal is not needed for this, so it also holds of the texts
whose exponent is out of range.

So different numbers are written alike if and only if both show a power of ten and both are rounded
to one number (`text_eq_text_iff_of_toRat_ne`).
-/

namespace DecimalScript.Decimal

variable {x y d : Decimal}

/-- Both decimals are written as a mantissa with a power of ten, and rounded to its digits they are
one number. -/
structure RoundsTogether (x y : Decimal) : Prop where
  left_showsPower : x.ShowsPower
  right_showsPower : y.ShowsPower
  rounded_eq : roundSignificant 12 x.toRat = roundSignificant 12 y.toRat

/-! ### The text of a mantissa with a power of ten -/

/-- A coefficient that does not end in a zero over a power of ten, as a mantissa with the point
behind its first digit. -/
def powerChars (c e : ℤ) : List Char :=
  signChars (decide (c < 0)) ++ (pointed (Nat.toDigits 10 c.natAbs) ++ (['*', '1', '0', '^'] ++
    intChars (e + digitCount c.natAbs - 1)))

/-- The written form with a power of ten is that of the rounded number in its canonical form. -/
theorem chars_of_showsPower (hd : d.ShowsPower) : d.chars = powerChars d.shownCoeff d.shownExp := by
  obtain ⟨hne, hform⟩ := showsPower_iff.1 hd
  have hmantissa := mantissaOf_ne_zero (Int.natAbs_ne_zero.2 hne)
  -- the point is counted from the first digit, so the zeros at the end do not matter
  have hpower : d.shownExp + digitCount d.shownCoeff.natAbs - 1 =
      d.exp + droppedDigits d.coeff.natAbs + digitCount (mantissaOf d.coeff.natAbs) - 1 := by
    rw [shownExp, natAbs_shownCoeff hne, digitCount_eq_add_trailingZeros hmantissa]
    push_cast
    ring
  have hsign : decide (d.shownCoeff < 0) = decide (d.coeff < 0) :=
    decide_eq_decide.2 (shownCoeff_neg_iff hne)
  rw [chars, if_neg hne, magnitudeChars, ← digitCount, hform, powerChars, hpower, hsign,
    natAbs_shownCoeff hne]
  simp only [signChars, decide_eq_true_eq, scientificChars, pointed, List.append_assoc]
  rfl

/-! ### Taking a text apart -/

theorem splitSign_intChars (k : ℤ) :
    splitSign (intChars k) = (decide (k < 0), Nat.toDigits 10 k.natAbs) := by
  have hchars : intChars k = signChars (decide (k < 0)) ++ Nat.toDigits 10 k.natAbs := by
    simp only [intChars, signChars, decide_eq_true_eq]
  -- the digits begin with no sign, so the one that is cut off is the one that was written
  rw [hchars]
  exact splitSign_signChars _
    ((allDigits_toDigits k.natAbs).isMantissa Nat.toDigits_ne_nil).head_isDigit

theorem eq_of_natAbs_eq {c c' : ℤ} (hsign : decide (c < 0) = decide (c' < 0))
    (habs : c.natAbs = c'.natAbs) : c = c' := by
  rw [decide_eq_decide] at hsign
  omega

theorem toDigits_inj {n m : ℕ} (h : Nat.toDigits 10 n = Nat.toDigits 10 m) : n = m := by
  rw [← natOfDigits_toDigits n, h, natOfDigits_toDigits]

theorem intChars_inj {k k' : ℤ} (h : intChars k = intChars k') : k = k' := by
  -- cutting the sign off is a function, so equal texts have equal parts
  have hsplit := congrArg splitSign h
  rw [splitSign_intChars, splitSign_intChars, Prod.mk.injEq] at hsplit
  exact eq_of_natAbs_eq hsplit.1 (toDigits_inj hsplit.2)

theorem isMantissa_pointed_toDigits (n : ℕ) : IsMantissa (pointed (Nat.toDigits 10 n)) :=
  isMantissa_pointed (allDigits_toDigits n) Nat.toDigits_ne_nil

/-- A mantissa tells its digits; where the point stands is no choice. -/
theorem pointed_toDigits_inj {n m : ℕ}
    (h : pointed (Nat.toDigits 10 n) = pointed (Nat.toDigits 10 m)) : n = m := by
  -- reading is a function as well
  have hread := congrArg readMantissa? h
  rw [readMantissa?_pointed (allDigits_toDigits n) Nat.toDigits_ne_nil,
    readMantissa?_pointed (allDigits_toDigits m) Nat.toDigits_ne_nil, natOfDigits_toDigits,
    natOfDigits_toDigits, Option.some.injEq, Prod.mk.injEq] at hread
  exact hread.1

theorem powerChars_inj {c c' e e' : ℤ} (h : powerChars c e = powerChars c' e') :
    c = c' ∧ e = e' := by
  -- a mantissa begins with a digit
  have hhead : ∀ n k, ∃ first rest,
      pointed (Nat.toDigits 10 n) ++ (['*', '1', '0', '^'] ++ intChars k) = first :: rest ∧
        first.isDigit = true := by
    intro n k
    obtain ⟨first, rest, hpointed, hfirst⟩ := (isMantissa_pointed_toDigits n).head_isDigit
    exact ⟨first, _, by rw [hpointed, List.cons_append], hfirst⟩
  -- the sign, the mantissa and the exponent are cut off one after the other
  have hsign := congrArg splitSign h
  rw [powerChars, powerChars, splitSign_signChars _ (hhead _ _), splitSign_signChars _ (hhead _ _),
    Prod.mk.injEq] at hsign
  have hsplit := congrArg splitExponent hsign.2
  rw [splitExponent_append (isMantissa_pointed_toDigits _),
    splitExponent_append (isMantissa_pointed_toDigits _), Prod.mk.injEq,
    Option.some.injEq] at hsplit
  have hc : c = c' := eq_of_natAbs_eq hsign.1 (pointed_toDigits_inj hsplit.1)
  have hpower := intChars_inj hsplit.2
  rw [hc] at hpower
  exact ⟨hc, by omega⟩

/-! ### Numbers that are written alike -/

theorem text_eq_text_iff : x.text = y.text ↔ x.chars = y.chars := String.ofList_inj

/-- With a power of ten the text tells the rounded number and no more. -/
theorem text_eq_text_iff_of_showsPower (hx : x.ShowsPower) (hy : y.ShowsPower) :
    x.text = y.text ↔ roundSignificant 12 x.toRat = roundSignificant 12 y.toRat := by
  have hx' := (showsPower_iff.1 hx).1
  have hy' := (showsPower_iff.1 hy).1
  rw [text_eq_text_iff, chars_of_showsPower hx, chars_of_showsPower hy, ← mantissaDigits,
    ← shownCoeff_mul_zpow hx', ← shownCoeff_mul_zpow hy']
  constructor
  · intro h
    obtain ⟨hcoeff, hexp⟩ := powerChars_inj h
    rw [hcoeff, hexp]
  · intro h
    -- neither coefficient ends in a zero, so both decimals show one canonical form
    obtain ⟨hcoeff, hexp⟩ :=
      canonicalForm_unique (not_dvd_shownCoeff hx') (not_dvd_shownCoeff hy') h
    rw [hcoeff, hexp]

theorem exists_readBack?_of_not_showsPower (hform : ¬d.ShowsPower) : ∃ r, readBack? d = some r := by
  rw [← Option.isSome_iff_exists, readBack?]
  split
  · rfl
  · -- one of the three forms that are always read back
    next hd =>
    have hscientific : formOf (digitCount d.coeff.natAbs) d.exp ≠ .scientific := fun hchosen =>
      hform (showsPower_iff.2 ⟨hd, hchosen⟩)
    cases hchosen : formOf (digitCount d.coeff.natAbs) d.exp with
    | integer | fixed | leadingZeros => rfl
    | scientific => exact absurd hchosen hscientific

/-- Without a power of ten the text tells the number. -/
theorem toRat_eq_of_text_eq (hx : ¬x.ShowsPower) (h : x.text = y.text) : x.toRat = y.toRat := by
  -- showing a power is a property of the text alone
  have hy : ¬y.ShowsPower := by
    rw [ShowsPower, ← h]
    exact hx
  -- one text is read back as one decimal, which is the number of both
  obtain ⟨r, hr⟩ := exists_readBack?_of_not_showsPower hx
  have hr' : readBack? y = some r := by
    rwa [← parse_text_eq_ok_iff, ← h, parse_text_eq_ok_iff]
  rw [← toRat_readBack?_of_not_showsPower hx hr, toRat_readBack?_of_not_showsPower hy hr']

/-- Different numbers are written alike just if a mantissa rounds them to one number. -/
theorem text_eq_text_iff_of_toRat_ne (hne : x.toRat ≠ y.toRat) :
    x.text = y.text ↔ x.RoundsTogether y := by
  constructor
  · intro h
    -- different numbers can share a text only in the form that rounds, and the form is told by the
    -- text
    have hx : x.ShowsPower := by
      by_contra hx
      exact hne (toRat_eq_of_text_eq hx h)
    have hy : y.ShowsPower := by rwa [ShowsPower, ← h]
    exact ⟨hx, hy, (text_eq_text_iff_of_showsPower hx hy).1 h⟩
  · intro h
    exact (text_eq_text_iff_of_showsPower h.left_showsPower h.right_showsPower).2 h.rounded_eq

end DecimalScript.Decimal
