import DecimalScript.Proofs.Decimal.Canonical
import DecimalScript.Proofs.Decimal.Reading

/-!
# Reading a decimal back from its written form

The forms without a power of ten are read back as the number itself. The form with one is read back
as the number rounded to the digits of a mantissa, over the exponent of its canonical form: writing
moves the point behind the first digit and reading moves it back behind the last, so the two shifts
cancel, and what is left of them are the digits that were dropped and the zeros that were stripped
(`readLiteral?_chars`). That exponent may be above the range even if the exponent of the decimal is
not, and then the text is no literal (`literal_not_read_back`).

Main result: `parse_text_iff`.
-/

namespace DecimalScript.Decimal

/-- The number of digits that a mantissa leaves out. -/
def droppedDigits (n : ℕ) : ℕ := digitCount n - mantissaDigits

/-- The mantissa with its trailing zeros, as a whole number. -/
def mantissaOf (n : ℕ) : ℕ := dropDigits n (droppedDigits n)

/-- What the written form of a decimal is read back as. -/
def readBack? (d : Decimal) : Option Decimal :=
  if d.coeff = 0 then some zero
  else
    match formOf (digitCount d.coeff.natAbs) d.exp with
    | .integer => ofParts? (d.scaledTo 0) 0
    | .fixed => some d
    | .leadingZeros => some d
    | .scientific =>
      ofParts? (d.coeff.sign * stripZeros (mantissaOf d.coeff.natAbs))
        (d.exp + droppedDigits d.coeff.natAbs + trailingZeros (mantissaOf d.coeff.natAbs))

/-! ### The mantissa -/

theorem mantissaOf_le {n : ℕ} : mantissaOf n ≤ 10 ^ mantissaDigits := by
  have hn := lt_pow_digitCount n
  rw [mantissaOf]
  -- on the number of digits dropped: without any the number is its own mantissa
  cases hdropped : droppedDigits n with
  | zero =>
    rw [droppedDigits, Nat.sub_eq_zero_iff_le] at hdropped
    exact hn.le.trans (Nat.pow_le_pow_right (by decide) hdropped)
  | succ k =>
    -- one digit more than are kept decides on the rounding
    have hcount : digitCount n = mantissaDigits + 1 + k := by
      rw [droppedDigits] at hdropped
      omega
    have hlt : n / 10 ^ k < 10 ^ (mantissaDigits + 1) := by
      rw [Nat.div_lt_iff_lt_mul (Nat.pow_pos (by decide)), ← pow_add, ← hcount]
      exact hn
    rw [pow_succ] at hlt
    rw [dropDigits, pow10_eq]
    omega

/-- Rounding up may carry into one more digit. -/
theorem digitCount_mantissaOf_le (n : ℕ) : digitCount (mantissaOf n) ≤ 13 := by
  rw [digitCount_le_iff (by decide)]
  exact mantissaOf_le.trans_lt (Nat.pow_lt_pow_right (by decide) (by decide))

theorem mantissaOf_ne_zero {n : ℕ} (hn : n ≠ 0) : mantissaOf n ≠ 0 := by
  rw [mantissaOf]
  -- a number of which digits are dropped has more than twelve, so the first of them stays
  cases hdropped : droppedDigits n with
  | zero => exact hn
  | succ k =>
    have hle : 10 * 10 ^ k ≤ n := by
      rw [← pow_succ', ← lt_digitCount_iff (Nat.pos_of_ne_zero hn)]
      rw [droppedDigits] at hdropped
      have : 0 < mantissaDigits := by decide
      omega
    have hdiv : 10 ≤ n / 10 ^ k := (Nat.le_div_iff_mul_le (Nat.pow_pos (by decide))).2 hle
    rw [dropDigits, pow10_eq]
    omega

/-- The mantissa over its own exponent is the number rounded to its digits. -/
theorem mantissaOf_mul_zpow {d : Decimal} (hd : d.coeff ≠ 0) :
    ((d.coeff.sign * mantissaOf d.coeff.natAbs : ℤ) : ℚ) *
        10 ^ (d.exp + droppedDigits d.coeff.natAbs) =
      roundSignificant mantissaDigits d.toRat := by
  rcases Nat.eq_zero_or_pos (droppedDigits d.coeff.natAbs) with hdropped | hdropped
  · have hdigits : digitCount d.coeff.natAbs ≤ mantissaDigits := Nat.sub_eq_zero_iff_le.1 hdropped
    rw [mantissaOf, hdropped, dropDigits, Int.sign_mul_natAbs, Nat.cast_zero, add_zero,
      roundSignificant_toRat_of_le hd hdigits, toRat]
  · -- digits are dropped down to the last place that is kept
    have hplace : lastPlace mantissaDigits d.toRat = d.exp + droppedDigits d.coeff.natAbs := by
      rw [lastPlace_toRat _ hd, leading, droppedDigits]
      rw [droppedDigits] at hdropped
      omega
    have hfloor : ⌊|d.toRat| / 10 ^ lastPlace mantissaDigits d.toRat + 1 / 2⌋₊ =
        mantissaOf d.coeff.natAbs := by
      rw [hplace, abs_toRat, zpow_add₀ (by norm_num), ← div_div,
        mul_div_cancel_right₀ _ (ten_zpow_pos d.exp).ne', zpow_natCast,
        ← dropDigits_floor (Nat.cast_nonneg _) hdropped, Nat.floor_natCast, mantissaOf]
    rw [roundSignificant, hfloor, hplace]
    -- the sign is put back last, since rounding is of the magnitude
    rcases lt_or_gt_of_ne hd with hneg | hpos
    · rw [if_pos (toRat_neg_iff.2 hneg), Int.sign_eq_neg_one_of_neg hneg]
      push_cast
      ring
    · rw [if_neg (toRat_pos_iff.2 hpos).not_gt, Int.sign_eq_one_of_pos hpos]
      push_cast
      ring

/-! ### The written forms -/

/-- The digits of a mantissa, with a point behind the first if there are more. -/
def pointed (ds : List Char) : List Char :=
  ds.take 1 ++ (if ds.length = 1 then [] else ['.']) ++ ds.drop 1

theorem pointed_eq {ds : List Char} :
    pointed ds = if ds.length = 1 then ds else ds.take 1 ++ '.' :: ds.drop 1 := by
  rw [pointed]
  split
  · rw [List.append_nil, List.take_append_drop]
  · rw [List.append_assoc, List.singleton_append]

theorem isMantissa_pointed {ds : List Char} (hds : AllDigits ds) (hne : ds ≠ []) :
    IsMantissa (pointed ds) := by
  rw [pointed_eq]
  split
  · exact hds.isMantissa hne
  · exact isMantissa_point (hds.take 1) (by simp [hne]) (hds.drop 1)

theorem readMantissa?_pointed {ds : List Char} (hds : AllDigits ds) (hne : ds ≠ []) :
    readMantissa? (pointed ds) = some (natOfDigits ds, ds.length - 1) := by
  rw [pointed_eq]
  -- a single digit stands without a point
  split
  · next hone => rw [readMantissa?_digits hds hne, hone]
  · rw [readMantissa?_point (hds.take 1) (by simp [hne]) (hds.drop 1), List.take_append_drop,
      List.length_drop]

theorem signed_eq {c : ℤ} (hc : c ≠ 0) (n : ℕ) :
    (if decide (c < 0) = true then -(n : ℤ) else n) = c.sign * n := by
  rcases lt_or_gt_of_ne hc with hneg | hpos
  · rw [if_pos (decide_eq_true hneg), Int.sign_eq_neg_one_of_neg hneg, neg_one_mul]
  · rw [if_neg (by simpa using hpos.le), Int.sign_eq_one_of_pos hpos, one_mul]

/-- The power that is written and the digits behind the point add up to the exponent of the
mantissa without its zeros. -/
theorem readLiteral?_scientific {c : ℤ} (hc : c ≠ 0) {exp : ℤ} (hexp : -2147483648 ≤ exp) :
    readLiteral? (signChars (decide (c < 0)) ++ scientificChars c.natAbs exp) =
      ofParts? (c.sign * stripZeros (mantissaOf c.natAbs))
        (exp + droppedDigits c.natAbs + trailingZeros (mantissaOf c.natAbs)) := by
  have hmantissa := mantissaOf_ne_zero (Int.natAbs_ne_zero.2 hc)
  have hall := allDigits_toDigits (stripZeros (mantissaOf c.natAbs))
  have hne : Nat.toDigits 10 (stripZeros (mantissaOf c.natAbs)) ≠ [] := Nat.toDigits_ne_nil
  -- the digits of the mantissa are those that are written and the zeros that are not
  have hcount := digitCount_eq_add_trailingZeros hmantissa
  have hlength := digitCount_mantissaOf_le c.natAbs
  -- the digits are written once with the point and counted once without it
  have hchars : scientificChars c.natAbs exp =
      pointed (Nat.toDigits 10 (stripZeros (mantissaOf c.natAbs))) ++ (['*', '1', '0', '^'] ++
        intChars (exp + droppedDigits c.natAbs + digitCount (mantissaOf c.natAbs) - 1)) := by
    rw [← List.append_assoc]
    rfl
  have hread : readMantissa? (pointed (Nat.toDigits 10 (stripZeros (mantissaOf c.natAbs)))) =
      some (stripZeros (mantissaOf c.natAbs),
        digitCount (stripZeros (mantissaOf c.natAbs)) - 1) := by
    rw [readMantissa?_pointed hall hne, natOfDigits_toDigits, digitCount]
  -- the number is not empty, so the digits behind the point are one fewer than all
  have hpos := digitCount_pos (stripZeros (mantissaOf c.natAbs))
  rw [hchars, readLiteral?_scaled _ (isMantissa_pointed hall hne) hread, readExponent?_intChars,
    signed_eq hc]
  split
  · rw [Option.bind_some]
    congr 1
    omega
  · -- an exponent that does not fit 64 bits is far out of range
    rw [Option.bind_none, eq_comm, ofParts?_eq_none_iff]
    omega

/-- Where each form but the one with a power of ten is chosen. -/
theorem formOf_bounds (len : ℕ) (exp : ℤ) :
    match formOf len exp with
    | .integer => 0 ≤ exp ∧ len + exp ≤ 18
    | .fixed => exp < 0 ∧ 0 < len + exp ∧ len ≤ 18
    | .leadingZeros => exp < 0 ∧ len + exp ≤ 0 ∧ len ≤ 18
    | .scientific => True := by
  -- the bounds are the conditions that the choice of the form tests, in the same order
  simp only [formOf, maxDigits, maxLeadingZeros]
  split_ifs <;> grind

section Positional

variable {d : Decimal}

theorem ofParts?_sign (hd : d.coeff ≠ 0) {places : ℕ} (hplaces : d.exp = -places) :
    ofParts? (if decide (d.coeff < 0) = true then -(d.coeff.natAbs : ℤ) else d.coeff.natAbs)
      (0 - places) = some d := by
  rw [signed_eq hd, Int.sign_mul_natAbs, ofParts?_eq_some_iff]
  exact ⟨rfl, by omega⟩

theorem readLiteral?_integer (hd : d.coeff ≠ 0) :
    readLiteral? (signChars (decide (d.coeff < 0)) ++
      (Nat.toDigits 10 d.coeff.natAbs ++ List.replicate d.exp.toNat '0')) =
      ofParts? (d.scaledTo 0) 0 := by
  -- the zeros that the exponent stands for are written out, so they are read as digits
  have hall := (allDigits_toDigits d.coeff.natAbs).append (allDigits_zeros d.exp.toNat)
  have hne : Nat.toDigits 10 d.coeff.natAbs ++ List.replicate d.exp.toNat '0' ≠ [] :=
    List.append_ne_nil_of_left_ne_nil Nat.toDigits_ne_nil _
  rw [readLiteral?_unscaled _ (hall.isMantissa hne) (readMantissa?_digits hall hne),
    natOfDigits_append_zeros, natOfDigits_toDigits, signed_eq hd, scaledTo, pow10_eq, Nat.cast_mul,
    ← mul_assoc, Int.sign_mul_natAbs, sub_zero]
  rfl

theorem readLiteral?_fixed (hd : d.coeff ≠ 0) (hneg : d.exp < 0)
    (hpoint : 0 < digitCount d.coeff.natAbs + d.exp) :
    readLiteral? (signChars (decide (d.coeff < 0)) ++
      ((Nat.toDigits 10 d.coeff.natAbs).take (digitCount d.coeff.natAbs + d.exp).toNat ++ ['.'] ++
        (Nat.toDigits 10 d.coeff.natAbs).drop (digitCount d.coeff.natAbs + d.exp).toNat)) =
      some d := by
  have hall := allDigits_toDigits d.coeff.natAbs
  -- at least one digit stands before the point
  have hne : (Nat.toDigits 10 d.coeff.natAbs).take
      (digitCount d.coeff.natAbs + d.exp).toNat ≠ [] := by
    rw [ne_eq, List.take_eq_nil_iff, not_or]
    exact ⟨by omega, Nat.toDigits_ne_nil⟩
  rw [List.append_assoc, List.singleton_append,
    readLiteral?_unscaled _ (isMantissa_point (hall.take _) hne (hall.drop _))
      (readMantissa?_point (hall.take _) hne (hall.drop _)),
    List.take_append_drop, natOfDigits_toDigits, List.length_drop]
  refine ofParts?_sign hd ?_
  rw [digitCount] at hpoint ⊢
  omega

theorem readLiteral?_leadingZeros (hd : d.coeff ≠ 0)
    (hpoint : digitCount d.coeff.natAbs + d.exp ≤ 0) :
    readLiteral? (signChars (decide (d.coeff < 0)) ++
      (['0', '.'] ++ List.replicate (-(digitCount d.coeff.natAbs + d.exp)).toNat '0' ++
        Nat.toDigits 10 d.coeff.natAbs)) = some d := by
  have hall := (allDigits_zeros (-(digitCount d.coeff.natAbs + d.exp)).toNat).append
    (allDigits_toDigits d.coeff.natAbs)
  -- the zero before the point is a digit like the others
  have hzero : AllDigits ['0'] := allDigits_zeros 1
  have hsplit : ['0', '.'] ++ List.replicate (-(digitCount d.coeff.natAbs + d.exp)).toNat '0' ++
      Nat.toDigits 10 d.coeff.natAbs =
      ['0'] ++ '.' :: (List.replicate (-(digitCount d.coeff.natAbs + d.exp)).toNat '0' ++
        Nat.toDigits 10 d.coeff.natAbs) := rfl
  -- zeros in front add nothing to the value
  have hvalue : natOfDigits (['0'] ++
      (List.replicate (-(digitCount d.coeff.natAbs + d.exp)).toNat '0' ++
        Nat.toDigits 10 d.coeff.natAbs)) = d.coeff.natAbs := by
    rw [← List.append_assoc, ← List.replicate_one, List.replicate_append_replicate,
      natOfDigits_zeros_append, natOfDigits_toDigits]
  rw [hsplit, readLiteral?_unscaled _ (isMantissa_point hzero (by simp) hall)
      (readMantissa?_point hzero (by simp) hall), hvalue]
  -- the zeros behind the point and the digits are as many as the exponent says
  refine ofParts?_sign hd ?_
  rw [List.length_append, List.length_replicate]
  rw [digitCount] at hpoint ⊢
  omega

end Positional

/-- What the written form of a decimal is read back as. -/
theorem readLiteral?_chars (d : Decimal) : readLiteral? d.chars = readBack? d := by
  by_cases hd : d.coeff = 0
  · rw [chars, readBack?, if_pos hd, if_pos hd]
    rfl
  have hchars : d.chars =
      signChars (decide (d.coeff < 0)) ++ magnitudeChars d.coeff.natAbs d.exp := by
    simp only [chars, if_neg hd, signChars, decide_eq_true_eq]
  -- each form is chosen within bounds under which its text is read back
  have hbounds := formOf_bounds (digitCount d.coeff.natAbs) d.exp
  rw [hchars, readBack?, if_neg hd, magnitudeChars]
  rw [← digitCount]
  cases hform : formOf (digitCount d.coeff.natAbs) d.exp with
  | integer => exact readLiteral?_integer hd
  | fixed =>
    rw [hform] at hbounds
    exact readLiteral?_fixed hd hbounds.1 hbounds.2.1
  | leadingZeros =>
    rw [hform] at hbounds
    exact readLiteral?_leadingZeros hd hbounds.2.1
  | scientific => exact readLiteral?_scientific hd d.least_le_exp

/-! ### The text -/

/-- A character that a written form is made of. -/
def IsWritten (c : Char) : Prop :=
  c.isDigit = true ∨ c ∈ ['-', '.', '*', '^']

theorem IsWritten.not_isBlank {c : Char} (hc : IsWritten c) : Text.isBlank c = false := by
  rcases hc with hdigit | hmem
  · exact not_isBlank_of_isDigit hdigit
  · have hall : ['-', '.', '*', '^'].all (fun c => !Text.isBlank c) = true := by decide
    simpa using List.all_eq_true.1 hall c hmem

theorem isWritten_of_allDigits {ds : List Char} (hds : AllDigits ds) : ∀ c ∈ ds, IsWritten c :=
  fun c hc => .inl (hds c hc)

theorem isWritten_intChars (k : ℤ) : ∀ c ∈ intChars k, IsWritten c := by
  rw [intChars, List.forall_mem_append]
  refine ⟨?_, isWritten_of_allDigits (allDigits_toDigits _)⟩
  -- the sign is one written character
  split
  · exact List.forall_mem_singleton.2 (.inr (by decide))
  · exact List.forall_mem_nil _

theorem isWritten_pointed {ds : List Char} (hds : AllDigits ds) :
    ∀ c ∈ pointed ds, IsWritten c := by
  rw [pointed, List.forall_mem_append, List.forall_mem_append]
  refine ⟨⟨isWritten_of_allDigits (hds.take 1), ?_⟩, isWritten_of_allDigits (hds.drop 1)⟩
  split
  · exact List.forall_mem_nil _
  · exact List.forall_mem_singleton.2 (.inr (by decide))

theorem isWritten_magnitudeChars (n : ℕ) (exp : ℤ) : ∀ c ∈ magnitudeChars n exp, IsWritten c := by
  have hall := allDigits_toDigits n
  have hpoint : ∀ c ∈ ['.'], IsWritten c := List.forall_mem_singleton.2 (.inr (by decide))
  -- one goal for each form, and in each one the parts of which it is put together
  rw [magnitudeChars]
  split
  · exact isWritten_of_allDigits (hall.append (allDigits_zeros _))
  · rw [List.forall_mem_append, List.forall_mem_append]
    exact ⟨⟨isWritten_of_allDigits (hall.take _), hpoint⟩, isWritten_of_allDigits (hall.drop _)⟩
  · rw [List.forall_mem_append, List.forall_mem_append, List.forall_mem_cons]
    exact ⟨⟨⟨.inl rfl, hpoint⟩, isWritten_of_allDigits (allDigits_zeros _)⟩,
      isWritten_of_allDigits hall⟩
  · have hmarker : ∀ c ∈ ['*', '1', '0', '^'], IsWritten c := by simp [IsWritten]
    rw [scientificChars, List.forall_mem_append, List.forall_mem_append]
    exact ⟨⟨isWritten_pointed (allDigits_toDigits _), hmarker⟩, isWritten_intChars _⟩

theorem isWritten_chars (d : Decimal) : ∀ c ∈ d.chars, IsWritten c := by
  rw [chars]
  split
  · exact List.forall_mem_singleton.2 (.inl rfl)
  · rw [List.forall_mem_append]
    refine ⟨?_, isWritten_magnitudeChars _ _⟩
    split
    · exact List.forall_mem_singleton.2 (.inr (by decide))
    · exact List.forall_mem_nil _

theorem magnitudeChars_ne_nil (n : ℕ) (exp : ℤ) : magnitudeChars n exp ≠ [] := by
  rw [magnitudeChars]
  split
  · exact List.append_ne_nil_of_left_ne_nil Nat.toDigits_ne_nil _
  · simp
  · simp
  · simp [scientificChars]

theorem chars_ne_nil (d : Decimal) : d.chars ≠ [] := by
  rw [chars]
  split
  · exact List.cons_ne_nil _ _
  · exact List.append_ne_nil_of_right_ne_nil _ (magnitudeChars_ne_nil _ _)

theorem parse_text (d : Decimal) :
    parse d.text = (readBack? d).elim (.error (.notNumber d.text)) .ok := by
  -- nothing is trimmed, since no written character is blank
  have htrim : Text.trim d.text.toList = d.chars := by
    rw [text, String.toList_ofList]
    exact trim_of_no_blank fun c hc => (isWritten_chars d c hc).not_isBlank
  rw [parse, htrim, readLiteral?_chars]
  cases readBack? d <;> rfl

/-! ### When the text is a literal -/

/-- The exponent of the rounded number in its canonical form. -/
theorem hasExponent_roundSignificant {d : Decimal} (hd : d.coeff ≠ 0) :
    HasExponent (roundSignificant mantissaDigits d.toRat)
      (d.exp + droppedDigits d.coeff.natAbs + trailingZeros (mantissaOf d.coeff.natAbs)) := by
  -- the mantissa over its exponent is the rounded number, so the zeros it ends in say the canonical
  -- exponent
  have hne := mantissaOf_ne_zero (Int.natAbs_ne_zero.2 hd)
  have hcoeff : d.coeff.sign * mantissaOf d.coeff.natAbs ≠ 0 :=
    mul_ne_zero (Int.sign_eq_zero_iff_zero.not.2 hd) (Int.natCast_ne_zero.2 hne)
  have habs : (d.coeff.sign * mantissaOf d.coeff.natAbs).natAbs = mantissaOf d.coeff.natAbs := by
    rw [Int.natAbs_mul, Int.natAbs_sign_of_ne_zero hd, one_mul, Int.natAbs_natCast]
  have h := hasExponent_of_ne_zero hcoeff (d.exp + droppedDigits d.coeff.natAbs)
  rwa [mantissaOf_mul_zpow hd, habs] at h

theorem isSome_readBack?_iff (d : Decimal) :
    (readBack? d).isSome ↔
      ¬∃ e, HasExponent (roundSignificant mantissaDigits d.toRat) e ∧ 2147483647 < e := by
  by_cases hd : d.coeff = 0
  · rw [readBack?, if_pos hd, toRat_eq_zero_iff.2 hd]
    refine iff_of_true rfl ?_
    rintro ⟨e, he, -⟩
    exact he.ne_zero (roundSignificant_eq_self_iff.2 ⟨0, by simp⟩)
  have hexp := hasExponent_roundSignificant hd
  have hzeros := digitCount_eq_add_trailingZeros (mantissaOf_ne_zero (Int.natAbs_ne_zero.2 hd))
  have hlength := digitCount_mantissaOf_le d.coeff.natAbs
  -- the canonical exponent is unique, so the exponent that is read back is the one that is compared
  have hrange : (¬∃ e, HasExponent (roundSignificant mantissaDigits d.toRat) e ∧ 2147483647 < e) ↔
      d.exp + droppedDigits d.coeff.natAbs + trailingZeros (mantissaOf d.coeff.natAbs) ≤
        2147483647 := by
    constructor
    · intro h
      exact not_lt.1 fun hlt => h ⟨_, hexp, hlt⟩
    · rintro h ⟨e, he, hlt⟩
      rw [he.unique hexp] at hlt
      omega
  have hbounds := formOf_bounds (digitCount d.coeff.natAbs) d.exp
  have hdropped : droppedDigits d.coeff.natAbs ≤ digitCount d.coeff.natAbs := Nat.sub_le _ _
  rw [hrange, readBack?, if_neg hd]
  -- without a power of ten the number is below `10 ^ 18`
  cases hform : formOf (digitCount d.coeff.natAbs) d.exp with
  | integer =>
    rw [hform] at hbounds
    exact iff_of_true rfl (by omega)
  | fixed =>
    rw [hform] at hbounds
    exact iff_of_true rfl (by omega)
  | leadingZeros =>
    rw [hform] at hbounds
    exact iff_of_true rfl (by omega)
  | scientific =>
    -- here the exponent is in range or the text is not read, which is the same bound
    have hlow := d.least_le_exp
    rw [← not_iff_not, Option.not_isSome_iff_eq_none, ofParts?_eq_none_iff]
    omega

/-- **Main theorem.** The written form of a decimal is a literal if and only if the number, rounded
to the digits of a mantissa, has a canonical form whose exponent is not above the range, or is zero.
-/
theorem parse_text_iff (d : Decimal) :
    (∃ r, parse d.text = .ok r) ↔
      ¬∃ e, HasExponent (roundSignificant 12 d.toRat) e ∧ 2147483647 < e := by
  rw [← mantissaDigits, ← isSome_readBack?_iff, parse_text]
  cases readBack? d <;> simp

theorem text_tenfold_greatest {d : Decimal} (hcoeff : d.coeff = 10) (hexp : d.exp = 2147483647) :
    d.text = "1*10^2147483648" := by
  have hstrip : stripZeros 10 = 1 := stripZeros_eq (k := 1) (by decide) rfl
  have hmagnitude : magnitudeChars 10 2147483647 =
      pointed (Nat.toDigits 10 (stripZeros 10)) ++ ['*', '1', '0', '^'] ++
        intChars 2147483648 := rfl
  rw [text, chars, hcoeff, hexp, if_neg (by decide), if_neg (by decide)]
  change String.ofList ([] ++ magnitudeChars 10 2147483647) = _
  rw [hmagnitude, hstrip]
  rfl

/-- A literal that is not read back: its text moves the zero of the coefficient into the exponent,
which is then above the range. -/
theorem literal_not_read_back :
    ∃ d, parse "10E2147483647" = .ok d ∧ d.coeff = 10 ∧ d.exp = 2147483647 ∧
      d.text = "1*10^2147483648" ∧ parse d.text = .error (.notNumber "1*10^2147483648") := by
  refine ⟨{ coeff := 10, exp := 2147483647 }, rfl, rfl, rfl, text_tenfold_greatest rfl rfl, ?_⟩
  rw [text_tenfold_greatest rfl rfl]
  rfl

end DecimalScript.Decimal
