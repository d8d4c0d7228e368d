import Mathlib.Data.List.TakeWhile
import DecimalScript.Decimal.Literal
import DecimalScript.Decimal.Written
import DecimalScript.Proofs.Decimal.Digits

/-!
# Reading the parts of a literal

What the readers of `Decimal.readLiteral?` make of texts of a known make-up: runs of digits, digits
with a point among them, a mantissa with a marker and an exponent, and a sign before all of that. A
mantissa that holds only digits and points has no marker in it, and an exponent is cut off at the
first one, so the parts of a text that is put together from such parts are read one by one
(`readLiteral?_unscaled`, `readLiteral?_scaled`).
-/

namespace DecimalScript.Decimal

/-- A text of digits only. -/
def AllDigits (text : List Char) : Prop :=
  ∀ c ∈ text, c.isDigit = true

/-- A text of digits and underscores. -/
def IsRun (text : List Char) : Prop :=
  ∀ c ∈ text, c.isDigit = true ∨ c = '_'

/-- A text of digits and points that begins with a digit. -/
structure IsMantissa (text : List Char) : Prop where
  digit_or_point : ∀ c ∈ text, c.isDigit = true ∨ c = '.'
  head_isDigit : ∃ c rest, text = c :: rest ∧ c.isDigit = true

/-- The sign as it is written. -/
def signChars (negative : Bool) : List Char :=
  if negative then ['-'] else []

variable {ds fs m : List Char}

/-! ### Digits -/

theorem ne_of_isDigit {c x : Char} (hc : c.isDigit = true) (hx : x.isDigit = false) : c ≠ x := by
  rintro rfl
  rw [hc] at hx
  exact Bool.noConfusion hx

theorem allDigits_toDigits (n : ℕ) : AllDigits (Nat.toDigits 10 n) := fun _ hc =>
  Nat.isDigit_of_mem_toDigits (by decide) (by decide) hc

theorem allDigits_zeros (k : ℕ) : AllDigits (List.replicate k '0') := by
  intro c hc
  rw [List.eq_of_mem_replicate hc]
  rfl

theorem AllDigits.append (hds : AllDigits ds) (hfs : AllDigits fs) : AllDigits (ds ++ fs) := by
  intro c hc
  rcases List.mem_append.1 hc with hc | hc
  · exact hds c hc
  · exact hfs c hc

theorem AllDigits.take (hds : AllDigits ds) (k : ℕ) : AllDigits (ds.take k) := fun c hc =>
  hds c (List.mem_of_mem_take hc)

theorem AllDigits.drop (hds : AllDigits ds) (k : ℕ) : AllDigits (ds.drop k) := fun c hc =>
  hds c (List.mem_of_mem_drop hc)

theorem AllDigits.filter_eq (hds : AllDigits ds) : ds.filter Char.isDigit = ds :=
  List.filter_eq_self.2 hds

theorem natOfDigits_toDigits (n : ℕ) : natOfDigits (Nat.toDigits 10 n) = n :=
  Nat.ofDigitChars_ten_toDigits

theorem natOfDigits_append_zeros (ds : List Char) (k : ℕ) :
    natOfDigits (ds ++ List.replicate k '0') = natOfDigits ds * 10 ^ k := by
  rw [natOfDigits, Nat.ofDigitChars_append, Nat.ofDigitChars_replicate_zero, Nat.mul_comm]
  rfl

theorem natOfDigits_zeros_append (k : ℕ) (ds : List Char) :
    natOfDigits (List.replicate k '0' ++ ds) = natOfDigits ds := by
  rw [natOfDigits, Nat.ofDigitChars_append, Nat.ofDigitChars_replicate_zero, Nat.mul_zero]
  rfl

/-! ### The mantissa -/

theorem AllDigits.isMantissa (hds : AllDigits ds) (hne : ds ≠ []) : IsMantissa ds where
  digit_or_point c hc := .inl (hds c hc)
  head_isDigit := by
    obtain ⟨c, rest, rfl⟩ := List.exists_cons_of_ne_nil hne
    exact ⟨c, rest, rfl, hds c List.mem_cons_self⟩

theorem isMantissa_point (hds : AllDigits ds) (hne : ds ≠ []) (hfs : AllDigits fs) :
    IsMantissa (ds ++ '.' :: fs) where
  digit_or_point c hc := by
    rcases List.mem_append.1 hc with hc | hc
    · exact .inl (hds c hc)
    · rcases List.mem_cons.1 hc with rfl | hc
      · exact .inr rfl
      · exact .inl (hfs c hc)
  head_isDigit := by
    obtain ⟨c, rest, rfl⟩ := List.exists_cons_of_ne_nil hne
    exact ⟨c, _, rfl, hds c List.mem_cons_self⟩

theorem AllDigits.isRun (hds : AllDigits ds) : IsRun ds := fun c hc => .inl (hds c hc)

theorem not_point_of_isRun (hds : IsRun ds) : ∀ c ∈ ds, decide (c ≠ '.') = true := by
  intro c hc
  rcases hds c hc with hdigit | rfl
  · exact decide_eq_true (ne_of_isDigit hdigit rfl)
  · rfl

theorem all_digit_or_underscore (hds : IsRun ds) :
    ds.all (fun c => c.isDigit || c == '_') = true := by
  rw [List.all_eq_true]
  intro c hc
  rcases hds c hc with hdigit | rfl
  · rw [hdigit, Bool.true_or]
  · rfl

/-- Without a point the digits of a run are the coefficient. -/
theorem readMantissa?_run (hds : IsRun ds) (hne : ds.filter Char.isDigit ≠ []) :
    readMantissa? ds = some (natOfDigits (ds.filter Char.isDigit), 0) := by
  -- the search for a point runs through to the end, so everything stands in front of it
  have htake : ds.takeWhile (· ≠ '.') = ds :=
    List.takeWhile_eq_self_iff.2 (not_point_of_isRun hds)
  have hdrop : ds.dropWhile (· ≠ '.') = [] :=
    List.dropWhile_eq_nil_iff.2 (not_point_of_isRun hds)
  rw [readMantissa?, htake, hdrop, List.drop_nil, List.append_nil, all_digit_or_underscore hds,
    List.isEmpty_eq_false_iff.2 hne]
  rfl

/-- The digits behind a point are the places. -/
theorem readMantissa?_run_point (hds : IsRun ds) (hfs : IsRun fs)
    (hne : (ds ++ fs).filter Char.isDigit ≠ []) :
    readMantissa? (ds ++ '.' :: fs) =
      some (natOfDigits ((ds ++ fs).filter Char.isDigit), (fs.filter Char.isDigit).length) := by
  -- the search stops at the first point, which is this one because a run holds none
  have htake : (ds ++ '.' :: fs).takeWhile (· ≠ '.') = ds := by
    rw [List.takeWhile_append_of_pos (not_point_of_isRun hds)]
    simp
  have hdrop : (ds ++ '.' :: fs).dropWhile (· ≠ '.') = '.' :: fs := by
    rw [List.dropWhile_append_of_pos (not_point_of_isRun hds)]
    simp
  have hall : IsRun (ds ++ fs) := fun c hc => (List.mem_append.1 hc).elim (hds c) (hfs c)
  rw [readMantissa?, htake, hdrop, List.drop_one, List.tail_cons, all_digit_or_underscore hall,
    List.isEmpty_eq_false_iff.2 hne]
  rfl

theorem readMantissa?_digits (hds : AllDigits ds) (hne : ds ≠ []) :
    readMantissa? ds = some (natOfDigits ds, 0) := by
  have hread := readMantissa?_run hds.isRun (by rwa [hds.filter_eq])
  rwa [hds.filter_eq] at hread

theorem readMantissa?_point (hds : AllDigits ds) (hne : ds ≠ []) (hfs : AllDigits fs) :
    readMantissa? (ds ++ '.' :: fs) = some (natOfDigits (ds ++ fs), fs.length) := by
  have hall := hds.append hfs
  have hread := readMantissa?_run_point hds.isRun hfs.isRun (by simp [hall.filter_eq, hne])
  rwa [hall.filter_eq, hfs.filter_eq] at hread

/-! ### The marker -/

/-- A text without the first character of the marker is skipped. -/
theorem splitAtMarker?_skip {x : Char} {marker : List Char} (h : x ∉ m) (text : List Char) :
    splitAtMarker? (x :: marker) (m ++ text) =
      (splitAtMarker? (x :: marker) text).map fun (before, after) => (m ++ before, after) := by
  induction m with
  | nil =>
    rw [List.nil_append]
    cases splitAtMarker? (x :: marker) text <;> rfl
  | cons c rest ih =>
    -- the marker does not even begin here
    rw [List.mem_cons, not_or] at h
    have hprefix : (x :: marker).isPrefixOf (c :: (rest ++ text)) = false := by
      rw [List.isPrefixOf, beq_eq_false_iff_ne.2 h.1, Bool.false_and]
    rw [List.cons_append, splitAtMarker?, hprefix, if_neg Bool.false_ne_true, ih h.2,
      Option.map_map]
    rfl

theorem splitAtMarker?_of_not_mem {x : Char} {marker : List Char} (h : x ∉ m) :
    splitAtMarker? (x :: marker) m = none := by
  have hskip : splitAtMarker? (x :: marker) (m ++ []) = none := splitAtMarker?_skip h []
  rwa [List.append_nil] at hskip

theorem splitAtMarker?_append {x : Char} {marker after : List Char} (h : x ∉ m) :
    splitAtMarker? (x :: marker) (m ++ (x :: marker ++ after)) = some (m, after) := by
  have hprefix : (x :: marker).isPrefixOf (x :: (marker ++ after)) = true :=
    List.isPrefixOf_iff_prefix.2 (List.prefix_append (x :: marker) after)
  rw [splitAtMarker?_skip h, List.cons_append, splitAtMarker?, if_pos hprefix]
  simp

theorem IsMantissa.not_mem (hm : IsMantissa m) {x : Char} (hdigit : x.isDigit = false)
    (hpoint : x ≠ '.') : x ∉ m := by
  intro hx
  rcases hm.digit_or_point x hx with h | h
  · exact ne_of_isDigit h hdigit rfl
  · exact hpoint h

theorem splitExponent_of_mantissa (hm : IsMantissa m) : splitExponent m = (m, none) := by
  -- each of the four markers begins with a character that no mantissa holds
  have hstar : '*' ∉ m := hm.not_mem (by rfl) (by decide)
  have hupper : 'E' ∉ m := hm.not_mem (by rfl) (by decide)
  have hlower : 'e' ∉ m := hm.not_mem (by rfl) (by decide)
  simp only [splitExponent, exponentMarkers, List.findSome?_cons, List.findSome?_nil,
    splitAtMarker?_of_not_mem hstar, splitAtMarker?_of_not_mem hupper,
    splitAtMarker?_of_not_mem hlower]

theorem splitExponent_append (hm : IsMantissa m) (exponent : List Char) :
    splitExponent (m ++ (['*', '1', '0', '^'] ++ exponent)) = (m, some exponent) := by
  have hstar : '*' ∉ m := hm.not_mem (by rfl) (by decide)
  simp only [splitExponent, exponentMarkers, List.findSome?_cons, splitAtMarker?_append hstar]

/-! ### Signs and exponents -/

theorem splitSign_signChars {text : List Char} (negative : Bool)
    (h : ∃ c rest, text = c :: rest ∧ c.isDigit = true) :
    splitSign (signChars negative ++ text) = (negative, text) := by
  obtain ⟨c, rest, rfl, hc⟩ := h
  cases negative with
  | true => rfl
  | false =>
    have hminus : c ≠ '-' := ne_of_isDigit hc rfl
    have hplus : c ≠ '+' := ne_of_isDigit hc rfl
    simp [signChars, splitSign, hminus, hplus]

theorem readExponent?_signChars (negative : Bool) (n : ℕ) :
    readExponent? (signChars negative ++ Nat.toDigits 10 n) =
      if n < 9223372036854775808 then some (if negative then -(n : ℤ) else n) else none := by
  have hall := allDigits_toDigits n
  have hhead := (hall.isMantissa Nat.toDigits_ne_nil).head_isDigit
  rw [readExponent?, splitSign_signChars negative hhead]
  simp only [List.isEmpty_eq_false_iff.2 Nat.toDigits_ne_nil, List.all_eq_true.2 hall,
    natOfDigits_toDigits, Bool.not_true, Bool.or_false, Bool.false_eq_true, if_false]

/-- The text of an integer is read as the integer, if it fits 64 bits. -/
theorem readExponent?_intChars (k : ℤ) :
    readExponent? (intChars k) = if k.natAbs < 9223372036854775808 then some k else none := by
  have hchars : intChars k = signChars (decide (k < 0)) ++ Nat.toDigits 10 k.natAbs := by
    simp only [intChars, signChars, decide_eq_true_eq]
  -- the sign that is written is the sign of the integer, also for zero, which has none
  have hvalue : (if decide (k < 0) = true then -(k.natAbs : ℤ) else k.natAbs) = k := by
    simp only [decide_eq_true_eq]
    split <;> omega
  rw [hchars, readExponent?_signChars, hvalue]

/-! ### The literal -/

theorem readLiteral?_unscaled (negative : Bool) (hm : IsMantissa m) {n places : ℕ}
    (hread : readMantissa? m = some (n, places)) :
    readLiteral? (signChars negative ++ m) =
      ofParts? (if negative then -n else n) (0 - places) := by
  rw [readLiteral?, splitSign_signChars negative hm.head_isDigit]
  simp only [splitExponent_of_mantissa hm, hread]
  rfl

theorem readLiteral?_scaled (negative : Bool) (hm : IsMantissa m) {n places : ℕ}
    (hread : readMantissa? m = some (n, places)) (exponentText : List Char) :
    readLiteral? (signChars negative ++ (m ++ (['*', '1', '0', '^'] ++ exponentText))) =
      (readExponent? exponentText).bind fun exponent =>
        ofParts? (if negative then -n else n) (exponent - places) := by
  -- the mantissa stands in front, so the whole begins with its first digit
  have hhead : ∃ c rest, m ++ (['*', '1', '0', '^'] ++ exponentText) = c :: rest ∧
      c.isDigit = true := by
    obtain ⟨c, rest, rfl, hc⟩ := hm.head_isDigit
    exact ⟨c, _, rfl, hc⟩
  rw [readLiteral?, splitSign_signChars negative hhead]
  simp only [splitExponent_append hm, hread]
  rfl

/-! ### Blanks -/

theorem not_isBlank_of_isDigit {c : Char} (hc : c.isDigit = true) : Text.isBlank c = false := by
  -- the digits are one range of code points, and no range of the table of blanks meets it
  rw [← Bool.not_eq_true, Text.isBlank, Text.inTable_eq_true_iff]
  rw [Char.isDigit_iff_toNat] at hc
  simp [Text.blankRanges] at hc ⊢
  omega

/-- Blanks around a text that holds none are all that is trimmed. -/
theorem trim_append {before text after : List Char} (h : ∀ c ∈ text, Text.isBlank c = false)
    (hbefore : ∀ c ∈ before, Text.isBlank c = true) (hafter : ∀ c ∈ after, Text.isBlank c = true) :
    Text.trim (before ++ (text ++ after)) = text := by
  -- a text that begins with no blank is not trimmed at this end
  have hstart : ∀ l rest : List Char, (∀ c ∈ l, Text.isBlank c = false) → l ≠ [] →
      (l ++ rest).dropWhile Text.isBlank = l ++ rest := by
    intro l rest hl hne
    obtain ⟨c, tail, rfl⟩ := List.exists_cons_of_ne_nil hne
    rw [List.cons_append, List.dropWhile_cons, hl c List.mem_cons_self, if_neg Bool.false_ne_true]
  rw [Text.trim, Text.trimStart, Text.trimEnd, List.dropWhile_append_of_pos hbefore]
  -- between blanks alone the first trim takes everything, and otherwise it stops at the text
  rcases eq_or_ne text [] with rfl | hne
  · rw [List.nil_append, List.dropWhile_eq_nil_iff.2 hafter]
    rfl
  · have hend := hstart text.reverse [] (fun c hc => h c (List.mem_reverse.1 hc)) (by simpa using hne)
    rw [List.append_nil] at hend
    rw [hstart text after h hne, List.reverse_append,
      List.dropWhile_append_of_pos fun c hc => hafter c (List.mem_reverse.1 hc), hend,
      List.reverse_reverse]

theorem trim_of_no_blank {text : List Char} (h : ∀ c ∈ text, Text.isBlank c = false) :
    Text.trim text = text := by
  have htrim : Text.trim ([] ++ (text ++ [])) = text := trim_append h (by simp) (by simp)
  rwa [List.nil_append, List.append_nil] at htrim

end DecimalScript.Decimal
