import Mathlib.Data.List.Induction
import Mathlib.Data.Nat.Digits.Defs
import DecimalScript.Proofs.Decimal.Reading

/-!
# The grammar of number literals

`Spells text coeff exp` is the grammar: a sign, a mantissa and an exponent, one after the other, and
the integer and the power of ten that they spell. The reader does not follow it from left to right.
It looks for the four markers one after the other, each in the whole text, so a marker that comes
late in the text is found before one that comes early. That this is the grammar all the same rests on
the characters: none of those with which a marker begins stands in a mantissa or in the digits of an
exponent, so a text of the grammar has only one place for a marker (`splitExponent_marker`), and where
the reader cuts a text at a place that the grammar does not mean, one of the two parts is refused.

Main result: `parse_iff_spells`.
-/

namespace DecimalScript.Decimal

/-! ### The grammar -/

/-- The number that digits spell in base ten, the first digit being the highest. -/
def valueOf (digits : List Char) : ℕ :=
  Nat.ofDigits 10 (digits.reverse.map fun c => c.toNat - '0'.toNat)

/-- An optional sign, and whether it is a minus. -/
inductive SpellsSign : List Char → Bool → Prop where
  | none : SpellsSign [] false
  | plus : SpellsSign ['+'] false
  | minus : SpellsSign ['-'] true

/-- Digits and underscores with at most one point and at least one digit, the digits alone, and how
many of them stand behind the point. -/
inductive SpellsMantissa : List Char → List Char → ℕ → Prop where
  | whole {text : List Char} (hrun : IsRun text) (hdigit : text.filter Char.isDigit ≠ []) :
    SpellsMantissa text (text.filter Char.isDigit) 0
  | pointed {before after : List Char} (hbefore : IsRun before) (hafter : IsRun after)
    (hdigit : (before ++ after).filter Char.isDigit ≠ []) :
    SpellsMantissa (before ++ '.' :: after) ((before ++ after).filter Char.isDigit)
      (after.filter Char.isDigit).length

/-- An optional exponent: a marker, an optional sign and at least one digit, whose value has 64
bits. Without it the exponent is zero. -/
inductive SpellsExponent : List Char → ℤ → Prop where
  | none : SpellsExponent [] 0
  | marked {marker sign digits : List Char} {negative : Bool} {value : ℤ}
    (hmarker : String.ofList marker ∈ ["*10^", "*^", "E", "e"]) (hsign : SpellsSign sign negative)
    (hdigits : AllDigits digits) (hne : digits ≠ [])
    (hvalue : value = if negative then -(valueOf digits : ℤ) else valueOf digits)
    (hlow : -9223372036854775808 ≤ value) (hhigh : value ≤ 9223372036854775807) :
    SpellsExponent (marker ++ (sign ++ digits)) value

/-- The text is a literal for `coeff * 10 ^ exp`, where the exponent may still lie outside of the
range of a decimal. -/
inductive Spells : List Char → ℤ → ℤ → Prop where
  | literal {sign mantissa exponent digits : List Char} {negative : Bool} {places : ℕ} {e : ℤ}
    (hsign : SpellsSign sign negative) (hmantissa : SpellsMantissa mantissa digits places)
    (hexponent : SpellsExponent exponent e) :
    Spells (sign ++ (mantissa ++ exponent))
      (if negative then -(valueOf digits : ℤ) else valueOf digits) (e - places)

/-- The text is the literal with blanks around it. -/
def Padded (literal text : List Char) : Prop :=
  ∃ before after, text = before ++ (literal ++ after) ∧
    (∀ c ∈ before, Text.isBlank c = true) ∧ ∀ c ∈ after, Text.isBlank c = true

/-! ### Values -/

theorem natOfDigits_eq_valueOf (digits : List Char) : natOfDigits digits = valueOf digits := by
  -- the digit that comes last is the lowest
  induction digits using List.reverseRecOn with
  | nil => rfl
  | append_singleton init last ih =>
    rw [valueOf, List.reverse_append, List.reverse_singleton, List.singleton_append, List.map_cons,
      Nat.ofDigits_cons, ← valueOf, ← ih, natOfDigits, Nat.ofDigitChars_append]
    simp only [Nat.ofDigitChars_cons, Nat.ofDigitChars_nil, natOfDigits]
    exact Nat.add_comm _ _

/-! ### Signs -/

/-- What begins with a sign has its sign cut off. -/
theorem SpellsSign.splitSign {sign text : List Char} {negative : Bool}
    (h : SpellsSign sign negative)
    (htext : ∀ c ∈ text.head?, c ≠ '-' ∧ c ≠ '+') :
    splitSign (sign ++ text) = (negative, text) := by
  cases h with
  | plus => rfl
  | minus => rfl
  | none =>
    cases text with
    | nil => rfl
    | cons c rest =>
      -- another first character is no sign: both patterns are passed over
      obtain ⟨hminus, hplus⟩ := htext c rfl
      simp [Decimal.splitSign, hminus, hplus]

theorem SpellsSign.mem {sign : List Char} {negative : Bool} (h : SpellsSign sign negative)
    {c : Char} (hc : c ∈ sign) : c = '+' ∨ c = '-' := by
  cases h with
  | none => cases hc
  | plus => exact .inl (List.mem_singleton.1 hc)
  | minus => exact .inr (List.mem_singleton.1 hc)

theorem SpellsSign.not_mem {sign : List Char} {negative : Bool} (h : SpellsSign sign negative)
    {x : Char} (hplus : x ≠ '+') (hminus : x ≠ '-') : x ∉ sign := by
  intro hx
  rcases h.mem hx with hx | hx
  · exact hplus hx
  · exact hminus hx

theorem exists_spellsSign (text : List Char) :
    ∃ sign, text = sign ++ (splitSign text).2 ∧ SpellsSign sign (splitSign text).1 := by
  -- the text in front of what is left is the sign that was cut off
  unfold splitSign
  split
  · exact ⟨['-'], rfl, .minus⟩
  · exact ⟨['+'], rfl, .plus⟩
  · exact ⟨[], rfl, .none⟩

/-! ### Mantissas -/

theorem SpellsMantissa.readMantissa? {text digits : List Char} {places : ℕ}
    (h : SpellsMantissa text digits places) :
    readMantissa? text = some (valueOf digits, places) := by
  rw [← natOfDigits_eq_valueOf]
  cases h with
  | whole hrun hdigit => exact readMantissa?_run hrun hdigit
  | pointed hbefore hafter hdigit => exact readMantissa?_run_point hbefore hafter hdigit

theorem isRun_of_all {text : List Char} (h : text.all (fun c => c.isDigit || c == '_') = true) :
    IsRun text := by
  intro c hc
  have hchar := List.all_eq_true.1 h c hc
  rwa [Bool.or_eq_true, beq_iff_eq] at hchar

theorem exists_spellsMantissa {text : List Char} {n places : ℕ}
    (h : readMantissa? text = some (n, places)) :
    ∃ digits, SpellsMantissa text digits places ∧ n = valueOf digits := by
  rw [Decimal.readMantissa?] at h
  split at h
  · next hread =>
    rw [Bool.and_eq_true, Bool.not_eq_true', List.isEmpty_eq_false_iff] at hread
    -- the reader checks the two sides of the point as one text, so the run is of both together
    obtain ⟨hall, hdigit⟩ := hread
    have hrun := isRun_of_all hall
    have hsplit := List.takeWhile_append_dropWhile (p := (· ≠ '.')) (l := text)
    simp only [Option.some.injEq, Prod.mk.injEq] at h
    obtain ⟨hn, hplaces⟩ := h
    rw [natOfDigits_eq_valueOf] at hn
    cases hdrop : text.dropWhile (· ≠ '.') with
    | nil =>
      -- there is no point
      rw [hdrop, List.append_nil] at hsplit
      rw [hdrop, List.drop_nil, List.append_nil, hsplit] at hrun hdigit hn
      rw [hdrop] at hplaces
      exact ⟨_, hplaces ▸ .whole hrun hdigit, hn.symm⟩
    | cons point after =>
      -- what stops the search for the point is the point
      have hpoint : point = '.' := by
        have hstop := List.head?_dropWhile_not (· ≠ '.') text
        rw [hdrop] at hstop
        simpa using hstop
      subst hpoint
      rw [hdrop] at hsplit
      rw [hdrop, List.drop_one, List.tail_cons] at hrun hdigit hn hplaces
      have hbefore : IsRun (text.takeWhile (· ≠ '.')) := fun c hc =>
        hrun c (List.mem_append_left _ hc)
      have hafter : IsRun after := fun c hc => hrun c (List.mem_append_right _ hc)
      refine ⟨_, ?_, hn.symm⟩
      rw [← hplaces]
      have hpointed := SpellsMantissa.pointed hbefore hafter hdigit
      rwa [hsplit] at hpointed
  · cases h

/-- What a mantissa holds. -/
theorem SpellsMantissa.mem {text digits : List Char} {places : ℕ}
    (h : SpellsMantissa text digits places) {c : Char} (hc : c ∈ text) :
    c.isDigit = true ∨ c = '_' ∨ c = '.' := by
  cases h with
  | whole hrun _ => exact (hrun c hc).imp_right .inl
  | pointed hbefore hafter _ =>
    rcases List.mem_append.1 hc with hc | hc
    · exact (hbefore c hc).imp_right .inl
    · rcases List.mem_cons.1 hc with rfl | hc
      · exact .inr (.inr rfl)
      · exact (hafter c hc).imp_right .inl

theorem SpellsMantissa.ne_nil {text digits : List Char} {places : ℕ}
    (h : SpellsMantissa text digits places) : text ≠ [] := by
  cases h with
  | whole _ hdigit =>
    rintro rfl
    exact hdigit rfl
  | pointed _ _ _ => simp

theorem SpellsMantissa.not_mem {text digits : List Char} {places : ℕ}
    (h : SpellsMantissa text digits places) {x : Char} (hdigit : x.isDigit = false)
    (hunderscore : x ≠ '_') (hpoint : x ≠ '.') : x ∉ text := by
  intro hx
  rcases h.mem hx with hx | hx | hx
  · exact ne_of_isDigit hx hdigit rfl
  · exact hunderscore hx
  · exact hpoint hx

/-! ### Exponents -/

theorem exists_of_splitAtMarker? {marker text before after : List Char}
    (h : splitAtMarker? marker text = some (before, after)) :
    text = before ++ (marker ++ after) := by
  -- on the text: each step either finds the marker here or moves one character into `before`
  induction text generalizing before with
  | nil =>
    rw [splitAtMarker?] at h
    split at h
    · next hempty =>
      cases h
      rw [List.isEmpty_iff.1 hempty]
      rfl
    · cases h
  | cons c rest ih =>
    rw [splitAtMarker?] at h
    split at h
    · next hprefix =>
      obtain ⟨tail, htail⟩ := List.isPrefixOf_iff_prefix.1 hprefix
      cases h
      rw [List.nil_append, ← htail, List.drop_left]
    · obtain ⟨⟨cut, tail⟩, hcut, hsame⟩ := Option.map_eq_some_iff.1 h
      cases hsame
      rw [ih hcut, List.cons_append]

theorem mem_exponentMarkers_iff {marker : List Char} :
    marker ∈ exponentMarkers ↔ String.ofList marker ∈ ["*10^", "*^", "E", "e"] := by
  -- the markers are listed as texts in the grammar and as characters in the reader
  have hsame : ["*10^", "*^", "E", "e"] = exponentMarkers.map String.ofList := by decide
  rw [hsame, List.mem_map]
  constructor
  · exact fun h => ⟨marker, h, rfl⟩
  · rintro ⟨other, hother, heq⟩
    rwa [← String.ofList_inj.1 heq]

/-- Wherever the text is cut, a marker is cut out. -/
theorem exists_of_splitExponent {body mantissa : List Char} {exponent : Option (List Char)}
    (h : splitExponent body = (mantissa, exponent)) :
    (exponent = none ∧ body = mantissa) ∨
      ∃ marker ∈ exponentMarkers, ∃ text, exponent = some text ∧
        body = mantissa ++ (marker ++ text) := by
  rw [splitExponent] at h
  split at h
  · next before after hfound =>
    cases h
    obtain ⟨marker, hmarker, hcut⟩ := List.exists_of_findSome?_eq_some hfound
    exact .inr ⟨marker, hmarker, _, rfl, exists_of_splitAtMarker? hcut⟩
  · cases h
    exact .inl ⟨rfl, rfl⟩

/-- A text without the characters with which the markers begin is not cut. -/
theorem splitExponent_of_not_mem {m : List Char} (hstar : '*' ∉ m) (hupper : 'E' ∉ m)
    (hlower : 'e' ∉ m) : splitExponent m = (m, none) := by
  simp only [splitExponent, exponentMarkers, List.findSome?_cons, List.findSome?_nil,
    splitAtMarker?_of_not_mem hstar, splitAtMarker?_of_not_mem hupper,
    splitAtMarker?_of_not_mem hlower]

/-- Between two texts without these characters each of the markers is the one that is found, although
the others are looked for in the whole text. -/
theorem splitExponent_marker {m marker text : List Char} (hmarker : marker ∈ exponentMarkers)
    (hstar : '*' ∉ m) (hupper : 'E' ∉ m) (hlower : 'e' ∉ m) (hstar' : '*' ∉ text)
    (hupper' : 'E' ∉ text) : splitExponent (m ++ (marker ++ text)) = (m, some text) := by
  -- a marker is not found when its first character stands nowhere
  have habsent : ∀ {x : Char} {rest : List Char}, x ∉ m → x ∉ marker → x ∉ text →
      splitAtMarker? (x :: rest) (m ++ (marker ++ text)) = none := by
    intro x rest hm hx htext
    refine splitAtMarker?_of_not_mem ?_
    simp only [List.mem_append, not_or]
    exact ⟨hm, hx, htext⟩
  -- every marker is looked for after those that are listed before it, so each case also says that
  -- these are absent
  simp only [exponentMarkers, List.mem_cons, List.not_mem_nil, or_false] at hmarker
  rcases hmarker with rfl | rfl | rfl | rfl
  · simp only [splitExponent, exponentMarkers, List.findSome?_cons, splitAtMarker?_append hstar]
  · -- the longer marker begins in the same way, and goes on in another
    have hlonger : splitAtMarker? ['*', '1', '0', '^'] (m ++ (['*', '^'] ++ text)) = none := by
      have hrest : '*' ∉ '^' :: text := by
        rw [List.mem_cons, not_or]
        exact ⟨by decide, hstar'⟩
      have hprefix : ['*', '1', '0', '^'].isPrefixOf ('*' :: '^' :: text) = false := rfl
      rw [splitAtMarker?_skip hstar, List.cons_append, List.cons_append, List.nil_append,
        splitAtMarker?, hprefix, if_neg Bool.false_ne_true, splitAtMarker?_of_not_mem hrest]
      rfl
    simp only [splitExponent, exponentMarkers, List.findSome?_cons, hlonger,
      splitAtMarker?_append hstar]
  · simp only [splitExponent, exponentMarkers, List.findSome?_cons,
      habsent hstar (by decide) hstar', splitAtMarker?_append hupper]
  · simp only [splitExponent, exponentMarkers, List.findSome?_cons,
      habsent hstar (by decide) hstar', habsent hupper (by decide) hupper',
      splitAtMarker?_append hlower]

/-- The text behind a marker is read as an optional sign and digits. The magnitude has to be below
`2 ^ 63`, with either sign. -/
theorem readExponent?_eq_some_iff {text : List Char} {value : ℤ} :
    readExponent? text = some value ↔
      ∃ sign digits negative, text = sign ++ digits ∧ SpellsSign sign negative ∧
        AllDigits digits ∧ digits ≠ [] ∧ valueOf digits < 9223372036854775808 ∧
        value = if negative then -(valueOf digits : ℤ) else valueOf digits := by
  constructor
  · intro h
    obtain ⟨sign, htext, hsign⟩ := exists_spellsSign text
    rw [readExponent?] at h
    -- what the sign leaves is given a name, so that the two equations can be split together
    generalize hcut : splitSign text = parts at h htext hsign
    obtain ⟨negative, digits⟩ := parts
    simp only at h htext hsign
    split at h
    · cases h
    · next hdigits =>
      rw [Bool.or_eq_true, not_or, List.isEmpty_iff, Bool.not_eq_true', Bool.not_eq_false,
        List.all_eq_true] at hdigits
      rw [natOfDigits_eq_valueOf] at h
      split at h
      · next hfits =>
        exact ⟨sign, digits, negative, htext, hsign, hdigits.2, hdigits.1, hfits,
          (Option.some.inj h).symm⟩
      · cases h
  · rintro ⟨sign, digits, negative, rfl, hsign, hdigits, hne, hfits, rfl⟩
    -- digits do not begin with a sign, so the sign that is cut off is the one of the grammar
    have hhead : ∀ c ∈ digits.head?, c ≠ '-' ∧ c ≠ '+' := by
      intro c hc
      have hdigit := hdigits c (List.mem_of_mem_head? hc)
      exact ⟨ne_of_isDigit hdigit rfl, ne_of_isDigit hdigit rfl⟩
    rw [readExponent?, hsign.splitSign hhead]
    simp only [List.isEmpty_eq_false_iff.2 hne, List.all_eq_true.2 hdigits, natOfDigits_eq_valueOf,
      hfits, Bool.not_true, Bool.or_false, Bool.false_eq_true, if_false, if_true]

/-! ### Literals -/

/-- A literal is read as what it spells, if the exponent is in range. -/
theorem Spells.readLiteral? {text : List Char} {coeff exp : ℤ} (h : Spells text coeff exp)
    (hlow : -2147483648 ≤ exp) : readLiteral? text = ofParts? coeff exp := by
  obtain @⟨sign, mantissa, exponent, digits, negative, places, e, hsign, hmantissa, hexponent⟩ := h
  have hstar : '*' ∉ mantissa := hmantissa.not_mem (by rfl) (by decide) (by decide)
  have hupper : 'E' ∉ mantissa := hmantissa.not_mem (by rfl) (by decide) (by decide)
  have hlower : 'e' ∉ mantissa := hmantissa.not_mem (by rfl) (by decide) (by decide)
  -- the mantissa begins with a digit, an underscore or a point
  have hhead : ∀ c ∈ (mantissa ++ exponent).head?, c ≠ '-' ∧ c ≠ '+' := by
    intro c hc
    have hmem : c ∈ mantissa := by
      obtain ⟨first, rest, rfl⟩ := List.exists_cons_of_ne_nil hmantissa.ne_nil
      cases hc
      exact List.mem_cons_self
    constructor
    · rintro rfl
      exact hmantissa.not_mem (by rfl) (by decide) (by decide) hmem
    · rintro rfl
      exact hmantissa.not_mem (by rfl) (by decide) (by decide) hmem
  rw [Decimal.readLiteral?, hsign.splitSign hhead]
  cases hexponent with
  | none =>
    simp only [List.append_nil, splitExponent_of_not_mem hstar hupper hlower,
      hmantissa.readMantissa?]
    rfl
  | @marked marker esign edigits enegative _ hmarker hesign hedigits hne hvalue hlow' hhigh' =>
    -- the same three kinds of characters stand behind the marker, but for the signs
    have hnot : ∀ x : Char, x.isDigit = false → x ≠ '+' → x ≠ '-' → x ∉ esign ++ edigits := by
      intro x hx hplus hminus hmem
      rcases List.mem_append.1 hmem with hmem | hmem
      · exact hesign.not_mem hplus hminus hmem
      · exact ne_of_isDigit (hedigits x hmem) hx rfl
    have hcut := splitExponent_marker (mem_exponentMarkers_iff.2 hmarker) hstar hupper hlower
      (hnot '*' rfl (by decide) (by decide)) (hnot 'E' rfl (by decide) (by decide))
    -- the least value of 64 bits is refused, but its exponent is out of range anyway
    have hread : readExponent? (esign ++ edigits) = some e := by
      refine readExponent?_eq_some_iff.2
        ⟨esign, edigits, enegative, rfl, hesign, hedigits, hne, ?_, hvalue⟩
      cases enegative with
      | true =>
        simp only [if_true] at hvalue
        omega
      | false =>
        simp only [Bool.false_eq_true, if_false] at hvalue
        omega
    simp only [hcut, hmantissa.readMantissa?, Option.elim_some, hread]
    rfl

/-- What is read is a literal. -/
theorem spells_of_readLiteral? {text : List Char} {d : Decimal} (h : readLiteral? text = some d) :
    Spells text d.coeff d.exp := by
  obtain ⟨sign, htext, hsign⟩ := exists_spellsSign text
  rw [Decimal.readLiteral?] at h
  generalize hcut : splitSign text = parts at h htext hsign
  obtain ⟨negative, body⟩ := parts
  simp only at h htext hsign
  -- from here on each part of the text has its name, and the reader's answer is taken apart
  generalize hbody : splitExponent body = parts at h
  obtain ⟨mantissa, exponentText⟩ := parts
  simp only [Option.bind_eq_bind, Option.bind_eq_some_iff] at h
  obtain ⟨⟨n, places⟩, hmantissa, e, hexponent, hparts⟩ := h
  obtain ⟨digits, hspells, rfl⟩ := exists_spellsMantissa hmantissa
  obtain ⟨hcoeff, hexp⟩ := ofParts?_eq_some_iff.1 hparts
  -- without a marker the exponent is empty, with one it is what follows the sign
  have hexponent' : ∃ exponent, body = mantissa ++ exponent ∧ SpellsExponent exponent e := by
    obtain ⟨rfl, hsame⟩ | ⟨marker, hmarker, tail, rfl, hsame⟩ := exists_of_splitExponent hbody
    · cases hexponent
      exact ⟨[], by rw [List.append_nil, hsame], .none⟩
    · obtain ⟨esign, edigits, enegative, rfl, hesign, hedigits, hne, hfits, hvalue⟩ :=
        readExponent?_eq_some_iff.1 hexponent
      refine ⟨_, hsame, .marked (mem_exponentMarkers_iff.1 hmarker) hesign hedigits hne hvalue ?_ ?_⟩
      · split at hvalue <;> omega
      · split at hvalue <;> omega
  obtain ⟨exponent, hsame, hspells'⟩ := hexponent'
  rw [htext, hsame, hcoeff, hexp]
  exact .literal hsign hspells hspells'

theorem readLiteral?_eq_some_iff {text : List Char} {d : Decimal} :
    readLiteral? text = some d ↔ Spells text d.coeff d.exp := by
  refine ⟨spells_of_readLiteral?, fun h => ?_⟩
  rw [h.readLiteral? d.least_le_exp]
  exact ofParts?_eq_some_iff.2 ⟨rfl, rfl⟩

/-! ### Blanks -/

theorem exists_padded (text : List Char) : Padded (Text.trim text) text := by
  -- blanks are trimmed from the front first, and then from the back of what is left
  refine ⟨text.takeWhile Text.isBlank, ((Text.trimStart text).reverse.takeWhile Text.isBlank).reverse,
    ?_, fun c hc => List.mem_takeWhile_imp hc, fun c hc => ?_⟩
  · rw [Text.trim, Text.trimEnd, ← List.reverse_append, List.takeWhile_append_dropWhile,
      List.reverse_reverse, Text.trimStart, List.takeWhile_append_dropWhile]
  · exact List.mem_takeWhile_imp (List.mem_reverse.1 hc)

/-- No character of a literal is blank, so trimming a padded literal leaves the literal. -/
theorem Spells.not_isBlank {text : List Char} {coeff exp : ℤ} (h : Spells text coeff exp) :
    ∀ c ∈ text, Text.isBlank c = false := by
  intro c hc
  -- the sign in front and the sign of the exponent are the same case
  have hsigns : ∀ {sign negative}, SpellsSign sign negative → c ∈ sign →
      Text.isBlank c = false := by
    intro sign negative hsign hc
    rcases hsign.mem hc with rfl | rfl
    · rfl
    · rfl
  obtain @⟨sign, mantissa, exponent, digits, negative, places, e, hsign, hmantissa, hexponent⟩ := h
  rcases List.mem_append.1 hc with hc | hc
  · exact hsigns hsign hc
  rcases List.mem_append.1 hc with hc | hc
  · rcases hmantissa.mem hc with hdigit | rfl | rfl
    · exact not_isBlank_of_isDigit hdigit
    · rfl
    · rfl
  cases hexponent with
  | none => cases hc
  | @marked marker esign edigits _ _ hmarker hesign hedigits =>
    rcases List.mem_append.1 hc with hc | hc
    · -- one look at all characters of all markers serves the four of them
      have hmarkers : exponentMarkers.flatten.all (fun c => !Text.isBlank c) = true := rfl
      have hmem : c ∈ exponentMarkers.flatten :=
        List.mem_flatten.2 ⟨marker, mem_exponentMarkers_iff.2 hmarker, hc⟩
      simpa using List.all_eq_true.1 hmarkers c hmem
    · rcases List.mem_append.1 hc with hc | hc
      · exact hsigns hesign hc
      · exact not_isBlank_of_isDigit (hedigits c hc)

theorem Spells.trim_eq {literal text : List Char} {coeff exp : ℤ} (h : Spells literal coeff exp)
    (hpad : Padded literal text) : Text.trim text = literal := by
  obtain ⟨before, after, rfl, hbefore, hafter⟩ := hpad
  exact trim_append h.not_isBlank hbefore hafter

/-! ### Texts -/

/-- The literal for a decimal in a text is the text without the blanks around it. -/
theorem readLiteral?_trim_eq_some_iff {text : List Char} {d : Decimal} :
    readLiteral? (Text.trim text) = some d ↔
      ∃ literal, Padded literal text ∧ Spells literal d.coeff d.exp := by
  rw [readLiteral?_eq_some_iff]
  constructor
  · exact fun h => ⟨_, exists_padded text, h⟩
  · rintro ⟨literal, hpad, h⟩
    rwa [h.trim_eq hpad]

/-- A text is accepted if and only if it is a literal with blanks around it whose exponent is in
range. The decimal is what the literal spells, and every other text is refused as no number. -/
theorem parse_iff_spells (text : String) :
    (∀ d, parse text = .ok d ↔
      ∃ literal, Padded literal text.toList ∧ Spells literal d.coeff d.exp) ∧
    ((∃ d, parse text = .ok d) ↔
      ∃ literal coeff exp, Padded literal text.toList ∧ Spells literal coeff exp ∧
        -2147483648 ≤ exp ∧ exp ≤ 2147483647) ∧
    ∀ cause, parse text = .error cause ↔
      cause = .notNumber text ∧
        ¬∃ literal coeff exp, Padded literal text.toList ∧ Spells literal coeff exp ∧
          -2147483648 ≤ exp ∧ exp ≤ 2147483647 := by
  have hparse : parse text =
      (readLiteral? (Text.trim text.toList)).elim (.error (.notNumber text)) .ok := by
    rw [parse]
    cases readLiteral? (Text.trim text.toList) <;> rfl
  have hvalue : ∀ d, parse text = .ok d ↔
      ∃ literal, Padded literal text.toList ∧ Spells literal d.coeff d.exp := by
    intro d
    rw [← readLiteral?_trim_eq_some_iff, hparse]
    cases readLiteral? (Text.trim text.toList) <;> simp
  have haccepts : (∃ d, parse text = .ok d) ↔
      ∃ literal coeff exp, Padded literal text.toList ∧ Spells literal coeff exp ∧
        -2147483648 ≤ exp ∧ exp ≤ 2147483647 := by
    constructor
    · rintro ⟨d, hd⟩
      obtain ⟨literal, hpad, h⟩ := (hvalue d).1 hd
      exact ⟨literal, d.coeff, d.exp, hpad, h, d.least_le_exp, d.exp_le_greatest⟩
    · rintro ⟨literal, coeff, exp, hpad, h, hlow, hhigh⟩
      exact ⟨⟨coeff, exp, hlow, hhigh⟩, (hvalue _).2 ⟨literal, hpad, h⟩⟩
  refine ⟨hvalue, haccepts, fun cause => ?_⟩
  rw [← haccepts, hparse]
  -- the second statement is used for the third, so each text falls into one of the two cases
  cases readLiteral? (Text.trim text.toList) with
  | some d => simp
  | none => simp [eq_comm]

/-- A marker is looked for in the whole text, yet a second one is not skipped. -/
example : parse "1e2*^3" = .error (.notNumber "1e2*^3") := by decide +kernel

end DecimalScript.Decimal
