import DecimalScript.Proofs.Decimal.Rounding

/-!
# Canonical decimals and their exponents

A number other than zero that is an integer times a power of ten has one canonical form, in which
the integer does not end in a zero. `HasExponent q e` says that `e` is the exponent of that form,
which may lie outside the range of the exponent of a decimal; a canonical decimal of the number
exists if and only if it does not.

`canonical` finds the canonical decimal wherever there is one (`canonical_eq_ok_iff`) and fails for
no other reason (`canonical_eq_error_iff`). Products and quotients are built first over some smaller
exponent, which has to be in range of its own (`staged_eq_ok_iff`).
-/

namespace DecimalScript.Decimal

/-- The exponent of `q` in its canonical form: over this power of ten `q` is an integer that does
not end in a zero. -/
def HasExponent (q : ℚ) (e : ℤ) : Prop :=
  ∃ c : ℤ, ¬10 ∣ c ∧ q = c * 10 ^ e

/-- Zero, or a decimal whose coefficient does not end in a zero. -/
def IsCanonical (d : Decimal) : Prop :=
  d = zero ∨ ¬10 ∣ d.coeff

/-! ### The canonical form of a number -/

/-- Over no power of ten above the one of its canonical form is a number an integer. -/
theorem exp_le_of_eq {c c' e e' : ℤ} (hc : ¬10 ∣ c) (h : (c * 10 ^ e : ℚ) = c' * 10 ^ e') :
    e' ≤ e := by
  -- else the first integer would be the second with zeros written after it
  by_contra hlt
  obtain ⟨k, hk⟩ := Int.eq_ofNat_of_zero_le (show 0 ≤ e' - e - 1 by omega)
  have hexp : e' = (k + 1 : ℕ) + e := by
    push_cast
    omega
  rw [hexp, zpow_add₀ (by norm_num), ← mul_assoc, mul_left_inj' (ten_zpow_pos e).ne',
    zpow_natCast] at h
  have hdvd : c = 10 * (c' * 10 ^ k) := by
    have : c = c' * 10 ^ (k + 1) := by exact_mod_cast h
    rw [this]
    ring
  exact hc ⟨_, hdvd⟩

theorem canonicalForm_unique {c c' e e' : ℤ} (hc : ¬10 ∣ c) (hc' : ¬10 ∣ c')
    (h : (c * 10 ^ e : ℚ) = c' * 10 ^ e') : c = c' ∧ e = e' := by
  have hexp : e = e' := le_antisymm (exp_le_of_eq hc' h.symm) (exp_le_of_eq hc h)
  rw [hexp, mul_left_inj' (ten_zpow_pos e').ne'] at h
  exact ⟨by exact_mod_cast h, hexp⟩

theorem HasExponent.unique {q : ℚ} {e e' : ℤ} (h : HasExponent q e) (h' : HasExponent q e') :
    e = e' := by
  obtain ⟨c, hc, rfl⟩ := h
  obtain ⟨c', hc', heq⟩ := h'
  exact (canonicalForm_unique hc hc' heq).2

theorem HasExponent.ne_zero {q : ℚ} {e : ℤ} (h : HasExponent q e) : q ≠ 0 := by
  obtain ⟨c, hc, rfl⟩ := h
  refine mul_ne_zero ?_ (ten_zpow_pos e).ne'
  rintro hzero
  rw [Int.cast_eq_zero] at hzero
  exact hc (hzero ▸ dvd_zero 10)

theorem IsCanonical.not_dvd {d : Decimal} (h : d.IsCanonical) (hd : d.coeff ≠ 0) :
    ¬10 ∣ d.coeff := by
  rcases h with rfl | h
  · exact absurd rfl hd
  · exact h

theorem toRat_zero : zero.toRat = 0 := toRat_eq_zero_iff.2 rfl

theorem IsCanonical.hasExponent {r : Decimal} {q : ℚ} (hr : r.IsCanonical) (heq : r.toRat = q)
    (hq : q ≠ 0) : HasExponent q r.exp := by
  rcases hr with rfl | hr
  · exact absurd (heq.symm.trans toRat_zero) hq
  · exact ⟨r.coeff, hr, heq.symm⟩

theorem eq_of_isCanonical {d d' : Decimal} (h : d.IsCanonical) (h' : d'.IsCanonical)
    (heq : d.toRat = d'.toRat) : d = d' := by
  -- zero is canonical and so is no other decimal of the number zero
  have hzero : ∀ d d' : Decimal, d.toRat = d'.toRat → d = zero → d'.coeff = 0 := by
    rintro d d' heq rfl
    rw [← toRat_eq_zero_iff, ← heq, toRat_eq_zero_iff]
    rfl
  rcases h with hd | hd
  · rcases h' with hd' | hd'
    · rw [hd, hd']
    · exact absurd (hzero d d' heq hd ▸ dvd_zero 10) hd'
  · rcases h' with hd' | hd'
    · exact absurd (hzero d' d heq.symm hd' ▸ dvd_zero 10) hd
    · -- two canonical forms of one number have the same coefficient and the same exponent
      obtain ⟨hcoeff, hexp⟩ := canonicalForm_unique hd hd' heq
      obtain ⟨c, e, _, _⟩ := d
      obtain ⟨c', e', _, _⟩ := d'
      obtain rfl : c = c' := hcoeff
      obtain rfl : e = e' := hexp
      rfl

/-! ### Stripping the zeros -/

theorem not_dvd_stripped {c : ℤ} (hc : c ≠ 0) : ¬10 ∣ c.sign * stripZeros c.natAbs := by
  rw [← Int.natAbs_dvd_natAbs, Int.natAbs_mul, Int.natAbs_sign_of_ne_zero hc, one_mul,
    Int.natAbs_natCast]
  exact not_dvd_stripZeros (Int.natAbs_ne_zero.2 hc)

theorem stripped_mul_zpow (c e : ℤ) :
    ((c.sign * stripZeros c.natAbs : ℤ) : ℚ) * 10 ^ (e + trailingZeros c.natAbs) = c * 10 ^ e := by
  -- the sign is taken off, the zeros are stripped from what is left, and the sign is put back
  have hstrip : c.sign * stripZeros c.natAbs * 10 ^ trailingZeros c.natAbs = c := by
    rw [mul_assoc]
    conv_rhs => rw [← Int.sign_mul_natAbs c, ← stripZeros_mul_pow c.natAbs]
    push_cast
    rfl
  conv_rhs => rw [← hstrip]
  rw [zpow_add₀ (by norm_num), zpow_natCast]
  push_cast
  ring

theorem hasExponent_of_ne_zero {c : ℤ} (hc : c ≠ 0) (e : ℤ) :
    HasExponent (c * 10 ^ e) (e + trailingZeros c.natAbs) :=
  ⟨_, not_dvd_stripped hc, (stripped_mul_zpow c e).symm⟩

/-! ### Where the canonical decimal exists -/

theorem ofParts_of_range {c e : ℤ} (hlow : -2147483648 ≤ e) (hhigh : e ≤ 2147483647) :
    ofParts c e = .ok ⟨c, e, hlow, hhigh⟩ := by
  rw [ofParts, ofParts?, dif_pos ⟨hlow, hhigh⟩]

theorem ofParts_of_not_range {c e : ℤ} (h : ¬(-2147483648 ≤ e ∧ e ≤ 2147483647)) :
    ofParts c e = .error .exponentOutOfRange := by
  rw [ofParts, ofParts?, dif_neg h]

theorem canonical_of_range {d : Decimal} (hd : d.coeff ≠ 0) {e : ℤ} (he : HasExponent d.toRat e)
    (hhigh : e ≤ 2147483647) : ∃ r, d.canonical = .ok r ∧ r.IsCanonical ∧ r.toRat = d.toRat := by
  have hexp : d.exp + trailingZeros d.coeff.natAbs = e :=
    (hasExponent_of_ne_zero hd d.exp).unique he
  have hlow := d.least_le_exp
  rw [canonical, if_neg hd, ofParts_of_range (by omega) (hexp.trans_le hhigh)]
  exact ⟨_, rfl, .inr (not_dvd_stripped hd), stripped_mul_zpow d.coeff d.exp⟩

theorem canonical_of_lt {d : Decimal} {e : ℤ} (he : HasExponent d.toRat e)
    (hhigh : 2147483647 < e) : d.canonical = .error .exponentOutOfRange := by
  have hd : d.coeff ≠ 0 := fun h => he.ne_zero (toRat_eq_zero_iff.2 h)
  have hexp : d.exp + trailingZeros d.coeff.natAbs = e :=
    (hasExponent_of_ne_zero hd d.exp).unique he
  rw [canonical, if_neg hd, ofParts_of_not_range (by omega)]

/-- The canonical decimal is found wherever there is one. -/
theorem canonical_eq_ok_iff {d r : Decimal} :
    d.canonical = .ok r ↔ r.IsCanonical ∧ r.toRat = d.toRat := by
  by_cases hd : d.coeff = 0
  · -- zero is the canonical form of zero, whatever exponent it had
    rw [canonical, if_pos hd, Except.ok.injEq, toRat_eq_zero_iff.2 hd, toRat_eq_zero_iff]
    constructor
    · rintro rfl
      exact ⟨.inl rfl, rfl⟩
    · rintro ⟨hr | hr, hzero⟩
      · exact hr.symm
      · exact absurd (hzero ▸ dvd_zero 10) hr
  have hexp := hasExponent_of_ne_zero hd d.exp
  constructor
  · -- stripping moves the exponent up only, so the range can be left at its upper end alone
    intro h
    rcases le_or_gt (d.exp + trailingZeros d.coeff.natAbs) 2147483647 with hhigh | hhigh
    · obtain ⟨r', hr', hcanonical⟩ := canonical_of_range hd hexp hhigh
      rw [hr', Except.ok.injEq] at h
      exact h ▸ hcanonical
    · rw [canonical_of_lt hexp hhigh] at h
      exact absurd h (by simp)
  · -- the exponent of the canonical form is that of `r`, and so it is in range
    rintro ⟨hr, heq⟩
    have hrexp : HasExponent d.toRat r.exp := hr.hasExponent heq fun h => hd (toRat_eq_zero_iff.1 h)
    obtain ⟨r', hr', hcanonical, heq'⟩ := canonical_of_range hd hrexp r.exp_le_greatest
    rw [hr', eq_of_isCanonical hcanonical hr (heq'.trans heq.symm)]

theorem canonical_eq_error_iff {d : Decimal} {cause : Cause} :
    d.canonical = .error cause ↔
      cause = .exponentOutOfRange ∧ ∃ e, HasExponent d.toRat e ∧ 2147483647 < e := by
  constructor
  · intro h
    -- a decimal of zero has a canonical form at once, so there is something to strip here
    have hd : d.coeff ≠ 0 := by
      intro hd
      rw [canonical, if_pos hd] at h
      exact absurd h (by simp)
    have hexp := hasExponent_of_ne_zero hd d.exp
    rcases le_or_gt (d.exp + trailingZeros d.coeff.natAbs) 2147483647 with hhigh | hhigh
    · obtain ⟨r, hr, -⟩ := canonical_of_range hd hexp hhigh
      rw [hr] at h
      exact absurd h (by simp)
    · rw [canonical_of_lt hexp hhigh, Except.error.injEq] at h
      exact ⟨h.symm, _, hexp, hhigh⟩
  · rintro ⟨rfl, e, he, hhigh⟩
    exact canonical_of_lt he hhigh

/-! ### A canonical decimal by way of another exponent

A result is first put over an exponent at or below the one of its canonical form. If that exponent
is in range, nothing is lost; below the range the result is given up, also where the canonical
decimal exists. -/

section Staged

variable {c e : ℤ}

theorem staged_eq_canonical (hlow : -2147483648 ≤ e) (hhigh : e ≤ 2147483647) :
    (do (← ofParts c e).canonical) = (Decimal.mk c e hlow hhigh).canonical := by
  rw [ofParts_of_range hlow hhigh]
  rfl

theorem staged_eq_error (h : ¬(-2147483648 ≤ e ∧ e ≤ 2147483647)) :
    (do (← ofParts c e).canonical) = .error .exponentOutOfRange := by
  rw [ofParts_of_not_range h]
  rfl

theorem cause_of_staged {cause : Cause} (h : (do (← ofParts c e).canonical) = .error cause) :
    cause = .exponentOutOfRange := by
  -- in range the decimal is made and then stripped; out of range it is never made
  by_cases hrange : -2147483648 ≤ e ∧ e ≤ 2147483647
  · rw [staged_eq_canonical hrange.1 hrange.2] at h
    exact (canonical_eq_error_iff.1 h).1
  · rw [staged_eq_error hrange] at h
    exact (Except.error.inj h).symm

/-- What comes out is the number that was put over the exponent. -/
theorem isCanonical_of_staged {r : Decimal} (h : (do (← ofParts c e).canonical) = .ok r) :
    r.IsCanonical ∧ r.toRat = c * 10 ^ e := by
  by_cases hrange : -2147483648 ≤ e ∧ e ≤ 2147483647
  · rw [staged_eq_canonical hrange.1 hrange.2] at h
    exact canonical_eq_ok_iff.1 h
  · rw [staged_eq_error hrange] at h
    cases h

theorem staged_eq_ok_iff (hc : c ≠ 0) {r : Decimal} :
    (do (← ofParts c e).canonical) = .ok r ↔
      -2147483648 ≤ e ∧ r.IsCanonical ∧ r.toRat = c * 10 ^ e := by
  by_cases hrange : -2147483648 ≤ e ∧ e ≤ 2147483647
  · rw [staged_eq_canonical hrange.1 hrange.2, canonical_eq_ok_iff]
    exact (and_iff_right hrange.1).symm
  · rw [staged_eq_error hrange]
    refine iff_of_false (by simp) ?_
    rintro ⟨hlow, hr, heq⟩
    -- the exponent of `r` would be above the range with `e`
    have hexp : r.exp = e + trailingZeros c.natAbs :=
      have hstaged := hasExponent_of_ne_zero hc e
      (hr.hasExponent heq hstaged.ne_zero).unique hstaged
    have hhigh := r.exp_le_greatest
    omega

theorem staged_eq_error_iff (hc : c ≠ 0) {cause : Cause} :
    (do (← ofParts c e).canonical) = .error cause ↔
      cause = .exponentOutOfRange ∧
        ∃ e', HasExponent (c * 10 ^ e) e' ∧ (e < -2147483648 ∨ 2147483647 < e') := by
  have hexp := hasExponent_of_ne_zero hc e
  by_cases hrange : -2147483648 ≤ e ∧ e ≤ 2147483647
  · rw [staged_eq_canonical hrange.1 hrange.2, canonical_eq_error_iff]
    refine and_congr_right fun _ => exists_congr fun e' => and_congr_right fun _ => ?_
    exact (or_iff_right (by omega)).symm
  · rw [staged_eq_error hrange, Except.error.injEq]
    -- below the range the cause is the same as above it, and the canonical form exists all the same
    constructor
    · rintro rfl
      exact ⟨rfl, _, hexp, by omega⟩
    · exact fun h => h.1.symm

end Staged

end DecimalScript.Decimal
