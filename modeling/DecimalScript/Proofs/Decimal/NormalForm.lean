import Mathlib.Logic.Relation
import Mathlib.Order.WellFounded
import DecimalScript.Proofs.Decimal.Range

/-!
# Normal forms

To bring a decimal other than zero into its normal form is to take the zeros from the end of its
coefficient one by one, the exponent going up by one with each (`StripsZero`). This comes to an end
(`wellFounded_stripsZero`), either at a coefficient that ten does not divide or at the greatest
exponent. `canonical` has the decimal at which it ends, or fails if there would still be a zero to
take (`StripsTo.canonical_eq`).

No step changes the number, and a number has one normal form only. So decimals are equal if and only
if their normal forms are the same in both parts, and since products and quotients are normal forms
they are equal only if they are the same. A product is moreover exact.

Main result: `normal_form_unique`.
-/

namespace DecimalScript.Decimal

open Relation (ReflTransGen)

variable {x y d r s last : Decimal}

/-! ### Taking zeros away -/

/-- `r` is `d` without the last zero of its coefficient. -/
structure StripsZero (d r : Decimal) : Prop where
  ne_zero : d.coeff ≠ 0
  coeff_eq : d.coeff = 10 * r.coeff
  exp_eq : r.exp = d.exp + 1

/-- `last` is `d` without the last zeros of its coefficient, as far as they can be taken away. -/
structure StripsTo (d last : Decimal) : Prop where
  path : ReflTransGen StripsZero d last
  ends : ∀ r, ¬StripsZero last r

theorem StripsZero.toRat_eq (h : StripsZero d r) : r.toRat = d.toRat := by
  rw [toRat, toRat, h.coeff_eq, h.exp_eq, zpow_add_one₀ (by norm_num)]
  push_cast
  ring

/-- The coefficient gets smaller with each zero, so no more than so many zeros can go. -/
theorem wellFounded_stripsZero : WellFounded fun r d => StripsZero d r := by
  refine Subrelation.wf (r := InvImage (· < ·) fun d : Decimal => d.coeff.natAbs) ?_
    (InvImage.wf _ Nat.lt_wfRel.wf)
  intro r d h
  have hne := h.ne_zero
  have hcoeff := h.coeff_eq
  change r.coeff.natAbs < d.coeff.natAbs
  omega

/-- A zero is there to be taken, and the exponent has room. -/
theorem exists_stripsZero (hd : d.coeff ≠ 0) (hdvd : 10 ∣ d.coeff) (hexp : d.exp < 2147483647) :
    ∃ r, StripsZero d r := by
  -- the coefficient is a multiple of ten and not zero, so the quotient is not zero either
  obtain ⟨c, hc⟩ := hdvd
  have hlow := d.least_le_exp
  exact ⟨⟨c, d.exp + 1, by omega, by omega⟩, hd, hc, rfl⟩

theorem exists_stripsTo (d : Decimal) : ∃ last, StripsTo d last := by
  -- along the order in which zeros are taken away, since the number of zeros is not known
  -- beforehand
  induction d using wellFounded_stripsZero.induction with
  | _ d ih =>
    by_cases hstep : ∃ r, StripsZero d r
    · obtain ⟨r, hr⟩ := hstep
      obtain ⟨last, hlast⟩ := ih r hr
      exact ⟨last, hlast.path.head hr, hlast.ends⟩
    · exact ⟨d, .refl, not_exists.1 hstep⟩

theorem StripsTo.toRat_eq (h : StripsTo d last) : last.toRat = d.toRat := by
  obtain ⟨hpath, -⟩ := h
  -- on the path: every step keeps the number
  induction hpath with
  | refl => rfl
  | tail _ hstep ih => exact hstep.toRat_eq.trans ih

/-- Zeros are left at the end only under the greatest exponent. -/
theorem StripsTo.exp_eq (h : StripsTo d last) (hlast : last.coeff ≠ 0) (hdvd : 10 ∣ last.coeff) :
    last.exp = 2147483647 := by
  -- otherwise one more zero could be taken, but the path has ended
  by_contra hexp
  have hhigh := last.exp_le_greatest
  obtain ⟨r, hr⟩ := exists_stripsZero hlast hdvd (by omega)
  exact h.ends r hr

/-! ### Normal forms -/

/-- A coefficient that still ends in a zero under the greatest exponent has no normal form. -/
theorem canonical_eq_error_of_dvd (hd : d.coeff ≠ 0) (hdvd : 10 ∣ d.coeff)
    (hexp : d.exp = 2147483647) : d.canonical = .error .exponentOutOfRange := by
  refine canonical_eq_error_iff.2 ⟨rfl, _, hasExponent_of_ne_zero hd d.exp, ?_⟩
  have hzeros : trailingZeros d.coeff.natAbs ≠ 0 := by
    -- at least the one zero that ten divides out is counted
    rw [trailingZeros, if_pos ⟨by omega, by omega⟩]
    exact Nat.succ_ne_zero _
  omega

/-- Decimals for one number have the same normal form, or neither has one. -/
theorem canonical_congr (h : x.toRat = y.toRat) : x.canonical = y.canonical := by
  -- on the outcome for `x`: what a normal form is says only which number it is of
  cases hx : x.canonical with
  | ok r =>
    rw [canonical_eq_ok_iff, h, ← canonical_eq_ok_iff] at hx
    exact hx.symm
  | error cause =>
    rw [canonical_eq_error_iff, h, ← canonical_eq_error_iff] at hx
    exact hx.symm

/-- The normal form is where the zeros end, and there is none if zeros are left there. -/
theorem StripsTo.canonical_eq (h : StripsTo d last) (hd : d.coeff ≠ 0) :
    d.canonical = if 10 ∣ last.coeff then .error .exponentOutOfRange else .ok last := by
  have hlast : last.coeff ≠ 0 := by rwa [Ne, ← toRat_eq_zero_iff, h.toRat_eq, toRat_eq_zero_iff]
  -- no step changes the number, so the normal form of the last decimal is the one that is asked for
  rw [← canonical_congr h.toRat_eq]
  split_ifs with hdvd
  · exact canonical_eq_error_of_dvd hlast hdvd (h.exp_eq hlast hdvd)
  · exact canonical_eq_ok_iff.2 ⟨.inr hdvd, rfl⟩

/-- A normal form is its own. -/
theorem canonical_of_canonical (h : d.canonical = .ok r) : r.canonical = .ok r :=
  canonical_eq_ok_iff.2 ⟨(canonical_eq_ok_iff.1 h).1, rfl⟩

theorem IsCanonical.parts (h : r.IsCanonical) : (r.coeff = 0 ∧ r.exp = 0) ∨ ¬10 ∣ r.coeff := by
  rcases h with rfl | h
  · exact .inl ⟨rfl, rfl⟩
  · exact .inr h

theorem equal_iff_of_isCanonical (hr : r.IsCanonical) (hs : s.IsCanonical) :
    r.equal s = true ↔ r.coeff = s.coeff ∧ r.exp = s.exp := by
  rw [equal_iff_toRat_eq]
  constructor
  · -- two normal forms of one number are the same decimal
    intro h
    obtain rfl := eq_of_isCanonical hr hs h
    exact ⟨rfl, rfl⟩
  · rintro ⟨hcoeff, hexp⟩
    rw [toRat, toRat, hcoeff, hexp]

/-- Decimals are equal if and only if their normal forms are the same. -/
theorem equal_iff_of_canonical (hx : x.canonical = .ok r) (hy : y.canonical = .ok s) :
    x.equal y = true ↔ r.coeff = s.coeff ∧ r.exp = s.exp := by
  -- both normal forms are compared in place of the decimals, since they are the same numbers
  obtain ⟨hr, hrx⟩ := canonical_eq_ok_iff.1 hx
  obtain ⟨hs, hsy⟩ := canonical_eq_ok_iff.1 hy
  rw [← equal_iff_of_isCanonical hr hs, equal_iff_toRat_eq, equal_iff_toRat_eq, hrx, hsy]

/-! ### Products and quotients -/

/-- A product is exact and a normal form. -/
theorem isCanonical_and_toRat_of_mul (h : x.mul y = .ok r) :
    r.IsCanonical ∧ r.toRat = x.toRat * y.toRat := by
  rw [mul] at h
  split_ifs at h with hzero
  · obtain rfl := Except.ok.inj h
    refine ⟨.inl rfl, ?_⟩
    rw [← toRat_mul, hzero, toRat_zero, Int.cast_zero, zero_mul]
  · obtain ⟨-, hcanonical, hrat⟩ := (staged_eq_ok_iff hzero).1 h
    exact ⟨hcanonical, hrat.trans (toRat_mul x y)⟩

theorem isCanonical_of_div (h : x.div y = .ok r) : r.IsCanonical := by
  by_cases hy : y.coeff = 0
  · -- there is no such quotient
    rw [div_of_zero_divisor hy] at h
    cases h
  by_cases hx : x.coeff = 0
  · rw [div_of_zero_dividend hy hx] at h
    exact .inl (Except.ok.inj h).symm
  · -- the zeros are stripped last, whatever the number is
    rw [div_eq hx hy] at h
    exact (isCanonical_of_staged h).1

/-- The decimal is a product or a quotient. -/
def IsResult (d : Decimal) : Prop :=
  ∃ x y : Decimal, x.mul y = .ok d ∨ x.div y = .ok d

theorem IsResult.isCanonical (h : d.IsResult) : d.IsCanonical := by
  obtain ⟨x, y, hmul | hdiv⟩ := h
  · exact (isCanonical_and_toRat_of_mul hmul).1
  · exact isCanonical_of_div hdiv

/-- **A number has one normal form.** Products are exact. Taking zeros from the end of a coefficient
comes to an end, and the normal form is the decimal at which it does; only where zeros are left under
the greatest exponent there is none. The normal form is the same number, its own normal form, and
zero with the exponent zero or a coefficient that ten does not divide. So decimals that have normal
forms are equal if and only if these are the same in both parts, and products and quotients are
equal only if they are the same. -/
theorem normal_form_unique :
    (∀ x y r : Decimal, x.mul y = .ok r → r.toRat = x.toRat * y.toRat) ∧
    (WellFounded fun r d => StripsZero d r) ∧
    (∀ d : Decimal, d.coeff = 0 → d.canonical = .ok zero) ∧
    (∀ d : Decimal, d.coeff ≠ 0 → ∃ last, StripsTo d last ∧
      d.canonical = if 10 ∣ last.coeff then .error .exponentOutOfRange else .ok last) ∧
    (∀ d r : Decimal, d.canonical = .ok r →
      r.toRat = d.toRat ∧ r.canonical = .ok r ∧ ((r.coeff = 0 ∧ r.exp = 0) ∨ ¬10 ∣ r.coeff)) ∧
    (∀ x y r s : Decimal, x.canonical = .ok r → y.canonical = .ok s →
      (x.equal y = true ↔ r.coeff = s.coeff ∧ r.exp = s.exp)) ∧
    ∀ r s : Decimal, r.IsResult → s.IsResult → r.equal s = true →
      r.coeff = s.coeff ∧ r.exp = s.exp := by
  refine ⟨fun x y r h => (isCanonical_and_toRat_of_mul h).2, wellFounded_stripsZero,
    fun d hd => if_pos hd, fun d hd => ?_, fun d r h => ?_,
    fun x y r s hx hy => equal_iff_of_canonical hx hy, fun r s hr hs heq => ?_⟩
  · obtain ⟨last, hlast⟩ := exists_stripsTo d
    exact ⟨last, hlast, hlast.canonical_eq hd⟩
  · obtain ⟨hcanonical, hrat⟩ := canonical_eq_ok_iff.1 h
    exact ⟨hrat, canonical_of_canonical h, hcanonical.parts⟩
  · exact (equal_iff_of_isCanonical hr.isCanonical hs.isCanonical).1 heq

/-- The product `-0.1250 * 800` and the quotient `300 / -3` are both `-1*10^2`, and the factor
`-0.1250` is equal to its normal form `-0.125`. -/
theorem product_same_as_quotient :
    ∃ x c r q : Decimal, x.coeff = -1250 ∧ x.exp = -4 ∧ x.canonical = .ok c ∧
      x.mul (.ofInt 800) = .ok r ∧ (ofInt 300).div (.ofInt (-3)) = .ok q ∧ r.equal q = true ∧
      c.coeff = -125 ∧ c.exp = -3 ∧ r.toRat = x.toRat * (ofInt 800).toRat ∧
      r.coeff = q.coeff ∧ r.exp = q.exp ∧ r.canonical = .ok r ∧ x.equal c = true := by
  have hx : (Decimal.mk (-1250) (-4)).canonical = .ok (.mk (-125) (-3)) := by
    decide +kernel
  have hmul : (Decimal.mk (-1250) (-4)).mul (.ofInt 800) = .ok (.mk (-1) 2) := by
    decide +kernel
  have hdiv : (ofInt 300).div (.ofInt (-3)) = .ok (.mk (-1) 2) := by
    decide +kernel
  have hsame : (Decimal.mk (-1) 2).equal (.mk (-1) 2) = true := by
    decide +kernel
  have hproduct : (Decimal.mk (-1) 2).canonical = .ok (.mk (-1) 2) := by
    decide +kernel
  obtain ⟨hexact, -, -, -, hnormal, hequal, hresults⟩ := normal_form_unique
  obtain ⟨hcoeff, hexp⟩ := hresults _ _ ⟨_, _, .inl hmul⟩ ⟨_, _, .inr hdiv⟩ hsame
  exact ⟨_, _, _, _, rfl, rfl, hx, hmul, hdiv, hsame, rfl, rfl, hexact _ _ _ hmul, hcoeff, hexp,
    (hnormal _ _ hproduct).2.1, (hequal _ _ _ _ hx (hnormal _ _ hx).2.1).2 ⟨rfl, rfl⟩⟩

end DecimalScript.Decimal
