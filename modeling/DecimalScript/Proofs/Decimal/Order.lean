import DecimalScript.Proofs.Decimal.Canonical

/-!
# The order of decimals as a total order

Since two decimals compare as the numbers that they stand for, what holds of the order of the
numbers holds of theirs: it can be turned around and it is transitive (`Std.TransCmp Decimal.cmp`).
It is not an order of the decimals themselves, for a number has many of them. Two decimals are equal
in it if and only if one of them is the other with zeros written behind its coefficient
(`cmp_eq_eq_iff_addsZeros`), and all the zeros are equal.
-/

namespace DecimalScript.Decimal

variable {x y z : Decimal}

/-- `y` is `x` with zeros written behind its coefficient. -/
def AddsZeros (x y : Decimal) : Prop :=
  ∃ k : ℕ, y.coeff = x.coeff * 10 ^ k ∧ y.exp + k = x.exp

theorem cmp_swap (x y : Decimal) : x.cmp y = (y.cmp x).swap := by
  -- the order of decimals is the order of their numbers, which is symmetric
  rw [cmp_eq_compare_toRat, cmp_eq_compare_toRat]
  exact Std.OrientedCmp.eq_swap

theorem isLE_cmp_iff : (x.cmp y).isLE = true ↔ x.toRat ≤ y.toRat := by
  rw [cmp_eq_compare_toRat, ← Ordering.ne_gt_iff_isLE]
  exact compare_le_iff_le

instance : Std.TransCmp cmp where
  eq_swap := cmp_swap _ _
  isLE_trans hxy hyz := isLE_cmp_iff.2 ((isLE_cmp_iff.1 hxy).trans (isLE_cmp_iff.1 hyz))

/-! ### Equal decimals -/

theorem cmp_eq_eq_iff : x.cmp y = .eq ↔ x.toRat = y.toRat := by
  rw [cmp_eq_compare_toRat, compare_eq_iff_eq]

theorem AddsZeros.toRat_eq (h : AddsZeros x y) : y.toRat = x.toRat := by
  obtain ⟨k, hcoeff, hexp⟩ := h
  rw [toRat, toRat, hcoeff, ← hexp, zpow_add₀ (by norm_num), zpow_natCast]
  push_cast
  ring

/-- Of two decimals for one number, the one with the smaller exponent has more zeros. -/
theorem addsZeros_of_toRat_eq (h : x.toRat = y.toRat) (hexp : y.exp ≤ x.exp) : AddsZeros x y := by
  obtain ⟨k, hk⟩ := Int.le.dest hexp
  refine ⟨k, ?_, hk⟩
  -- over the smaller exponent both coefficients stand for the same number
  rw [toRat, toRat, ← hk, zpow_add₀ (by norm_num), zpow_natCast, mul_comm (10 ^ y.exp), ← mul_assoc,
    mul_left_inj' (ten_zpow_pos y.exp).ne'] at h
  exact_mod_cast h.symm

theorem cmp_eq_eq_iff_addsZeros : x.cmp y = .eq ↔ AddsZeros x y ∨ AddsZeros y x := by
  rw [cmp_eq_eq_iff]
  constructor
  · intro h
    -- whichever exponent is the smaller one, its decimal is the one with more zeros
    rcases le_total y.exp x.exp with hexp | hexp
    · exact .inl (addsZeros_of_toRat_eq h hexp)
    · exact .inr (addsZeros_of_toRat_eq h.symm hexp)
  · rintro (h | h)
    · exact h.toRat_eq.symm
    · exact h.toRat_eq

/-- Whatever its exponent, a zero is equal to the zeros and to nothing else. -/
theorem cmp_eq_eq_iff_of_zero (hx : x.coeff = 0) : x.cmp y = .eq ↔ y.coeff = 0 := by
  rw [cmp_eq_eq_iff, toRat_eq_zero_iff.2 hx, eq_comm, toRat_eq_zero_iff]

end DecimalScript.Decimal
