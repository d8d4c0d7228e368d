import Mathlib.Algebra.BigOperators.Group.List.Basic
import Mathlib.Order.Bounds.Basic
import DecimalScript.Proofs.Decimal.Value

/-!
# Sums

A sum is the exact sum over the smaller of the two exponents, and a difference likewise. The distance
of two exponents has 32 bits, so a power of ten whose exponent is capped there is the same
(`cappedPow10_distance`).

A decimal is determined by its number and its exponent (`ext_toRat`), and the sum of the numbers and
the least of the exponents do not depend on the order of the summands. So the sum of decimals does
not either, down to the coefficient and the exponent (`foldl_add_perm`).
-/

namespace DecimalScript.Decimal

variable {x y : Decimal}

/-- A decimal is determined by its number and its exponent. -/
theorem ext_toRat (hrat : x.toRat = y.toRat) (hexp : x.exp = y.exp) : x = y := by
  obtain ⟨c, e, _, _⟩ := x
  obtain ⟨c', e', _, _⟩ := y
  obtain rfl : e = e' := hexp
  rw [toRat, toRat, mul_left_inj' (ten_zpow_pos e).ne'] at hrat
  obtain rfl : c = c' := by exact_mod_cast hrat
  rfl

/-! ### Sums and differences are exact -/

theorem toRat_add (x y : Decimal) : (x.add y).toRat = x.toRat + y.toRat := by
  rw [← scaledTo_mul_zpow (min_le_left x.exp y.exp), ← scaledTo_mul_zpow (min_le_right x.exp y.exp),
    ← add_mul, ← Int.cast_add]
  rfl

theorem toRat_sub (x y : Decimal) : (x.sub y).toRat = x.toRat - y.toRat := by
  rw [← scaledTo_mul_zpow (min_le_left x.exp y.exp), ← scaledTo_mul_zpow (min_le_right x.exp y.exp),
    ← sub_mul, ← Int.cast_sub]
  rfl

theorem exp_add (x y : Decimal) : (x.add y).exp = min x.exp y.exp := rfl

/-- The distance of two exponents has 32 bits. -/
theorem distance_le (x y : Decimal) : (x.exp - min x.exp y.exp).toNat ≤ 4294967295 := by
  have := x.exp_le_greatest
  have := y.least_le_exp
  omega

theorem cappedPow10_distance (x y : Decimal) :
    cappedPow10 (x.exp - min x.exp y.exp).toNat = pow10 (x.exp - min x.exp y.exp).toNat := by
  rw [cappedPow10, min_eq_left (distance_le x y)]

/-- What an addition and a subtraction multiply a coefficient with is not capped. -/
theorem scaledTo_min (x y : Decimal) :
    x.scaledTo (min x.exp y.exp) = x.coeff * cappedPow10 (x.exp - min x.exp y.exp).toNat := by
  rw [scaledTo, cappedPow10_distance]

/-! ### Sums do not depend on the order -/

protected theorem add_comm (x y : Decimal) : x.add y = y.add x := by
  refine ext_toRat ?_ (min_comm _ _)
  rw [toRat_add, toRat_add, add_comm]

protected theorem add_assoc (x y z : Decimal) : (x.add y).add z = x.add (y.add z) := by
  refine ext_toRat ?_ (min_assoc _ _ _)
  simp only [toRat_add, add_assoc]

theorem toRat_foldl_add (first : Decimal) (ds : List Decimal) :
    (ds.foldl add first).toRat = ((first :: ds).map toRat).sum := by
  induction ds generalizing first with
  | nil => simp
  | cons d ds ih => simp [ih, toRat_add, add_assoc]

/-- The exponent of a sum is the least exponent of its summands. -/
theorem isLeast_exp_foldl_add (first : Decimal) (ds : List Decimal) :
    IsLeast {e | ∃ d ∈ first :: ds, d.exp = e} (ds.foldl add first).exp := by
  induction ds generalizing first with
  | nil => exact ⟨⟨first, List.mem_cons_self, rfl⟩, by simp [lowerBounds]⟩
  | cons d ds ih =>
    -- the sum of the first two stands in their place, with the lesser of their exponents
    obtain ⟨⟨x, hx, hexp⟩, hleast⟩ := ih (first.add d)
    have hpair := hleast ⟨_, List.mem_cons_self, rfl⟩
    rw [exp_add, le_min_iff] at hpair
    constructor
    · obtain rfl | hx := List.mem_cons.1 hx
      · obtain hfirst | hd := min_choice first.exp d.exp
        · exact ⟨first, List.mem_cons_self, hfirst.symm.trans hexp⟩
        · exact ⟨d, List.mem_cons_of_mem _ List.mem_cons_self, hd.symm.trans hexp⟩
      · exact ⟨x, List.mem_cons_of_mem _ (List.mem_cons_of_mem _ hx), hexp⟩
    · rintro e ⟨y, hy, rfl⟩
      obtain rfl | hy := List.mem_cons.1 hy
      · exact hpair.1
      · obtain rfl | hy := List.mem_cons.1 hy
        · exact hpair.2
        · exact hleast ⟨y, List.mem_cons_of_mem _ hy, rfl⟩

/-- The sum of the same decimals in another order is the same decimal. -/
theorem foldl_add_perm {first other : Decimal} {ds others : List Decimal}
    (h : (first :: ds).Perm (other :: others)) : ds.foldl add first = others.foldl add other := by
  -- sums for one number over one exponent are the same decimal
  refine ext_toRat ?_ ?_
  · rw [toRat_foldl_add, toRat_foldl_add]
    exact (h.map toRat).sum_eq
  · -- the least exponent is a property of the summands, not of their order
    have hleast := isLeast_exp_foldl_add other others
    simp only [← h.mem_iff] at hleast
    exact (isLeast_exp_foldl_add first ds).unique hleast

end DecimalScript.Decimal
