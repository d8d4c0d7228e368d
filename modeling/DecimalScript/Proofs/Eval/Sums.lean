import DecimalScript.Eval.Run
import DecimalScript.Proofs.Decimal.Sum
import DecimalScript.Proofs.Eval.Folds

/-!
# Sums of arrays and arguments

The property `sum` of an array and the function `add` fold decimals with the exact sum, which never
fails, so both have a result for any decimals, and of the same decimals in any order they have the
same one.

Main result: `sums_exact_in_any_order`.
-/

namespace DecimalScript

variable {callee : String} {first : Decimal} {ds : List Decimal}

theorem foldDecimals_add (callee : String) (first : Decimal) (ds : List Decimal) :
    foldDecimals callee .add ((first :: ds).map .dec) = .ok (ds.foldl Decimal.add first) := by
  rw [foldDecimals_map_dec]
  exact List.foldlM_pure

theorem run_getProperty_sum {addr : Nat} {s : Session}
    (hitems : s.heap.items addr = (first :: ds).map .dec) (nested : Nested) :
    (getProperty nested (.array addr) "sum").run s =
      .done (.dec (ds.foldl Decimal.add first)) s := by
  -- the property is found by its name, and its value is the fold of the items
  have hsum : Heap.arrayProperty (s.heap.items addr) "sum" =
      .ok (.dec (ds.foldl Decimal.add first)) := by
    rw [hitems, Heap.arrayProperty, foldDecimals_add]
    rfl
  have hproperty : s.heap.property (.array addr) "sum" =
      .ok (.value (.dec (ds.foldl Decimal.add first)), s.heap) := by
    rw [Heap.property, hsum]
    rfl
  exact run_getProperty_of_value hproperty

theorem run_runNative_add (first : Decimal) (ds : List Decimal) (s : Session) :
    (runNative .add ((first :: ds).map .dec)).run s =
      .done (.dec (ds.foldl Decimal.add first)) s :=
  (run_nativeFold .add .add _ s).1 _ (foldDecimals_add _ first ds)

/-- **Sums are exact and do not depend on the order.** A sum and a difference are the exact ones over
the smaller exponent, and the powers of ten that they take are none that would be capped at 32 bits.
Addition is commutative and associative on the decimals themselves. So the property `sum` of an
array and the function `add` give the same decimal for every order of the same decimals: the exact
sum over the least exponent. -/
theorem sums_exact_in_any_order :
    (∀ x y : Decimal, (x.add y).toRat = x.toRat + y.toRat ∧
      (x.sub y).toRat = x.toRat - y.toRat ∧
      (x.add y).exp = min x.exp y.exp ∧ (x.sub y).exp = min x.exp y.exp) ∧
    (∀ x y : Decimal, (x.exp - min x.exp y.exp).toNat ≤ 4294967295 ∧
      (y.exp - min x.exp y.exp).toNat ≤ 4294967295 ∧
      (x.add y).coeff = x.coeff * Decimal.cappedPow10 (x.exp - min x.exp y.exp).toNat +
        y.coeff * Decimal.cappedPow10 (y.exp - min x.exp y.exp).toNat ∧
      (x.sub y).coeff = x.coeff * Decimal.cappedPow10 (x.exp - min x.exp y.exp).toNat -
        y.coeff * Decimal.cappedPow10 (y.exp - min x.exp y.exp).toNat) ∧
    (∀ x y : Decimal, x.add y = y.add x) ∧
    (∀ x y z : Decimal, (x.add y).add z = x.add (y.add z)) ∧
    ∀ ds : List Decimal, ds ≠ [] → ∃ total : Decimal,
      total.toRat = (ds.map Decimal.toRat).sum ∧
      IsLeast {e | ∃ d ∈ ds, d.exp = e} total.exp ∧
      ∀ reordered, ds.Perm reordered →
        (∀ nested addr s, s.heap.items addr = reordered.map .dec →
          (getProperty nested (.array addr) "sum").run s = .done (.dec total) s) ∧
        ∀ s, (runNative .add (reordered.map .dec)).run s = .done (.dec total) s := by
  refine ⟨fun x y => ⟨Decimal.toRat_add x y, Decimal.toRat_sub x y, rfl, rfl⟩, fun x y => ?_,
    Decimal.add_comm, Decimal.add_assoc, fun ds hds => ?_⟩
  · -- the distances are not above the cap, so the coefficients are scaled in full
    have hx := Decimal.scaledTo_min x y
    have hy := Decimal.scaledTo_min y x
    rw [min_comm] at hy
    refine ⟨Decimal.distance_le x y, ?_, ?_, ?_⟩
    · rw [min_comm]
      exact Decimal.distance_le y x
    · rw [← hx, ← hy]
      rfl
    · rw [← hx, ← hy]
      rfl
  · obtain ⟨first, ds, rfl⟩ := List.exists_cons_of_ne_nil hds
    refine ⟨ds.foldl Decimal.add first, Decimal.toRat_foldl_add first ds,
      Decimal.isLeast_exp_foldl_add first ds, fun reordered hperm => ?_⟩
    -- the sum of the other order starts from another first decimal
    cases reordered with
    | nil => exact absurd hperm.eq_nil hds
    | cons other others =>
      rw [Decimal.foldl_add_perm hperm]
      exact ⟨fun nested addr s hitems => run_getProperty_sum hitems nested,
        run_runNative_add other others⟩

/-- The sum of `1`, `-3*10^2` and `2.250` keeps the zero of the last summand in every order, here in
one that begins with it. -/
theorem zero_kept_in_any_order : ∃ x y total : Decimal,
    x.coeff = 2250 ∧ x.exp = -3 ∧ y.coeff = -3 ∧ y.exp = 2 ∧
      total.coeff = -296750 ∧ total.exp = -3 ∧ ∃ s,
        s.heap.items 0 = [x, .ofInt 1, y].map .dec ∧
        (getProperty (nestedWith 0) (.array 0) "sum").run s = .done (.dec total) s ∧
        (runNative .add ([.ofInt 1, y, x].map .dec)).run s = .done (.dec total) s := by
  let ds : List Decimal := [.ofInt 1, .mk (-3) 2, .mk 2250 (-3)]
  let reordered : List Decimal := [.mk 2250 (-3), .ofInt 1, .mk (-3) 2]
  let s := Session.fresh (Heap.empty.newArray (reordered.map .dec)).2 .empty
  have hperm : ds.Perm reordered := by decide
  have hitems : s.heap.items 0 = reordered.map .dec := rfl
  obtain ⟨-, -, -, -, hlists⟩ := sums_exact_in_any_order
  obtain ⟨total, hrat, hleast, hany⟩ := hlists ds (by decide)
  -- the least exponent is that of the summand with three places
  have hexp : total.exp = -3 := by
    refine hleast.unique ⟨⟨.mk 2250 (-3), by decide, rfl⟩, ?_⟩
    rintro e ⟨d, hd, rfl⟩
    simp only [ds, List.mem_cons, List.not_mem_nil, or_false] at hd
    obtain rfl | rfl | rfl := hd <;> decide
  have htotal : total = .mk (-296750) (-3) := by
    refine Decimal.ext_toRat ?_ hexp
    rw [hrat]
    norm_num [ds, Decimal.toRat, Decimal.ofInt]
  exact ⟨.mk 2250 (-3), .mk (-3) 2, total, rfl, rfl, rfl, rfl, htotal ▸ rfl, hexp, s, hitems,
    (hany _ hperm).1 _ _ _ hitems, (hany _ (.refl _)).2 s⟩

end DecimalScript
