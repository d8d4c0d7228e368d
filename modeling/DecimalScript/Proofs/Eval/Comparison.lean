import DecimalScript.Eval.Run
import DecimalScript.Proofs.Decimal.Order

/-!
# Comparisons of decimals

Of the six comparisons the evaluator has equality, below and above; the other three are their
negations. Where both operands are decimals each of the six asks for the relation of the numbers
that it is named for (`LogicOp.relation?`). For "at most" and "at least" that needs an order that is
total, since they are computed as "not above" and "not below".

Main result: `comparisons_are_numeric`.
-/

namespace DecimalScript

/-- The relation of numbers that a comparison asks for; a connective compares nothing. -/
def LogicOp.relation? : LogicOp → Option (ℚ → ℚ → Prop)
  | eq => some fun p q => p = q
  | notEq => some fun p q => p ≠ q
  | lt => some fun p q => p < q
  | ltEq => some fun p q => p ≤ q
  | gt => some fun p q => p > q
  | gtEq => some fun p q => p ≥ q
  | and | or => none

variable {op : LogicOp} {rel : ℚ → ℚ → Prop} {x y : Decimal}

theorem Decimal.less_iff_toRat_lt : x.less y = true ↔ x.toRat < y.toRat := by
  rw [less, beq_iff_eq, cmp_eq_compare_toRat, compare_lt_iff_lt]

theorem Heap.equal_dec (heap : Heap) (x y : Decimal) :
    heap.equal (.dec x) (.dec y) = x.equal y := by
  have hcompare : heap.compareTop (.dec x) (.dec y) =
      if x.equal y then .alike else .different := rfl
  rw [Heap.equal, equalFrom]
  split <;> grind [equalFrom]

/-- On decimals every comparison has an answer, and it is that of the numbers. -/
theorem compareValues_dec (hrel : op.relation? = some rel) (x y : Decimal) (heap : Heap) :
    ∃ b, compareValues op (.dec x) (.dec y) heap = .ok b ∧ (b = true ↔ rel x.toRat y.toRat) := by
  -- the order is the order of the numbers, and each operator asks for it or for its negation
  cases op with
  | and | or => cases hrel
  | eq =>
    cases hrel
    refine ⟨_, rfl, ?_⟩
    rw [Heap.equal_dec, Decimal.equal_iff_toRat_eq]
  | notEq =>
    cases hrel
    refine ⟨_, rfl, ?_⟩
    rw [Heap.equal_dec, Bool.not_eq_true', ← Bool.not_eq_true, Decimal.equal_iff_toRat_eq]
  | lt =>
    cases hrel
    exact ⟨_, rfl, Decimal.less_iff_toRat_lt⟩
  | gt =>
    cases hrel
    exact ⟨_, rfl, Decimal.less_iff_toRat_lt⟩
  | ltEq =>
    cases hrel
    refine ⟨_, rfl, ?_⟩
    rw [Bool.not_eq_true', ← Bool.not_eq_true, Decimal.less_iff_toRat_lt, not_lt]
  | gtEq =>
    cases hrel
    refine ⟨_, rfl, ?_⟩
    rw [Bool.not_eq_true', ← Bool.not_eq_true, Decimal.less_iff_toRat_lt, not_lt]

/-- A comparison evaluates its operands from left to right and then compares. -/
theorem evalLogic_of_relation (nested : Nested) (hrel : op.relation? = some rel)
    (left right : Expr) :
    evalLogic nested op left right = do
      let v ← nested.eval left
      let w ← nested.eval right
      return .bool (← Exec.ofExcept
        (← Exec.read fun session => compareValues op v w session.heap)) := by
  cases op with
  | and | or => cases hrel
  | eq | notEq | lt | ltEq | gt | gtEq => rfl

theorem run_evalLogic_dec (nested : Nested) {left right : Expr} {s t u : Session}
    (hrel : op.relation? = some rel) (hleft : (nested.eval left).run s = .done (.dec x) t)
    (hright : (nested.eval right).run t = .done (.dec y) u) :
    ∃ b, (evalLogic nested op left right).run s = .done (.bool b) u ∧
      (b = true ↔ rel x.toRat y.toRat) := by
  -- the operands are evaluated from left to right, and the values compared in the last heap
  obtain ⟨b, hcompare, hb⟩ := compareValues_dec hrel x y u.heap
  refine ⟨b, ?_, hb⟩
  rw [evalLogic_of_relation nested hrel, Exec.run_bind, hleft]
  simp only [Exec.run_bind, hright, Exec.run_read, hcompare]
  rfl

/-- **Decimals compare as the numbers that they stand for.** So their order is total, decimals are
equal in it up to zeros at the end of the coefficient and the exponent of a zero, and each of the
six comparisons of two operands that evaluate to decimals yields whether the numbers are in the
relation that it is named for. -/
theorem comparisons_are_numeric :
    (∀ x y : Decimal, x.cmp y = compare x.toRat y.toRat) ∧
    Std.TransCmp Decimal.cmp ∧
    (∀ x y : Decimal, x.cmp y = .eq ↔ x.AddsZeros y ∨ y.AddsZeros x) ∧
    (∀ x y : Decimal, x.coeff = 0 → (x.cmp y = .eq ↔ y.coeff = 0)) ∧
    ∀ (fuel : Nat) (op : LogicOp) (rel : ℚ → ℚ → Prop) (left right : Expr) (x y : Decimal)
      (s t u : Session), op.relation? = some rel →
      (evalExpr fuel left).run s = .done (.dec x) t →
      (evalExpr fuel right).run t = .done (.dec y) u →
      ∃ b, (evalExpr (fuel + 1) (.logic op left right)).run s = .done (.bool b) u ∧
        (b = true ↔ rel x.toRat y.toRat) :=
  ⟨Decimal.cmp_eq_compare_toRat, inferInstance, fun _ _ => Decimal.cmp_eq_eq_iff_addsZeros,
    fun _ _ => Decimal.cmp_eq_eq_iff_of_zero, fun fuel _ _ _ _ _ _ _ _ _ hrel hleft hright =>
      run_evalLogic_dec (nestedWith fuel) hrel hleft hright⟩

/-- Numbers four billion powers of ten apart are compared without either being written out. -/
theorem distant_numbers_compared :
    (evalExpr 2 (.logic .ltEq (.number "-1E2000000000") (.number "1E-2000000000"))).run
      (.fresh .empty .empty) = .done (.bool true) (.fresh .empty .empty) := by
  have hleft : Decimal.parse "-1E2000000000" = .ok ⟨-1, 2000000000, by decide, by decide⟩ := rfl
  have hright : Decimal.parse "1E-2000000000" = .ok ⟨1, -2000000000, by decide, by decide⟩ := rfl
  obtain ⟨b, hrun, hb⟩ := comparisons_are_numeric.2.2.2.2 1 .ltEq _ _ _ _ _ (.fresh .empty .empty) _
    _ rfl (run_evalExpr_number hleft 0 _) (run_evalExpr_number hright 0 _)
  have htrue : b = true :=
    hb.2 ((Decimal.toRat_neg_iff.2 (by decide)).trans (Decimal.toRat_pos_iff.2 (by decide))).le
  rwa [htrue] at hrun

end DecimalScript
