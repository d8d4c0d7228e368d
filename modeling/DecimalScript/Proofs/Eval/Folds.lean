import DecimalScript.Eval.Call
import DecimalScript.Proofs.Decimal.Range

/-!
# Folds of values that are not all decimals

The arithmetic functions and the arithmetic properties of arrays ask for decimals, but they ask for
each of them only when the fold reaches it (`foldFrom_append`). So the first value of another type
is reported unless the fold of the decimals before it fails; then the failure of that step is. Sums
and differences do not fail, so there the value is always reported; behind a division by zero or a
result out of range it is not (`zero_divisor_hides_string`).

Main result: `folds_check_when_reached`.
-/

namespace DecimalScript

/-- The fold of decimals from the left stops at one of them: those before it have a result, and the
step from that result fails. -/
def ArithOp.StopsWith (op : ArithOp) (ds : List Decimal) (cause : Cause) : Prop :=
  ∃ first before acc d after, ds = first :: before ++ d :: after ∧
    before.foldlM op.apply first = .ok acc ∧ op.apply acc d = .error cause

variable {callee : String} {op : ArithOp} {cause : Cause}

/-! ### Folds of decimals -/

theorem ArithOp.apply_error {x y : Decimal} (h : op.apply x y = .error cause) :
    (op = .mul ∨ op = .div) ∧ (cause = .divisionByZero ∨ cause = .exponentOutOfRange) := by
  cases op with
  | add => cases h
  | sub => cases h
  | mul => exact ⟨.inl rfl, .inr (Decimal.mul_eq_error_iff.1 h).1⟩
  | div => exact ⟨.inr rfl, (Decimal.cause_of_div h).imp And.left And.left⟩

theorem ArithOp.StopsWith.apply_error {ds : List Decimal} (h : op.StopsWith ds cause) :
    (op = .mul ∨ op = .div) ∧ (cause = .divisionByZero ∨ cause = .exponentOutOfRange) := by
  obtain ⟨_, _, _, _, _, -, -, hstep⟩ := h
  exact ArithOp.apply_error hstep

theorem ArithOp.not_stopsWith_nil : ¬op.StopsWith [] cause := by
  rintro ⟨first, before, acc, d, after, hds, -⟩
  cases hds

/-- A fold fails as its first step that fails does. -/
theorem foldlM_apply_eq_error_iff {ds : List Decimal} {acc : Decimal} :
    ds.foldlM op.apply acc = .error cause ↔
      ∃ before next d after, ds = before ++ d :: after ∧
        before.foldlM op.apply acc = .ok next ∧ op.apply next d = .error cause := by
  -- on the decimals, with any accumulated value
  induction ds generalizing acc with
  | nil => simp [pure, Except.pure]
  | cons x ds ih =>
    rw [List.foldlM_cons]
    constructor
    · intro h
      cases hstep : op.apply acc x with
      | error c =>
        -- the very first step fails
        rw [hstep] at h
        cases h
        exact ⟨[], acc, x, ds, rfl, rfl, hstep⟩
      | ok next =>
        rw [hstep] at h
        obtain ⟨before, last, d, after, rfl, hbefore, hfail⟩ := ih.1 h
        refine ⟨x :: before, last, d, after, rfl, ?_, hfail⟩
        rw [List.foldlM_cons, hstep]
        exact hbefore
    · -- the failing step is the first one, or it lies among the rest and the first one has a result
      rintro ⟨before, last, d, after, hds, hbefore, hfail⟩
      rcases List.cons_eq_append_iff.1 hds with ⟨rfl, hrest⟩ | ⟨before, rfl, rfl⟩
      · cases hrest
        cases hbefore
        rw [hfail]
        rfl
      · rw [List.foldlM_cons] at hbefore
        cases hstep : op.apply acc x with
        | error c =>
          rw [hstep] at hbefore
          cases hbefore
        | ok next =>
          rw [hstep] at hbefore
          exact ih.2 ⟨before, last, d, after, rfl, hbefore, hfail⟩

theorem ArithOp.stopsWith_cons_iff {first : Decimal} {ds : List Decimal} :
    op.StopsWith (first :: ds) cause ↔ ds.foldlM op.apply first = .error cause := by
  rw [foldlM_apply_eq_error_iff]
  -- the first decimal is the accumulated value with which the fold begins
  constructor
  · rintro ⟨_, before, acc, d, after, hds, h⟩
    cases hds
    exact ⟨before, acc, d, after, rfl, h⟩
  · rintro ⟨before, acc, d, after, rfl, h⟩
    exact ⟨first, before, acc, d, after, rfl, h⟩

/-! ### Folds of values -/

theorem decimalAt_eq_error {v : Value} (hv : ∀ d, v ≠ .dec d) (index : ℕ) :
    decimalAt callee index v = .error (.wrongArgument callee (index + 1) "decimal" v.typeName) := by
  cases v with
  | dec d => exact absurd rfl (hv d)
  | null | bool | str | array | map | func | object => rfl

/-- A fold comes to the values behind some decimals with the result of the fold of these. -/
theorem foldFrom_append (callee : String) (op : ArithOp) (acc : Decimal) (index : ℕ)
    (ds : List Decimal) (values : List Value) :
    foldFrom callee op acc index (ds.map .dec ++ values) =
      ds.foldlM op.apply acc >>= fun acc => foldFrom callee op acc (index + ds.length) values := by
  -- on the decimals, the indices of which are counted on
  induction ds generalizing acc index with
  | nil => rfl
  | cons d ds ih =>
    have hstep : foldFrom callee op acc index ((d :: ds).map .dec ++ values) =
        op.apply acc d >>= fun acc =>
          foldFrom callee op acc (index + 1) (ds.map .dec ++ values) := rfl
    rw [hstep, List.foldlM_cons, bind_assoc, List.length_cons]
    simp only [ih, Nat.add_assoc, Nat.add_comm 1]

theorem foldDecimals_map_dec (first : Decimal) (ds : List Decimal) :
    foldDecimals callee op ((first :: ds).map .dec) = ds.foldlM op.apply first := by
  have hfrom := foldFrom_append callee op first 1 ds []
  rw [List.append_nil] at hfrom
  exact hfrom.trans (bind_pure _)

/-- Behind some decimals a value of another type is reported as the next argument, unless the fold
of the decimals fails. -/
theorem foldDecimals_append_cons {v : Value} (hv : ∀ d, v ≠ .dec d) (first : Decimal)
    (ds : List Decimal) (rest : List Value) :
    foldDecimals callee op ((first :: ds).map .dec ++ v :: rest) =
      ds.foldlM op.apply first >>= fun _ =>
        .error (.wrongArgument callee (ds.length + 2) "decimal" v.typeName) := by
  -- the fold gets as far as the value that is no decimal, and fails there with its place
  have hfrom := foldFrom_append callee op first 1 ds (v :: rest)
  have hstop (acc : Decimal) : foldFrom callee op acc (1 + ds.length) (v :: rest) =
      .error (.wrongArgument callee (ds.length + 2) "decimal" v.typeName) := by
    rw [foldFrom, decimalAt_eq_error hv, Nat.add_comm 1]
    rfl
  simp only [hstop] at hfrom
  exact hfrom

/-- Where the fold of some decimals stops, the values behind them do not matter. -/
theorem foldDecimals_of_stopsWith {ds : List Decimal} (h : op.StopsWith ds cause)
    (values : List Value) : foldDecimals callee op (ds.map .dec ++ values) = .error cause := by
  cases ds with
  | nil => exact absurd h ArithOp.not_stopsWith_nil
  | cons first ds =>
    have hfrom := foldFrom_append callee op first 1 ds values
    rw [ArithOp.stopsWith_cons_iff.1 h] at hfrom
    exact hfrom

/-- A value of another type is reported if and only if the fold of the decimals before it does not
stop. -/
theorem foldDecimals_reports_iff {ds : List Decimal} {v : Value} (hv : ∀ d, v ≠ .dec d)
    (rest : List Value) :
    foldDecimals callee op (ds.map .dec ++ v :: rest) =
        .error (.wrongArgument callee (ds.length + 1) "decimal" v.typeName) ↔
      ∀ cause, ¬op.StopsWith ds cause := by
  constructor
  · intro h cause hstop
    -- no step fails with a report of an argument
    rw [foldDecimals_of_stopsWith hstop, Except.error.injEq] at h
    obtain ⟨-, rfl | rfl⟩ := hstop.apply_error <;> cases h
  · intro hgo
    cases ds with
    | nil =>
      have hstart : foldDecimals callee op (v :: rest) =
          decimalAt callee 0 v >>= fun first => foldFrom callee op first 1 rest := rfl
      rw [List.map_nil, List.nil_append, hstart, decimalAt_eq_error hv]
      rfl
    | cons first ds =>
      rw [foldDecimals_append_cons hv]
      cases hfold : ds.foldlM op.apply first with
      | ok _ => rfl
      | error cause => exact absurd (ArithOp.stopsWith_cons_iff.2 hfold) (hgo cause)

theorem run_nativeFold (fn : Native) (op : ArithOp) (args : List Value) (s : Session) :
    (∀ d, foldDecimals fn.name op args = .ok d → (nativeFold fn op args).run s = .done (.dec d) s) ∧
    ∀ cause, foldDecimals fn.name op args = .error cause →
      (nativeFold fn op args).run s = .failed (.ofCause cause) s := by
  -- no native fold looks at the session
  constructor
  · intro d h
    rw [nativeFold, h]
    rfl
  · intro cause h
    rw [nativeFold, h]
    rfl

/-- **A fold asks for a decimal when it reaches it.** Decimals are folded from the left, and the
fold fails as its first step that fails does. The first value of another type is reported if and
only if no step before it fails, which is always so for sums and differences; a step that fails
before it is reported in its place. The arithmetic properties of arrays and the arithmetic functions
are such folds. -/
theorem folds_check_when_reached (callee : String) (op : ArithOp) :
    (foldDecimals callee .add [] = .ok .zero ∧ foldDecimals callee .mul [] = .ok .one ∧
      foldDecimals callee .sub [] = .error (.argumentsTooFew callee 1 0) ∧
      foldDecimals callee .div [] = .error (.argumentsTooFew callee 1 0)) ∧
    (∀ first ds, foldDecimals callee op ((first :: ds).map .dec) = ds.foldlM op.apply first ∧
      ∀ cause, ds.foldlM op.apply first = .error cause ↔ op.StopsWith (first :: ds) cause) ∧
    (∀ ds v rest, (∀ d, v ≠ .dec d) →
      (foldDecimals callee op (ds.map .dec ++ v :: rest) =
          .error (.wrongArgument callee (ds.length + 1) "decimal" v.typeName) ↔
        ∀ cause, ¬op.StopsWith ds cause) ∧
      ∀ cause, op.StopsWith ds cause →
        foldDecimals callee op (ds.map .dec ++ v :: rest) = .error cause) ∧
    (op = .add ∨ op = .sub → ∀ ds cause, ¬op.StopsWith ds cause) ∧
    (∀ property op items,
      (property, op) ∈ [("sum", .add), ("diff", .sub), ("product", .mul), ("quotient", .div)] →
      Heap.arrayProperty items property = (foldDecimals property op items).map .dec) ∧
    ∀ fn op args s,
      (fn, op) ∈ [(Native.add, .add), (.sub, .sub), (.mul, .mul), (.div, .div)] →
      (∀ d, foldDecimals fn.name op args = .ok d → (runNative fn args).run s = .done (.dec d) s) ∧
      ∀ cause, foldDecimals fn.name op args = .error cause →
        (runNative fn args).run s = .failed (.ofCause cause) s := by
  refine ⟨⟨rfl, rfl, rfl, rfl⟩,
    fun first ds => ⟨foldDecimals_map_dec first ds, fun _ => ArithOp.stopsWith_cons_iff.symm⟩,
    fun ds v rest hv => ⟨foldDecimals_reports_iff hv rest, fun _ h =>
      foldDecimals_of_stopsWith h _⟩, ?_, ?_, ?_⟩
  · -- sums and differences have no step that fails
    rintro (rfl | rfl) ds cause hstop <;> simpa using hstop.apply_error.1
  · intro property op items hmem
    simp only [List.mem_cons, Prod.mk.injEq, List.not_mem_nil, or_false] at hmem
    rcases hmem with ⟨rfl, rfl⟩ | ⟨rfl, rfl⟩ | ⟨rfl, rfl⟩ | ⟨rfl, rfl⟩ <;> rfl
  · intro fn op args s hmem
    simp only [List.mem_cons, Prod.mk.injEq, List.not_mem_nil, or_false] at hmem
    rcases hmem with ⟨rfl, rfl⟩ | ⟨rfl, rfl⟩ | ⟨rfl, rfl⟩ | ⟨rfl, rfl⟩ <;>
      exact run_nativeFold _ _ args s

/-- A product of decimals that fit reports the string behind them. -/
theorem string_reported_by_product :
    Heap.arrayProperty [.dec (.ofInt 2), .dec (.ofInt 3), .str "x"] "product" =
      .error (.wrongArgument "product" 3 "decimal" "string") := by
  obtain ⟨-, hdecimals, hoffender, -, hproperty, -⟩ := folds_check_when_reached "product" .mul
  have hgo (cause : Cause) : ¬ArithOp.StopsWith .mul [.ofInt 2, .ofInt 3] cause := by
    rw [← (hdecimals _ _).2 cause]
    have hsix : [Decimal.ofInt 3].foldlM ArithOp.mul.apply (.ofInt 2) = .ok (.ofInt 6) := by
      decide +kernel
    rw [hsix]
    nofun
  have hother (d : Decimal) : Value.str "x" ≠ .dec d := nofun
  have hfold := (hoffender [.ofInt 2, .ofInt 3] (.str "x") [] hother).1.2 hgo
  rw [hproperty "product" .mul _ (by decide)]
  exact congrArg (Except.map Value.dec) hfold

/-- A division by zero hides the string behind the zero. -/
theorem zero_divisor_hides_string :
    foldDecimals "quotient" .div [.dec .one, .dec .zero, .str "x"] = .error .divisionByZero ∧
    foldDecimals "quotient" .div [.dec .one, .dec .zero, .str "x"] ≠
      .error (.wrongArgument "quotient" 3 "decimal" "string") :=
  ⟨rfl, nofun⟩

end DecimalScript
