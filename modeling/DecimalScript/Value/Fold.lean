import DecimalScript.Decimal.Quotient
import DecimalScript.Value.Argument

/-!
# Folds over decimals

The arithmetic functions and the arithmetic properties of arrays fold a list of values from the
left. Values are checked one at a time, as the fold reaches them, so of a value of another type and
a step that fails the earlier one is reported.
-/

namespace DecimalScript

/-- One arithmetic step. -/
def ArithOp.apply (op : ArithOp) (x y : Decimal) : Except Cause Decimal :=
  match op with
  | add => .ok (x.add y)
  | sub => .ok (x.sub y)
  | mul => x.mul y
  | div => x.div y

/-- The decimal that a value is; a failure that names the position, from zero, if it is none. -/
def decimalAt (callee : String) (index : Nat) (value : Value) : Except Cause Decimal :=
  match value with
  | .dec d => .ok d
  | other => .error (badArgument callee index "decimal" other)

/-- Goes on with a fold at the given position, from zero. -/
def foldFrom (callee : String) (op : ArithOp) (acc : Decimal) :
    (index : Nat) → List Value → Except Cause Decimal
  | _, [] => .ok acc
  | index, value :: rest => do
    -- an earlier step that fails hides a later value of another type
    let d ← decimalAt callee index value
    let acc ← op.apply acc d
    foldFrom callee op acc (index + 1) rest

/-- The fold of the values with an operator. Of no values, the sum is zero and the product one. -/
def foldDecimals (callee : String) (op : ArithOp) : List Value → Except Cause Decimal
  | [] =>
    match op with
    | .add => .ok .zero
    | .mul => .ok .one
    | .sub | .div => .error (.argumentsTooFew callee 1 0)
  | value :: rest => do
    let first ← decimalAt callee 0 value
    foldFrom callee op first 1 rest

end DecimalScript
