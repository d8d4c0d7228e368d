/-!
# Operators

The arithmetic operators, which take two decimals, and the logic operators, of which two decide
without their right operand where they can.
-/

namespace DecimalScript

/-- The operators on decimals. -/
inductive ArithOp where
  | add
  | sub
  | mul
  | div
  deriving Repr, DecidableEq

/-- The operators that yield a boolean. -/
inductive LogicOp where
  | and
  | or
  | eq
  | notEq
  | lt
  | ltEq
  | gt
  | gtEq
  deriving Repr, DecidableEq

/-- Whether the right operand is evaluated only where the left one does not decide. -/
def LogicOp.isShortCircuit : LogicOp → Bool
  | and | or => true
  | eq | notEq | lt | ltEq | gt | gtEq => false

end DecimalScript
