import DecimalScript.Syntax.Operator

/-!
# Expressions

Number literals stay text until they are evaluated, so a literal that spells no decimal fails only
when it is reached.
-/

namespace DecimalScript

/-- Which half of the current turn of an iteration is meant. -/
inductive TurnPart where
  | index
  | value
  deriving Repr, DecidableEq

/-- An expression. -/
inductive Expr where
  /-- A number literal, as it is spelled. -/
  | number (text : String)
  /-- A string literal. -/
  | string (text : String)
  /-- An array of the values of the items. -/
  | array (items : List Expr)
  /-- A map from the keys to the values, a later entry replacing an earlier one. -/
  | map (entries : List (Expr × Expr))
  /-- What a name is bound to. -/
  | name (name : String)
  /-- The receiver of the method or getter that is running. -/
  | this
  /-- The index or the value of the current turn of an iteration. -/
  | turn (part : TurnPart)
  /-- A property of a value. -/
  | property (root : Expr) (name : String)
  /-- An element of an array or an entry of a map. -/
  | index (root : Expr) (index : Expr)
  /-- A call of a function, or of a method of the receiver if the callee names one. -/
  | call (callee : Expr) (args : List Expr)
  /-- A call of a method of a value. -/
  | method (root : Expr) (name : String) (args : List Expr)
  /-- A new instance of a class. -/
  | construct (className : String) (args : List Expr)
  /-- An assignment, whose value is what it assigns. Unless it is by reference, arrays and maps are
  copied. -/
  | assign (target value : Expr) (byRef : Bool)
  /-- A logic operation. -/
  | logic (op : LogicOp) (left right : Expr)
  /-- The negation of a boolean. -/
  | negate (operand : Expr)
  /-- An operation on two decimals. -/
  | arith (op : ArithOp) (left right : Expr)
  deriving Repr, BEq, Inhabited

namespace Expr

/-- Whether an assignment to the expression is possible. -/
def isAssignable : Expr → Bool
  | name _ | property .. | index .. => true
  | _ => false

end Expr

end DecimalScript
