import DecimalScript.Decimal.Whole
import DecimalScript.Heap.Basic

/-!
# Arguments, positions and keys

What natively implemented functions and methods ask of their arguments, and how a value becomes a
position of an array or a key of a map.
-/

namespace DecimalScript

/-- Asks for exactly `expected` arguments. -/
def requireCount (callee : String) (expected got : Nat) : Except Cause Unit :=
  if got = expected then .ok () else .error (.argumentsNotExact callee expected got)

/-- Asks for at least `least` arguments. -/
def requireAtLeast (callee : String) (least got : Nat) : Except Cause Unit :=
  if least ≤ got then .ok () else .error (.argumentsTooFew callee least got)

/-- The failure for an argument of another type; the index counts from zero. -/
def badArgument (callee : String) (index : Nat) (expected : String) (got : Value) : Cause :=
  .wrongArgument callee (index + 1) expected got.typeName

/-- The argument at an index, which has to be a string. -/
def stringArgument (callee : String) (args : List Value) (index : Nat) : Except Cause String :=
  match args[index]? with
  | some (.str s) => .ok s
  | some other => .error (badArgument callee index "string" other)
  | none => .error (.argumentsTooFew callee (index + 1) args.length)

/-- The elements of the argument at an index, which has to be an array. -/
def arrayArgument (heap : Heap) (callee : String) (args : List Value) (index : Nat) :
    Except Cause (List Value) :=
  match args[index]? with
  | some (.array addr) => .ok (heap.items addr)
  | some other => .error (badArgument callee index "array" other)
  | none => .error (.argumentsTooFew callee (index + 1) args.length)

/-- The position among `len` elements that an index names. A decimal with an integer is reported by
the integer, any other by its own text. -/
def position (index : Value) (len : Nat) : Except Cause Nat :=
  match index with
  | .dec d =>
    match d.toInt? with
    | some n =>
      if 0 ≤ n ∧ n < len then .ok n.toNat else .error (.indexOutOfRange (toString n))
    | none => .error (.indexOutOfRange d.text)
  | other => .error (.wrongType "decimal" other.typeName)

/-- The position, up to the one past the last of `len` elements, at which an index inserts. -/
def insertPosition (index : Value) (len : Nat) : Except Cause Nat :=
  match index with
  | .dec d =>
    match d.toInt? with
    | some n => if 0 ≤ n ∧ n ≤ len then .ok n.toNat else .error (.indexOutOfRange d.text)
    | none => .error (.indexOutOfRange d.text)
  | other => .error (.wrongType "decimal" other.typeName)

/-- The key that a value stands for: a string itself, a decimal its written form. -/
def mapKey (key : Value) : Except Cause String :=
  match key with
  | .str s => .ok s
  | .dec d => .ok d.text
  | other => .error (.wrongType "string" other.typeName)

end DecimalScript
