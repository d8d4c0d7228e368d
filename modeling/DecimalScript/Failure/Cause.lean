import DecimalScript.Failure.Code

/-!
# Causes of failures

Why an evaluation failed, with what the message has to tell about it. `Cause.message` is the only
place that words a message.
-/

namespace DecimalScript

/-- Why an evaluation failed. -/
inductive Cause where
  /-- A name that nothing binds. -/
  | undefinedName (name : String)
  /-- A name that its frame or the global table already binds. -/
  | redeclaredName (name : String)
  /-- An assignment to a constant or to a global name. -/
  | assignedConstant (name : String)
  /-- A value of another type than the one that its place asks for. -/
  | wrongType (expected got : String)
  /-- An argument of another type than the one that the callee asks for; positions start at one. -/
  | wrongArgument (callee : String) (position : Nat) (expected got : String)
  /-- Two values that have no order. -/
  | incomparable (left right : String)
  /-- A call of something that is no function. -/
  | notFunction (name : String)
  /-- A property that a value of this type does not have. -/
  | noProperty (property owner : String)
  /-- A method that a value of this type does not have. -/
  | noMethod (method owner : String)
  /-- An index that is no position of its array. -/
  | indexOutOfRange (index : String)
  /-- A key that its map does not hold. -/
  | noKey (key : String)
  /-- A division by zero. -/
  | divisionByZero
  /-- A decimal that is no integer of 64 bits. -/
  | notWhole (value : String)
  /-- A text that spells no decimal. -/
  | notNumber (text : String)
  /-- A decimal whose exponent does not fit 32 bits. -/
  | exponentOutOfRange
  /-- A call with another number of arguments than the one required. -/
  | argumentsNotExact (callee : String) (expected got : Nat)
  /-- A call with fewer arguments than required. -/
  | argumentsTooFew (callee : String) (least got : Nat)
  /-- A call with another number of arguments than there are declared parameters. -/
  | argumentsMismatched (callee : String) (declared got : Nat)
  /-- A `break` that no loop encloses. -/
  | strayBreak
  /-- A `continue` that no loop encloses. -/
  | strayContinue
  /-- A call beyond the limit on nested calls. -/
  | callsTooDeep (limit : Nat)
  deriving Repr, DecidableEq

namespace Cause

/-- The code of a cause. -/
def code : Cause → Code
  | undefinedName .. => .undefinedName
  | redeclaredName .. => .redeclaredName
  | assignedConstant .. => .assignedConstant
  | wrongType .. => .wrongType
  | wrongArgument .. => .wrongArgument
  | incomparable .. => .incomparable
  | notFunction .. => .notFunction
  | noProperty .. => .noProperty
  | noMethod .. => .noMethod
  | indexOutOfRange .. => .indexOutOfRange
  | noKey .. => .noKey
  | divisionByZero => .divisionByZero
  | notWhole .. => .notWhole
  | notNumber .. => .notNumber
  | exponentOutOfRange => .exponentOutOfRange
  | argumentsNotExact .. => .argumentsNotExact
  | argumentsTooFew .. => .argumentsTooFew
  | argumentsMismatched .. => .argumentsMismatched
  | strayBreak => .strayBreak
  | strayContinue => .strayContinue
  | callsTooDeep .. => .callsTooDeep

/-- A name between backquotes. -/
def ticked (name : String) : String :=
  "`" ++ name ++ "`"

/-- The message for the reader of a report. -/
def message : Cause → String
  | undefinedName name => s!"name {ticked name} is not defined"
  | redeclaredName name => s!"name {ticked name} has already been declared"
  | assignedConstant name => s!"cannot assign to constant {ticked name}"
  | wrongType expected got => s!"expected {expected}, got {got}"
  | wrongArgument callee position expected got =>
    s!"argument {position} of {ticked callee} must be {expected}, got {got}"
  | incomparable left right => s!"cannot compare {left} with {right}"
  | notFunction name => s!"{ticked name} is not a function"
  | noProperty property owner => s!"property {ticked property} not found on {owner}"
  | noMethod method owner => s!"method {ticked method} not found on {owner}"
  | indexOutOfRange index => s!"index {index} out of range"
  | noKey key => s!"key {ticked key} not found"
  | divisionByZero => "division by zero"
  | notWhole value => s!"{value} cannot be converted to an integer"
  | notNumber text => s!"{ticked text} is not a valid number"
  | exponentOutOfRange => "decimal exponent out of range"
  | argumentsNotExact callee expected got =>
    s!"{ticked callee} expects exactly {expected} argument(s), got {got}"
  | argumentsTooFew callee least got =>
    s!"{ticked callee} expects at least {least} argument(s), got {got}"
  | argumentsMismatched callee declared got =>
    s!"{ticked callee} declares {declared} parameter(s), but {got} argument(s) were given"
  | strayBreak => "break used outside of a loop"
  | strayContinue => "continue used outside of a loop"
  | callsTooDeep limit => s!"maximum call depth exceeded (limit: {limit})"

end Cause

end DecimalScript
