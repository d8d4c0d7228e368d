/-!
# Codes of failures

Every failure of an evaluation has a code, an `E` and four digits, the first of which gives its
category. `Code.ofText?` reads a code back and takes small letters too.
-/

namespace DecimalScript

/-- What kind of failure it is. -/
inductive Code where
  | undefinedName
  | redeclaredName
  | assignedConstant
  | wrongType
  | wrongArgument
  | incomparable
  | notFunction
  | noProperty
  | noMethod
  | indexOutOfRange
  | noKey
  | divisionByZero
  | notWhole
  | notNumber
  | exponentOutOfRange
  | argumentsNotExact
  | argumentsTooFew
  | argumentsMismatched
  | strayBreak
  | strayContinue
  | callsTooDeep
  deriving Repr, DecidableEq

/-- The families that codes fall into. -/
inductive Category where
  | name
  | type
  | property
  | index
  | arithmetic
  | argumentCount
  | interrupt
  | limit
  deriving Repr, DecidableEq

namespace Category

/-- The name under which reports show the category. -/
def text : Category → String
  | name => "NameError"
  | type => "TypeError"
  | property => "PropertyError"
  | index => "IndexError"
  | arithmetic => "ArithmeticError"
  | argumentCount => "ParamCountError"
  | interrupt => "InterruptError"
  | limit => "RuntimeError"

end Category

namespace Code

/-- Every code, in the order of its number. -/
def all : List Code :=
  [undefinedName, redeclaredName, assignedConstant, wrongType, wrongArgument, incomparable,
   notFunction, noProperty, noMethod, indexOutOfRange, noKey, divisionByZero, notWhole, notNumber,
   exponentOutOfRange, argumentsNotExact, argumentsTooFew, argumentsMismatched, strayBreak,
   strayContinue, callsTooDeep]

/-- The four digits of the code. -/
def number : Code → Nat
  | undefinedName => 1001
  | redeclaredName => 1002
  | assignedConstant => 1003
  | wrongType => 2001
  | wrongArgument => 2002
  | incomparable => 2003
  | notFunction => 2004
  | noProperty => 3001
  | noMethod => 3002
  | indexOutOfRange => 4001
  | noKey => 4002
  | divisionByZero => 5001
  | notWhole => 5002
  | notNumber => 5003
  | exponentOutOfRange => 5004
  | argumentsNotExact => 6001
  | argumentsTooFew => 6002
  | argumentsMismatched => 6003
  | strayBreak => 7001
  | strayContinue => 7002
  | callsTooDeep => 8001

/-- The code as it is written. -/
def text (code : Code) : String :=
  "E" ++ toString code.number

/-- The category, which the leading digit tells. -/
def category (code : Code) : Category :=
  match code.number / 1000 with
  | 1 => .name
  | 2 => .type
  | 3 => .property
  | 4 => .index
  | 5 => .arithmetic
  | 6 => .argumentCount
  | 7 => .interrupt
  | _ => .limit

/-- The code that a text spells, in capitals or small letters. Only the letter `e` becomes an `E`
in capitals, so raising the ASCII letters decides for every text. -/
def ofText? (spelled : String) : Option Code :=
  all.find? fun code => code.text == spelled.toUpper

/-- Each code occurs in the list of all codes. -/
theorem mem_all (code : Code) : code ∈ all := by
  cases code <;> decide

end Code

end DecimalScript
