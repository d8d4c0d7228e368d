import DecimalScript.Decimal.Basic
import DecimalScript.Text.Blank

/-!
# Number literals

A literal is, between blanks, an optional sign, a mantissa and an optional exponent. The mantissa
holds at least one digit, any number of underscores, which count for nothing, and at most one point.
The exponent is an optional sign and digits, after one of four markers. It has to fit 64 bits, and
the decimal's exponent, from which the digits after the point are taken off, 32 bits.
-/

namespace DecimalScript.Decimal

/-- The markers that introduce an exponent, in the order in which they are looked for. -/
def exponentMarkers : List (List Char) :=
  [['*', '1', '0', '^'], ['*', '^'], ['E'], ['e']]

/-- The text before and after the first place where the marker stands. -/
def splitAtMarker? (marker : List Char) : List Char → Option (List Char × List Char)
  | [] => if marker.isEmpty then some ([], []) else none
  | c :: rest =>
    if marker.isPrefixOf (c :: rest) then some ([], (c :: rest).drop marker.length)
    else (splitAtMarker? marker rest).map fun (before, after) => (c :: before, after)

/-- The mantissa and, if one of the markers occurs, the text of the exponent. -/
def splitExponent (body : List Char) : List Char × Option (List Char) :=
  match exponentMarkers.findSome? (splitAtMarker? · body) with
  | some (mantissa, exponent) => (mantissa, some exponent)
  | none => (body, none)

/-- Whether there was a minus sign, and the text after the sign if there is one. -/
def splitSign : List Char → Bool × List Char
  | '-' :: rest => (true, rest)
  | '+' :: rest => (false, rest)
  | text => (false, text)

/-- The number that a list of digits spells. -/
def natOfDigits (digits : List Char) : Nat :=
  Nat.ofDigitChars 10 digits 0

/-- The coefficient of a mantissa and how many of its digits stand after the point. -/
def readMantissa? (mantissa : List Char) : Option (Nat × Nat) :=
  let whole := mantissa.takeWhile (· ≠ '.')
  let fraction := (mantissa.dropWhile (· ≠ '.')).drop 1
  let digits := (whole ++ fraction).filter Char.isDigit
  -- a second point is left in the fraction, where it is neither a digit nor an underscore
  if (whole ++ fraction).all (fun c => c.isDigit || c == '_') && !digits.isEmpty then
    some (natOfDigits digits, (fraction.filter Char.isDigit).length)
  else none

/-- The value of an exponent; its magnitude is below `2 ^ 63`. -/
def readExponent? (text : List Char) : Option Int :=
  let (negative, digits) := splitSign text
  if digits.isEmpty || !digits.all Char.isDigit then none
  else
    let n := natOfDigits digits
    if n < 9223372036854775808 then some (if negative then -n else n) else none

/-- The decimal that a literal without blanks around it spells. -/
def readLiteral? (text : List Char) : Option Decimal := do
  let (negative, body) := splitSign text
  let (mantissa, exponentText) := splitExponent body
  let (n, places) ← readMantissa? mantissa
  -- no marker is the exponent zero, but a marker without digits is no literal
  let exponent ← exponentText.elim (some 0) readExponent?
  ofParts? (if negative then -n else n) (exponent - places)

/-- The decimal that a text spells. -/
def parse (text : String) : Except Cause Decimal :=
  match readLiteral? (Text.trim text.toList) with
  | some d => .ok d
  | none => .error (.notNumber text)

end DecimalScript.Decimal
