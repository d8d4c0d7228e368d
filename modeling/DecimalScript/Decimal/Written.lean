import DecimalScript.Decimal.Quotient

/-!
# The written form of a decimal

A decimal is written in one of four forms, chosen by the number of its digits and the place of its
point: as an integer, with the point among its digits, with zeros between the point and its digits,
or as a mantissa with a power of ten. Only the last form loses digits: a mantissa is rounded to
twelve significant digits, a half up in magnitude, and does not end in a zero.
-/

namespace DecimalScript.Decimal

/-- The most digits that the forms without a power of ten write, but for the zero before a point. -/
def maxDigits : Nat := 18

/-- The most zeros between the point and the first digit. -/
def maxLeadingZeros : Nat := 6

/-- How many significant digits a mantissa keeps. -/
def mantissaDigits : Nat := 12

/-- The number without its last `k` digits, a half rounded up; the number itself for no digits. -/
def dropDigits (n : Nat) : Nat → Nat
  | 0 => n
  | k + 1 => (n / pow10 k + 5) / 10

/-- How a decimal other than zero is written. -/
inductive Form where
  /-- Digits and zeros, as in `12500`. -/
  | integer
  /-- A point among the digits, as in `3.25`. -/
  | fixed
  /-- Zeros between the point and the digits, as in `0.00042`. -/
  | leadingZeros
  /-- A mantissa and a power of ten, as in `1.5*10^40`. -/
  | scientific
  deriving Repr, DecidableEq

/-- The form for `len` digits over the power `10 ^ exp`. Of the digits, `len + exp` stand before the
point. -/
def formOf (len : Nat) (exp : Int) : Form :=
  let point := len + exp
  -- the point stands behind the digits, among them or before them
  if 0 ≤ exp then if point ≤ maxDigits then .integer else .scientific
  else if 0 < point then if len ≤ maxDigits then .fixed else .scientific
  else if -point ≤ maxLeadingZeros ∧ len - point ≤ maxDigits then .leadingZeros else .scientific

/-- An integer in base ten. -/
def intChars (n : Int) : List Char :=
  (if n < 0 then ['-'] else []) ++ Nat.toDigits 10 n.natAbs

/-- A coefficient as a mantissa with a power of ten. -/
def scientificChars (n : Nat) (exp : Int) : List Char :=
  let dropped := digitCount n - mantissaDigits
  let mantissa := dropDigits n dropped
  -- rounding may have carried into one more digit, so the digits are counted again
  let power := exp + dropped + digitCount mantissa - 1
  let digits := Nat.toDigits 10 (stripZeros mantissa)
  let point := if digits.length = 1 then [] else ['.']
  digits.take 1 ++ point ++ digits.drop 1 ++ ['*', '1', '0', '^'] ++ intChars power

/-- A coefficient other than zero over the power `10 ^ exp`. -/
def magnitudeChars (n : Nat) (exp : Int) : List Char :=
  let digits := Nat.toDigits 10 n
  let point := digits.length + exp
  match formOf digits.length exp with
  | .integer => digits ++ List.replicate exp.toNat '0'
  | .fixed => digits.take point.toNat ++ ['.'] ++ digits.drop point.toNat
  | .leadingZeros => ['0', '.'] ++ List.replicate (-point).toNat '0' ++ digits
  | .scientific => scientificChars n exp

/-- The characters of a decimal's written form. -/
def chars (d : Decimal) : List Char :=
  if d.coeff = 0 then ['0']
  else (if d.coeff < 0 then ['-'] else []) ++ magnitudeChars d.coeff.natAbs d.exp

/-- The written form of a decimal. -/
def text (d : Decimal) : String :=
  String.ofList d.chars

end DecimalScript.Decimal
