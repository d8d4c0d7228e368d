import DecimalScript.Decimal.Canonical

/-!
# Quotients

A quotient has sixteen significant digits, of which a half rounds up in magnitude, and is canonical.
The dividend or the divisor is first multiplied by a power of ten that leaves a whole quotient of
seventeen or eighteen digits, so at least one digit decides on the rounding. The power is capped at
32 bits: where the coefficients differ by more digits than that, the whole quotient has fewer or
more digits than it should, and the quotient that comes of it is another number.
-/

namespace DecimalScript.Decimal

/-- How many significant digits a quotient has. -/
def quotientDigits : Nat := 16

/-- The number without its last `k` digits, a half rounded up. The last of them decides, so one digit
goes even if there are none to drop. -/
def dropGuardDigits (n : Nat) (k : Int) : Nat :=
  (n / cappedPow10 (k - 1).toNat + 5) / 10

/-- The power of ten by which the dividend is multiplied, or, if it is negative, the divisor
divided. -/
def quotientShift (dividend divisor : Nat) : Int :=
  quotientDigits + 1 + digitCount divisor - digitCount dividend

/-- The whole quotient after shifting. -/
def wholeQuotient (dividend divisor : Nat) : Nat :=
  let shift := quotientShift dividend divisor
  if 0 ≤ shift then dividend * cappedPow10 shift.toNat / divisor
  else dividend / (divisor * cappedPow10 (-shift).toNat)

/-- The quotient. The exponent has to be in range before the zeros are stripped. -/
def div (x y : Decimal) : Except Cause Decimal :=
  if y.coeff = 0 then .error .divisionByZero
  else if x.coeff = 0 then .ok zero
  else
    let shift := quotientShift x.coeff.natAbs y.coeff.natAbs
    let quotient := wholeQuotient x.coeff.natAbs y.coeff.natAbs
    -- one or two digits more than are kept, if the shift was not capped
    let extra : Int := digitCount quotient - quotientDigits
    let rounded : Int := dropGuardDigits quotient extra
    let signed := if x.isNegative = y.isNegative then rounded else -rounded
    do (← ofParts signed (x.exp - y.exp - shift + extra)).canonical

end DecimalScript.Decimal
