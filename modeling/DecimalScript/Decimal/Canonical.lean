import DecimalScript.Decimal.Basic

/-!
# Canonical decimals

A decimal is canonical if its coefficient does not end in a zero; zero is canonical with exponent
zero. Every number has at most one canonical decimal, and none if the exponent would leave its
range. Products are canonical.
-/

namespace DecimalScript.Decimal

/-- How many zeros a number ends in; none for zero itself. -/
def trailingZeros (n : Nat) : Nat :=
  if n ≠ 0 ∧ n % 10 = 0 then trailingZeros (n / 10) + 1 else 0
termination_by n
decreasing_by omega

/-- The number without the zeros that it ends in. -/
def stripZeros (n : Nat) : Nat :=
  n / pow10 (trailingZeros n)

/-- The canonical decimal of the same number. -/
def canonical (d : Decimal) : Except Cause Decimal :=
  if d.coeff = 0 then .ok zero
  else
    -- each zero that goes moves the exponent up by one
    ofParts (d.coeff.sign * stripZeros d.coeff.natAbs) (d.exp + trailingZeros d.coeff.natAbs)

/-- The product. The sum of the exponents has to be in range before the zeros are stripped. -/
def mul (x y : Decimal) : Except Cause Decimal :=
  if x.coeff * y.coeff = 0 then .ok zero
  else do (← ofParts (x.coeff * y.coeff) (x.exp + y.exp)).canonical

end DecimalScript.Decimal
