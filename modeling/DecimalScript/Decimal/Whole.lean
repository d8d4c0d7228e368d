import DecimalScript.Decimal.Written

/-!
# Whole decimals

A decimal converts to an integer only if its exponent is not negative, even where trailing zeros
would make the number whole, and only if the integer has 64 bits.
-/

namespace DecimalScript.Decimal

/-- The integer, if the exponent is not negative and the integer fits 64 bits. A coefficient other
than zero with an exponent above nineteen never fits. -/
def toInt? (d : Decimal) : Option Int :=
  if d.exp < 0 then none
  else if d.coeff = 0 then some 0
  else if 19 < d.exp then none
  else
    let n := d.coeff * pow10 d.exp.toNat
    if -9223372036854775808 ≤ n ∧ n ≤ 9223372036854775807 then some n else none

/-- The integer; a failure that shows the decimal where there is none. -/
def toInt (d : Decimal) : Except Cause Int :=
  match d.toInt? with
  | some n => .ok n
  | none => .error (.notWhole d.text)

end DecimalScript.Decimal
