import DecimalScript.Decimal.Basic

/-!
# The order of decimals

Two decimals compare as the numbers that they stand for. Where the signs or the positions of the
leading digits differ they decide; only decimals of one size are brought to one exponent, so that
numbers with exponents far apart compare at once.
-/

namespace DecimalScript.Decimal

/-- The position of the leading digit: the number is below `10 ^ d.leading` in magnitude and, unless
it is zero, at least a tenth of that. -/
def leading (d : Decimal) : Int :=
  digitCount d.coeff.natAbs + d.exp

/-- The order of two decimals as numbers. -/
def cmp (x y : Decimal) : Ordering :=
  match compare x.coeff.sign y.coeff.sign with
  | .lt => .lt
  | .gt => .gt
  | .eq =>
    if x.coeff = 0 then .eq
    else
      -- both numbers are on one side of zero; on the lower side the order is reversed
      match compare x.leading y.leading with
      | .eq => compare (x.scaledTo (min x.exp y.exp)) (y.scaledTo (min x.exp y.exp))
      | .lt => if x.coeff < 0 then .gt else .lt
      | .gt => if x.coeff < 0 then .lt else .gt

/-- Whether two decimals are the same number. -/
def equal (x y : Decimal) : Bool := x.cmp y == .eq

/-- Whether the first number is below the second. -/
def less (x y : Decimal) : Bool := x.cmp y == .lt

/-- The decimals in ascending order; those that are the same number keep their order. -/
def sort (ds : List Decimal) : List Decimal :=
  ds.mergeSort fun x y => !y.less x

end DecimalScript.Decimal
