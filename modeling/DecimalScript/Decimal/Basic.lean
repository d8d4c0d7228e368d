import DecimalScript.Failure.Cause

/-!
# Decimals

A decimal is an integer coefficient times a power of ten. The coefficient has no bound and the
exponent is an integer of 32 bits. One number has many decimals (`1.5` and `1.50`): sums and
differences keep the smaller of the two exponents, while products and quotients are canonical
(`Decimal.canonical`).
-/

namespace DecimalScript

/-- The number `coeff * 10 ^ exp`. -/
structure Decimal where
  coeff : Int
  exp : Int
  least_le_exp : -2147483648 ≤ exp := by omega
  exp_le_greatest : exp ≤ 2147483647 := by omega
  deriving Repr, DecidableEq

namespace Decimal

/-- The decimal with the given coefficient and exponent, if the exponent is in range. -/
def ofParts? (coeff exp : Int) : Option Decimal :=
  if h : -2147483648 ≤ exp ∧ exp ≤ 2147483647 then some ⟨coeff, exp, h.1, h.2⟩ else none

/-- The decimal with the given coefficient and exponent; a failure if the exponent is out of
range. -/
def ofParts (coeff exp : Int) : Except Cause Decimal :=
  match ofParts? coeff exp with
  | some d => .ok d
  | none => .error .exponentOutOfRange

/-- An integer as a decimal. -/
def ofInt (n : Int) : Decimal :=
  { coeff := n, exp := 0 }

/-- Zero, with exponent zero. -/
def zero : Decimal := ofInt 0

/-- One, with exponent zero. -/
def one : Decimal := ofInt 1

instance : Inhabited Decimal := ⟨zero⟩

/-- Whether the number is zero, whatever its exponent. -/
def isZero (d : Decimal) : Bool := d.coeff = 0

/-- Whether the number is below zero. -/
def isNegative (d : Decimal) : Bool := d.coeff < 0

/-- Ten to the power `n`. -/
def pow10 (n : Nat) : Nat := Nat.pow 10 n

/-- Ten to the power `n`, where an exponent of more than 32 bits counts as the greatest that has no
more. -/
def cappedPow10 (n : Nat) : Nat := pow10 (min n 4294967295)

/-- How many digits a number has in base ten; zero has one. -/
def digitCount (n : Nat) : Nat :=
  (Nat.toDigits 10 n).length

/-- The coefficient that the number has over the power `10 ^ exp`, for an `exp` of at most its
own. -/
def scaledTo (d : Decimal) (exp : Int) : Int :=
  d.coeff * pow10 (d.exp - exp).toNat

/-- The sum, over the smaller exponent. -/
def add (x y : Decimal) : Decimal where
  coeff := x.scaledTo (min x.exp y.exp) + y.scaledTo (min x.exp y.exp)
  exp := min x.exp y.exp
  least_le_exp := Int.le_min.2 ⟨x.least_le_exp, y.least_le_exp⟩
  exp_le_greatest := Int.le_trans (Int.min_le_left _ _) x.exp_le_greatest

/-- The difference, over the smaller exponent. -/
def sub (x y : Decimal) : Decimal where
  coeff := x.scaledTo (min x.exp y.exp) - y.scaledTo (min x.exp y.exp)
  exp := min x.exp y.exp
  least_le_exp := Int.le_min.2 ⟨x.least_le_exp, y.least_le_exp⟩
  exp_le_greatest := Int.le_trans (Int.min_le_left _ _) x.exp_le_greatest

/-- The number with the other sign. -/
def neg (d : Decimal) : Decimal :=
  { d with coeff := -d.coeff }

theorem ofParts?_eq_some_iff {coeff exp : Int} {d : Decimal} :
    ofParts? coeff exp = some d ↔ d.coeff = coeff ∧ d.exp = exp := by
  obtain ⟨c, e, h₁, h₂⟩ := d
  unfold ofParts?
  split
  · simp [Decimal.mk.injEq, eq_comm]
  · simp
    omega

theorem ofParts?_eq_none_iff {coeff exp : Int} :
    ofParts? coeff exp = none ↔ ¬(-2147483648 ≤ exp ∧ exp ≤ 2147483647) := by
  unfold ofParts?
  split <;> simp_all

end Decimal

end DecimalScript
