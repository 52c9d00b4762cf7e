/-!
# Decimals

A non-negative number with finitely many decimal places, as a coefficient and a power of ten.

* `Decimal` is the type, `tenPow` the powers of ten;
* `Decimal.numerator` and `Decimal.denominator` write its value as a fraction;
* `Decimal.digits` are its significant digits and `Decimal.leadingExponent` the place of the first.
-/

namespace Calculator

/-- The number `coefficient · 10 ^ exponent`. -/
structure Decimal where
  coefficient : Nat
  exponent : Int
deriving DecidableEq, Repr

/-- Ten to the power `n`. -/
def tenPow (n : Nat) : Nat :=
  Nat.pow 10 n

namespace Decimal

/-- The numerator of the value as a fraction. -/
def numerator (d : Decimal) : Nat :=
  d.coefficient * tenPow d.exponent.toNat

/-- The denominator of the value as a fraction: one, or a power of ten. -/
def denominator (d : Decimal) : Nat :=
  tenPow (-d.exponent).toNat

/-- The digits of the coefficient, the most significant first. -/
def digits (d : Decimal) : List Char :=
  Nat.toDigits 10 d.coefficient

/-- The power of ten that the first digit counts. -/
def leadingExponent (d : Decimal) : Int :=
  d.exponent + (d.digits.length - 1)

theorem digits_ne_nil (d : Decimal) : d.digits ≠ [] :=
  Nat.toDigits_ne_nil

theorem tenPow_pos (n : Nat) : 0 < tenPow n :=
  Nat.pow_pos (by decide)

theorem denominator_pos (d : Decimal) : 0 < d.denominator :=
  tenPow_pos _

end Decimal

end Calculator
