import Calculator.Double
import Calculator.Decimal.Basic

/-!
# The double nearest to a decimal

* `halfEven` rounds a quotient of natural numbers to the nearest one;
* `nearestRank` finds the rank of the double nearest to a fraction;
* `Decimal.toFloat` is the double nearest to a decimal.
-/

namespace Calculator

/-- The natural number nearest to `num / den`, and of two equally near the even one. -/
def halfEven (num den : Nat) : Nat :=
  let quotient := num / den
  let remainder := num % den
  if 2 * remainder < den ∨ 2 * remainder = den ∧ quotient % 2 = 0 then quotient else quotient + 1

/-- The rank of the double nearest to `num / den`, and of two equally near the even one. The
fraction is counted in units of `2⁻¹⁰⁷⁴`, which gives the binade it falls in; in a binade the
doubles are evenly spaced, so there it is one quotient to round, and a quotient that rounds up to
the next binade lands on its first rank. A fraction beyond the finite doubles gets `infinityRank` or
more. -/
def nearestRank (num den : Nat) : Nat :=
  let num := num <<< 1074
  let doublings := (num / den).log2 - 52
  doublings * Double.binade + halfEven num (den <<< doublings)

/-- The double nearest to a decimal, with a sign; an infinity if the decimal is too large. -/
def Decimal.toFloat (negative : Bool) (d : Decimal) : Float :=
  Double.ofRank negative (min (nearestRank d.numerator d.denominator) Double.infinityRank)

/-- A whole quotient is not rounded. -/
theorem halfEven_mul_right (n : Nat) {den : Nat} (h : 0 < den) : halfEven (n * den) den = n := by
  simp [halfEven, Nat.mul_div_cancel n h, h]

end Calculator
