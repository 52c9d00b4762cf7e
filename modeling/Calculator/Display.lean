import Calculator.Decimal.Nearest
import Calculator.Decimal.Layout

/-!
# The display

A result is shown with at most twelve decimal places, so that the noise of binary arithmetic stays
out of sight: `0.1 + 0.2` shows as `0.3`. The rounding is decimal. It starts from the shortest
decimal of the result, and a tie goes to the larger number.

* `roundToPlaces` rounds a decimal, `rounded` a double;
* `display` is the text on the display.
-/

namespace Calculator

/-- How many decimal places the display shows. -/
def displayPlaces : Nat := 12

/-- The natural number nearest to `num / den`, and of two equally near the larger if `up` is set,
else the smaller. -/
def roundTie (up : Bool) (num den : Nat) : Nat :=
  let quotient := num / den
  let remainder := num % den
  if den < 2 * remainder || (up && den == 2 * remainder) then quotient + 1 else quotient

/-- The magnitude of a signed decimal, rounded to the places of the display. A tie goes to the
larger number, which has the smaller magnitude of two negative ones. -/
def roundToPlaces (negative : Bool) (d : Decimal) : Decimal :=
  let surplus := (-(displayPlaces : Int) - d.exponent).toNat
  ⟨roundTie (!negative) d.coefficient (tenPow surplus), -displayPlaces⟩

/-- The double nearest to the rounded shortest decimal of a finite double. A double whose shortest
decimal fits the display is kept, and so are the two zeros. -/
def rounded (x : Float) : Float :=
  let k := Double.rank x
  let d := shortest k
  if k = 0 || -(displayPlaces : Int) ≤ d.exponent then x
  else (roundToPlaces (Double.isNegative x) d).toFloat (Double.isNegative x)

/-- Results are written with an exponent from `10²¹` on and below `10⁻⁶`. -/
def Layout.result : Layout where
  isPositional e := -6 ≤ e && e < 21
  wholeMark := []

/-- The text of a result. Zero has no sign, and what is not a finite number shows as infinity. -/
def display (x : Float) : String :=
  if Double.isFinite x then
    let r := rounded x
    if Double.rank r = 0 then "0" else String.ofList (Layout.result.writeFloat r)
  else "∞"

end Calculator
