import Calculator.Text.Blank
import Calculator.Text.Quoted

/-!
# Angles

The trigonometric functions read their argument in degrees or in radians.

* `AngleMode` is the choice, `AngleMode.toRadians` what it does to an angle;
* `AngleMode.ofText` reads its name.
-/

namespace Calculator

/-- How the arguments of the trigonometric functions are read. -/
inductive AngleMode where
  | degrees
  | radians
deriving DecidableEq, Repr

namespace AngleMode

/-- The name on the angle key. -/
def name : AngleMode → String
  | degrees => "DEG"
  | radians => "RAD"

/-- The other mode. -/
def toggle : AngleMode → AngleMode
  | degrees => radians
  | radians => degrees

/-- An angle in radians. Degrees are multiplied by `π` first and divided by `180` then, each with
its own rounding. -/
def toRadians (mode : AngleMode) (angle : Float) : Float :=
  match mode with
  | degrees => angle * 3.141592653589793 / 180.0
  | radians => angle

/-- A text that names no mode. -/
structure Unknown where
  text : String
deriving DecidableEq, Repr

/-- The text of the error. -/
def Unknown.message (e : Unknown) : String :=
  "unknown angle mode: " ++ Text.quote e.text ++ " (expected DEG or RAD)"

/-- Reads a name in any case of its ASCII letters, with blanks around it. -/
def ofText (text : String) : Except Unknown AngleMode :=
  match String.ofList ((Text.trim text.toList).map Char.toUpper) with
  | "DEG" => .ok degrees
  | "RAD" => .ok radians
  | _ => .error ⟨text⟩

end AngleMode

end Calculator
