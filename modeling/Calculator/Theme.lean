import Calculator.Text.Blank
import Calculator.Text.Quoted

/-!
# Themes

The calculator is drawn light or dark.

* `Theme` is the choice, `Theme.ofText` reads its name.
-/

namespace Calculator

/-- How the calculator is drawn. -/
inductive Theme where
  | light
  | dark
deriving DecidableEq, Repr

namespace Theme

/-- The name of a theme. -/
def name : Theme → String
  | light => "clair"
  | dark => "sombre"

/-- The other theme. -/
def toggle : Theme → Theme
  | light => dark
  | dark => light

/-- A text that names no theme. -/
structure Unknown where
  text : String
deriving DecidableEq, Repr

/-- The text of the error. -/
def Unknown.message (e : Unknown) : String :=
  "thème inconnu: " ++ Text.quote e.text ++ " (attendu clair ou sombre)"

/-- Reads a name in French or English, in any case of its ASCII letters, with blanks around it. -/
def ofText (text : String) : Except Unknown Theme :=
  match String.ofList ((Text.trim text.toList).map Char.toLower) with
  | "clair" | "light" => .ok light
  | "sombre" | "dark" => .ok dark
  | _ => .error ⟨text⟩

end Theme

end Calculator
