import Calculator.Session

/-!
# Buttons

The buttons of the window, in rows from top to bottom.

* `Button` is a button, `Button.rows` their arrangement;
* `Button.label` is the text on a button.
-/

namespace Calculator

/-- A button: one presses a key, the last one opens and closes the panel of the working. -/
inductive Button where
  | key (key : Key)
  | working
deriving DecidableEq, Repr

namespace Button

/-- The buttons row by row, in the order in which they are drawn. -/
def rows : List (List Button) :=
  [[key .theme, key .angleMode],
   [key (.function .sin), key (.function .cos), key (.function .tan), key (.function .sqrt),
    key (.operator '^')],
   [key .clear, key .delete, key (.paren '('), key (.paren ')'), key .sign],
   [key (.digit '7'), key (.digit '8'), key (.digit '9'), key (.operator '/')],
   [key (.digit '4'), key (.digit '5'), key (.digit '6'), key (.operator '*')],
   [key (.digit '1'), key (.digit '2'), key (.digit '3'), key (.operator '-')],
   [key (.digit '0'), key .point, key .equals, key (.operator '+')],
   [working]]

/-- All buttons, in the order in which they are drawn. -/
def all : List Button := rows.flatten

/-- The text on a button. The theme button shows the theme it leads to, the angle button the present
mode. -/
def label (s : Session) : Button → String
  | key (.digit c) | key (.paren c) => c.toString
  | key (.operator '^') => "xʸ"
  | key (.operator '/') => "÷"
  | key (.operator '*') => "×"
  | key (.operator '-') => "−"
  | key (.operator c) => c.toString
  | key .point => "."
  | key (.function .sqrt) => "√"
  | key (.function f) => f.name
  | key .sign => "±"
  | key .clear => "AC"
  | key .delete => "DEL"
  | key .equals => "="
  | key .angleMode => s.mode.name
  | key .theme =>
    match s.theme with
    | .light => "☾"
    | .dark => "☀"
  | working => "Démarche"

/-- The button with a text. -/
def ofLabel? (s : Session) (text : String) : Option Button :=
  all.find? (·.label s == text)

/-- The button drawn after another; after the last one comes none. -/
def next? (b : Button) : Option Button :=
  (all.dropWhile (· ≠ b)).tail.head?

end Button

end Calculator
