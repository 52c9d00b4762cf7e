import Calculator.Decimal.Layout
import Calculator.Operation

/-!
# Tokens

The pieces an expression is made of.

* `Token` is one piece, `Token.text` its text;
* `Token.line` is the text of a row of them.
-/

namespace Calculator

/-- A piece of an expression. An operator is still a bare symbol here: which operator it stands for
is told by its place. -/
inductive Token where
  | number (value : Float)
  | function (f : NamedFunction)
  | operator (symbol : Char)
  | openParen
  | closeParen
deriving DecidableEq

namespace Token

/-- A token as text. -/
def text : Token → String
  | number v => String.ofList (Layout.plain.writeFloat v)
  | function f => f.name
  | operator c => c.toString
  | openParen => "("
  | closeParen => ")"

/-- A row of tokens as text, with spaces between. -/
def line (tokens : List Token) : String :=
  " ".intercalate (tokens.map text)

/-- Whether an operand may end with this token: after one a minus sign is a subtraction. -/
def endsOperand : Token → Bool
  | number _ | closeParen => true
  | function _ | operator _ | openParen => false

end Token

end Calculator
