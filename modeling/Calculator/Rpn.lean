import Calculator.Decimal.Layout
import Calculator.Operation

/-!
# Postfix sequences

An expression in postfix order: every operator and function stands behind its operands, so that no
parentheses are needed.

* `Rpn.Item` is one element, `Rpn.Item.text` its text;
* `Rpn.line` is the text of a sequence.
-/

namespace Calculator.Rpn

/-- An element of a postfix sequence. -/
inductive Item where
  | number (value : Float)
  | operator (op : Operator)
  | function (f : NamedFunction)
deriving DecidableEq

/-- An element as text. -/
def Item.text : Item → String
  | number v => String.ofList (Layout.plain.writeFloat v)
  | operator op => op.symbol
  | function f => f.name

/-- A sequence as text, with spaces between. -/
def line (items : List Item) : String :=
  " ".intercalate (items.map Item.text)

end Calculator.Rpn
