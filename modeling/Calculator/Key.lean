import Calculator.Operation

/-!
# Keys

What can be pressed, and what it does to the expression being typed.

* `Key` is a key, `Key.ofChar?` the key of a typed character;
* `toggleSign` changes the sign of the number at the end of a text;
* `Key.edit` is the expression after a key.
-/

namespace Calculator

/-- A key, on the pad or of the keyboard. -/
inductive Key where
  | digit (c : Char)
  | operator (c : Char)
  | point
  | paren (c : Char)
  | function (f : NamedFunction)
  | sign
  | clear
  | delete
  | equals
  | angleMode
  | theme
deriving DecidableEq, Repr

/-- The key of a typed character. -/
def Key.ofChar? (c : Char) : Option Key :=
  if c.isDigit then some (.digit c)
  else if (BinaryOperator.ofChar? c).isSome then some (.operator c)
  else if c = '(' || c = ')' then some (.paren c)
  else if c = '.' then some .point
  else if c = '=' then some .equals
  else none

/-! ## The sign of the last number -/

/-- A text split before its last number: the longest run of digits with at most one point that ends
the text and ends in a digit. A text that ends otherwise has an empty number. -/
def splitLastNumber (cs : List Char) : List Char × List Char :=
  let reversed := cs.reverse
  let digits := reversed.takeWhile Char.isDigit
  let number :=
    match digits, reversed.dropWhile Char.isDigit with
    | [], _ => []
    | _, '.' :: rest => digits ++ '.' :: rest.takeWhile Char.isDigit
    | _, _ => digits
  (cs.take (cs.length - number.length), number.reverse)

/-- Whether a text ends in a minus sign that can only be unary: it stands at the head, or behind an
operator or an opening parenthesis. -/
def endsInUnaryMinus (cs : List Char) : Bool :=
  match cs.reverse with
  | '-' :: [] => true
  | '-' :: c :: _ => (BinaryOperator.ofChar? c).isSome || c == '('
  | _ => false

/-- A text with the sign of its last number changed: a unary minus in front of the number goes, else
one comes. Behind a text without a number a negative operand is opened. -/
def toggleSign (cs : List Char) : List Char :=
  if cs = [] then ['-']
  else
    let (before, number) := splitLastNumber cs
    if number = [] then cs ++ ['(', '-']
    else if endsInUnaryMinus before then before.dropLast ++ number
    else before ++ '-' :: number

/-- The expression after a key. An operator is no start of an expression, and a function opens the
parenthesis of its argument. -/
def Key.edit (cs : List Char) : Key → List Char
  | digit c | paren c => cs ++ [c]
  | operator c => if cs = [] then [] else cs ++ [c]
  | point => cs ++ ['.']
  | function f => cs ++ f.name.toList ++ ['(']
  | sign => toggleSign cs
  | clear => []
  | delete => cs.dropLast
  | equals | angleMode | theme => cs

end Calculator
