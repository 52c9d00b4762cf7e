import Calculator.Angle

/-!
# Operators and functions

What can be computed with values: five binary operators, the unary minus, and the functions that are
called by name.

* `MathLibrary` holds the functions that the machine provides;
* `BinaryOperator` are the operators between two operands, `Operator` these and the unary minus,
  each with a precedence, an associativity and an arity;
* `NamedFunction` are the functions;
* `EvalError` is why a computation has no result.
-/

namespace Calculator

/-- The functions that are taken from the machine as they are. Nothing in this library depends on
what they compute. -/
structure MathLibrary where
  sin : Float → Float
  cos : Float → Float
  tan : Float → Float
  pow : Float → Float → Float

/-- The machine's own functions. -/
def MathLibrary.native : MathLibrary where
  sin := Float.sin
  cos := Float.cos
  tan := Float.tan
  pow := Float.pow

/-- Why a computation has no result. -/
inductive EvalError where
  | missingOperand
  | malformed
  | divisionByZero
  | negativeRoot
deriving DecidableEq, Repr

/-- The text of an error. -/
def EvalError.message : EvalError → String
  | missingOperand => "Invalid expression: missing operand"
  | malformed => "Invalid expression"
  | divisionByZero => "Divide by zero"
  | negativeRoot => "Invalid sqrt: negative argument"

/-! ## Operators -/

/-- How a row of operators of one precedence is grouped. -/
inductive Associativity where
  | left
  | right
deriving DecidableEq, Repr

/-- The operators between two operands. -/
inductive BinaryOperator where
  | add
  | sub
  | mul
  | div
  | pow
deriving DecidableEq, Repr

namespace BinaryOperator

/-- All binary operators. -/
def all : List BinaryOperator := [add, sub, mul, div, pow]

/-- The character that stands for an operator. -/
def symbol : BinaryOperator → Char
  | add => '+'
  | sub => '-'
  | mul => '*'
  | div => '/'
  | pow => '^'

/-- The operator that a character stands for. -/
def ofChar? (c : Char) : Option BinaryOperator :=
  all.find? (·.symbol == c)

/-- The value of an operator. Both zeros are refused as divisors. -/
def apply (lib : MathLibrary) (x y : Float) : BinaryOperator → Except EvalError Float
  | add => .ok (x + y)
  | sub => .ok (x - y)
  | mul => .ok (x * y)
  | div => if y == 0.0 then .error .divisionByZero else .ok (x / y)
  | pow => .ok (lib.pow x y)

theorem ofChar?_symbol (op : BinaryOperator) : ofChar? op.symbol = some op := by
  cases op <;> decide

/-- Only the symbols of operators stand for one. -/
theorem ofChar?_eq_some_iff {c : Char} {op : BinaryOperator} :
    ofChar? c = some op ↔ c = op.symbol := by
  constructor
  · intro h
    have hc := List.find?_some h
    exact (beq_iff_eq.mp hc).symm
  · rintro rfl
    exact ofChar?_symbol op

end BinaryOperator

/-- The operators of an expression. The unary minus has the character of the subtraction and is told
apart by its place. -/
inductive Operator where
  | binary (op : BinaryOperator)
  | negate
deriving DecidableEq, Repr

namespace Operator

/-- All operators. -/
def all : List Operator := BinaryOperator.all.map binary ++ [negate]

/-- The symbol in a postfix text, where the unary minus has a symbol of its own. -/
def symbol : Operator → String
  | binary op => op.symbol.toString
  | negate => "u-"

/-- The operator of a symbol. -/
def ofSymbol? (text : String) : Option Operator :=
  all.find? (·.symbol == text)

/-- How strongly an operator holds its operands. -/
def precedence : Operator → Nat
  | binary .add | binary .sub => 2
  | binary .mul | binary .div => 3
  | binary .pow => 4
  | negate => 5

/-- Powers and minus signs group to the right, all else to the left. -/
def associativity : Operator → Associativity
  | binary .pow | negate => .right
  | binary _ => .left

/-- How many operands an operator takes. -/
def arity : Operator → Nat
  | binary _ => 2
  | negate => 1

/-- The value of an operator at its operands, the left one first. -/
def apply (lib : MathLibrary) : Operator → List Float → Except EvalError Float
  | binary op, [x, y] => op.apply lib x y
  | negate, [x] => .ok (-x)
  | _, _ => .error .missingOperand

theorem ofSymbol?_symbol (op : Operator) : ofSymbol? op.symbol = some op := by
  rcases op with op | _
  · cases op <;> decide
  · decide

end Operator

/-! ## Functions called by name -/

/-- The functions that are called by name, each of one argument. -/
inductive NamedFunction where
  | sqrt
  | sin
  | cos
  | tan
deriving DecidableEq, Repr

namespace NamedFunction

/-- All functions. -/
def all : List NamedFunction := [sqrt, sin, cos, tan]

/-- The name that calls a function. -/
def name : NamedFunction → String
  | sqrt => "sqrt"
  | sin => "sin"
  | cos => "cos"
  | tan => "tan"

/-- The function of a name, in exactly this case. -/
def ofName? (text : String) : Option NamedFunction :=
  all.find? (·.name == text)

/-- How many arguments a function takes. -/
def arity (_ : NamedFunction) : Nat := 1

/-- The value of a function. The root of `-0` is `-0`; a negative number has none. -/
def apply (lib : MathLibrary) (mode : AngleMode) (x : Float) :
    NamedFunction → Except EvalError Float
  | sqrt => if x < 0.0 then .error .negativeRoot else .ok x.sqrt
  | sin => .ok (lib.sin (mode.toRadians x))
  | cos => .ok (lib.cos (mode.toRadians x))
  | tan => .ok (lib.tan (mode.toRadians x))

theorem ofName?_name (f : NamedFunction) : ofName? f.name = some f := by
  cases f <;> decide

end NamedFunction

end Calculator
