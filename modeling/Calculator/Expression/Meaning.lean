import Calculator.Expression

/-!
# What expressions mean

The meaning of an expression, given by rules: one for each way in which a computation goes on, and one
for each way in which it ends without a value. The rules name every operation on numbers, and the
divisors and arguments that are refused.

* `BinaryOperator.Yields` and `NamedFunction.Yields` say what an operator and a function make of values,
  `AngleMode.Reads` how an angle is read;
* `Expression.Means` is the meaning of an expression.
-/

namespace Calculator

/-- `op.Yields lib x y r`: this is what the operator makes of two values. A zero of either sign divides
nothing. -/
inductive BinaryOperator.Yields (lib : MathLibrary) (x y : Float) :
    BinaryOperator → Except EvalError Float → Prop
  | add : Yields lib x y .add (.ok (x + y))
  | sub : Yields lib x y .sub (.ok (x - y))
  | mul : Yields lib x y .mul (.ok (x * y))
  | div : y ≠ 0.0 → y ≠ -0.0 → Yields lib x y .div (.ok (x / y))
  | divisionByZero : y = 0.0 ∨ y = -0.0 → Yields lib x y .div (.error .divisionByZero)
  | pow : Yields lib x y .pow (.ok (lib.pow x y))

/-- `mode.Reads x angle`: a number stands for this angle in radians. -/
inductive AngleMode.Reads (x : Float) : AngleMode → Float → Prop
  | degrees : Reads x .degrees (x * 3.141592653589793 / 180.0)
  | radians : Reads x .radians x

/-- `f.Yields lib mode x r`: this is what the function makes of a value. A negative number has no root. -/
inductive NamedFunction.Yields (lib : MathLibrary) (mode : AngleMode) (x : Float) :
    NamedFunction → Except EvalError Float → Prop
  | root : ¬ x < 0.0 → Yields lib mode x .sqrt (.ok x.sqrt)
  | negativeRoot : x < 0.0 → Yields lib mode x .sqrt (.error .negativeRoot)
  | sin {angle} : mode.Reads x angle → Yields lib mode x .sin (.ok (lib.sin angle))
  | cos {angle} : mode.Reads x angle → Yields lib mode x .cos (.ok (lib.cos angle))
  | tan {angle} : mode.Reads x angle → Yields lib mode x .tan (.ok (lib.tan angle))

/-- `e.Means lib mode r`: this is the value of the expression, or why it has none. The left operand comes
first, and the operation behind its operands; the first of them that has no value is the reason. -/
inductive Expression.Means (lib : MathLibrary) (mode : AngleMode) :
    Expression → Except EvalError Float → Prop
  | number (v : Float) : Means lib mode (.number v) (.ok v)
  | negate {e x} : Means lib mode e (.ok x) → Means lib mode (.negate e) (.ok (-x))
  | negateFails {e c} : Means lib mode e (.error c) → Means lib mode (.negate e) (.error c)
  | binary {op d e x y r} : Means lib mode d (.ok x) → Means lib mode e (.ok y) → op.Yields lib x y r →
      Means lib mode (.binary op d e) r
  | leftFails {op d e c} : Means lib mode d (.error c) → Means lib mode (.binary op d e) (.error c)
  | rightFails {op d e x c} : Means lib mode d (.ok x) → Means lib mode e (.error c) →
      Means lib mode (.binary op d e) (.error c)
  | call {f e x r} : Means lib mode e (.ok x) → f.Yields lib mode x r → Means lib mode (.call f e) r
  | argumentFails {f e c} : Means lib mode e (.error c) → Means lib mode (.call f e) (.error c)

end Calculator
