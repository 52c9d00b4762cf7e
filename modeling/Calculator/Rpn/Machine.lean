import Calculator.Rpn

/-!
# Computing a postfix sequence

The elements work on a stack of values: a number goes on top, an operator or a function takes its
operands off and puts its value back.

* `Item.execute` is what one element does to the stack;
* `run` is what a sequence does, with the stack after each element;
* `evaluate` is the value of a sequence.
-/

namespace Calculator.Rpn

/-- Takes the top `n` values off a stack, if there are so many, and gives them in the order in which
they were put on. A stack has its top first. -/
def operands? (n : Nat) (stack : List Float) : Option (List Float × List Float) :=
  if n ≤ stack.length then some ((stack.take n).reverse, stack.drop n) else none

/-- The stack after one element. -/
def Item.execute (lib : MathLibrary) (mode : AngleMode) (stack : List Float) :
    Item → Except EvalError (List Float)
  | .number v => .ok (v :: stack)
  | .operator op =>
    match operands? op.arity stack with
    | none => .error .missingOperand
    | some (args, rest) => (op.apply lib args).map (· :: rest)
  | .function f =>
    match operands? f.arity stack with
    | some ([x], rest) => (f.apply lib mode x).map (· :: rest)
    | _ => .error .missingOperand

/-- The stacks after each element that succeeds, and the last stack or the error that ends the run.
-/
def run (lib : MathLibrary) (mode : AngleMode) (stack : List Float) :
    List Item → List (List Float) × Except EvalError (List Float)
  | [] => ([], .ok stack)
  | item :: items =>
    match item.execute lib mode stack with
    | .error e => ([], .error e)
    | .ok next =>
      let (trail, outcome) := run lib mode next items
      (next :: trail, outcome)

/-- The value left at the end, which must be the only one. -/
def finalValue : List Float → Except EvalError Float
  | [v] => .ok v
  | _ => .error .malformed

/-- The value of a postfix sequence. -/
def evaluate (lib : MathLibrary) (mode : AngleMode) (items : List Item) : Except EvalError Float :=
  (run lib mode [] items).2.bind finalValue

end Calculator.Rpn
