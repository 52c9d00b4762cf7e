import Calculator.Rpn.Machine

/-!
# Expression trees

What an expression means once its grouping is settled.

* `Expression` is the tree, `Expression.value` its value by recursion;
* `Expression.postOrder` is its postfix sequence, which the machine computes to the same value
  (`evaluate_postOrder`).
-/

namespace Calculator

/-- An expression as a tree. -/
inductive Expression where
  | number (value : Float)
  | negate (operand : Expression)
  | binary (op : BinaryOperator) (left right : Expression)
  | call (f : NamedFunction) (argument : Expression)
deriving DecidableEq

namespace Expression

/-- The value of an expression, the left operand first. The first error ends the computation. -/
def value (lib : MathLibrary) (mode : AngleMode) : Expression → Except EvalError Float
  | number v => .ok v
  | negate e => (e.value lib mode).map (-·)
  | binary op left right =>
    (left.value lib mode).bind fun x => (right.value lib mode).bind fun y => op.apply lib x y
  | call f e => (e.value lib mode).bind fun x => f.apply lib mode x

/-- The elements of an expression with every operator behind its operands. -/
def postOrder : Expression → List Rpn.Item
  | number v => [.number v]
  | negate e => e.postOrder ++ [.operator .negate]
  | binary op left right => left.postOrder ++ right.postOrder ++ [.operator (.binary op)]
  | call f e => e.postOrder ++ [.function f]

end Expression

namespace Rpn

/-- An outcome is the outcome of the first element, carried on by the others. -/
theorem run_cons (lib : MathLibrary) (mode : AngleMode) (stack : List Float) (item : Item)
    (items : List Item) :
    (run lib mode stack (item :: items)).2
      = (item.execute lib mode stack).bind fun next => (run lib mode next items).2 := by
  simp only [run]
  split <;> simp_all [Except.bind]

/-- Running the elements of an expression puts its value on the stack, or ends in its error. -/
theorem run_postOrder_append (lib : MathLibrary) (mode : AngleMode) (e : Expression)
    (stack : List Float) (items : List Item) :
    (run lib mode stack (e.postOrder ++ items)).2
      = (e.value lib mode).bind fun v => (run lib mode (v :: stack) items).2 := by
  induction e generalizing stack items with
  | number v => simp [Expression.postOrder, Expression.value, run_cons, Item.execute, Except.bind]
  | negate e ih =>
    simp only [Expression.postOrder, Expression.value, List.append_assoc, List.singleton_append, ih,
      run_cons]
    cases e.value lib mode <;>
      simp [Except.bind, Except.map, Item.execute, operands?, Operator.arity, Operator.apply]
  | binary op left right ihl ihr =>
    simp only [Expression.postOrder, Expression.value, List.append_assoc, List.singleton_append,
      ihl, ihr, run_cons]
    cases left.value lib mode with
    | error _ => rfl
    | ok x =>
      cases right.value lib mode with
      | error _ => rfl
      | ok y =>
        cases h : op.apply lib x y <;>
          simp [Except.bind, Except.map, Item.execute, operands?, Operator.arity, Operator.apply, h]
  | call f e ih =>
    simp only [Expression.postOrder, Expression.value, List.append_assoc, List.singleton_append, ih,
      run_cons]
    cases e.value lib mode with
    | error _ => rfl
    | ok x =>
      cases h : f.apply lib mode x <;>
        simp [Except.bind, Except.map, Item.execute, operands?, NamedFunction.arity, h]

/-- The machine computes an expression to its value. -/
theorem evaluate_postOrder (lib : MathLibrary) (mode : AngleMode) (e : Expression) :
    evaluate lib mode e.postOrder = e.value lib mode := by
  have h := run_postOrder_append lib mode e [] []
  simp only [List.append_nil] at h
  simp only [evaluate, h]
  cases e.value lib mode <;> simp [Except.bind, run, finalValue]

end Rpn

end Calculator
