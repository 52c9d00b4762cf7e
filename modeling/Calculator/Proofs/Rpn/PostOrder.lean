import Calculator.Proofs.Rpn.Machine
import Mathlib.Data.List.Forall2

/-!
# The tree of a post-order

A machine whose stack holds trees in place of values builds the tree of a post-order again. So the
post-order of an expression determines the expression. And whatever leaves one value on the stack of
values leaves one tree on the stack of trees, so that every sequence with a value is a post-order.

* `build` is the machine, `build_postOrder_append` what it makes of a post-order, `postOrders_of_build`
  how it keeps the elements that it has taken;
* `Stands` relates a stack of trees to the stack of their values, `build_of_run` follows a run with
  trees;
* `Expression.postOrder_injective` and `exists_postOrder_of_evaluate` are the conclusions.
-/

namespace Calculator

namespace Rpn

/-- The trees on the stack after one element, if it has its operands. A stack has its top first. -/
def Item.graft : Item → List Expression → Option (List Expression)
  | .number v, stack => some (.number v :: stack)
  | .operator .negate, e :: stack => some (.negate e :: stack)
  | .operator (.binary op), right :: left :: stack => some (.binary op left right :: stack)
  | .function f, e :: stack => some (.call f e :: stack)
  | _, _ => none

/-- The trees on the stack after a sequence of elements. -/
def build (stack : List Expression) : List Item → Option (List Expression)
  | [] => some stack
  | item :: items => (item.graft stack).bind fun next => build next items

/-- The post-order of an expression puts its tree on the stack. -/
theorem build_postOrder_append (e : Expression) (stack : List Expression) (items : List Item) :
    build stack (e.postOrder ++ items) = build (e :: stack) items := by
  -- The operands of the root are built first, above any stack; then the root takes them off.
  induction e generalizing stack items with
  | number v => rfl
  | negate e ih =>
    rw [Expression.postOrder, List.append_assoc, ih]
    rfl
  | binary op left right ihl ihr =>
    rw [Expression.postOrder, List.append_assoc, List.append_assoc, ihl, ihr]
    rfl
  | call f e ih =>
    rw [Expression.postOrder, List.append_assoc, ih]
    rfl

/-! ## The elements of the trees -/

/-- The elements of the trees on a stack, the bottom first. -/
def postOrders (stack : List Expression) : List Item :=
  stack.reverse.flatMap Expression.postOrder

@[simp] theorem postOrders_nil : postOrders [] = [] := rfl

@[simp] theorem postOrders_cons (e : Expression) (stack : List Expression) :
    postOrders (e :: stack) = postOrders stack ++ e.postOrder := by
  simp [postOrders]

/-- An element that finds its operands becomes the last of the elements. -/
theorem postOrders_of_graft {item : Item} {stack next : List Expression}
    (h : item.graft stack = some next) : postOrders next = postOrders stack ++ [item] := by
  -- One case for each shape of a root; all others lack an operand.
  rw [Item.graft.eq_def] at h
  split at h
  case h_5 => cases h
  all_goals
    obtain rfl := Option.some.inj h
    simp [Expression.postOrder]

/-- No element is lost. -/
theorem postOrders_of_build {items : List Item} {stack next : List Expression}
    (h : build stack items = some next) : postOrders next = postOrders stack ++ items := by
  induction items generalizing stack with
  | nil =>
    obtain rfl := Option.some.inj h
    rw [List.append_nil]
  | cons item items ih =>
    obtain ⟨middle, hitem, hitems⟩ := Option.bind_eq_some_iff.mp h
    rw [ih hitems, postOrders_of_graft hitem, List.append_assoc, List.singleton_append]

/-- A sequence that builds one tree is its post-order. -/
theorem eq_postOrder_of_build {items : List Item} {e : Expression} (h : build [] items = some [e]) :
    items = e.postOrder := by
  simpa using (postOrders_of_build h).symm

/-! ## Trees in place of values -/

variable {lib : MathLibrary} {mode : AngleMode}

/-- An operator on two operands takes two values off the stack and puts its own one on it. -/
theorem execute_binary (op : BinaryOperator) (x y : Float) (stack : List Float) :
    (Item.operator (.binary op)).execute lib mode (y :: x :: stack)
      = (op.apply lib x y).map (· :: stack) := by
  simp [Item.execute, operands?, Operator.arity, Operator.apply]

/-- A function takes one value off the stack and puts its own one on it. -/
theorem execute_function (f : NamedFunction) (x : Float) (stack : List Float) :
    (Item.function f).execute lib mode (x :: stack) = (f.apply lib mode x).map (· :: stack) := by
  simp [Item.execute, operands?, NamedFunction.arity]

/-- The trees on one stack have the values on the other. -/
def Stands (lib : MathLibrary) (mode : AngleMode) : List Expression → List Float → Prop :=
  List.Forall₂ fun e v => e.value lib mode = .ok v

/-- An element that finds its values finds their trees too. -/
theorem graft_of_execute {item : Item} {trees : List Expression} {values next : List Float}
    (hstack : Stands lib mode trees values) (h : item.execute lib mode values = .ok next) :
    ∃ grafted, item.graft trees = some grafted ∧ Stands lib mode grafted next := by
  -- The stack must hold the operands; their trees are the branches, and the root has the value that
  -- the element has put on the stack.
  cases item with
  | number v =>
    cases h
    exact ⟨.number v :: trees, rfl, .cons rfl hstack⟩
  | operator op =>
    cases op with
    | negate =>
      cases hstack with
      | nil => cases h
      | cons he hrest =>
        cases h
        exact ⟨_, rfl, .cons (by rw [Expression.value, he]; rfl) hrest⟩
    | binary op =>
      cases hstack with
      | nil => cases h
      | cons hright hstack =>
        cases hstack with
        | nil => cases h
        | cons hleft hrest =>
          rw [execute_binary] at h
          obtain ⟨v, hop, rfl⟩ := map_eq_ok_iff.mp h
          exact ⟨_, rfl, .cons (by rw [Expression.value, hleft, hright]; exact hop) hrest⟩
  | function f =>
    cases hstack with
    | nil => cases h
    | cons he hrest =>
      rw [execute_function] at h
      obtain ⟨v, hf, rfl⟩ := map_eq_ok_iff.mp h
      exact ⟨_, rfl, .cons (by rw [Expression.value, he]; exact hf) hrest⟩

/-- **A run that succeeds builds trees** that have the values on its stack. -/
theorem build_of_run {items : List Item} {trees : List Expression} {values last : List Float}
    (hstack : Stands lib mode trees values) (h : (run lib mode values items).2 = .ok last) :
    ∃ built, build trees items = some built ∧ Stands lib mode built last := by
  induction items generalizing trees values with
  | nil =>
    cases h
    exact ⟨trees, rfl, hstack⟩
  | cons item items ih =>
    rw [run_cons] at h
    obtain ⟨next, hitem, hitems⟩ := bind_eq_ok_iff.mp h
    obtain ⟨grafted, hgraft, hnext⟩ := graft_of_execute hstack hitem
    obtain ⟨built, hbuilt, hlast⟩ := ih hnext hitems
    exact ⟨built, by rw [build, hgraft]; exact hbuilt, hlast⟩

/-- **A sequence with a value is a post-order**, and its tree has this value. -/
theorem exists_postOrder_of_evaluate {items : List Item} {v : Float}
    (h : evaluate lib mode items = .ok v) :
    ∃ e : Expression, items = e.postOrder ∧ e.value lib mode = .ok v := by
  obtain ⟨built, hbuilt, hstack⟩ := build_of_run .nil (evaluate_eq_ok_iff.mp h)
  -- One value is left, so one tree is.
  obtain ⟨e, rest, hvalue, hrest, rfl⟩ := List.forall₂_cons_right_iff.mp hstack
  obtain rfl := List.forall₂_nil_right_iff.mp hrest
  exact ⟨e, eq_postOrder_of_build hbuilt, hvalue⟩

end Rpn

/-- **A post-order determines its tree.** -/
theorem Expression.postOrder_injective {d e : Expression} (h : d.postOrder = e.postOrder) :
    d = e := by
  have hd : Rpn.build [] d.postOrder = some [d] := by
    simpa [Rpn.build] using Rpn.build_postOrder_append d [] []
  have he : Rpn.build [] e.postOrder = some [e] := by
    simpa [Rpn.build] using Rpn.build_postOrder_append e [] []
  rw [h, he] at hd
  simpa using hd.symm

end Calculator
