import Calculator.Proofs.Double.Bits
import Calculator.Proofs.Evaluation.Meaning
import Calculator.Proofs.Rpn.PostOrder

/-!
# Why a postfix sequence fails

What becomes of any sequence of elements, whether it comes from an expression or not. The first element
that fails ends the run: it lacks an operand, divides by a zero or takes the root of a negative number.
If none fails, the sequence has a value when one value is left on the stack, and that is told by the
elements alone.

* `depth` counts the values that a sequence leaves, `length_of_run` says that the stack holds as many;
* `Item.Fails` tells why an element fails on a stack, `execute_eq_error_iff` is about one element and
  `run_eq_error_iff` about a sequence;
* `run_eq_ok_iff` says what is on the stack of a sequence that does not fail;
* `operands?_eq` says that an operator gets as many operands as it takes;
* `Outcome` is what a sequence comes to, which `evaluate_outcome` shows for every sequence.
-/

namespace Calculator.Rpn

variable {lib : MathLibrary} {mode : AngleMode}

/-! ## Operands -/

/-- How many operands an element takes off the stack. -/
def Item.arity : Item → Nat
  | number _ => 0
  | operator op => op.arity
  | function f => f.arity

/-- The operands are the top of the stack, as many as are asked for and the first of them lowest, unless
the stack holds fewer. -/
theorem operands?_eq (n : Nat) (stack : List Float) :
    stack.length < n ∧ operands? n stack = none
      ∨ ∃ args rest, operands? n stack = some (args, rest) ∧ args.length = n
          ∧ stack = args.reverse ++ rest := by
  rcases Nat.lt_or_ge stack.length n with hless | hn
  · exact .inl ⟨hless, if_neg (Nat.not_le.mpr hless)⟩
  · refine .inr ⟨(stack.take n).reverse, stack.drop n, if_pos hn, ?_, ?_⟩
    · rw [List.length_reverse, List.length_take, Nat.min_eq_left hn]
    · rw [List.reverse_reverse, List.take_append_drop]

/-- With as many operands as it takes an operator lacks none. -/
theorem apply_ne_missingOperand {op : Operator} {args : List Float} (h : args.length = op.arity) :
    op.apply lib args ≠ .error .missingOperand := by
  cases op with
  | negate =>
    obtain ⟨x, rfl⟩ := List.length_eq_one_iff.mp h
    exact nofun
  | binary op =>
    obtain ⟨x, y, rfl⟩ := List.length_eq_two.mp h
    intro hmissing
    cases ((BinaryOperator.apply_eq_error_iff lib).mp hmissing).2.2

/-! ## One element -/

/-- Why an element fails: the stack holds fewer values than it takes, or its operand is one that it has
no value for. A stack has its top first. -/
inductive Item.Fails : Item → List Float → EvalError → Prop
  | missingOperand {item : Item} {stack : List Float} : stack.length < item.arity →
      Fails item stack .missingOperand
  | divisionByZero {x y : Float} {rest : List Float} : y = 0.0 ∨ y = -0.0 →
      Fails (.operator (.binary .div)) (y :: x :: rest) .divisionByZero
  | negativeRoot {x : Float} {rest : List Float} : x < 0.0 →
      Fails (.function .sqrt) (x :: rest) .negativeRoot

/-- An element without its operands lacks one. -/
theorem execute_of_length_lt {item : Item} {stack : List Float} (h : stack.length < item.arity) :
    item.execute lib mode stack = .error .missingOperand := by
  have hnone : operands? item.arity stack = none := if_neg (Nat.not_le.mpr h)
  cases item with
  | number v => cases h
  | operator op =>
    rw [Item.execute]
    simp only [Item.arity] at hnone
    rw [hnone]
  | function f =>
    rw [Item.execute]
    simp only [Item.arity] at hnone
    rw [hnone]

/-- **What an element fails for.** -/
theorem execute_eq_error_iff {item : Item} {stack : List Float} {cause : EvalError} :
    item.execute lib mode stack = .error cause ↔ item.Fails stack cause := by
  constructor
  · intro h
    by_cases hless : stack.length < item.arity
    · rw [execute_of_length_lt hless] at h
      cases h
      exact .missingOperand hless
    -- The operands are there, so that the operation itself has failed.
    match item, stack, hless, h with
    | .operator (.binary op), y :: x :: rest, _, h =>
      rw [execute_binary, map_eq_error_iff] at h
      obtain ⟨rfl, hzero, rfl⟩ := (BinaryOperator.apply_eq_error_iff lib).mp h
      exact .divisionByZero (Double.beq_zero_iff.mp hzero)
    | .function f, x :: rest, _, h =>
      rw [execute_function, map_eq_error_iff] at h
      obtain ⟨rfl, hneg, rfl⟩ := (NamedFunction.apply_eq_error_iff lib mode).mp h
      exact .negativeRoot hneg
    | .operator (.binary _), [], hless, _ => exact absurd (Nat.zero_lt_two) hless
    | .operator (.binary _), [_], hless, _ => exact absurd (Nat.one_lt_two) hless
    | .operator .negate, [], hless, _ => exact absurd (Nat.zero_lt_one) hless
    | .function _, [], hless, _ => exact absurd (Nat.zero_lt_one) hless
  · rintro (hless | hzero | hneg)
    · exact execute_of_length_lt hless
    · rw [execute_binary, map_eq_error_iff, BinaryOperator.apply_eq_error_iff]
      exact ⟨rfl, Double.beq_zero_iff.mpr hzero, rfl⟩
    · rw [execute_function, map_eq_error_iff, NamedFunction.apply_eq_error_iff]
      exact ⟨rfl, hneg, rfl⟩

/-! ## The depth of the stack -/

/-- How many values more an element leaves than it finds. -/
def Item.gain : Item → Int
  | number _ => 1
  | operator (.binary _) => -1
  | operator .negate | function _ => 0

/-- How many values a sequence leaves, if none of its elements fails. -/
def depth (items : List Item) : Int :=
  (items.map Item.gain).sum

@[simp] theorem depth_nil : depth [] = 0 := rfl

@[simp] theorem depth_cons (item : Item) (items : List Item) :
    depth (item :: items) = item.gain + depth items := by
  simp [depth]

/-- An element puts one value on the stack for those that it takes off. -/
theorem length_of_execute {item : Item} {stack next : List Float}
    (h : item.execute lib mode stack = .ok next) :
    (next.length : Int) = stack.length + item.gain := by
  cases item with
  | number v =>
    cases h
    simp [Item.gain]
  | operator op =>
    rw [Item.execute] at h
    rcases operands?_eq op.arity stack with ⟨-, hnone⟩ | ⟨args, rest, hsome, hargs, rfl⟩
    · rw [hnone] at h
      cases h
    · rw [hsome] at h
      obtain ⟨v, -, rfl⟩ := map_eq_ok_iff.mp h
      cases op <;> simp [Item.gain, hargs, Operator.arity] <;> omega
  | function f =>
    rw [Item.execute] at h
    rcases operands?_eq f.arity stack with ⟨-, hnone⟩ | ⟨args, rest, hsome, hargs, rfl⟩
    · rw [hnone] at h
      cases h
    · obtain ⟨x, rfl⟩ := List.length_eq_one_iff.mp hargs
      rw [hsome] at h
      obtain ⟨v, -, rfl⟩ := map_eq_ok_iff.mp h
      simp [Item.gain]

/-- **A run that succeeds leaves as many values as its depth**, above those that it found. -/
theorem length_of_run {items : List Item} {stack last : List Float}
    (h : (run lib mode stack items).2 = .ok last) :
    (last.length : Int) = stack.length + depth items := by
  induction items generalizing stack with
  | nil =>
    cases h
    simp
  | cons item items ih =>
    rw [run_cons] at h
    obtain ⟨next, hitem, hitems⟩ := bind_eq_ok_iff.mp h
    have hnext := length_of_execute hitem
    rw [ih hitems, depth_cons]
    omega

/-- On an empty stack a run leaves as many values as its depth. -/
theorem depth_of_run {items : List Item} {stack : List Float}
    (h : (run lib mode [] items).2 = .ok stack) : (stack.length : Int) = depth items := by
  simpa using length_of_run h

/-! ## Runs -/

/-- **A run fails at the first element that does**, on the stack that those before it leave. -/
theorem run_eq_error_iff {items : List Item} {stack : List Float} {cause : EvalError} :
    (run lib mode stack items).2 = .error cause
      ↔ ∃ before item after next, items = before ++ item :: after
          ∧ (run lib mode stack before).2 = .ok next ∧ item.Fails next cause := by
  constructor
  · intro h
    induction items generalizing stack with
    | nil => cases h
    | cons item items ih =>
      rw [run_cons] at h
      rcases bind_eq_error h with hitem | ⟨middle, hitem, h⟩
      · exact ⟨[], item, items, stack, rfl, rfl, execute_eq_error_iff.mp hitem⟩
      · obtain ⟨before, last, after, next, rfl, hbefore, hlast⟩ := ih h
        refine ⟨item :: before, last, after, next, rfl, ?_, hlast⟩
        rw [run_cons, hitem]
        exact hbefore
  · rintro ⟨before, item, after, next, rfl, hbefore, hfails⟩
    rw [run_append, hbefore]
    show (run lib mode next (item :: after)).2 = .error cause
    rw [run_cons, execute_eq_error_iff.mpr hfails]
    rfl

/-- The elements of trees that have values leave these values. -/
theorem run_of_stands {trees : List Expression} {values : List Float}
    (h : Stands lib mode trees values) : (run lib mode [] (postOrders trees)).2 = .ok values := by
  induction h with
  | nil => rfl
  | cons hvalue _ ih =>
    rw [postOrders_cons, run_append, ih, ← List.append_nil (Expression.postOrder _)]
    show (run lib mode _ (Expression.postOrder _ ++ [])).2 = _
    rw [run_postOrder_append, hvalue]
    rfl

/-- **A run succeeds on the elements of expressions that have values**, and only on these; it leaves
their values, that of the last expression on top. -/
theorem run_eq_ok_iff {items : List Item} {values : List Float} :
    (run lib mode [] items).2 = .ok values
      ↔ ∃ trees, items = postOrders trees ∧ Stands lib mode trees values := by
  constructor
  · intro h
    obtain ⟨trees, hbuilt, hvalues⟩ := build_of_run .nil h
    exact ⟨trees, by simpa using (postOrders_of_build hbuilt).symm, hvalues⟩
  · rintro ⟨trees, rfl, hvalues⟩
    exact run_of_stands hvalues

/-! ## The outcome -/

/-- A stack has no value of its own unless it holds one value. -/
theorem finalValue_eq_error_iff {stack : List Float} {cause : EvalError} :
    finalValue stack = .error cause ↔ stack.length ≠ 1 ∧ cause = .malformed := by
  rcases stack with _ | ⟨x, _ | ⟨y, rest⟩⟩ <;> simp [finalValue, eq_comm]

/-- A sequence has no value if one of its elements fails, or if another number of values than one is
left in the end. -/
theorem evaluate_eq_error_iff {items : List Item} {cause : EvalError} :
    evaluate lib mode items = .error cause
      ↔ (∃ before item after stack, items = before ++ item :: after
            ∧ (run lib mode [] before).2 = .ok stack ∧ item.Fails stack cause)
        ∨ ∃ stack, (run lib mode [] items).2 = .ok stack ∧ stack.length ≠ 1 ∧ cause = .malformed := by
  rw [← run_eq_error_iff, evaluate]
  cases (run lib mode [] items).2 with
  | error e => simp [Except.bind]
  | ok stack => simp [Except.bind, finalValue_eq_error_iff]

/-- An operand is missing if the first element that fails takes more than the depth before it. -/
theorem evaluate_eq_missingOperand_iff {items : List Item} :
    evaluate lib mode items = .error .missingOperand
      ↔ ∃ before item after stack, items = before ++ item :: after
          ∧ (run lib mode [] before).2 = .ok stack ∧ depth before < item.arity := by
  rw [evaluate_eq_error_iff]
  constructor
  · rintro (⟨before, item, after, stack, rfl, hbefore, hless | _⟩ | ⟨_, -, -, hcause⟩)
    · refine ⟨before, item, after, stack, rfl, hbefore, ?_⟩
      rw [← depth_of_run hbefore]
      exact_mod_cast hless
    · cases hcause
  · rintro ⟨before, item, after, stack, rfl, hbefore, hless⟩
    rw [← depth_of_run hbefore] at hless
    exact .inl ⟨before, item, after, stack, rfl, hbefore, .missingOperand (by exact_mod_cast hless)⟩

/-- A division is by zero if it is the first element that fails. -/
theorem evaluate_eq_divisionByZero_iff {items : List Item} :
    evaluate lib mode items = .error .divisionByZero
      ↔ ∃ before after x y rest, items = before ++ .operator (.binary .div) :: after
          ∧ (run lib mode [] before).2 = .ok (y :: x :: rest) ∧ (y = 0.0 ∨ y = -0.0) := by
  rw [evaluate_eq_error_iff]
  constructor
  · rintro (⟨before, item, after, stack, rfl, hbefore, hfails⟩ | ⟨_, -, -, hcause⟩)
    · cases hfails with
      | divisionByZero hzero => exact ⟨before, after, _, _, _, rfl, hbefore, hzero⟩
    · cases hcause
  · rintro ⟨before, after, x, y, rest, rfl, hbefore, hzero⟩
    exact .inl ⟨before, _, after, _, rfl, hbefore, .divisionByZero hzero⟩

/-- A root is of a negative number if it is the first element that fails. -/
theorem evaluate_eq_negativeRoot_iff {items : List Item} :
    evaluate lib mode items = .error .negativeRoot
      ↔ ∃ before after x rest, items = before ++ .function .sqrt :: after
          ∧ (run lib mode [] before).2 = .ok (x :: rest) ∧ x < 0.0 := by
  rw [evaluate_eq_error_iff]
  constructor
  · rintro (⟨before, item, after, stack, rfl, hbefore, hfails⟩ | ⟨_, -, -, hcause⟩)
    · cases hfails with
      | negativeRoot hneg => exact ⟨before, after, _, _, rfl, hbefore, hneg⟩
    · cases hcause
  · rintro ⟨before, after, x, rest, rfl, hbefore, hneg⟩
    exact .inl ⟨before, _, after, _, rfl, hbefore, .negativeRoot hneg⟩

/-- A sequence is malformed if no element fails and the depth is not one in the end. -/
theorem evaluate_eq_malformed_iff {items : List Item} :
    evaluate lib mode items = .error .malformed
      ↔ ∃ stack, (run lib mode [] items).2 = .ok stack ∧ depth items ≠ 1 := by
  rw [evaluate_eq_error_iff]
  constructor
  · rintro (⟨_, _, _, _, _, _, hfails⟩ | ⟨stack, hrun, hlength, -⟩)
    · cases hfails
    · refine ⟨stack, hrun, ?_⟩
      rw [← depth_of_run hrun]
      exact_mod_cast hlength
  · rintro ⟨stack, hrun, hdepth⟩
    rw [← depth_of_run hrun] at hdepth
    exact .inr ⟨stack, hrun, by exact_mod_cast hdepth, rfl⟩

/-- A sequence has a value if no element fails and the depth is one in the end. -/
theorem exists_evaluate_iff {items : List Item} :
    (∃ v, evaluate lib mode items = .ok v)
      ↔ ∃ stack, (run lib mode [] items).2 = .ok stack ∧ depth items = 1 := by
  constructor
  · rintro ⟨v, h⟩
    have hrun := evaluate_eq_ok_iff.mp h
    exact ⟨[v], hrun, (depth_of_run hrun).symm⟩
  · rintro ⟨stack, hrun, hdepth⟩
    have hlength : stack.length = 1 := by
      rw [← depth_of_run hrun] at hdepth
      exact_mod_cast hdepth
    obtain ⟨v, rfl⟩ := List.length_eq_one_iff.mp hlength
    exact ⟨v, evaluate_eq_ok_iff.mpr hrun⟩

/-- A value is that of the one expression that the sequence is the post-order of. -/
theorem evaluate_eq_ok_iff_tree {items : List Item} {v : Float} :
    evaluate lib mode items = .ok v
      ↔ (∃! e : Expression, items = e.postOrder)
          ∧ ∃ e : Expression, items = e.postOrder ∧ e.value lib mode = .ok v := by
  constructor
  · intro h
    obtain ⟨e, rfl, hvalue⟩ := exists_postOrder_of_evaluate h
    exact ⟨⟨e, rfl, fun d hd => (Expression.postOrder_injective hd).symm⟩, e, rfl, hvalue⟩
  · rintro ⟨-, e, rfl, hvalue⟩
    rw [evaluate_postOrder, hvalue]

/-- What a postfix sequence comes to. -/
structure Outcome (lib : MathLibrary) (mode : AngleMode) (items : List Item) : Prop where
  /-- An operand is missing if the first element that fails takes more than the depth before it. -/
  missingOperand : evaluate lib mode items = .error .missingOperand
    ↔ ∃ before item after stack, items = before ++ item :: after
        ∧ (run lib mode [] before).2 = .ok stack ∧ depth before < item.arity
  /-- A division is by zero if it is the first element that fails. -/
  divisionByZero : evaluate lib mode items = .error .divisionByZero
    ↔ ∃ before after x y rest, items = before ++ .operator (.binary .div) :: after
        ∧ (run lib mode [] before).2 = .ok (y :: x :: rest) ∧ (y = 0.0 ∨ y = -0.0)
  /-- A root is of a negative number if it is the first element that fails. -/
  negativeRoot : evaluate lib mode items = .error .negativeRoot
    ↔ ∃ before after x rest, items = before ++ .function .sqrt :: after
        ∧ (run lib mode [] before).2 = .ok (x :: rest) ∧ x < 0.0
  /-- A sequence is malformed if no element fails and the depth is not one in the end. -/
  malformed : evaluate lib mode items = .error .malformed
    ↔ ∃ stack, (run lib mode [] items).2 = .ok stack ∧ depth items ≠ 1
  /-- Otherwise it has a value. -/
  value : (∃ v, evaluate lib mode items = .ok v)
    ↔ ∃ stack, (run lib mode [] items).2 = .ok stack ∧ depth items = 1
  /-- The value is that of the one expression that the sequence is the post-order of. -/
  tree (v : Float) : evaluate lib mode items = .ok v
    ↔ (∃! e : Expression, items = e.postOrder)
        ∧ ∃ e : Expression, items = e.postOrder ∧ e.value lib mode = .ok v
  /-- No element fails if the elements are those of expressions that have values; the stack holds these
  values then, as many as the depth. -/
  stack (values : List Float) : (run lib mode [] items).2 = .ok values
    ↔ (values.length : Int) = depth items
        ∧ ∃ trees, items = postOrders trees ∧ Stands lib mode trees values

/-- **The outcome of a postfix sequence.** Whatever the elements are, the outcome is told by the first
that fails and by the depth. An operator or a function gets exactly as many operands as it takes, in the
order in which they were put on the stack, so that once it has them none is missing. -/
theorem evaluate_outcome (lib : MathLibrary) (mode : AngleMode) :
    (∀ items, Outcome lib mode items)
      ∧ (∀ (op : Operator) (stack : List Float),
          stack.length < op.arity ∧ operands? op.arity stack = none
            ∨ ∃ args rest, operands? op.arity stack = some (args, rest)
                ∧ stack = args.reverse ++ rest ∧ args.length = op.arity
                ∧ op.apply lib args ≠ .error .missingOperand)
      ∧ ∀ (f : NamedFunction) (stack : List Float),
          stack = [] ∧ operands? f.arity stack = none
            ∨ ∃ x rest, operands? f.arity stack = some ([x], rest) ∧ stack = x :: rest := by
  refine ⟨fun items => ?_, fun op stack => ?_, fun f stack => ?_⟩
  · exact {
      missingOperand := evaluate_eq_missingOperand_iff
      divisionByZero := evaluate_eq_divisionByZero_iff
      negativeRoot := evaluate_eq_negativeRoot_iff
      malformed := evaluate_eq_malformed_iff
      value := exists_evaluate_iff
      tree := fun v => evaluate_eq_ok_iff_tree
      stack := fun values =>
        ⟨fun h => ⟨depth_of_run h, run_eq_ok_iff.mp h⟩, fun h => run_eq_ok_iff.mpr h.2⟩ }
  · rcases operands?_eq op.arity stack with hnone | ⟨args, rest, hsome, hargs, hstack⟩
    · exact .inl hnone
    · exact .inr ⟨args, rest, hsome, hstack, hargs, apply_ne_missingOperand hargs⟩
  · rcases operands?_eq f.arity stack with ⟨hless, hnone⟩ | ⟨args, rest, hsome, hargs, hstack⟩
    · exact .inl ⟨List.length_eq_zero_iff.mp (Nat.lt_one_iff.mp hless), hnone⟩
    · obtain ⟨x, rfl⟩ := List.length_eq_one_iff.mp hargs
      exact .inr ⟨x, rest, hsome, hstack⟩

end Calculator.Rpn
