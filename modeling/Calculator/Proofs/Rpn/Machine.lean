import Calculator.Expression
import Calculator.Proofs.Outcome

/-!
# Runs of the machine

* `run_append` cuts a run in two, `run_above` puts it above values that are on the stack already;
* `evaluate_replace` says that a sequence that has a value can stand for this value everywhere;
* `evaluate_negate` says that a sign behind a number is the opposite number.
-/

namespace Calculator.Rpn

variable (lib : MathLibrary) (mode : AngleMode)

/-- **A run can be cut anywhere.** The second part goes on with the stack of the first. -/
theorem run_append (stack : List Float) (items more : List Item) :
    (run lib mode stack (items ++ more)).2
      = (run lib mode stack items).2.bind fun next => (run lib mode next more).2 := by
  induction items generalizing stack with
  | nil => rfl
  | cons item items ih =>
    rw [List.cons_append, run_cons, run_cons]
    cases item.execute lib mode stack with
    | error e => rfl
    | ok next => exact ih next

/-! ## Runs above other values -/

theorem operands?_append {n : Nat} {stack args rest : List Float}
    (h : operands? n stack = some (args, rest)) (below : List Float) :
    operands? n (stack ++ below) = some (args, rest ++ below) := by
  rw [operands?] at h
  split at h
  case isFalse => cases h
  case isTrue hn =>
    cases h
    have hlength : n ≤ (stack ++ below).length := by
      rw [List.length_append]
      exact Nat.le_add_right_of_le hn
    rw [operands?, if_pos hlength, List.take_append_of_le_length hn,
      List.drop_append_of_le_length hn]

variable {lib mode}

/-- An element that succeeds does not see what is below its operands. -/
theorem Item.execute_above {item : Item} {stack next : List Float}
    (h : item.execute lib mode stack = .ok next) (below : List Float) :
    item.execute lib mode (stack ++ below) = .ok (next ++ below) := by
  cases item with
  | number v =>
    cases h
    rfl
  | operator op =>
    rw [execute] at h ⊢
    split at h
    case h_1 => cases h
    case h_2 args rest hop =>
      obtain ⟨v, hv, rfl⟩ := map_eq_ok_iff.mp h
      simp only [operands?_append hop below, hv]
      rfl
  | function f =>
    rw [execute] at h ⊢
    split at h
    case h_2 => cases h
    case h_1 x rest hf =>
      obtain ⟨v, hv, rfl⟩ := map_eq_ok_iff.mp h
      simp only [operands?_append hf below, hv]
      rfl

/-- **A run that succeeds does not see what is below its stack.** -/
theorem run_above {stack next : List Float} {items : List Item}
    (h : (run lib mode stack items).2 = .ok next) (below : List Float) :
    (run lib mode (stack ++ below) items).2 = .ok (next ++ below) := by
  induction items generalizing stack with
  | nil =>
    cases h
    rfl
  | cons item items ih =>
    rw [run_cons] at h ⊢
    obtain ⟨middle, hitem, hitems⟩ := bind_eq_ok_iff.mp h
    rw [Item.execute_above hitem below]
    exact ih hitems

/-! ## Sequences that have a value -/

/-- A sequence has a value if it leaves this and nothing else. -/
theorem evaluate_eq_ok_iff {items : List Item} {v : Float} :
    evaluate lib mode items = .ok v ↔ (run lib mode [] items).2 = .ok [v] := by
  rw [evaluate]
  cases (run lib mode [] items).2 with
  | error e => simp [Except.bind]
  | ok stack =>
    rcases stack with _ | ⟨x, _ | ⟨y, rest⟩⟩ <;> simp [Except.bind, finalValue]

/-- **A sequence that has a value can stand for it**, whatever comes before and after. -/
theorem evaluate_replace {items : List Item} {v : Float} (h : evaluate lib mode items = .ok v)
    (before after : List Item) :
    evaluate lib mode (before ++ items ++ after)
      = evaluate lib mode (before ++ .number v :: after) := by
  have hrun := evaluate_eq_ok_iff.mp h
  rw [evaluate, evaluate, List.append_assoc, run_append, run_append]
  cases (run lib mode [] before).2 with
  | error e => rfl
  | ok stack =>
    have habove : (run lib mode stack items).2 = .ok (v :: stack) := run_above hrun stack
    simp only [Except.bind]
    rw [run_append, habove, run_cons]
    rfl

/-- A sign behind a number is the opposite number, whatever comes before and after. -/
theorem evaluate_negate (lib : MathLibrary) (mode : AngleMode) (items : List Item) (v : Float)
    (more : List Item) :
    evaluate lib mode (items ++ .number v :: .operator .negate :: more)
      = evaluate lib mode (items ++ .number (-v) :: more) := by
  have hvalue : evaluate lib mode [.number v, .operator .negate] = .ok (-v) := rfl
  simpa using evaluate_replace hvalue items more

end Calculator.Rpn
