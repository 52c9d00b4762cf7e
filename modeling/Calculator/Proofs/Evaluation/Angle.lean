import Calculator.Evaluation
import Calculator.Proofs.Rpn.Conservation

/-!
# What the angle mode changes

The angle mode is handed through the whole evaluation, but only the trigonometric functions look at it.

* `NamedFunction.readsAngle` are these functions, `MathLibrary.inDegrees` is a library in which they take
  degrees by themselves;
* `run_congr` compares two runs of one sequence: a run is told by what its functions give, hence
  `run_of_not_readsAngle` and `run_inDegrees`;
* `function_mem_iff` says that a conversion to postfix order keeps the functions, `evaluate_congr` carries
  the comparison of runs to texts;
* `evaluate_mode` puts them together.
-/

namespace Calculator

/-! ## Functions -/

/-- Whether a function reads its argument as an angle. -/
def NamedFunction.readsAngle : NamedFunction → Bool
  | sqrt => false
  | sin | cos | tan => true

/-- A function that reads no angle has the same value in both modes. -/
theorem NamedFunction.apply_of_not_readsAngle {f : NamedFunction} (h : f.readsAngle = false)
    (lib : MathLibrary) (mode other : AngleMode) (x : Float) :
    f.apply lib mode x = f.apply lib other x := by
  cases f with
  | sqrt => rfl
  | sin | cos | tan => cases h

/-- The library with trigonometric functions that take their arguments in degrees. -/
def MathLibrary.inDegrees (lib : MathLibrary) : MathLibrary where
  sin x := lib.sin (AngleMode.degrees.toRadians x)
  cos x := lib.cos (AngleMode.degrees.toRadians x)
  tan x := lib.tan (AngleMode.degrees.toRadians x)
  pow := lib.pow

/-- Degrees are a matter of the library. -/
theorem NamedFunction.apply_inDegrees (f : NamedFunction) (lib : MathLibrary) (x : Float) :
    f.apply lib.inDegrees .radians x = f.apply lib .degrees x := by
  cases f <;> rfl

/-- An operator looks at the powers of the library and at nothing else of it. -/
theorem Operator.apply_congr {lib other : MathLibrary} (hpow : lib.pow = other.pow) (op : Operator)
    (args : List Float) : op.apply lib args = op.apply other args := by
  have hbinary (b : BinaryOperator) (x y : Float) : b.apply lib x y = b.apply other x y := by
    cases b <;> simp [BinaryOperator.apply, hpow]
  match op, args with
  | .binary b, [x, y] => exact hbinary b x y
  | .binary _, [] | .binary _, [_] | .binary _, _ :: _ :: _ :: _ => rfl
  | .negate, [_] => rfl
  | .negate, [] | .negate, _ :: _ :: _ => rfl

namespace Rpn

variable {lib other : MathLibrary} {mode mode' : AngleMode}

/-! ## Two runs of one sequence -/

/-- An element that is a function has to have the same values on both sides, any other one has them. -/
theorem execute_congr (hpow : lib.pow = other.pow) {item : Item}
    (hfunction : ∀ f, item = .function f → ∀ x, f.apply lib mode x = f.apply other mode' x)
    (stack : List Float) : item.execute lib mode stack = item.execute other mode' stack := by
  cases item with
  | number v => rfl
  | operator op => simp only [Item.execute, Operator.apply_congr hpow]
  | function f => simp only [Item.execute, hfunction f rfl]

/-- **Two runs of one sequence agree**, stack by stack and in the error, if its functions have the same
values in both. -/
theorem run_congr (hpow : lib.pow = other.pow) {items : List Item}
    (hfunction : ∀ f, .function f ∈ items → ∀ x, f.apply lib mode x = f.apply other mode' x)
    (stack : List Float) : run lib mode stack items = run other mode' stack items := by
  induction items generalizing stack with
  | nil => rfl
  | cons item items ih =>
    have hitem : item.execute lib mode stack = item.execute other mode' stack :=
      execute_congr hpow (fun f hf => hfunction f (by simp [hf])) stack
    have hitems := ih fun f hf => hfunction f (List.mem_cons_of_mem item hf)
    simp only [run, hitem, hitems]

/-- A run in degrees is a run in radians with functions that take degrees. -/
theorem run_inDegrees (lib : MathLibrary) (items : List Item) (stack : List Float) :
    run lib .degrees stack items = run lib.inDegrees .radians stack items := by
  have hpow : lib.pow = lib.inDegrees.pow := rfl
  exact run_congr hpow (fun f _ x => (f.apply_inDegrees lib x).symm) stack

/-- A run without trigonometric functions is the same in both modes. -/
theorem run_of_not_readsAngle (lib : MathLibrary) {items : List Item}
    (h : ∀ f, .function f ∈ items → f.readsAngle = false) (stack : List Float) :
    run lib .degrees stack items = run lib .radians stack items :=
  run_congr rfl (fun f hf => NamedFunction.apply_of_not_readsAngle (h f hf) lib _ _) stack

/-- The functions of a row of tokens and of its postfix order are the same. -/
theorem function_mem_iff {ts : List Token} {items : List Item} (h : ofTokens ts = .ok items)
    (f : NamedFunction) : .function f ∈ items ↔ .function f ∈ ts := by
  have hperm := (items_perm h).filterMap Item.function?
  rw [itemsBehind_function?] at hperm
  have hitem : .function f ∈ items ↔ f ∈ items.filterMap Item.function? := by
    rw [List.mem_filterMap]
    constructor
    · exact fun hmem => ⟨_, hmem, rfl⟩
    · rintro ⟨item, hmem, hitem⟩
      cases item <;> cases hitem
      exact hmem
  have htoken : .function f ∈ ts ↔ f ∈ ts.filterMap Token.function? := by
    rw [List.mem_filterMap]
    constructor
    · exact fun hmem => ⟨_, hmem, rfl⟩
    · rintro ⟨t, hmem, ht⟩
      cases t <;> cases ht
      exact hmem
  rw [hitem, htoken]
  exact hperm.mem_iff

end Rpn

/-! ## Texts -/

/-- **Two evaluations of one text agree** if the runs of its postfix order do: all else is done before the
mode and the library are looked at. -/
theorem evaluate_congr {lib other : MathLibrary} {mode mode' : AngleMode} {text : String}
    (h : ∀ ts items, tokenize text = .ok ts → Rpn.ofTokens ts = .ok items →
      Rpn.run lib mode [] items = Rpn.run other mode' [] items) :
    evaluate lib mode text = evaluate other mode' text := by
  have hcalculate : calculate lib mode text = calculate other mode' text := by
    cases htext : tokenize text with
    | error e => simp only [calculate, htext]
    | ok ts =>
      cases ts with
      | nil => simp only [calculate, htext]
      | cons t ts =>
        cases hitems : Rpn.ofTokens (t :: ts) with
        | error e => simp only [calculate, htext, hitems]
        | ok items => simp only [calculate, htext, hitems, h _ _ htext hitems]
  simp only [evaluate, hcalculate]

/-- **What the angle mode changes.** A text is evaluated alike in both modes, in the value, in the error
and in all that is reported, if none of its tokens is a trigonometric function, or if it has no tokens or
these have no postfix order. So is every postfix sequence without trigonometric functions, on every stack
and whether it is an expression or not. And all that degrees change is what these functions do: to evaluate
in degrees is to evaluate in radians with functions that take degrees. -/
theorem evaluate_mode (lib : MathLibrary) :
    (∀ text, (∀ ts items, tokenize text = .ok ts → Rpn.ofTokens ts = .ok items →
          ∀ f, .function f ∈ ts → f.readsAngle = false) →
        evaluate lib .degrees text = evaluate lib .radians text)
      ∧ (∀ items, (∀ f, .function f ∈ items → f.readsAngle = false) →
          Rpn.evaluate lib .degrees items = Rpn.evaluate lib .radians items
            ∧ ∀ stack, Rpn.run lib .degrees stack items = Rpn.run lib .radians stack items)
      ∧ (∀ text, evaluate lib .degrees text = evaluate lib.inDegrees .radians text)
      ∧ ∀ items stack, Rpn.run lib .degrees stack items = Rpn.run lib.inDegrees .radians stack items := by
  refine ⟨fun text h => ?_, fun items h => ⟨?_, Rpn.run_of_not_readsAngle lib h⟩, fun text => ?_,
    Rpn.run_inDegrees lib⟩
  · refine evaluate_congr fun ts items hts hitems => Rpn.run_of_not_readsAngle lib (fun f hf => ?_) []
    exact h ts items hts hitems f ((Rpn.function_mem_iff hitems f).mp hf)
  · rw [Rpn.evaluate, Rpn.evaluate, Rpn.run_of_not_readsAngle lib h]
  · exact evaluate_congr fun _ items _ _ => Rpn.run_inDegrees lib items []

/-- A root and a division by zero are the same in both modes, with the same report; and so is a sine whose
parenthesis is left open, and a postfix sequence in which an operand is missing. -/
theorem evaluate_mode_root_and_open_sine :
    (∀ ts items, tokenize "sqrt(9)/0" = .ok ts → Rpn.ofTokens ts = .ok items →
        ∀ f, .function f ∈ ts → f.readsAngle = false)
      ∧ evaluate .native .degrees "sqrt(9)/0" = evaluate .native .radians "sqrt(9)/0"
      ∧ evaluate .native .degrees "sin(90" = evaluate .native .radians "sin(90"
      ∧ let items : List Rpn.Item := [.number 4.0, .function .sqrt, .operator (.binary .add)]
        (∀ f, .function f ∈ items → f.readsAngle = false)
          ∧ Rpn.evaluate .native .degrees items = Rpn.evaluate .native .radians items := by
  have hroot : ∀ ts items, tokenize "sqrt(9)/0" = .ok ts → Rpn.ofTokens ts = .ok items →
      ∀ f, .function f ∈ ts → f.readsAngle = false := by
    intro ts items hts _ f hf
    have hread : (tokenize "sqrt(9)/0").toOption.all fun ts =>
        ts.all fun t => t.function?.all fun f => !f.readsAngle := by decide +kernel
    rw [hts] at hread
    simpa [Token.function?] using List.all_eq_true.mp hread _ hf
  have hopen : ∀ ts items, tokenize "sin(90" = .ok ts → Rpn.ofTokens ts = .ok items →
      ∀ f, .function f ∈ ts → f.readsAngle = false := by
    intro ts items hts hitems
    have hread : ((tokenize "sin(90").toOption.bind fun ts => (Rpn.ofTokens ts).toOption) = none := by
      decide +kernel
    rw [hts] at hread
    simp [Except.toOption, hitems] at hread
  have hitems : ∀ f, Rpn.Item.function f ∈ [.number 4.0, .function .sqrt, .operator (.binary .add)] →
      f.readsAngle = false := by
    intro f hf
    obtain rfl : f = .sqrt := by simpa using hf
    rfl
  exact ⟨hroot, (evaluate_mode .native).1 _ hroot, (evaluate_mode .native).1 _ hopen, hitems,
    ((evaluate_mode .native).2.1 _ hitems).1⟩

end Calculator
