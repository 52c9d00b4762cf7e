import Calculator.Evaluation
import Calculator.Expression.Meaning
import Calculator.Proofs.Double.Bits
import Calculator.Proofs.Outcome
import Calculator.Proofs.Rpn.Grammar
import Calculator.Proofs.Token.Spelling

/-!
# The meaning of expressions

The three stages together compute what an expression means: of every spelling of every expression of
the grammar the calculator finds the value that plain recursion over its tree gives, or the error of
the first node that has no value.

* `calculate_outcome` is the outcome of a text, stage by stage;
* `Expression.value_eq_error` tells the errors an expression can have;
* `Expression.means_iff` says that the value by recursion is the one that the rules give, which
  `BinaryOperator.yields_iff` and `NamedFunction.yields_iff` say of a single operation.

The meaning of a spelled expression follows from these, from the postfix order of an expression and
from the tokens of a spelling.
-/

namespace Calculator

variable (lib : MathLibrary) (mode : AngleMode)

/-- The report of a failure leaves the outcome as it is. -/
theorem outcome_evaluate (text : String) :
    (evaluate lib mode text).outcome = (calculate lib mode text).outcome := by
  rw [evaluate]
  cases hcalculate : (calculate lib mode text).outcome <;> simp [hcalculate]

/-- The outcome of a text that has tokens is that of their postfix order. -/
theorem calculate_outcome {text : String} {tokens : List Token} (htext : tokenize text = .ok tokens)
    (hne : tokens ≠ []) :
    (calculate lib mode text).outcome
      = match Rpn.ofTokens tokens with
        | .error e => .error (.structural e)
        | .ok items => (Rpn.evaluate lib mode items).mapError .numerical := by
  obtain ⟨token, tokens, rfl⟩ := List.exists_cons_of_ne_nil hne
  cases hitems : Rpn.ofTokens (token :: tokens) <;> simp only [calculate, htext, hitems]
  rfl

/-- An expression of the grammar has tokens. -/
theorem Grammar.Derives.ne_nil {phrase : Grammar.Phrase} {ts : List Token} {e : Expression}
    (h : Grammar.Derives phrase ts e) : ts ≠ [] := by
  rintro rfl
  simpa using h.afterOperand false

/-- The only operation on two operands that can fail is the division by a zero of either sign. -/
theorem BinaryOperator.apply_eq_error_iff {op : BinaryOperator} {x y : Float} {cause : EvalError} :
    op.apply lib x y = .error cause ↔ op = .div ∧ (y == 0.0) = true ∧ cause = .divisionByZero := by
  cases op with
  | div => by_cases hy : (y == 0.0) = true <;> simp [BinaryOperator.apply, hy, eq_comm]
  | add | sub | mul | pow => simp [BinaryOperator.apply]

/-- The only function that can fail is the root, of a negative number. -/
theorem NamedFunction.apply_eq_error_iff {f : NamedFunction} {x : Float} {cause : EvalError} :
    f.apply lib mode x = .error cause ↔ f = .sqrt ∧ x < 0.0 ∧ cause = .negativeRoot := by
  cases f with
  | sqrt => by_cases hx : x < 0.0 <;> simp [NamedFunction.apply, hx, eq_comm]
  | sin | cos | tan => simp [NamedFunction.apply]

/-- **The errors of an expression.** The only ones are a divisor that is zero and the root of a
negative number. -/
theorem Expression.value_eq_error {e : Expression} {cause : EvalError}
    (h : e.value lib mode = .error cause) : cause = .divisionByZero ∨ cause = .negativeRoot := by
  -- An error of an operand is passed on, and the operation itself adds its own one.
  induction e with
  | number v => cases h
  | negate e ih =>
    cases he : e.value lib mode with
    | error c =>
      rw [Expression.value, he] at h
      cases h
      exact ih he
    | ok x =>
      rw [Expression.value, he] at h
      cases h
  | binary op left right ihl ihr =>
    rcases bind_eq_error h with hl | ⟨x, -, h⟩
    · exact ihl hl
    · rcases bind_eq_error h with hr | ⟨y, -, h⟩
      · exact ihr hr
      · exact .inl ((BinaryOperator.apply_eq_error_iff lib).mp h).2.2
  | call f e ih =>
    rcases bind_eq_error h with he | ⟨x, -, h⟩
    · exact ih he
    · exact .inr ((NamedFunction.apply_eq_error_iff lib mode).mp h).2.2

/-! ## The rules -/

/-- An operator computes what its rules give. -/
theorem BinaryOperator.yields_iff {op : BinaryOperator} {x y : Float} {r : Except EvalError Float} :
    op.Yields lib x y r ↔ op.apply lib x y = r := by
  constructor
  · rintro (_ | _ | _ | ⟨hpositive, hnegative⟩ | hzero | _)
    case div =>
      have hy : ¬ (y == 0.0) = true := fun hy => (Double.beq_zero_iff.mp hy).elim hpositive hnegative
      exact if_neg hy
    case divisionByZero => exact if_pos (Double.beq_zero_iff.mpr hzero)
    all_goals rfl
  · rintro rfl
    -- Only the division looks at its operands.
    cases op with
    | add => exact .add
    | sub => exact .sub
    | mul => exact .mul
    | pow => exact .pow
    | div =>
      rw [apply]
      split
      case isTrue hy => exact .divisionByZero (Double.beq_zero_iff.mp hy)
      case isFalse hy =>
        rw [Double.beq_zero_iff, not_or] at hy
        exact .div hy.1 hy.2

/-- An angle is read in the one way that its mode says. -/
theorem AngleMode.reads_iff {x angle : Float} : mode.Reads x angle ↔ mode.toRadians x = angle := by
  constructor
  · rintro (_ | _) <;> rfl
  · rintro rfl
    cases mode with
    | degrees => exact .degrees
    | radians => exact .radians

/-- A function computes what its rules give. -/
theorem NamedFunction.yields_iff {f : NamedFunction} {x : Float} {r : Except EvalError Float} :
    f.Yields lib mode x r ↔ f.apply lib mode x = r := by
  constructor
  · rintro (hroot | hroot | hangle | hangle | hangle)
    case root => exact if_neg hroot
    case negativeRoot => exact if_pos hroot
    all_goals rw [apply, mode.reads_iff.mp hangle]
  · rintro rfl
    have hangle : mode.Reads x (mode.toRadians x) := mode.reads_iff.mpr rfl
    cases f with
    | sin => exact .sin hangle
    | cos => exact .cos hangle
    | tan => exact .tan hangle
    | sqrt =>
      rw [apply]
      split
      case isTrue hroot => exact .negativeRoot hroot
      case isFalse hroot => exact .root hroot

/-- **The value of an expression is what it means.** -/
theorem Expression.means_iff {e : Expression} {r : Except EvalError Float} :
    e.Means lib mode r ↔ e.value lib mode = r := by
  constructor
  · intro h
    induction h with
    | number v => rfl
    | negate _ ih | negateFails _ ih =>
      rw [value, ih]
      rfl
    | binary _ _ hop ihd ihe =>
      rw [value, ihd, ihe]
      exact (BinaryOperator.yields_iff lib).mp hop
    | leftFails _ ih =>
      rw [value, ih]
      rfl
    | rightFails _ _ ihd ihe =>
      rw [value, ihd, ihe]
      rfl
    | call _ hf ih =>
      rw [value, ih]
      exact (NamedFunction.yields_iff lib mode).mp hf
    | argumentFails _ ih =>
      rw [value, ih]
      rfl
  · -- The rule is told by how far the operands have come.
    intro h
    induction e generalizing r with
    | number v => exact h ▸ .number v
    | negate e ih =>
      cases he : e.value lib mode with
      | error c =>
        rw [value, he] at h
        exact h ▸ .negateFails (ih he)
      | ok x =>
        rw [value, he] at h
        exact h ▸ .negate (ih he)
    | binary op d e ihd ihe =>
      cases hd : d.value lib mode with
      | error c =>
        rw [value, hd] at h
        exact h ▸ .leftFails (ihd hd)
      | ok x =>
        cases he : e.value lib mode with
        | error c =>
          rw [value, hd, he] at h
          exact h ▸ .rightFails (ihd hd) (ihe he)
        | ok y =>
          rw [value, hd, he] at h
          exact .binary (ihd hd) (ihe he) ((BinaryOperator.yields_iff lib).mpr h)
    | call f e ih =>
      cases he : e.value lib mode with
      | error c =>
        rw [value, he] at h
        exact h ▸ .argumentFails (ih he)
      | ok x =>
        rw [value, he] at h
        exact .call (ih he) ((NamedFunction.yields_iff lib mode).mpr h)

/-! ## Spelled expressions -/

/-- **What a spelled expression means.** The outcome is the value of its tree, which is the one that the
rules give, and if there is none, the cause is a divisor that is zero or the root of a negative number:
never the spelling, never the order of the tokens, never an operand that is missing or left over. -/
theorem calculate_eq_value {text : String} {ts : List Token} {e : Expression}
    (he : Grammar.Derives .sum ts e) (htext : Spells text.toList ts) :
    (calculate lib mode text).outcome = (e.value lib mode).mapError .numerical
      ∧ (∀ r, e.Means lib mode r ↔ (calculate lib mode text).outcome = r.mapError .numerical)
      ∧ ∀ cause, (calculate lib mode text).outcome = .error cause →
          cause = .numerical .divisionByZero ∨ cause = .numerical .negativeRoot := by
  have htokens : tokenize text = .ok ts := lex_of_spells htext he.isChain
  have hvalue : (calculate lib mode text).outcome = (e.value lib mode).mapError .numerical := by
    rw [calculate_outcome lib mode htokens he.ne_nil, he.ofTokens_eq, ← Rpn.evaluate_postOrder]
  refine ⟨hvalue, fun r => ?_, fun cause hcause => ?_⟩
  · rw [hvalue, Expression.means_iff]
    have hinjective : Function.Injective Failure.numerical := fun _ _ => Failure.numerical.inj
    exact (mapError_injective hinjective).eq_iff.symm
  rw [hvalue] at hcause
  cases hv : e.value lib mode with
  | ok v => rw [hv] at hcause; cases hcause
  | error c =>
    rw [hv] at hcause
    cases hcause
    rcases Expression.value_eq_error lib mode hv with rfl | rfl
    · exact .inl rfl
    · exact .inr rfl

/-- The root of a negative number is found before the zero that it would be divided by: blanks,
points and the missing parentheses of the divisor make no difference. -/
theorem calculate_root_before_division :
    let four := (⟨4, 0⟩ : Decimal).toFloat false
    let zero := (⟨0, -1⟩ : Decimal).toFloat false
    let ts : List Token := [.function .sqrt, .openParen, .operator '-', .number four, .closeParen,
      .operator '/', .number zero]
    Grammar.Derives .sum ts (.binary .div (.call .sqrt (.negate (.number four))) (.number zero))
      ∧ Spells " sqrt( -4.)\t/.0".toList ts
      ∧ (calculate .native .degrees " sqrt( -4.)\t/.0").outcome
          = .error (.numerical .negativeRoot) := by
  intro four zero ts
  have hroot : Grammar.Derives .product
      [.function .sqrt, .openParen, .operator '-', .number four, .closeParen]
      (.call .sqrt (.negate (.number four))) :=
    .factor (.base (.unsigned (.call .sqrt
      (.term (.factor (.base (.negate (.unsigned (.number four)))))))))
  have he : Grammar.Derives .sum ts
      (.binary .div (.call .sqrt (.negate (.number four))) (.number zero)) :=
    .term (.product .div (.inr rfl) hroot (.base (.unsigned (.number zero))))
  have hfour : Lexeme ['4', '.'] (.number four) :=
    .number (@Literal.point ['4'] [] (by simp) (by simp) (by simp))
      (by decide +kernel)
  have hzero : Lexeme ['.', '0'] (.number zero) :=
    .number (@Literal.point [] ['0'] (by simp) (by simp) (by simp))
      (by decide +kernel)
  have hnone : ∀ c ∈ ([] : List Char), Text.isBlank c = true := by simp
  have hspace : ∀ c ∈ [' '], Text.isBlank c = true := List.all_eq_true.mp (by decide)
  have htab : ∀ c ∈ ['\t'], Text.isBlank c = true := List.all_eq_true.mp (by decide)
  have hspelled : Spells ([' '] ++ ['s', 'q', 'r', 't'] ++ ([] ++ ['('] ++ ([' '] ++ ['-'] ++
      ([] ++ ['4', '.'] ++ ([] ++ [')'] ++ (['\t'] ++ ['/'] ++ ([] ++ ['.', '0'] ++ []))))))) ts :=
    .cons hspace (.function .sqrt) (.cons hnone .openParen (.cons hspace (.operator .sub)
      (.cons hnone hfour (.cons hnone .closeParen (.cons htab (.operator .div)
        (.cons hnone hzero (.nil hnone)))))))
  have htext : Spells " sqrt( -4.)\t/.0".toList ts := hspelled
  have hnegative : -four < 0.0 := by decide +kernel
  have hmeans : Expression.Means .native .degrees
      (.binary .div (.call .sqrt (.negate (.number four))) (.number zero)) (.error .negativeRoot) :=
    .leftFails (.call (.negate (.number four)) (.negativeRoot hnegative))
  exact ⟨he, htext, ((calculate_eq_value .native .degrees he htext).2.1 _).mp hmeans⟩

end Calculator
