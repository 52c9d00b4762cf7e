import Calculator.Journal
import Calculator.Rpn.Machine

/-!
# Evaluation

An expression is split into tokens, the tokens are put into postfix order, and the postfix sequence
is computed.

* `calculate` is the outcome and what is reported on the way;
* `evaluate` reports a failure too;
* `Working` shows the tokens and the postfix order of an expression.
-/

namespace Calculator

/-- The outcome of an expression, and what has been reported on the way. -/
structure Evaluation where
  outcome : Except Failure Float
  journal : List Event

/-- Computes an expression. One without tokens is worth zero, and nothing is reported. -/
def calculate (lib : MathLibrary) (mode : AngleMode) (text : String) : Evaluation :=
  match tokenize text with
  | .error e => ⟨.error (.lexical e), []⟩
  | .ok [] => ⟨.ok 0.0, []⟩
  | .ok tokens =>
    match Rpn.ofTokens tokens with
    | .error e => ⟨.error (.structural e), [.tokenized tokens]⟩
    | .ok items =>
      let (trail, final) := Rpn.run lib mode [] items
      ⟨(final.bind Rpn.finalValue).mapError .numerical,
        .tokenized tokens :: .converted items :: trail.map .computed⟩

/-- Computes an expression and reports the failure, if it has no value. -/
def evaluate (lib : MathLibrary) (mode : AngleMode) (text : String) : Evaluation :=
  let e := calculate lib mode text
  match e.outcome with
  | .ok _ => e
  | .error cause => ⟨e.outcome, e.journal ++ [.refused text cause]⟩

namespace Evaluation

/-- Why there is no value. -/
def failure? (e : Evaluation) : Option Failure :=
  match e.outcome with
  | .ok _ => none
  | .error cause => some cause

/-- The value, undefined after a failure. -/
def value (e : Evaluation) : Float :=
  match e.outcome with
  | .ok v => v
  | .error _ => 0.0 / 0.0

end Evaluation

/-- The steps towards a value, as shown to the user: the tokens and the postfix order. -/
structure Working where
  tokens : String := ""
  rpn : String := ""
deriving DecidableEq, Repr

/-- The working of an expression, or why it has no postfix order. -/
def Working.ofText (text : String) : Except Failure Working :=
  match tokenize text with
  | .error e => .error (.lexical e)
  | .ok tokens =>
    match Rpn.ofTokens tokens with
    | .error e => .error (.structural e)
    | .ok items => .ok ⟨Token.line tokens, Rpn.line items⟩

end Calculator
