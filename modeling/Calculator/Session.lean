import Calculator.Display
import Calculator.Evaluation
import Calculator.Key
import Calculator.Settings

/-!
# Sessions

The state of the calculator between two keys.

* `Session` is the state, `Session.start` the first one;
* `Session.press` is the state after a key, `Session.pressAll` after several, with what is reported.
-/

namespace Calculator

/-- The state of the calculator. -/
structure Session where
  /-- The expression being typed. -/
  expression : String := ""
  /-- The result of the last evaluation. -/
  result : String := "0"
  /-- Why that evaluation failed, until the next key that edits the expression. -/
  failure : Option Failure := none
  /-- The working of that evaluation, empty if there is none. -/
  working : Working := {}
  mode : AngleMode
  theme : Theme
deriving DecidableEq, Repr

namespace Session

/-- The state at start-up. -/
def start (settings : Settings) : Session where
  mode := settings.mode
  theme := settings.theme

/-- The message of the last failure, if it is still shown. -/
def error (s : Session) : String :=
  (s.failure.map Failure.message).getD ""

/-- What is shown as the answer: the result, or the message of a failure in its place. -/
def answer (s : Session) : String :=
  (s.failure.map Failure.message).getD s.result

/-- The state after the evaluation of the expression. -/
def solve (s : Session) (e : Evaluation) : Session :=
  { s with
    result := if e.failure?.isSome then "Error" else display e.value
    failure := e.failure?
    working := (Working.ofText s.expression).toOption.getD {} }

/-- The state after a key, and what is reported. The keys of the settings leave a failure in sight;
clearing keeps the settings. -/
def press (lib : MathLibrary) (s : Session) : Key → Session × List Event
  | .equals =>
    let e := evaluate lib s.mode s.expression
    (s.solve e, e.journal)
  | .angleMode => ({ s with mode := s.mode.toggle }, [.angleModeSet s.mode.toggle])
  | .theme => ({ s with theme := s.theme.toggle }, [.themeSet s.theme.toggle])
  | .clear => ({ mode := s.mode, theme := s.theme }, [])
  | key =>
    ({ s with expression := String.ofList (key.edit s.expression.toList), failure := none }, [])

/-- The state after several keys, and all that is reported. -/
def pressAll (lib : MathLibrary) (s : Session) : List Key → Session × List Event
  | [] => (s, [])
  | key :: keys =>
    let (next, events) := s.press lib key
    let (last, more) := next.pressAll lib keys
    (last, events ++ more)

/-- Keys pressed in two goes come to the same as all at once. -/
theorem pressAll_append (lib : MathLibrary) (s : Session) (keys more : List Key) :
    s.pressAll lib (keys ++ more)
      = let (next, events) := s.pressAll lib keys
        ((next.pressAll lib more).1, events ++ (next.pressAll lib more).2) := by
  induction keys generalizing s with
  | nil => simp [pressAll]
  | cons key keys ih => simp [pressAll, ih]

end Session

end Calculator
