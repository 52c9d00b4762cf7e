import Calculator.Failure
import Calculator.Theme

/-!
# The journal

What the calculator reports about its work, apart from the results.

* `Event` is one entry, with its `Event.level`, its `Event.message` and its `Event.line`;
* `Level.threshold` reads a threshold, `Level.admits` tells the levels it lets through.
-/

namespace Calculator

/-- How much an entry matters. -/
inductive Level where
  | error
  | warn
  | info
  | debug
  | trace
deriving DecidableEq, Repr

namespace Level

/-- The name of a level. -/
def name : Level → String
  | error => "ERROR"
  | warn => "WARN"
  | info => "INFO"
  | debug => "DEBUG"
  | trace => "TRACE"

/-- How far a level is from the most severe. -/
def rank : Level → Nat
  | error => 0
  | warn => 1
  | info => 2
  | debug => 3
  | trace => 4

/-- The threshold that a name sets: a level, or `off` for none. Any other name leaves the errors. -/
def threshold : String → Option Level
  | "off" => none
  | "warn" => some warn
  | "info" => some info
  | "debug" => some debug
  | "trace" => some trace
  | _ => some error

/-- Whether a threshold lets a level through: the levels at least as severe as the threshold. No
threshold lets nothing through. -/
def admits (threshold : Option Level) (level : Level) : Bool :=
  threshold.any fun t => level.rank ≤ t.rank

end Level

/-- An entry of the journal. -/
inductive Event where
  /-- A text has these tokens, at least one. -/
  | tokenized (tokens : List Token)
  /-- They have this postfix order. -/
  | converted (items : List Rpn.Item)
  /-- An element has been computed and leaves this stack, top first. -/
  | computed (stack : List Float)
  /-- The expression has no value. -/
  | refused (text : String) (cause : Failure)
  /-- The angle key has set a mode. -/
  | angleModeSet (mode : AngleMode)
  /-- The theme key has set a theme. -/
  | themeSet (theme : Theme)
  /-- The start-up value of the angle mode names none. -/
  | angleModeRejected (cause : AngleMode.Unknown)
  /-- The start-up value of the theme names none. -/
  | themeRejected (cause : Theme.Unknown)
  /-- The calculator starts with these settings. -/
  | started (mode : AngleMode) (theme : Theme)

namespace Event

/-- How much an entry matters. -/
def level : Event → Level
  | computed _ => .trace
  | tokenized _ | converted _ | refused .. => .debug
  | angleModeSet _ | themeSet _ | started .. => .info
  | angleModeRejected _ | themeRejected _ => .warn

/-- A list of values between brackets. -/
def valuesText (values : List Float) : String :=
  "[" ++ ", ".intercalate (values.map fun x => String.ofList (Layout.listed.writeFloat x)) ++ "]"

/-- The text of an entry. A stack is listed from its bottom. -/
def message : Event → String
  | tokenized tokens => "jetons: " ++ Token.line tokens
  | converted items => "rpn: " ++ Rpn.line items
  | computed stack => "pile: " ++ valuesText stack.reverse
  | refused text cause => "évaluation de " ++ Text.quote text ++ " refusée: " ++ cause.message
  | angleModeSet mode => "mode d’angle: " ++ mode.name
  | themeSet theme => "thème: " ++ theme.name
  | angleModeRejected cause =>
    "CALC_MODE_ANGLE: " ++ cause.message ++ "; mode " ++ AngleMode.degrees.name ++ " utilisé"
  | themeRejected cause =>
    "CALC_THEME: " ++ cause.message ++ "; thème " ++ Theme.light.name ++ " utilisé"
  | started mode theme => "démarrage: mode " ++ mode.name ++ " / thème " ++ theme.name

/-- An entry as a line: its level, then its text. -/
def line (e : Event) : String :=
  e.level.name ++ " " ++ e.message

end Event

end Calculator
