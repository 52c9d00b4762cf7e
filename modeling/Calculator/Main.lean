import Calculator.Session

/-!
# The program

The settings come from the environment: `CALC_MODE_ANGLE`, `CALC_THEME`, and in `CALC_LOG` the least
level to report. Then each line of standard input is evaluated as an expression, and its answer is
printed.
-/

namespace Calculator.Terminal

/-- Prints the entries that a threshold lets through. -/
def printJournal (threshold : Option Level) (events : List Event) : IO Unit :=
  for e in events do
    if Level.admits threshold e.level then IO.eprintln e.line

/-- Answers the lines of a stream until it ends. -/
partial def answerLines (input : IO.FS.Stream) (threshold : Option Level) (s : Session) :
    IO Unit := do
  let line ← input.getLine
  unless line.isEmpty do
    let typed := { s with expression := String.ofList (Text.trim line.toList) }
    let (solved, events) := typed.press .native .equals
    printJournal threshold events
    IO.println solved.answer
    answerLines input threshold solved

/-- Starts the calculator on the terminal. -/
def run : IO Unit := do
  let threshold := Level.threshold ((← IO.getEnv "CALC_LOG").getD "error")
  let (settings, events) := startUp (← IO.getEnv "CALC_MODE_ANGLE") (← IO.getEnv "CALC_THEME")
  printJournal threshold events
  answerLines (← IO.getStdin) threshold (Session.start settings)

end Calculator.Terminal

def main : IO Unit :=
  Calculator.Terminal.run
