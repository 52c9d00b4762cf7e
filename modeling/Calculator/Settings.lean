import Calculator.Journal

/-!
# Settings

The angle mode and the theme that the calculator starts with.

* `Settings.read` takes them from the values given at start-up;
* `startUp` reports them too.
-/

namespace Calculator

/-- What the calculator starts with. -/
structure Settings where
  mode : AngleMode := .degrees
  theme : Theme := .light
deriving DecidableEq, Repr

namespace Settings

/-- The angle mode that a value names. A value that is absent or names none leaves degrees, and the
latter is reported. -/
def readMode : Option String → AngleMode × List Event
  | none => (.degrees, [])
  | some text =>
    match AngleMode.ofText text with
    | .ok mode => (mode, [])
    | .error cause => (.degrees, [.angleModeRejected cause])

/-- The theme that a value names. A value that is absent or names none leaves the light one, and the
latter is reported. -/
def readTheme : Option String → Theme × List Event
  | none => (.light, [])
  | some text =>
    match Theme.ofText text with
    | .ok theme => (theme, [])
    | .error cause => (.light, [.themeRejected cause])

/-- The settings that two values name, and what is reported about the values. -/
def read (mode theme : Option String) : Settings × List Event :=
  let (mode, modeEvents) := readMode mode
  let (theme, themeEvents) := readTheme theme
  (⟨mode, theme⟩, modeEvents ++ themeEvents)

end Settings

/-- The settings that two values name, and all that is reported at start-up. -/
def startUp (mode theme : Option String) : Settings × List Event :=
  let (settings, events) := Settings.read mode theme
  (settings, events ++ [.started settings.mode settings.theme])

end Calculator
