import Calculator.Window.Button

/-!
# The window

The calculator as it is seen and handled: a session, a panel for the working, and the button that
has the keyboard focus. Input comes in frames. In a frame the keyboard is read first, then the
buttons are drawn one by one and find out whether they are clicked.

* `Input` is what can happen in a frame, `keysOf` the keys that the keyboard presses in it;
* `Window.frame` is the window after a frame;
* `Window.labels` are the texts on it.
-/

namespace Calculator

/-- The keys of the keyboard that have a meaning besides the text they type. -/
inductive KeyName where
  | enter
  | backspace
  | escape
  | tab
  | space
  | other
deriving DecidableEq, Repr

/-- What can happen in a frame. -/
inductive Input where
  /-- A text is typed. -/
  | text (s : String)
  /-- A key of the keyboard goes down, or up. -/
  | key (name : KeyName) (pressed : Bool)
  /-- A button is clicked with the mouse. -/
  | click (b : Button)
  /-- A button is given the focus. -/
  | focus (b : Button)
deriving DecidableEq, Repr

/-- The calculator on the screen. -/
structure Window where
  session : Session
  /-- The button that has the keyboard focus. -/
  focus : Option Button := none
  /-- Whether the panel of the working is open. -/
  panelOpen : Bool := false
deriving DecidableEq, Repr

/-! ## The keyboard -/

/-- The keys that one input presses. A button that has the focus takes the enter key for itself. -/
def Input.keys (focused : Bool) : Input → List Key
  | text s => s.toList.filterMap Key.ofChar?
  | key .enter true => if focused then [] else [.equals]
  | key .backspace true => [.delete]
  | key .escape true => [.clear]
  | key _ _ | click _ | focus _ => []

/-- The keys that the keyboard presses in a frame, in order. -/
def keysOf (focused : Bool) (inputs : List Input) : List Key :=
  inputs.flatMap (Input.keys focused)

/-! ## The focus -/

/-- Whether the focus is to move on: the tab key has gone down, and the escape key not since. -/
def movesFocus (inputs : List Input) : Bool :=
  inputs.foldl (fun moves input =>
    match input with
    | .key .tab true => true
    | .key .escape true => false
    | _ => moves) false

/-- The button that is given the focus, by the last such input. -/
def requestedFocus (inputs : List Input) : Option Button :=
  inputs.foldl (fun target input =>
    match input with
    | .focus b => some b
    | _ => target) none

/-- The focus at the start of a frame: the escape key has dropped it. -/
def keptFocus (inputs : List Input) (focus : Option Button) : Option Button :=
  if .key .escape true ∈ inputs then none else focus

/-- The focus once the buttons of a frame have claimed it: it moves to the next button, and from
nowhere to the first one. Behind the last button it is nowhere, until the frame is over. -/
def claimedFocus (inputs : List Input) (focus : Option Button) : Option Button :=
  match requestedFocus inputs with
  | some b => some b
  | none =>
    if movesFocus inputs then
      match focus with
      | none => Button.all.head?
      | some b => b.next?
    else focus

/-- Whether the focus goes round in a frame: it moves on from the last button. -/
def goesRound (inputs : List Input) (focus : Option Button) : Bool :=
  (requestedFocus inputs).isNone && movesFocus inputs && focus.any (·.next?.isNone)

/-! ## Clicks -/

/-- Whether a button is clicked in a frame: by the mouse, or by the enter or space key while it has
the focus. -/
def isClicked (inputs : List Input) (focus : Option Button) (b : Button) : Bool :=
  .click b ∈ inputs
    || focus == some b && (.key .enter true ∈ inputs || .key .space true ∈ inputs)

namespace Window

/-- The window after a click. A button of the calculator that has the focus loses it, so that the
enter key evaluates again. -/
def click (lib : MathLibrary) (w : Window) : Button → Window × List Event
  | .working => ({ w with panelOpen := !w.panelOpen }, [])
  | .key k =>
    let (session, events) := w.session.press lib k
    ({ w with session, focus := if w.focus = some (.key k) then none else w.focus }, events)

/-- The window after several buttons have been drawn, with the clicks they find. -/
def drawButtons (lib : MathLibrary) (inputs : List Input) (w : Window) :
    List Button → Window × List Event
  | [] => (w, [])
  | b :: rest =>
    if isClicked inputs w.focus b then
      let (clicked, events) := w.click lib b
      let (last, more) := clicked.drawButtons lib inputs rest
      (last, events ++ more)
    else w.drawButtons lib inputs rest

/-- The window after a frame, and what is reported in it. -/
def frame (lib : MathLibrary) (w : Window) (inputs : List Input) : Window × List Event :=
  let kept := keptFocus inputs w.focus
  let (session, keyEvents) := w.session.pressAll lib (keysOf kept.isSome inputs)
  let claimed := { w with session, focus := claimedFocus inputs kept }
  let (drawn, clickEvents) := claimed.drawButtons lib inputs Button.all
  let focus := if goesRound inputs kept then Button.all.head? else drawn.focus
  ({ drawn with focus }, keyEvents ++ clickEvents)

/-- The texts on the window, from top to bottom. -/
def labels (w : Window) : List String :=
  let s := w.session
  let expression := if s.expression = "" then "0" else s.expression
  let panel := if w.panelOpen then ["Jetons :", s.working.tokens, "RPN :", s.working.rpn] else []
  "Calculatrice" :: expression :: s.answer :: panel

/-- The texts on the buttons, in the order in which they are drawn. -/
def buttonLabels (w : Window) : List String :=
  Button.all.map (·.label w.session)

/-- Whether the window is drawn dark. -/
def isDark (w : Window) : Bool :=
  w.session.theme == .dark

end Window

end Calculator
