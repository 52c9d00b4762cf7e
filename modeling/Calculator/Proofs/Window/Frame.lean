import Calculator.Window
import Mathlib.Data.List.Nodup

/-!
# Frames as the keys they press

All that a frame does to the session is to press keys: those of the keyboard, and behind them those of
the buttons that are clicked. Which buttons are clicked is settled before the first one is drawn, as a
click changes nothing for the buttons behind it.

* `drawButtons_eq_clickAll` singles out the buttons that are clicked, `clickAll_session` the keys that they
  press;
* `pressedIn` are the keys pressed in a frame, and `frame_session` presses them;
* `run` is the window after several frames, `run_of_unfocused` what they come to while no button gets the
  focus.
-/

namespace Calculator

/-- The key that a button presses. -/
def Button.key? : Button → Option Key
  | .key k => some k
  | .working => none

/-- No button is drawn twice. -/
theorem Button.nodup_all : Button.all.Nodup := by decide

namespace Window

variable (lib : MathLibrary)

/-! ## Clicks -/

/-- The window after several clicks, and what is reported. -/
def clickAll (w : Window) : List Button → Window × List Event
  | [] => (w, [])
  | b :: rest =>
    let (clicked, events) := w.click lib b
    let (last, more) := clicked.clickAll rest
    (last, events ++ more)

/-- A button keeps the focus through the clicks of others, and gets it by none. -/
theorem click_focus_eq_some_iff {w : Window} {b c : Button} (hne : c ≠ b) :
    (w.click lib b).1.focus = some c ↔ w.focus = some c := by
  cases b with
  | working => rfl
  | key k =>
    simp only [click]
    split
    case isTrue h => simp [h, Ne.symm hne]
    case isFalse => rfl

/-- A click changes nothing for the other buttons. -/
theorem isClicked_click (inputs : List Input) {w : Window} {b c : Button} (hne : c ≠ b) :
    isClicked inputs (w.click lib b).1.focus c = isClicked inputs w.focus c := by
  rw [Bool.eq_iff_iff]
  simp [isClicked, click_focus_eq_some_iff lib hne]

/-- **The buttons that are clicked** are those that are when the first one is drawn. -/
theorem drawButtons_eq_clickAll (inputs : List Input) {w : Window} {buttons : List Button}
    (hnodup : buttons.Nodup) :
    w.drawButtons lib inputs buttons
      = w.clickAll lib (buttons.filter (isClicked inputs w.focus)) := by
  induction buttons generalizing w with
  | nil => rfl
  | cons b rest ih =>
    obtain ⟨hb, hrest⟩ := List.nodup_cons.mp hnodup
    by_cases hclicked : isClicked inputs w.focus b = true
    · -- The buttons behind this one are others, so that they are clicked as they were.
      have hothers : rest.filter (isClicked inputs (w.click lib b).1.focus)
          = rest.filter (isClicked inputs w.focus) :=
        List.filter_congr fun c hc => isClicked_click lib inputs (ne_of_mem_of_not_mem hc hb)
      simp [drawButtons, hclicked, clickAll, ih hrest, hothers]
    · simp [drawButtons, hclicked, ih hrest]

/-- A click presses the key of its button, if there is one. -/
theorem click_session (w : Window) (b : Button) :
    ((w.click lib b).1.session, (w.click lib b).2) = w.session.pressAll lib b.key?.toList := by
  cases b with
  | working => rfl
  | key k => simp [click, Button.key?, Session.pressAll]

/-- Clicks press the keys of their buttons. -/
theorem clickAll_session (w : Window) (buttons : List Button) :
    ((w.clickAll lib buttons).1.session, (w.clickAll lib buttons).2)
      = w.session.pressAll lib (buttons.filterMap Button.key?) := by
  induction buttons generalizing w with
  | nil => rfl
  | cons b rest ih =>
    rw [List.filterMap_eq_flatMap_toList, List.flatMap_cons, ← List.filterMap_eq_flatMap_toList,
      Session.pressAll_append, ← click_session]
    simp only [← ih]
    rfl

/-- Without a focus there is none behind clicks. -/
theorem clickAll_focus {w : Window} (hfocus : w.focus = none) (buttons : List Button) :
    (w.clickAll lib buttons).1.focus = none := by
  induction buttons generalizing w with
  | nil => exact hfocus
  | cons b rest ih =>
    have hclick : (w.click lib b).1.focus = none := by
      cases b <;> simp [click, hfocus]
    exact ih hclick

/-! ## One frame -/

/-- The buttons that are clicked in a frame, given the focus before it. -/
def clickedIn (focus : Option Button) (inputs : List Input) : List Button :=
  Button.all.filter (isClicked inputs (claimedFocus inputs (keptFocus inputs focus)))

/-- The keys that are pressed in a frame, given the focus before it: those of the keyboard, and behind
them those of the buttons that are clicked. -/
def pressedIn (focus : Option Button) (inputs : List Input) : List Key :=
  keysOf (keptFocus inputs focus).isSome inputs ++ (clickedIn focus inputs).filterMap Button.key?

/-- The window when the first button of a frame is drawn: the keys of the keyboard have been pressed, and
the focus is where it is to be. -/
def beforeButtons (w : Window) (inputs : List Input) : Window :=
  let kept := keptFocus inputs w.focus
  { w with
    session := (w.session.pressAll lib (keysOf kept.isSome inputs)).1
    focus := claimedFocus inputs kept }

/-- A frame is the keys of the keyboard and the clicks; then the focus may go round. -/
theorem frame_eq_clickAll (w : Window) (inputs : List Input) :
    let kept := keptFocus inputs w.focus
    let clicked := (w.beforeButtons lib inputs).clickAll lib (clickedIn w.focus inputs)
    w.frame lib inputs
      = ({ clicked.1 with
            focus := if goesRound inputs kept then Button.all.head? else clicked.1.focus },
          (w.session.pressAll lib (keysOf kept.isSome inputs)).2 ++ clicked.2) := by
  simp only [frame, drawButtons_eq_clickAll lib inputs Button.nodup_all]
  rfl

/-- **A frame presses keys**, and does nothing else to the session. -/
theorem frame_session (w : Window) (inputs : List Input) :
    ((w.frame lib inputs).1.session, (w.frame lib inputs).2)
      = w.session.pressAll lib (pressedIn w.focus inputs) := by
  have hclicks := clickAll_session lib (w.beforeButtons lib inputs) (clickedIn w.focus inputs)
  rw [pressedIn, Session.pressAll_append, frame_eq_clickAll]
  simp only [beforeButtons] at hclicks ⊢
  rw [← hclicks]

/-! ## Without a focus -/

/-- The window after its session has got several keys, and what is reported. -/
def pressAll (w : Window) (keys : List Key) : Window × List Event :=
  ({ w with session := (w.session.pressAll lib keys).1 }, (w.session.pressAll lib keys).2)

theorem pressAll_append (w : Window) (keys more : List Key) :
    w.pressAll lib (keys ++ more)
      = (((w.pressAll lib keys).1.pressAll lib more).1,
          (w.pressAll lib keys).2 ++ ((w.pressAll lib keys).1.pressAll lib more).2) := by
  simp only [pressAll, Session.pressAll_append]

/-- The panel stays as it is if its own button is not clicked. -/
theorem clickAll_panelOpen (w : Window) {buttons : List Button} (h : .working ∉ buttons) :
    (w.clickAll lib buttons).1.panelOpen = w.panelOpen := by
  induction buttons generalizing w with
  | nil => rfl
  | cons b rest ih =>
    rw [List.mem_cons, not_or] at h
    cases b with
    | working => exact absurd rfl h.1
    | key k => exact ih (w.click lib (.key k)).1 h.2

/-- A frame that gives no button the focus does nothing but press keys, unless the button of the panel is
clicked. -/
theorem frame_of_unfocused {w : Window} (hfocus : w.focus = none) {inputs : List Input}
    (hclaimed : claimedFocus inputs none = none) (hworking : .working ∉ clickedIn none inputs) :
    w.frame lib inputs = w.pressAll lib (pressedIn none inputs) := by
  have hsession := frame_session lib w inputs
  have hpanel : (w.frame lib inputs).1.panelOpen = w.panelOpen := by
    rw [frame_eq_clickAll, hfocus]
    exact clickAll_panelOpen lib (w.beforeButtons lib inputs) hworking
  have hlast : (w.frame lib inputs).1.focus = none := by
    have hbefore : (w.beforeButtons lib inputs).focus = none := by
      simpa [beforeButtons, hfocus, keptFocus] using hclaimed
    rw [frame_eq_clickAll]
    simp [hfocus, keptFocus, goesRound, clickAll_focus lib hbefore]
  rw [hfocus] at hsession
  calc w.frame lib inputs
      = (⟨(w.frame lib inputs).1.session, (w.frame lib inputs).1.focus,
          (w.frame lib inputs).1.panelOpen⟩, (w.frame lib inputs).2) := rfl
    _ = w.pressAll lib (pressedIn none inputs) := by
        rw [hlast, hpanel, pressAll, ← hsession, hfocus]

/-! ## Several frames -/

/-- The window after several frames, and what is reported in them. -/
def run (w : Window) : List (List Input) → Window × List Event
  | [] => (w, [])
  | inputs :: frames =>
    let (next, events) := w.frame lib inputs
    let (last, more) := next.run frames
    (last, events ++ more)

/-- **Frames without a focus** press their keys one after the other, however they are cut. -/
theorem run_of_unfocused {w : Window} (hfocus : w.focus = none) {frames : List (List Input)}
    (h : ∀ inputs ∈ frames,
      claimedFocus inputs none = none ∧ .working ∉ clickedIn none inputs) :
    w.run lib frames = w.pressAll lib (frames.flatMap (pressedIn none)) := by
  induction frames generalizing w with
  | nil => rfl
  | cons inputs frames ih =>
    obtain ⟨⟨hclaimed, hworking⟩, hframes⟩ := List.forall_mem_cons.mp h
    have hnext : (w.pressAll lib (pressedIn none inputs)).1.focus = none := hfocus
    rw [run, frame_of_unfocused lib hfocus hclaimed hworking, List.flatMap_cons, pressAll_append]
    simp only [ih hnext hframes]

end Window

end Calculator
