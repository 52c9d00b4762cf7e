import Calculator.Proofs.Window.Frame
import Mathlib.Data.List.Flatten
import Mathlib.Data.List.Induction

/-!
# The focus and the enter key

The enter key asks for an evaluation, unless a button has the focus: then it clicks the button. Whether
it evaluates is settled by the focus before the buttons of a frame are drawn, and which button it clicks
by the focus while they are.

* `movesFocus_iff` and `claimedFocus_none_iff` tell when a button gets the focus in a frame;
* `enterKeys` and `enterClicks` are what the enter key does in a frame, `EnterActsOnce` says that it is not
  both;
* `frame_enter` tells the frames in which it is both, `enter_acts_twice` is one of them.
-/

namespace Calculator

/-! ## Where the focus is -/

/-- The tab key has gone down, and the escape key not since. -/
def TabPending (inputs : List Input) : Prop :=
  ∃ before after, inputs = before ++ .key .tab true :: after ∧ .key .escape true ∉ after

/-- One more input: the tab key, or any but the escape key. -/
theorem tabPending_concat_iff {inputs : List Input} {input : Input} :
    TabPending (inputs ++ [input])
      ↔ input = .key .tab true ∨ input ≠ .key .escape true ∧ TabPending inputs := by
  constructor
  · rintro ⟨before, after, hinputs, hescape⟩
    rcases List.eq_nil_or_concat' after with rfl | ⟨front, last, rfl⟩
    · obtain ⟨-, hlast⟩ := List.append_inj' hinputs rfl
      exact .inl (List.singleton_inj.mp hlast)
    · rw [← List.cons_append, ← List.append_assoc] at hinputs
      obtain ⟨rfl, hlast⟩ := List.append_inj' hinputs rfl
      obtain rfl := List.singleton_inj.mp hlast
      simp only [List.mem_append, List.mem_singleton, not_or] at hescape
      exact .inr ⟨Ne.symm hescape.2, before, front, rfl, hescape.1⟩
  · rintro (rfl | ⟨hne, before, after, rfl, hescape⟩)
    · exact ⟨inputs, [], rfl, List.not_mem_nil⟩
    · exact ⟨before, after ++ [input], by simp, by simpa using ⟨hescape, Ne.symm hne⟩⟩

theorem movesFocus_concat (inputs : List Input) (input : Input) :
    movesFocus (inputs ++ [input])
      = match input with
        | .key .tab true => true
        | .key .escape true => false
        | _ => movesFocus inputs := by
  rw [movesFocus, List.foldl_append]
  rfl

/-- The focus is to move on if the tab key has gone down, and the escape key not since. -/
theorem movesFocus_iff {inputs : List Input} : movesFocus inputs = true ↔ TabPending inputs := by
  induction inputs using List.reverseRecOn with
  | nil => simp [movesFocus, TabPending]
  | append_singleton inputs input ih =>
    rw [movesFocus_concat, tabPending_concat_iff, ← ih]
    split <;> simp_all

theorem requestedFocus_concat (inputs : List Input) (input : Input) :
    requestedFocus (inputs ++ [input])
      = match input with
        | .focus b => some b
        | _ => requestedFocus inputs := by
  rw [requestedFocus, List.foldl_append]
  rfl

/-- A button is given the focus only if this is asked for. -/
theorem mem_of_requestedFocus {inputs : List Input} {b : Button} (h : requestedFocus inputs = some b) :
    .focus b ∈ inputs := by
  induction inputs using List.reverseRecOn with
  | nil => cases h
  | append_singleton inputs input ih =>
    rw [requestedFocus_concat] at h
    cases input with
    | focus c =>
      obtain rfl := Option.some.inj h
      simp
    | _ => exact List.mem_append_left _ (ih h)

/-- If this is asked for, some button is. -/
theorem requestedFocus_eq_none_iff {inputs : List Input} :
    requestedFocus inputs = none ↔ ∀ b, .focus b ∉ inputs := by
  induction inputs using List.reverseRecOn with
  | nil => simp [requestedFocus]
  | append_singleton inputs input ih =>
    rw [requestedFocus_concat]
    cases input with
    | focus b => simpa using ⟨b, by simp⟩
    | _ => simp [ih]

/-- No button claims the focus that is nowhere if it is not to move on and no button asks for it. -/
theorem claimedFocus_none_iff {inputs : List Input} :
    claimedFocus inputs none = none ↔ ¬ TabPending inputs ∧ ∀ b, .focus b ∉ inputs := by
  rw [← movesFocus_iff, ← requestedFocus_eq_none_iff, claimedFocus]
  cases requestedFocus inputs with
  | some b => simp
  | none => cases movesFocus inputs <;> simp [Button.all, Button.rows]

/-- What claims the focus is a button of the window. -/
theorem mem_all_of_claimedFocus {inputs : List Input}
    (hbuttons : ∀ b, .focus b ∈ inputs → b ∈ Button.all) {b : Button}
    (h : claimedFocus inputs none = some b) : b ∈ Button.all := by
  rw [claimedFocus] at h
  split at h
  case h_1 c hrequested =>
    obtain rfl := Option.some.inj h
    exact hbuttons c (mem_of_requestedFocus hrequested)
  case h_2 =>
    split at h
    case isTrue => exact List.mem_of_head? h
    case isFalse => cases h

/-! ## The enter key -/

namespace Window

variable (focus : Option Button) (inputs : List Input)

/-- The keys that the enter key presses in a frame, given the focus before it. -/
def enterKeys : List Key :=
  keysOf (keptFocus inputs focus).isSome (inputs.filter (· = .key .enter true))

/-- The buttons that the enter key clicks in a frame, given the focus before it. -/
def enterClicks : List Button :=
  Button.all.filter fun b =>
    claimedFocus inputs (keptFocus inputs focus) = some b ∧ .key .enter true ∈ inputs

/-- The enter key acts once: each time that it goes down it presses "equals", and it clicks no button; or
it presses no key, and it clicks one button at most. -/
def EnterActsOnce : Prop :=
  enterKeys focus inputs = List.replicate (inputs.count (.key .enter true)) .equals
      ∧ enterClicks focus inputs = []
    ∨ enterKeys focus inputs = [] ∧ (enterClicks focus inputs).length ≤ 1

instance : Decidable (EnterActsOnce focus inputs) :=
  inferInstanceAs (Decidable (_ ∧ _ ∨ _ ∧ _))

/-- The enter key presses "equals" each time, unless a button has the focus. -/
theorem enterKeys_eq :
    enterKeys focus inputs
      = if (keptFocus inputs focus).isSome then []
        else List.replicate (inputs.count (.key .enter true)) .equals := by
  rw [enterKeys, keysOf, List.filter_eq, List.flatMap_replicate]
  cases (keptFocus inputs focus).isSome with
  | true => simp [Input.keys]
  | false => simp [Input.keys]

/-- The enter key clicks one button at most. -/
theorem length_enterClicks_le : (enterClicks focus inputs).length ≤ 1 := by
  rw [enterClicks]
  cases claimedFocus inputs (keptFocus inputs focus) with
  | none => simp
  | some c =>
    -- Only the button that has the focus is clicked, and it is drawn once.
    calc (Button.all.filter fun b => some c = some b ∧ .key .enter true ∈ inputs).length
        ≤ (Button.all.filter (· = c)).length :=
          (List.monotone_filter_right _ fun b hb => by simp_all).length_le
      _ = Button.all.count c := by rw [List.filter_eq, List.length_replicate]
      _ ≤ 1 := List.nodup_iff_count_le_one.mp Button.nodup_all c

/-- What the enter key does in a frame is among what the frame does. -/
theorem enter_sublist_pressedIn :
    (enterKeys focus inputs ++ (enterClicks focus inputs).filterMap Button.key?).Sublist
      (pressedIn focus inputs) := by
  refine List.Sublist.append (List.filter_sublist.flatMap _) (List.Sublist.filterMap _ ?_)
  refine List.monotone_filter_right _ fun b hb => ?_
  simp_all [isClicked]

variable {focus inputs}

/-- The escape key drops the focus. -/
theorem keptFocus_eq_none_iff :
    keptFocus inputs focus = none ↔ focus = none ∨ .key .escape true ∈ inputs := by
  rw [keptFocus]
  split <;> simp [*]

/-- The enter key that is not pressed does nothing. -/
theorem enterActsOnce_of_notMem (henter : .key .enter true ∉ inputs) : EnterActsOnce focus inputs := by
  refine .inl ⟨?_, by simp [enterClicks, henter]⟩
  rw [enterKeys_eq, List.count_eq_zero_of_not_mem henter]
  simp

/-- Where a button has the focus before the buttons are drawn, the enter key acts once. -/
theorem enterActsOnce_of_kept {b : Button} (hkept : keptFocus inputs focus = some b) :
    EnterActsOnce focus inputs := by
  refine .inr ⟨?_, length_enterClicks_le focus inputs⟩
  rw [enterKeys_eq, hkept]
  rfl

/-- Where the enter key is pressed and nothing has the focus before the buttons are drawn, it acts once if
nothing claims the focus then. -/
theorem enterActsOnce_iff_of_kept_none (henter : .key .enter true ∈ inputs)
    (hkept : keptFocus inputs focus = none) (hbuttons : ∀ b, .focus b ∈ inputs → b ∈ Button.all) :
    EnterActsOnce focus inputs ↔ claimedFocus inputs none = none := by
  have hcount : inputs.count (.key .enter true) ≠ 0 := by simpa [List.count_eq_zero] using henter
  rw [EnterActsOnce, enterKeys_eq, enterClicks, hkept]
  cases hclaimed : claimedFocus inputs none with
  | none => simp
  | some b =>
    have hb : b ∈ Button.all := mem_all_of_claimedFocus hbuttons hclaimed
    simp [hcount, henter, hb]

/-- **When the enter key acts once.** A frame presses keys and does nothing else to the session, and what
the enter key does in it is among these. It either presses "equals" or clicks a button that has the focus,
and never does both, unless it is pressed while nothing has the focus, and a button gets the focus in
the same frame: by the tab key, with no escape key behind it, or by being asked for. -/
theorem frame_enter (lib : MathLibrary) (w : Window) {inputs : List Input}
    (hbuttons : ∀ b, .focus b ∈ inputs → b ∈ Button.all) :
    ((w.frame lib inputs).1.session, (w.frame lib inputs).2)
        = w.session.pressAll lib (pressedIn w.focus inputs)
      ∧ (enterKeys w.focus inputs ++ (enterClicks w.focus inputs).filterMap Button.key?).Sublist
          (pressedIn w.focus inputs)
      ∧ (EnterActsOnce w.focus inputs
        ↔ ¬ (.key .enter true ∈ inputs ∧ (w.focus = none ∨ .key .escape true ∈ inputs)
          ∧ (TabPending inputs ∨ ∃ b, .focus b ∈ inputs))) := by
  refine ⟨frame_session lib w inputs, enter_sublist_pressedIn w.focus inputs, ?_⟩
  rw [← keptFocus_eq_none_iff]
  by_cases henter : .key .enter true ∈ inputs
  case neg => simp [enterActsOnce_of_notMem henter, henter]
  case pos =>
    cases hkept : keptFocus inputs w.focus with
    | some b => simp [enterActsOnce_of_kept hkept]
    | none =>
      rw [enterActsOnce_iff_of_kept_none henter hkept hbuttons, claimedFocus_none_iff]
      simp [henter]

/-- The escape key takes the focus from the button that has it, and behind the tab key it keeps the focus
from moving on: the enter key evaluates, and clicks nothing. -/
theorem frame_enter_behind_escape :
    let w : Window := { session := .start {}, focus := some (.key .sign) }
    let inputs : List Input := [.key .tab true, .key .escape true, .key .enter true]
    (∀ b, .focus b ∈ inputs → b ∈ Button.all)
      ∧ enterKeys w.focus inputs = [.equals] ∧ enterClicks w.focus inputs = []
      ∧ ((w.frame .native inputs).1.session, (w.frame .native inputs).2)
          = w.session.pressAll .native (pressedIn w.focus inputs)
      ∧ (enterKeys w.focus inputs ++ (enterClicks w.focus inputs).filterMap Button.key?).Sublist
          (pressedIn w.focus inputs)
      ∧ (EnterActsOnce w.focus inputs
        ↔ ¬ (.key .enter true ∈ inputs ∧ (w.focus = none ∨ .key .escape true ∈ inputs)
          ∧ (TabPending inputs ∨ ∃ b, .focus b ∈ inputs))) := by
  intro w inputs
  have hbuttons : ∀ b, .focus b ∈ inputs → b ∈ Button.all := by simp [inputs]
  exact ⟨hbuttons, by decide, by decide, frame_enter .native w hbuttons⟩

/-- Where nothing has the focus, the tab key gives it to the first button in the very frame of the enter
key: behind `1+1`, both keys together bring out the sum and change the theme. -/
theorem enter_acts_twice :
    let inputs : List Input := [.key .tab true, .key .enter true]
    let typed := (({ session := .start {} } : Window).run .native [[.text "1+1"]]).1
    typed.focus = none ∧ enterKeys typed.focus inputs = [.equals]
      ∧ enterClicks typed.focus inputs = [.key .theme] ∧ ¬ EnterActsOnce typed.focus inputs
      ∧ (typed.frame .native inputs).1.session.result = "2"
      ∧ (typed.frame .native inputs).1.session.theme = .dark := by
  decide +kernel

end Window

end Calculator
