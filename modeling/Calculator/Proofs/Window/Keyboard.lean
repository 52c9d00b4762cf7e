import Calculator.Proofs.Token.Lexing
import Calculator.Proofs.Window.Focus

/-!
# Keyboard and pad

What can be pressed on the keyboard and on the pad comes to the same from both sides, as long as no button
has the focus.

* `Key.shared` are the keys of both sides, `Key.char?` and `KeyName.key?` say how the keyboard sends them,
  `Key.padText` what is written on their buttons;
* `Typed` and `Sent` are the ways of sending some keys by the keyboard;
* `keysOf_of_sent` reads them off the inputs, `pressedIn_click` does so for a click;
* `run_sent` puts both sides together.
-/

namespace Calculator

/-! ## The keys of both sides -/

/-- The keys that both the keyboard and the pad have. -/
def Key.shared : List Key :=
  ['0', '1', '2', '3', '4', '5', '6', '7', '8', '9'].map digit
    ++ ['+', '-', '*', '/', '^'].map operator
    ++ [paren '(', paren ')', point, equals, delete, clear]

/-- The character that types a key. -/
def Key.char? : Key → Option Char
  | digit c | operator c | paren c => some c
  | point => some '.'
  | equals => some '='
  | function _ | sign | clear | delete | angleMode | theme => none

/-- The key that a named key of the keyboard sends. -/
def KeyName.key? : KeyName → Option Key
  | enter => some .equals
  | backspace => some .delete
  | escape => some .clear
  | tab | space | other => none

/-- The text on the pad for a key that the keyboard has too. Four of the operators have signs of their own
there. -/
def Key.padText : Key → String
  | operator '-' => "−"
  | operator '*' => "×"
  | operator '/' => "÷"
  | operator '^' => "xʸ"
  | digit c | operator c | paren c => c.toString
  | point => "."
  | equals => "="
  | delete => "DEL"
  | clear => "AC"
  | function _ | sign | angleMode | theme => ""

theorem mem_digits_of_isDigit {c : Char} (h : c.isDigit = true) :
    c ∈ ['0', '1', '2', '3', '4', '5', '6', '7', '8', '9'] := by
  have hall : ∀ k < 10,
      Char.ofNat (48 + k) ∈ ['0', '1', '2', '3', '4', '5', '6', '7', '8', '9'] := by decide
  obtain ⟨hlower, hupper⟩ := isDigit_iff_toNat.mp h
  obtain ⟨k, hk⟩ := Nat.exists_eq_add_of_le hlower
  rw [← Char.ofNat_toNat c, hk]
  exact hall k (by omega)

/-- A character is read as the key that it types, if there is one. -/
theorem Key.ofChar?_eq_some_iff {c : Char} {key : Key} :
    Key.ofChar? c = some key ↔ key ∈ Key.shared ∧ key.char? = some c := by
  constructor
  · fun_cases ofChar? c with
    | case1 hdigit =>
      rintro ⟨⟩
      exact ⟨by simpa [shared] using mem_digits_of_isDigit hdigit, rfl⟩
    | case2 _ hop =>
      rintro ⟨⟩
      obtain ⟨op, hc⟩ := Option.isSome_iff_exists.mp hop
      obtain rfl := BinaryOperator.ofChar?_eq_some_iff.mp hc
      exact ⟨by cases op <;> decide, rfl⟩
    | case3 _ _ hparen =>
      rintro ⟨⟩
      exact ⟨by simpa [shared] using hparen, rfl⟩
    | case4 _ _ _ hpoint =>
      rintro ⟨⟩
      exact ⟨by decide, hpoint ▸ rfl⟩
    | case5 _ _ _ _ hequals =>
      rintro ⟨⟩
      exact ⟨by decide, hequals ▸ rfl⟩
    | case6 => nofun
  · rintro ⟨hkey, hchar⟩
    have hread : ∀ key ∈ Key.shared, key.char?.all (Key.ofChar? · = some key) := by decide
    simpa [hchar] using hread key hkey

/-- The button of a key is found by its text, whatever the settings. -/
theorem ofLabel?_padText (s : Session) {key : Key} (hkey : key ∈ Key.shared) :
    Button.ofLabel? s key.padText = some (.key key) := by
  have hlabel : Button.label s = Button.label { mode := s.mode, theme := s.theme } := by
    funext b
    cases b with
    | working => rfl
    | key k => cases k <;> rfl
  have hfound : ∀ mode theme, ∀ key ∈ Key.shared,
      Button.ofLabel? { mode, theme } key.padText = some (.key key) := by
    rintro (_ | _) (_ | _) <;> decide +kernel
  rw [Button.ofLabel?, hlabel]
  exact hfound s.mode s.theme key hkey

/-! ## By the keyboard -/

/-- These characters type these keys: each key by its own character, with others between them that type
none. -/
inductive Typed : List Char → List Key → Prop
  | nil : Typed [] []
  | key {key : Key} {c : Char} {cs : List Char} {keys : List Key} :
      key ∈ Key.shared → key.char? = some c → Typed cs keys → Typed (c :: cs) (key :: keys)
  | other {c : Char} {cs : List Char} {keys : List Key} :
      (∀ key ∈ Key.shared, key.char? ≠ some c) → Typed cs keys → Typed (c :: cs) keys

/-- These inputs send these keys by the keyboard: in texts and by named keys, with keys between them that
go up, and such that send none. The tab key, which moves the focus, is not among them. -/
inductive Sent : List Input → List Key → Prop
  | nil : Sent [] []
  | text {s : String} {typed : List Key} {inputs : List Input} {keys : List Key} :
      Typed s.toList typed → Sent inputs keys → Sent (.text s :: inputs) (typed ++ keys)
  | press {name : KeyName} {key : Key} {inputs : List Input} {keys : List Key} :
      name.key? = some key → Sent inputs keys → Sent (.key name true :: inputs) (key :: keys)
  | idle {name : KeyName} {inputs : List Input} {keys : List Key} :
      name.key? = none → name ≠ .tab → Sent inputs keys → Sent (.key name true :: inputs) keys
  | release {name : KeyName} {inputs : List Input} {keys : List Key} :
      Sent inputs keys → Sent (.key name false :: inputs) keys

/-- What is typed is read as it was meant. -/
theorem filterMap_ofChar?_of_typed {cs : List Char} {keys : List Key} (h : Typed cs keys) :
    cs.filterMap Key.ofChar? = keys := by
  induction h with
  | nil => rfl
  | key hkey hchar _ ih =>
    rw [List.filterMap_cons_some (Key.ofChar?_eq_some_iff.mpr ⟨hkey, hchar⟩), ih]
  | @other c _ _ hother _ ih =>
    have hnone : Key.ofChar? c = none := by
      refine Option.eq_none_iff_forall_ne_some.mpr fun key hread => ?_
      obtain ⟨hkey, hchar⟩ := Key.ofChar?_eq_some_iff.mp hread
      exact hother key hkey hchar
    rw [List.filterMap_cons_none hnone, ih]

theorem keysOf_cons (focused : Bool) (input : Input) (inputs : List Input) :
    keysOf focused (input :: inputs) = input.keys focused ++ keysOf focused inputs :=
  List.flatMap_cons

/-- What is sent arrives, while no button has the focus. -/
theorem keysOf_of_sent {inputs : List Input} {keys : List Key} (h : Sent inputs keys) :
    keysOf false inputs = keys := by
  induction h with
  | nil => rfl
  | text htyped _ ih => rw [keysOf_cons, Input.keys, filterMap_ofChar?_of_typed htyped, ih]
  | @press name _ _ _ hname _ ih =>
    rw [keysOf_cons, ih]
    cases name <;> cases hname <;> rfl
  | @idle name _ _ hname _ _ ih =>
    rw [keysOf_cons, ih]
    cases name <;> cases hname <;> rfl
  | @release name _ _ _ ih =>
    rw [keysOf_cons, ih]
    cases name <;> rfl

/-- The inputs of the keyboard click no button and give none the focus. -/
theorem not_mem_of_sent {inputs : List Input} {keys : List Key} (h : Sent inputs keys) (b : Button) :
    .key .tab true ∉ inputs ∧ .click b ∉ inputs ∧ .focus b ∉ inputs := by
  induction h with
  | nil => simp
  | text _ _ ih => simpa using ih
  | @press name _ _ _ hname _ ih =>
    cases name <;> cases hname <;> simpa using ih
  | @idle name _ _ _ htab _ ih => simpa [Ne.symm htab] using ih
  | release _ ih => simpa using ih

/-- Every row of these keys can be sent by the keyboard. -/
theorem exists_sent {keys : List Key} (h : ∀ key ∈ keys, key ∈ Key.shared) :
    ∃ inputs, Sent inputs keys := by
  induction keys with
  | nil => exact ⟨[], .nil⟩
  | cons key keys ih =>
    obtain ⟨hkey, hkeys⟩ := List.forall_mem_cons.mp h
    obtain ⟨inputs, hinputs⟩ := ih hkeys
    have hsends : ∀ key ∈ Key.shared,
        key.char?.isSome ∨ KeyName.backspace.key? = some key ∨ KeyName.escape.key? = some key := by
      decide
    rcases hsends key hkey with hchar | hname | hname
    · obtain ⟨c, hc⟩ := Option.isSome_iff_exists.mp hchar
      have htyped : Typed (String.ofList [c]).toList [key] := by
        rw [String.toList_ofList]
        exact .key hkey hc .nil
      exact ⟨_, .text htyped hinputs⟩
    · exact ⟨_, .press hname hinputs⟩
    · exact ⟨_, .press hname hinputs⟩

/-! ## Both sides -/

/-- A frame in which the button of a key is clicked, found by its text. -/
def Key.click (s : Session) (key : Key) : List Input :=
  (Button.ofLabel? s key.padText).toList.map .click

namespace Window

/-- Without a focus, only the mouse clicks. -/
theorem clickedIn_of_unfocused {inputs : List Input} (h : claimedFocus inputs none = none) :
    clickedIn none inputs = Button.all.filter (.click · ∈ inputs) := by
  refine List.filter_congr fun b _ => ?_
  simp [isClicked, keptFocus, h]

/-- No button claims the focus that the keyboard does not give it. -/
theorem claimedFocus_of_notMem {inputs : List Input} (htab : .key .tab true ∉ inputs)
    (hfocus : ∀ b, .focus b ∉ inputs) : claimedFocus inputs none = none := by
  refine claimedFocus_none_iff.mpr ⟨?_, hfocus⟩
  rintro ⟨before, after, rfl, -⟩
  exact htab (List.mem_append_right before List.mem_cons_self)

/-- A frame of the keyboard presses the keys of its inputs alone. -/
theorem pressedIn_of_notMem {inputs : List Input} (htab : .key .tab true ∉ inputs)
    (hclick : ∀ b, .click b ∉ inputs) (hfocus : ∀ b, .focus b ∉ inputs) :
    clickedIn none inputs = [] ∧ pressedIn none inputs = keysOf false inputs := by
  have hclicked : clickedIn none inputs = [] := by
    rw [clickedIn_of_unfocused (claimedFocus_of_notMem htab hfocus)]
    exact List.filter_eq_nil_iff.mpr fun b _ => by simpa using hclick b
  refine ⟨hclicked, ?_⟩
  rw [pressedIn, hclicked]
  simp [keptFocus]

/-- A frame with a click of one button presses the key of this button. -/
theorem pressedIn_click {key : Key} (h : .key key ∈ Button.all) :
    clickedIn none [.click (.key key)] = [.key key]
      ∧ pressedIn none [.click (.key key)] = [key] := by
  have hclicked : clickedIn none [.click (.key key)] = [.key key] := by
    rw [clickedIn_of_unfocused rfl]
    calc Button.all.filter (.click · ∈ [Input.click (.key key)])
        = Button.all.filter (· = .key key) := List.filter_congr fun b _ => by simp
      _ = [.key key] := by
          rw [List.filter_eq, List.count_eq_one_of_mem Button.nodup_all h, List.replicate_one]
  exact ⟨hclicked, by rw [pressedIn, hclicked]; rfl⟩

variable (lib : MathLibrary)

/-- The keyboard presses what is sent by it, however this is cut into frames. -/
theorem run_keyboard {w : Window} (hfocus : w.focus = none) {keys : List Key}
    {frames : List (List Input)} (h : Sent frames.flatten keys) :
    w.run lib frames = w.pressAll lib keys := by
  have hframe : ∀ inputs ∈ frames, claimedFocus inputs none = none
      ∧ clickedIn none inputs = [] ∧ pressedIn none inputs = keysOf false inputs := by
    intro inputs hinputs
    have hnot : ∀ input, input ∉ frames.flatten → input ∉ inputs := fun input hinput hmem =>
      hinput (List.mem_flatten.mpr ⟨inputs, hinputs, hmem⟩)
    have htab := hnot _ (not_mem_of_sent h .working).1
    have hclick := fun b => hnot _ (not_mem_of_sent h b).2.1
    have hrequest := fun b => hnot _ (not_mem_of_sent h b).2.2
    exact ⟨claimedFocus_of_notMem htab hrequest, pressedIn_of_notMem htab hclick hrequest⟩
  have hpressed : frames.flatMap (pressedIn none) = keys := calc
    frames.flatMap (pressedIn none)
      = frames.flatMap (keysOf false) :=
        List.flatMap_congr fun inputs hinputs => (hframe inputs hinputs).2.2
    _ = keysOf false frames.flatten := by
        rw [keysOf, List.flatten_eq_flatMap, List.flatMap_assoc]
        rfl
    _ = keys := keysOf_of_sent h
  rw [run_of_unfocused lib hfocus fun inputs hinputs => ?_, hpressed]
  obtain ⟨hclaimed, hclicked, -⟩ := hframe inputs hinputs
  exact ⟨hclaimed, by simp [hclicked]⟩

/-- The pad presses the keys of the buttons that are clicked. -/
theorem run_pad {w : Window} (hfocus : w.focus = none) {keys : List Key}
    (hkeys : ∀ key ∈ keys, key ∈ Key.shared) (s : Session) :
    w.run lib (keys.map (Key.click s)) = w.pressAll lib keys := by
  have hbutton : ∀ key ∈ Key.shared, Button.key key ∈ Button.all := by decide
  have hclick : ∀ key ∈ keys, key.click s = [.click (.key key)] := fun key hkey => by
    rw [Key.click, ofLabel?_padText s (hkeys key hkey)]
    rfl
  have hpressed : (keys.map (Key.click s)).flatMap (pressedIn none) = keys := calc
    (keys.map (Key.click s)).flatMap (pressedIn none)
      = keys.flatMap fun key => pressedIn none (key.click s) := List.flatMap_map ..
    _ = keys.flatMap fun key => [key] := List.flatMap_congr fun key hkey => by
        rw [hclick key hkey, (pressedIn_click (hbutton key (hkeys key hkey))).2]
    _ = keys := List.flatMap_singleton' keys
  rw [run_of_unfocused lib hfocus fun inputs hinputs => ?_, hpressed]
  obtain ⟨key, hkey, rfl⟩ := List.mem_map.mp hinputs
  rw [hclick key hkey]
  exact ⟨rfl, by simp [(pressedIn_click (hbutton key (hkeys key hkey))).1]⟩

/-- **Keyboard and pad.** From any state in which no button has the focus, the keys that both sides have
can be sent by the keyboard; and however they are cut into texts and frames, with whatever between them
that sends none, they come to the same as the clicks of their buttons, one in each frame: to the session
with these keys pressed. -/
theorem run_sent {w : Window} (hfocus : w.focus = none) {keys : List Key}
    (hkeys : ∀ key ∈ keys, key ∈ Key.shared) :
    (∃ inputs, Sent inputs keys)
      ∧ (∀ frames, Sent frames.flatten keys → w.run lib frames = w.pressAll lib keys)
      ∧ w.run lib (keys.map (Key.click w.session)) = w.pressAll lib keys :=
  ⟨exists_sent hkeys, fun _ hsent => run_keyboard lib hfocus hsent,
    run_pad lib hfocus hkeys w.session⟩

/-- A letter between the characters, a frame without input, a key without meaning and one that goes up do
not matter: `1/0`, "enter" and "backspace" come to the same in three frames of the keyboard as in
five clicks. -/
theorem run_sent_division :
    let w : Window := { session := .start {} }
    let keys : List Key := [.digit '1', .operator '/', .digit '0', .equals, .delete]
    let frames : List (List Input) := [[.text "1x/"], [], [.key .other true, .text "0",
      .key .enter true, .key .enter false, .key .backspace true]]
    w.focus = none ∧ (∀ key ∈ keys, key ∈ Key.shared) ∧ Sent frames.flatten keys
      ∧ (∃ inputs, Sent inputs keys)
      ∧ (∀ frames, Sent frames.flatten keys → w.run .native frames = w.pressAll .native keys)
      ∧ w.run .native (keys.map (Key.click w.session)) = w.pressAll .native keys := by
  intro w keys frames
  have hkeys : ∀ key ∈ keys, key ∈ Key.shared := by decide
  have hfirst : Typed "1x/".toList [.digit '1', .operator '/'] :=
    .key (by decide) rfl (.other (by decide) (.key (by decide) rfl .nil))
  have hsecond : Typed "0".toList [.digit '0'] := .key (by decide) rfl .nil
  have hsent : Sent frames.flatten keys :=
    .text hfirst (.idle rfl nofun (.text hsecond (.press rfl (.release (.press rfl .nil)))))
  exact ⟨rfl, hkeys, hsent, run_sent .native rfl hkeys⟩

end Window

end Calculator
