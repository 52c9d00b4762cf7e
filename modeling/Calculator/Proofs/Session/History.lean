import Calculator.Session
import Mathlib.Data.List.Infix

/-!
# Sessions as their keys make them

What a session shows depends on a few of the keys before it: on the keys that edit, on how often each
key of the settings was pressed, and on what stood there when an evaluation was last asked for.

* `Settings.after` and `Settings.lines` are what some keys make of the settings, and what the log says
  about that;
* `pressAll_of_press` carries what every key preserves through a sequence of keys;
* `pressAll_expression`, `pressAll_settings` and `pressAll_lines` follow the expression, the settings
  and the log, `pressAll_solution` and `exists_equals_of_failure` what an evaluation has left;
* `Session.History` is what a sequence of keys has made of a session, which `reached_history` shows for
  every sequence.
-/

namespace Calculator

/-! ## Settings -/

/-- One of two choices after it has been changed for the other a number of times. -/
def switched {α : Type} [DecidableEq α] (one other choice : α) (times : Nat) : α :=
  if choice = one ↔ times % 2 = 0 then one else other

/-- Two changes are none. -/
theorem switched_add {α : Type} [DecidableEq α] {one other : α} (hne : other ≠ one) (choice : α)
    (m n : Nat) :
    switched one other choice (m + n) = switched one other (switched one other choice m) n := by
  have hswitched : switched one other choice m = one ↔ (choice = one ↔ m % 2 = 0) := by
    rw [switched]
    split <;> simp [*]
  -- A sum is even if both numbers are, or neither.
  have hsum : (m + n) % 2 = 0 ↔ (m % 2 = 0 ↔ n % 2 = 0) := by omega
  have hsame : (choice = one ↔ (m + n) % 2 = 0)
      ↔ (switched one other choice m = one ↔ n % 2 = 0) := by
    rw [hswitched, hsum]
    grind
  exact if_congr hsame rfl rfl

namespace Settings

/-- The settings after some keys: the one key changes degrees for radians and radians for degrees, the
other one the light theme for the dark one and the dark one for the light one. -/
def after (settings : Settings) (keys : List Key) : Settings where
  mode := switched .degrees .radians settings.mode (keys.count .angleMode)
  theme := switched .light .dark settings.theme (keys.count .theme)

@[simp] theorem after_nil (settings : Settings) : settings.after [] = settings := by
  obtain ⟨mode, theme⟩ := settings
  cases mode <;> cases theme <;> rfl

theorem after_append (settings : Settings) (keys more : List Key) :
    settings.after (keys ++ more) = (settings.after keys).after more := by
  have hmode : AngleMode.radians ≠ .degrees := by decide
  have htheme : Theme.dark ≠ .light := by decide
  simp only [after, List.count_append, switched_add hmode, switched_add htheme]

/-- What the key of a setting reports: the setting that it has made. -/
def line? (settings : Settings) : Key → Option String
  | .angleMode =>
    some (if settings.mode = .degrees then "INFO mode d’angle: DEG" else "INFO mode d’angle: RAD")
  | .theme => some (if settings.theme = .light then "INFO thème: clair" else "INFO thème: sombre")
  | _ => none

/-- What the keys of the settings report: one line for each time that one of them is the last key
pressed, with the settings after it. -/
def lines (settings : Settings) (keys : List Key) : List String :=
  keys.inits.filterMap fun pressed => pressed.getLast?.bind (settings.after pressed).line?

theorem lines_concat (settings : Settings) (keys : List Key) (key : Key) :
    settings.lines (keys ++ [key])
      = settings.lines keys ++ ((settings.after (keys ++ [key])).line? key).toList := by
  rw [lines, List.inits_append, List.filterMap_append]
  congr 1
  cases h : (settings.after (keys ++ [key])).line? key <;> simp [h]

end Settings

/-! ## The log -/

theorem Event.line_angleModeSet (mode : AngleMode) : (Event.angleModeSet mode).line
    = if mode = .degrees then "INFO mode d’angle: DEG" else "INFO mode d’angle: RAD" := by
  cases mode <;> decide +kernel

theorem Event.line_themeSet (theme : Theme) : (Event.themeSet theme).line
    = if theme = .light then "INFO thème: clair" else "INFO thème: sombre" := by
  cases theme <;> decide +kernel

/-- Whether a line of the log is of the level of the settings. -/
def isInfo (line : String) : Bool :=
  "INFO ".toList.isPrefixOf line.toList

/-- The level of a line is the level of its entry. -/
theorem isInfo_line (event : Event) : isInfo event.line = decide (event.level = .info) := by
  rw [isInfo, Event.line, String.toList_append, String.toList_append]
  cases event.level <;> rfl

/-- An entry of this level leaves its line. -/
theorem filter_isInfo_singleton (event : Event) (h : event.level = .info) :
    ([event].map Event.line).filter isInfo = [event.line] := by
  have hinfo : isInfo event.line = true := by
    rw [isInfo_line]
    exact decide_eq_true h
  exact List.filter_cons_of_pos hinfo

/-! ## Evaluations -/

/-- No step of a computation is reported as a change of the settings is. -/
theorem level_of_mem_calculate {lib : MathLibrary} {mode : AngleMode} {text : String} {event : Event}
    (h : event ∈ (calculate lib mode text).journal) : event.level ≠ .info := by
  rw [calculate] at h
  split at h
  case h_1 | h_2 => cases h
  case h_3 tokens _ =>
    split at h
    case h_1 =>
      obtain rfl := List.mem_singleton.mp h
      simp [Event.level]
    case h_2 items _ =>
      simp only [List.mem_cons, List.mem_map] at h
      rcases h with rfl | rfl | ⟨stack, -, rfl⟩ <;> simp [Event.level]

/-- Neither is a failure. -/
theorem level_of_mem_evaluate {lib : MathLibrary} {mode : AngleMode} {text : String} {event : Event}
    (h : event ∈ (evaluate lib mode text).journal) : event.level ≠ .info := by
  rw [evaluate] at h
  split at h
  case h_1 => exact level_of_mem_calculate h
  case h_2 cause _ =>
    rcases List.mem_append.mp h with h | h
    · exact level_of_mem_calculate h
    · obtain rfl := List.mem_singleton.mp h
      simp [Event.level]

/-! ## One key -/

/-- Whether a key edits the expression: all do but "equals" and the keys of the settings. -/
def Key.edits : Key → Bool
  | equals | angleMode | theme => false
  | _ => true

theorem Key.edit_of_not_edits {key : Key} (h : key.edits = false) (cs : List Char) :
    key.edit cs = cs := by
  cases key <;> first | rfl | cases h

/-- The keys that do not edit can be left out. -/
theorem foldl_edit_filter (keys : List Key) (cs : List Char) :
    (keys.filter Key.edits).foldl Key.edit cs = keys.foldl Key.edit cs := by
  induction keys generalizing cs with
  | nil => rfl
  | cons key keys ih =>
    cases h : key.edits with
    | true => simp [h, ih]
    | false => simp [h, ih, Key.edit_of_not_edits h]

namespace Session

variable (lib : MathLibrary)

/-- The settings of a session. -/
def settings (s : Session) : Settings :=
  ⟨s.mode, s.theme⟩

/-- The result and the working of a session. -/
def solution (s : Session) : String × Working :=
  (s.result, s.working)

/-- What the evaluation of an expression shows: its value, or that there is none, and its working, if
there is one. -/
def shown (mode : AngleMode) (text : String) : String × Working :=
  (match (evaluate lib mode text).outcome with
    | .ok v => display v
    | .error _ => "Error",
  match Working.ofText text with
    | .ok working => working
    | .error _ => ⟨"", ""⟩)

theorem press_expression (s : Session) (key : Key) :
    (s.press lib key).1.expression = String.ofList (key.edit s.expression.toList) := by
  cases key <;> simp [press, solve, Key.edit]

theorem press_settings (s : Session) (key : Key) :
    (s.press lib key).1.settings = s.settings.after [key] := by
  obtain ⟨expression, result, failure, working, mode, theme⟩ := s
  cases key <;> cases mode <;> cases theme <;> rfl

/-- A key reports a change of the settings if it makes one, and nothing else of this kind. -/
theorem press_lines (s : Session) (key : Key) :
    ((s.press lib key).2.map Event.line).filter isInfo
      = ((s.settings.after [key]).line? key).toList := by
  obtain ⟨expression, result, failure, working, mode, theme⟩ := s
  cases key with
  | equals =>
    refine List.filter_eq_nil_iff.mpr (List.forall_mem_map.mpr fun event hevent => ?_)
    rw [isInfo_line]
    simpa using level_of_mem_evaluate hevent
  | angleMode =>
    refine (filter_isInfo_singleton (.angleModeSet mode.toggle) rfl).trans ?_
    rw [Event.line_angleModeSet]
    cases mode <;> rfl
  | theme =>
    refine (filter_isInfo_singleton (.themeSet theme.toggle) rfl).trans ?_
    rw [Event.line_themeSet]
    cases theme <;> rfl
  | _ => rfl

/-- What an evaluation has shown stays until the next one, or until the session is cleared. -/
theorem press_solution {key : Key} (hequals : key ≠ .equals) (hclear : key ≠ .clear) (s : Session) :
    (s.press lib key).1.solution = s.solution := by
  cases key <;> first | contradiction | rfl

theorem press_equals_solution (s : Session) :
    (s.press lib .equals).1.solution = shown lib s.mode s.expression := by
  simp only [press, solve, solution, shown]
  congr 1
  · rcases evaluate lib s.mode s.expression with ⟨cause | v, journal⟩ <;> rfl
  · cases Working.ofText s.expression <;> rfl

/-- A failure that is in sight was there before, and the key is one of the settings, unless it has asked
for an evaluation. -/
theorem failure_of_press {s : Session} {key : Key} {cause : Failure} (hequals : key ≠ .equals)
    (h : (s.press lib key).1.failure = some cause) :
    s.failure = some cause ∧ (key = .angleMode ∨ key = .theme) := by
  cases key
  case angleMode => exact ⟨h, .inl rfl⟩
  case theme => exact ⟨h, .inr rfl⟩
  case equals => contradiction
  all_goals cases h

/-- After the evaluation, a failure is the one of the evaluation. -/
theorem failure_of_press_equals {s : Session} {cause : Failure}
    (h : (s.press lib .equals).1.failure = some cause) :
    (evaluate lib s.mode s.expression).outcome = .error cause := by
  simp only [press, solve, Evaluation.failure?] at h
  split at h
  case h_1 => cases h
  case h_2 houtcome => rwa [Option.some.inj h] at houtcome

/-! ## Several keys -/

/-- What each of some keys preserves, all of them preserve. -/
theorem pressAll_of_press {lib : MathLibrary} {P : Session → Prop} {keys : List Key}
    (hpress : ∀ key ∈ keys, ∀ s, P s → P (s.press lib key).1) {s : Session} (hs : P s) :
    P (s.pressAll lib keys).1 := by
  induction keys generalizing s with
  | nil => exact hs
  | cons key keys ih =>
    have hnext : P (s.press lib key).1 := hpress key List.mem_cons_self s hs
    exact ih (fun k hk => hpress k (List.mem_cons_of_mem key hk)) hnext

theorem pressAll_expression (s : Session) (keys : List Key) :
    (s.pressAll lib keys).1.expression
      = String.ofList (keys.foldl Key.edit s.expression.toList) := by
  induction keys generalizing s with
  | nil => simp [pressAll]
  | cons key keys ih =>
    simp only [pressAll, List.foldl_cons]
    rw [ih, press_expression, String.toList_ofList]

theorem pressAll_settings (s : Session) (keys : List Key) :
    (s.pressAll lib keys).1.settings = s.settings.after keys := by
  induction keys generalizing s with
  | nil => exact (s.settings.after_nil).symm
  | cons key keys ih =>
    simp only [pressAll]
    rw [ih, press_settings, ← Settings.after_append, List.singleton_append]

/-- **The log of the settings.** The keys of the settings report one line each, in their order, and
nothing else of this kind is reported. -/
theorem pressAll_lines (s : Session) (keys : List Key) :
    ((s.pressAll lib keys).2.map Event.line).filter isInfo = s.settings.lines keys := by
  -- The line of a key depends on the keys before it, so the last key is taken off.
  induction keys using List.reverseRecOn with
  | nil => rfl
  | append_singleton keys key ih =>
    rw [pressAll_append, List.map_append, List.filter_append, ih, Settings.lines_concat]
    simp only [pressAll, List.append_nil]
    rw [press_lines, pressAll_settings, ← Settings.after_append]

/-- Keys that do not edit leave the expression as it is. -/
theorem pressAll_expression_of_not_edits (s : Session) {keys : List Key}
    (h : ∀ key ∈ keys, key.edits = false) : (s.pressAll lib keys).1.expression = s.expression := by
  have hnone : keys.filter Key.edits = [] := List.filter_eq_nil_iff.mpr (by simpa using h)
  rw [pressAll_expression, ← foldl_edit_filter, hnone, List.foldl_nil, String.ofList_toList]

/-- What an evaluation has shown stays through keys that neither evaluate nor clear. -/
theorem pressAll_solution (s : Session) {keys : List Key} (hequals : .equals ∉ keys)
    (hclear : .clear ∉ keys) : (s.pressAll lib keys).1.solution = s.solution :=
  pressAll_of_press (P := fun t => t.solution = s.solution)
    (fun _ hkey t ht => (press_solution lib (ne_of_mem_of_not_mem hkey hequals)
      (ne_of_mem_of_not_mem hkey hclear) t).trans ht) rfl

/-- Without an evaluation nothing comes to be shown. -/
theorem pressAll_blank {s : Session} {keys : List Key} (hequals : .equals ∉ keys)
    (hs : s.solution = ("0", ⟨"", ""⟩)) : (s.pressAll lib keys).1.solution = ("0", ⟨"", ""⟩) := by
  refine pressAll_of_press (P := fun t => t.solution = ("0", ⟨"", ""⟩)) (fun key hkey t ht => ?_) hs
  by_cases hclear : key = .clear
  · subst hclear
    rfl
  · exact (press_solution lib (ne_of_mem_of_not_mem hkey hequals) hclear t).trans ht

/-- A failure that is in sight after keys that do not evaluate was there before, and all these keys are
those of the settings. -/
theorem failure_of_pressAll {s : Session} {keys : List Key} {cause : Failure}
    (hequals : .equals ∉ keys) (h : (s.pressAll lib keys).1.failure = some cause) :
    s.failure = some cause ∧ ∀ key ∈ keys, key = .angleMode ∨ key = .theme := by
  induction keys generalizing s with
  | nil => exact ⟨h, by simp⟩
  | cons key keys ih =>
    rw [List.mem_cons, not_or] at hequals
    obtain ⟨hnext, hkeys⟩ := ih hequals.2 h
    obtain ⟨hs, hkey⟩ := failure_of_press lib (Ne.symm hequals.1) hnext
    exact ⟨hs, List.forall_mem_cons.mpr ⟨hkey, hkeys⟩⟩

/-! ## From the start -/

/-- The state that some keys reach from the start. -/
def reached (settings : Settings) (keys : List Key) : Session :=
  ((start settings).pressAll lib keys).1

/-- The state behind some keys, one of them singled out. -/
theorem reached_append_cons (settings : Settings) (before after : List Key) (key : Key) :
    reached lib settings (before ++ key :: after)
      = (((reached lib settings before).press lib key).1.pressAll lib after).1 := by
  simp [reached, pressAll_append, pressAll]

/-- Until the session is cleared, the last evaluation is shown. -/
theorem reached_solution (settings : Settings) (before : List Key) {after : List Key}
    (hequals : .equals ∉ after) (hclear : .clear ∉ after) :
    (reached lib settings (before ++ .equals :: after)).solution
      = shown lib (reached lib settings before).mode (reached lib settings before).expression := by
  rw [reached_append_cons, pressAll_solution lib _ hequals hclear, press_equals_solution]

/-- No evaluation is in sight behind some keys: none of them has asked for one, or none since the last
time that the session was cleared. -/
def Unsolved (keys : List Key) : Prop :=
  .equals ∉ keys ∨
    ∃ before after, keys = before ++ .clear :: after ∧ .clear ∉ after ∧ .equals ∉ after

/-- What some keys have made of a session that started with these settings, and of its journal. -/
structure History (settings : Settings) (keys : List Key) (s : Session) (journal : List Event) :
    Prop where
  /-- The expression is what the keys that edit make of it, whatever the settings. -/
  expression : ∀ others : Settings,
    s.expression = (reached lib others (keys.filter Key.edits)).expression
  /-- Each setting has been changed by its own key. -/
  settings_eq : s.settings = settings.after keys
  /-- The keys of the settings have left one line each in the log, and nothing else of this kind has. -/
  lines : (journal.map Event.line).filter isInfo = settings.lines keys
  /-- If no evaluation is in sight, none is shown. -/
  unsolved : Unsolved keys → s.solution = ("0", ⟨"", ""⟩)
  /-- Else the last one is, with the expression and the mode that it was asked for. -/
  solved : ¬ Unsolved keys → ∃ before after, keys = before ++ .equals :: after ∧ .equals ∉ after
    ∧ s.solution
      = shown lib (reached lib settings before).mode (reached lib settings before).expression
  /-- An error is the one of the last evaluation, and the expression is still the same. -/
  failed : s.error ≠ "" → ∃ before after cause, keys = before ++ .equals :: after ∧ .equals ∉ after
    ∧ s.result = "Error"
    ∧ (evaluate lib (reached lib settings before).mode (reached lib settings before).expression).outcome
      = .error cause
    ∧ s.error = cause.message
    ∧ ∀ others, others <+: after → (reached lib settings (before ++ .equals :: others)).expression
      = (reached lib settings before).expression

/-- A key that has been pressed was pressed for the last time. -/
theorem exists_last_of_mem {key : Key} {keys : List Key} (h : key ∈ keys) :
    ∃ before after, keys = before ++ key :: after ∧ key ∉ after := by
  obtain ⟨after, before, hkeys, hafter⟩ := List.eq_append_cons_of_mem (List.mem_reverse.mpr h)
  refine ⟨before.reverse, after.reverse, ?_, by simpa using hafter⟩
  simpa using congrArg List.reverse hkeys

/-- If an evaluation is in sight, the session has not been cleared since the last one. -/
theorem exists_equals_of_not_unsolved {keys : List Key} (h : ¬ Unsolved keys) :
    ∃ before after, keys = before ++ .equals :: after ∧ .equals ∉ after ∧ .clear ∉ after := by
  rw [Unsolved, not_or, not_not] at h
  obtain ⟨hmem, hclear⟩ := h
  obtain ⟨before, after, rfl, hafter⟩ := exists_last_of_mem hmem
  refine ⟨before, after, rfl, hafter, fun hmem => hclear ?_⟩
  obtain ⟨front, back, rfl, hback⟩ := exists_last_of_mem hmem
  exact ⟨before ++ .equals :: front, back, by simp, hback, by simp_all⟩

/-- A failure that is in sight is the one of the last evaluation, and since then only keys of the
settings have been pressed. -/
theorem exists_equals_of_failure {settings : Settings} {keys : List Key} {cause : Failure}
    (h : (reached lib settings keys).failure = some cause) :
    ∃ before after, keys = before ++ .equals :: after
      ∧ (∀ key ∈ after, key = .angleMode ∨ key = .theme)
      ∧ (evaluate lib (reached lib settings before).mode
          (reached lib settings before).expression).outcome = .error cause := by
  have hmem : .equals ∈ keys := by
    by_contra hequals
    cases (failure_of_pressAll lib hequals h).1
  obtain ⟨before, after, rfl, hequals⟩ := exists_last_of_mem hmem
  rw [reached_append_cons] at h
  obtain ⟨hcause, hafter⟩ := failure_of_pressAll lib hequals h
  exact ⟨before, after, rfl, hafter, failure_of_press_equals lib hcause⟩

/-- **Sessions as their keys make them.** Whatever keys are pressed from whatever settings: the
expression comes from the keys that edit alone, each setting from how often its key was pressed, what is
shown from the last evaluation alone, and an error never outlives the expression that it is about. -/
theorem reached_history (settings : Settings) (keys : List Key) :
    History lib settings keys (reached lib settings keys) ((start settings).pressAll lib keys).2 where
  expression others := by
    simp only [reached, pressAll_expression, foldl_edit_filter]
    rfl
  settings_eq := pressAll_settings lib (start settings) keys
  lines := pressAll_lines lib (start settings) keys
  unsolved h := by
    rcases h with hequals | ⟨before, after, rfl, -, hequals⟩
    · exact pressAll_blank lib hequals rfl
    · rw [reached_append_cons]
      exact pressAll_blank lib hequals rfl
  solved h := by
    obtain ⟨before, after, rfl, hequals, hclear⟩ := exists_equals_of_not_unsolved h
    exact ⟨before, after, rfl, hequals, reached_solution lib settings before hequals hclear⟩
  failed h := by
    cases hfailure : (reached lib settings keys).failure with
    | none => simp [error, hfailure] at h
    | some cause =>
      obtain ⟨before, after, rfl, hafter, houtcome⟩ := exists_equals_of_failure lib hfailure
      have hequals : .equals ∉ after := fun hmem => by simpa using hafter _ hmem
      have hclear : .clear ∉ after := fun hmem => by simpa using hafter _ hmem
      have hsolution := reached_solution lib settings before hequals hclear
      refine ⟨before, after, cause, rfl, hequals, ?_, houtcome, ?_, fun others hothers => ?_⟩
      · simpa [solution, shown, houtcome] using congrArg Prod.fst hsolution
      · rw [error, hfailure]
        rfl
      · -- The keys since then are "equals" and those of the settings.
        have hkeys : ∀ key ∈ others, key.edits = false := fun key hkey => by
          rcases hafter key (hothers.subset hkey) with rfl | rfl <;> rfl
        rw [reached_append_cons, pressAll_expression_of_not_edits lib _ hkeys, press_expression]
        simp [Key.edit]

/-- The message of a failed division outlives the key of the angle mode, whose line comes behind those of
the evaluation. -/
example :
    let keys : List Key :=
      [.digit '1', .theme, .operator '/', .digit '0', .equals, .angleMode]
    let (s, journal) := (start ⟨.degrees, .light⟩).pressAll .native keys
    s.expression = "1/0" ∧ s.settings = ⟨.radians, .dark⟩ ∧ s.solution = ("Error", ⟨"1 / 0", "1 0 /"⟩)
      ∧ s.error = "Divide by zero"
      ∧ journal.map Event.line
        = ["INFO thème: sombre", "DEBUG jetons: 1 / 0", "DEBUG rpn: 1 0 /", "TRACE pile: [1.0]",
          "TRACE pile: [1.0, 0.0]", "DEBUG évaluation de \"1/0\" refusée: Divide by zero",
          "INFO mode d’angle: RAD"] := by
  decide +kernel

end Session

end Calculator
