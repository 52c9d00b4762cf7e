import Calculator.Proofs.Session.History

/-!
# Errors in sight

How long the message of an evaluation that has failed stays in sight. The keys of the settings leave it
there, every other key takes it away, and "equals" puts the message of its own evaluation in its place.

* `press_error_of_ne` and `press_equals_error` are about one key;
* `reached_error_eq_iff` tells which evaluation a message is left over from, `reached_error` puts all
  three together;
* `press_angleMode_error` is a message that outlives the mode of its evaluation.
-/

namespace Calculator.Session

variable (lib : MathLibrary)

/-- The message of an outcome, empty if there is a value. -/
def complaint (outcome : Except Failure Float) : String :=
  match outcome with
  | .ok _ => ""
  | .error cause => cause.message

/-- A message in sight is the one of a failure. -/
theorem error_eq_iff {s : Session} {message : String} (h : message ≠ "") :
    s.error = message ↔ ∃ cause, s.failure = some cause ∧ cause.message = message := by
  rw [error]
  cases s.failure with
  | none => simpa using h.symm
  | some cause => simp

/-! ## One key -/

/-- The keys that edit take the message away, those of the settings leave it. -/
theorem press_error_of_ne {key : Key} (hequals : key ≠ .equals) (s : Session) :
    (s.press lib key).1.error = if key = .angleMode ∨ key = .theme then s.error else "" := by
  cases key with
  | equals => exact absurd rfl hequals
  | _ => rfl

/-- After an evaluation its own message is in sight, if it has failed. -/
theorem press_equals_error (s : Session) :
    (s.press lib .equals).1.error = complaint (evaluate lib s.mode s.expression).outcome := by
  simp only [press, solve, error, Evaluation.failure?, complaint]
  cases (evaluate lib s.mode s.expression).outcome <;> rfl

/-! ## Several keys -/

/-- The keys of the settings leave a failure in sight. -/
theorem pressAll_failure_of_settings {keys : List Key}
    (h : ∀ key ∈ keys, key = .angleMode ∨ key = .theme) (s : Session) :
    (s.pressAll lib keys).1.failure = s.failure := by
  refine pressAll_of_press (P := fun t => t.failure = s.failure) (fun key hkey t ht => ?_) rfl
  rcases h key hkey with rfl | rfl <;> exact ht

/-- **Where a message comes from.** It is in sight if it is the one of the last evaluation, and if only
keys of the settings have been pressed since then. -/
theorem reached_error_eq_iff {settings : Settings} {keys : List Key} {message : String}
    (h : message ≠ "") :
    (reached lib settings keys).error = message
      ↔ ∃ before after, keys = before ++ .equals :: after
          ∧ (∀ key ∈ after, key = .angleMode ∨ key = .theme)
          ∧ complaint (evaluate lib (reached lib settings before).mode
              (reached lib settings before).expression).outcome = message := by
  constructor
  · intro herror
    obtain ⟨cause, hfailure, hcause⟩ := (error_eq_iff h).mp herror
    obtain ⟨before, after, hkeys, hafter, houtcome⟩ := exists_equals_of_failure lib hfailure
    refine ⟨before, after, hkeys, hafter, ?_⟩
    rw [houtcome]
    exact hcause
  · rintro ⟨before, after, rfl, hafter, hmessage⟩
    rw [reached_append_cons, error, pressAll_failure_of_settings lib hafter, ← error,
      press_equals_error, hmessage]

/-- **Errors in sight.** Whatever keys have been pressed: the next key takes the message away, but those
of the settings leave it, and "equals" shows the message of its own evaluation. So a message in sight is
left over from before the last key exactly if this is a key of the settings. -/
theorem reached_error (settings : Settings) (keys : List Key) :
    let s := reached lib settings keys
    (∀ key, key ≠ .equals →
        (s.press lib key).1.error = if key = .angleMode ∨ key = .theme then s.error else "")
      ∧ (s.press lib .equals).1.error = complaint (evaluate lib s.mode s.expression).outcome
      ∧ ∀ message, message ≠ "" → (s.error = message
          ↔ ∃ before after, keys = before ++ .equals :: after
            ∧ (∀ key ∈ after, key = .angleMode ∨ key = .theme)
            ∧ complaint (evaluate lib (reached lib settings before).mode
                (reached lib settings before).expression).outcome = message) := by
  intro s
  exact ⟨fun key hequals => press_error_of_ne lib hequals s, press_equals_error lib s,
    fun message h => reached_error_eq_iff lib h⟩

/-- A message outlives the mode and the theme that it was shown in: behind `1/0=` it is still in sight after
the key of the angle mode, and after the key of the theme. -/
theorem press_angleMode_error :
    let s := reached .native {} [.digit '1', .operator '/', .digit '0', .equals]
    s.error = "Divide by zero" ∧ (s.press .native .angleMode).1.error = "Divide by zero"
      ∧ (s.press .native .theme).1.error = "Divide by zero" := by
  decide +kernel

end Calculator.Session
