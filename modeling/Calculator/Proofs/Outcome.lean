/-!
# Outcomes

How computations that can fail are chained: what a chain comes to tells what its parts have come to.

* `mapError_injective` is about a change of the errors;
* `ok_bind`, `map_eq_ok_iff`, `mapError_eq_ok_iff` and `bind_eq_ok_iff` are about a chain that succeeds;
* `map_eq_error_iff`, `mapError_eq_error_iff` and `bind_eq_error` are about one that fails.
-/

namespace Calculator

variable {ε α β : Type}

/-- A chain goes on with what has come out. -/
@[simp] theorem ok_bind (a : α) (f : α → Except ε β) : (Except.ok a >>= f) = f a := rfl

/-- What is made of an outcome succeeds if the outcome does. -/
theorem map_eq_ok_iff {x : Except ε α} {f : α → β} {b : β} :
    x.map f = .ok b ↔ ∃ a, x = .ok a ∧ f a = b := by
  cases x <;> simp [Except.map]

/-- A chain of two computations succeeds if both do. -/
theorem bind_eq_ok_iff {x : Except ε α} {f : α → Except ε β} {b : β} :
    x.bind f = .ok b ↔ ∃ a, x = .ok a ∧ f a = .ok b := by
  cases x <;> simp [Except.bind]

/-- A change of the errors changes no success. -/
theorem mapError_eq_ok_iff {δ : Type} {x : Except ε α} {f : ε → δ} {a : α} :
    x.mapError f = .ok a ↔ x = .ok a := by
  cases x with
  | error e => exact ⟨nofun, nofun⟩
  | ok b =>
    constructor <;>
    · rintro ⟨⟩
      rfl

/-- A change of the errors that keeps them apart keeps the outcomes apart. -/
theorem mapError_injective {δ : Type} {f : ε → δ} (hf : Function.Injective f) :
    Function.Injective fun x : Except ε α => x.mapError f := by
  rintro (c | a) (c' | a') h
  case error.error =>
    obtain rfl : c = c' := hf (Except.error.inj h)
    rfl
  case ok.ok =>
    obtain rfl : a = a' := Except.ok.inj h
    rfl
  all_goals cases h

/-- What is made of an outcome fails as the outcome does. -/
theorem map_eq_error_iff {x : Except ε α} {f : α → β} {e : ε} :
    x.map f = .error e ↔ x = .error e := by
  cases x <;> simp [Except.map]

/-- A change of the errors changes the error of a failure. -/
theorem mapError_eq_error_iff {δ : Type} {x : Except ε α} {f : ε → δ} {e : δ} :
    x.mapError f = .error e ↔ ∃ cause, x = .error cause ∧ f cause = e := by
  cases x with
  | error cause =>
    constructor
    · rintro ⟨⟩
      exact ⟨cause, rfl, rfl⟩
    · rintro ⟨_, ⟨⟩, rfl⟩
      rfl
  | ok a => exact ⟨nofun, fun ⟨_, h, _⟩ => nomatch h⟩

/-- A chain of two computations fails in the first or in the second. -/
theorem bind_eq_error {x : Except ε α} {f : α → Except ε β} {cause : ε}
    (h : x.bind f = .error cause) : x = .error cause ∨ ∃ a, x = .ok a ∧ f a = .error cause := by
  cases x with
  | error e =>
    cases h
    exact .inl rfl
  | ok a => exact .inr ⟨a, rfl, h⟩

end Calculator
