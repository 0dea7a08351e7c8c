/-! # Outcomes

What a computation that can fail did, told from what came of it: a sequence of two that succeeds did
both, and one whose result or error was converted came to the same before.
-/

namespace Tabula

variable {ε ε' α β : Type} {x : Except ε α}

/-- An error is no result. -/
theorem error_ne_ok {e : ε} {a : α} : Except.error e ≠ .ok a := by
  intro same
  cases same

/-- A sequence that succeeds did both. -/
theorem bind_eq_ok {f : α → Except ε β} {b : β} (done : x >>= f = .ok b) :
    ∃ a, x = .ok a ∧ f a = .ok b := by
  cases x with
  | error e => cases done
  | ok a => exact ⟨a, rfl, done⟩

/-- A sequence that fails did so at first, or after the first one was done. -/
theorem bind_eq_error {f : α → Except ε β} {e : ε} (failed : x >>= f = .error e) :
    x = .error e ∨ ∃ a, x = .ok a ∧ f a = .error e := by
  cases x with
  | error e' => exact Or.inl (congrArg Except.error (Except.error.inj failed))
  | ok a => exact Or.inr ⟨a, rfl, failed⟩

/-- A converted result was one before. -/
theorem map_eq_ok {f : α → β} {b : β} (done : x.map f = .ok b) : ∃ a, x = .ok a ∧ f a = b := by
  cases x with
  | error e => cases done
  | ok a => exact ⟨a, rfl, Except.ok.inj done⟩

/-- An error is the same where the result would be converted. -/
theorem map_eq_error {f : α → β} {e : ε} (failed : x.map f = .error e) : x = .error e := by
  cases x with
  | error e' => exact congrArg Except.error (Except.error.inj failed)
  | ok a => cases failed

/-- A result is the same where the error would be converted. -/
theorem ok_of_mapError {f : ε → ε'} {a : α} (done : x.mapError f = .ok a) : x = .ok a := by
  cases x with
  | error e => cases done
  | ok b => exact congrArg _ (Except.ok.inj done)

/-- What is there without the error was a result. -/
theorem eq_ok_of_toOption {a : α} (some : x.toOption = some a) : x = .ok a := by
  cases x with
  | error e => cases some
  | ok b => exact congrArg _ (Option.some.inj some)

end Tabula
