/-!
# Outcomes of computations that can fail

What follows for the parts of a computation that can fail if the whole of it does not, and the
outcome itself from its result or its error.
-/

namespace IconCompiler

variable {ε α β : Type}

/-- A value that was mapped comes from a value. -/
theorem ok_of_map {f : α → β} {x : Except ε α} {b : β} (h : x.map f = .ok b) :
    ∃ a, x = .ok a ∧ f a = b := by
  cases x with
  | error e => cases h
  | ok a => exact ⟨a, rfl, Except.ok.inj h⟩

/-- If a computation in two steps gives a value, so did both steps. -/
theorem ok_of_bind {f : α → Except ε β} {x : Except ε α} {b : β} (h : x.bind f = .ok b) :
    ∃ a, x = .ok a ∧ f a = .ok b := by
  cases x with
  | error e => cases h
  | ok a => exact ⟨a, rfl, h⟩

/-- An outcome with a value is a success. -/
theorem ok_of_toOption {x : Except ε α} {a : α} (h : x.toOption = some a) : x = .ok a := by
  cases x with
  | error e => cases h
  | ok b => exact congrArg Except.ok (Option.some.inj h)

/-- The error of an outcome, if it is one. -/
def error? (x : Except ε α) : Option ε :=
  match x with
  | .error e => some e
  | .ok _ => none

/-- An outcome with an error is a failure. -/
theorem error_of_error? {x : Except ε α} {e : ε} (h : error? x = some e) : x = .error e := by
  cases x with
  | error e' => exact congrArg Except.error (Option.some.inj h)
  | ok a => cases h

end IconCompiler
