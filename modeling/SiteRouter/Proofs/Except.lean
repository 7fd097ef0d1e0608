/-!
# Results that may be faults

A computation that may fail gives a result only where each of its parts does, and its fault is that
of the first part that is one.
-/

namespace SiteRouter

variable {ε α β : Type}

/-- What follows a part gives a result exactly where the part does and the rest does with it. -/
theorem bind_eq_ok {x : Except ε α} {f : α → Except ε β} {b : β} :
    x.bind f = .ok b ↔ ∃ a, x = .ok a ∧ f a = .ok b := by
  cases x with
  | error e => simp [Except.bind]
  | ok a => simp [Except.bind]

/-- A part that is changed gives a result exactly where it did. -/
theorem map_eq_ok {x : Except ε α} {f : α → β} {b : β} :
    x.map f = .ok b ↔ ∃ a, x = .ok a ∧ f a = b := by
  cases x with
  | error e => simp [Except.map]
  | ok a => simp [Except.map]

/-- A part whose fault is changed gives a result exactly where it did. -/
theorem mapError_eq_ok {ε' : Type} {x : Except ε α} {f : ε → ε'} {a : α} :
    x.mapError f = .ok a ↔ x = .ok a := by
  constructor
  · intro h
    cases x with
    | error e => cases h
    | ok a =>
      cases h
      rfl
  · rintro rfl
    rfl

/-- What follows a part is a fault exactly where the part is, or the rest is after it. -/
theorem bind_eq_error {x : Except ε α} {f : α → Except ε β} {e : ε} :
    x.bind f = .error e ↔ x = .error e ∨ ∃ a, x = .ok a ∧ f a = .error e := by
  cases x with
  | error e' => simp [Except.bind]
  | ok a => simp [Except.bind]

/-- A part that is changed is a fault exactly where it was, and the same one. -/
theorem map_eq_error {x : Except ε α} {f : α → β} {e : ε} :
    x.map f = .error e ↔ x = .error e := by
  cases x with
  | error e' => simp [Except.map]
  | ok a => simp [Except.map]

/-- The fault of a part whose fault is changed is what its own fault becomes. -/
theorem mapError_eq_error {ε' : Type} {x : Except ε α} {f : ε → ε'} {e' : ε'} :
    x.mapError f = .error e' ↔ ∃ e, x = .error e ∧ f e = e' := by
  constructor
  · intro h
    cases x with
    | error e =>
      cases h
      exact ⟨e, rfl, rfl⟩
    | ok a => cases h
  · rintro ⟨e, rfl, rfl⟩
    rfl

/-- A computation gives a result exactly where it does without its fault. -/
theorem toOption_eq_some {x : Except ε α} {a : α} : x.toOption = some a ↔ x = .ok a := by
  cases x with
  | error e => simp [Except.toOption]
  | ok a => simp [Except.toOption]

/-- What is made of a result without its fault is made of the result. -/
theorem eq_of_toOption_map {x : Except ε α} {f : α → β} {a : α} {b : β}
    (h : x.toOption.map f = some b) (ha : x = .ok a) : f a = b := by
  rw [toOption_eq_some.2 ha] at h
  exact Option.some.inj h

end SiteRouter
