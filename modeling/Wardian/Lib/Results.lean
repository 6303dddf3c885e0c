/-
Checks that pass or fail, one after the other.

A check returns a value or an error.  A sequence of checks passes when each of them does.
-/

import Mathlib.Data.List.Forall2

set_option autoImplicit false

namespace Results

variable {ε α β γ : Type}

theorem bind_eq_ok {r : Except ε α} {f : α → Except ε β} {b : β} :
    r >>= f = .ok b ↔ ∃ a, r = .ok a ∧ f a = .ok b := by
  cases r with
  | ok a =>
    constructor
    · intro h
      exact ⟨a, rfl, h⟩
    · rintro ⟨a', heq, h⟩
      rw [Except.ok.inj heq]
      exact h
  | error e =>
    constructor
    · intro h
      cases h
    · rintro ⟨a, heq, -⟩
      cases heq

end Results
