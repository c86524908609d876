import Mathlib.Tactic.Common

/-!
# Results

A result is a value or an error.  A computation is followed from its end with `bind_eq_ok`, and
from its beginning with `ok_bind`.
-/

namespace Results

variable {ε α β : Type}

theorem ok_bind (a : α) (f : α → Except ε β) : (Except.ok a >>= f) = f a := rfl

theorem error_bind (e : ε) (f : α → Except ε β) : (Except.error e >>= f) = .error e := rfl

theorem bind_eq_ok {x : Except ε α} {f : α → Except ε β} {b : β} :
    (x >>= f) = .ok b ↔ ∃ a, x = .ok a ∧ f a = .ok b := by
  constructor
  · intro h
    cases x with
    | error e => cases h
    | ok a => exact ⟨a, rfl, h⟩
  · rintro ⟨a, hx, h⟩
    rw [hx, ok_bind, h]

end Results
