import Mathlib.Data.List.Basic

/-!
# A pool of requests

Requests stand in a list in the order in which they arrived, and a step of one request changes its
entry.  What a guard is to bound is a number of entries: **`countP_set_add`** is how that number
changes with one entry, and `countP_set_le` and `countP_set_le_succ` are its two uses: an entry
that counted before, and any entry.
-/

namespace Pool

variable {ρ : Type} {p : ρ → Bool} {requests : List ρ} {i : ℕ} {r r' : ρ}

/-- **The count changes with the entry.** -/
theorem countP_set_add (p : ρ → Bool) (hr : requests[i]? = some r) (r' : ρ) :
    (requests.set i r').countP p + (if p r then 1 else 0) =
      requests.countP p + (if p r' then 1 else 0) := by
  obtain ⟨hi, rfl⟩ := List.getElem?_eq_some_iff.mp hr
  have hle := List.boole_getElem_le_countP (p := p) hi
  rw [List.countP_set hi]
  omega

theorem countP_set_le (hr : requests[i]? = some r) (hp : p r' = true → p r = true) :
    (requests.set i r').countP p ≤ requests.countP p := by
  have hadd := countP_set_add p hr r'
  cases hp' : p r' with
  | false =>
      rw [hp', if_neg Bool.false_ne_true] at hadd
      omega
  | true =>
      rw [hp', hp hp'] at hadd
      omega

theorem countP_set_le_succ (hr : requests[i]? = some r) :
    (requests.set i r').countP p ≤ requests.countP p + 1 := by
  have hadd := countP_set_add p hr r'
  have hone : (if p r' = true then 1 else 0) ≤ 1 := by split <;> omega
  omega

end Pool
