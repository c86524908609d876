import Mathlib.Data.List.Lex
import Mathlib.Data.List.Pairwise
import Mathlib.Data.Prod.Lex
import Mathlib.Order.Compare

/-!
# Comparing part by part

A program compares two values field by field, or element by element, and stops at the first
difference.  What it finds is how they compare in a lexicographic order: `o.Compares a b` says that
`o` is the outcome for `a` and `b`, and there is one rule for each way to put an order together.

* **`compares_toLex`** — pairs by their first components first.
* **`compares_cons`** — lists by their heads first.
* `le_getLast` — the last element of a sorted list is not below any other.
-/

namespace Lexicographic

variable {α β : Type*} [LinearOrder α] [LinearOrder β] {o o' : Ordering}

/-- Which of two pairs comes first is decided by their first components, or else by the second. -/
theorem compares_toLex {a c : α} {b d : β} (h : o.Compares a c) (h' : o'.Compares b d) :
    (o.then o').Compares (toLex (a, b)) (toLex (c, d)) := by
  cases o with
  | lt => exact Prod.Lex.toLex_lt_toLex.mpr (Or.inl h)
  | gt => exact Prod.Lex.toLex_lt_toLex.mpr (Or.inl h)
  | eq =>
      obtain rfl : a = c := h
      rw [Ordering.eq_then]
      cases o' with
      | lt => exact Prod.Lex.toLex_lt_toLex.mpr (Or.inr ⟨rfl, h'⟩)
      | eq => exact congrArg (fun x => toLex (a, x)) h'
      | gt => exact Prod.Lex.toLex_lt_toLex.mpr (Or.inr ⟨rfl, h'⟩)

/-- The first elements are compared first. -/
theorem compares_cons {a b : α} {as bs : List α} (h : o.Compares a b) (h' : o'.Compares as bs) :
    (o.then o').Compares (a :: as) (b :: bs) := by
  cases o with
  | lt => exact List.Lex.rel h
  | gt => exact List.Lex.rel h
  | eq =>
      obtain rfl : a = b := h
      rw [Ordering.eq_then]
      cases o' with
      | lt => exact List.Lex.cons h'
      | eq => exact congrArg (List.cons a) h'
      | gt => exact List.Lex.cons h'

/-- And a list comes after the lists it goes on from. -/
theorem compares_nil_cons (a : α) (as : List α) : Ordering.lt.Compares [] (a :: as) :=
  List.Lex.nil

theorem compares_cons_nil (a : α) (as : List α) : Ordering.gt.Compares (a :: as) [] :=
  List.Lex.nil

/-- Comparing whole lists. -/
theorem compares_list (as bs : List α) : (cmp as bs).Compares as bs := by
  have hcmp : cmp as bs = @cmp (List α) _ LinearOrder.toDecidableLT as bs :=
    congrArg (fun inst : DecidableLT (List α) => cmp as bs) (Subsingleton.elim _ _)
  rw [hcmp]
  exact cmp_compares as bs

/-- Among elements sorted by a key, the key of the last one is the greatest. -/
theorem le_getLast {γ : Type*} {key : γ → α} {xs : List γ}
    (hsorted : xs.Pairwise fun x y => key x ≤ key y) {last : γ} (hlast : xs.getLast? = some last)
    {x : γ} (hx : x ∈ xs) : key x ≤ key last := by
  have : Std.Refl fun x y => key x ≤ key y := ⟨fun x => le_refl (key x)⟩
  obtain ⟨hne, rfl⟩ := List.mem_getLast?_eq_getLast hlast
  exact hsorted.rel_getLast hx

end Lexicographic
