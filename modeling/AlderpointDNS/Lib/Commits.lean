import Mathlib.Data.List.Basic
import Mathlib.Tactic.Common

/-!
# Loops that commit each round

A loop over rows, of which a round may fail.  Where the loop is one transaction, its result is that
of `foldlM`, and a failure leaves everything as it was.  Where each round commits by itself
(`each`), a failure leaves what the rounds before it did.

* `each_cases` — the loop ends, or it stops at a round that fails;
* **`unchanged_iff`** — rounds that change something leave everything as it was when one of them
  fails, exactly when none fails that has rounds before it.
-/

namespace Commits

variable {σ α : Type} (f : σ → α → Option σ)

/-- Round after round until one fails: whether none did, and what was committed. -/
def each (s : σ) : List α → Bool × σ
  | [] => (true, s)
  | a :: as =>
      match f s a with
      | none => (false, s)
      | some t => each t as

/-- Every round but the first succeeds after those before it. -/
def LateAccepted (s : σ) (as : List α) : Prop :=
  ∀ before a after t, as = before ++ a :: after → before ≠ [] → before.foldlM f s = some t →
    (f t a).isSome = true

variable {f}

theorem foldlM_cons_some {s t : σ} {a : α} (h : f s a = some t) (as : List α) :
    (a :: as).foldlM f s = as.foldlM f t := by
  rw [List.foldlM_cons, h]
  rfl

theorem each_cases (as : List α) (s : σ) :
    (∃ t, as.foldlM f s = some t ∧ each f s as = (true, t)) ∨
      ∃ before a after t, as = before ++ a :: after ∧ before.foldlM f s = some t ∧ f t a = none ∧
        each f s as = (false, t) := by
  induction as generalizing s with
  | nil => exact .inl ⟨s, rfl, rfl⟩
  | cons a as ih =>
      cases ha : f s a with
      | none =>
          refine .inr ⟨[], a, as, s, rfl, rfl, ha, ?_⟩
          simp only [each, ha]
      | some t =>
          have heach : each f s (a :: as) = each f t as := by simp only [each, ha]
          rw [heach]
          rcases ih t with ⟨u, hfold, heach⟩ | ⟨before, b, after, u, rfl, hfold, hb, heach⟩
          · exact .inl ⟨u, (foldlM_cons_some ha as).trans hfold, heach⟩
          · exact .inr ⟨a :: before, b, after, u, rfl, (foldlM_cons_some ha before).trans hfold, hb,
              heach⟩

theorem each_of_foldlM {as : List α} {s t : σ} (h : as.foldlM f s = some t) :
    each f s as = (true, t) := by
  induction as generalizing s with
  | nil => rw [each, Option.some.inj h]
  | cons a as ih =>
      rw [List.foldlM_cons, Option.bind_eq_bind, Option.bind_eq_some_iff] at h
      obtain ⟨u, hu, h⟩ := h
      simp only [each, hu]
      exact ih h

/-- A list whose rounds all succeed. -/
theorem lateAccepted_of_foldlM {as : List α} {s t : σ} (h : as.foldlM f s = some t) :
    LateAccepted f s as := by
  intro before a after u has _ hu
  rw [has, List.foldlM_append, hu, Option.bind_eq_bind, Option.bind_some, List.foldlM_cons,
    Option.bind_eq_bind, Option.bind_eq_some_iff] at h
  obtain ⟨v, hv, -⟩ := h
  rw [hv]
  rfl

/-- What a list of rounds makes larger. -/
theorem size_le_foldlM {size : σ → ℕ} (hgrow : ∀ s a t, f s a = some t → size s < size t)
    {as : List α} {s t : σ} (h : as.foldlM f s = some t) : size s + as.length ≤ size t := by
  induction as generalizing s with
  | nil =>
      rw [← Option.some.inj h]
      exact Nat.le_refl _
  | cons a as ih =>
      rw [List.foldlM_cons, Option.bind_eq_bind, Option.bind_eq_some_iff] at h
      obtain ⟨u, hu, h⟩ := h
      have hlt := hgrow s a u hu
      have hle := ih h
      rw [List.length_cons]
      omega

/-- **A loop that fails has changed nothing, exactly when no late round fails.** -/
theorem unchanged_iff {size : σ → ℕ} (hgrow : ∀ s a t, f s a = some t → size s < size t)
    (as : List α) (s : σ) :
    ((each f s as).1 = false → size (each f s as).2 = size s) ↔ LateAccepted f s as := by
  rcases each_cases (f := f) as s with
    ⟨t, hfold, heach⟩ | ⟨before, a, after, t, rfl, hfold, ha, heach⟩
  · rw [heach]
    exact iff_of_true (fun h => by cases h) (lateAccepted_of_foldlM hfold)
  · rw [heach]
    constructor
    · intro hsize before' b after' u hsplit hne hu
      have hbefore : before = [] := by
        have hle := size_le_foldlM hgrow hfold
        have hsize : size t = size s := hsize rfl
        exact List.length_eq_zero_iff.mp (by omega)
      -- the first round fails already, so nothing comes after it
      subst hbefore
      obtain rfl := Option.some.inj hfold
      obtain ⟨c, cs, rfl⟩ := List.exists_cons_of_ne_nil hne
      rw [List.nil_append, List.cons_append, List.cons.injEq] at hsplit
      rw [← hsplit.1, List.foldlM_cons, ha] at hu
      cases hu
    · intro hlate _
      by_cases hne : before = []
      · subst hne
        rw [← Option.some.inj hfold]
      · have hsome := hlate before a after t rfl hne hfold
        rw [ha] at hsome
        cases hsome

end Commits
