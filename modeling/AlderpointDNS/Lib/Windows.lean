import Mathlib.Algebra.Order.Floor.Semiring
import Mathlib.Data.List.Perm.Basic
import Mathlib.Data.Rat.Floor
import Mathlib.Tactic.Linarith

/-!
# Windows

A range of numbers is walked through in windows: each is `width` long, and the next one begins one
behind its end.  What lies between the end of a window and the next one is in none of them.

* `windows_pairwise` — no window reaches into a later one.
* **`exists_window_iff`** — which numbers are in a window.
* `reached_of_int` — whole numbers all are, when the first window begins at a whole number.
* **`perm_flatMap_filter`** — what is taken window by window is what any of them takes, once.
-/

namespace Windows

/-- The windows from `start` to `hi`. -/
def windows (width : ℕ) (start hi : ℚ) : List (ℚ × ℚ) :=
  if start ≤ hi then
    (start, min (start + width) hi) :: windows width (min (start + width) hi + 1) hi
  else []
termination_by ⌈hi + 1 - start⌉₊
decreasing_by
  have hstart : start ≤ min (start + width) hi := le_min (by linarith) (by assumption)
  have hpos : 0 ≤ hi - start := by linarith
  calc ⌈hi + 1 - (min (start + width) hi + 1)⌉₊ ≤ ⌈hi - start⌉₊ := Nat.ceil_mono (by linarith)
    _ < ⌈hi - start⌉₊ + 1 := Nat.lt_succ_self _
    _ = ⌈hi + 1 - start⌉₊ := by
        rw [← Nat.ceil_add_one hpos]
        congr 1
        ring

variable {width : ℕ} {start hi q : ℚ}

theorem windows_of_le (h : start ≤ hi) : windows width start hi =
    (start, min (start + width) hi) :: windows width (min (start + width) hi + 1) hi := by
  rw [windows, if_pos h]

theorem windows_of_lt (h : hi < start) : windows width start hi = [] := by
  rw [windows, if_neg (not_le.mpr h)]

theorem start_le_of_mem {w : ℚ × ℚ} (hw : w ∈ windows width start hi) : start ≤ w.1 := by
  induction start using windows.induct width hi with
  | case1 start hle ih =>
      rw [windows_of_le hle] at hw
      rcases List.mem_cons.mp hw with rfl | hw
      · exact le_rfl
      · have hnext := ih hw
        have hwidth : (0 : ℚ) ≤ width := Nat.cast_nonneg width
        have hmin : start ≤ min (start + width) hi := le_min (by linarith) hle
        linarith
  | case2 start hlt =>
      rw [windows_of_lt (not_le.mp hlt)] at hw
      exact (List.not_mem_nil hw).elim

theorem windows_pairwise (width : ℕ) (start hi : ℚ) :
    (windows width start hi).Pairwise fun v w => v.2 < w.1 := by
  induction start using windows.induct width hi with
  | case1 start hle ih =>
      rw [windows_of_le hle, List.pairwise_cons]
      refine ⟨fun w hw => ?_, ih⟩
      have hnext := start_le_of_mem hw
      show min (start + width) hi < w.1
      linarith
  | case2 start hlt =>
      rw [windows_of_lt (not_le.mp hlt)]
      exact List.Pairwise.nil

/-- In steps of `width + 1` from `start`, the number is at most `width` behind one of them. -/
def Reached (width : ℕ) (start q : ℚ) : Prop :=
  ∃ k : ℕ, start + k * (width + 1) ≤ q ∧ q ≤ start + k * (width + 1) + width

theorem reached_next : Reached width (start + width + 1) q ↔ ∃ k : ℕ,
    start + (k + 1 : ℕ) * (width + 1) ≤ q ∧ q ≤ start + (k + 1 : ℕ) * (width + 1) + width := by
  have hshift : ∀ k : ℕ, start + width + 1 + k * ((width : ℚ) + 1)
      = start + (k + 1 : ℕ) * (width + 1) := by
    intro k
    push_cast
    ring
  simp only [Reached, hshift]

theorem start_le_of_reached (h : Reached width start q) : start ≤ q := by
  obtain ⟨k, hk, -⟩ := h
  have hstep : (0 : ℚ) ≤ k * (width + 1) := by positivity
  linarith

/-- **The numbers that a window takes.** -/
theorem exists_window_iff : (∃ w ∈ windows width start hi, w.1 ≤ q ∧ q ≤ w.2) ↔
    q ≤ hi ∧ Reached width start q := by
  induction start using windows.induct width hi with
  | case1 start hle ih =>
      rw [windows_of_le hle]
      simp only [List.mem_cons, exists_eq_or_imp, ih]
      by_cases hlast : hi ≤ start + width
      · -- the last window
        rw [min_eq_right hlast]
        constructor
        · rintro (⟨hstart, hq⟩ | ⟨hq, hreached⟩)
          · exact ⟨hq, 0, by simpa using hstart, by simpa using hq.trans hlast⟩
          · have hnext := start_le_of_reached hreached
            linarith
        · rintro ⟨hq, hreached⟩
          exact Or.inl ⟨start_le_of_reached hreached, hq⟩
      · rw [min_eq_left (not_le.mp hlast).le, reached_next]
        constructor
        · rintro (⟨hstart, hq⟩ | ⟨hq, k, hlow, hhigh⟩)
          · exact ⟨hq.trans (not_le.mp hlast).le, 0, by simpa using hstart, by simpa using hq⟩
          · exact ⟨hq, k + 1, hlow, hhigh⟩
        · rintro ⟨hq, k, hlow, hhigh⟩
          cases k with
          | zero => exact Or.inl ⟨by simpa using hlow, by simpa using hhigh⟩
          | succ k => exact Or.inr ⟨hq, k, hlow, hhigh⟩
  | case2 start hlt =>
      rw [windows_of_lt (not_le.mp hlt)]
      constructor
      · rintro ⟨w, hw, -⟩
        exact (List.not_mem_nil hw).elim
      · rintro ⟨hq, hreached⟩
        exact absurd ((start_le_of_reached hreached).trans hq) hlt

/-- A whole number is reached from a smaller one. -/
theorem reached_of_int {a b : ℤ} (h : a ≤ b) : Reached width (a : ℚ) (b : ℚ) := by
  have hpos : (0 : ℤ) < (width : ℤ) + 1 := by omega
  have hdiv := Int.ediv_mul_add_emod (b - a) (width + 1)
  have hmod := Int.emod_lt_of_pos (b - a) hpos
  have hnonneg := Int.emod_nonneg (b - a) hpos.ne'
  obtain ⟨k, hk⟩ := Int.eq_ofNat_of_zero_le (Int.ediv_nonneg (sub_nonneg.mpr h) hpos.le)
  rw [hk] at hdiv
  have hlow : a + (k : ℤ) * (width + 1) ≤ b := by linarith
  have hhigh : b ≤ a + (k : ℤ) * (width + 1) + width := by linarith
  exact ⟨k, by exact_mod_cast hlow, by exact_mod_cast hhigh⟩

/-! ## Taking what is in the windows -/

variable {α β : Type}

theorem filter_append_perm {p q : α → Bool} (h : ∀ a, p a = true → q a = false) (l : List α) :
    (l.filter p ++ l.filter q).Perm (l.filter fun a => p a || q a) := by
  induction l with
  | nil => exact List.Perm.nil
  | cons a l ih =>
      cases hp : p a with
      | true =>
          rw [List.filter_cons_of_pos hp, List.filter_cons_of_neg (by simp [h a hp]),
            List.filter_cons_of_pos (by simp [hp])]
          exact ih.cons a
      | false =>
          cases hq : q a with
          | true =>
              rw [List.filter_cons_of_neg (by simp [hp]), List.filter_cons_of_pos hq,
                List.filter_cons_of_pos (by simp [hq])]
              exact List.perm_middle.trans (ih.cons a)
          | false =>
              rw [List.filter_cons_of_neg (by simp [hp]), List.filter_cons_of_neg (by simp [hq]),
                List.filter_cons_of_neg (by simp [hp, hq])]
              exact ih

/-- **What is taken window by window**, if none takes what a later one does. -/
theorem perm_flatMap_filter {takes : β → α → Bool} {ws : List β}
    (h : ws.Pairwise fun v w => ∀ a, takes v a = true → takes w a = false) (l : List α) :
    (ws.flatMap fun w => l.filter (takes w)).Perm (l.filter fun a => ws.any (takes · a)) := by
  induction ws with
  | nil => simp
  | cons w ws ih =>
      obtain ⟨hw, hws⟩ := List.pairwise_cons.mp h
      rw [List.flatMap_cons]
      refine ((ih hws).append_left _).trans ?_
      refine (filter_append_perm (fun a ha => ?_) l).trans (by simp)
      rw [List.any_eq_false]
      intro v hv
      rw [hw v hv a ha]
      exact Bool.false_ne_true

end Windows
