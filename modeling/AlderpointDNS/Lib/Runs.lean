import Mathlib.Data.List.Basic

/-!
# Runs

A system moves from state to state by actions; `step s a` is `none` where the action cannot be
taken.  `run` follows a list of actions.  **`run_invariant`** is the induction principle for
everything that is claimed of all reachable states: what holds at the start and is preserved by
each step that meets `ok` holds after every run whose steps meet `ok`.  `stepsMeet_iff` reads
`StepsMeet` as a condition on each step together with the state it is taken in, `stepsMeet_of_inv`
shows it with the help of what the steps preserve, and **`stepsMeet_iff_forall_reached`** makes
`ok` exact: a property that a step keeps just when it meets `ok` holds in every state of a run just
when all steps of the run meet `ok`.
-/

namespace Runs

variable {σ α : Type} (step : σ → α → Option σ)

/-- The state after a list of actions. -/
def run (s : σ) : List α → Option σ
  | [] => some s
  | a :: as => (step s a).bind fun s' => run s' as

/-- Every step of the run meets `ok`. -/
def StepsMeet (ok : σ → α → Prop) (s : σ) : List α → Prop
  | [] => True
  | a :: as => ok s a ∧ ∀ s', step s a = some s' → StepsMeet ok s' as

variable {step}

/-- The steps of a run can be checked one by one. -/
instance decidableStepsMeet {ok : σ → α → Prop} [∀ s a, Decidable (ok s a)] :
    (s : σ) → (as : List α) → Decidable (StepsMeet step ok s as)
  | _, [] => .isTrue trivial
  | s, a :: as =>
      match hstep : step s a with
      | none => decidable_of_iff (ok s a) ⟨fun hok => ⟨hok, fun t ht => by simp [hstep] at ht⟩,
          fun hmeet => hmeet.1⟩
      | some t =>
          let _ : Decidable (StepsMeet step ok t as) := decidableStepsMeet t as
          decidable_of_iff (ok s a ∧ StepsMeet step ok t as)
            ⟨fun hmeet => ⟨hmeet.1, fun u hu => by
                rw [hstep, Option.some.injEq] at hu
                exact hu ▸ hmeet.2⟩,
              fun hmeet => ⟨hmeet.1, hmeet.2 t hstep⟩⟩

theorem run_append (s : σ) (as bs : List α) :
    run step s (as ++ bs) = (run step s as).bind fun s' => run step s' bs := by
  induction as generalizing s with
  | nil => rfl
  | cons a as ih =>
      rw [List.cons_append, run, run, Option.bind_assoc]
      exact congrArg _ (funext ih)

/-- **What each step preserves, a run preserves.** -/
theorem run_invariant {ok : σ → α → Prop} {inv : σ → Prop}
    (hstep : ∀ s a s', inv s → ok s a → step s a = some s' → inv s') :
    ∀ (as : List α) (s s' : σ), inv s → StepsMeet step ok s as → run step s as = some s' →
      inv s' := by
  intro as
  induction as with
  | nil =>
      intro s s' hs _ hrun
      rw [← Option.some.inj hrun]
      exact hs
  | cons a as ih =>
      intro s s' hs hok hrun
      rw [run, Option.bind_eq_some_iff] at hrun
      obtain ⟨t, ht, hrun⟩ := hrun
      exact ih t s' (hstep s a t hs hok.1 ht) (hok.2 t ht) hrun

/-- A run meets `ok` when each of its actions meets it in the state reached before it. -/
theorem stepsMeet_iff {ok : σ → α → Prop} {s : σ} {as : List α} :
    StepsMeet step ok s as ↔
      ∀ pre a post s', as = pre ++ a :: post → run step s pre = some s' → ok s' a := by
  constructor
  · intro h pre
    induction pre generalizing s as with
    | nil =>
        rintro a post s' rfl hrun
        rw [← Option.some.inj hrun]
        exact h.1
    | cons b pre ih =>
        rintro a post s' rfl hrun
        rw [run, Option.bind_eq_some_iff] at hrun
        obtain ⟨t, ht, hrun⟩ := hrun
        exact ih (h.2 t ht) a post s' rfl hrun
  · intro h
    induction as generalizing s with
    | nil => trivial
    | cons b as ih =>
        refine ⟨h [] b as s rfl rfl, fun t ht => ih ?_⟩
        rintro pre a post s' rfl hrun
        refine h (b :: pre) a post s' rfl ?_
        rw [run, ht]
        exact hrun

theorem stepsMeet_cons {ok : σ → α → Prop} {s t : σ} {a : α} {as : List α} (hok : ok s a)
    (hstep : step s a = some t) (h : StepsMeet step ok t as) : StepsMeet step ok s (a :: as) := by
  refine ⟨hok, fun u hu => ?_⟩
  rw [hstep, Option.some.injEq] at hu
  exact hu ▸ h

theorem stepsMeet_of_forall {ok : σ → α → Prop} {s : σ} {as : List α}
    (h : ∀ a ∈ as, ∀ s, ok s a) : StepsMeet step ok s as := by
  rw [stepsMeet_iff]
  rintro pre a post s' rfl _
  exact h a (by simp) s'

/-- A condition on the actions alone. -/
theorem stepsMeet_iff_forall_mem {ok : α → Prop} {s s' : σ} {as : List α}
    (hrun : run step s as = some s') : StepsMeet step (fun _ a => ok a) s as ↔ ∀ a ∈ as, ok a := by
  refine ⟨fun h a ha => ?_, fun h => stepsMeet_of_forall fun a ha _ => h a ha⟩
  obtain ⟨pre, post, rfl⟩ := List.append_of_mem ha
  rw [run_append, Option.bind_eq_some_iff] at hrun
  obtain ⟨t, ht, -⟩ := hrun
  exact stepsMeet_iff.mp h pre a post t rfl ht

/-- To show that the steps of a run meet `ok` one may use what they preserve. -/
theorem stepsMeet_of_inv {ok : σ → α → Prop} {inv : σ → Prop}
    (hstep : ∀ s a s', inv s → ok s a → step s a = some s' → inv s') {as : List α} {s : σ}
    (hs : inv s) (h : ∀ pre a post s', as = pre ++ a :: post → run step s pre = some s' →
      inv s' → ok s' a) : StepsMeet step ok s as := by
  induction as generalizing s with
  | nil => trivial
  | cons a as ih =>
      have hok : ok s a := h [] a as s rfl rfl hs
      refine ⟨hok, fun t ht => ih (hstep s a t hs hok ht) ?_⟩
      rintro pre b post s' rfl hrun
      refine h (a :: pre) b post s' rfl ?_
      rw [run, ht]
      exact hrun

/-- Two conditions that mean the same wherever the run gets to. -/
theorem stepsMeet_congr {ok ok' : σ → α → Prop} {inv : σ → Prop}
    (hiff : ∀ s a, inv s → (ok s a ↔ ok' s a))
    (hstep : ∀ s a s', inv s → ok s a → step s a = some s' → inv s') (as : List α) :
    ∀ s, inv s → (StepsMeet step ok s as ↔ StepsMeet step ok' s as) := by
  induction as with
  | nil => exact fun _ _ => Iff.rfl
  | cons a as ih =>
      intro s hs
      constructor
      · rintro ⟨hok, hrest⟩
        exact ⟨(hiff s a hs).mp hok, fun t ht => (ih t (hstep s a t hs hok ht)).mp (hrest t ht)⟩
      · rintro ⟨hok', hrest⟩
        have hok := (hiff s a hs).mpr hok'
        exact ⟨hok, fun t ht => (ih t (hstep s a t hs hok ht)).mpr (hrest t ht)⟩

/-- What each step preserves without a condition. -/
theorem invariant_of_run {inv : σ → Prop}
    (hstep : ∀ s a s', inv s → step s a = some s' → inv s') (as : List α) (s s' : σ) (hs : inv s)
    (hrun : run step s as = some s') : inv s' := by
  have hall : StepsMeet step (fun _ _ => True) s as := stepsMeet_of_forall fun _ _ _ => trivial
  exact run_invariant (fun s a s' hs _ => hstep s a s' hs) as s s' hs hall hrun

theorem stepsMeet_append {ok : σ → α → Prop} {s s' : σ} {as bs : List α}
    (h : StepsMeet step ok s (as ++ bs)) (hrun : run step s as = some s') :
    StepsMeet step ok s as ∧ StepsMeet step ok s' bs := by
  rw [stepsMeet_iff] at h
  refine ⟨stepsMeet_iff.mpr ?_, stepsMeet_iff.mpr ?_⟩
  · rintro pre a post t rfl ht
    exact h pre a (post ++ bs) t (by simp) ht
  · rintro pre a post t rfl ht
    refine h (as ++ pre) a post t (by simp) ?_
    rw [run_append, hrun]
    exact ht

/-- **A property that a step keeps exactly under `ok` holds throughout exactly under `ok`.** -/
theorem stepsMeet_iff_forall_reached {ok : σ → α → Prop} {act : α → Prop} {inv P : σ → Prop}
    (hinv : ∀ s a s', inv s → act a → step s a = some s' → inv s')
    (hstep : ∀ s a s', inv s → P s → act a → step s a = some s' → (P s' ↔ ok s a)) :
    ∀ (as : List α) (s s' : σ), inv s → P s → (∀ a ∈ as, act a) → run step s as = some s' →
      (StepsMeet step ok s as ↔ ∀ pre t, pre <+: as → run step s pre = some t → P t) := by
  intro as
  induction as with
  | nil =>
      intro s s' _ hP _ _
      refine ⟨fun _ pre t hpre ht => ?_, fun _ => trivial⟩
      rw [List.prefix_nil.mp hpre, run, Option.some.injEq] at ht
      exact ht ▸ hP
  | cons a as ih =>
      intro s s' hs hP hact hrun
      rw [run, Option.bind_eq_some_iff] at hrun
      obtain ⟨t, ht, hrun⟩ := hrun
      obtain ⟨ha, hact⟩ := List.forall_mem_cons.mp hact
      have hiff := hstep s a t hs hP ha ht
      have hrest : P t → (StepsMeet step ok t as ↔
          ∀ pre u, pre <+: as → run step t pre = some u → P u) := fun hPt =>
        ih t s' (hinv s a t hs ha ht) hPt hact hrun
      constructor
      · rintro ⟨hok, hmeet⟩ pre u hpre hu
        rcases List.prefix_cons_iff.mp hpre with rfl | ⟨pre, rfl, htail⟩
        · rw [run, Option.some.injEq] at hu
          exact hu ▸ hP
        · rw [run, ht] at hu
          exact (hrest (hiff.mpr hok)).mp (hmeet t ht) pre u htail hu
      · intro hall
        have hPt : P t := hall [a] t (by simp) (by rw [run, ht]; rfl)
        refine ⟨hiff.mp hPt, fun t' ht' => ?_⟩
        rw [ht, Option.some.injEq] at ht'
        subst ht'
        refine (hrest hPt).mpr fun pre u hpre hu => hall (a :: pre) u ?_ ?_
        · exact List.cons_prefix_cons.mpr ⟨rfl, hpre⟩
        · rw [run, ht]
          exact hu

end Runs
