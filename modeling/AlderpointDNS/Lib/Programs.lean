import Mathlib.Data.List.Basic

/-!
# Programs with a state and errors

A program runs in a state and ends with a value or an error; the state it has reached is kept in
both cases, so that a handler goes on from there.

`Triple P x Q E` says that, started where `P` holds, `x` ends where `Q` holds of its value and
where `E` holds of its error.  There is one rule for each way to build a program, and
**`triple_bind`** chains them: a run is followed step by step, and what must hold after an error is
shown once for each step.
-/

/-- A program with states in `σ` and errors in `ε`. -/
abbrev Program (σ ε α : Type) := ExceptT ε (StateM σ) α

namespace Program

variable {σ ε α β : Type}

/-- What is known of a run, after a value and after an error. -/
def Triple (P : σ → Prop) (x : Program σ ε α) (Q : α → σ → Prop) (E : σ → Prop) : Prop :=
  ∀ s, P s → match x s with
    | (.ok a, s') => Q a s'
    | (.error _, s') => E s'

variable {P R : σ → Prop} {Q : α → σ → Prop} {E : σ → Prop}

theorem triple_pure {a : α} (h : ∀ s, P s → Q a s) : Triple P (pure a : Program σ ε α) Q E :=
  fun s hs => h s hs

theorem triple_throw {e : ε} (h : ∀ s, P s → E s) : Triple P (throw e : Program σ ε α) Q E :=
  fun s hs => h s hs

/-- A step that reads and changes the state and does not fail. -/
theorem triple_modifyGet {f : σ → α × σ} (h : ∀ s, P s → Q (f s).1 (f s).2) :
    Triple P (modifyGet f : Program σ ε α) Q E :=
  fun s hs => h s hs

theorem triple_get {Q : σ → σ → Prop} (h : ∀ s, P s → Q s s) :
    Triple P (get : Program σ ε σ) Q E :=
  fun s hs => h s hs

theorem triple_modify {Q : PUnit → σ → Prop} {f : σ → σ} (h : ∀ s, P s → Q ⟨⟩ (f s)) :
    Triple P (modify f : Program σ ε PUnit) Q E :=
  fun s hs => h s hs

/-- **One program after another.** -/
theorem triple_bind {x : Program σ ε α} {f : α → Program σ ε β} {R : β → σ → Prop}
    (hx : Triple P x Q E) (hf : ∀ a, Triple (Q a) (f a) R E) : Triple P (x >>= f) R E := by
  intro s hs
  have hrun := hx s hs
  change match (ExceptT.bindCont f (x s).1) (x s).2 with
    | (.ok a, s') => R a s'
    | (.error _, s') => E s'
  rcases hxs : x s with ⟨r, s'⟩
  rw [hxs] at hrun
  cases r with
  | ok a => exact hf a s' hrun
  | error e => exact hrun

/-- A handler goes on from where the error has left the state. -/
theorem triple_tryCatch {x : Program σ ε α} {handle : ε → Program σ ε α} {E' : σ → Prop}
    (hx : Triple P x Q E') (hhandle : ∀ e, Triple E' (handle e) Q E) :
    Triple P (tryCatch x handle) Q E := by
  intro s hs
  have hrun := hx s hs
  change match (match (x s).1 with
      | .ok a => (fun s' => (Except.ok a, s'))
      | .error e => handle e : σ → Except ε α × σ) (x s).2 with
    | (.ok a, s') => Q a s'
    | (.error _, s') => E s'
  rcases hxs : x s with ⟨r, s'⟩
  rw [hxs] at hrun
  cases r with
  | ok a => exact hrun
  | error e => exact hhandle e s' hrun

theorem triple_conseq {x : Program σ ε α} {Q' : α → σ → Prop} {E' : σ → Prop}
    (hx : Triple R x Q' E') (hP : ∀ s, P s → R s) (hQ : ∀ a s, Q' a s → Q a s)
    (hE : ∀ s, E' s → E s) : Triple P x Q E := by
  intro s hs
  have hrun := hx s (hP s hs)
  rcases hxs : x s with ⟨r, s'⟩
  rw [hxs] at hrun
  cases r with
  | ok a => exact hQ a s' hrun
  | error e => exact hE s' hrun

/-- What must hold after an error is known of it. -/
theorem triple_error {x : Program σ ε α} {F : σ → Prop} (hE : ∀ s, F s → E s)
    (hx : Triple P x Q F) : Triple P x Q E :=
  triple_conseq hx (fun _ => id) (fun _ _ => id) hE

theorem triple_true {x : Program σ ε α} : Triple P x (fun _ _ => True) fun _ => True := by
  intro s _
  rcases x s with ⟨_ | _, s'⟩
  · trivial
  · trivial

/-- A program that is not started. -/
theorem triple_false {x : Program σ ε α} : Triple (fun _ => False) x Q E := fun _ hs => hs.elim

/-- Two facts about the same run. -/
theorem triple_both {x : Program σ ε α} {Q' : α → σ → Prop} {F : σ → Prop} (hx : Triple P x Q E)
    (hx' : Triple R x Q' F) :
    Triple (fun s => P s ∧ R s) x (fun a s => Q a s ∧ Q' a s) (fun s => E s ∧ F s) := by
  intro s hs
  have h := hx s hs.1
  have h' := hx' s hs.2
  rcases hxs : x s with ⟨r, s'⟩
  rw [hxs] at h h'
  cases r with
  | ok a => exact ⟨h, h'⟩
  | error e => exact ⟨h, h'⟩

/-- What the precondition says apart from the state may be used in the proof. -/
theorem triple_of_pre {x : Program σ ε α} {p : Prop} (hp : ∀ s, P s → p) (h : p → Triple P x Q E) :
    Triple P x Q E :=
  fun s hs => h (hp s hs) s hs

theorem triple_and {x : Program σ ε α} {p : Prop} (h : p → Triple P x Q E) :
    Triple (fun s => p ∧ P s) x Q E :=
  fun s hs => h hs.1 s hs.2

theorem triple_ite {c : Prop} [Decidable c] {x y : Program σ ε α} (hx : c → Triple P x Q E)
    (hy : ¬ c → Triple P y Q E) : Triple P (if c then x else y) Q E := by
  split_ifs with h
  · exact hx h
  · exact hy h

theorem triple_exists {ι : Type} {x : Program σ ε α} {P : ι → σ → Prop}
    (h : ∀ i, Triple (P i) x Q E) : Triple (fun s => ∃ i, P i s) x Q E := by
  rintro s ⟨i, hs⟩
  exact h i s hs

theorem triple_ofExcept {x : Except ε α} (hok : ∀ a, x = .ok a → ∀ s, P s → Q a s)
    (herror : ∀ s, P s → E s) : Triple P (MonadExcept.ofExcept x : Program σ ε α) Q E := by
  cases x with
  | ok a => exact triple_pure (hok a rfl)
  | error e => exact triple_throw herror

/-! ## Running a program -/

theorem bind_apply (x : Program σ ε α) (f : α → Program σ ε β) (s : σ) :
    (x >>= f) s = match x s with
      | (.ok a, s') => f a s'
      | (.error e, s') => (.error e, s') := by
  change (ExceptT.bindCont f (x s).1) (x s).2 = _
  rcases x s with ⟨_ | a, s'⟩
  · rfl
  · rfl

theorem tryCatch_apply (x : Program σ ε α) (handle : ε → Program σ ε α) (s : σ) :
    (tryCatch x handle : Program σ ε α) s = match x s with
      | (.ok a, s') => (.ok a, s')
      | (.error e, s') => handle e s' := by
  change (match (x s).1 with
      | .ok a => (fun s' => (Except.ok a, s'))
      | .error e => handle e : σ → Except ε α × σ) (x s).2 = _
  rcases x s with ⟨_ | a, s'⟩
  · rfl
  · rfl

/-- A row of programs fails where one of them fails after the ones before it. -/
theorem forM_eq_error {ι : Type} {f : ι → Program σ ε PUnit} {xs : List ι} {s s' : σ} {e : ε}
    (h : xs.forM f s = (.error e, s')) : ∃ pre x post t, xs = pre ++ x :: post
      ∧ pre.forM f s = (.ok ⟨⟩, t) ∧ f x t = (.error e, s') := by
  induction xs generalizing s with
  | nil => exact nomatch (Prod.mk.inj h).1
  | cons x xs ih =>
      have hcons : ∀ ys : List ι, (x :: ys).forM f s = (f x >>= fun _ => ys.forM f) s :=
        fun _ => rfl
      rw [hcons, bind_apply] at h
      rcases hx : f x s with ⟨_ | a, t⟩
      · rw [hx] at h
        exact ⟨[], x, xs, s, rfl, rfl, hx.trans h⟩
      · rw [hx] at h
        obtain ⟨pre, y, post, t', rfl, hpre, hy⟩ := ih h
        refine ⟨x :: pre, y, post, t', rfl, ?_, hy⟩
        rw [hcons, bind_apply, hx]
        exact hpre

/-! ## Telling errors apart -/

/-- What is known of a run, after a value and after each error. -/
def Ends (P : σ → Prop) (x : Program σ ε α) (Q : α → σ → Prop) (F : ε → σ → Prop) : Prop :=
  ∀ s, P s → match x s with
    | (.ok a, s') => Q a s'
    | (.error e, s') => F e s'

variable {F : ε → σ → Prop}

theorem ends_pure {a : α} (h : ∀ s, P s → Q a s) : Ends P (pure a : Program σ ε α) Q F :=
  fun s hs => h s hs

theorem ends_throw {e : ε} (h : ∀ s, P s → F e s) : Ends P (throw e : Program σ ε α) Q F :=
  fun s hs => h s hs

theorem ends_modifyGet {f : σ → α × σ} (h : ∀ s, P s → Q (f s).1 (f s).2) :
    Ends P (modifyGet f : Program σ ε α) Q F :=
  fun s hs => h s hs

theorem ends_bind {x : Program σ ε α} {f : α → Program σ ε β} {R : β → σ → Prop}
    (hx : Ends P x Q F) (hf : ∀ a, Ends (Q a) (f a) R F) : Ends P (x >>= f) R F := by
  intro s hs
  have hrun := hx s hs
  change match (ExceptT.bindCont f (x s).1) (x s).2 with
    | (.ok a, s') => R a s'
    | (.error e, s') => F e s'
  rcases hxs : x s with ⟨r, s'⟩
  rw [hxs] at hrun
  cases r with
  | ok a => exact hf a s' hrun
  | error e => exact hrun

theorem ends_weaken {x : Program σ ε α} (hx : Ends R x Q F) (hP : ∀ s, P s → R s) :
    Ends P x Q F :=
  fun s hs => hx s (hP s hs)

theorem ends_ite {c : Prop} [Decidable c] {x y : Program σ ε α} (hx : c → Ends P x Q F)
    (hy : ¬ c → Ends P y Q F) : Ends P (if c then x else y) Q F := by
  split_ifs with h
  · exact hx h
  · exact hy h

end Program
