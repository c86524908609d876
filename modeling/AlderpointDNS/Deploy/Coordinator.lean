import AlderpointDNS.Lib.Runs
import AlderpointDNS.Lib.Text
import Mathlib.Algebra.Order.Field.Rat
import Mathlib.Logic.Function.Basic

/-!
# The deploy coordinator

`_DeployCoordinator.run`, called by any number of threads.  The first call leads: it waits out the
cool-down, executes `run_once` outside the lock and publishes the outcome, and goes on for as long
as other calls have come in meanwhile.  The calls that come in while one leads wait for a round.

* `Consistent` — at most one call leads, and the rounds count the executions;
* `Covered` — a call with no execution started after it is covered by a leader or by `_coalesced`;
* **`coalesced_safely`** — one execution at a time, and none of the calls is left behind;
* **`outcomes_fresh_iff`** — every outcome that is handed on is of an execution that started after
  the call, exactly when no waiting call is served by the execution that it ran into.
* `stale_outcome` — two clicks, of which the second sees the outcome of the first.

A step is what a thread does between two points at which it may be suspended: a critical section
is one step, and so is the start, the end, and a restart of dnsdist during `run_once`.  Nothing
depends on `started`, `since` and `restarts`, which only record what happened.
-/

namespace AlderpointDNS.Deploy

open Text

/-! ## The coordinator -/

/-- An execution of `run_once`: how often it executes `systemctl restart dnsdist`, and what it
returns or raises. -/
structure Execution (ρ ε : Type) where
  restarts : ℕ
  outcome : Except ε ρ
deriving DecidableEq

/-- The arguments of `__init__`; `α` is what `run_once` depends on. -/
structure Coordinator (α ρ ε : Type) where
  runOnce : α → Execution ρ ε
  waitTimeout : ℚ := 180
  minIntervalSeconds : ℚ := 0
  shouldPace : ρ → Bool := fun _ => true

/-- Where a call is. -/
inductive CallPhase (ρ ε : Type) where
  | notMade
  /-- in the loop around `_cv.wait` -/
  | waiting (targetRound : ℕ) (deadline : ℚ)
  /-- leading, before `run_once` -/
  | pacing
  /-- in `run_once`, with what is left of the execution of that number -/
  | running (number : ℕ) (rest : Execution ρ ε)
  /-- leading, after `run_once` -/
  | finished (number : ℕ) (outcome : Except ε ρ)
  /-- raised `RuntimeError(self._busy_message)` -/
  | busy
  /-- returned or raised the outcome of the execution of that number -/
  | served (number : ℕ) (outcome : Except ε ρ)
deriving DecidableEq

/-- The fields of the coordinator and the clock, and where each call is. -/
structure CoordinatorState (ρ ε : Type) where
  now : ℚ
  inFlight : Bool
  coalesced : Bool
  round : ℕ
  /-- `_result` and `_error`, with the number of the execution -/
  last : Option (ℕ × Except ε ρ)
  lastFinished : Option ℚ
  phase : ℕ → CallPhase ρ ε
  /-- the executions that have started -/
  started : ℕ
  /-- the executions that had started when the call was made -/
  since : ℕ → ℕ
  /-- when dnsdist was restarted, the last time first -/
  restarts : List ℚ

/-- What can happen next. -/
inductive CoordinatorAction (α : Type) where
  | pass (seconds : ℚ)
  | call (i : ℕ)
  /-- the loop condition of a waiting call -/
  | check (i : ℕ)
  | start (i : ℕ) (input : α)
  | restart (i : ℕ)
  | finish (i : ℕ)
  /-- the critical section after `run_once` -/
  | publish (i : ℕ)

section Step

variable {α ρ ε : Type}

/-- A call moves on. -/
def CoordinatorState.move (s : CoordinatorState ρ ε) (i : ℕ) (phase : CallPhase ρ ε) :
    CoordinatorState ρ ε :=
  { s with phase := Function.update s.phase i phase }

/-- No call has been made. -/
def idleCoordinator : CoordinatorState ρ ε where
  now := 0
  inFlight := false
  coalesced := false
  round := 0
  last := none
  lastFinished := none
  phase _ := .notMade
  started := 0
  since _ := 0
  restarts := []

variable (c : Coordinator α ρ ε)

/-- The sleep is over: there is no interval, or it has passed since `_last_finished`. -/
def Coordinator.Cooled (s : CoordinatorState ρ ε) : Prop :=
  c.minIntervalSeconds = 0 ∨ ∀ t ∈ s.lastFinished, c.minIntervalSeconds ≤ s.now - t

instance (s : CoordinatorState ρ ε) : Decidable (c.Cooled s) :=
  inferInstanceAs (Decidable (_ ∨ _))

/-- `error is not None or self._should_pace(result)`. -/
def Coordinator.paces : Except ε ρ → Bool
  | .error _ => true
  | .ok result => c.shouldPace result

/-- One step of one thread. -/
def Coordinator.step (s : CoordinatorState ρ ε) :
    CoordinatorAction α → Option (CoordinatorState ρ ε)
  | .pass seconds => if 0 ≤ seconds then some { s with now := s.now + seconds } else none
  | .call i =>
      match s.phase i with
      | .notMade =>
          let made := { s with since := Function.update s.since i s.started }
          if s.inFlight then
            some ({ made with coalesced := true }.move i
              (.waiting (s.round + 1) (s.now + c.waitTimeout)))
          else some ({ made with inFlight := true }.move i .pacing)
      | _ => none
  | .check i =>
      match s.phase i with
      | .waiting targetRound deadline =>
          if s.round < targetRound then
            if deadline ≤ s.now then some (s.move i .busy) else some s
          else s.last.map fun last => s.move i (.served last.1 last.2)
      | _ => none
  | .start i input =>
      match s.phase i with
      | .pacing =>
          if c.Cooled s then
            some ({ s with started := s.started + 1 }.move i
              (.running (s.started + 1) (c.runOnce input)))
          else none
      | _ => none
  | .restart i =>
      match s.phase i with
      | .running number ⟨restarts + 1, outcome⟩ =>
          some ({ s with restarts := s.now :: s.restarts }.move i
            (.running number ⟨restarts, outcome⟩))
      | _ => none
  | .finish i =>
      match s.phase i with
      | .running number ⟨0, outcome⟩ => some (s.move i (.finished number outcome))
      | _ => none
  | .publish i =>
      match s.phase i with
      | .finished number outcome =>
          let published := { s with
            round := s.round + 1
            last := some (number, outcome)
            lastFinished := if c.paces outcome then some s.now else s.lastFinished
            coalesced := false
            inFlight := s.coalesced }
          some (published.move i (if s.coalesced then .pacing else .served number outcome))
      | _ => none

/-- What a step does. -/
inductive CoordinatorStep (c : Coordinator α ρ ε) (s : CoordinatorState ρ ε) :
    CoordinatorAction α → CoordinatorState ρ ε → Prop where
  | passed {seconds : ℚ} (h : 0 ≤ seconds) :
      CoordinatorStep c s (.pass seconds) { s with now := s.now + seconds }
  | joined {i : ℕ} (hi : s.phase i = .notMade) (hbusy : s.inFlight = true) :
      CoordinatorStep c s (.call i) ({ s with
        since := Function.update s.since i s.started
        coalesced := true }.move i (.waiting (s.round + 1) (s.now + c.waitTimeout)))
  | led {i : ℕ} (hi : s.phase i = .notMade) (hidle : s.inFlight = false) :
      CoordinatorStep c s (.call i) ({ s with
        since := Function.update s.since i s.started
        inFlight := true }.move i .pacing)
  | gaveUp {i targetRound : ℕ} {deadline : ℚ} (hi : s.phase i = .waiting targetRound deadline)
      (hround : s.round < targetRound) : CoordinatorStep c s (.check i) (s.move i .busy)
  | waited {i targetRound : ℕ} {deadline : ℚ} (hi : s.phase i = .waiting targetRound deadline)
      (hround : s.round < targetRound) : CoordinatorStep c s (.check i) s
  | woke {i targetRound number : ℕ} {deadline : ℚ} {outcome : Except ε ρ}
      (hi : s.phase i = .waiting targetRound deadline) (hround : targetRound ≤ s.round)
      (hlast : s.last = some (number, outcome)) :
      CoordinatorStep c s (.check i) (s.move i (.served number outcome))
  | began {i : ℕ} {input : α} (hi : s.phase i = .pacing) (hcooled : c.Cooled s) :
      CoordinatorStep c s (.start i input) ({ s with started := s.started + 1 }.move i
        (.running (s.started + 1) (c.runOnce input)))
  | restarted {i number restarts : ℕ} {outcome : Except ε ρ}
      (hi : s.phase i = .running number ⟨restarts + 1, outcome⟩) :
      CoordinatorStep c s (.restart i) ({ s with restarts := s.now :: s.restarts }.move i
        (.running number ⟨restarts, outcome⟩))
  | ended {i number : ℕ} {outcome : Except ε ρ} (hi : s.phase i = .running number ⟨0, outcome⟩) :
      CoordinatorStep c s (.finish i) (s.move i (.finished number outcome))
  | again {i number : ℕ} {outcome : Except ε ρ} (hi : s.phase i = .finished number outcome)
      (hcoalesced : s.coalesced = true) :
      CoordinatorStep c s (.publish i) ({ s with
        round := s.round + 1
        last := some (number, outcome)
        lastFinished := if c.paces outcome then some s.now else s.lastFinished
        coalesced := false
        inFlight := true }.move i .pacing)
  | released {i number : ℕ} {outcome : Except ε ρ} (hi : s.phase i = .finished number outcome)
      (hcoalesced : s.coalesced = false) :
      CoordinatorStep c s (.publish i) ({ s with
        round := s.round + 1
        last := some (number, outcome)
        lastFinished := if c.paces outcome then some s.now else s.lastFinished
        coalesced := false
        inFlight := false }.move i (.served number outcome))

variable {c}

theorem Coordinator.step_cases {s s' : CoordinatorState ρ ε} {a : CoordinatorAction α}
    (h : c.step s a = some s') : CoordinatorStep c s a s' := by
  cases a with
  | pass seconds =>
      rw [step] at h
      split_ifs at h with hseconds
      rw [← Option.some.inj h]
      exact .passed hseconds
  | call i =>
      rw [step] at h
      split at h
      · rename_i hi
        split_ifs at h with hflight
        · rw [← Option.some.inj h]
          exact .joined hi hflight
        · rw [← Option.some.inj h]
          exact .led hi (Bool.eq_false_iff.mpr hflight)
      · cases h
  | check i =>
      rw [step] at h
      split at h
      · rename_i targetRound deadline hi
        split_ifs at h with hround hdeadline
        · rw [← Option.some.inj h]
          exact .gaveUp hi hround
        · rw [← Option.some.inj h]
          exact .waited hi hround
        · obtain ⟨last, hlast, heq⟩ := Option.map_eq_some_iff.mp h
          rw [← heq]
          exact .woke hi (not_lt.mp hround) hlast
      · cases h
  | start i input =>
      rw [step] at h
      split at h
      · rename_i hi
        split_ifs at h with hcooled
        rw [← Option.some.inj h]
        exact .began hi hcooled
      · cases h
  | restart i =>
      rw [step] at h
      split at h
      · rename_i number restarts outcome hi
        rw [← Option.some.inj h]
        exact .restarted hi
      · cases h
  | finish i =>
      rw [step] at h
      split at h
      · rename_i number outcome hi
        rw [← Option.some.inj h]
        exact .ended hi
      · cases h
  | publish i =>
      rw [step] at h
      split at h
      · rename_i number outcome hi
        cases hcoalesced : s.coalesced with
        | true =>
            rw [← Option.some.inj h, hcoalesced]
            exact .again hi hcoalesced
        | false =>
            rw [← Option.some.inj h, hcoalesced]
            exact .released hi hcoalesced
      · cases h

end Step

/-! ## What holds in every state -/

section Invariant

variable {α ρ ε : Type}

/-- The call executes `run_once`, is about to, or has. -/
def CallPhase.Leads : CallPhase ρ ε → Prop
  | .pacing | .running _ _ | .finished _ _ => True
  | _ => False

/-- The numbers that a phase carries fit the counters. -/
def CallPhase.Fits (started round since : ℕ) : CallPhase ρ ε → Prop
  | .pacing => started = round
  | .running number _ | .finished number _ =>
      number = started ∧ started = round + 1 ∧ since < number
  | .waiting targetRound _ =>
      targetRound ≤ round + 1 ∧ (since = targetRound ∨ since + 1 = targetRound)
  | _ => True

/-- One call leads while `_in_flight` is set, the rounds count the executions, and a call that no
execution has followed yet is covered by a leader about to start one or by `_coalesced`. -/
structure Consistent (s : CoordinatorState ρ ε) : Prop where
  fits : ∀ i, (s.phase i).Fits s.started s.round (s.since i)
  since_le : ∀ i, s.since i ≤ s.started
  leader : s.inFlight = true → ∃ i, (s.phase i).Leads
  one_leader : ∀ i j, (s.phase i).Leads → (s.phase j).Leads → i = j
  idle : s.inFlight = false → s.started = s.round ∧ s.coalesced = false ∧ ∀ i, ¬(s.phase i).Leads
  last_eq : ∀ number outcome, s.last = some (number, outcome) → number = s.round
  covered : ∀ i, s.phase i ≠ .notMade →
    s.since i < s.started ∨ s.coalesced = true ∨ ∃ j, s.phase j = .pacing

theorem consistent_idleCoordinator : Consistent (idleCoordinator : CoordinatorState ρ ε) where
  fits _ := trivial
  since_le _ := le_refl 0
  leader h := nomatch h
  one_leader _ _ h := h.elim
  idle _ := ⟨rfl, rfl, fun _ => id⟩
  last_eq _ _ h := nomatch h
  covered _ h := absurd rfl h

section Move

variable {s : CoordinatorState ρ ε} {i : ℕ} {phase : CallPhase ρ ε}

@[simp] theorem move_phase : (s.move i phase).phase i = phase := Function.update_self _ _ _

theorem move_phase_of_ne {j : ℕ} (h : j ≠ i) : (s.move i phase).phase j = s.phase j :=
  Function.update_of_ne h _ _

/-- What holds of the phase of each call after one has moved. -/
theorem forall_move {P : ℕ → CallPhase ρ ε → Prop} (hi : P i phase)
    (hj : ∀ j, j ≠ i → P j (s.phase j)) (j : ℕ) : P j ((s.move i phase).phase j) := by
  by_cases h : j = i
  · subst h
    rwa [move_phase]
  · rw [move_phase_of_ne h]
    exact hj j h

/-- The counters may go on under a call that does not lead. -/
theorem CallPhase.Fits.mono {p : CallPhase ρ ε} {started started' round round' since : ℕ}
    (h : p.Fits started round since) (hp : ¬p.Leads) (hround : round ≤ round') :
    p.Fits started' round' since := by
  cases p with
  | waiting targetRound deadline => exact ⟨h.1.trans (Nat.succ_le_succ hround), h.2⟩
  | pacing => exact (hp trivial).elim
  | running number rest => exact (hp trivial).elim
  | finished number outcome => exact (hp trivial).elim
  | notMade => trivial
  | busy => trivial
  | served number outcome => trivial

end Move

variable {c : Coordinator α ρ ε} {s s' : CoordinatorState ρ ε} {a : CoordinatorAction α}

/-- Only the leader leads. -/
theorem Consistent.not_leads (h : Consistent s) {i j : ℕ} (hi : (s.phase i).Leads) (hj : j ≠ i) :
    ¬(s.phase j).Leads := fun hleads => hj (h.one_leader j i hleads hi)

/-- A leader that stays the leader. -/
theorem Consistent.one_leader_move (h : Consistent s) {i : ℕ} (hi : (s.phase i).Leads)
    {phase : CallPhase ρ ε} : ∀ j k, ((s.move i phase).phase j).Leads →
      ((s.move i phase).phase k).Leads → j = k := by
  have only (j : ℕ) (hj : ((s.move i phase).phase j).Leads) : j = i := by
    by_contra hne
    rw [move_phase_of_ne hne] at hj
    exact h.not_leads hi hne hj
  intro j k hj hk
  rw [only j hj, only k hk]

theorem Consistent.inFlight_of_leads (h : Consistent s) {i : ℕ} (hi : (s.phase i).Leads) :
    s.inFlight = true := by
  cases hflight : s.inFlight with
  | true => rfl
  | false => exact absurd hi ((h.idle hflight).2.2 i)

/-- While a call leads, the executions that have started are those of the rounds, and maybe one
more. -/
theorem Consistent.started_cases (h : Consistent s) :
    s.started = s.round ∨ s.started = s.round + 1 := by
  cases hflight : s.inFlight with
  | false => exact .inl (h.idle hflight).1
  | true =>
      obtain ⟨i, hi⟩ := h.leader hflight
      have hfits := h.fits i
      cases hphase : s.phase i <;> rw [hphase] at hi hfits
      case pacing => exact .inl hfits
      case running => exact .inr hfits.2.1
      case finished => exact .inr hfits.2.1
      all_goals exact hi.elim

/-- A waiting call is done. -/
theorem Consistent.leave (h : Consistent s) {i : ℕ} {phase : CallPhase ρ ε}
    (hi : ¬(s.phase i).Leads) (hmade : s.phase i ≠ .notMade) (hphase : ¬phase.Leads)
    (hfits : phase.Fits s.started s.round (s.since i)) : Consistent (s.move i phase) where
  fits := forall_move (P := fun j p => p.Fits s.started s.round (s.since j)) hfits
    fun j _ => h.fits j
  since_le := h.since_le
  leader hflight := by
    obtain ⟨j, hj⟩ := h.leader hflight
    have hne : j ≠ i := by
      rintro rfl
      exact hi hj
    exact ⟨j, by rwa [move_phase_of_ne hne]⟩
  one_leader := by
    have old (j : ℕ) (hj : ((s.move i phase).phase j).Leads) : (s.phase j).Leads := by
      by_cases hne : j = i
      · subst hne
        rw [move_phase] at hj
        exact (hphase hj).elim
      · rwa [move_phase_of_ne hne] at hj
    exact fun j k hj hk => h.one_leader j k (old j hj) (old k hk)
  idle hflight := by
    obtain ⟨hstarted, hcoalesced, hidle⟩ := h.idle hflight
    exact ⟨hstarted, hcoalesced, forall_move (P := fun _ p => ¬p.Leads) hphase fun j _ => hidle j⟩
  last_eq := h.last_eq
  covered := by
    have hcovered (j : ℕ) (hj : s.phase j ≠ .notMade) : s.since j < s.started ∨
        s.coalesced = true ∨ ∃ k, (s.move i phase).phase k = .pacing := by
      rcases h.covered j hj with hj | hj | ⟨k, hk⟩
      · exact .inl hj
      · exact .inr (.inl hj)
      · have hne : k ≠ i := by
          rintro rfl
          rw [hk] at hi
          exact hi trivial
        exact .inr (.inr ⟨k, by rwa [move_phase_of_ne hne]⟩)
    intro j hj
    by_cases hne : j = i
    · exact hcovered j (hne ▸ hmade)
    · rw [move_phase_of_ne hne] at hj
      exact hcovered j hj

/-- The leader goes on within its execution. -/
theorem Consistent.proceed (h : Consistent s) {i number : ℕ} {rest : Execution ρ ε}
    {phase : CallPhase ρ ε} (hi : s.phase i = .running number rest)
    (hfits : phase.Fits s.started s.round (s.since i)) (hphase : phase.Leads)
    (restarts : List ℚ) :
    Consistent ({ s with restarts := restarts }.move i phase) := by
  have hleads : (s.phase i).Leads := by
    rw [hi]
    trivial
  refine ⟨?_, h.since_le, fun _ => ⟨i, by rwa [move_phase]⟩, h.one_leader_move hleads, ?_,
    h.last_eq, ?_⟩
  · exact forall_move (P := fun j p => p.Fits s.started s.round (s.since j)) hfits
      fun j _ => h.fits j
  · intro hflight
    exact absurd hleads ((h.idle hflight).2.2 i)
  · intro j hj
    have hmade : s.phase j ≠ .notMade := by
      by_cases hne : j = i
      · rw [hne, hi]
        nofun
      · rwa [move_phase_of_ne hne] at hj
    rcases h.covered j hmade with hj | hj | ⟨k, hk⟩
    · exact .inl hj
    · exact .inr (.inl hj)
    · have hki : k = i := h.one_leader k i (hk ▸ trivial) hleads
      rw [hki, hi] at hk
      exact nomatch hk

/-- A call that arrives finds the executions that have started so far. -/
theorem Consistent.since_le_update (h : Consistent s) (i j : ℕ) :
    Function.update s.since i s.started j ≤ s.started := by
  by_cases hj : j = i
  · subst hj
    exact (Function.update_self _ _ _).le
  · exact (Function.update_of_ne hj _ _).le.trans (h.since_le j)

/-- A call joins the execution that is in flight. -/
theorem Consistent.join (h : Consistent s) {i : ℕ} (hi : s.phase i = .notMade)
    (hbusy : s.inFlight = true) (deadline : ℚ) :
    Consistent ({ s with
      since := Function.update s.since i s.started
      coalesced := true }.move i (.waiting (s.round + 1) deadline)) := by
  have hleads (j : ℕ) (hj : (s.phase j).Leads) : j ≠ i := by
    rintro rfl
    rw [hi] at hj
    exact hj
  refine ⟨?_, h.since_le_update i, fun _ => ?_, ?_, fun hflight => ?_, h.last_eq,
    fun j _ => .inr (.inl rfl)⟩
  · refine forall_move (P := fun j p => p.Fits s.started s.round
      (Function.update s.since i s.started j)) ?_ fun j hj => ?_
    · rw [Function.update_self]
      rcases h.started_cases with hstarted | hstarted
      · exact ⟨le_refl _, .inr (by rw [hstarted])⟩
      · exact ⟨le_refl _, .inl hstarted⟩
    · rw [Function.update_of_ne hj]
      exact h.fits j
  · obtain ⟨j, hj⟩ := h.leader hbusy
    exact ⟨j, by rwa [move_phase_of_ne (hleads j hj)]⟩
  · have old (j : ℕ) (hj : ((s.move i (.waiting (s.round + 1) deadline)).phase j).Leads) :
        (s.phase j).Leads := by
      by_cases hne : j = i
      · subst hne
        rw [move_phase] at hj
        exact hj.elim
      · rwa [move_phase_of_ne hne] at hj
    exact fun j k hj hk => h.one_leader j k (old j hj) (old k hk)
  · exact absurd (hbusy.symm.trans hflight) Bool.noConfusion

/-- A call becomes the leader. -/
theorem Consistent.lead (h : Consistent s) (i : ℕ) (hidle : s.inFlight = false) :
    Consistent ({ s with
      since := Function.update s.since i s.started
      inFlight := true }.move i .pacing) := by
  obtain ⟨hstarted, hcoalesced, hnone⟩ := h.idle hidle
  have only (j : ℕ) (hj : ((s.move i .pacing).phase j).Leads) : j = i := by
    by_contra hne
    rw [move_phase_of_ne hne] at hj
    exact hnone j hj
  refine ⟨?_, h.since_le_update i, fun _ => ⟨i, ?_⟩, ?_, fun hflight => Bool.noConfusion hflight,
    h.last_eq, fun j _ => .inr (.inr ⟨i, move_phase⟩)⟩
  · refine forall_move (P := fun j p => p.Fits s.started s.round
      (Function.update s.since i s.started j)) hstarted fun j hj => ?_
    rw [Function.update_of_ne hj]
    exact h.fits j
  · rw [move_phase]
    trivial
  · intro j k hj hk
    exact (only j hj).trans (only k hk).symm

/-- The leader starts an execution. -/
theorem Consistent.begin (h : Consistent s) {i : ℕ} (hi : s.phase i = .pacing)
    (rest : Execution ρ ε) :
    Consistent ({ s with started := s.started + 1 }.move i (.running (s.started + 1) rest)) := by
  have hleads : (s.phase i).Leads := by
    rw [hi]
    trivial
  have hfits := h.fits i
  rw [hi] at hfits
  have hround : s.started = s.round := hfits
  refine ⟨?_, fun j => (h.since_le j).trans (Nat.le_succ _), fun _ => ⟨i, ?_⟩,
    h.one_leader_move hleads, fun hflight => absurd hleads ((h.idle hflight).2.2 i),
    h.last_eq, fun j _ => .inl (Nat.lt_succ_of_le (h.since_le j))⟩
  · refine forall_move (P := fun j p => p.Fits (s.started + 1) s.round (s.since j)) ?_
      fun j hj => (h.fits j).mono (h.not_leads hleads hj) (le_refl _)
    exact ⟨rfl, congrArg (· + 1) hround, Nat.lt_succ_of_le (h.since_le i)⟩
  · rw [move_phase]
    trivial

/-- The leader publishes its outcome, and starts again for the calls that have joined. -/
theorem Consistent.again (h : Consistent s) {i number : ℕ} {outcome : Except ε ρ}
    (hi : s.phase i = .finished number outcome) (lastFinished : Option ℚ) :
    Consistent ({ s with
      round := s.round + 1
      last := some (number, outcome)
      lastFinished := lastFinished
      coalesced := false
      inFlight := true }.move i .pacing) := by
  have hleads : (s.phase i).Leads := by
    rw [hi]
    trivial
  have hfits := h.fits i
  rw [hi] at hfits
  obtain ⟨hnumber, hstarted, -⟩ := hfits
  refine ⟨?_, h.since_le, fun _ => ⟨i, ?_⟩, h.one_leader_move hleads,
    fun hflight => Bool.noConfusion hflight, ?_, fun j _ => .inr (.inr ⟨i, move_phase⟩)⟩
  · exact forall_move (P := fun j p => p.Fits s.started (s.round + 1) (s.since j)) hstarted
      fun j hj => (h.fits j).mono (h.not_leads hleads hj) (Nat.le_succ _)
  · rw [move_phase]
    trivial
  · rintro _ _ ⟨⟩
    exact hnumber.trans hstarted

/-- The leader publishes its outcome, and nobody has joined. -/
theorem Consistent.release (h : Consistent s) {i number : ℕ} {outcome : Except ε ρ}
    (hi : s.phase i = .finished number outcome) (hcoalesced : s.coalesced = false)
    (lastFinished : Option ℚ) :
    Consistent ({ s with
      round := s.round + 1
      last := some (number, outcome)
      lastFinished := lastFinished
      coalesced := false
      inFlight := false }.move i (.served number outcome)) := by
  have hleads : (s.phase i).Leads := by
    rw [hi]
    trivial
  have hfits := h.fits i
  rw [hi] at hfits
  obtain ⟨hnumber, hstarted, hsince⟩ := hfits
  have hnone : ∀ j, ¬((s.move i (.served number outcome)).phase j).Leads :=
    forall_move (P := fun _ p => ¬p.Leads) id fun j hj => h.not_leads hleads hj
  refine ⟨?_, h.since_le, fun hflight => Bool.noConfusion hflight,
    fun j _ hj => absurd hj (hnone j), fun _ => ⟨hstarted, rfl, hnone⟩, ?_,
    fun j hj => .inl ?_⟩
  · exact forall_move (P := fun j p => p.Fits s.started (s.round + 1) (s.since j)) trivial
      fun j hj => (h.fits j).mono (h.not_leads hleads hj) (Nat.le_succ _)
  · rintro _ _ ⟨⟩
    exact hnumber.trans hstarted
  · by_cases hne : j = i
    · subst hne
      exact hnumber ▸ hsince
    · change (s.move i _).phase j ≠ .notMade at hj
      rw [move_phase_of_ne hne] at hj
      -- no other call leads, and nothing was coalesced
      rcases h.covered j hj with hj | hj | ⟨k, hk⟩
      · exact hj
      · exact absurd (hcoalesced.symm.trans hj) Bool.noConfusion
      · have hki : k = i := h.one_leader k i (hk ▸ trivial) hleads
        rw [hki, hi] at hk
        exact nomatch hk

/-- **Every step keeps the coordinator consistent.** -/
theorem Consistent.step (h : Consistent s) (hstep : CoordinatorStep c s a s') : Consistent s' := by
  cases hstep with
  | passed hseconds =>
      exact ⟨h.fits, h.since_le, h.leader, h.one_leader, h.idle, h.last_eq, h.covered⟩
  | joined hi hbusy => exact h.join hi hbusy _
  | @led i hi hidle => exact h.lead i hidle
  | gaveUp hi hround => exact h.leave (by rw [hi]; exact id) (by rw [hi]; nofun) id trivial
  | waited hi hround => exact h
  | woke hi hround hlast => exact h.leave (by rw [hi]; exact id) (by rw [hi]; nofun) id trivial
  | began hi hcooled => exact h.begin hi _
  | @restarted i number restarts outcome hi =>
      have hfits := h.fits i
      rw [hi] at hfits
      have hnext : CallPhase.Fits s.started s.round (s.since i)
          (.running number ⟨restarts, outcome⟩ : CallPhase ρ ε) := hfits
      exact h.proceed hi hnext trivial _
  | @ended i number outcome hi =>
      have hfits := h.fits i
      rw [hi] at hfits
      have hnext : CallPhase.Fits s.started s.round (s.since i)
          (.finished number outcome : CallPhase ρ ε) := hfits
      exact h.proceed hi hnext trivial s.restarts
  | again hi hcoalesced => exact h.again hi _
  | released hi hcoalesced => exact h.release hi hcoalesced _

theorem coordinator_of_run {actions : List (CoordinatorAction α)}
    (hrun : Runs.run c.step idleCoordinator actions = some s) : Consistent s :=
  Runs.invariant_of_run (fun _ _ _ h hstep => h.step (Coordinator.step_cases hstep)) actions _ s
    consistent_idleCoordinator hrun

end Invariant

/-! ## No change is left without a deployment -/

/-- Deployments that succeed. -/
def succeedingCoordinator : Coordinator Unit Unit Unit where
  runOnce _ := ⟨0, .ok ()⟩

section Safety

variable {α ρ ε : Type}

/-- The call is inside `run_once`. -/
def CallPhase.Executes : CallPhase ρ ε → Prop
  | .running _ _ => True
  | _ => False

/-- At most one call executes `run_once`, and `_in_flight` is set exactly while a call leads.
Where it is not set, an execution has started after every call that has been made, however that
call ended. -/
theorem coalesced_safely (c : Coordinator α ρ ε) {actions : List (CoordinatorAction α)}
    {s : CoordinatorState ρ ε} (hrun : Runs.run c.step idleCoordinator actions = some s) :
    (∀ i j, (s.phase i).Executes → (s.phase j).Executes → i = j) ∧
    (s.inFlight = true ↔ ∃ i, (s.phase i).Leads) ∧
    (s.inFlight = false → ∀ i, s.phase i ≠ .notMade → s.since i < s.started) := by
  have h := coordinator_of_run hrun
  have hleads (i : ℕ) (hi : (s.phase i).Executes) : (s.phase i).Leads := by
    cases hphase : s.phase i <;> rw [hphase] at hi
    case running => trivial
    all_goals exact hi.elim
  refine ⟨fun i j hi hj => h.one_leader i j (hleads i hi) (hleads j hj),
    ⟨h.leader, fun ⟨i, hi⟩ => h.inFlight_of_leads hi⟩, ?_⟩
  intro hflight i hi
  obtain ⟨-, hcoalesced, hnone⟩ := h.idle hflight
  rcases h.covered i hi with hsince | hset | ⟨j, hj⟩
  · exact hsince
  · exact absurd (hcoalesced.symm.trans hset) Bool.noConfusion
  · exact (hnone j (hj ▸ trivial)).elim

theorem coalesced_safely_twice : ∃ s, Runs.run succeedingCoordinator.step idleCoordinator
    [.call 0, .start 0 (), .call 1, .finish 0, .publish 0, .start 0 (), .finish 0, .publish 0] =
      some s ∧ s.since 1 < s.started := by
  have hrun : ∃ s, Runs.run succeedingCoordinator.step idleCoordinator
      [.call 0, .start 0 (), .call 1, .finish 0, .publish 0, .start 0 (), .finish 0, .publish 0] =
        some s ∧ s.inFlight = false ∧ s.phase 1 ≠ .notMade :=
    ⟨_, rfl, rfl, fun h => nomatch h⟩
  obtain ⟨s, hs, hidle, hmade⟩ := hrun
  exact ⟨s, hs, (coalesced_safely succeedingCoordinator hs).2.2 hidle 1 hmade⟩

end Safety

/-! ## Whose outcome a call gets -/

section Outcomes

variable {α ρ ε : Type}

/-- Every outcome that was returned or raised is of an execution that started after the call. -/
def Fresh (s : CoordinatorState ρ ε) : Prop :=
  ∀ i number outcome, s.phase i = .served number outcome → s.since i < number

/-- The call was made during an execution, and it waits for a round that this execution ends; no
further round has ended. -/
def RanInto (s : CoordinatorState ρ ε) (i : ℕ) : Prop :=
  ∃ targetRound deadline, s.phase i = .waiting targetRound deadline ∧ s.since i = targetRound ∧
    s.round = targetRound

variable {s s' : CoordinatorState ρ ε}

/-- One call moves on. -/
theorem Fresh.move (h : Fresh s) {t : CoordinatorState ρ ε} {i : ℕ} {phase : CallPhase ρ ε}
    (hphase : t.phase = s.phase) (hsince : ∀ j, j ≠ i → t.since j = s.since j)
    (hi : ∀ number outcome, phase = .served number outcome → t.since i < number) :
    Fresh (t.move i phase) := by
  intro j number outcome hj
  by_cases hne : j = i
  · subst hne
    rw [move_phase] at hj
    exact hi number outcome hj
  · rw [move_phase_of_ne hne, hphase] at hj
    show t.since j < number
    rw [hsince j hne]
    exact h j number outcome hj

/-- **A step keeps the outcomes fresh just when it does not serve a call with the execution that it
ran into.** -/
theorem fresh_step_iff {c : Coordinator α ρ ε} {a : CoordinatorAction α} (h : Consistent s)
    (hfresh : Fresh s) (hstep : CoordinatorStep c s a s') :
    Fresh s' ↔ ∀ i, a = .check i → ¬RanInto s i := by
  have hsame : ∀ j, s.since j = s.since j := fun _ => rfl
  cases hstep with
  | passed hseconds => exact iff_of_true hfresh fun _ heq => nomatch heq
  | @joined i hi hbusy =>
      refine iff_of_true (hfresh.move rfl (fun j hj => ?_) fun _ _ heq => nomatch heq)
        fun _ heq => nomatch heq
      exact Function.update_of_ne hj _ _
  | @led i hi hidle =>
      refine iff_of_true (hfresh.move rfl (fun j hj => ?_) fun _ _ heq => nomatch heq)
        fun _ heq => nomatch heq
      exact Function.update_of_ne hj _ _
  | @gaveUp i targetRound deadline hi hround =>
      refine iff_of_true (hfresh.move rfl (fun j _ => hsame j) fun _ _ heq => nomatch heq) ?_
      rintro j ⟨⟩ ⟨target, deadline', hj, -, heq⟩
      rw [hi] at hj
      cases hj
      omega
  | @waited i targetRound deadline hi hround =>
      refine iff_of_true hfresh ?_
      rintro j ⟨⟩ ⟨target, deadline', hj, -, heq⟩
      rw [hi] at hj
      cases hj
      omega
  | @woke i targetRound number deadline outcome hi hround hlast =>
      have hfits := h.fits i
      rw [hi] at hfits
      obtain ⟨-, hsince⟩ := hfits
      have hnumber : number = s.round := h.last_eq number outcome hlast
      have hfreshIff : Fresh (s.move i (.served number outcome)) ↔ s.since i < number := by
        constructor
        · intro hserved
          exact hserved i number outcome move_phase
        · intro hlt
          refine hfresh.move rfl (fun j _ => hsame j) ?_
          rintro _ _ ⟨⟩
          exact hlt
      rw [hfreshIff]
      constructor
      · rintro hlt j ⟨⟩ ⟨target, deadline', hj, hold, heq⟩
        omega
      · intro hnot
        by_contra hlt
        have hold : s.since i = targetRound := by omega
        exact hnot i rfl ⟨targetRound, deadline, hi, hold, by omega⟩
  | @began i input hi hcooled =>
      exact iff_of_true (hfresh.move rfl (fun j _ => hsame j) fun _ _ heq => nomatch heq)
        fun _ heq => nomatch heq
  | @restarted i number restarts outcome hi =>
      exact iff_of_true (hfresh.move rfl (fun j _ => hsame j) fun _ _ heq => nomatch heq)
        fun _ heq => nomatch heq
  | @ended i number outcome hi =>
      exact iff_of_true (hfresh.move rfl (fun j _ => hsame j) fun _ _ heq => nomatch heq)
        fun _ heq => nomatch heq
  | @again i number outcome hi hcoalesced =>
      exact iff_of_true (hfresh.move rfl (fun j _ => hsame j) fun _ _ heq => nomatch heq)
        fun _ heq => nomatch heq
  | @released i number outcome hi hcoalesced =>
      have hfits := h.fits i
      rw [hi] at hfits
      refine iff_of_true (hfresh.move rfl (fun j _ => hsame j) ?_) fun _ heq => nomatch heq
      rintro _ _ ⟨⟩
      exact hfits.2.2

/-- Every outcome that a call returns or raises, in any state of a run, is of an execution that
started after the call, exactly when no step of the run serves a waiting call while the execution
that it ran into is the last one that ended. -/
theorem outcomes_fresh_iff (c : Coordinator α ρ ε) (actions : List (CoordinatorAction α))
    {s : CoordinatorState ρ ε} (hrun : Runs.run c.step idleCoordinator actions = some s) :
    Runs.StepsMeet c.step (fun s a => ∀ i, a = .check i → ¬RanInto s i) idleCoordinator actions ↔
      ∀ before t, before <+: actions → Runs.run c.step idleCoordinator before = some t →
        Fresh t := by
  have hkeep : ∀ s a s', Consistent s → True → c.step s a = some s' → Consistent s' :=
    fun _ _ _ h _ hstep => h.step (Coordinator.step_cases hstep)
  exact Runs.stepsMeet_iff_forall_reached hkeep
    (fun _ _ _ h hfresh _ hstep => fresh_step_iff h hfresh (Coordinator.step_cases hstep))
    actions _ s consistent_idleCoordinator (fun _ _ _ h => nomatch h) (fun _ _ => trivial) hrun

/-! ### Three clicks

The second click comes in during the deployment of the first one and is told its outcome. -/

theorem stale_outcome : ∃ s, Runs.run succeedingCoordinator.step idleCoordinator
    [.call 0, .start 0 (), .call 1, .finish 0, .publish 0, .check 1] = some s ∧ ¬Fresh s := by
  refine ⟨_, rfl, fun h => ?_⟩
  have hlt : 1 < 1 := h 1 1 (.ok ()) rfl
  omega

theorem outcomes_fresh_iff_alone : ∃ s, Runs.run succeedingCoordinator.step idleCoordinator
    [.call 0, .start 0 (), .finish 0, .publish 0] = some s ∧ Fresh s := by
  refine ⟨_, rfl, (outcomes_fresh_iff succeedingCoordinator
    [.call 0, .start 0 (), .finish 0, .publish 0] rfl).mp ?_ _ _ (List.prefix_refl _) rfl⟩
  exact Runs.stepsMeet_of_forall fun a ha s i heq => by simp [heq] at ha

end Outcomes

end AlderpointDNS.Deploy
