import AlderpointDNS.Lib.Runs
import Mathlib.Tactic.Common

/-!
# The rollback watchdog of a network change

`apply_change` arms a watchdog with `systemd-run`, writes the rollback state file and applies the
new configuration; `confirm_change` stops the watchdog and removes the file.  The watchdog runs
`rollback_check`, which rolls back the change of whatever state file there is.  Each call is one
step here, at one second of the clock, and a watchdog fires in the second of its deadline.

The file's fields that only `perform_rollback` reads (the backend, the interface, the snapshot) and
those that nothing reads are left out; so is what `perform_rollback` restores.  The changes are
numbered, and the state keeps a record of the confirmed ones and of the rollbacks.

* `networkStep` — one call, or one second;
* `legitimate_of_run` — no rollback comes too early where each change is applied `Alone`;
* `exists_early_rollback` — otherwise it may;
* **`legitimate_iff`** — the changes that no watchdog of an earlier change can roll back.
* `rolled_back_early` — the watchdog of a change whose application has failed.
-/

namespace AlderpointDNS.Network

/-! ## The calls -/

/-- What `rollback_check`, `confirm_change` and `apply_change` read of the state file. -/
structure RollbackState where
  /-- which change wrote it -/
  change : ℕ
  /-- the second in the name of the unit -/
  rollbackUnit : ℕ
  rollbackDeadline : ℕ
  confirmed : Bool
  deriving DecidableEq

/-- A transient timer of `schedule_rollback_timer`. -/
structure Watchdog where
  unit : ℕ
  deadline : ℕ
  deriving DecidableEq

inductive Cause where
  | applyFailed
  | watchdog (unit : ℕ)
  deriving DecidableEq

/-- A run of `perform_rollback`. -/
structure Rollback where
  change : ℕ
  cause : Cause
  time : ℕ
  deadline : ℕ
  /-- `confirm_change` had returned for this change -/
  confirmed : Bool
  deriving DecidableEq

structure NetworkState where
  clock : ℕ
  /-- the calls of `apply_change` so far -/
  changes : ℕ
  stateFile : Option RollbackState
  watchdogs : List Watchdog
  confirmed : List ℕ
  rollbacks : List Rollback
  deriving DecidableEq

/-- How far `apply_change` gets. -/
inductive ApplyOutcome where
  /-- no backend, an invalid proposal, or an error of staging or of `systemd-run` -/
  | refused
  /-- `_write_state_file` raises -/
  | unrecorded
  /-- the change is left pending -/
  | applied
  /-- the backend's command fails -/
  | applyFailed
  deriving DecidableEq

def performRollback (cause : Cause) (state : RollbackState) (s : NetworkState) : NetworkState :=
  { s with
    stateFile := none
    rollbacks := s.rollbacks ++ [⟨state.change, cause, s.clock, state.rollbackDeadline,
      s.confirmed.contains state.change⟩] }

def rollbackCheck (unit : ℕ) (s : NetworkState) : NetworkState :=
  match s.stateFile with
  | none => s
  | some state =>
      if state.confirmed then { s with stateFile := none }
      else performRollback (.watchdog unit) state s

/-- `apply_change` gets past its own checks and those of `systemd-run`, which refuses the name of a
unit that is still loaded. -/
def accepted (s : NetworkState) (outcome : ApplyOutcome) : Bool :=
  s.stateFile.isNone && outcome != .refused && !s.watchdogs.any (·.unit == s.clock)

def applyChange (timeout : ℕ) (outcome : ApplyOutcome) (s : NetworkState) : NetworkState :=
  if accepted s outcome then
    let state : RollbackState := ⟨s.changes, s.clock, s.clock + timeout, false⟩
    let armed : NetworkState :=
      { s with
        changes := s.changes + 1
        watchdogs := ⟨s.clock, s.clock + timeout⟩ :: s.watchdogs }
    match outcome with
    | .refused | .unrecorded => armed
    | .applied => { armed with stateFile := some state }
    | .applyFailed => performRollback .applyFailed state { armed with stateFile := some state }
  else { s with changes := s.changes + 1 }

/-- `systemctl stop`, which may have no effect. -/
def cancelRollbackTimer (unit : ℕ) (stopped : Bool) (s : NetworkState) : NetworkState :=
  if stopped then { s with watchdogs := s.watchdogs.filter (·.unit ≠ unit) } else s

def confirmChange (stopped : Bool) (s : NetworkState) : NetworkState :=
  match s.stateFile with
  | none => s
  | some state =>
      { cancelRollbackTimer state.rollbackUnit stopped s with
        stateFile := none
        confirmed := state.change :: s.confirmed }

inductive NetworkAction where
  | tick
  | apply (timeout : ℕ) (outcome : ApplyOutcome)
  | confirm (stopped : Bool)
  | fire (unit : ℕ)

/-- A watchdog is due. -/
def due (s : NetworkState) (w : Watchdog) : Bool := w.deadline ≤ s.clock

/-- One step: no second passes over a watchdog that is due. -/
def networkStep (s : NetworkState) : NetworkAction → Option NetworkState
  | .tick => if s.watchdogs.any (due s) then none else some { s with clock := s.clock + 1 }
  | .apply timeout outcome => some (applyChange timeout outcome s)
  | .confirm stopped => some (confirmChange stopped s)
  | .fire unit =>
      if s.watchdogs.any fun w => w.unit == unit && due s w then
        some (rollbackCheck unit { s with watchdogs := s.watchdogs.filter (·.unit ≠ unit) })
      else none

/-- No change has been applied. -/
def initialState (clock : ℕ) : NetworkState :=
  { clock := clock, changes := 0, stateFile := none, watchdogs := [], confirmed := [],
    rollbacks := [] }

/-- The rollback is that of an apply failure or comes at the deadline or later, and the change was
not confirmed. -/
def Rollback.Legitimate (r : Rollback) : Prop :=
  (r.cause = .applyFailed ∨ r.deadline ≤ r.time) ∧ r.confirmed = false

def NetworkState.Legitimate (s : NetworkState) : Prop := ∀ r ∈ s.rollbacks, r.Legitimate

/-- An application that is left pending finds no watchdog that fires before its own. -/
def Alone (s : NetworkState) : NetworkAction → Prop
  | .apply timeout .applied =>
      accepted s .applied = true → ∀ w ∈ s.watchdogs, s.clock + timeout ≤ w.deadline
  | _ => True

/-! ## What holds in every state -/

/-- The invariant of all runs. -/
structure WellTimed (s : NetworkState) : Prop where
  due : ∀ w ∈ s.watchdogs, s.clock ≤ w.deadline
  confirmed : ∀ c ∈ s.confirmed, c < s.changes
  pending : ∀ state, s.stateFile = some state →
    state.confirmed = false ∧ state.change < s.changes ∧ state.change ∉ s.confirmed

/-- The invariant of the runs whose changes are applied `Alone`. -/
structure Orderly (s : NetworkState) : Prop where
  wellTimed : WellTimed s
  deadlines : ∀ state, s.stateFile = some state →
    ∀ w ∈ s.watchdogs, state.rollbackDeadline ≤ w.deadline
  legitimate : s.Legitimate

theorem wellTimed_initial (clock : ℕ) : WellTimed (initialState clock) :=
  ⟨by simp [initialState], by simp [initialState], by simp [initialState]⟩

theorem orderly_initial (clock : ℕ) : Orderly (initialState clock) :=
  ⟨wellTimed_initial clock, by simp [initialState],
    by simp [NetworkState.Legitimate, initialState]⟩

/-- Watchdogs may go, and the state file with them. -/
theorem WellTimed.drop {s s' : NetworkState} (h : WellTimed s) (hclock : s'.clock = s.clock)
    (hchanges : s.changes ≤ s'.changes) (hwatchdogs : ∀ w ∈ s'.watchdogs, w ∈ s.watchdogs)
    (hconfirmed : s'.confirmed = s.confirmed)
    (hfile : s'.stateFile = s.stateFile ∨ s'.stateFile = none) : WellTimed s' := by
  refine ⟨fun w hw => hclock ▸ h.due w (hwatchdogs w hw), fun c hc => ?_, fun state hstate => ?_⟩
  · exact Nat.lt_of_lt_of_le (h.confirmed c (hconfirmed ▸ hc)) hchanges
  · rcases hfile with hfile | hfile
    · obtain ⟨hflag, hlt, hmem⟩ := h.pending state (hfile ▸ hstate)
      exact ⟨hflag, Nat.lt_of_lt_of_le hlt hchanges, hconfirmed ▸ hmem⟩
    · rw [hfile] at hstate
      cases hstate

/-- A change is written to the state file. -/
theorem WellTimed.pend {s : NetworkState} (h : WellTimed s) (timeout : ℕ) :
    WellTimed { s with
      changes := s.changes + 1
      watchdogs := ⟨s.clock, s.clock + timeout⟩ :: s.watchdogs
      stateFile := some ⟨s.changes, s.clock, s.clock + timeout, false⟩ } := by
  refine ⟨?_, fun c hc => Nat.lt_succ_of_lt (h.confirmed c hc), fun state hstate => ?_⟩
  · exact List.forall_mem_cons.mpr ⟨Nat.le_add_right _ _, h.due⟩
  · cases hstate
    exact ⟨rfl, Nat.lt_succ_self _, fun hmem => absurd (h.confirmed _ hmem) (Nat.lt_irrefl _)⟩

theorem wellTimed_rollbackCheck {s : NetworkState} (h : WellTimed s) (unit : ℕ) :
    WellTimed (rollbackCheck unit s) := by
  unfold rollbackCheck
  split
  · exact h
  · split_ifs
    · exact h.drop rfl (Nat.le_refl _) (fun _ => id) rfl (Or.inr rfl)
    · exact h.drop rfl (Nat.le_refl _) (fun _ => id) rfl (Or.inr rfl)

theorem wellTimed_applyChange {s : NetworkState} (h : WellTimed s) (timeout : ℕ)
    (outcome : ApplyOutcome) : WellTimed (applyChange timeout outcome s) := by
  have hpend := h.pend timeout
  have harmed : accepted s outcome = true → WellTimed { s with
      changes := s.changes + 1
      watchdogs := ⟨s.clock, s.clock + timeout⟩ :: s.watchdogs } := by
    intro haccepted
    simp only [accepted, Bool.and_eq_true, Option.isNone_iff_eq_none] at haccepted
    exact hpend.drop rfl (Nat.le_refl _) (fun _ => id) rfl (Or.inr haccepted.1.1)
  unfold applyChange
  split_ifs with haccepted
  · cases outcome with
    | refused => exact harmed haccepted
    | unrecorded => exact harmed haccepted
    | applied => exact hpend
    | applyFailed => exact hpend.drop rfl (Nat.le_refl _) (fun _ => id) rfl (Or.inr rfl)
  · exact h.drop rfl (Nat.le_succ _) (fun _ => id) rfl (Or.inl rfl)

theorem wellTimed_confirmChange {s : NetworkState} (h : WellTimed s) (stopped : Bool) :
    WellTimed (confirmChange stopped s) := by
  unfold confirmChange
  split
  · exact h
  · rename_i state hstate
    have hcancel : WellTimed (cancelRollbackTimer state.rollbackUnit stopped s) ∧
        (cancelRollbackTimer state.rollbackUnit stopped s).changes = s.changes := by
      unfold cancelRollbackTimer
      split_ifs
      · exact ⟨h.drop rfl (Nat.le_refl _) (fun _ => List.mem_of_mem_filter) rfl (Or.inl rfl), rfl⟩
      · exact ⟨h, rfl⟩
    refine ⟨hcancel.1.due, List.forall_mem_cons.mpr ⟨?_, fun c hc => ?_⟩, by simp⟩
    · exact hcancel.2 ▸ (h.pending state hstate).2.1
    · exact hcancel.2 ▸ h.confirmed c hc

theorem wellTimed_step {s s' : NetworkState} {action : NetworkAction} (h : WellTimed s)
    (hstep : networkStep s action = some s') : WellTimed s' := by
  cases action with
  | tick =>
      rw [networkStep] at hstep
      split_ifs at hstep with hdue
      cases hstep
      refine ⟨fun w hw => ?_, h.confirmed, h.pending⟩
      by_contra hlate
      refine hdue (List.any_eq_true.mpr ⟨w, hw, decide_eq_true ?_⟩)
      simp only at hlate
      omega
  | apply timeout outcome =>
      cases hstep
      exact wellTimed_applyChange h timeout outcome
  | confirm stopped =>
      cases hstep
      exact wellTimed_confirmChange h stopped
  | fire unit =>
      rw [networkStep] at hstep
      split_ifs at hstep
      cases hstep
      refine wellTimed_rollbackCheck ?_ unit
      exact h.drop rfl (Nat.le_refl _) (fun _ => List.mem_of_mem_filter) rfl (Or.inl rfl)

theorem wellTimed_run {actions : List NetworkAction} {clock : ℕ} {s : NetworkState}
    (hrun : Runs.run networkStep (initialState clock) actions = some s) : WellTimed s :=
  Runs.invariant_of_run (fun _ _ _ => wellTimed_step) actions _ s (wellTimed_initial clock) hrun

/-! ## Changes applied alone -/

theorem legitimate_performRollback {s : NetworkState} {cause : Cause} {state : RollbackState} :
    (performRollback cause state s).Legitimate ↔ s.Legitimate ∧
      (cause = .applyFailed ∨ state.rollbackDeadline ≤ s.clock) ∧
      state.change ∉ s.confirmed := by
  have happend : (performRollback cause state s).Legitimate ↔ s.Legitimate ∧
      (⟨state.change, cause, s.clock, state.rollbackDeadline,
        s.confirmed.contains state.change⟩ : Rollback).Legitimate := by
    simp only [NetworkState.Legitimate, performRollback, List.forall_mem_append,
      List.forall_mem_singleton]
  rw [happend, Rollback.Legitimate]
  simp

/-- No step of `confirm_change` rolls back. -/
theorem confirmChange_rollbacks (s : NetworkState) (stopped : Bool) :
    (confirmChange stopped s).stateFile = none ∧
      (confirmChange stopped s).rollbacks = s.rollbacks := by
  unfold confirmChange
  split
  · rename_i hfile
    exact ⟨hfile, rfl⟩
  · unfold cancelRollbackTimer
    split_ifs <;> exact ⟨rfl, rfl⟩

theorem orderly_applyChange {s : NetworkState} (h : Orderly s) {timeout : ℕ}
    {outcome : ApplyOutcome} (halone : Alone s (.apply timeout outcome)) :
    Orderly (applyChange timeout outcome s) := by
  have hwell := wellTimed_applyChange h.wellTimed timeout outcome
  refine ⟨hwell, ?_, ?_⟩
  · intro state hstate w hw
    unfold applyChange at hstate hw
    split_ifs at hstate hw with haccepted
    · simp only [accepted, Bool.and_eq_true, Option.isNone_iff_eq_none] at haccepted
      have hnone : s.stateFile = none := haccepted.1.1
      cases outcome with
      | refused => simp [hnone] at hstate
      | unrecorded => simp [hnone] at hstate
      | applied =>
          cases hstate
          rcases List.mem_cons.mp hw with rfl | hold
          · exact Nat.le_refl _
          · exact halone (by simpa [accepted] using haccepted) w hold
      | applyFailed => cases hstate
    · exact h.deadlines state hstate w hw
  · unfold applyChange
    split_ifs
    · cases outcome with
      | refused => exact h.legitimate
      | unrecorded => exact h.legitimate
      | applied => exact h.legitimate
      | applyFailed =>
          refine legitimate_performRollback.mpr ⟨h.legitimate, Or.inl rfl, fun hmem => ?_⟩
          exact absurd (h.wellTimed.confirmed _ hmem) (Nat.lt_irrefl _)
    · exact h.legitimate

/-- A watchdog that is due rolls back a change whose own deadline has passed. -/
theorem orderly_rollbackCheck {s : NetworkState} (h : Orderly s) {unit : ℕ}
    (hdue : ∀ state, s.stateFile = some state → state.rollbackDeadline ≤ s.clock) :
    Orderly (rollbackCheck unit s) := by
  have hwell := wellTimed_rollbackCheck h.wellTimed unit
  cases hfile : s.stateFile with
  | none =>
      rw [rollbackCheck, hfile]
      exact h
  | some state =>
      obtain ⟨hflag, -, hmem⟩ := h.wellTimed.pending state hfile
      have hcheck : rollbackCheck unit s = performRollback (.watchdog unit) state s := by
        simp [rollbackCheck, hfile, hflag]
      rw [hcheck] at hwell ⊢
      refine ⟨hwell, by simp [performRollback], ?_⟩
      exact legitimate_performRollback.mpr ⟨h.legitimate, Or.inr (hdue state hfile), hmem⟩

/-- **What each step keeps while changes are applied alone.** -/
theorem orderly_step {s s' : NetworkState} {action : NetworkAction} (h : Orderly s)
    (halone : Alone s action) (hstep : networkStep s action = some s') : Orderly s' := by
  have hwell := wellTimed_step h.wellTimed hstep
  cases action with
  | tick =>
      rw [networkStep] at hstep
      split_ifs at hstep
      cases hstep
      exact ⟨hwell, h.deadlines, h.legitimate⟩
  | apply timeout outcome =>
      cases hstep
      exact orderly_applyChange h halone
  | confirm stopped =>
      cases hstep
      obtain ⟨hfile, hrollbacks⟩ := confirmChange_rollbacks s stopped
      refine ⟨hwell, by simp [hfile], ?_⟩
      rw [NetworkState.Legitimate, hrollbacks]
      exact h.legitimate
  | fire unit =>
      rw [networkStep] at hstep
      split_ifs at hstep with hfire
      cases hstep
      obtain ⟨w, hw, hand⟩ := List.any_eq_true.mp hfire
      have hdue : w.deadline ≤ s.clock := of_decide_eq_true (Bool.and_eq_true_iff.mp hand).2
      have hfired : Orderly { s with watchdogs := s.watchdogs.filter (·.unit ≠ unit) } := by
        refine ⟨?_, fun state hstate v hv => ?_, h.legitimate⟩
        · exact h.wellTimed.drop rfl (Nat.le_refl _) (fun _ => List.mem_of_mem_filter) rfl
            (Or.inl rfl)
        · exact h.deadlines state hstate v (List.mem_of_mem_filter hv)
      refine orderly_rollbackCheck hfired fun state hstate => ?_
      exact Nat.le_trans (h.deadlines state hstate w hw) hdue

/-- **No rollback comes too early, or after a confirmation, where changes are applied alone.** -/
theorem legitimate_of_run {actions : List NetworkAction} {clock : ℕ} {s : NetworkState}
    (halone : Runs.StepsMeet networkStep Alone (initialState clock) actions)
    (hrun : Runs.run networkStep (initialState clock) actions = some s) : Orderly s :=
  Runs.run_invariant (fun _ _ _ => orderly_step) actions _ s (orderly_initial clock) halone hrun

/-! ## Changes that are not -/

/-- Time passes, and watchdogs fire. -/
def Unattended : NetworkAction → Prop
  | .tick | .fire _ => True
  | _ => False

theorem fire_early {s : NetworkState} (h : WellTimed s) {state : RollbackState}
    (hstate : s.stateFile = some state) {w : Watchdog} (hw : w ∈ s.watchdogs)
    (hdue : due s w = true) (hearly : s.clock < state.rollbackDeadline) :
    ∃ t, Runs.run networkStep s [.fire w.unit] = some t ∧ ¬ t.Legitimate := by
  have hflag := (h.pending state hstate).1
  have hany : (s.watchdogs.any fun v => v.unit == w.unit && due s v) = true :=
    List.any_eq_true.mpr ⟨w, hw, by simp [hdue]⟩
  refine ⟨performRollback (.watchdog w.unit) state
    { s with watchdogs := s.watchdogs.filter (·.unit ≠ w.unit) }, ?_, fun hlegitimate => ?_⟩
  · rw [Runs.run, networkStep, if_pos hany, Option.bind_some, Runs.run]
    simp [rollbackCheck, hstate, hflag]
  · rcases (legitimate_performRollback.mp hlegitimate).2.1 with hcause | hpassed
    · cases hcause
    · exact absurd hpassed (Nat.not_le.mpr hearly)

/-- A watchdog that fires before the deadline of the pending change rolls it back. -/
theorem exists_early_rollback {s : NetworkState} (h : WellTimed s) {state : RollbackState}
    (hstate : s.stateFile = some state) {w : Watchdog} (hw : w ∈ s.watchdogs)
    (hearly : w.deadline < state.rollbackDeadline) :
    ∃ actions t, (∀ a ∈ actions, Unattended a) ∧ Runs.run networkStep s actions = some t ∧
      ¬ t.Legitimate := by
  have hfire : ∀ {s : NetworkState}, WellTimed s → s.stateFile = some state → w ∈ s.watchdogs →
      ∀ v ∈ s.watchdogs, due s v = true → ∃ actions t, (∀ a ∈ actions, Unattended a) ∧
        Runs.run networkStep s actions = some t ∧ ¬ t.Legitimate := by
    intro s h hstate hw v hv hdue
    obtain ⟨t, hrun, ht⟩ :=
      fire_early h hstate hv hdue (Nat.lt_of_le_of_lt (h.due w hw) hearly)
    exact ⟨[.fire v.unit], t, by simp [Unattended], hrun, ht⟩
  -- the seconds until `w` is due, if no other watchdog is due before
  induction hn : w.deadline - s.clock generalizing s with
  | zero => exact hfire h hstate hw w hw (decide_eq_true (by omega))
  | succ n ih =>
      by_cases hdue : s.watchdogs.any (due s) = true
      · obtain ⟨v, hv, hdue⟩ := List.any_eq_true.mp hdue
        exact hfire h hstate hw v hv hdue
      · have htick : networkStep s .tick = some { s with clock := s.clock + 1 } := by
          rw [networkStep, if_neg hdue]
        obtain ⟨actions, t, hactions, hrun, ht⟩ := ih (wellTimed_step h htick) hstate hw
          (by simp only; omega)
        refine ⟨.tick :: actions, t, List.forall_mem_cons.mpr ⟨trivial, hactions⟩, ?_, ht⟩
        rw [Runs.run, htick, Option.bind_some, hrun]

/-- **The changes that no watchdog of an earlier change can roll back**: those applied when no
outstanding watchdog is due before their own. -/
theorem legitimate_iff (clock : ℕ) (actions : List NetworkAction) :
    (∀ pre post s, pre <+: actions → (∀ a ∈ post, Unattended a) →
      Runs.run networkStep (initialState clock) (pre ++ post) = some s → s.Legitimate)
      ↔ Runs.StepsMeet networkStep Alone (initialState clock) actions := by
  constructor
  · intro h
    refine Runs.stepsMeet_iff.mpr fun pre action post s hactions hrun => ?_
    have hwell := wellTimed_run hrun
    cases action with
    | tick => trivial
    | confirm stopped => trivial
    | fire unit => trivial
    | apply timeout outcome =>
        cases outcome with
        | refused => trivial
        | unrecorded => trivial
        | applyFailed => trivial
        | applied =>
            intro haccepted w hw
            by_contra hearly
            have hstep : networkStep s (.apply timeout .applied)
                = some (applyChange timeout .applied s) := rfl
            have happlied : (applyChange timeout .applied s).stateFile
                  = some ⟨s.changes, s.clock, s.clock + timeout, false⟩ ∧
                w ∈ (applyChange timeout .applied s).watchdogs := by
              rw [applyChange, if_pos haccepted]
              exact ⟨rfl, List.mem_cons_of_mem _ hw⟩
            obtain ⟨rest, t, hrest, hrun', ht⟩ := exists_early_rollback (wellTimed_step hwell hstep)
              happlied.1 happlied.2 (Nat.not_le.mp hearly)
            refine ht (h (pre ++ [.apply timeout .applied]) rest t ?_ hrest ?_)
            · exact ⟨post, by simp [hactions]⟩
            · rw [List.append_assoc, Runs.run_append, hrun, Option.bind_some, List.singleton_append,
                Runs.run, hstep, Option.bind_some, hrun']
  · rintro hmeet pre post s ⟨rest, rfl⟩ hpost hrun
    rw [Runs.run_append, Option.bind_eq_some_iff] at hrun
    obtain ⟨t, ht, hrun⟩ := hrun
    have horderly : Orderly t := legitimate_of_run (Runs.stepsMeet_append hmeet ht).1 ht
    have halone : Runs.StepsMeet networkStep Alone t post :=
      Runs.stepsMeet_of_forall fun action hmem s => by
        have hunattended := hpost action hmem
        cases action with
        | apply timeout outcome => exact absurd hunattended id
        | _ => trivial
    exact (Runs.run_invariant (fun _ _ _ => orderly_step) post t s horderly halone hrun).legitimate

/-- The first change fails at second 0 and is rolled back; its watchdog rolls back the second one,
which was applied at second 10, ten seconds before the deadline. -/
theorem rolled_back_early : ∃ s,
    Runs.run networkStep (initialState 0)
      (.apply 120 .applyFailed :: List.replicate 10 .tick ++
        .apply 120 .applied :: List.replicate 110 .tick ++ [.fire 0]) = some s ∧
      s.rollbacks = [⟨0, .applyFailed, 0, 120, false⟩, ⟨1, .watchdog 0, 120, 130, false⟩] ∧
      ¬ s.Legitimate := by
  refine ⟨⟨120, 2, none, [⟨10, 130⟩], [],
    [⟨0, .applyFailed, 0, 120, false⟩, ⟨1, .watchdog 0, 120, 130, false⟩]⟩,
    by decide +kernel, rfl, ?_⟩
  intro hlegitimate
  rcases (hlegitimate ⟨1, .watchdog 0, 120, 130, false⟩ (by simp)).1 with hcause | hpassed
  · cases hcause
  · exact absurd hpassed (by decide)

end AlderpointDNS.Network
