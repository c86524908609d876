import AlderpointDNS.Lib.Runs
import AlderpointDNS.Lib.Text
import Mathlib.Logic.Function.Basic

/-!
# Interrupted restores

`restore_backup` promotes a working copy by renaming it over the live database, and records the
promotion afterwards, on a new connection, in its row of `restore_history`.  The row itself is in
the database that is exchanged; `_resync_live_state_into_working` carries it over.  A worker may be
killed, and any of its steps may raise; `reap_abandoned_restores` then reads off the row what
happened.

* `workerInv_step` — where the live file and the row are at each point of the worker;
* **`verdict_iff`** — the runs in which every verdict is true.
* `promoted_but_not_modified` — a worker killed between the rename and the row.

Not modelled: heartbeats and staging directories, and other restores of the same time.
-/

namespace AlderpointDNS.Backup

open Text Runs

/-! ## Rows and database files -/

/-- The `status` of a restore. -/
inductive RestoreStatus where
  | running
  | deployed
  | rolledBack
  | rollbackFailed
  | promotedRecoveryRequired
  | interrupted
  deriving DecidableEq

/-- A row of `restore_history`; `promoted` stands for `promoted_at IS NOT NULL`. -/
structure RestoreRow where
  status : RestoreStatus
  phase : Str
  promoted : Bool
  deriving DecidableEq

abbrev RestoreHistory := ℕ → Option RestoreRow

/-- `_touch_restore`. -/
def touchRestore (id : ℕ) (phase : Str) (promoted : Bool) (history : RestoreHistory) :
    RestoreHistory :=
  Function.update history id ((history id).map fun row =>
    { row with phase := phase, promoted := promoted || row.promoted })

/-- `UPDATE restore_history SET status=?, phase=? WHERE id=?`. -/
def finishRestore (id : ℕ) (status : RestoreStatus) (phase : Str) (history : RestoreHistory) :
    RestoreHistory :=
  Function.update history id ((history id).map fun row =>
    { row with status := status, phase := phase })

/-- The file at the live path: which of the two files it is, and what it holds. -/
structure LiveDatabase where
  isWorkingCopy : Bool
  history : RestoreHistory

/-- What `reap_abandoned_restores` says about the live database. -/
inductive Verdict where
  | notModified
  | swapCommitted
  deriving DecidableEq

/-- The verdict on an abandoned row. -/
def RestoreRow.verdict (row : RestoreRow) : Verdict :=
  if row.promoted then .swapCommitted else .notModified

theorem verdict_eq_swapCommitted (row : RestoreRow) :
    row.verdict = .swapCommitted ↔ row.promoted = true := by
  unfold RestoreRow.verdict
  split_ifs with h <;> simp [h]

/-- Where the worker is. -/
inductive RestorePoint where
  /-- before `db.close()` -/
  | preparing
  /-- `_acquire_exclusive_live_lock` -/
  | locking
  /-- `_resync_live_state_into_working` -/
  | locked
  /-- `_promote_working_db` up to the rename -/
  | resynced
  /-- `_promote_working_db` after the rename -/
  | replaced
  /-- `promoted = True`; the lock is released and `db` opened -/
  | flagged
  /-- `touch(phase="promoted", promoted=True)` -/
  | reopened
  /-- the promotion is recorded -/
  | recorded
  deriving DecidableEq

inductive RestoreProgress where
  | running (p : RestorePoint)
  /-- the `except` block, for an exception raised there -/
  | handling (p : RestorePoint)
  | finished
  | dead
  deriving DecidableEq

structure RestoreState where
  live : LiveDatabase
  working : Option RestoreHistory
  worker : RestoreProgress
  verdict : Option Verdict

/-- The variable `promoted` when an exception is raised there. -/
def RestorePoint.promotedFlag : RestorePoint → Bool
  | .flagged | .reopened | .recorded => true
  | .preparing | .locking | .locked | .resynced | .replaced => false

/-- The worker holds the exclusive lock. -/
def RestoreProgress.holdsLock : RestoreProgress → Bool
  | .running p => p = .locked || p = .resynced || p = .replaced || p = .flagged
  | _ => false

inductive RestoreAction where
  /-- a progress report of the worker -/
  | touch (phase : Str)
  /-- `_create_working_db` and the merge, which leaves `restore_history` alone -/
  | createWorkingDb
  /-- the worker takes its next step towards the promotion -/
  | advance
  /-- the worker's step raises -/
  | fail
  /-- the last UPDATE; `dnsWorks` is `resolves(..)` after a rollback -/
  | finish (dnsWorks : Bool)
  | die
  /-- another process writes other rows -/
  | other (history : RestoreHistory)
  | reap

def RestoreState.writeLive (s : RestoreState) (history : RestoreHistory) : RestoreState :=
  { s with live := { s.live with history := history } }

/-- One step of the restore `id` or of another process. -/
def restoreStep (id : ℕ) (s : RestoreState) : RestoreAction → Option RestoreState
  | .touch phase =>
      match s.worker with
      | .running .preparing | .running .recorded | .handling _ =>
          some (s.writeLive (touchRestore id phase false s.live.history))
      | _ => none
  | .createWorkingDb =>
      match s.worker with
      | .running .preparing => some { s with working := some s.live.history }
      | _ => none
  | .advance =>
      match s.worker, s.working with
      | .running .preparing, some _ =>
          some { s.writeLive (touchRestore id "promoting".toList false s.live.history) with
            worker := .running .locking }
      | .running .locking, _ => some { s with worker := .running .locked }
      | .running .locked, _ =>
          some { s with working := some s.live.history, worker := .running .resynced }
      | .running .resynced, some history =>
          some { s with live := ⟨true, history⟩, working := none, worker := .running .replaced }
      | .running .replaced, _ => some { s with worker := .running .flagged }
      | .running .flagged, _ => some { s with worker := .running .reopened }
      | .running .reopened, _ =>
          some { s.writeLive (touchRestore id "promoted".toList true s.live.history) with
            worker := .running .recorded }
      | _, _ => none
  | .fail =>
      match s.worker with
      | .running p => some { s with worker := .handling p }
      -- an exception in the `except` or `finally` block ends the process
      | .handling _ => some { s with worker := .dead }
      | _ => none
  | .finish dnsWorks =>
      match s.worker with
      | .running .preparing | .running .recorded =>
          some { s.writeLive (finishRestore id .deployed "completed".toList s.live.history) with
            worker := .finished }
      | .handling p =>
          let status := if p.promotedFlag then .promotedRecoveryRequired
            else if dnsWorks then .rolledBack else .rollbackFailed
          let phase := if p.promotedFlag then "promoted_recovery_required".toList
            else "failed".toList
          some { s.writeLive (finishRestore id status phase s.live.history) with
            worker := .finished }
      | _ => none
  | .die => if s.worker = .finished then none else some { s with worker := .dead }
  | .other history =>
      if s.worker.holdsLock then none
      else some (s.writeLive (Function.update history id (s.live.history id)))
  | .reap =>
      match s.worker, s.live.history id with
      | .dead, some row =>
          if row.status = .running then
            some { s.writeLive (finishRestore id .interrupted row.phase s.live.history) with
              verdict := some row.verdict }
          else none
      | _, _ => none

/-- The restore `id` has just been entered. -/
def restoreStarted (id : ℕ) (history : RestoreHistory) : RestoreState where
  live :=
    { isWorkingCopy := false
      history := Function.update history id (some ⟨.running, "validating".toList, false⟩) }
  working := none
  worker := .running .preparing
  verdict := none

/-- The verdict says what happened to the live file. -/
def VerdictTrue (s : RestoreState) : Prop :=
  ∀ v, s.verdict = some v → (v = .swapCommitted ↔ s.live.isWorkingCopy = true)

/-- The file is exchanged and the row does not say so. -/
def RestorePoint.unrecorded : RestorePoint → Bool
  | .replaced | .flagged | .reopened => true
  | .preparing | .locking | .locked | .resynced | .recorded => false

/-- The worker does not end between the rename and the record of it. -/
def EndsRecorded (s : RestoreState) : RestoreAction → Prop
  | .die => ∀ p, s.worker = .running p ∨ s.worker = .handling p → p.unrecorded = false
  | .fail => ∀ p, s.worker = .handling p → p.unrecorded = false
  | _ => True

/-! ## Where the file and the row are -/

/-- The live file is the working copy from the rename on. -/
def RestorePoint.isReplaced : RestorePoint → Bool
  | .replaced | .flagged | .reopened | .recorded => true
  | .preparing | .locking | .locked | .resynced => false

/-- The row of a worker at `p`. -/
def RowAt (p : RestorePoint) (row : Option RestoreRow) : Prop :=
  ∃ r, row = some r ∧ r.status = .running ∧ r.promoted = (p == .recorded)

/-- What is known at each point. -/
def ProgressInv (id : ℕ) (s : RestoreState) : Prop :=
  match s.worker with
  | .running p | .handling p => s.live.isWorkingCopy = p.isReplaced ∧ RowAt p (s.live.history id)
  | .finished => ∃ r, s.live.history id = some r ∧ r.status ≠ .running
  | .dead => ∃ r, s.live.history id = some r ∧
      (r.status = .running → r.promoted = s.live.isWorkingCopy)

structure WorkerInv (id : ℕ) (s : RestoreState) : Prop where
  progress : ProgressInv id s
  /-- the resynchronised row -/
  working : s.worker = .running .resynced → ∃ history, s.working = some history ∧
    RowAt .resynced (history id)
  alive : s.worker ≠ .dead → s.verdict = none
  verdict : VerdictTrue s

@[simp] theorem writeLive_worker (s : RestoreState) (history : RestoreHistory) :
    (s.writeLive history).worker = s.worker := rfl

@[simp] theorem writeLive_working (s : RestoreState) (history : RestoreHistory) :
    (s.writeLive history).working = s.working := rfl

@[simp] theorem writeLive_verdict (s : RestoreState) (history : RestoreHistory) :
    (s.writeLive history).verdict = s.verdict := rfl

@[simp] theorem writeLive_history (s : RestoreState) (history : RestoreHistory) :
    (s.writeLive history).live.history = history := rfl

@[simp] theorem writeLive_isWorkingCopy (s : RestoreState) (history : RestoreHistory) :
    (s.writeLive history).live.isWorkingCopy = s.live.isWorkingCopy := rfl

/-- A progress report leaves the row where it is. -/
theorem RowAt.touch {id : ℕ} {p : RestorePoint} {history : RestoreHistory}
    (h : RowAt p (history id)) (phase : Str) :
    RowAt p (touchRestore id phase false history id) := by
  obtain ⟨r, hr, hstatus, hpromoted⟩ := h
  refine ⟨{ r with phase := phase }, ?_, hstatus, hpromoted⟩
  simp [touchRestore, hr]

/-- The record of the promotion. -/
theorem RowAt.record {id : ℕ} {p : RestorePoint} {history : RestoreHistory}
    (h : RowAt p (history id)) (phase : Str) :
    RowAt .recorded (touchRestore id phase true history id) := by
  obtain ⟨r, hr, hstatus, -⟩ := h
  refine ⟨{ r with phase := phase, promoted := true }, ?_, hstatus, rfl⟩
  simp [touchRestore, hr]

theorem RowAt.finish {id : ℕ} {p : RestorePoint} {history : RestoreHistory}
    (h : RowAt p (history id)) {status : RestoreStatus} (hstatus : status ≠ .running)
    (phase : Str) :
    ∃ r, finishRestore id status phase history id = some r ∧ r.status ≠ .running := by
  obtain ⟨r, hr, -, -⟩ := h
  exact ⟨{ r with status := status, phase := phase }, by simp [finishRestore, hr], hstatus⟩

/-- A point at which the row says what happened to the file. -/
theorem promoted_eq_of_recorded {p : RestorePoint} (h : p.unrecorded = false) :
    (p == .recorded) = p.isReplaced := by
  cases p <;> first | rfl | cases h

theorem verdictTrue_of_none {s : RestoreState} (h : s.verdict = none) : VerdictTrue s := by
  intro v hv
  rw [h] at hv
  cases hv

/-- A point at which it does not. -/
theorem recorded_ne_of_unrecorded {p : RestorePoint} (h : p.unrecorded = true) :
    ¬ ((p == .recorded) = true ↔ p.isReplaced = true) := by
  revert h
  cases p <;> decide

/-- What is known of a worker on its way. -/
theorem WorkerInv.place {id : ℕ} {s : RestoreState} (h : WorkerInv id s) {p : RestorePoint}
    (hp : s.worker = .running p ∨ s.worker = .handling p) :
    s.live.isWorkingCopy = p.isReplaced ∧ RowAt p (s.live.history id) ∧ s.verdict = none := by
  have hprogress := h.progress
  have hnone : s.verdict = none := h.alive (by rcases hp with hp | hp <;> simp [hp])
  unfold ProgressInv at hprogress
  rcases hp with hp | hp
  · rw [hp] at hprogress
    exact ⟨hprogress.1, hprogress.2, hnone⟩
  · rw [hp] at hprogress
    exact ⟨hprogress.1, hprogress.2, hnone⟩

/-- What is known of a worker that ends. -/
theorem WorkerInv.dead {id : ℕ} {s : RestoreState} (h : WorkerInv id s) {p : RestorePoint}
    (hp : s.worker = .running p ∨ s.worker = .handling p) (hrecorded : p.unrecorded = false) :
    WorkerInv id { s with worker := .dead } := by
  obtain ⟨hcopy, ⟨r, hr, -, hpromoted⟩, -⟩ := h.place hp
  refine ⟨⟨r, hr, fun _ => ?_⟩, fun hworker => (by cases hworker), fun hdead => absurd rfl hdead,
    h.verdict⟩
  rw [hpromoted, promoted_eq_of_recorded hrecorded]
  exact hcopy.symm

/-- A worker that goes on: what is known of the file and the row at its new place. -/
theorem WorkerInv.alive_of {id : ℕ} {s : RestoreState} {w : RestoreProgress} {p : RestorePoint}
    (hworker : s.worker = w) (hw : w = .running p ∨ w = .handling p)
    (hcopy : s.live.isWorkingCopy = p.isReplaced) (hrow : RowAt p (s.live.history id))
    (hworking : w = .running .resynced →
      ∃ history, s.working = some history ∧ RowAt .resynced (history id))
    (hnone : s.verdict = none) : WorkerInv id s := by
  refine ⟨?_, fun hresynced => hworking (hworker.symm.trans hresynced), fun _ => hnone,
    verdictTrue_of_none hnone⟩
  unfold ProgressInv
  rw [hworker]
  rcases hw with rfl | rfl
  · exact ⟨hcopy, hrow⟩
  · exact ⟨hcopy, hrow⟩

/-- The last UPDATE. -/
theorem WorkerInv.finish {id : ℕ} {s : RestoreState} {p : RestorePoint}
    (h : RowAt p (s.live.history id)) {status : RestoreStatus} (hstatus : status ≠ .running)
    (phase : Str) (hnone : s.verdict = none) :
    WorkerInv id { s.writeLive (finishRestore id status phase s.live.history) with
      worker := .finished } :=
  ⟨h.finish hstatus phase, fun hworker => (by cases hworker), fun _ => hnone,
    verdictTrue_of_none hnone⟩

/-- The worker moves towards the promotion. -/
theorem workerInv_advance {id : ℕ} {s s' : RestoreState} (h : WorkerInv id s)
    (hstep : restoreStep id s .advance = some s') : WorkerInv id s' := by
  simp only [restoreStep] at hstep
  split at hstep
  · rename_i history hworker hworking
    obtain ⟨hcopy, hrow, hnone⟩ := h.place (Or.inl hworker)
    cases hstep
    exact .alive_of rfl (Or.inl rfl) hcopy (hrow.touch _) (fun hresynced => by cases hresynced)
      hnone
  · rename_i hworker
    obtain ⟨hcopy, hrow, hnone⟩ := h.place (Or.inl hworker)
    cases hstep
    exact .alive_of rfl (Or.inl rfl) hcopy hrow (fun hresynced => by cases hresynced) hnone
  · rename_i hworker
    obtain ⟨hcopy, hrow, hnone⟩ := h.place (Or.inl hworker)
    cases hstep
    exact .alive_of rfl (Or.inl rfl) hcopy hrow (fun _ => ⟨_, rfl, hrow⟩) hnone
  · rename_i history hworker hworking
    -- the row that is live from now on is the resynchronised one
    obtain ⟨-, -, hnone⟩ := h.place (Or.inl hworker)
    obtain ⟨history', hhistory', hrow⟩ := h.working hworker
    cases hworking.symm.trans hhistory'
    cases hstep
    exact .alive_of rfl (Or.inl rfl) rfl hrow (fun hresynced => by cases hresynced) hnone
  · rename_i hworker
    obtain ⟨hcopy, hrow, hnone⟩ := h.place (Or.inl hworker)
    cases hstep
    exact .alive_of rfl (Or.inl rfl) hcopy hrow (fun hresynced => by cases hresynced) hnone
  · rename_i hworker
    obtain ⟨hcopy, hrow, hnone⟩ := h.place (Or.inl hworker)
    cases hstep
    exact .alive_of rfl (Or.inl rfl) hcopy hrow (fun hresynced => by cases hresynced) hnone
  · rename_i hworker
    obtain ⟨hcopy, hrow, hnone⟩ := h.place (Or.inl hworker)
    cases hstep
    exact .alive_of rfl (Or.inl rfl) hcopy (hrow.record _) (fun hresynced => by cases hresynced)
      hnone
  · cases hstep

/-- A progress report. -/
theorem workerInv_touch {id : ℕ} {s : RestoreState} (h : WorkerInv id s) {p : RestorePoint}
    (hp : s.worker = .running p ∨ s.worker = .handling p)
    (hresynced : s.worker ≠ .running .resynced) (phase : Str) :
    WorkerInv id (s.writeLive (touchRestore id phase false s.live.history)) := by
  obtain ⟨hcopy, hrow, hnone⟩ := h.place hp
  exact .alive_of rfl hp hcopy (hrow.touch phase) (fun hw => absurd hw hresynced) hnone

/-- The verdict of the reaper. -/
theorem workerInv_reap {id : ℕ} {s : RestoreState} (h : WorkerInv id s) {row : RestoreRow}
    (hworker : s.worker = .dead) (hrow : s.live.history id = some row)
    (hrunning : row.status = .running) :
    WorkerInv id { s.writeLive (finishRestore id .interrupted row.phase s.live.history) with
      verdict := some row.verdict } := by
  have hprogress := h.progress
  unfold ProgressInv at hprogress
  rw [hworker] at hprogress
  obtain ⟨r, hr, hpromoted⟩ := hprogress
  cases hrow.symm.trans hr
  refine ⟨?_, fun hresynced => ?_, fun hdead => absurd hworker hdead, ?_⟩
  · unfold ProgressInv
    simp only [writeLive_worker, hworker]
    refine ⟨{ row with status := .interrupted }, by simp [finishRestore, hrow], ?_⟩
    intro h'
    cases h'
  · exact absurd (hworker.symm.trans hresynced) (by simp)
  · intro v hv
    cases hv
    rw [verdict_eq_swapCommitted, hpromoted hrunning]
    rfl

/-- **What a step preserves** when the worker does not end between the rename and its record. -/
theorem workerInv_step {id : ℕ} {s s' : RestoreState} {a : RestoreAction}
    (h : WorkerInv id s) (hok : EndsRecorded s a) (hstep : restoreStep id s a = some s') :
    WorkerInv id s' := by
  cases a with
  | touch phase =>
      simp only [restoreStep] at hstep
      split at hstep
      · rename_i hworker
        cases hstep
        exact workerInv_touch h (Or.inl hworker) (by simp [hworker]) phase
      · rename_i hworker
        cases hstep
        exact workerInv_touch h (Or.inl hworker) (by simp [hworker]) phase
      · rename_i p hworker
        cases hstep
        exact workerInv_touch h (Or.inr hworker) (by simp [hworker]) phase
      · cases hstep
  | createWorkingDb =>
      simp only [restoreStep] at hstep
      split at hstep
      · rename_i hworker
        obtain ⟨hcopy, hrow, hnone⟩ := h.place (Or.inl hworker)
        cases hstep
        exact .alive_of hworker (Or.inl rfl) hcopy hrow (fun hresynced => by cases hresynced) hnone
      · cases hstep
  | advance => exact workerInv_advance h hstep
  | fail =>
      simp only [restoreStep] at hstep
      split at hstep
      · rename_i p hworker
        obtain ⟨hcopy, hrow, hnone⟩ := h.place (Or.inl hworker)
        cases hstep
        exact .alive_of rfl (Or.inr rfl) hcopy hrow (fun hresynced => by cases hresynced) hnone
      · rename_i p hworker
        cases hstep
        exact h.dead (Or.inr hworker) (hok p hworker)
      · cases hstep
  | finish dnsWorks =>
      simp only [restoreStep] at hstep
      split at hstep
      · rename_i hworker
        obtain ⟨-, hrow, hnone⟩ := h.place (Or.inl hworker)
        cases hstep
        exact .finish hrow (by decide) _ hnone
      · rename_i hworker
        obtain ⟨-, hrow, hnone⟩ := h.place (Or.inl hworker)
        cases hstep
        exact .finish hrow (by decide) _ hnone
      · rename_i p hworker
        obtain ⟨-, hrow, hnone⟩ := h.place (Or.inr hworker)
        cases hstep
        exact .finish hrow (by split_ifs <;> decide) _ hnone
      · cases hstep
  | die =>
      simp only [restoreStep] at hstep
      split_ifs at hstep with hfinished
      cases hstep
      cases hworker : s.worker with
      | running p => exact h.dead (Or.inl hworker) (hok p (Or.inl hworker))
      | handling p => exact h.dead (Or.inr hworker) (hok p (Or.inr hworker))
      | finished => exact absurd hworker hfinished
      | dead =>
          rw [← hworker]
          exact h
  | other history =>
      simp only [restoreStep] at hstep
      split_ifs at hstep with hlock
      cases hstep
      have hprogress := h.progress
      have hrow : (s.writeLive (Function.update history id (s.live.history id))).live.history id
          = s.live.history id := Function.update_self _ _ _
      refine ⟨?_, h.working, h.alive, h.verdict⟩
      unfold ProgressInv at hprogress ⊢
      rw [hrow]
      exact hprogress
  | reap =>
      simp only [restoreStep] at hstep
      split at hstep
      · rename_i row hworker hrow
        split_ifs at hstep with hrunning
        cases hstep
        exact workerInv_reap h hworker hrow hrunning
      · cases hstep

/-! ## The runs in which every verdict is true -/

theorem workerInv_restoreStarted (id : ℕ) (history : RestoreHistory) :
    WorkerInv id (restoreStarted id history) :=
  .alive_of rfl (Or.inl rfl) rfl ⟨_, Function.update_self _ _ _, rfl, rfl⟩
    (fun hresynced => by cases hresynced) rfl

/-- The verdict on a worker that ends between the rename and its record is wrong. -/
theorem exists_false_verdict {id : ℕ} {s : RestoreState} (h : WorkerInv id s)
    {a : RestoreAction} (hbad : ¬ EndsRecorded s a) :
    ∃ t, run (restoreStep id) s [a, .reap] = some t ∧ ¬ VerdictTrue t := by
  have hends : ∃ p, (s.worker = .running p ∨ s.worker = .handling p) ∧ p.unrecorded = true ∧
      restoreStep id s a = some { s with worker := .dead } := by
    cases a with
    | die =>
        simp only [EndsRecorded, not_forall, Bool.not_eq_false] at hbad
        obtain ⟨p, hworker, hp⟩ := hbad
        refine ⟨p, hworker, hp, if_neg ?_⟩
        rcases hworker with hworker | hworker <;> simp [hworker]
    | fail =>
        simp only [EndsRecorded, not_forall, Bool.not_eq_false] at hbad
        obtain ⟨p, hworker, hp⟩ := hbad
        exact ⟨p, Or.inr hworker, hp, by simp [restoreStep, hworker]⟩
    | touch phase | createWorkingDb | advance | finish dnsWorks | other history | reap =>
        exact (hbad trivial).elim
  obtain ⟨p, hworker, hp, hstep⟩ := hends
  obtain ⟨hcopy, ⟨r, hr, hrunning, hpromoted⟩, -⟩ := h.place hworker
  have hreap : restoreStep id { s with worker := .dead } .reap = some
      { ({ s with worker := .dead } : RestoreState).writeLive
          (finishRestore id .interrupted r.phase s.live.history) with
        verdict := some r.verdict } := by
    simp [restoreStep, hr, hrunning]
  refine ⟨_, by rw [run, hstep, Option.bind_some, run, hreap]; rfl, fun htrue => ?_⟩
  have hverdict := htrue r.verdict rfl
  rw [verdict_eq_swapCommitted, hpromoted, writeLive_isWorkingCopy, hcopy] at hverdict
  exact recorded_ne_of_unrecorded hp hverdict

/-- **The runs in which every verdict is true**, also when the reaper comes next. -/
theorem verdict_iff (id : ℕ) (history : RestoreHistory) (actions : List RestoreAction) :
    (∀ pre post s, pre <+: actions → (∀ a ∈ post, a = .reap) →
      run (restoreStep id) (restoreStarted id history) (pre ++ post) = some s → VerdictTrue s)
      ↔ StepsMeet (restoreStep id) EndsRecorded (restoreStarted id history) actions := by
  have hstart := workerInv_restoreStarted id history
  constructor
  · intro h
    refine stepsMeet_of_inv (fun _ _ _ => workerInv_step) hstart
      fun pre a post s hactions hpre hinv => ?_
    by_contra hbad
    obtain ⟨t, ht, hfalse⟩ := exists_false_verdict hinv hbad
    refine hfalse (h (pre ++ [a]) [.reap] t ⟨post, by simp [hactions]⟩ (by simp) ?_)
    rw [List.append_assoc, run_append, hpre, Option.bind_some, List.singleton_append, ht]
  · rintro hmeet pre post s ⟨rest, rfl⟩ hpost hrun
    rw [run_append, Option.bind_eq_some_iff] at hrun
    obtain ⟨t, ht, hrun⟩ := hrun
    have hinv : WorkerInv id t := run_invariant (fun _ _ _ => workerInv_step) pre
      (restoreStarted id history) t hstart (stepsMeet_append hmeet ht).1 ht
    have hreap : StepsMeet (restoreStep id) EndsRecorded t post :=
      stepsMeet_of_forall fun a ha s => by
        rw [hpost a ha]
        trivial
    exact (run_invariant (fun _ _ _ => workerInv_step) post t s hinv hreap hrun).verdict

/-- The worker is killed after `os.replace`: the live file is the working copy, and the verdict is
that the live database was not modified. -/
theorem promoted_but_not_modified :
    ∃ s, run (restoreStep 1) (restoreStarted 1 fun _ => none)
      [.createWorkingDb, .advance, .advance, .advance, .advance, .die, .reap] = some s ∧
      s.live.isWorkingCopy = true ∧ s.verdict = some .notModified ∧ ¬ VerdictTrue s := by
  refine ⟨_, rfl, rfl, rfl, fun htrue => ?_⟩
  exact absurd ((htrue .notModified rfl).mpr rfl) (by decide)

end AlderpointDNS.Backup
