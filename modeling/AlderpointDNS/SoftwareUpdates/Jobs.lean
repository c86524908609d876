import AlderpointDNS.Lib.Runs
import AlderpointDNS.SoftwareUpdates.Install
import Mathlib.Logic.Function.Basic

/-!
# The life of an update job

The web process records a job, a runner picks the newest pending one and takes it from phase to
phase, and `reap_abandoned_jobs` fails the jobs whose runner is gone, or that no runner has picked
within two minutes.  Each of them reads first and writes later, and none of the writes looks at
what the row has become: `step` is one read, one commit or one `apt-get install`, and the steps of
any number of processes come in any order.

A runner is known by a number that no later process gets again, as the process id, its start and
the boot make it.  What a reaper writes is committed together, after the last of its rows.

* `Unraced` — the runner claims a row that is still pending and nobody's, and the reaper commits a
  verdict on a row that is still as it was read.
* `jobsInv_step` — what a step keeps.
* **`verdicts_stand`** — in a run whose steps are unraced a job stays failed or completed, and a job
  reported without package changes was never installed.
* `verdict_overtaken` — a runner that comes late.
-/

namespace AlderpointDNS.SoftwareUpdates

/-! ## The system -/

/-- A row of `software_update_jobs`. -/
structure JobRow where
  phase : Phase
  requestedAt : ℕ
  worker : Option ℕ
deriving DecidableEq, Repr

/-- What the event of a failed job says. -/
inductive FailureReport where
  | error
  | noPackageChanges
  | packageStateUncertain
deriving DecidableEq, Repr

/-- Where a process is that runs `run_pending_job`. -/
inductive Runner where
  /-- the row is read, the worker not yet recorded -/
  | selected (job : ℕ)
  /-- the last phase that it has set; `pending` before the first -/
  | working (job : ℕ) (phase : Phase)
  /-- `apt-get install` has ended -/
  | installed (job : ℕ)
deriving DecidableEq, Repr

/-- A row that the reaper has decided on: the phase in which it was read, and what it will say. -/
structure ReapVerdict where
  job : ℕ
  readPhase : Phase
  report : FailureReport
deriving DecidableEq, Repr

/-- A call of `reap_abandoned_jobs`: the rows it has read and not looked at yet, and its
verdicts. -/
structure Reaper where
  todo : List (ℕ × JobRow)
  verdicts : List ReapVerdict

structure System where
  /-- in seconds -/
  clock : ℕ
  jobs : ℕ
  rows : ℕ → Option JobRow
  processes : ℕ
  runners : ℕ → Option Runner
  reapers : ℕ → Option Reaper
  /-- `software_update_events` of failed jobs -/
  failures : List (ℕ × FailureReport)
  /-- the jobs that `apt-get install` was executed for -/
  installs : List ℕ

def System.init : System :=
  ⟨0, 0, fun _ => none, 0, fun _ => none, fun _ => none, [], []⟩

/-- `phase IN ('completed', 'failed')`. -/
def Phase.terminal : Phase → Bool
  | .completed | .failed => true
  | _ => false

/-- `PACKAGE_STATE_UNCERTAIN_PHASES`. -/
def Phase.packageStateUncertain : Phase → Bool
  | .installing | .restarting | .postcheck => true
  | _ => false

/-- The phase that `_run_job` sets next, where it does not install first. -/
def Phase.next : Phase → Option Phase
  | .pending => some .checking
  | .checking => some .downloading
  | .downloading => some .validating
  | .validating => some .backingUp
  | .backingUp => some .simulating
  | .simulating => some .installing
  | .restarting => some .postcheck
  | _ => none

/-- `PENDING_DISPATCH_GRACE_SECONDS`. -/
def pendingDispatchGraceSeconds : ℕ := 120

namespace System

/-- `UPDATE software_update_jobs SET phase=? WHERE id=?`. -/
def setPhase (s : System) (job : ℕ) (phase : Phase) : System :=
  { s with
    rows := Function.update s.rows job ((s.rows job).map fun row => { row with phase := phase }) }

/-- `UPDATE software_update_jobs SET worker_pid=?, … WHERE id=?`. -/
def setWorker (s : System) (job p : ℕ) : System :=
  { s with
    rows := Function.update s.rows job ((s.rows job).map fun row => { row with worker := some p }) }

/-- `_fail_job`. -/
def failJob (s : System) (job : ℕ) (report : FailureReport) : System :=
  { s.setPhase job .failed with failures := s.failures ++ [(job, report)] }

def setRunner (s : System) (p : ℕ) (runner : Option Runner) : System :=
  { s with runners := Function.update s.runners p runner }

def setReaper (s : System) (q : ℕ) (reaper : Option Reaper) : System :=
  { s with reapers := Function.update s.reapers q reaper }

/-- The newest pending job. -/
def newestPending (s : System) : Option ℕ :=
  (List.range s.jobs).reverse.find? fun job => (s.rows job).any fun row => row.phase = .pending

/-- `_worker_alive`. -/
def workerAlive (s : System) (row : JobRow) : Bool :=
  row.worker.any fun p => (s.runners p).isSome

/-- What the reaper makes of a row that it has read. -/
def reap (s : System) (job : ℕ) (row : JobRow) : Option ReapVerdict :=
  if s.workerAlive row then none
  else if row.phase = .pending ∧ row.worker = none
      ∧ s.clock - row.requestedAt < pendingDispatchGraceSeconds then none
  else some ⟨job, row.phase,
    if row.phase.packageStateUncertain then .packageStateUncertain else .noPackageChanges⟩

end System

inductive Action where
  /-- `create_github_job`, `create_manual_job` -/
  | create
  | wait (seconds : ℕ)
  /-- a process starts and reads the newest pending row -/
  | select
  /-- the worker is recorded -/
  | claim (p : ℕ)
  /-- the next phase is set -/
  | advance (p : ℕ)
  | aptInstall (p : ℕ)
  /-- an exception in `_run_job` -/
  | raise (p : ℕ)
  /-- the end of `_run_job` -/
  | finish (p : ℕ) (healthy : Bool)
  | crash (p : ℕ)
  /-- a reaper reads the rows that are not terminal -/
  | reapRead (q : ℕ)
  /-- and looks at the next one -/
  | reapCheck (q : ℕ)
  | reapCommit (q : ℕ)
deriving Repr

/-- One step of the web process, of a runner or of a reaper. -/
def step (s : System) : Action → Option System
  | .create => some
      { s with
        jobs := s.jobs + 1
        rows := Function.update s.rows s.jobs (some ⟨.pending, s.clock, none⟩) }
  | .wait seconds => some { s with clock := s.clock + seconds }
  | .select =>
      let t := { s with processes := s.processes + 1 }
      match s.newestPending with
      | none => some t
      | some job => some (t.setRunner s.processes (some (.selected job)))
  | .claim p =>
      match s.runners p with
      | some (.selected job) =>
          some ((s.setWorker job p).setRunner p (some (.working job .pending)))
      | _ => none
  | .advance p =>
      match s.runners p with
      | some (.working job phase) =>
          phase.next.map fun next =>
            (s.setPhase job next).setRunner p (some (.working job next))
      | some (.installed job) =>
          some ((s.setPhase job .restarting).setRunner p (some (.working job .restarting)))
      | _ => none
  | .aptInstall p =>
      match s.runners p with
      | some (.working job .installing) =>
          let t := { s with installs := s.installs ++ [job] }
          some (t.setRunner p (some (.installed job)))
      | _ => none
  | .raise p =>
      match s.runners p with
      | some (.working job _) => some ((s.failJob job .error).setRunner p none)
      | some (.installed job) => some ((s.failJob job .error).setRunner p none)
      | _ => none
  | .finish p healthy =>
      match s.runners p with
      | some (.working job .postcheck) =>
          let t := if healthy then s.setPhase job .completed else s.failJob job .error
          some (t.setRunner p none)
      | _ => none
  | .crash p => (s.runners p).map fun _ => s.setRunner p none
  | .reapRead q =>
      match s.reapers q with
      | some _ => none
      | none =>
          let rows := (List.range s.jobs).filterMap fun job =>
            (s.rows job).map fun row => (job, row)
          some (s.setReaper q (some ⟨rows.filter fun r => !r.2.phase.terminal, []⟩))
  | .reapCheck q =>
      match s.reapers q with
      | some ⟨(job, row) :: todo, verdicts⟩ =>
          some (s.setReaper q (some ⟨todo, verdicts ++ (s.reap job row).toList⟩))
      | _ => none
  | .reapCommit q =>
      match s.reapers q with
      | some ⟨[], verdicts⟩ =>
          let t := verdicts.foldl (fun s v => s.failJob v.job v.report) s
          some (t.setReaper q none)
      | _ => none

/-! ## Writes that meet what was read -/

/-- The row is still as the reaper has read it and nobody is at work on it, or another reaper has
said the same. -/
def System.Stands (s : System) (v : ReapVerdict) : Prop :=
  ∃ row, s.rows v.job = some row
    ∧ ((row.phase = v.readPhase ∧ s.workerAlive row = false)
      ∨ (row.phase = .failed ∧ (v.job, v.report) ∈ s.failures))

/-- The write meets what its process has read: a runner claims a row that is pending and nobody's,
and a reaper commits verdicts on rows that are as it has read them. -/
def Unraced (s : System) : Action → Prop
  | .claim p => ∀ job row, s.runners p = some (.selected job) → s.rows job = some row →
      row.phase = .pending ∧ s.workerAlive row = false
  | .reapCommit q => ∀ reaper, s.reapers q = some reaper → ∀ v ∈ reaper.verdicts, s.Stands v
  | _ => True

/-! ## What the steps keep -/

/-- The job that a runner has claimed, and the phase that it has set last. -/
def Runner.at : Runner → Option (ℕ × Phase)
  | .selected _ => none
  | .working job phase => some (job, phase)
  | .installed job => some (job, .installing)

/-- The installation may have been executed. -/
def Phase.late (phase : Phase) : Bool := phase.packageStateUncertain || phase.terminal

structure ReaperInv (reaper : Reaper) : Prop where
  todo : ∀ r ∈ reaper.todo, r.2.phase.terminal = false
  verdicts : ∀ v ∈ reaper.verdicts, v.readPhase.terminal = false
    ∧ (v.report = .noPackageChanges → v.readPhase.packageStateUncertain = false)
  nodup : (reaper.verdicts.map (·.job) ++ reaper.todo.map (·.1)).Nodup

structure JobsInv (s : System) : Prop where
  rows : ∀ job row, s.rows job = some row → job < s.jobs
  runners : ∀ p runner, s.runners p = some runner → p < s.processes
  workers : ∀ job row p, s.rows job = some row → row.worker = some p → p < s.processes
  selected : ∀ p job, s.runners p = some (.selected job) → ∃ row, s.rows job = some row
  /-- a job that is worked on has its runner as the worker and is in the runner's phase -/
  owner : ∀ p runner job phase, s.runners p = some runner → runner.at = some (job, phase) →
    phase.terminal = false
      ∧ ∃ row, s.rows job = some row ∧ row.worker = some p ∧ row.phase = phase
  late : ∀ job ∈ s.installs, ∃ row, s.rows job = some row ∧ row.phase.late = true
  reported : ∀ job, (job, .noPackageChanges) ∈ s.failures →
    job ∉ s.installs ∧ ∃ row, s.rows job = some row ∧ row.phase = .failed
  reapers : ∀ q reaper, s.reapers q = some reaper → ReaperInv reaper

/-- A job that is failed or completed stays so. -/
def KeepsTerminal (s t : System) : Prop :=
  ∀ job row, s.rows job = some row → row.phase.terminal = true →
    ∃ row', t.rows job = some row' ∧ row'.phase = row.phase

theorem KeepsTerminal.refl (s : System) : KeepsTerminal s s := fun _ row hrow _ => ⟨row, hrow, rfl⟩

theorem KeepsTerminal.trans {s t u : System} (h : KeepsTerminal s t) (h' : KeepsTerminal t u) :
    KeepsTerminal s u := by
  intro job row hrow hterminal
  obtain ⟨row', hrow', hphase⟩ := h job row hrow hterminal
  obtain ⟨row'', hrow'', hphase'⟩ := h' job row' hrow' (hphase ▸ hterminal)
  exact ⟨row'', hrow'', hphase'.trans hphase⟩

theorem jobsInv_init : JobsInv System.init where
  rows := nofun
  runners := nofun
  workers := nofun
  selected := nofun
  owner := nofun
  late := by simp [System.init]
  reported := by simp [System.init]
  reapers := nofun

theorem late_next {phase next : Phase} (h : phase.next = some next) (hlate : phase.late = true) :
    next.late = true := by
  revert hlate
  cases phase <;> cases h <;> decide

theorem terminal_next {phase next : Phase} (h : phase.next = some next) :
    next.terminal = false := by
  cases phase <;> cases h <;> rfl

/-- What a table holds after one entry is set. -/
theorem update_eq_some {α : Type} {f : ℕ → Option α} {i j : ℕ} {x y : α}
    (h : Function.update f i (some x) j = some y) : (j = i ∧ y = x) ∨ (j ≠ i ∧ f j = some y) := by
  by_cases hij : j = i
  · subst hij
    rw [Function.update_self, Option.some.injEq] at h
    exact Or.inl ⟨rfl, h.symm⟩
  · rw [Function.update_of_ne hij] at h
    exact Or.inr ⟨hij, h⟩

section Writes

variable {s : System} {p job : ℕ} {phase next : Phase}

/-- What a row is after `setPhase`. -/
theorem rows_setPhase (s : System) (job : ℕ) (next : Phase) (i : ℕ) :
    (s.setPhase job next).rows i
      = (s.rows i).map fun row => if i = job then { row with phase := next } else row := by
  by_cases h : i = job
  · subst h
    simp [System.setPhase]
  · simp [System.setPhase, h]

/-- The phase of the job that a runner works on is not terminal, so others keep theirs. -/
theorem keepsTerminal_setPhase (hs : JobsInv s) {runner : Runner} (hp : s.runners p = some runner)
    (hat : runner.at = some (job, phase)) : KeepsTerminal s (s.setPhase job next) := by
  obtain ⟨hterminal, row, hrow, -, hphase⟩ := hs.owner p runner job phase hp hat
  intro i row' hrow' hterminal'
  refine ⟨_, by rw [rows_setPhase, hrow']; rfl, ?_⟩
  split_ifs with hi
  · subst hi
    rw [hrow, Option.some.injEq] at hrow'
    rw [← hrow', hphase, hterminal] at hterminal'
    cases hterminal'
  · rfl

/-- The rows are changed in place, but for the rows that are worked on. -/
theorem jobsInv_mapRows (hs : JobsInv s) (f : ℕ → JobRow → JobRow) {rows : ℕ → Option JobRow}
    {failures : List (ℕ × FailureReport)} (hrows : ∀ i, rows i = (s.rows i).map (f i))
    (hworker : ∀ i row, s.rows i = some row → ∀ p, (f i row).worker = some p → p < s.processes)
    (howner : ∀ p runner i phase, s.runners p = some runner → runner.at = some (i, phase) →
      ∀ row, f i row = row)
    (hlate : ∀ i row, s.rows i = some row → row.phase.late = true → (f i row).phase.late = true)
    (hreported : ∀ i, (i, .noPackageChanges) ∈ failures →
      i ∉ s.installs ∧ ∃ row, s.rows i = some row ∧ (f i row).phase = .failed) :
    JobsInv { s with rows := rows, failures := failures } := by
  have hto : ∀ i old, s.rows i = some old → rows i = some (f i old) := by
    intro i old hold
    rw [hrows, hold, Option.map_some]
  have hfrom : ∀ i row, rows i = some row → ∃ old, s.rows i = some old ∧ f i old = row := by
    intro i row hrow
    rw [hrows] at hrow
    exact Option.map_eq_some_iff.mp hrow
  constructor
  · intro i row hrow
    obtain ⟨old, hold, -⟩ := hfrom i row hrow
    exact hs.rows i old hold
  · exact hs.runners
  · intro i row p hrow hw
    obtain ⟨old, hold, rfl⟩ := hfrom i row hrow
    exact hworker i old hold p hw
  · intro p i hsel
    obtain ⟨old, hold⟩ := hs.selected p i hsel
    exact ⟨f i old, hto i old hold⟩
  · intro p r i ph hr hat
    obtain ⟨hterm, old, hold, hw, hph⟩ := hs.owner p r i ph hr hat
    have hsame := hto i old hold
    rw [howner p r i ph hr hat] at hsame
    exact ⟨hterm, old, hsame, hw, hph⟩
  · intro i hi
    obtain ⟨old, hold, hphase⟩ := hs.late i hi
    exact ⟨f i old, hto i old hold, hlate i old hold hphase⟩
  · intro i hi
    obtain ⟨hnot, old, hold, hfailed⟩ := hreported i hi
    exact ⟨hnot, f i old, hto i old hold, hfailed⟩
  · exact hs.reapers

/-- The phase of a job that nobody works on. -/
theorem jobsInv_idle (hs : JobsInv s)
    (hidle : ∀ p runner phase, s.runners p = some runner → runner.at ≠ some (job, phase))
    (hlate : ∀ row, s.rows job = some row → row.phase.late = true → next.late = true)
    {failures : List (ℕ × FailureReport)}
    (hreported : ∀ i, (i, .noPackageChanges) ∈ failures → i ∉ s.installs ∧
      ∃ row, s.rows i = some row ∧ (if i = job then next else row.phase) = .failed) :
    JobsInv { s.setPhase job next with failures := failures } := by
  refine jobsInv_mapRows hs (fun i row => if i = job then { row with phase := next } else row)
    (rows_setPhase s job next) ?_ ?_ ?_ ?_
  · intro i row hrow p hw
    refine hs.workers i row p hrow ?_
    split_ifs at hw <;> exact hw
  · intro p runner i phase hrunner hat row
    refine if_neg ?_
    rintro rfl
    exact hidle p runner phase hrunner hat
  · intro i row hrow hphase
    split_ifs with hi
    · subst hi
      exact hlate row hrow hphase
    · exact hphase
  · intro i hi
    obtain ⟨hnot, row, hrow, hfailed⟩ := hreported i hi
    refine ⟨hnot, row, hrow, ?_⟩
    split_ifs at hfailed ⊢ <;> exact hfailed

/-- A runner that is gone. -/
theorem jobsInv_gone (hs : JobsInv s) (p : ℕ) : JobsInv (s.setRunner p none) := by
  have hrunner : ∀ {p' r}, (s.setRunner p none).runners p' = some r → s.runners p' = some r := by
    intro p' r hr
    by_cases hpp : p' = p
    · subst hpp
      simp [System.setRunner] at hr
    · simpa [System.setRunner, hpp] using hr
  exact
    { hs with
      runners := fun p' r hr => hs.runners p' r (hrunner hr)
      selected := fun p' i hsel => hs.selected p' i (hrunner hsel)
      owner := fun p' r i ph hr hat => hs.owner p' r i ph (hrunner hr) hat }

/-- A runner at work on a job that is its own. -/
theorem jobsInv_put (hs : JobsInv s) {runner : Runner} (hp : p < s.processes)
    (hat : runner.at = some (job, phase)) (hterminal : phase.terminal = false)
    (hrow : ∃ row, s.rows job = some row ∧ row.worker = some p ∧ row.phase = phase) :
    JobsInv (s.setRunner p (some runner)) := by
  constructor
  · exact hs.rows
  · intro p' r hr
    rcases update_eq_some hr with ⟨rfl, -⟩ | ⟨-, hr⟩
    · exact hp
    · exact hs.runners p' r hr
  · exact hs.workers
  · intro p' i hsel
    rcases update_eq_some hsel with ⟨-, rfl⟩ | ⟨-, hsel⟩
    · cases hat
    · exact hs.selected p' i hsel
  · intro p' r i ph hr hat'
    rcases update_eq_some hr with ⟨rfl, rfl⟩ | ⟨-, hr⟩
    · rw [hat, Option.some.injEq, Prod.mk.injEq] at hat'
      obtain ⟨rfl, rfl⟩ := hat'
      exact ⟨hterminal, hrow⟩
    · exact hs.owner p' r i ph hr hat'
  · exact hs.late
  · exact hs.reported
  · exact hs.reapers

/-- **The runner of a job sets its phase** and goes on, or ends. -/
theorem jobsInv_setPhase (hs : JobsInv s) {runner : Runner} (hp : s.runners p = some runner)
    (hat : runner.at = some (job, phase)) (hlate : phase.late = true → next.late = true)
    {runner' : Option Runner}
    (hrunner' : runner' = none ∨ (runner' = some (.working job next) ∧ next.terminal = false)) :
    JobsInv ((s.setPhase job next).setRunner p runner') := by
  obtain ⟨hterminal, row, hrow, hworker, hphase⟩ := hs.owner p runner job phase hp hat
  have hidle : ∀ p' r ph, (s.setRunner p none).runners p' = some r → r.at ≠ some (job, ph) := by
    intro p' r ph hr hat'
    by_cases hpp : p' = p
    · subst hpp
      simp [System.setRunner] at hr
    · have hr : s.runners p' = some r := by
        simpa [System.setRunner, hpp] using hr
      obtain ⟨-, row', hrow', hworker', -⟩ := hs.owner p' r job ph hr hat'
      rw [hrow, Option.some.injEq] at hrow'
      rw [← hrow', hworker, Option.some.injEq] at hworker'
      exact hpp hworker'.symm
  have hset : JobsInv ((s.setRunner p none).setPhase job next) := by
    refine jobsInv_idle (jobsInv_gone hs p) hidle (fun row' hrow' hlate' => ?_) fun i hi => ?_
    · have hsame : row = row' := Option.some.inj (hrow.symm.trans hrow')
      rw [← hsame, hphase] at hlate'
      exact hlate hlate'
    · obtain ⟨hnot, old, hold, hfailed⟩ := hs.reported i hi
      refine ⟨hnot, old, hold, ?_⟩
      rw [if_neg, hfailed]
      rintro rfl
      rw [hrow, Option.some.injEq] at hold
      rw [← hphase, hold, hfailed] at hterminal
      cases hterminal
  rcases hrunner' with rfl | ⟨rfl, hnext⟩
  · exact hset
  · have hown : ∃ row, ((s.setRunner p none).setPhase job next).rows job = some row ∧
        row.worker = some p ∧ row.phase = next := by
      refine ⟨{ row with phase := next }, ?_, hworker, rfl⟩
      rw [rows_setPhase]
      simp [System.setRunner, hrow]
    have hput : JobsInv (((s.setRunner p none).setPhase job next).setRunner p
        (some (.working job next))) := jobsInv_put hset (hs.runners p runner hp) rfl hnext hown
    simpa [System.setRunner, System.setPhase] using hput

theorem jobsInv_error (hs : JobsInv s) (job : ℕ) :
    JobsInv { s with failures := s.failures ++ [(job, .error)] } :=
  { hs with
    reported := fun i hi => hs.reported i (by simpa using hi) }

/-- The failure of a job by its own runner. -/
theorem jobsInv_failJob (hs : JobsInv s) {runner : Runner} (hp : s.runners p = some runner)
    (hat : runner.at = some (job, phase)) :
    JobsInv ((s.failJob job .error).setRunner p none) :=
  jobsInv_error (jobsInv_setPhase hs hp hat (fun _ => rfl) (Or.inl rfl)) job

theorem jobsInv_reaper (hs : JobsInv s) {q : ℕ} {reaper : Option Reaper}
    (h : ∀ r, reaper = some r → ReaperInv r) : JobsInv (s.setReaper q reaper) :=
  { hs with
    reapers := by
      intro q' r hr
      by_cases hqq : q' = q
      · subst hqq
        exact h r (by simpa [System.setReaper] using hr)
      · exact hs.reapers q' r (by simpa [System.setReaper, hqq] using hr) }

end Writes

/-! ## The reaper -/

section Reap

variable {s : System} {v : ReapVerdict}

/-- Nobody works on a row whose worker is gone. -/
theorem not_at_of_dead (hs : JobsInv s) {job : ℕ} {row : JobRow} (hrow : s.rows job = some row)
    (hdead : s.workerAlive row = false) {p : ℕ} {runner : Runner} {phase : Phase}
    (hp : s.runners p = some runner) : runner.at ≠ some (job, phase) := by
  intro hat
  obtain ⟨-, row', hrow', hworker, -⟩ := hs.owner p runner job phase hp hat
  rw [hrow, Option.some.injEq] at hrow'
  rw [System.workerAlive, hrow', hworker] at hdead
  simp [hp] at hdead

/-- **A verdict that stands** can be written. -/
theorem jobsInv_reap (hs : JobsInv s) (hstands : s.Stands v)
    (hread : v.readPhase.terminal = false)
    (hreport : v.report = .noPackageChanges → v.readPhase.packageStateUncertain = false) :
    JobsInv (s.failJob v.job v.report) ∧ KeepsTerminal s (s.failJob v.job v.report) := by
  obtain ⟨row, hrow, hstate⟩ := hstands
  have hrows : ∀ i, (s.failJob v.job v.report).rows i
      = (s.rows i).map fun row => if i = v.job then { row with phase := .failed } else row :=
    rows_setPhase s v.job .failed
  have hphase : row.phase.terminal = true → row.phase = .failed := by
    intro hterminal
    rcases hstate with ⟨h, -⟩ | ⟨h, -⟩
    · rw [h, hread] at hterminal
      cases hterminal
    · exact h
  have hidle : ∀ p runner phase, s.runners p = some runner → runner.at ≠ some (v.job, phase) := by
    intro p runner phase hp hat
    rcases hstate with ⟨-, hdead⟩ | ⟨hfailed, -⟩
    · exact not_at_of_dead hs hrow hdead hp hat
    · obtain ⟨hterminal, row', hrow', -, hphase'⟩ := hs.owner p runner _ phase hp hat
      rw [hrow, Option.some.injEq] at hrow'
      rw [← hphase', ← hrow', hfailed] at hterminal
      cases hterminal
  have hnever : v.report = .noPackageChanges → v.job ∉ s.installs := by
    intro hnone hinstalled
    rcases hstate with ⟨h, -⟩ | ⟨-, hreported⟩
    · obtain ⟨row', hrow', hlate⟩ := hs.late _ hinstalled
      rw [hrow, Option.some.injEq] at hrow'
      rw [← hrow', h, Phase.late, hread, hreport hnone] at hlate
      cases hlate
    · exact (hs.reported _ (hnone ▸ hreported)).1 hinstalled
  constructor
  · refine jobsInv_idle hs hidle (fun _ _ _ => rfl) fun i hi => ?_
    rcases List.mem_append.mp hi with hi | hi
    · obtain ⟨hnot, old, hold, hph⟩ := hs.reported i hi
      exact ⟨hnot, old, hold, by rw [hph, ite_self]⟩
    · rw [List.mem_singleton, Prod.mk.injEq] at hi
      obtain ⟨rfl, hnone⟩ := hi
      exact ⟨hnever hnone.symm, row, hrow, if_pos rfl⟩
  · intro i row' hrow' hterminal
    refine ⟨_, by rw [hrows, hrow']; rfl, ?_⟩
    split_ifs with hi
    · subst hi
      rw [hrow, Option.some.injEq] at hrow'
      rw [← hrow'] at hterminal ⊢
      exact (hphase hterminal).symm
    · rfl

/-- Another verdict does not change whether a verdict stands. -/
theorem stands_failJob {v' : ReapVerdict} (h : s.Stands v') (hne : v'.job ≠ v.job) :
    (s.failJob v.job v.report).Stands v' := by
  obtain ⟨row, hrow, hstate⟩ := h
  have hrow' : (s.failJob v.job v.report).rows v'.job = some row := by
    change (s.setPhase v.job .failed).rows v'.job = some row
    rw [rows_setPhase, hrow]
    simp [hne]
  refine ⟨row, hrow', hstate.imp id fun h => ⟨h.1, ?_⟩⟩
  exact List.mem_append_left _ h.2

/-- **What the reaper commits**, verdict by verdict. -/
theorem jobsInv_reapAll {verdicts : List ReapVerdict} (hs : JobsInv s)
    (hstands : ∀ v ∈ verdicts, s.Stands v)
    (hverdicts : ∀ v ∈ verdicts, v.readPhase.terminal = false
      ∧ (v.report = .noPackageChanges → v.readPhase.packageStateUncertain = false))
    (hnodup : (verdicts.map (·.job)).Nodup) :
    JobsInv (verdicts.foldl (fun s v => s.failJob v.job v.report) s)
      ∧ KeepsTerminal s (verdicts.foldl (fun s v => s.failJob v.job v.report) s) := by
  induction verdicts generalizing s with
  | nil => exact ⟨hs, KeepsTerminal.refl s⟩
  | cons v verdicts ih =>
      obtain ⟨hv, hstands⟩ := List.forall_mem_cons.mp hstands
      obtain ⟨hread, hverdicts⟩ := List.forall_mem_cons.mp hverdicts
      obtain ⟨hnot, hnodup⟩ := List.nodup_cons.mp hnodup
      obtain ⟨hinv, hkeeps⟩ := jobsInv_reap hs hv hread.1 hread.2
      have hrest : ∀ v' ∈ verdicts, (s.failJob v.job v.report).Stands v' := by
        intro v' hv'
        exact stands_failJob (hstands v' hv') fun heq =>
          hnot (List.mem_map.mpr ⟨v', hv', heq⟩)
      obtain ⟨hinv', hkeeps'⟩ := ih hinv hrest hverdicts hnodup
      exact ⟨hinv', hkeeps.trans hkeeps'⟩

end Reap

/-! ## Steps and runs -/

section Steps

variable {s t : System}

theorem newestPending_spec {job : ℕ} (h : s.newestPending = some job) :
    ∃ row, s.rows job = some row := by
  have hpending := List.find?_some h
  cases hrow : s.rows job with
  | none => simp [hrow] at hpending
  | some row => exact ⟨row, rfl⟩

theorem jobsInv_create (hs : JobsInv s) : step s .create = some t →
    JobsInv t ∧ KeepsTerminal s t := by
  intro h
  cases h
  have hfree : s.rows s.jobs = none := by
    cases hrow : s.rows s.jobs with
    | none => rfl
    | some row => exact absurd (hs.rows _ row hrow) (lt_irrefl _)
  have hold : ∀ i row, s.rows i = some row →
      Function.update s.rows s.jobs (some ⟨.pending, s.clock, none⟩) i = some row := by
    intro i row hrow
    rw [Function.update_of_ne, hrow]
    rintro rfl
    rw [hfree] at hrow
    cases hrow
  refine ⟨?_, fun i row hrow _ => ⟨row, hold i row hrow, rfl⟩⟩
  constructor
  · intro i row hrow
    rcases update_eq_some hrow with ⟨rfl, -⟩ | ⟨-, hrow⟩
    · exact Nat.lt_succ_self _
    · exact Nat.lt_succ_of_lt (hs.rows i row hrow)
  · exact hs.runners
  · intro i row p hrow hw
    rcases update_eq_some hrow with ⟨-, rfl⟩ | ⟨-, hrow⟩
    · cases hw
    · exact hs.workers i row p hrow hw
  · intro p i hsel
    obtain ⟨row, hrow⟩ := hs.selected p i hsel
    exact ⟨row, hold i row hrow⟩
  · intro p r i ph hr hat
    obtain ⟨hterm, row, hrow, hrest⟩ := hs.owner p r i ph hr hat
    exact ⟨hterm, row, hold i row hrow, hrest⟩
  · intro i hi
    obtain ⟨row, hrow, hlate⟩ := hs.late i hi
    exact ⟨row, hold i row hrow, hlate⟩
  · intro i hi
    obtain ⟨hnot, row, hrow, hfailed⟩ := hs.reported i hi
    exact ⟨hnot, row, hold i row hrow, hfailed⟩
  · exact hs.reapers

theorem jobsInv_select (hs : JobsInv s) (h : step s .select = some t) :
    JobsInv t ∧ KeepsTerminal s t := by
  have hmore : JobsInv { s with processes := s.processes + 1 } :=
    { hs with
      runners := fun p r hr => Nat.lt_succ_of_lt (hs.runners p r hr)
      workers := fun i row p hrow hw => Nat.lt_succ_of_lt (hs.workers i row p hrow hw) }
  simp only [step] at h
  split at h
  · cases h
    exact ⟨hmore, KeepsTerminal.refl s⟩
  · rename_i job hjob
    cases h
    refine ⟨?_, KeepsTerminal.refl s⟩
    constructor
    · exact hs.rows
    · intro p r hr
      rcases update_eq_some hr with ⟨rfl, -⟩ | ⟨-, hr⟩
      · exact Nat.lt_succ_self _
      · exact Nat.lt_succ_of_lt (hs.runners p r hr)
    · exact hmore.workers
    · intro p i hsel
      rcases update_eq_some hsel with ⟨-, hi⟩ | ⟨-, hsel⟩
      · cases hi
        exact newestPending_spec hjob
      · exact hs.selected p i hsel
    · intro p r i ph hr hat
      rcases update_eq_some hr with ⟨-, rfl⟩ | ⟨-, hr⟩
      · cases hat
      · exact hs.owner p r i ph hr hat
    · exact hs.late
    · exact hs.reported
    · exact hs.reapers

theorem jobsInv_claim (hs : JobsInv s) {p : ℕ} (hok : Unraced s (.claim p))
    (h : step s (.claim p) = some t) : JobsInv t ∧ KeepsTerminal s t := by
  simp only [step] at h
  split at h
  · rename_i job hp
    cases h
    obtain ⟨row, hrow⟩ := hs.selected p job hp
    obtain ⟨hpending, hdead⟩ := hok job row hp hrow
    have hrows : ∀ i, (s.setWorker job p).rows i
        = (s.rows i).map fun row => if i = job then { row with worker := some p } else row := by
      intro i
      change (Function.update s.rows job _) i = _
      by_cases hi : i = job
      · subst hi
        simp
      · simp [hi]
    have hidle : ∀ p' runner i phase, s.runners p' = some runner → runner.at = some (i, phase) →
        i ≠ job := by
      rintro p' runner i phase hrunner hat rfl
      exact not_at_of_dead hs hrow hdead hrunner hat
    have hclaimed : JobsInv (s.setWorker job p) := by
      refine jobsInv_mapRows hs _ hrows ?_ ?_ ?_ ?_
      · intro i old hold p' hw
        split_ifs at hw
        · rw [← Option.some.inj hw]
          exact hs.runners p _ hp
        · exact hs.workers i old p' hold hw
      · exact fun p' runner i phase hrunner hat old => if_neg (hidle p' runner i phase hrunner hat)
      · intro i old _ hlate
        split_ifs <;> exact hlate
      · intro i hi
        obtain ⟨hnot, old, hold, hfailed⟩ := hs.reported i hi
        refine ⟨hnot, old, hold, ?_⟩
        split_ifs <;> exact hfailed
    constructor
    · refine jobsInv_put hclaimed (hs.runners p _ hp) rfl rfl ⟨{ row with worker := some p }, ?_⟩
      exact ⟨by rw [hrows, hrow]; simp, rfl, hpending⟩
    · intro i old hold _
      refine ⟨_, by rw [System.setRunner, hrows, hold]; rfl, ?_⟩
      split_ifs <;> rfl
  · cases h

theorem jobsInv_aptInstall (hs : JobsInv s) {p : ℕ} (h : step s (.aptInstall p) = some t) :
    JobsInv t ∧ KeepsTerminal s t := by
  simp only [step] at h
  split at h
  · rename_i job hp
    cases h
    obtain ⟨hterminal, row, hrow, hworker, hphase⟩ := hs.owner p _ job .installing hp rfl
    have hinstalled : JobsInv { s with installs := s.installs ++ [job] } :=
      { hs with
        late := by
          intro i hi
          rcases List.mem_append.mp hi with hi | hi
          · exact hs.late i hi
          · rw [List.mem_singleton.mp hi]
            exact ⟨row, hrow, by rw [hphase]; rfl⟩
        reported := by
          intro i hi
          obtain ⟨hnot, old, hold, hfailed⟩ := hs.reported i hi
          refine ⟨fun hmem => ?_, old, hold, hfailed⟩
          rcases List.mem_append.mp hmem with hmem | hmem
          · exact hnot hmem
          · rw [List.mem_singleton.mp hmem, hrow, Option.some.injEq] at hold
            rw [← hold, hphase] at hfailed
            cases hfailed }
    exact ⟨jobsInv_put hinstalled (hs.runners p _ hp) rfl hterminal ⟨row, hrow, hworker, hphase⟩,
      KeepsTerminal.refl s⟩
  · cases h

theorem reap_spec {job : ℕ} {row : JobRow} {v : ReapVerdict} (h : s.reap job row = some v) :
    v.job = job ∧ v.readPhase = row.phase
      ∧ (v.report = .noPackageChanges → row.phase.packageStateUncertain = false) := by
  unfold System.reap at h
  split_ifs at h with halive hpending huncertain
  · cases h
    exact ⟨rfl, rfl, nofun⟩
  · cases h
    exact ⟨rfl, rfl, fun _ => Bool.eq_false_of_not_eq_true huncertain⟩

theorem reaperInv_check {job : ℕ} {row : JobRow} {todo : List (ℕ × JobRow)}
    {verdicts : List ReapVerdict} (h : ReaperInv ⟨(job, row) :: todo, verdicts⟩) :
    ReaperInv ⟨todo, verdicts ++ (s.reap job row).toList⟩ := by
  obtain ⟨hrow, htodo⟩ := List.forall_mem_cons.mp h.todo
  have hnodup := h.nodup
  cases hreap : s.reap job row with
  | none =>
      refine ⟨htodo, by simpa using h.verdicts, ?_⟩
      rw [Option.toList_none, List.append_nil]
      exact hnodup.sublist ((List.sublist_cons_self _ _).append_left _)
  | some v =>
      obtain ⟨hjob, hread, hreport⟩ := reap_spec hreap
      refine ⟨htodo, fun x hx => ?_, ?_⟩
      · rcases List.mem_append.mp hx with hx | hx
        · exact h.verdicts x hx
        · rw [List.mem_singleton.mp hx, hread]
          exact ⟨hrow, hreport⟩
      · simpa [hjob] using hnodup

theorem reaperInv_read (s : System) : ReaperInv
    ⟨((List.range s.jobs).filterMap fun job => (s.rows job).map fun row => (job, row)).filter
      fun r => !r.2.phase.terminal, []⟩ := by
  refine ⟨fun r hr => by simpa using (List.mem_filter.mp hr).2, by simp, ?_⟩
  have hsub : (((List.range s.jobs).filterMap fun job => (s.rows job).map fun row =>
      (job, row)).map (·.1)).Sublist (List.range s.jobs) := by
    induction List.range s.jobs with
    | nil => exact List.Sublist.refl _
    | cons i is ih =>
        cases hrow : s.rows i with
        | none => simpa [hrow] using ih.cons i
        | some row => simpa [hrow] using ih.cons_cons i
  have hfilter := (List.filter_sublist (p := fun r : ℕ × JobRow => !r.2.phase.terminal)
    (l := (List.range s.jobs).filterMap fun job => (s.rows job).map fun row => (job, row))).map
    (·.1)
  simpa using List.nodup_range.sublist (hfilter.trans hsub)

/-- **What an unraced step keeps.** -/
theorem jobsInv_step (hs : JobsInv s) {a : Action} (hok : Unraced s a) (h : step s a = some t) :
    JobsInv t ∧ KeepsTerminal s t := by
  cases a with
  | create => exact jobsInv_create hs h
  | wait seconds =>
      cases h
      exact ⟨{ hs with }, KeepsTerminal.refl s⟩
  | select => exact jobsInv_select hs h
  | claim p => exact jobsInv_claim hs hok h
  | advance p =>
      simp only [step] at h
      split at h
      · rename_i job phase hp
        obtain ⟨next, hnext, rfl⟩ := Option.map_eq_some_iff.mp h
        exact ⟨jobsInv_setPhase hs hp rfl (late_next hnext) (Or.inr ⟨rfl, terminal_next hnext⟩),
          keepsTerminal_setPhase hs hp rfl⟩
      · rename_i job hp
        cases h
        exact ⟨jobsInv_setPhase hs hp rfl (fun _ => rfl) (Or.inr ⟨rfl, rfl⟩),
          keepsTerminal_setPhase hs hp rfl⟩
      · cases h
  | aptInstall p => exact jobsInv_aptInstall hs h
  | raise p =>
      simp only [step] at h
      split at h
      · rename_i hp
        cases h
        exact ⟨jobsInv_failJob hs hp rfl, keepsTerminal_setPhase hs hp rfl⟩
      · rename_i hp
        cases h
        exact ⟨jobsInv_failJob hs hp rfl, keepsTerminal_setPhase hs hp rfl⟩
      · cases h
  | finish p healthy =>
      simp only [step] at h
      split at h
      · rename_i job hp
        cases h
        cases healthy with
        | false => exact ⟨jobsInv_failJob hs hp rfl, keepsTerminal_setPhase hs hp rfl⟩
        | true =>
            exact ⟨jobsInv_setPhase hs hp rfl (fun _ => rfl) (Or.inl rfl),
              keepsTerminal_setPhase hs hp rfl⟩
      · cases h
  | crash p =>
      obtain ⟨runner, -, rfl⟩ := Option.map_eq_some_iff.mp h
      exact ⟨jobsInv_gone hs p, KeepsTerminal.refl s⟩
  | reapRead q =>
      simp only [step] at h
      split at h
      · cases h
      · cases h
        refine ⟨jobsInv_reaper hs fun r hr => ?_, KeepsTerminal.refl s⟩
        cases hr
        exact reaperInv_read s
  | reapCheck q =>
      simp only [step] at h
      split at h
      · rename_i job row todo verdicts hq
        cases h
        refine ⟨jobsInv_reaper hs fun r hr => ?_, KeepsTerminal.refl s⟩
        cases hr
        exact reaperInv_check (hs.reapers q _ hq)
      · cases h
  | reapCommit q =>
      simp only [step] at h
      split at h
      · rename_i verdicts hq
        cases h
        have hreaper := hs.reapers q _ hq
        obtain ⟨hinv, hkeeps⟩ := jobsInv_reapAll hs (hok _ hq) hreaper.verdicts
          (by simpa using hreaper.nodup)
        exact ⟨jobsInv_reaper hinv fun r hr => (nomatch hr), hkeeps⟩
      · cases h

end Steps

/-- What is reported of a job in the state reached by `as` is true of it after any further steps:
a failed or completed job stays so, and a job that was reported without package changes is never
installed. -/
def VerdictsStand (as bs : List Action) : Prop :=
  ∀ s t, Runs.run step System.init as = some s → Runs.run step s bs = some t →
    (∀ job row, s.rows job = some row → row.phase.terminal = true →
        ∃ row', t.rows job = some row' ∧ row'.phase = row.phase)
      ∧ ∀ job, (job, .noPackageChanges) ∈ t.failures → job ∉ t.installs

/-- **What is reported of a job stands** in every run whose steps are unraced. -/
theorem verdicts_stand (as bs : List Action)
    (h : Runs.StepsMeet step Unraced System.init (as ++ bs)) : VerdictsStand as bs := by
  intro s t hs ht
  obtain ⟨has, hbs⟩ := Runs.stepsMeet_append h hs
  have hinv : JobsInv s := Runs.run_invariant
    (fun s a t hinv hok hstep => (jobsInv_step hinv hok hstep).1) as System.init s jobsInv_init
    has hs
  have hkept : ∀ u a u', JobsInv u ∧ KeepsTerminal s u → Unraced u a → step u a = some u' →
      JobsInv u' ∧ KeepsTerminal s u' := by
    intro u a u' hu hok hstep
    obtain ⟨hinv', hkeeps'⟩ := jobsInv_step hu.1 hok hstep
    exact ⟨hinv', hu.2.trans hkeeps'⟩
  have hkeeps : JobsInv t ∧ KeepsTerminal s t :=
    Runs.run_invariant hkept bs s t ⟨hinv, KeepsTerminal.refl s⟩ hbs ht
  exact ⟨hkeeps.2, fun job hjob => (hkeeps.1.reported job hjob).1⟩

/-- A runner that dies as soon as it has claimed a job, which is then reported. -/
def abandonedRun : List Action :=
  [.create, .select, .claim 0, .crash 0, .reapRead 0, .reapCheck 0, .reapCommit 0]

theorem verdicts_stand_abandoned : VerdictsStand abandonedRun [.create] := by
  refine verdicts_stand abandonedRun [.create] ?_
  refine Runs.stepsMeet_cons trivial rfl (Runs.stepsMeet_cons trivial rfl ?_)
  refine Runs.stepsMeet_cons ?_ rfl (Runs.stepsMeet_cons trivial rfl ?_)
  · rintro job row hjob hrow
    cases hjob
    cases hrow
    exact ⟨rfl, rfl⟩
  refine Runs.stepsMeet_cons trivial rfl (Runs.stepsMeet_cons trivial rfl ?_)
  refine Runs.stepsMeet_cons ?_ rfl (Runs.stepsMeet_cons trivial rfl trivial)
  rintro reaper hreaper v hv
  cases hreaper
  rw [List.mem_singleton.mp hv]
  exact ⟨_, rfl, Or.inl ⟨rfl, rfl⟩⟩

/-- A runner that reads the row of a job, and goes on when the job has been given up. -/
def overtakenRun : List Action :=
  [.create, .select, .wait 120, .reapRead 0, .reapCheck 0, .reapCommit 0]

/-- **A runner that comes late**: the job is reported without package changes, and then it is
installed. -/
theorem verdict_overtaken : ¬ ∀ as bs, VerdictsStand as bs := by
  intro h
  have hlate := h overtakenRun [.claim 0, .advance 0, .advance 0, .advance 0, .advance 0,
    .advance 0, .advance 0, .aptInstall 0] _ _ rfl rfl
  exact hlate.2 0 (by decide) (by decide)

end AlderpointDNS.SoftwareUpdates
