import AlderpointDNS.Lib.Text
import AlderpointDNS.SoftwareUpdates.Jobs

/-!
# One update at a time

The routes that install an update read the newest job, refuse while it is in progress, and record
their own job later.  The handlers are coroutines of one event loop: a handler that waits for a
chunk of an upload lets the others run, and otherwise none runs before it is answered.  The runner
is a oneshot unit, so that starting it does nothing while it runs, and the page reads the status in
a thread of its own, which reaps abandoned jobs as the two routes do.

* `Narrows` — no job is taken up again, none is added, and no runner starts.
* `server_cases` — what a step of the web server or of the unit does.
* `serverInv_step` — only the newest job is in progress, and the unit runs once.
* **`jobs_serialized`** — in every run there is one runner at a time, and where an upload is
  recorded after the newest job has ended, and a runner does not go on with a job that has ended,
  one job at a time is in progress.
* `two_jobs_pending` — an install comes while an upload streams in.
-/

namespace AlderpointDNS.SoftwareUpdates

open Text

/-! ## The requests -/

inductive RouteKind where
  /-- the page, which only shows the status -/
  | page
  | install
  | upload (filename : Str)
deriving DecidableEq

inductive RoutePhase where
  | arrived
  /-- in `reap_abandoned_jobs` -/
  | reaping
  | reaped
  /-- an upload that waits for its next chunk, after so many bytes -/
  | streaming (total : ℕ)
  /-- the job is recorded next -/
  | admitted
  | recorded (job : ℕ)
  | answered (error : Option Str)
deriving DecidableEq

structure RouteRequest where
  kind : RouteKind
  phase : RoutePhase
deriving DecidableEq

/-- What `update_status` returns besides the job. -/
structure StatusView where
  latestRelease : Bool
  dpkgManaged : Bool
  mismatch : Bool

def noUpdateAvailable : Str := "no update is currently available -- check for updates first".toList

def unmanagedSource : Str :=
  "Software Updates: unmanaged source installation -- cannot install a package here".toList

def versionDrift : Str :=
  "installed VERSION/dpkg version drift detected -- resolve this before installing an update".toList

def updateInProgress : Str := "an update is already in progress".toList

def notDebPackage : Str := "uploaded file must be a .deb package".toList

def uploadTooLarge : Str := "uploaded package exceeds the 512 MiB limit".toList

def uploadEmpty : Str := "uploaded file is empty".toList

def runnerNotStarted (output : Str) : Str := "failed to start the update runner: ".toList ++ output

/-- `MAX_UPLOAD_BYTES`. -/
def maxUploadBytes : ℕ := 512 * 1024 * 1024

/-- `latest_job`. -/
def System.latestJob (s : System) : Option JobRow :=
  if s.jobs = 0 then none else s.rows (s.jobs - 1)

/-- `existing_job and existing_job.get("phase") not in ("completed", "failed")`. -/
def inProgress (job : Option JobRow) : Bool := job.any fun row => !row.phase.terminal

/-- The name that `begin_manual_upload` takes. -/
def isDebName (filename : Str) : Bool :=
  let name := if filename = [] then "upload.deb".toList else filename
  endsWith name ".deb".toList && !name.contains '/'

/-- What the handler raises before the upload, or before the job is recorded. -/
def statusError (kind : RouteKind) (view : StatusView) (job : Option JobRow) : Option Str :=
  match kind with
  | .page => none
  | .install =>
      if view.latestRelease = false then some noUpdateAvailable
      else if view.dpkgManaged = false then some unmanagedSource
      else if view.mismatch then some versionDrift
      else if inProgress job then some updateInProgress
      else none
  | .upload filename =>
      if view.dpkgManaged = false then some unmanagedSource
      else if inProgress job then some updateInProgress
      else if isDebName filename = false then some notDebPackage
      else none

/-- Where a handler goes on that has read the status. -/
def afterStatus (kind : RouteKind) (view : StatusView) (job : Option JobRow) : RoutePhase :=
  match statusError kind view job with
  | some error => .answered (some error)
  | none =>
      match kind with
      | .page => .answered none
      | .install => .admitted
      | .upload _ => .streaming 0

/-- Where an upload goes on after a chunk; an empty one is the end. -/
def afterChunk (total size : ℕ) : RoutePhase :=
  if size = 0 then
    if total = 0 then .answered (some uploadEmpty) else .admitted
  else if maxUploadBytes < total + size then .answered (some uploadTooLarge)
  else .streaming (total + size)

/-- The handler waits, or is done. -/
def RoutePhase.yields : RoutePhase → Bool
  | .streaming _ => true
  | .answered _ => true
  | _ => false

/-! ## The server -/

structure UpdateServer where
  system : System
  requests : List RouteRequest
  /-- the request whose handler runs in the event loop -/
  loop : Option ℕ
  /-- the unit is to be started -/
  starting : Bool

inductive ServerAction where
  | arrive (kind : RouteKind)
  | readRows (i : ℕ)
  | checkRow (i : ℕ)
  | commitVerdicts (i : ℕ)
  | readStatus (i : ℕ) (view : StatusView)
  | readChunk (i : ℕ) (size : ℕ)
  | recordJob (i : ℕ)
  /-- `systemctl start --no-block`, which may fail -/
  | startRunner (i : ℕ) (failure : Option Str)
  | raise (i : ℕ) (error : Str)
  /-- the unit executes `run_pending_job` -/
  | spawn
  /-- a step of the runner, or time -/
  | runner (a : Action)

/-- What a runner does, but for its start. -/
def Action.isRunners : Action → Bool
  | .wait _ | .claim _ | .advance _ | .aptInstall _ | .raise _ | .finish _ _ | .crash _ => true
  | _ => false

/-- A runner is there. -/
def System.unitActive (s : System) : Bool :=
  (List.range s.processes).any fun p => (s.runners p).isSome

namespace UpdateServer

/-- The event loop is free, or the handler has it; the page has a thread of its own. -/
def MayRun (s : UpdateServer) (i : ℕ) (r : RouteRequest) : Prop :=
  r.kind = .page ∨ s.loop = none ∨ s.loop = some i

instance (s : UpdateServer) (i : ℕ) (r : RouteRequest) : Decidable (s.MayRun i r) :=
  inferInstanceAs (Decidable (_ ∨ _ ∨ _))

/-- The handler goes on to `phase`, with these jobs. -/
def proceed (s : UpdateServer) (i : ℕ) (r : RouteRequest) (phase : RoutePhase) (t : System) :
    UpdateServer :=
  { s with
    system := t
    requests := s.requests.set i { r with phase := phase }
    loop := if r.kind = .page then s.loop else if phase.yields then none else some i }

end UpdateServer

/-- One statement of a handler. -/
def handlerStep (s : UpdateServer) (i : ℕ) (r : RouteRequest) : ServerAction → Option UpdateServer
  | .readRows _ =>
      if r.phase = .arrived then (step s.system (.reapRead i)).map (s.proceed i r .reaping)
      else none
  | .checkRow _ =>
      if r.phase = .reaping then (step s.system (.reapCheck i)).map (s.proceed i r .reaping)
      else none
  | .commitVerdicts _ =>
      if r.phase = .reaping then (step s.system (.reapCommit i)).map (s.proceed i r .reaped)
      else none
  | .readStatus _ view =>
      if r.phase = .reaped then
        some (s.proceed i r (afterStatus r.kind view s.system.latestJob) s.system)
      else none
  | .readChunk _ size =>
      match r.kind, r.phase with
      | .upload _, .streaming total => some (s.proceed i r (afterChunk total size) s.system)
      | _, _ => none
  | .recordJob _ =>
      if r.kind ≠ .page ∧ r.phase = .admitted then
        (step s.system .create).map (s.proceed i r (.recorded s.system.jobs))
      else none
  | .startRunner _ failure =>
      match r.phase, failure with
      | .recorded _, some output =>
          some (s.proceed i r (.answered (some (runnerNotStarted output))) s.system)
      | .recorded _, none =>
          some { s.proceed i r (.answered none) s.system with
            starting := s.starting || !s.system.unitActive }
      | _, _ => none
  | .raise _ error =>
      match r.phase with
      | .answered _ => none
      | _ => some (s.proceed i r (.answered (some error)) (s.system.setReaper i none))
  | _ => none

/-- One step of a handler, of the unit or of a runner. -/
def serverStep (s : UpdateServer) (a : ServerAction) : Option UpdateServer :=
  match a with
  | .arrive kind => some { s with requests := s.requests ++ [⟨kind, .arrived⟩] }
  | .spawn =>
      if s.starting then
        (step s.system .select).map fun t => { s with system := t, starting := false }
      else none
  | .runner b =>
      if b.isRunners then (step s.system b).map fun t => { s with system := t } else none
  | .readRows i | .checkRow i | .commitVerdicts i | .readStatus i _ | .readChunk i _
  | .recordJob i | .startRunner i _ | .raise i _ =>
      (s.requests[i]?).bind fun r => if s.MayRun i r then handlerStep s i r a else none

def UpdateServer.init : UpdateServer := ⟨System.init, [], none, false⟩

/-! ## What is claimed -/

/-- At most one job is in progress. -/
def System.OneJob (s : System) : Prop :=
  ∀ job job' row row', s.rows job = some row → s.rows job' = some row' →
    row.phase.terminal = false → row'.phase.terminal = false → job = job'

/-- At most one job is executed. -/
def System.OneRunner (s : System) : Prop :=
  ∀ p p', s.runners p ≠ none → s.runners p' ≠ none → p = p'

/-- An upload is recorded while the newest job has ended, and a runner goes on with a job that has
not. -/
def UpdateServer.Meets (s : UpdateServer) : ServerAction → Prop
  | .recordJob i => ∀ filename, s.requests[i]? = some ⟨.upload filename, .admitted⟩ →
      inProgress s.system.latestJob = false
  | .runner (.advance p) => ∀ runner job phase row, s.system.runners p = some runner →
      runner.at = some (job, phase) → s.system.rows job = some row → row.phase.terminal = false
  | _ => True

/-! ## The jobs -/

section Jobs

variable {s t u : System} {p job : ℕ} {next : Phase}

/-- No job is taken up again, and none is added. -/
structure Narrows (s t : System) : Prop where
  jobs : t.jobs = s.jobs
  rows : ∀ job row', t.rows job = some row' →
    ∃ row, s.rows job = some row ∧ (row'.phase.terminal = false → row.phase.terminal = false)

/-- No runner starts. -/
structure KeepsRunners (s t : System) : Prop where
  processes : t.processes = s.processes
  runners : ∀ p, t.runners p ≠ none → s.runners p ≠ none

theorem Narrows.of_eq (hjobs : t.jobs = s.jobs) (hrows : t.rows = s.rows) : Narrows s t :=
  ⟨hjobs, fun _ row h => ⟨row, hrows ▸ h, id⟩⟩

theorem KeepsRunners.of_eq (hprocesses : t.processes = s.processes)
    (hrunners : t.runners = s.runners) : KeepsRunners s t :=
  ⟨hprocesses, fun _ h => hrunners ▸ h⟩

theorem Narrows.trans (h : Narrows s t) (h' : Narrows t u) : Narrows s u where
  jobs := h'.jobs.trans h.jobs
  rows job row' hrow' := by
    obtain ⟨row, hrow, hopen⟩ := h'.rows job row' hrow'
    obtain ⟨row₀, hrow₀, hopen₀⟩ := h.rows job row hrow
    exact ⟨row₀, hrow₀, fun h => hopen₀ (hopen h)⟩

theorem narrows_setPhase (h : next.terminal = true ∨
    ∀ row, s.rows job = some row → row.phase.terminal = false) :
    Narrows s (s.setPhase job next) where
  jobs := rfl
  rows i row' hrow' := by
    rw [rows_setPhase, Option.map_eq_some_iff] at hrow'
    obtain ⟨row, hrow, rfl⟩ := hrow'
    refine ⟨row, hrow, fun hopen => ?_⟩
    split at hopen
    · rename_i hi
      subst hi
      rcases h with hterminal | h
      · exact Bool.noConfusion (hterminal.symm.trans hopen)
      · exact h row hrow
    · exact hopen

theorem narrows_setWorker : Narrows s (s.setWorker job p) where
  jobs := rfl
  rows i row' hrow' := by
    by_cases hi : i = job
    · subst hi
      rw [System.setWorker] at hrow'
      simp only [Function.update_self, Option.map_eq_some_iff] at hrow'
      obtain ⟨row, hrow, rfl⟩ := hrow'
      exact ⟨row, hrow, id⟩
    · rw [System.setWorker] at hrow'
      simp only [Function.update_of_ne hi] at hrow'
      exact ⟨row', hrow', id⟩

theorem narrows_failJob {report : FailureReport} : Narrows s (s.failJob job report) := by
  have h : Narrows s (s.setPhase job .failed) := narrows_setPhase (.inl rfl)
  exact ⟨h.jobs, h.rows⟩

theorem failJobs_spec (verdicts : List ReapVerdict) (s : System) :
    Narrows s (verdicts.foldl (fun s v => s.failJob v.job v.report) s) ∧
      KeepsRunners s (verdicts.foldl (fun s v => s.failJob v.job v.report) s) := by
  induction verdicts generalizing s with
  | nil => exact ⟨.of_eq rfl rfl, .of_eq rfl rfl⟩
  | cons v verdicts ih =>
      obtain ⟨hnarrows, hkeeps⟩ := ih (s.failJob v.job v.report)
      exact ⟨narrows_failJob.trans hnarrows, hkeeps.processes, hkeeps.runners⟩

/-- **What a reaper does.** -/
theorem reaper_spec (q : ℕ) {a : Action} (ha : a ∈ [.reapRead q, .reapCheck q, .reapCommit q])
    (h : step s a = some t) : Narrows s t ∧ KeepsRunners s t := by
  simp only [List.mem_cons, List.not_mem_nil, or_false] at ha
  rcases ha with rfl | rfl | rfl
  · simp only [step] at h
    split at h
    · cases h
    · cases h
      exact ⟨.of_eq rfl rfl, .of_eq rfl rfl⟩
  · simp only [step] at h
    split at h
    · cases h
      exact ⟨.of_eq rfl rfl, .of_eq rfl rfl⟩
    · cases h
  · simp only [step] at h
    split at h
    · cases h
      obtain ⟨hnarrows, hkeeps⟩ := failJobs_spec _ s
      exact ⟨⟨hnarrows.jobs, hnarrows.rows⟩, hkeeps.processes, hkeeps.runners⟩
    · cases h

/-- A runner that goes on, or is gone. -/
theorem keepsRunners_setRunner {runner : Option Runner} (h : KeepsRunners s t)
    (hp : runner ≠ none → s.runners p ≠ none) : KeepsRunners s (t.setRunner p runner) where
  processes := h.processes
  runners p' hp' := by
    rw [System.setRunner] at hp'
    by_cases hpp : p' = p
    · subst hpp
      simp only [Function.update_self] at hp'
      exact hp hp'
    · simp only [Function.update_of_ne hpp] at hp'
      exact h.runners p' hp'

theorem keepsRunners_runner {a : Action} (ha : a.isRunners = true) (h : step s a = some t) :
    KeepsRunners s t := by
  have hset : ∀ {u : System} {p runner runner'}, u.processes = s.processes →
      u.runners = s.runners → s.runners p = some runner →
        KeepsRunners s (u.setRunner p runner') := by
    intro u p runner runner' hprocesses hrunners hp
    exact keepsRunners_setRunner (.of_eq hprocesses hrunners) fun _ => by simp [hp]
  cases a with
  | create | select | reapRead | reapCheck | reapCommit => exact Bool.noConfusion ha
  | wait seconds =>
      cases h
      exact .of_eq rfl rfl
  | claim p =>
      simp only [step] at h
      split at h
      · rename_i hp
        cases h
        exact hset rfl rfl hp
      · cases h
  | advance p =>
      simp only [step] at h
      split at h
      · rename_i hp
        obtain ⟨next, -, rfl⟩ := Option.map_eq_some_iff.mp h
        exact hset rfl rfl hp
      · rename_i hp
        cases h
        exact hset rfl rfl hp
      · cases h
  | aptInstall p =>
      simp only [step] at h
      split at h
      · rename_i hp
        cases h
        exact hset rfl rfl hp
      · cases h
  | raise p =>
      simp only [step] at h
      split at h
      · rename_i hp
        cases h
        exact hset rfl rfl hp
      · rename_i hp
        cases h
        exact hset rfl rfl hp
      · cases h
  | finish p healthy =>
      simp only [step] at h
      split at h
      · rename_i hp
        cases h
        cases healthy
        · exact hset rfl rfl hp
        · exact hset rfl rfl hp
      · cases h
  | crash p =>
      obtain ⟨runner, hp, rfl⟩ := Option.map_eq_some_iff.mp h
      exact hset rfl rfl hp

/-- **What a runner does to the jobs**, where it goes on with one that has not ended. -/
theorem narrows_runner {a : Action} (ha : a.isRunners = true)
    (hadvance : ∀ p runner job phase row, a = .advance p → s.runners p = some runner →
      runner.at = some (job, phase) → s.rows job = some row → row.phase.terminal = false)
    (h : step s a = some t) : Narrows s t := by
  have hset : ∀ {u : System} {p runner}, Narrows s u → Narrows s (u.setRunner p runner) :=
    fun hu => ⟨hu.jobs, hu.rows⟩
  cases a with
  | create | select | reapRead | reapCheck | reapCommit => exact Bool.noConfusion ha
  | wait seconds =>
      cases h
      exact .of_eq rfl rfl
  | claim p =>
      simp only [step] at h
      split at h
      · cases h
        exact hset narrows_setWorker
      · cases h
  | advance p =>
      simp only [step] at h
      split at h
      · rename_i job phase hp
        obtain ⟨next, -, rfl⟩ := Option.map_eq_some_iff.mp h
        exact hset (narrows_setPhase (.inr fun row hrow =>
          hadvance p _ job phase row rfl hp rfl hrow))
      · rename_i job hp
        cases h
        exact hset (narrows_setPhase (.inr fun row hrow =>
          hadvance p _ job .installing row rfl hp rfl hrow))
      · cases h
  | aptInstall p =>
      simp only [step] at h
      split at h
      · cases h
        exact .of_eq rfl rfl
      · cases h
  | raise p =>
      simp only [step] at h
      split at h
      · cases h
        exact hset narrows_failJob
      · cases h
        exact hset narrows_failJob
      · cases h
  | finish p healthy =>
      simp only [step] at h
      split at h
      · cases h
        cases healthy
        · exact hset narrows_failJob
        · exact hset (narrows_setPhase (.inl rfl))
      · cases h
  | crash p =>
      obtain ⟨-, -, rfl⟩ := Option.map_eq_some_iff.mp h
      exact .of_eq rfl rfl

theorem inProgress_eq_false {row? : Option JobRow} :
    inProgress row? = false ↔ ∀ row, row? = some row → row.phase.terminal = true := by
  cases row? with
  | none => simp [inProgress]
  | some row => simp [inProgress]

/-- A newest job that has ended is not taken up again. -/
theorem inProgress_of_narrows (h : Narrows s t) (hended : inProgress s.latestJob = false) :
    inProgress t.latestJob = false := by
  rw [inProgress_eq_false] at hended ⊢
  intro row' hrow'
  rw [System.latestJob, h.jobs] at hrow'
  rw [System.latestJob] at hended
  split at hrow'
  · cases hrow'
  · rename_i hjobs
    obtain ⟨row, hrow, hopen⟩ := h.rows _ row' hrow'
    have hterminal := hended row (by rw [if_neg hjobs]; exact hrow)
    cases hphase : row'.phase.terminal with
    | true => rfl
    | false => exact Bool.noConfusion (hterminal.symm.trans (hopen hphase))

end Jobs

/-! ## What a step does -/

section Steps

variable {s s' : UpdateServer} {a : ServerAction}

/-- A step of a handler, of the unit or of a runner. -/
inductive ServerMove (s : UpdateServer) (a : ServerAction) (s' : UpdateServer) : Prop where
  | arrive (kind : RouteKind) (hsystem : s'.system = s.system)
      (hrequests : s'.requests = s.requests ++ [⟨kind, .arrived⟩]) (hloop : s'.loop = s.loop)
      (hstarting : s'.starting = s.starting)
  | handler (i : ℕ) (r : RouteRequest) (phase : RoutePhase) (t : System)
      (hr : s.requests[i]? = some r) (hmay : s.MayRun i r) (hnarrows : Narrows s.system t)
      (hkeeps : KeepsRunners s.system t)
      (hadmitted : phase = .admitted → r.kind = .install →
        t = s.system ∧ inProgress s.system.latestJob = false)
      (hserver : s' = s.proceed i r phase t ∨
        s' = { s.proceed i r phase t with starting := s.starting || !s.system.unitActive })
  | record (i : ℕ) (r : RouteRequest) (t : System) (ha : a = .recordJob i)
      (hr : s.requests[i]? = some r) (hkind : r.kind ≠ .page) (hphase : r.phase = .admitted)
      (hmay : s.MayRun i r)
      (hstep : step s.system .create = some t)
      (hserver : s' = s.proceed i r (.recorded s.system.jobs) t)
  | spawn (t : System) (hstarting : s.starting = true) (hstep : step s.system .select = some t)
      (hserver : s' = { s with system := t, starting := false })
  | runner (b : Action) (t : System) (ha : a = .runner b) (hb : b.isRunners = true)
      (hstep : step s.system b = some t) (hserver : s' = { s with system := t })

theorem afterStatus_admitted {kind : RouteKind} {view : StatusView} {job : Option JobRow}
    (h : afterStatus kind view job = .admitted) : inProgress job = false := by
  unfold afterStatus at h
  split at h
  · cases h
  · rename_i hnone
    cases kind with
    | page | upload => cases h
    | install =>
        rw [statusError] at hnone
        split_ifs at hnone with _ _ _ hprogress
        exact Bool.eq_false_iff.mpr hprogress

/-- The part of a handler in which it reaps. -/
theorem reaper_move {i : ℕ} {r : RouteRequest} (hr : s.requests[i]? = some r)
    (hmay : s.MayRun i r) {b : Action} (hb : b ∈ [.reapRead i, .reapCheck i, .reapCommit i])
    {phase : RoutePhase} (hphase : phase ≠ .admitted) {P : Prop} [Decidable P]
    (h : (if P then (step s.system b).map (s.proceed i r phase) else none) = some s') :
    ServerMove s a s' := by
  split_ifs at h
  obtain ⟨t, hstep, rfl⟩ := Option.map_eq_some_iff.mp h
  obtain ⟨hnarrows, hkeeps⟩ := reaper_spec i hb hstep
  exact .handler i r phase t hr hmay hnarrows hkeeps (fun h => absurd h hphase) (.inl rfl)

theorem handler_cases {i : ℕ} {r : RouteRequest} (hr : s.requests[i]? = some r)
    (hmay : s.MayRun i r) (ha : ∀ j, a = .recordJob j → j = i)
    (h : handlerStep s i r a = some s') : ServerMove s a s' := by
  cases a with
  | arrive | spawn | runner => cases h
  | readRows j =>
      simp only [handlerStep] at h
      exact reaper_move hr hmay (by simp) (by simp) h
  | checkRow j =>
      simp only [handlerStep] at h
      exact reaper_move hr hmay (by simp) (by simp) h
  | commitVerdicts j =>
      simp only [handlerStep] at h
      exact reaper_move hr hmay (by simp) (by simp) h
  | readStatus j view =>
      simp only [handlerStep] at h
      split at h
      · cases h
        exact .handler i r _ s.system hr hmay (.of_eq rfl rfl) (.of_eq rfl rfl)
          (fun hphase _ => ⟨rfl, afterStatus_admitted hphase⟩) (.inl rfl)
      · cases h
  | readChunk j size =>
      simp only [handlerStep] at h
      split at h
      · rename_i filename total hkind hphase
        cases h
        exact .handler i r _ s.system hr hmay (.of_eq rfl rfl) (.of_eq rfl rfl)
          (fun _ hinstall => nomatch hkind.symm.trans hinstall) (.inl rfl)
      · cases h
  | recordJob j =>
      obtain rfl := ha j rfl
      simp only [handlerStep] at h
      split at h
      · rename_i hphase
        obtain ⟨t, hstep, rfl⟩ := Option.map_eq_some_iff.mp h
        exact .record j r t rfl hr hphase.1 hphase.2 hmay hstep rfl
      · cases h
  | startRunner j failure =>
      simp only [handlerStep] at h
      split at h
      · cases h
        exact .handler i r (.answered _) s.system hr hmay (.of_eq rfl rfl) (.of_eq rfl rfl) nofun
          (.inl rfl)
      · cases h
        exact .handler i r (.answered none) s.system hr hmay (.of_eq rfl rfl) (.of_eq rfl rfl)
          nofun (.inr rfl)
      · cases h
  | raise j error =>
      simp only [handlerStep] at h
      split at h
      · cases h
      · cases h
        exact .handler i r (.answered (some error)) (s.system.setReaper i none) hr hmay
          (.of_eq rfl rfl) (.of_eq rfl rfl) nofun (.inl rfl)

theorem server_cases (h : serverStep s a = some s') : ServerMove s a s' := by
  have hhandler : ∀ {i r}, s.requests[i]? = some r → (∀ j, a = .recordJob j → j = i) →
      (if s.MayRun i r then handlerStep s i r a else none) = some s' → ServerMove s a s' := by
    intro i r hr ha h
    split at h
    · rename_i hmay
      exact handler_cases hr hmay ha h
    · cases h
  cases a with
  | arrive kind =>
      cases h
      exact .arrive kind rfl rfl rfl rfl
  | spawn =>
      simp only [serverStep] at h
      split at h
      · rename_i hstarting
        obtain ⟨t, hstep, rfl⟩ := Option.map_eq_some_iff.mp h
        exact .spawn t hstarting hstep rfl
      · cases h
  | runner b =>
      simp only [serverStep] at h
      split at h
      · rename_i hb
        obtain ⟨t, hstep, rfl⟩ := Option.map_eq_some_iff.mp h
        exact .runner b t rfl hb hstep rfl
      · cases h
  | recordJob i =>
      obtain ⟨r, hr, h⟩ := Option.bind_eq_some_iff.mp h
      exact hhandler hr (fun j hj => (ServerAction.recordJob.inj hj).symm) h
  | readRows i | checkRow i | commitVerdicts i | readStatus i view | readChunk i size
  | startRunner i failure | raise i error =>
      obtain ⟨r, hr, h⟩ := Option.bind_eq_some_iff.mp h
      exact hhandler hr nofun h

/-! ## What a step keeps -/

/-- Only the newest job is in progress, the unit runs once, and an install that is admitted has the
event loop since it has read the status. -/
structure ServerInv (s : UpdateServer) : Prop where
  rows : ∀ job row, s.system.rows job = some row → job < s.system.jobs
  newest : ∀ job row, s.system.rows job = some row → row.phase.terminal = false →
    job + 1 = s.system.jobs
  admitted : ∀ i, s.requests[i]? = some ⟨.install, .admitted⟩ →
    s.loop = some i ∧ inProgress s.system.latestJob = false

/-- The unit runs once. -/
structure UnitInv (s : UpdateServer) : Prop where
  processes : ∀ p, s.system.runners p ≠ none → p < s.system.processes
  single : s.system.OneRunner
  starting : s.starting = true → ∀ p, s.system.runners p = none

/-! ### The unit -/

theorem UnitInv.keep (hinv : UnitInv s) (h : KeepsRunners s.system s'.system)
    (hstarting : s'.starting = true → s.starting = true ∨ s.system.unitActive = false) :
    UnitInv s' where
  processes p hp := h.processes ▸ hinv.processes p (h.runners p hp)
  single p p' hp hp' := hinv.single p p' (h.runners p hp) (h.runners p' hp')
  starting hs' p := by
    by_contra hp
    have hthere := h.runners p hp
    rcases hstarting hs' with hstarting | hidle
    · exact hthere (hinv.starting hstarting p)
    · rw [System.unitActive, List.any_eq_false] at hidle
      refine hidle p (List.mem_range.mpr (hinv.processes p hthere)) ?_
      exact Option.isSome_iff_ne_none.mpr hthere

theorem unitInv_select {t : System} (hinv : UnitInv s) (hstarting : s.starting = true)
    (hstep : step s.system .select = some t) :
    UnitInv { s with system := t, starting := false } := by
  have hidle := hinv.starting hstarting
  have hprocesses : t.processes = s.system.processes + 1 := by
    simp only [step] at hstep
    split at hstep
    all_goals cases hstep; rfl
  have hrunners : ∀ p, t.runners p ≠ none → p = s.system.processes := by
    intro p hp
    by_contra hne
    simp only [step] at hstep
    split at hstep
    · cases hstep
      exact hp (hidle p)
    · cases hstep
      rw [System.setRunner] at hp
      simp only [Function.update_of_ne hne] at hp
      exact hp (hidle p)
  refine ⟨fun p hp => ?_, fun p p' hp hp' => ?_, fun h => Bool.noConfusion h⟩
  · rw [hprocesses, hrunners p hp]
    exact Nat.lt_succ_self _
  · rw [hrunners p hp, hrunners p' hp']

theorem unitInv_step (hinv : UnitInv s) (h : serverStep s a = some s') : UnitInv s' := by
  cases server_cases h with
  | arrive kind hsystem _ _ hstarting =>
      refine hinv.keep (.of_eq ?_ ?_) fun h => .inl (hstarting ▸ h)
      all_goals rw [hsystem]
  | handler i r phase t hr hmay _ hkeeps _ hserver =>
      rcases hserver with rfl | rfl
      · exact hinv.keep hkeeps .inl
      · refine hinv.keep hkeeps fun hstarting => ?_
        rw [Bool.or_eq_true, Bool.not_eq_true'] at hstarting
        exact hstarting
  | record i r t _ hr _ _ hmay hstep hserver =>
      cases hstep
      subst hserver
      exact hinv.keep (.of_eq rfl rfl) .inl
  | spawn t hstarting hstep hserver =>
      subst hserver
      exact unitInv_select hinv hstarting hstep
  | runner b t _ hb hstep hserver =>
      subst hserver
      exact hinv.keep (keepsRunners_runner hb hstep) .inl

/-! ### The jobs in progress -/

theorem inProgress_eq_of_newest (hnewest : ∀ job row, s.system.rows job = some row →
      row.phase.terminal = false → job + 1 = s.system.jobs)
    (hended : inProgress s.system.latestJob = false) (job : ℕ) (row : JobRow)
    (hrow : s.system.rows job = some row) : row.phase.terminal = true := by
  by_contra hopen
  rw [Bool.not_eq_true] at hopen
  have hjob := hnewest job row hrow hopen
  rw [inProgress_eq_false] at hended
  have hterminal := hended row (by
    rw [System.latestJob, if_neg (by omega), ← hjob]
    exact hrow)
  exact Bool.noConfusion (hterminal.symm.trans hopen)

/-- Jobs that are not taken up again. -/
theorem ServerInv.narrow (hinv : ServerInv s) (h : Narrows s.system s'.system)
    (hadmitted : ∀ i, s'.requests[i]? = some ⟨.install, .admitted⟩ →
      s'.loop = some i ∧ inProgress s.system.latestJob = false) : ServerInv s' where
  rows job row' hrow' := by
    obtain ⟨row, hrow, -⟩ := h.rows job row' hrow'
    rw [h.jobs]
    exact hinv.rows job row hrow
  newest job row' hrow' hopen := by
    obtain ⟨row, hrow, hopen'⟩ := h.rows job row' hrow'
    rw [h.jobs]
    exact hinv.newest job row hrow (hopen' hopen)
  admitted i hi := (hadmitted i hi).imp_right (inProgress_of_narrows h)

/-- Where a handler runs, no other has been admitted. -/
theorem ServerInv.not_admitted (hinv : ServerInv s) {i j : ℕ} {r : RouteRequest}
    (hmay : s.MayRun i r) (hne : j ≠ i) (hkind : r.kind ≠ .page) :
    s.requests[j]? ≠ some ⟨.install, .admitted⟩ := by
  intro hj
  have hloop := (hinv.admitted j hj).1
  rcases hmay with hpage | hnone | hsome
  · exact hkind hpage
  · exact nomatch hloop.symm.trans hnone
  · exact hne (Option.some.inj (hloop.symm.trans hsome))

/-- The installs that are admitted after a handler has gone on. -/
theorem ServerInv.admitted_proceed (hinv : ServerInv s) {i j : ℕ} {r : RouteRequest}
    {phase : RoutePhase} {t : System} (hr : s.requests[i]? = some r) (hmay : s.MayRun i r)
    (hj : (s.proceed i r phase t).requests[j]? = some ⟨.install, .admitted⟩) :
    (s.proceed i r phase t).loop = some j ∧
      (inProgress s.system.latestJob = false ∨ phase = .admitted ∧ r.kind = .install) := by
  have hlt : i < s.requests.length := (List.getElem?_eq_some_iff.mp hr).1
  by_cases hji : j = i
  · subst hji
    rw [UpdateServer.proceed, List.getElem?_set_self hlt, Option.some.injEq,
      RouteRequest.mk.injEq] at hj
    obtain ⟨hkind, rfl⟩ := hj
    refine ⟨?_, .inr ⟨rfl, hkind⟩⟩
    rw [UpdateServer.proceed, hkind]
    rfl
  · rw [UpdateServer.proceed, List.getElem?_set_ne (Ne.symm hji)] at hj
    obtain ⟨hloop, hended⟩ := hinv.admitted j hj
    refine ⟨?_, .inl hended⟩
    by_cases hkind : r.kind = .page
    · rw [UpdateServer.proceed]
      exact (if_pos hkind).trans hloop
    · exact absurd hj (hinv.not_admitted hmay hji hkind)

/-- A job that is recorded when all others have ended. -/
theorem serverInv_record (hinv : ServerInv s) {i : ℕ} {r : RouteRequest} {t : System}
    (hr : s.requests[i]? = some r) (hkind : r.kind ≠ .page) (hmay : s.MayRun i r)
    (hended : inProgress s.system.latestJob = false) (hstep : step s.system .create = some t) :
    ServerInv (s.proceed i r (.recorded s.system.jobs) t) := by
  cases hstep
  refine ⟨fun job row hrow => ?_, fun job row hrow hopen => ?_, fun j hj => ?_⟩
  · rcases update_eq_some hrow with ⟨rfl, -⟩ | ⟨-, hrow⟩
    · exact Nat.lt_succ_self _
    · exact Nat.lt_succ_of_lt (hinv.rows job row hrow)
  · rcases update_eq_some hrow with ⟨rfl, -⟩ | ⟨-, hrow⟩
    · rfl
    · have hterminal := inProgress_eq_of_newest hinv.newest hended job row hrow
      exact Bool.noConfusion (hterminal.symm.trans hopen)
  · exfalso
    have hlt : i < s.requests.length := (List.getElem?_eq_some_iff.mp hr).1
    by_cases hji : j = i
    · subst hji
      rw [UpdateServer.proceed, List.getElem?_set_self hlt] at hj
      exact RoutePhase.noConfusion (congrArg RouteRequest.phase (Option.some.inj hj))
    · rw [UpdateServer.proceed, List.getElem?_set_ne (Ne.symm hji)] at hj
      exact hinv.not_admitted hmay hji hkind hj

theorem serverInv_step (hinv : ServerInv s) (hmeets : s.Meets a)
    (h : serverStep s a = some s') : ServerInv s' := by
  cases server_cases h with
  | arrive kind hsystem hrequests hloop _ =>
      refine hinv.narrow (.of_eq (by rw [hsystem]) (by rw [hsystem])) fun i hi => ?_
      rw [hrequests, List.getElem?_append] at hi
      rw [hloop]
      split at hi
      · exact hinv.admitted i hi
      · exact RoutePhase.noConfusion (congrArg RouteRequest.phase
          (List.mem_singleton.mp (List.mem_of_getElem? hi)))
  | handler i r phase t hr hmay hnarrows _ hadmitted hserver =>
      have hadmitted' : ∀ j, (s.proceed i r phase t).requests[j]? = some ⟨.install, .admitted⟩ →
          (s.proceed i r phase t).loop = some j ∧ inProgress s.system.latestJob = false := by
        intro j hj
        obtain ⟨hloop, hended⟩ := hinv.admitted_proceed hr hmay hj
        exact ⟨hloop, hended.elim id fun h => (hadmitted h.1 h.2).2⟩
      rcases hserver with rfl | rfl
      · exact hinv.narrow hnarrows hadmitted'
      · exact hinv.narrow hnarrows hadmitted'
  | record i r t ha hr hkind hphase hmay hstep hserver =>
      subst ha hserver
      refine serverInv_record hinv hr hkind hmay ?_ hstep
      obtain ⟨kind, phase⟩ := r
      subst hphase
      cases kind with
      | page => exact absurd rfl hkind
      | install => exact (hinv.admitted i hr).2
      | upload filename => exact hmeets filename hr
  | spawn t _ hstep hserver =>
      subst hserver
      refine hinv.narrow ?_ hinv.admitted
      simp only [step] at hstep
      split at hstep
      all_goals cases hstep; exact .of_eq rfl rfl
  | runner b t ha hb hstep hserver =>
      subst ha hserver
      refine hinv.narrow (narrows_runner hb ?_ hstep) hinv.admitted
      rintro p runner job phase row rfl hp hat hrow
      exact hmeets runner job phase row hp hat hrow

theorem ServerInv.oneJob (hinv : ServerInv s) : s.system.OneJob := by
  intro job job' row row' hrow hrow' hopen hopen'
  have hjob := hinv.newest job row hrow hopen
  have hjob' := hinv.newest job' row' hrow' hopen'
  omega

end Steps

/-! ## Every run -/

theorem unitInv_init : UnitInv UpdateServer.init :=
  ⟨fun _ hp => absurd rfl hp, fun _ _ hp => absurd rfl hp, nofun⟩

theorem serverInv_init : ServerInv UpdateServer.init := ⟨nofun, nofun, nofun⟩

/-- **One runner at a time, and one job at a time** where an upload is recorded after the newest
job has ended, and a runner does not go on with a job that has ended. -/
theorem jobs_serialized (actions : List ServerAction) :
    (∀ before s, before <+: actions → Runs.run serverStep .init before = some s →
      s.system.OneRunner) ∧
    (Runs.StepsMeet serverStep UpdateServer.Meets .init actions →
      ∀ before s, before <+: actions → Runs.run serverStep .init before = some s →
        s.system.OneJob) := by
  constructor
  · rintro before s - hrun
    have hinv : UnitInv s := Runs.invariant_of_run (fun _ _ _ hinv hstep => unitInv_step hinv hstep)
      before _ s unitInv_init hrun
    exact hinv.single
  · rintro hmeet before s ⟨after, rfl⟩ hrun
    have hbefore := (Runs.stepsMeet_append hmeet hrun).1
    have hinv : ServerInv s := Runs.run_invariant
      (fun _ _ _ hinv hmeets hstep => serverInv_step hinv hmeets hstep) before _ s serverInv_init
      hbefore hrun
    exact hinv.oneJob

/-! ### An install while an upload streams in -/

/-- An update is available for a managed installation. -/
def available : StatusView := ⟨true, true, false⟩

/-- The handler reads the status, where there are no jobs to reap. -/
def readsStatus (i : ℕ) : List ServerAction :=
  [.readRows i, .commitVerdicts i, .readStatus i available]

/-- One upload alone: it is recorded, and the runner claims it and goes on. -/
def uploadAlone : List ServerAction :=
  .arrive (.upload "alderpointdns.deb".toList) :: readsStatus 0 ++
    [.readChunk 0 1, .readChunk 0 0, .recordJob 0, .startRunner 0 none, .spawn, .runner (.claim 0),
      .runner (.advance 0)]

theorem jobs_serialized_upload :
    ∃ s, Runs.run serverStep .init uploadAlone = some s ∧ s.system.OneRunner ∧ s.system.OneJob := by
  obtain ⟨hrunner, hjob⟩ := jobs_serialized uploadAlone
  refine ⟨_, rfl, hrunner _ _ (List.prefix_refl _) rfl, hjob ?_ _ _ (List.prefix_refl _) rfl⟩
  refine Runs.stepsMeet_cons trivial rfl (Runs.stepsMeet_cons trivial rfl ?_)
  refine Runs.stepsMeet_cons trivial rfl (Runs.stepsMeet_cons trivial rfl ?_)
  refine Runs.stepsMeet_cons trivial rfl (Runs.stepsMeet_cons trivial rfl ?_)
  refine Runs.stepsMeet_cons (fun _ _ => rfl) rfl (Runs.stepsMeet_cons trivial rfl ?_)
  refine Runs.stepsMeet_cons trivial rfl (Runs.stepsMeet_cons trivial rfl ?_)
  refine Runs.stepsMeet_cons ?_ rfl trivial
  intro runner job phase row hrunner hat hrow
  cases hrunner
  cases hat
  cases hrow
  rfl

/-- An install comes while an upload streams in. -/
def installDuringUpload : List ServerAction :=
  [.arrive (.upload "alderpointdns.deb".toList), .arrive .install] ++ readsStatus 0 ++
    readsStatus 1 ++ [.recordJob 1, .startRunner 1 none, .readChunk 0 1, .readChunk 0 0,
      .recordJob 0]

/-- **Two jobs are pending.** -/
theorem two_jobs_pending :
    ∃ s, Runs.run serverStep .init installDuringUpload = some s ∧ ¬s.system.OneJob := by
  refine ⟨_, rfl, fun hone => ?_⟩
  exact absurd (hone 0 1 _ _ rfl rfl rfl rfl) (by decide)

end AlderpointDNS.SoftwareUpdates
