import AlderpointDNS.Backup.Requests

/-!
# Backup requests that are skipped

`process_pending_request` takes the newest pending request, and when it is done with it marks every
other pending one as skipped, also those that have arrived in the meantime.

* `requests_of_step` — what a step does to the requests;
* `skippedForNewer_finish` — what the end of a run does to them;
* **`skippedForNewer_iff`** — the runs in which a request is skipped only for a newer one that has
  been carried out.
* `newest_skipped` — a request that arrives during a run.
-/

namespace AlderpointDNS.Backup

open Text Runs

def Request.executed (r : Request) : Prop := r.status = .done ∨ r.status = .failed

/-- A request is skipped only if one that was made after it has been carried out. -/
def SkippedForNewer (s : RequestState) : Prop :=
  ∀ (id : ℕ) r, s.requests[id]? = some r → r.status = .skipped →
    ∃ id' r', id < id' ∧ s.requests[id']? = some r' ∧ r'.executed

/-- No request that is newer than its own is pending when a run ends. -/
def NoneArrived (s : RequestState) : RequestAction → Prop
  | .finish t => ∀ id ok, s.worker t = .archived id ok →
      ∀ id' r, id < id' → s.requests[id']? = some r → r.status ≠ .pending
  | _ => True

/-- The request that a run works for. -/
def RunPhase.request : RunPhase → Option ℕ
  | .idle => none
  | .selected id | .found id | .read id _ | .consumed id _ | .archived id _ => some id

/-- What is known whatever arrives: a pending request is newer than those that have been carried
out. -/
structure Ordered (s : RequestState) : Prop where
  runs : ∀ t, ∀ id ∈ (s.worker t).request, id < s.requests.length
  pending : ∀ (id : ℕ) r, s.requests[id]? = some r → r.status = .pending →
    ∀ id' r', id < id' → s.requests[id']? = some r' → ¬r'.executed

variable {s s' : RequestState}

/-! ## Steps -/

/-- **What a step does to the requests**: only a call of `request_backup` and the end of a run
change them. -/
theorem requests_of_step {a : RequestAction} (h : requestStep s a = some s') :
    (s'.requests = s.requests ∧ ∀ t, a ≠ .finish t) ∨
    (∃ password, a = .submit password ∧ s'.requests = s.requests ++ [⟨password, .pending⟩]) ∨
    ∃ t id ok, a = .finish t ∧ s.worker t = .archived id ok ∧
      s'.requests = finishRequest id ok s.requests := by
  cases a with
  | submit password =>
      cases h
      exact Or.inr (Or.inl ⟨password, rfl, rfl⟩)
  | finish t =>
      simp only [requestStep] at h
      split at h
      · rename_i id ok hworker
        cases h
        exact Or.inr (Or.inr ⟨t, id, ok, rfl, hworker, rfl⟩)
      · cases h
  | die t =>
      cases h
      exact Or.inl ⟨rfl, by simp⟩
  | callStep id =>
      refine Or.inl ⟨?_, by simp⟩
      simp only [requestStep] at h
      split at h
      · split_ifs at h <;> cases h <;> rfl
      · cases h
        rfl
      · cases h
        rfl
      · cases h
  | lookForFile t =>
      refine Or.inl ⟨?_, by simp⟩
      simp only [requestStep] at h
      split at h
      · split_ifs at h <;> cases h <;> rfl
      · cases h
  | select t | readFile t | unlinkFile t | makeArchive t ok =>
      refine Or.inl ⟨?_, by simp⟩
      simp only [requestStep] at h
      split at h <;> cases h <;> rfl

theorem request_of_moveRun {phase : RunPhase} {t t' id : ℕ}
    (hid : id ∈ ((s.moveRun t' phase).worker t).request) :
    id ∈ (s.worker t).request ∨ t = t' ∧ id ∈ phase.request := by
  by_cases ht : t = t'
  · rw [ht, moveRun_worker] at hid
    exact Or.inr ⟨ht, hid⟩
  · rw [moveRun_worker_of_ne s phase ht] at hid
    exact Or.inl hid

/-- **A run goes on with the request that it has selected.** -/
theorem request_of_step {a : RequestAction} (h : requestStep s a = some s') {t id : ℕ}
    (hid : id ∈ (s'.worker t).request) :
    id ∈ (s.worker t).request ∨ newestPending s.requests = some id := by
  -- a run that moves on keeps its request
  have hgoesOn : ∀ {t' : ℕ} {phase phase' : RunPhase}, s.worker t' = phase →
      id ∈ ((s.moveRun t' phase').worker t).request →
      (∀ i ∈ phase'.request, i ∈ phase.request) → id ∈ (s.worker t).request := by
    intro t' phase phase' hworker hmoved hkeeps
    rcases request_of_moveRun hmoved with hold | ⟨rfl, hnew⟩
    · exact hold
    · rw [hworker]
      exact hkeeps id hnew
  cases a with
  | submit password =>
      cases h
      exact Or.inl hid
  | callStep id' =>
      simp only [requestStep] at h
      split at h
      · split_ifs at h <;> cases h <;> exact Or.inl hid
      · cases h
        exact Or.inl hid
      · cases h
        exact Or.inl hid
      · cases h
  | select t' =>
      simp only [requestStep] at h
      split at h
      · rename_i id' hworker hnewest
        cases h
        rcases request_of_moveRun hid with hold | ⟨-, hnew⟩
        · exact Or.inl hold
        · obtain rfl : id' = id := Option.some.inj hnew
          exact Or.inr hnewest
      · cases h
  | lookForFile t' =>
      simp only [requestStep] at h
      split at h
      · rename_i id' hworker
        split_ifs at h <;> cases h <;> exact Or.inl (hgoesOn hworker hid fun i hi => hi)
      · cases h
  | readFile t' =>
      simp only [requestStep] at h
      split at h
      · rename_i id' hworker
        cases h
        exact Or.inl (hgoesOn hworker hid fun i hi => hi)
      · cases h
  | unlinkFile t' =>
      simp only [requestStep] at h
      split at h
      · rename_i id' password hworker
        cases h
        exact Or.inl (hgoesOn hworker hid fun i hi => hi)
      · rename_i id' hworker
        cases h
        refine Or.inl (hgoesOn hworker hid fun i hi => ?_)
        cases hi
      · cases h
  | makeArchive t' ok =>
      simp only [requestStep] at h
      split at h
      · rename_i id' password hworker
        cases h
        exact Or.inl (hgoesOn hworker hid fun i hi => hi)
      · cases h
  | finish t' =>
      simp only [requestStep] at h
      split at h
      · rename_i id' ok hworker
        cases h
        refine Or.inl (hgoesOn hworker hid fun i hi => ?_)
        cases hi
      · cases h
  | die t' =>
      cases h
      refine Or.inl (hgoesOn rfl hid fun i hi => ?_)
      cases hi

/-! ## The end of a run -/

theorem getElem?_finishRequest (id : ℕ) (ok : Bool) (requests : List Request) (i : ℕ) :
    (finishRequest id ok requests)[i]? = (requests[i]?).map fun r =>
      if i = id then { r with status := if ok then .done else .failed }
      else if r.status = .pending then { r with status := .skipped }
      else r := by
  rw [finishRequest, List.getElem?_mapIdx]

/-- Nothing is pending any more. -/
theorem not_pending_finishRequest {id : ℕ} {ok : Bool} {requests : List Request} {i : ℕ}
    {r : Request} (h : (finishRequest id ok requests)[i]? = some r) : r.status ≠ .pending := by
  rw [getElem?_finishRequest, Option.map_eq_some_iff] at h
  obtain ⟨r, -, rfl⟩ := h
  split_ifs with hid hok hpending
  · simp
  · simp
  · simp
  · exact hpending

/-- Its own request has been carried out, and others stay as they are. -/
theorem executed_finishRequest {id : ℕ} {ok : Bool} {requests : List Request} {i : ℕ} :
    (∃ r, (finishRequest id ok requests)[i]? = some r ∧ r.executed) ↔
      i = id ∧ i < requests.length ∨ ∃ r, requests[i]? = some r ∧ r.executed := by
  rw [getElem?_finishRequest]
  cases hr : requests[i]? with
  | none =>
      have hlength := List.getElem?_eq_none_iff.mp hr
      simp
      omega
  | some r =>
      have hlength := (List.getElem?_eq_some_iff.mp hr).1
      by_cases hid : i = id
      · cases ok <;> simp [hid, Request.executed, hid ▸ hlength]
      · by_cases hpending : r.status = .pending
        · simp [hid, hpending, Request.executed]
        · simp [hid, hpending]

/-! ## The order of the requests -/

theorem lt_length_of_newestPending {requests : List Request} {id : ℕ}
    (h : newestPending requests = some id) : id < requests.length := by
  obtain ⟨r, hr⟩ := exists_of_newestPending h
  exact (List.getElem?_eq_some_iff.mp hr).1

theorem ordered_noRequests : Ordered noRequests := by
  constructor <;> simp [noRequests, RunPhase.request]

theorem ordered_step {a : RequestAction} (h : Ordered s) (hstep : requestStep s a = some s') :
    Ordered s' := by
  have hlength : s.requests.length ≤ s'.requests.length := by
    rcases requests_of_step hstep with ⟨hsame, -⟩ | ⟨password, -, hmore⟩ | ⟨t, id, ok, -, -, hend⟩
    · rw [hsame]
    · rw [hmore, List.length_append]
      omega
    · rw [hend, finishRequest, List.length_mapIdx]
  constructor
  · intro t id hid
    refine lt_of_lt_of_le ?_ hlength
    rcases request_of_step hstep hid with hold | hnewest
    · exact h.runs t id hold
    · exact lt_length_of_newestPending hnewest
  · rcases requests_of_step hstep with ⟨hsame, -⟩ | ⟨password, -, hmore⟩ | ⟨t, id, ok, -, -, hend⟩
    · rw [hsame]
      exact h.pending
    · rw [hmore]
      intro id r hr hpending id' r' hlt hr' hexecuted
      by_cases hnew : id' < s.requests.length
      · rw [List.getElem?_append_left hnew] at hr'
        rw [List.getElem?_append_left (hlt.trans hnew)] at hr
        exact h.pending id r hr hpending id' r' hlt hr' hexecuted
      · rw [List.getElem?_append_right (by omega)] at hr'
        obtain rfl := List.mem_singleton.mp (List.mem_of_getElem? hr')
        simp [Request.executed] at hexecuted
    · rw [hend]
      intro id' r hr hpending
      exact absurd hpending (not_pending_finishRequest hr)

/-- **What the end of a run does**: the requests that it skips are older than its own, exactly if
none has arrived since it was selected. -/
theorem skippedForNewer_finish {t id : ℕ} {ok : Bool} (h : Ordered s) (hskipped : SkippedForNewer s)
    (hworker : s.worker t = .archived id ok)
    (hend : s'.requests = finishRequest id ok s.requests) :
    SkippedForNewer s' ↔ NoneArrived s (.finish t) := by
  have hid : id < s.requests.length := h.runs t id (by rw [hworker]; rfl)
  constructor
  · intro hskipped' id₀ ok₀ hworker₀ id' r hlt hr hpending
    obtain ⟨rfl, rfl⟩ : id = id₀ ∧ ok = ok₀ := by
      rw [hworker] at hworker₀
      cases hworker₀
      exact ⟨rfl, rfl⟩
    -- the request is skipped, and for none that is newer
    have hr' : s'.requests[id']? = some { r with status := .skipped } := by
      rw [hend, getElem?_finishRequest, hr, Option.map_some, if_neg (by omega), if_pos hpending]
    obtain ⟨newer, r', hnewer, hr', hexecuted⟩ := hskipped' id' _ hr' rfl
    rw [hend] at hr'
    rcases executed_finishRequest.mp ⟨r', hr', hexecuted⟩ with ⟨hsame, -⟩ | ⟨r'', hr'', hold⟩
    · omega
    · exact h.pending id' r hr hpending newer r'' hnewer hr'' hold
  · intro hnone id' r hr hstatus
    rw [hend] at hr ⊢
    have hexists : ∃ newer, id' < newer ∧
        ∃ r', (finishRequest id ok s.requests)[newer]? = some r' ∧ r'.executed := by
      rw [getElem?_finishRequest, Option.map_eq_some_iff] at hr
      obtain ⟨old, hold, rfl⟩ := hr
      by_cases hsame : id' = id
      · cases ok <;> simp [hsame] at hstatus
      rw [if_neg hsame] at hstatus
      by_cases hpending : old.status = .pending
      · refine ⟨id, ?_, executed_finishRequest.mpr (Or.inl ⟨rfl, hid⟩)⟩
        by_contra hge
        exact hnone id ok hworker id' old (by omega) hold hpending
      · rw [if_neg hpending] at hstatus
        obtain ⟨newer, r', hnewer, hr', hexecuted⟩ := hskipped id' old hold hstatus
        exact ⟨newer, hnewer, executed_finishRequest.mpr (Or.inr ⟨r', hr', hexecuted⟩)⟩
    obtain ⟨newer, hnewer, r', hr', hexecuted⟩ := hexists
    exact ⟨newer, r', hnewer, hr', hexecuted⟩

/-- Any other step skips none. -/
theorem skippedForNewer_of_step {a : RequestAction} (hskipped : SkippedForNewer s)
    (ha : ∀ t, a ≠ .finish t) (hstep : requestStep s a = some s') : SkippedForNewer s' := by
  rcases requests_of_step hstep with ⟨hsame, -⟩ | ⟨password, -, hmore⟩ | ⟨t, id, ok, hfinish, -, -⟩
  · intro id r hr
    rw [hsame] at hr ⊢
    exact hskipped id r hr
  · intro id r hr hstatus
    rw [hmore] at hr ⊢
    by_cases hnew : id < s.requests.length
    · rw [List.getElem?_append_left hnew] at hr
      obtain ⟨newer, r', hnewer, hr', hexecuted⟩ := hskipped id r hr hstatus
      refine ⟨newer, r', hnewer, ?_, hexecuted⟩
      rw [List.getElem?_append_left (List.getElem?_eq_some_iff.mp hr').1, hr']
    · rw [List.getElem?_append_right (by omega)] at hr
      obtain rfl := List.mem_singleton.mp (List.mem_of_getElem? hr)
      cases hstatus
  · exact absurd hfinish (ha t)

/-! ## Runs -/

/-- **When a request is skipped only for a newer one that has been carried out**: throughout a run
exactly if no request arrives while one is being carried out. -/
theorem skippedForNewer_iff {actions : List RequestAction}
    (hrun : run requestStep noRequests actions = some s) :
    (∀ pre s', pre <+: actions → run requestStep noRequests pre = some s' → SkippedForNewer s') ↔
      StepsMeet requestStep NoneArrived noRequests actions := by
  have hstart : SkippedForNewer noRequests := by
    intro id r hr
    simp [noRequests] at hr
  refine (stepsMeet_iff_forall_reached (fun _ _ _ hs (_ : True) hstep => ordered_step hs hstep) ?_
    actions noRequests s ordered_noRequests hstart (fun _ _ => trivial) hrun).symm
  intro s a s' hs hskipped _ hstep
  rcases requests_of_step hstep with ⟨-, ha⟩ | ⟨password, rfl, -⟩ | ⟨t, id, ok, rfl, hworker, hend⟩
  · refine iff_of_true (skippedForNewer_of_step hskipped ha hstep) ?_
    cases a with
    | finish t => exact absurd rfl (ha t)
    | submit _ | callStep _ | select _ | lookForFile _ | readFile _ | unlinkFile _
      | makeArchive _ _ | die _ => trivial
  · exact iff_of_true (skippedForNewer_of_step hskipped (by simp) hstep) trivial
  · exact skippedForNewer_finish hs hskipped hworker hend

/-! ## Two requests -/

/-- One run and no passwords: the second request is made before the run selects one. -/
def bothWaiting : List RequestAction :=
  [.submit [], .callStep 0, .submit [], .callStep 1, .select 0, .lookForFile 0,
    .makeArchive 0 true, .finish 0]

/-- The second request is made while the archive of the first one is. -/
def secondArrives : List RequestAction :=
  [.submit [], .callStep 0, .select 0, .lookForFile 0, .submit [], .callStep 1,
    .makeArchive 0 true, .finish 0]

theorem skipped_for_newer :
    ∃ s, run requestStep noRequests bothWaiting = some s ∧ ∀ pre s', pre <+: bothWaiting →
      run requestStep noRequests pre = some s' → SkippedForNewer s' := by
  refine ⟨_, rfl, (skippedForNewer_iff rfl).mpr ?_⟩
  iterate 7 refine stepsMeet_cons trivial rfl ?_
  refine stepsMeet_cons ?_ rfl trivial
  intro id ok hworker id' r hlt hr
  obtain rfl : 1 = id := congrArg (fun phase => phase.request.getD 0) hworker
  have hlength : id' < 2 := (List.getElem?_eq_some_iff.mp hr).1
  omega

/-- **The newest request is skipped.** -/
theorem newest_skipped :
    ∃ s, run requestStep noRequests secondArrives = some s ∧ ¬SkippedForNewer s := by
  refine ⟨_, rfl, fun hskipped => ?_⟩
  obtain ⟨newer, r, hnewer, hr, -⟩ := hskipped 1 ⟨[], .skipped⟩ rfl rfl
  have hlength : newer < 2 := (List.getElem?_eq_some_iff.mp hr).1
  omega

end AlderpointDNS.Backup
