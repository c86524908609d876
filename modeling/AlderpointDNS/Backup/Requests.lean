import AlderpointDNS.Lib.Runs
import AlderpointDNS.Lib.Text
import Mathlib.Logic.Function.Basic

/-!
# Backup requests and their password file

The web process asks for a backup by a row of `backup_requests`, and hands the password over in a
file that all requests of a kind share.  `request_backup` commits the row first and writes, or
removes, the file afterwards.  `process_pending_request` takes the newest pending row, and then
whatever password the file holds.  Here both are cut into the steps that others can see, for one
kind of request; the kinds share neither rows nor files.

No password and an empty one are the same to the code, and both are `[]` here.

* `requestStep` — one step of one call or of one privileged run;
* `rightPassword_step` — what a step preserves when the file holds what the run expects;
* **`ownPassword_iff`** — the runs in which every archive has its own request's password.
* `password_dropped` — a run that comes between the row and its file, and one that takes the file
  of a later request.
-/

namespace AlderpointDNS.Backup

open Text Runs

/-! ## Rows, calls and privileged runs -/

inductive RequestStatus where
  | pending
  | done
  | failed
  | skipped
  deriving DecidableEq

/-- A row of `backup_requests`, with the password that `request_backup` was given. -/
structure Request where
  password : Str
  status : RequestStatus

/-- Where a call of `request_backup` is. -/
inductive CallPhase where
  /-- the row is committed -/
  | committed
  /-- the password file is open for writing, hence empty -/
  | opened
  /-- without a password: there is a file to remove -/
  | found
  | returned
  deriving DecidableEq

/-- Where a privileged run is. -/
inductive RunPhase where
  | idle
  /-- the newest pending row is read -/
  | selected (id : ℕ)
  /-- `password_file.exists()` -/
  | found (id : ℕ)
  /-- the file is read, or is gone and `read_text` raises -/
  | read (id : ℕ) (password : Option Str)
  /-- `_consume_password` has returned -/
  | consumed (id : ℕ) (password : Str)
  | archived (id : ℕ) (ok : Bool)

/-- The id of a request is its place in `requests`.  `archives` lists what has been made of which
request, with the password of the archive. -/
structure RequestState where
  requests : List Request
  passwordFile : Option Str
  call : ℕ → CallPhase
  worker : ℕ → RunPhase
  archives : List (ℕ × Str)

/-- `read_text` of a file that was written as `text`: line ends become `\n`. -/
def readBack : Str → Str
  | [] => []
  | '\r' :: '\n' :: s => '\n' :: readBack s
  | '\r' :: s => '\n' :: readBack s
  | c :: s => c :: readBack s

theorem readBack_eq_nil {s : Str} : readBack s = [] ↔ s = [] := by
  constructor
  · intro h
    fun_cases readBack s <;> simp_all [readBack]
  · rintro rfl
    rfl

/-- `ORDER BY id DESC LIMIT 1` among the pending rows. -/
def newestPending (requests : List Request) : Option ℕ :=
  (List.range requests.length).reverse.find? fun id =>
    (requests[id]?).any fun r => r.status = .pending

/-- The two UPDATEs after an archive. -/
def finishRequest (id : ℕ) (ok : Bool) (requests : List Request) : List Request :=
  requests.mapIdx fun i r =>
    if i = id then { r with status := if ok then .done else .failed }
    else if r.status = .pending then { r with status := .skipped }
    else r

inductive RequestAction where
  /-- `request_backup` up to its commit -/
  | submit (password : Str)
  /-- the call of request `id` goes on -/
  | callStep (id : ℕ)
  /-- a privileged run selects a row -/
  | select (t : ℕ)
  | lookForFile (t : ℕ)
  | readFile (t : ℕ)
  | unlinkFile (t : ℕ)
  /-- `create_backup` returns or raises -/
  | makeArchive (t : ℕ) (ok : Bool)
  | finish (t : ℕ)
  /-- the run is killed -/
  | die (t : ℕ)

def RequestState.moveCall (s : RequestState) (id : ℕ) (phase : CallPhase) (file : Option Str) :
    RequestState :=
  { s with call := Function.update s.call id phase, passwordFile := file }

def RequestState.moveRun (s : RequestState) (t : ℕ) (phase : RunPhase) : RequestState :=
  { s with worker := Function.update s.worker t phase }

@[simp] theorem moveRun_worker (s : RequestState) (t : ℕ) (phase : RunPhase) :
    (s.moveRun t phase).worker t = phase := by
  simp [RequestState.moveRun]

theorem moveRun_worker_of_ne (s : RequestState) (phase : RunPhase) {t t' : ℕ} (h : t' ≠ t) :
    (s.moveRun t phase).worker t' = s.worker t' := by
  simp [RequestState.moveRun, h]

/-- One step. -/
def requestStep (s : RequestState) : RequestAction → Option RequestState
  | .submit password =>
      some { s with
        requests := s.requests ++ [⟨password, .pending⟩]
        call := Function.update s.call s.requests.length .committed }
  | .callStep id =>
      match s.requests[id]?, s.call id with
      | some r, .committed =>
          if r.password ≠ [] then some (s.moveCall id .opened (some []))
          else if s.passwordFile.isSome then some (s.moveCall id .found s.passwordFile)
          else some (s.moveCall id .returned s.passwordFile)
      | some r, .opened => some (s.moveCall id .returned (some r.password))
      -- `unlink` raises when the file is gone, and the call ends all the same
      | some _, .found => some (s.moveCall id .returned none)
      | _, _ => none
  | .select t =>
      match s.worker t, newestPending s.requests with
      | .idle, some id => some (s.moveRun t (.selected id))
      | _, _ => none
  | .lookForFile t =>
      match s.worker t with
      | .selected id =>
          if s.passwordFile.isSome then some (s.moveRun t (.found id))
          else some (s.moveRun t (.consumed id []))
      | _ => none
  | .readFile t =>
      match s.worker t with
      | .found id => some (s.moveRun t (.read id (s.passwordFile.map readBack)))
      | _ => none
  | .unlinkFile t =>
      match s.worker t with
      | .read id (some password) =>
          some { s.moveRun t (.consumed id password) with passwordFile := none }
      | .read _ none => some { s.moveRun t .idle with passwordFile := none }
      | _ => none
  | .makeArchive t ok =>
      match s.worker t with
      | .consumed id password =>
          some { s.moveRun t (.archived id ok) with
            archives := s.archives ++ if ok then [(id, password)] else [] }
      | _ => none
  | .finish t =>
      match s.worker t with
      | .archived id ok =>
          some { s.moveRun t .idle with requests := finishRequest id ok s.requests }
      | _ => none
  | .die t => some (s.moveRun t .idle)

/-- No request yet, and no file. -/
def noRequests : RequestState where
  requests := []
  passwordFile := none
  call := fun _ => .returned
  worker := fun _ => .idle
  archives := []

/-- An archive of a request with a password is encrypted, with that password. -/
def OwnPassword (s : RequestState) : Prop :=
  ∀ archive ∈ s.archives, ∀ r, s.requests[archive.1]? = some r → r.password ≠ [] →
    archive.2 ≠ [] ∧ archive.2 = readBack r.password

/-- A run that looks for the file of a request with a password finds it, and reads that password
from it. -/
def FileIsOwn (s : RequestState) : RequestAction → Prop
  | .lookForFile t => ∀ id r, s.worker t = .selected id → s.requests[id]? = some r →
      r.password ≠ [] → s.passwordFile ≠ none
  | .readFile t => ∀ id r text, s.worker t = .found id → s.requests[id]? = some r →
      r.password ≠ [] → s.passwordFile = some text → readBack text = readBack r.password
  | _ => True

/-- A run goes on to its archive. -/
def GoesOn : RequestAction → Prop
  | .unlinkFile _ | .makeArchive _ _ => True
  | _ => False

/-! ## What a step preserves -/

/-- `key` is what request `id` should be encrypted with. -/
def RightFor (requests : List Request) (id : ℕ) (key : Str) : Prop :=
  ∃ r, requests[id]? = some r ∧ (r.password ≠ [] → key = readBack r.password)

/-- What is known of the row and the password that a run holds. -/
def RunRight (requests : List Request) : RunPhase → Prop
  | .selected id | .found id => ∃ r, requests[id]? = some r
  | .read id (some key) | .consumed id key => RightFor requests id key
  | .idle | .read _ none | .archived _ _ => True

structure RightPasswords (s : RequestState) : Prop where
  archives : ∀ archive ∈ s.archives, RightFor s.requests archive.1 archive.2
  runs : ∀ t, RunRight s.requests (s.worker t)

/-- No request disappears or changes its password. -/
def Keeps (requests requests' : List Request) : Prop :=
  ∀ (id : ℕ) r, requests[id]? = some r → ∃ r', requests'[id]? = some r' ∧ r'.password = r.password

theorem keeps_append (requests : List Request) (r : Request) :
    Keeps requests (requests ++ [r]) := by
  intro id r' h
  refine ⟨r', ?_, rfl⟩
  rw [List.getElem?_append_left (List.getElem?_eq_some_iff.mp h).1, h]

theorem keeps_finish (id : ℕ) (ok : Bool) (requests : List Request) :
    Keeps requests (finishRequest id ok requests) := by
  intro i r h
  rw [finishRequest, List.getElem?_mapIdx, h]
  refine ⟨_, rfl, ?_⟩
  dsimp only
  split_ifs <;> rfl

theorem RightFor.mono {requests requests' : List Request} {id : ℕ} {key : Str}
    (h : RightFor requests id key) (hkeeps : Keeps requests requests') :
    RightFor requests' id key := by
  obtain ⟨r, hr, hkey⟩ := h
  obtain ⟨r', hr', hpassword⟩ := hkeeps id r hr
  exact ⟨r', hr', by rw [hpassword]; exact hkey⟩

theorem RunRight.mono {requests requests' : List Request} {phase : RunPhase}
    (h : RunRight requests phase) (hkeeps : Keeps requests requests') :
    RunRight requests' phase := by
  have hrow : ∀ id : ℕ, (∃ r, requests[id]? = some r) → ∃ r, requests'[id]? = some r := by
    rintro id ⟨r, hr⟩
    obtain ⟨r', hr', -⟩ := hkeeps id r hr
    exact ⟨r', hr'⟩
  cases phase with
  | idle | archived id ok => trivial
  | selected id => exact hrow id h
  | found id => exact hrow id h
  | consumed id key => exact RightFor.mono h hkeeps
  | read id password =>
      cases password with
      | none => trivial
      | some key => exact RightFor.mono h hkeeps

/-- A row that is selected is there. -/
theorem exists_of_newestPending {requests : List Request} {id : ℕ}
    (h : newestPending requests = some id) : ∃ r, requests[id]? = some r := by
  have hpending := List.find?_some h
  obtain ⟨r, hr, -⟩ := Option.any_eq_true _ _ |>.mp hpending
  exact ⟨r, hr⟩

/-- One run moves on; rows may be added or change their status. -/
theorem RightPasswords.moveRun {s : RequestState} (h : RightPasswords s) {t : ℕ}
    {phase : RunPhase} (hphase : RunRight s.requests phase) :
    RightPasswords (s.moveRun t phase) := by
  refine ⟨h.archives, fun t' => ?_⟩
  by_cases ht : t' = t
  · rw [ht, moveRun_worker]
    exact hphase
  · rw [moveRun_worker_of_ne s phase ht]
    exact h.runs t'

theorem RightPasswords.requests {s : RequestState} (h : RightPasswords s) {requests : List Request}
    (hkeeps : Keeps s.requests requests) : RightPasswords { s with requests := requests } :=
  ⟨fun archive ha => (h.archives archive ha).mono hkeeps, fun t => (h.runs t).mono hkeeps⟩

/-- Calls and the file do not matter to what is known. -/
theorem RightPasswords.of_eq {s s' : RequestState} (h : RightPasswords s)
    (hrequests : s'.requests = s.requests) (harchives : s'.archives = s.archives)
    (hworker : s'.worker = s.worker) : RightPasswords s' := by
  constructor
  · rw [harchives, hrequests]
    exact h.archives
  · rw [hworker, hrequests]
    exact h.runs

/-- What is known of the run `t`. -/
theorem RightPasswords.runAt {s : RequestState} (h : RightPasswords s) {t : ℕ} {phase : RunPhase}
    (hworker : s.worker t = phase) : RunRight s.requests phase := by
  rw [← hworker]
  exact h.runs t

/-- A run finds out that there is a file, or goes on without a password. -/
theorem rightPasswords_lookForFile {s s' : RequestState} {t : ℕ} (h : RightPasswords s)
    (hok : FileIsOwn s (.lookForFile t)) (hstep : requestStep s (.lookForFile t) = some s') :
    RightPasswords s' := by
  simp only [requestStep] at hstep
  split at hstep
  · rename_i id hworker
    obtain ⟨r, hr⟩ : ∃ r, s.requests[id]? = some r := h.runAt hworker
    split_ifs at hstep with hfile
    · cases hstep
      exact h.moveRun ⟨r, hr⟩
    · cases hstep
      refine h.moveRun ⟨r, hr, fun hpassword => ?_⟩
      have hnone := hok id r hworker hr hpassword
      rw [Option.ne_none_iff_isSome] at hnone
      exact absurd hnone hfile
  · cases hstep

/-- A run reads the file. -/
theorem rightPasswords_readFile {s s' : RequestState} {t : ℕ} (h : RightPasswords s)
    (hok : FileIsOwn s (.readFile t)) (hstep : requestStep s (.readFile t) = some s') :
    RightPasswords s' := by
  simp only [requestStep] at hstep
  split at hstep
  · rename_i id hworker
    obtain ⟨r, hr⟩ : ∃ r, s.requests[id]? = some r := h.runAt hworker
    cases hstep
    refine h.moveRun ?_
    cases hfile : s.passwordFile with
    | none => trivial
    | some text => exact ⟨r, hr, fun hpassword => hok id r text hworker hr hpassword hfile⟩
  · cases hstep

/-- A run deletes the file. -/
theorem rightPasswords_unlinkFile {s s' : RequestState} {t : ℕ} (h : RightPasswords s)
    (hstep : requestStep s (.unlinkFile t) = some s') : RightPasswords s' := by
  simp only [requestStep] at hstep
  split at hstep
  · rename_i id password hworker
    have hright : RightFor s.requests id password := h.runAt hworker
    cases hstep
    have hmoved : RightPasswords (s.moveRun t (.consumed id password)) := h.moveRun hright
    exact hmoved.of_eq rfl rfl rfl
  · cases hstep
    have hmoved : RightPasswords (s.moveRun t .idle) := h.moveRun trivial
    exact hmoved.of_eq rfl rfl rfl
  · cases hstep

/-- A run makes an archive with the password in hand. -/
theorem rightPasswords_makeArchive {s s' : RequestState} {t : ℕ} {ok : Bool}
    (h : RightPasswords s) (hstep : requestStep s (.makeArchive t ok) = some s') :
    RightPasswords s' := by
  simp only [requestStep] at hstep
  split at hstep
  · rename_i id password hworker
    have hright : RightFor s.requests id password := h.runAt hworker
    cases hstep
    have hmoved : RightPasswords (s.moveRun t (.archived id ok)) := h.moveRun trivial
    refine ⟨fun archive ha => ?_, hmoved.runs⟩
    rcases List.mem_append.mp ha with ha | ha
    · exact h.archives archive ha
    · cases ok with
      | true =>
          rw [List.mem_singleton.mp ha]
          exact hright
      | false => cases ha
  · cases hstep

/-- **A step keeps the passwords right** when the file holds what the run expects. -/
theorem rightPassword_step {s s' : RequestState} {a : RequestAction} (h : RightPasswords s)
    (hok : FileIsOwn s a) (hstep : requestStep s a = some s') : RightPasswords s' := by
  cases a with
  | submit password =>
      cases hstep
      exact (h.requests (keeps_append s.requests ⟨password, .pending⟩)).of_eq rfl rfl rfl
  | callStep id =>
      simp only [requestStep] at hstep
      split at hstep
      · split_ifs at hstep <;> cases hstep <;> exact h.of_eq rfl rfl rfl
      · cases hstep
        exact h.of_eq rfl rfl rfl
      · cases hstep
        exact h.of_eq rfl rfl rfl
      · cases hstep
  | select t =>
      simp only [requestStep] at hstep
      split at hstep
      · rename_i id hworker hnewest
        cases hstep
        exact h.moveRun (exists_of_newestPending hnewest)
      · cases hstep
  | lookForFile t => exact rightPasswords_lookForFile h hok hstep
  | readFile t => exact rightPasswords_readFile h hok hstep
  | unlinkFile t => exact rightPasswords_unlinkFile h hstep
  | makeArchive t ok => exact rightPasswords_makeArchive h hstep
  | finish t =>
      simp only [requestStep] at hstep
      split at hstep
      · rename_i id ok hworker
        cases hstep
        have hmoved : RightPasswords (s.moveRun t .idle) := h.moveRun trivial
        exact hmoved.requests (keeps_finish id ok s.requests)
      · cases hstep
  | die t =>
      cases hstep
      exact h.moveRun trivial

theorem RightPasswords.own {s : RequestState} (h : RightPasswords s) : OwnPassword s := by
  intro archive ha r hr hpassword
  obtain ⟨r', hr', hkey⟩ := h.archives archive ha
  cases hr.symm.trans hr'
  refine ⟨?_, hkey hpassword⟩
  rw [hkey hpassword, Ne, readBack_eq_nil]
  exact hpassword

/-! ## The runs in which every archive has its own password -/

theorem rightPasswords_noRequests : RightPasswords noRequests :=
  ⟨fun _ ha => (List.not_mem_nil ha).elim, fun _ => trivial⟩

/-- The run with `password` in hand makes its archive. -/
theorem run_consumed {s : RequestState} {t id : ℕ} {password : Str}
    (h : s.worker t = .consumed id password) :
    ∃ s', run requestStep s [.makeArchive t true] = some s' ∧
      (id, password) ∈ s'.archives ∧ s'.requests = s.requests := by
  refine ⟨{ s.moveRun t (.archived id true) with archives := s.archives ++ [(id, password)] },
    ?_, List.mem_append_right _ List.mem_cons_self, rfl⟩
  rw [run, requestStep, h]
  rfl

/-- A run that has missed the password of its request, or has read another, makes a wrong
archive. -/
theorem exists_wrong_archive {s : RequestState} {a : RequestAction} (hbad : ¬ FileIsOwn s a) :
    ∃ rest t, (∀ a ∈ rest, GoesOn a) ∧ run requestStep s (a :: rest) = some t ∧
      ¬ OwnPassword t := by
  cases a with
  | lookForFile t =>
      simp only [FileIsOwn, not_forall, not_not] at hbad
      obtain ⟨id, r, hworker, hr, hpassword, hfile⟩ := hbad
      have hlook : requestStep s (.lookForFile t) = some (s.moveRun t (.consumed id [])) := by
        simp [requestStep, hworker, hfile]
      obtain ⟨s', hrun, hmem, hrequests⟩ := run_consumed (moveRun_worker s t (.consumed id []))
      refine ⟨[.makeArchive t true], s', by simp [GoesOn], ?_, fun hown => ?_⟩
      · rw [run, hlook, Option.bind_some, hrun]
      · exact (hown (id, []) hmem r (by rw [hrequests]; exact hr) hpassword).1 rfl
  | readFile t =>
      simp only [FileIsOwn, not_forall] at hbad
      obtain ⟨id, r, text, hworker, hr, hpassword, hfile, hwrong⟩ := hbad
      have hread : requestStep s (.readFile t)
          = some (s.moveRun t (.read id (some (readBack text)))) := by
        simp [requestStep, hworker, hfile]
      have hunlink : requestStep (s.moveRun t (.read id (some (readBack text)))) (.unlinkFile t)
          = some { (s.moveRun t (.read id (some (readBack text)))).moveRun t
              (.consumed id (readBack text)) with passwordFile := none } := by
        simp [requestStep]
      obtain ⟨s', hrun, hmem, hrequests⟩ := run_consumed
        (s := { (s.moveRun t (.read id (some (readBack text)))).moveRun t
          (.consumed id (readBack text)) with passwordFile := none })
        (moveRun_worker _ t (.consumed id (readBack text)))
      refine ⟨[.unlinkFile t, .makeArchive t true], s', by simp [GoesOn], ?_, fun hown => ?_⟩
      · rw [run, hread, Option.bind_some, run, hunlink, Option.bind_some, hrun]
      · exact hwrong (hown (id, readBack text) hmem r (by rw [hrequests]; exact hr) hpassword).2
  | submit password | callStep id | select t | unlinkFile t | makeArchive t ok | finish t | die t =>
      exact (hbad trivial).elim

theorem fileIsOwn_of_goesOn {s : RequestState} {a : RequestAction} (h : GoesOn a) :
    FileIsOwn s a := by
  cases a with
  | unlinkFile t | makeArchive t ok => trivial
  | submit password | callStep id | select t | lookForFile t | readFile t | finish t | die t =>
      exact h.elim

/-- **The runs in which every archive has its own request's password**, however the privileged runs
go on: those in which a run for a request with a password always finds that password in the
file. -/
theorem ownPassword_iff (actions : List RequestAction) :
    (∀ pre post s, pre <+: actions → (∀ a ∈ post, GoesOn a) →
      run requestStep noRequests (pre ++ post) = some s → OwnPassword s)
      ↔ StepsMeet requestStep FileIsOwn noRequests actions := by
  constructor
  · intro h
    refine stepsMeet_iff.mpr fun pre a post s hactions hpre => ?_
    by_contra hbad
    obtain ⟨rest, t, hrest, ht, hwrong⟩ := exists_wrong_archive hbad
    refine hwrong (h (pre ++ [a]) rest t ⟨post, by simp [hactions]⟩ hrest ?_)
    rw [List.append_assoc, run_append, hpre, Option.bind_some, List.singleton_append, ht]
  · rintro hmeet pre post s ⟨rest, rfl⟩ hpost hrun
    rw [run_append, Option.bind_eq_some_iff] at hrun
    obtain ⟨t, ht, hrun⟩ := hrun
    have hright : RightPasswords t := run_invariant (fun _ _ _ => rightPassword_step) pre noRequests
      t rightPasswords_noRequests (stepsMeet_append hmeet ht).1 ht
    have hgoesOn : StepsMeet requestStep FileIsOwn t post :=
      stepsMeet_of_forall fun a ha s => fileIsOwn_of_goesOn (hpost a ha)
    exact (run_invariant (fun _ _ _ => rightPassword_step) post t s hright hgoesOn hrun).own

/-- The privileged run of another user comes between the row and the password file of the first
request.  Then a second request without a password is made, and its run is started when a third one
has already written its file. -/
theorem password_dropped :
    (∃ s, run requestStep noRequests
      [.submit "secret".toList, .select 0, .lookForFile 0, .makeArchive 0 true] = some s ∧
      s.archives = [(0, [])] ∧ ¬ OwnPassword s) ∧
    ∃ s, run requestStep noRequests
      [.submit "first".toList, .callStep 0, .callStep 0, .select 0, .submit "second".toList,
        .callStep 1, .callStep 1, .lookForFile 0, .readFile 0, .unlinkFile 0, .makeArchive 0 true]
        = some s ∧ s.archives = [(0, "second".toList)] ∧ ¬ OwnPassword s := by
  refine ⟨⟨_, rfl, rfl, fun hown => ?_⟩, ⟨_, rfl, rfl, fun hown => ?_⟩⟩
  · exact (hown (0, []) (by decide) ⟨"secret".toList, .pending⟩ rfl (by decide)).1 rfl
  · have heq := (hown (0, "second".toList) (by decide) ⟨"first".toList, .pending⟩ rfl
      (by decide)).2
    exact absurd heq (by decide)

end AlderpointDNS.Backup
