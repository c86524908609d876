import AlderpointDNS.Notifications.Edges

/-!
# The check of deployments

`check_deploy_and_blocklist` reads the newest row of `deployments` and reports an edge of its
status.  `deploy` inserts its row as running and commits it, holds the lock for as long as it works,
and updates the row at its end; the deployments of a run here all end as deployed.

* `fireEdge_eq` — what an edge sends;
* `quiet_iff` — a check is quiet exactly if no deployment is running;
* **`never_dispatches_iff`** — the runs in which no check dispatches.
* `running_reported` — a check in the middle of a deployment.
-/

namespace AlderpointDNS.Notifications

/-- The values of `deployments.status`. -/
inductive DeploymentStatus where
  | running
  | deployed
  | failed
  | rolledBack
  | rollbackFailed
  deriving DecidableEq

def DeploymentStatus.text : DeploymentStatus → String
  | running => "running"
  | deployed => "deployed"
  | failed => "failed"
  | rolledBack => "rolled_back"
  | rollbackFailed => "rollback_failed"

/-- A row of `deployments`. -/
structure DeploymentRow where
  status : DeploymentStatus
  message : String

/-- The rows of `deployments` in the order of their ids, and the tables of the notifications. -/
structure WatchState (Digest : Type) where
  deployments : List DeploymentRow
  notifications : NotificationState Digest

def WatchState.fresh {Digest : Type} : WatchState Digest :=
  { deployments := [], notifications := .fresh }

/-- What happens. -/
inductive WatchAction where
  /-- `deploy` inserts its row -/
  | start (message : String)
  /-- `deploy` ends as deployed -/
  | finish (message : String)
  /-- `check_deploy_and_blocklist` -/
  | check (time : ℕ) (deliver : ℕ → Option String)

/-- The component of the check. -/
def deployComponent : String := "Blocklist/configuration deploy"

/-- The call of `_fire_edge` for the newest row. -/
def deployCheck (time : ℕ) (deliver : ℕ → Option String) (row : DeploymentRow) : Check where
  time := time
  currentlyBad := row.status ≠ .deployed
  summaryBad := "Latest deployment ended with status '" ++ row.status.text ++ "': " ++
    String.ofList (row.message.toList.take 200)
  summaryOk := "Deployment succeeded again"
  severity := .critical
  deliver := deliver

variable {Digest : Type} [DecidableEq Digest] (hash : String → Digest)
  (config : NotificationConfig)

/-- `check_deploy_and_blocklist`. -/
def checkDeployAndBlocklist (time : ℕ) (deliver : ℕ → Option String) (s : WatchState Digest) :
    NotificationState Digest :=
  match s.deployments.getLast? with
  | none => s.notifications
  | some row =>
      fireEdge hash config "deploy_failure" deployComponent s.notifications
        (deployCheck time deliver row)

/-- One step; a deployment waits for the lock. -/
def watchStep (s : WatchState Digest) : WatchAction → Option (WatchState Digest)
  | .start message =>
      if s.deployments.all (·.status ≠ .running) then
        some { s with deployments := s.deployments ++ [⟨.running, message⟩] }
      else none
  | .finish message =>
      if (s.deployments.getLast?.map (·.status)) = some .running then
        some { s with deployments := s.deployments.dropLast ++ [⟨.deployed, message⟩] }
      else none
  | .check time deliver =>
      some { s with notifications := checkDeployAndBlocklist hash config time deliver s }

/-! ## What a check dispatches -/

section Edge

variable (eventCategory component : String) (s : NotificationState Digest) (check : Check)

/-- The message that an edge dispatches. -/
def edgeMessage : Option NotificationMessage :=
  let previous := s.checkState eventCategory component
  if check.currentlyBad then
    if previous ≠ some .bad then some (checkMessage eventCategory component check false) else none
  else
    if previous = some .bad then some (checkMessage eventCategory component check true) else none

theorem fireEdge_eq :
    fireEdge hash config eventCategory component s check
      = setCheckState eventCategory component
          ((edgeMessage eventCategory component s check).elim s fun message =>
            dispatch hash config check.time check.deliver message s)
          (if check.currentlyBad then .bad else .ok) := by
  unfold fireEdge edgeMessage
  dsimp only
  split_ifs
  · rfl
  · rfl
  · rfl
  · rfl

end Edge

/-- The message that `check_deploy_and_blocklist` dispatches. -/
def deployMessage (s : WatchState Digest) (time : ℕ) (deliver : ℕ → Option String) :
    Option NotificationMessage :=
  s.deployments.getLast?.bind fun row =>
    edgeMessage "deploy_failure" deployComponent s.notifications (deployCheck time deliver row)

/-- A check dispatches nothing. -/
def Quiet (s : WatchState Digest) : WatchAction → Prop
  | .start _ => True
  | .finish _ => True
  | .check time deliver => deployMessage s time deliver = none

/-- A check does not find the newest deployment running. -/
def BetweenDeployments (s : WatchState Digest) : WatchAction → Prop
  | .start _ => True
  | .finish _ => True
  | .check _ _ => s.deployments.getLast?.map (·.status) ≠ some .running

/-! ## When the checks are quiet -/

/-- No deployment has ended badly, and none is known to. -/
structure Unharmed (s : WatchState Digest) : Prop where
  ended : ∀ row ∈ s.deployments, row.status = .running ∨ row.status = .deployed
  known : s.notifications.checkState "deploy_failure" deployComponent ≠ some .bad

variable {hash config}

omit [DecidableEq Digest] in
/-- While nothing is known to be bad, a check is quiet exactly if no deployment is running. -/
theorem quiet_iff {s : WatchState Digest} (h : Unharmed s) (a : WatchAction) :
    Quiet s a ↔ BetweenDeployments s a := by
  cases a with
  | start message => exact Iff.rfl
  | finish message => exact Iff.rfl
  | check time deliver =>
      show deployMessage s time deliver = none ↔ s.deployments.getLast?.map (·.status) ≠ some .running
      unfold deployMessage
      cases hlast : s.deployments.getLast? with
      | none => simp
      | some row =>
          have hrow := h.ended row (List.mem_of_getLast? hlast)
          rw [Option.bind_some, Option.map_some]
          unfold edgeMessage
          rcases hrow with hstatus | hstatus
          · simp [deployCheck, hstatus, h.known]
          · simp [deployCheck, hstatus, h.known]

theorem unharmed_step {s s' : WatchState Digest} {a : WatchAction} (h : Unharmed s)
    (hquiet : Quiet s a) (hstep : watchStep hash config s a = some s') : Unharmed s' := by
  cases a with
  | start message =>
      rw [watchStep] at hstep
      split_ifs at hstep
      cases hstep
      refine ⟨fun row hrow => ?_, h.known⟩
      rcases List.mem_append.mp hrow with hrow | hrow
      · exact h.ended row hrow
      · rw [List.mem_singleton.mp hrow]
        exact Or.inl rfl
  | finish message =>
      rw [watchStep] at hstep
      split_ifs at hstep
      cases hstep
      refine ⟨fun row hrow => ?_, h.known⟩
      rcases List.mem_append.mp hrow with hrow | hrow
      · exact h.ended row (List.mem_of_mem_dropLast hrow)
      · rw [List.mem_singleton.mp hrow]
        exact Or.inr rfl
  | check time deliver =>
      rw [watchStep] at hstep
      cases hstep
      have hbetween := (quiet_iff h _).mp hquiet
      refine ⟨h.ended, ?_⟩
      show (checkDeployAndBlocklist hash config time deliver s).checkState _ _ ≠ _
      unfold checkDeployAndBlocklist
      cases hlast : s.deployments.getLast? with
      | none => exact h.known
      | some row =>
          -- the newest deployment is deployed, so the check records that it is well
          have hstatus : row.status = .deployed := by
            refine (h.ended row (List.mem_of_getLast? hlast)).resolve_left fun hrunning => ?_
            exact hbetween (by rw [hlast, Option.map_some, hrunning])
          show (fireEdge hash config _ _ s.notifications _).checkState _ _ ≠ _
          rw [checkState_fireEdge]
          simp [deployCheck, hstatus]

/-- **When no check dispatches anything** while all deployments end as deployed: exactly if no check
reads the table while a deployment is running. -/
theorem never_dispatches_iff (hash : String → Digest) (config : NotificationConfig)
    (actions : List WatchAction) :
    Runs.StepsMeet (watchStep hash config) Quiet .fresh actions
      ↔ Runs.StepsMeet (watchStep hash config) BetweenDeployments .fresh actions := by
  have hfresh : Unharmed (WatchState.fresh : WatchState Digest) :=
    ⟨fun row hrow => absurd hrow List.not_mem_nil, fun hbad => by cases hbad⟩
  exact Runs.stepsMeet_congr (fun s a h => quiet_iff h a)
    (fun s a s' h hquiet hstep => unharmed_step h hquiet hstep) actions _ hfresh

/-- A check in the middle of the first deployment reports that it has ended. -/
theorem running_reported : ¬Runs.StepsMeet (watchStep id ⟨30, [], by simp⟩) Quiet .fresh
    [.start "", .check 60 fun _ => none, .finish ""] := by
  rintro ⟨-, h⟩
  obtain ⟨hquiet, -⟩ := h _ rfl
  simp [Quiet, deployMessage, edgeMessage, deployCheck, WatchState.fresh,
    NotificationState.fresh] at hquiet

end AlderpointDNS.Notifications
