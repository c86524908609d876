import AlderpointDNS.Lib.Runs
import AlderpointDNS.Lib.Text
import Mathlib.Logic.Function.Basic

/-!
# Enrollment tokens

One enrollment token on the primary: its row, the replica row of its node, the certificates
issued for it, and the requests that present it.  A request reserves the row, a privileged
process reads it, issues a certificate and completes the enrollment, and the request releases
the reservation when that process failed.  Each transaction is one step, and the steps of all
requests, the sweeps and the revocations interleave freely.

* `enrollStep_cases` — a step either completes an enrollment or leaves the certificates and the
  existence of the replica as they are and moves the status only out of `pending`.
* **`oneTime_iff`** — the token is used once, in every state of a run, exactly when each
  completion still finds it pending.
-/

namespace AlderpointDNS

open Text Runs

inductive EnrollmentStatus where
  | pending
  | consumed
  | revoked
  | expired
  deriving DecidableEq

/-- The statuses a token does not come back from. -/
def EnrollmentStatus.Dead (status : EnrollmentStatus) : Prop :=
  status = .revoked ∨ status = .expired

/-- A row of `replication_enrollments`. -/
structure EnrollmentRow where
  nodeId : Str
  nodeName : Str
  expiresAt : ℕ
  status : EnrollmentStatus
  reservedAt : Option ℕ
  consumedAt : Option ℕ

inductive ReplicaStatus where
  | active
  | paused
  | revoked
  deriving DecidableEq

/-- A row of `replication_replicas`. -/
structure ReplicaRow where
  nodeId : Str
  displayName : Str
  certSerial : ℕ
  enrolledAt : ℕ
  status : ReplicaStatus

def enrollmentTtlMinutes : ℕ := 15

def reservationTtlSeconds : ℕ := 45

/-! ## The statements on the token's row -/

/-- `generate_enrollment_token`. -/
def generateEnrollmentToken (now : ℕ) (nodeId nodeName : Str) : EnrollmentRow where
  nodeId := nodeId
  nodeName := nodeName
  expiresAt := now + 60 * enrollmentTtlMinutes
  status := .pending
  reservedAt := none
  consumedAt := none

/-- `revoke_enrollment`. -/
def revokeEnrollment (row : EnrollmentRow) : EnrollmentRow :=
  if row.status = .pending then { row with status := .revoked } else row

/-- The first statement of `_expire_stale_enrollments`: a token past its time is expired. -/
def expireEnrollment (now : ℕ) (row : EnrollmentRow) : EnrollmentRow :=
  if row.status = .pending ∧ row.expiresAt < now then { row with status := .expired } else row

/-- The second statement: an old reservation is given up. -/
def releaseStaleReservation (now : ℕ) (row : EnrollmentRow) : EnrollmentRow :=
  match row.reservedAt with
  | none => row
  | some reservedAt =>
      if row.status = .pending ∧ reservedAt + reservationTtlSeconds < now then
        { row with reservedAt := none }
      else row

/-- `_expire_stale_enrollments`. -/
def expireStaleEnrollments (now : ℕ) (row : EnrollmentRow) : EnrollmentRow :=
  releaseStaleReservation now (expireEnrollment now row)

/-- The reservation of `request_enrollment_consumption`; `none` is its error. -/
def reserveEnrollment (now : ℕ) (row : EnrollmentRow) : Option EnrollmentRow :=
  if row.status = .pending ∧ row.reservedAt = none ∧ now ≤ row.expiresAt then
    some { row with reservedAt := some now }
  else none

/-- `release_enrollment_reservation`. -/
def releaseEnrollmentReservation (row : EnrollmentRow) : EnrollmentRow :=
  if row.status = .pending then { row with reservedAt := none } else row

/-- What `process_pending_enrollment_consumption` selects. -/
def pendingReservation (row : EnrollmentRow) : Option EnrollmentRow :=
  if row.status = .pending ∧ row.reservedAt ≠ none then some row else none

/-- The replica row after `_finish_enrollment`: inserted, or its certificate replaced. -/
def finishReplica (now : ℕ) (read : EnrollmentRow) (serial : ℕ) : Option ReplicaRow → ReplicaRow
  | none =>
      { nodeId := read.nodeId, displayName := read.nodeName, certSerial := serial,
        enrolledAt := now, status := .active }
  | some replica => { replica with certSerial := serial, enrolledAt := now, status := .active }

/-- The token's row after `_finish_enrollment`, whatever it was. -/
def finishEnrollment (now : ℕ) (row : EnrollmentRow) : EnrollmentRow :=
  { row with status := .consumed, consumedAt := some now }

/-! ## Requests, sweeps and revocations in any order -/

/-- Where a request and its privileged process are. -/
inductive EnrollPhase where
  | idle
  | swept
  | reserved
  | read (row : EnrollmentRow)
  | issued (row : EnrollmentRow) (serial : ℕ)
  | failed

/-- `issued` counts the certificates signed, `recorded` lists the serials written to the replica's
row, the latest first. -/
structure EnrollState where
  clock : ℕ
  row : EnrollmentRow
  replica : Option ReplicaRow
  issued : ℕ
  recorded : List ℕ
  phase : ℕ → EnrollPhase

inductive EnrollAction where
  | tick (seconds : ℕ)
  | sweep
  | revoke
  | setReplicaStatus (status : ReplicaStatus)
  | request (thread : ℕ)
  | reserve (thread : ℕ)
  | read (thread : ℕ)
  | issue (thread : ℕ)
  | fail (thread : ℕ)
  | complete (thread : ℕ) (serverCert : Bool)
  | release (thread : ℕ)

/-- The state before the first request. -/
def enrollStart (now : ℕ) (nodeId nodeName : Str) : EnrollState where
  clock := now
  row := generateEnrollmentToken now nodeId nodeName
  replica := none
  issued := 0
  recorded := []
  phase := fun _ => .idle

/-- The state when a request moves on and the row changes to `row`. -/
def EnrollState.move (s : EnrollState) (t : ℕ) (p : EnrollPhase) (row : EnrollmentRow) :
    EnrollState :=
  { s with row := row, phase := Function.update s.phase t p }

/-- The transaction of `_finish_enrollment`.  `ensure_server_cert` runs after the commit, and the
process fails when it raises. -/
def EnrollState.complete (s : EnrollState) (t : ℕ) (read : EnrollmentRow) (serial : ℕ)
    (serverCert : Bool) : EnrollState :=
  { s.move t (if serverCert then .idle else .failed) (finishEnrollment s.clock s.row) with
    replica := some (finishReplica s.clock read serial s.replica)
    recorded := serial :: s.recorded }

/-- One transaction of one request, or one step of the administrator, the clock or a sweep. -/
def enrollStep (s : EnrollState) : EnrollAction → Option EnrollState
  | .tick seconds => some { s with clock := s.clock + seconds }
  | .sweep => some { s with row := expireStaleEnrollments s.clock s.row }
  | .revoke => some { s with row := revokeEnrollment s.row }
  | .setReplicaStatus status =>
      some { s with replica := s.replica.map fun replica => { replica with status := status } }
  | .request t =>
      match s.phase t with
      | .idle => some (s.move t .swept (expireStaleEnrollments s.clock s.row))
      | _ => none
  | .reserve t =>
      match s.phase t with
      | .swept =>
          match reserveEnrollment s.clock s.row with
          | some row => some (s.move t .reserved row)
          | none => some (s.move t .idle s.row)
      | _ => none
  | .read t =>
      match s.phase t with
      | .reserved =>
          match pendingReservation s.row with
          | some row => some (s.move t (.read row) s.row)
          | none => some (s.move t .failed s.row)
      | _ => none
  | .issue t =>
      match s.phase t with
      | .read row => some { s.move t (.issued row s.issued) s.row with issued := s.issued + 1 }
      | _ => none
  | .fail t =>
      match s.phase t with
      | .reserved | .read _ | .issued _ _ => some (s.move t .failed s.row)
      | _ => none
  | .complete t serverCert =>
      match s.phase t with
      | .issued read serial => some (s.complete t read serial serverCert)
      | _ => none
  | .release t =>
      match s.phase t with
      | .failed => some (s.move t .idle (releaseEnrollmentReservation s.row))
      | _ => none

/-! ## What one step does -/

/-- The status of the row stays, or a pending token dies. -/
def StatusKept (row row' : EnrollmentRow) : Prop :=
  row'.status = row.status ∨ row.status = .pending ∧ row'.status.Dead

theorem statusKept_refl (row : EnrollmentRow) : StatusKept row row := Or.inl rfl

theorem statusKept_revoke (row : EnrollmentRow) : StatusKept row (revokeEnrollment row) := by
  unfold revokeEnrollment
  split_ifs with h
  · exact Or.inr ⟨h, Or.inl rfl⟩
  · exact statusKept_refl row

theorem expireEnrollment_status (now : ℕ) (row : EnrollmentRow) :
    StatusKept row (expireEnrollment now row) := by
  unfold expireEnrollment
  split_ifs with h
  · exact Or.inr ⟨h.1, Or.inr rfl⟩
  · exact statusKept_refl row

theorem releaseStaleReservation_status (now : ℕ) (row : EnrollmentRow) :
    (releaseStaleReservation now row).status = row.status := by
  unfold releaseStaleReservation
  cases row.reservedAt with
  | none => rfl
  | some reservedAt =>
      dsimp only
      split_ifs <;> rfl

theorem statusKept_sweep (now : ℕ) (row : EnrollmentRow) :
    StatusKept row (expireStaleEnrollments now row) := by
  unfold StatusKept expireStaleEnrollments
  rw [releaseStaleReservation_status]
  exact expireEnrollment_status now row

theorem statusKept_reserve {now : ℕ} {row row' : EnrollmentRow}
    (h : reserveEnrollment now row = some row') : StatusKept row row' := by
  unfold reserveEnrollment at h
  split_ifs at h
  cases h
  exact Or.inl rfl

theorem statusKept_release (row : EnrollmentRow) :
    StatusKept row (releaseEnrollmentReservation row) := by
  unfold releaseEnrollmentReservation
  split_ifs
  · exact Or.inl rfl
  · exact statusKept_refl row

/-- A step that completes no enrollment. -/
structure QuietEnroll (s s' : EnrollState) : Prop where
  recorded : s'.recorded = s.recorded
  replica : s'.replica = none ↔ s.replica = none
  status : StatusKept s.row s'.row

theorem quietEnroll_move {s : EnrollState} {row : EnrollmentRow} (t : ℕ) (p : EnrollPhase)
    (h : StatusKept s.row row) : QuietEnroll s (s.move t p row) where
  recorded := rfl
  replica := Iff.rfl
  status := h

/-- A completion is in progress at `t` when its certificate has been issued. -/
def Completes (s : EnrollState) (a : EnrollAction) (s' : EnrollState) : Prop :=
  ∃ t read serial serverCert, a = .complete t serverCert ∧ s.phase t = .issued read serial ∧
    s' = s.complete t read serial serverCert

/-- **What a step can do to the token, its replica and its certificates.** -/
theorem enrollStep_cases {s s' : EnrollState} {a : EnrollAction} (h : enrollStep s a = some s') :
    Completes s a s' ∨ QuietEnroll s s' := by
  cases a with
  | tick seconds =>
      cases h
      exact Or.inr ⟨rfl, Iff.rfl, statusKept_refl _⟩
  | sweep =>
      cases h
      exact Or.inr ⟨rfl, Iff.rfl, statusKept_sweep _ _⟩
  | revoke =>
      cases h
      exact Or.inr ⟨rfl, Iff.rfl, statusKept_revoke _⟩
  | setReplicaStatus status =>
      cases h
      exact Or.inr ⟨rfl, Option.map_eq_none_iff, statusKept_refl _⟩
  | request t =>
      simp only [enrollStep] at h
      split at h <;> cases h
      exact Or.inr (quietEnroll_move t _ (statusKept_sweep _ _))
  | reserve t =>
      simp only [enrollStep] at h
      split at h
      · split at h <;> cases h
        · rename_i hreserve
          exact Or.inr (quietEnroll_move t _ (statusKept_reserve hreserve))
        · exact Or.inr (quietEnroll_move t _ (statusKept_refl _))
      · cases h
  | read t =>
      simp only [enrollStep] at h
      split at h
      · split at h <;> cases h <;> exact Or.inr (quietEnroll_move t _ (statusKept_refl _))
      · cases h
  | issue t =>
      simp only [enrollStep] at h
      split at h <;> cases h
      exact Or.inr ⟨rfl, Iff.rfl, statusKept_refl _⟩
  | fail t =>
      simp only [enrollStep] at h
      split at h <;> cases h <;> exact Or.inr (quietEnroll_move t _ (statusKept_refl _))
  | complete t serverCert =>
      simp only [enrollStep] at h
      split at h <;> cases h
      rename_i read serial hphase
      exact Or.inl ⟨t, read, serial, serverCert, rfl, hphase, rfl⟩
  | release t =>
      simp only [enrollStep] at h
      split at h <;> cases h
      exact Or.inr (quietEnroll_move t _ (statusKept_release _))

/-! ## One-time use -/

/-- The node of the token is an active replica. -/
def ActiveReplica (s : EnrollState) : Prop :=
  ∃ replica, s.replica = some replica ∧ replica.status = .active

/-- In every state of the run at most one certificate has been recorded, and after a state in
which the token is revoked or expired its node is never an active replica. -/
def OneTime (s : EnrollState) (as : List EnrollAction) : Prop :=
  ∀ pre mid post s₁ s₂, as = pre ++ mid ++ post → run enrollStep s pre = some s₁ →
    run enrollStep s₁ mid = some s₂ →
      s₂.recorded.length ≤ 1 ∧ (s₁.row.status.Dead → ¬ActiveReplica s₂)

/-- A completion still finds the token pending. -/
def CompletesPending (s : EnrollState) (a : EnrollAction) : Prop :=
  ∀ s', Completes s a s' → s.row.status = .pending

theorem complete_status (s : EnrollState) (t : ℕ) (read : EnrollmentRow) (serial : ℕ)
    (serverCert : Bool) : (s.complete t read serial serverCert).row.status = .consumed := rfl

theorem complete_active (s : EnrollState) (t : ℕ) (read : EnrollmentRow) (serial : ℕ)
    (serverCert : Bool) : ActiveReplica (s.complete t read serial serverCert) := by
  refine ⟨_, rfl, ?_⟩
  cases s.replica <;> rfl

/-- What holds along a run: only a consumed token has a certificate and a replica. -/
structure EnrollInv (s : EnrollState) : Prop where
  length : s.recorded.length ≤ 1
  unused : s.row.status ≠ .consumed → s.recorded = [] ∧ s.replica = none

theorem not_consumed_of_dead {status : EnrollmentStatus} (h : status.Dead) :
    status ≠ .consumed ∧ status ≠ .pending := by
  rcases h with rfl | rfl <;> exact ⟨nofun, nofun⟩

theorem enrollInv_step (s : EnrollState) (a : EnrollAction) (s' : EnrollState) (hinv : EnrollInv s)
    (hok : CompletesPending s a) (h : enrollStep s a = some s') : EnrollInv s' := by
  rcases enrollStep_cases h with hcomplete | hquiet
  · have hpending := hok s' hcomplete
    obtain ⟨t, read, serial, serverCert, -, -, rfl⟩ := hcomplete
    have hnone := (hinv.unused (by rw [hpending]; nofun)).1
    refine ⟨?_, fun hne => absurd (complete_status s t read serial serverCert) hne⟩
    show (serial :: s.recorded).length ≤ 1
    rw [hnone]
    exact le_rfl
  · refine ⟨by rw [hquiet.recorded]; exact hinv.length, fun hne => ?_⟩
    rw [hquiet.recorded, hquiet.replica]
    refine hinv.unused fun hconsumed => ?_
    rcases hquiet.status with hkept | ⟨hpending, -⟩
    · exact hne (hkept.trans hconsumed)
    · rw [hconsumed] at hpending
      cases hpending

/-- A dead token stays dead. -/
theorem dead_step (s : EnrollState) (a : EnrollAction) (s' : EnrollState)
    (hdead : s.row.status.Dead) (hok : CompletesPending s a) (h : enrollStep s a = some s') :
    s'.row.status.Dead := by
  have hne := not_consumed_of_dead hdead
  rcases enrollStep_cases h with hcomplete | hquiet
  · exact absurd (hok s' hcomplete) hne.2
  · rcases hquiet.status with hkept | ⟨hpending, -⟩
    · rw [hkept]
      exact hdead
    · exact absurd hpending hne.2

/-- Every consumed token has a recorded certificate. -/
theorem recorded_step (s : EnrollState) (a : EnrollAction) (s' : EnrollState)
    (hinv : s.row.status = .consumed → s.recorded ≠ []) (h : enrollStep s a = some s') :
    s'.row.status = .consumed → s'.recorded ≠ [] := by
  rcases enrollStep_cases h with ⟨t, read, serial, serverCert, -, -, rfl⟩ | hquiet
  · exact fun _ => List.cons_ne_nil _ _
  · intro hconsumed
    rw [hquiet.recorded]
    rcases hquiet.status with hkept | ⟨-, hdead⟩
    · exact hinv (hkept ▸ hconsumed)
    · exact absurd hconsumed (not_consumed_of_dead hdead).1

theorem enrollInv_start (now : ℕ) (nodeId nodeName : Str) :
    EnrollInv (enrollStart now nodeId nodeName) where
  length := Nat.zero_le 1
  unused := fun _ => ⟨rfl, rfl⟩

/-- A run that completes pending tokens only uses the token once. -/
theorem oneTime_of_completesPending {s : EnrollState} {as : List EnrollAction} (hinv : EnrollInv s)
    (hok : StepsMeet enrollStep CompletesPending s as) : OneTime s as := by
  rintro pre mid post s₁ s₂ rfl hpre hmid
  have hrun : run enrollStep s (pre ++ mid) = some s₂ := by
    rw [run_append, hpre]
    exact hmid
  have hok₂ := (stepsMeet_append hok hrun).1
  have hinv₂ := run_invariant enrollInv_step _ s s₂ hinv hok₂ hrun
  refine ⟨hinv₂.length, fun hdead hactive => ?_⟩
  have hdead₂ := run_invariant dead_step mid s₁ s₂ hdead (stepsMeet_append hok₂ hpre).2 hmid
  obtain ⟨replica, hreplica, -⟩ := hactive
  rw [(hinv₂.unused (not_consumed_of_dead hdead₂).1).2] at hreplica
  cases hreplica

/-- **One-time use.**  In every state of every run of a new token at most one certificate is
recorded, and a dead token becomes no active replica, exactly when each completion of the run
finds the token pending. -/
theorem oneTime_iff (now : ℕ) (nodeId nodeName : Str) (as : List EnrollAction) :
    OneTime (enrollStart now nodeId nodeName) as ↔
      StepsMeet enrollStep CompletesPending (enrollStart now nodeId nodeName) as := by
  constructor
  · intro honce
    rw [stepsMeet_iff]
    rintro pre a post s₁ rfl hpre s₂ hcomplete
    have hstart : (enrollStart now nodeId nodeName).row.status = .consumed →
        (enrollStart now nodeId nodeName).recorded ≠ [] := fun h => by cases h
    have hsome : s₁.row.status = .consumed → s₁.recorded ≠ [] :=
      run_invariant (fun s a s' hinv _ => recorded_step s a s' hinv) pre _ s₁ hstart
        (stepsMeet_iff.mpr fun _ _ _ _ _ _ => trivial) hpre
    obtain ⟨t, read, serial, serverCert, rfl, hphase, rfl⟩ := hcomplete
    have hstep : run enrollStep s₁ [.complete t serverCert]
        = some (s₁.complete t read serial serverCert) := by
      simp only [run, enrollStep, hphase, Option.bind_some]
    obtain ⟨hlength, hnever⟩ := honce pre [.complete t serverCert] post s₁ _ (by simp) hpre hstep
    have hactive := complete_active s₁ t read serial serverCert
    -- any other status shows as a second certificate or as a dead token's active replica
    cases hstatus : s₁.row.status with
    | pending => rfl
    | consumed =>
        have hpos := List.length_pos_of_ne_nil (hsome hstatus)
        have hlength : s₁.recorded.length + 1 ≤ 1 := hlength
        omega
    | revoked => exact absurd hactive (hnever (Or.inl hstatus))
    | expired => exact absurd hactive (hnever (Or.inr hstatus))
  · exact oneTime_of_completesPending (enrollInv_start now nodeId nodeName)

/-- A request whose privileged process has issued its certificate. -/
def issuedByFirst : List EnrollAction := [.request 0, .reserve 0, .read 0, .issue 0]

/-- The administrator revokes the token while the certificate is being issued, and the completion
makes an active replica all the same.  A second request takes over a reservation older than 45
seconds, and both of them complete. -/
theorem not_oneTime :
    ¬OneTime (enrollStart 0 "node".toList "replica".toList)
      (issuedByFirst ++ [.revoke, .complete 0 true]) ∧
    ¬OneTime (enrollStart 0 "node".toList "replica".toList)
      (issuedByFirst ++ [.tick 46, .request 1, .reserve 1, .read 1, .issue 1, .complete 1 true,
        .complete 0 true]) := by
  constructor
  · intro honce
    obtain ⟨-, hnever⟩ := honce (issuedByFirst ++ [.revoke]) [.complete 0 true] [] _ _ rfl rfl rfl
    exact hnever (Or.inl rfl) (complete_active _ _ _ _ _)
  · intro honce
    have hlength := (honce [] _ [] _ _ (List.append_nil _).symm rfl rfl).1
    exact absurd hlength (by decide)

end AlderpointDNS
