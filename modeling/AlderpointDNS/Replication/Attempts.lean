import AlderpointDNS.Replication.Enrollment

/-!
# Replies to enrollment attempts

`_handle_enroll` answers each attempt, and the replica knows of its enrollment what the answer
says.  The steps of `Enrollment` get the replies: a reservation that is refused and a reservation
that is released are answered with an error, and a privileged process that ends well with its
certificate.  After its commit that process still issues the server's certificate, reads the
certificate of the CA and writes its result, all of which can fail.

* `attemptStep_cases` — a step completes an attempt, answers one, or does neither.
* **`attempts_graceful_iff`** — an error leaves the token as it was and a consumed token is a certificate
  received, in every state of a run, exactly when nothing fails after a commit.
-/

namespace AlderpointDNS

open Text Runs

/-- What becomes of the reply to an attempt. -/
inductive EnrollReply where
  | error
  | certificate
  /-- the certificate was sent, and the connection broke -/
  | lost
  deriving DecidableEq

/-- Each attempt makes one request.  `completed` lists those whose `_finish_enrollment` has
committed: they have consumed the token and made the replica active. -/
structure AttemptState extends EnrollState where
  completed : List ℕ
  reply : ℕ → Option EnrollReply

inductive AttemptAction where
  /-- In a `complete`, `serverCert` is `false` when anything fails after the commit: in the
  privileged process, or in reading what it printed. -/
  | core (a : EnrollAction)
  /-- The handler raises before it has a reservation: no token, or the database is busy. -/
  | refuse (attempt : ℕ)
  /-- `release_enrollment_reservation` raises: the database is busy. -/
  | unreleased (attempt : ℕ)
  /-- `self._reply(200, result)`. -/
  | deliver (attempt : ℕ) (arrives : Bool)

/-- The state before the first attempt. -/
def attemptStart (now : ℕ) (nodeId nodeName : Str) (replica : Option ReplicaRow) :
    AttemptState where
  toEnrollState := { enrollStart now nodeId nodeName with replica := replica }
  completed := []
  reply := fun _ => none

def AttemptState.answer (s : AttemptState) (t : ℕ) (r : EnrollReply) : AttemptState :=
  { s with reply := Function.update s.reply t (some r) }

/-- The attempt `t` ends with an error. -/
def AttemptState.raise (s : AttemptState) (t : ℕ) : AttemptState :=
  { s with toEnrollState := s.move t .idle s.row }.answer t .error

/-- A step of the token, its requests and its replica. -/
def AttemptState.core (s : AttemptState) (a : EnrollAction) : Option AttemptState :=
  (enrollStep s.toEnrollState a).map fun next => { s with toEnrollState := next }

/-- One step. -/
def attemptStep (s : AttemptState) : AttemptAction → Option AttemptState
  | .core (.request t) =>
      if t ∈ s.completed ∨ s.reply t ≠ none then none else s.core (.request t)
  | .core (.reserve t) =>
      (s.core (.reserve t)).map fun next =>
        match next.phase t with
        | .idle => next.answer t .error
        | _ => next
  | .core (.complete t serverCert) =>
      (s.core (.complete t serverCert)).map fun next =>
        { next with completed := t :: next.completed }
  | .core (.release t) => (s.core (.release t)).map fun next => next.answer t .error
  | .core a => s.core a
  | .refuse t =>
      match s.phase t with
      | .swept => some (s.raise t)
      | .idle => if t ∈ s.completed ∨ s.reply t ≠ none then none else some (s.raise t)
      | _ => none
  | .unreleased t =>
      match s.phase t with
      | .failed => some (s.raise t)
      | _ => none
  | .deliver t arrives =>
      match s.phase t with
      | .idle =>
          if t ∈ s.completed ∧ s.reply t = none then
            some (s.answer t (if arrives then .certificate else .lost))
          else none
      | _ => none

/-- Nothing fails after a commit, and the reply with the certificate arrives. -/
def NothingFailsAfterCommit : AttemptAction → Prop
  | .core (.complete _ serverCert) => serverCert = true
  | .deliver _ arrives => arrives = true
  | _ => True

/-! ## What one step does -/

section Steps

variable {s s' : AttemptState}

/-- The attempt has committed its enrollment, or has its reply. -/
def AttemptState.Settled (s : AttemptState) (t : ℕ) : Prop := t ∈ s.completed ∨ s.reply t ≠ none

/-- What holds along a run. -/
structure AttemptInv (s : AttemptState) : Prop where
  settled : ∀ t, s.Settled t → s.phase t = .idle ∨ s.phase t = .failed ∧ s.reply t = none
  used : s.row.status = .consumed → s.completed ≠ []

/-- The attempt `t` commits. -/
structure Commits (s : AttemptState) (t : ℕ) (serverCert : Bool) (s' : AttemptState) : Prop where
  unsettled : ¬s.Settled t
  completed : s'.completed = t :: s.completed
  reply : s'.reply = s.reply
  phase : s'.phase = Function.update s.phase t (if serverCert then .idle else .failed)
  status : s'.row.status = .consumed

/-- The attempt `t` gets its reply. -/
structure Answers (s : AttemptState) (t : ℕ) (r : EnrollReply) (s' : AttemptState) : Prop where
  unanswered : s.reply t = none
  completed : s'.completed = s.completed
  reply : s'.reply = Function.update s.reply t (some r)
  phase : s'.phase = Function.update s.phase t .idle
  status : StatusKept s.row s'.row

/-- No attempt commits or gets its reply. -/
structure Proceeds (s s' : AttemptState) : Prop where
  completed : s'.completed = s.completed
  reply : s'.reply = s.reply
  phase : ∀ t, s.Settled t → s'.phase t = s.phase t
  status : StatusKept s.row s'.row

/-- What a step that neither commits nor delivers does. -/
def Continues (s s' : AttemptState) : Prop :=
  (∃ t, (t ∈ s.completed → s.phase t = .failed) ∧ Answers s t .error s') ∨ Proceeds s s'

/-- The handler waits for the privileged process, or is about to reserve the token. -/
def EnrollPhase.underWay : EnrollPhase → Bool
  | .idle | .failed => false
  | .swept | .reserved | .read _ | .issued _ _ => true

theorem AttemptInv.unsettled (h : AttemptInv s) {t : ℕ} {p : EnrollPhase} (hphase : s.phase t = p)
    (hp : p.underWay = true) : ¬s.Settled t := fun hsettled => by
  rcases h.settled t hsettled with hidle | ⟨hfailed, -⟩
  · rw [← hphase, hidle] at hp
    cases hp
  · rw [← hphase, hfailed] at hp
    cases hp

theorem AttemptInv.unanswered_of_failed (h : AttemptInv s) {t : ℕ} (hphase : s.phase t = .failed) :
    s.reply t = none := by
  by_contra hreply
  rcases h.settled t (Or.inr hreply) with hidle | ⟨-, hnone⟩
  · rw [hphase] at hidle
    cases hidle
  · exact hreply hnone

theorem unanswered_of_unsettled {t : ℕ} (h : ¬s.Settled t) : s.reply t = none := by
  rw [AttemptState.Settled, not_or, not_not] at h
  exact h.2

/-- Only the attempt `t` moves, and it is under way. -/
theorem continues_move {t : ℕ} {p : EnrollPhase} {row : EnrollmentRow} {issued : ℕ}
    (h : ¬s.Settled t) (hstatus : StatusKept s.row row) :
    Continues s { s with toEnrollState := { s.move t p row with issued := issued } } := by
  refine Or.inr ⟨rfl, rfl, fun t' ht' => ?_, hstatus⟩
  have hne : t' ≠ t := by
    rintro rfl
    exact h ht'
  exact Function.update_of_ne hne _ _

theorem continues_raise {t : ℕ} (hreply : s.reply t = none)
    (hphase : t ∈ s.completed → s.phase t = .failed) : Continues s (s.raise t) :=
  Or.inl ⟨t, hphase, hreply, rfl, rfl, rfl, statusKept_refl _⟩

/-- The steps of the token and its requests, but for a commit. -/
theorem core_continues (hinv : AttemptInv s) {a : EnrollAction}
    (ha : ∀ t serverCert, a ≠ .complete t serverCert) (h : attemptStep s (.core a) = some s') :
    Continues s s' := by
  cases a with
  | tick seconds =>
      cases h
      exact Or.inr ⟨rfl, rfl, fun _ _ => rfl, statusKept_refl _⟩
  | sweep =>
      cases h
      exact Or.inr ⟨rfl, rfl, fun _ _ => rfl, statusKept_sweep _ _⟩
  | revoke =>
      cases h
      exact Or.inr ⟨rfl, rfl, fun _ _ => rfl, statusKept_revoke _⟩
  | setReplicaStatus status =>
      cases h
      exact Or.inr ⟨rfl, rfl, fun _ _ => rfl, statusKept_refl _⟩
  | request t =>
      simp only [attemptStep] at h
      split_ifs at h with hsettled
      simp only [AttemptState.core, enrollStep] at h
      split at h <;> cases h
      exact continues_move hsettled (statusKept_sweep _ _)
  | reserve t =>
      simp only [attemptStep, AttemptState.core, enrollStep] at h
      cases hphase : s.phase t with
      | swept =>
          have hunsettled := hinv.unsettled hphase rfl
          rw [hphase] at h
          cases hreserve : reserveEnrollment s.clock s.row with
          | some row =>
              rw [hreserve] at h
              simp [EnrollState.move] at h
              subst h
              exact continues_move hunsettled (statusKept_reserve hreserve)
          | none =>
              rw [hreserve] at h
              simp [EnrollState.move] at h
              subst h
              exact continues_raise (unanswered_of_unsettled hunsettled)
                fun hmem => absurd (Or.inl hmem) hunsettled
      | _ =>
          rw [hphase] at h
          cases h
  | read t =>
      simp only [attemptStep, AttemptState.core, enrollStep] at h
      cases hphase : s.phase t with
      | reserved =>
          have hunsettled := hinv.unsettled hphase rfl
          rw [hphase] at h
          cases hread : pendingReservation s.row with
          | some row =>
              rw [hread] at h
              cases h
              exact continues_move hunsettled (statusKept_refl _)
          | none =>
              rw [hread] at h
              cases h
              exact continues_move hunsettled (statusKept_refl _)
      | _ =>
          rw [hphase] at h
          cases h
  | issue t =>
      simp only [attemptStep, AttemptState.core, enrollStep] at h
      cases hphase : s.phase t with
      | read row =>
          have hunsettled := hinv.unsettled hphase rfl
          rw [hphase] at h
          cases h
          exact continues_move hunsettled (statusKept_refl _)
      | _ =>
          rw [hphase] at h
          cases h
  | fail t =>
      simp only [attemptStep, AttemptState.core, enrollStep] at h
      have hmove : ∀ {p : EnrollPhase}, s.phase t = p → p.underWay = true →
          Continues s { s with toEnrollState := s.move t .failed s.row } := fun hphase hp =>
        continues_move (hinv.unsettled hphase hp) (statusKept_refl _)
      cases hphase : s.phase t with
      | reserved =>
          rw [hphase] at h
          cases h
          exact hmove hphase rfl
      | read row =>
          rw [hphase] at h
          cases h
          exact hmove hphase rfl
      | issued row serial =>
          rw [hphase] at h
          cases h
          exact hmove hphase rfl
      | _ =>
          rw [hphase] at h
          cases h
  | complete t serverCert => exact absurd rfl (ha t serverCert)
  | release t =>
      simp only [attemptStep, AttemptState.core, enrollStep] at h
      cases hphase : s.phase t with
      | failed =>
          rw [hphase] at h
          cases h
          exact Or.inl ⟨t, fun _ => hphase, hinv.unanswered_of_failed hphase, rfl, rfl, rfl,
            statusKept_release _⟩
      | _ =>
          rw [hphase] at h
          cases h

/-- A commit. -/
theorem complete_commits (hinv : AttemptInv s) {t : ℕ} {serverCert : Bool}
    (h : attemptStep s (.core (.complete t serverCert)) = some s') : Commits s t serverCert s' := by
  simp only [attemptStep, AttemptState.core, enrollStep] at h
  cases hphase : s.phase t with
  | issued read serial =>
      rw [hphase] at h
      cases h
      exact ⟨hinv.unsettled hphase rfl, rfl, rfl, rfl, rfl⟩
  | _ =>
      rw [hphase] at h
      cases h

/-- The handler raises. -/
theorem raise_continues (hinv : AttemptInv s) {a : AttemptAction} {t : ℕ}
    (ha : a = .refuse t ∨ a = .unreleased t) (h : attemptStep s a = some s') : Continues s s' := by
  rcases ha with rfl | rfl
  · simp only [attemptStep] at h
    cases hphase : s.phase t with
    | swept =>
        have hunsettled := hinv.unsettled hphase rfl
        rw [hphase] at h
        cases h
        exact continues_raise (unanswered_of_unsettled hunsettled)
          fun hmem => absurd (Or.inl hmem) hunsettled
    | idle =>
        rw [hphase] at h
        dsimp only at h
        split_ifs at h with hsettled
        cases h
        rw [not_or, not_not] at hsettled
        exact continues_raise hsettled.2 fun hmem => absurd hmem hsettled.1
    | _ =>
        rw [hphase] at h
        cases h
  · simp only [attemptStep] at h
    cases hphase : s.phase t with
    | failed =>
        rw [hphase] at h
        cases h
        exact continues_raise (hinv.unanswered_of_failed hphase) fun _ => hphase
    | _ =>
        rw [hphase] at h
        cases h

/-- The reply with the certificate. -/
theorem deliver_answers {t : ℕ} {arrives : Bool} (h : attemptStep s (.deliver t arrives) = some s') :
    t ∈ s.completed ∧ Answers s t (if arrives then .certificate else .lost) s' := by
  simp only [attemptStep] at h
  cases hphase : s.phase t with
  | idle =>
      rw [hphase] at h
      by_cases hready : t ∈ s.completed ∧ s.reply t = none
      · simp only [if_pos hready, Option.some.injEq] at h
        subst h
        refine ⟨hready.1, hready.2, rfl, rfl, ?_, statusKept_refl _⟩
        rw [← hphase]
        exact (Function.update_eq_self t s.phase).symm
      · simp only [if_neg hready, reduceCtorEq] at h
  | _ =>
      rw [hphase] at h
      cases h

/-- **What a step does to the attempts.** -/
theorem attemptStep_cases (hinv : AttemptInv s) {a : AttemptAction}
    (h : attemptStep s a = some s') :
    (∃ t serverCert, a = .core (.complete t serverCert) ∧ Commits s t serverCert s') ∨
    (∃ t arrives, a = .deliver t arrives ∧ t ∈ s.completed ∧
      Answers s t (if arrives then .certificate else .lost) s') ∨
    (NothingFailsAfterCommit a ∧ Continues s s') := by
  cases a with
  | core a =>
      cases a with
      | complete t serverCert => exact Or.inl ⟨t, serverCert, rfl, complete_commits hinv h⟩
      | _ =>
          refine Or.inr (Or.inr ⟨trivial, core_continues hinv (fun t serverCert heq => ?_) h⟩)
          cases heq
  | refuse t => exact Or.inr (Or.inr ⟨trivial, raise_continues hinv (Or.inl rfl) h⟩)
  | unreleased t => exact Or.inr (Or.inr ⟨trivial, raise_continues hinv (Or.inr rfl) h⟩)
  | deliver t arrives => exact Or.inr (Or.inl ⟨t, arrives, rfl, deliver_answers h⟩)

theorem attemptInv_start (now : ℕ) (nodeId nodeName : Str) (replica : Option ReplicaRow) :
    AttemptInv (attemptStart now nodeId nodeName replica) where
  settled := fun t h => by simp [AttemptState.Settled, attemptStart] at h
  used := fun h => by cases h

theorem used_kept (hinv : AttemptInv s) (hcompleted : s'.completed = s.completed)
    (hstatus : StatusKept s.row s'.row) : s'.row.status = .consumed → s'.completed ≠ [] := by
  intro hconsumed
  rw [hcompleted]
  rcases hstatus with hkept | ⟨-, hdead⟩
  · exact hinv.used (hkept.symm.trans hconsumed)
  · exact absurd hconsumed (not_consumed_of_dead hdead).1

theorem attemptInv_answers (hinv : AttemptInv s) {t : ℕ} {r : EnrollReply} (h : Answers s t r s') :
    AttemptInv s' where
  settled := fun t' ht' => by
    rw [h.phase]
    by_cases hsame : t' = t
    · rw [hsame, Function.update_self]
      exact Or.inl rfl
    · rw [AttemptState.Settled, h.completed, h.reply, Function.update_of_ne hsame] at ht'
      rw [h.reply, Function.update_of_ne hsame, Function.update_of_ne hsame]
      exact hinv.settled t' ht'
  used := used_kept hinv h.completed h.status

theorem attemptInv_step (s : AttemptState) (a : AttemptAction) (s' : AttemptState)
    (hinv : AttemptInv s) (h : attemptStep s a = some s') : AttemptInv s' := by
  rcases attemptStep_cases hinv h with ⟨t, serverCert, -, hcommits⟩ | ⟨t, arrives, -, -, hanswers⟩ |
    ⟨-, ⟨t, -, hanswers⟩ | hproceeds⟩
  · obtain ⟨hunsettled, hcompleted, hreply, hphase, -⟩ := hcommits
    refine ⟨fun t' ht' => ?_, fun _ => by rw [hcompleted]; exact List.cons_ne_nil _ _⟩
    rw [AttemptState.Settled, hcompleted, hreply, List.mem_cons, or_assoc] at ht'
    rw [hphase, hreply]
    by_cases hsame : t' = t
    · subst hsame
      rw [AttemptState.Settled, not_or, not_not] at hunsettled
      rw [Function.update_self]
      cases serverCert with
      | true => exact Or.inl rfl
      | false => exact Or.inr ⟨rfl, hunsettled.2⟩
    · rw [Function.update_of_ne hsame]
      exact hinv.settled t' (ht'.resolve_left hsame)
  · exact attemptInv_answers hinv hanswers
  · exact attemptInv_answers hinv hanswers
  · refine ⟨fun t ht => ?_, used_kept hinv hproceeds.completed hproceeds.status⟩
    rw [AttemptState.Settled, hproceeds.completed, hproceeds.reply] at ht
    rw [hproceeds.phase t ht, hproceeds.reply]
    exact hinv.settled t ht

end Steps

/-! ## What the replica knows -/

/-- The token is pending, unless the administrator revoked it, it has expired, or an attempt other
than `t` has consumed it. -/
def StillPending (s : AttemptState) (t : ℕ) : Prop :=
  s.row.status = .pending ∨ s.row.status.Dead ∨ ∃ t' ∈ s.completed, t' ≠ t

/-- An attempt that gets an error has made no replica active and leaves the token pending; one
that has consumed the token has its certificate, or the reply with it is under way. -/
structure Graceful (s : AttemptState) : Prop where
  error : ∀ t, s.reply t = some .error → t ∉ s.completed ∧ StillPending s t
  consumed : ∀ t ∈ s.completed,
    s.reply t = some .certificate ∨ s.reply t = none ∧ s.phase t ≠ .failed

section Graceful

variable {s s' : AttemptState}

theorem stillPending_of_not_mem (hinv : AttemptInv s) {t : ℕ} (h : t ∉ s.completed) :
    StillPending s t := by
  unfold StillPending
  cases hstatus : s.row.status with
  | pending => exact Or.inl rfl
  | revoked => exact Or.inr (Or.inl (Or.inl rfl))
  | expired => exact Or.inr (Or.inl (Or.inr rfl))
  | consumed =>
      obtain ⟨t', ht'⟩ := List.exists_mem_of_ne_nil _ (hinv.used hstatus)
      exact Or.inr (Or.inr ⟨t', ht', fun heq => h (heq ▸ ht')⟩)

/-- An error goes to an attempt that has not committed: the rest follows from the invariant. -/
theorem graceful_iff_consumed (hinv : AttemptInv s) :
    Graceful s ↔ ∀ t ∈ s.completed,
      s.reply t = some .certificate ∨ s.reply t = none ∧ s.phase t ≠ .failed := by
  refine ⟨fun h => h.consumed, fun h => ⟨fun t herror => ?_, h⟩⟩
  have hnot : t ∉ s.completed := fun hmem => by
    rcases h t hmem with hreply | ⟨hreply, -⟩
    · rw [herror] at hreply
      cases hreply
    · rw [herror] at hreply
      cases hreply
  exact ⟨hnot, stillPending_of_not_mem hinv hnot⟩

theorem graceful_commits (hgood : Graceful s) (hinv' : AttemptInv s') {t : ℕ}
    {serverCert : Bool} (h : Commits s t serverCert s') : Graceful s' ↔ serverCert = true := by
  obtain ⟨hunsettled, hcompleted, hreply, hphase, -⟩ := h
  rw [AttemptState.Settled, not_or, not_not] at hunsettled
  rw [graceful_iff_consumed hinv', hcompleted, List.forall_mem_cons, hreply, hphase,
    Function.update_self, hunsettled.2]
  constructor
  · rintro ⟨hreceived, -⟩
    cases serverCert with
    | true => rfl
    | false => simp at hreceived
  · rintro rfl
    refine ⟨Or.inr ⟨rfl, fun h => by cases h⟩, fun t' ht' => ?_⟩
    have hne : t' ≠ t := fun heq => hunsettled.1 (heq ▸ ht')
    rw [Function.update_of_ne hne]
    exact hgood.consumed t' ht'

theorem graceful_answers (hgood : Graceful s) (hinv' : AttemptInv s') {t : ℕ} {r : EnrollReply}
    (h : Answers s t r s') : Graceful s' ↔ (t ∈ s.completed → r = .certificate) := by
  rw [graceful_iff_consumed hinv', h.completed, h.reply, h.phase]
  constructor
  · intro hall hmem
    simpa using hall t hmem
  · intro hcertificate t' ht'
    by_cases hsame : t' = t
    · subst hsame
      rw [Function.update_self, hcertificate ht']
      exact Or.inl rfl
    · rw [Function.update_of_ne hsame, Function.update_of_ne hsame]
      exact hgood.consumed t' ht'

/-- **A step keeps this exactly when nothing fails after its commit.** -/
theorem graceful_step (s : AttemptState) (a : AttemptAction) (s' : AttemptState)
    (hinv : AttemptInv s) (hgood : Graceful s) (h : attemptStep s a = some s') :
    Graceful s' ↔ NothingFailsAfterCommit a := by
  have hinv' := attemptInv_step s a s' hinv h
  rcases attemptStep_cases hinv h with ⟨t, serverCert, rfl, hcommits⟩ |
    ⟨t, arrives, rfl, hmem, hanswers⟩ | ⟨hnothing, ⟨t, hfailed, hanswers⟩ | hproceeds⟩
  · exact graceful_commits hgood hinv' hcommits
  · rw [graceful_answers hgood hinv' hanswers]
    cases arrives with
    | true => simp [NothingFailsAfterCommit]
    | false => simp [NothingFailsAfterCommit, hmem]
  · refine iff_of_true ?_ hnothing
    rw [graceful_answers hgood hinv' hanswers]
    intro hmem
    rcases hgood.consumed t hmem with hreply | ⟨-, hphase⟩
    · rw [hanswers.unanswered] at hreply
      cases hreply
    · exact absurd (hfailed hmem) hphase
  · refine iff_of_true ?_ hnothing
    rw [graceful_iff_consumed hinv', hproceeds.completed, hproceeds.reply]
    intro t hmem
    rw [hproceeds.phase t (Or.inl hmem)]
    exact hgood.consumed t hmem

end Graceful

/-- **An error leaves the token pending and makes no replica active, and whoever consumes the
token gets the certificate, in every state of every run exactly when nothing fails after a
commit.** -/
theorem attempts_graceful_iff (now : ℕ) (nodeId nodeName : Str) (replica : Option ReplicaRow)
    (as : List AttemptAction) (s' : AttemptState)
    (hrun : run attemptStep (attemptStart now nodeId nodeName replica) as = some s') :
    (∀ a ∈ as, NothingFailsAfterCommit a) ↔
      ∀ before s, before <+: as →
        run attemptStep (attemptStart now nodeId nodeName replica) before = some s →
          Graceful s := by
  have hinv := attemptInv_start now nodeId nodeName replica
  have hgood : Graceful (attemptStart now nodeId nodeName replica) :=
    (graceful_iff_consumed hinv).mpr fun t hmem => absurd hmem List.not_mem_nil
  rw [← stepsMeet_iff_forall_mem hrun]
  exact stepsMeet_iff_forall_reached
    (fun s a s' hinv (_ : True) => attemptInv_step s a s' hinv)
    (fun s a s' hinv hgood _ => graceful_step s a s' hinv hgood) as _ s' hinv hgood
    (fun _ _ => trivial) hrun

/-- An attempt, from its request to its certificate. -/
def enrolledAttempt : List AttemptAction :=
  [.core (.request 0), .core (.reserve 0), .core (.read 0), .core (.issue 0),
    .core (.complete 0 true), .deliver 0 true]

theorem graceful_enrolledAttempt :
    ∃ s, run attemptStep (attemptStart 0 "node".toList "replica".toList none) enrolledAttempt
        = some s ∧ s.reply 0 = some .certificate ∧ Graceful s := by
  refine ⟨_, rfl, rfl, ?_⟩
  refine (attempts_graceful_iff 0 "node".toList "replica".toList none enrolledAttempt _ rfl).mp ?_
    enrolledAttempt _ (List.prefix_refl _) rfl
  simp [enrolledAttempt, NothingFailsAfterCommit]

/-- The certificate of the server cannot be issued after the commit, and the attempt is answered
with an error. -/
def serverCertFails : List AttemptAction :=
  [.core (.request 0), .core (.reserve 0), .core (.read 0), .core (.issue 0),
    .core (.complete 0 false), .core (.release 0)]

/-- **The token is consumed all the same, and the node is an active replica.** -/
theorem consumed_after_error :
    ∃ s, run attemptStep (attemptStart 0 "node".toList "replica".toList none) serverCertFails
        = some s ∧ s.reply 0 = some .error ∧ s.row.status = .consumed ∧
      (∃ replica, s.replica = some replica ∧ replica.status = .active) ∧ ¬Graceful s := by
  refine ⟨_, rfl, rfl, rfl, ⟨_, rfl, rfl⟩, fun hgood => ?_⟩
  exact (hgood.error 0 rfl).1 List.mem_cons_self

end AlderpointDNS
