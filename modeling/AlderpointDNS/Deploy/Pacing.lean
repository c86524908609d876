import AlderpointDNS.Deploy.Coordinator
import AlderpointDNS.Lib.Programs
import AlderpointDNS.Lib.Text
import Mathlib.Data.List.Chain
import Mathlib.Tactic.Linarith

/-!
# Restarts of dnsdist in upstream deployments

`_upstream_deploy_coordinator` keeps 16 seconds between the end of a deployment that used a restart
and the start of the next one, so that five restarts would take 64 seconds and `StartLimitBurst`
(five in 60 seconds) is not reached.  That counts deployments, not restarts: one that fails after
it has restarted dnsdist restarts it once more in its rollback.

* `paces_of_restarts` — a deployment that restarts dnsdist is paced, whatever becomes of it;
* `restarts_upstreamDeploy_le` — which deployments restart dnsdist twice;
* `Spaced` — the restarts so far are 16 seconds apart, and so is the next one;
* **`restarts_lt_five`** — the bound, for the deployments that restart dnsdist at most once.
* `six_restarts` — three deployments in a row that roll back from their own restart.
-/

namespace AlderpointDNS.Deploy

open Text

/-! ## A deployment -/

/-- What a run of `upstream-deploy` meets. -/
structure UpstreamWorld where
  /-- `sudo` is started -/
  spawned : Bool
  /-- the lock is taken, and the statements before `try` pass -/
  began : Bool
  deploymentId : ℕ
  /-- `len(rows)` -/
  enabled : ℕ
  /-- `len(dnsdist_rows)` -/
  rendered : ℕ
  /-- the files are written, and both checks accept them -/
  checked : Bool
  /-- `_console_reconcile(dnsdist_rows)` -/
  reconciled : Bool
  /-- `systemctl restart dnsdist` exits with 0 -/
  restarted : Bool
  /-- `rndc` exits with 0, and `dig` gets an answer before the deadline -/
  resolves : Bool
  /-- the statuses of the resolvers are written -/
  noted : Bool
  downCount : ℕ
  /-- the deployment is written in `finally`, and `last_deployment` reads it -/
  recorded : Bool
  /-- what is printed of an exception -/
  traceback : Str
deriving DecidableEq

/-- Where a deployment fails. -/
inductive UpstreamFault where
  | database
  | lastEnabled
  | rendering
  | staging
  | restart
  | resolution
deriving DecidableEq

/-- `f"{n}"`. -/
def decimal (n : ℕ) : Str := Nat.toDigits 10 n

def appliedLive : Str := "applied live, no dnsdist restart".toList

def appliedViaRestart : Str := "applied via dnsdist restart".toList

def activationNote (w : UpstreamWorld) : Str :=
  if w.reconciled then appliedLive else appliedViaRestart

def deployedCount (w : UpstreamWorld) : Str :=
  if w.rendered = w.enabled then decimal w.enabled
  else decimal w.rendered ++ " of ".toList ++ decimal w.enabled

def downNote (w : UpstreamWorld) : Str :=
  if w.downCount = 0 then []
  else " (".toList ++ decimal w.downCount ++
    " of them currently unreachable; traffic is being served by the rest)".toList

/-- `message` of a deployment that succeeds. -/
def deployedMessage (w : UpstreamWorld) : Str :=
  "deployed ".toList ++ deployedCount w ++ " enabled upstream resolver(s) (".toList ++
    activationNote w ++ ")".toList ++ downNote w

/-- The body of `try` in `deploy_upstreams`; the state counts the executions of
`systemctl restart dnsdist`. -/
def activateUpstreams (w : UpstreamWorld) : Program ℕ UpstreamFault Str := do
  if w.rendered = 0 then throw .rendering
  if !w.checked then throw .staging
  if !w.reconciled then
    modify (· + 1)
    if !w.restarted then throw .restart
  if !w.resolves then throw .resolution
  if !w.noted then throw .database
  return deployedMessage w

/-- `deploy_upstreams`, with the message that `_run_upstream_deploy_for_cli` reads afterwards. -/
def deployUpstreams (w : UpstreamWorld) : Except UpstreamFault (ℕ × Str) × ℕ :=
  if w.began = false then (.error .database, 0)
  else if w.enabled = 0 then (.error .lastEnabled, 0)
  else
    match activateUpstreams w 0 with
    -- the files are put back, and dnsdist is restarted with them
    | (.error e, restarts) => (.error e, restarts + 1)
    | (.ok message, restarts) =>
        (if w.recorded then .ok (w.deploymentId, message) else .error .database, restarts)

/-- `proc.stdout[-4000:]`. -/
def lastOutput (out : Str) : Str := out.drop (out.length - 4000)

/-- What `_run_upstream_deploy_for_cli` prints. -/
def deployOutput (deploymentId : ℕ) (message : Str) : Str :=
  decimal deploymentId ++ " ".toList ++ message ++ "\n".toList

/-- `upstream_deploy`, which raises where `sudo` is not started. -/
def upstreamDeploy (w : UpstreamWorld) : Execution (ℤ × Str) Unit :=
  if w.spawned then
    match deployUpstreams w with
    | (.ok (deploymentId, message), restarts) =>
        ⟨restarts, .ok (0, lastOutput (deployOutput deploymentId message))⟩
    | (.error _, restarts) => ⟨restarts, .ok (1, lastOutput w.traceback)⟩
  else ⟨0, .error ()⟩

def noDnsdistRestart : Str := "no dnsdist restart".toList

/-- `_upstream_deploy_used_a_restart`. -/
def upstreamDeployUsedARestart (result : ℤ × Str) : Bool :=
  !(result.1 = 0 && isSubstring noDnsdistRestart result.2)

/-- `_upstream_deploy_coordinator`. -/
def upstreamDeployCoordinator : Coordinator UpstreamWorld (ℤ × Str) Unit where
  runOnce := upstreamDeploy
  minIntervalSeconds := 16
  shouldPace := upstreamDeployUsedARestart


/-! ## How often a deployment restarts dnsdist -/

/-- The console does not apply the deployment, so that it restarts dnsdist. -/
def UpstreamWorld.FallsBack (w : UpstreamWorld) : Prop :=
  w.rendered ≠ 0 ∧ w.checked = true ∧ w.reconciled = false

/-- The deployment fails, and is rolled back, after it has restarted dnsdist. -/
def UpstreamWorld.FailsAfterRestart (w : UpstreamWorld) : Prop :=
  w.spawned = true ∧ w.began = true ∧ w.enabled ≠ 0 ∧ w.FallsBack ∧
    ¬(w.restarted = true ∧ w.resolves = true ∧ w.noted = true)

variable (w : UpstreamWorld)

/-- The body of `try` restarts dnsdist where the console does not apply the deployment. -/
theorem activateUpstreams_eq (n : ℕ) :
    (w.FallsBack ∧ ∃ r, activateUpstreams w n = (r, n + 1) ∧
      (r = .ok (deployedMessage w) ∧ w.restarted = true ∧ w.resolves = true ∧ w.noted = true ∨
        (∃ e, r = .error e) ∧ ¬(w.restarted = true ∧ w.resolves = true ∧ w.noted = true))) ∨
    (¬w.FallsBack ∧ ∃ r, activateUpstreams w n = (r, n) ∧
      (r = .ok (deployedMessage w) ∧ w.reconciled = true ∨ ∃ e, r = .error e)) := by
  rcases w with ⟨spawned, began, deploymentId, enabled, rendered, checked, reconciled, restarted,
    resolves, noted, downCount, recorded, traceback⟩
  rcases rendered with _ | rendered
  · exact .inr ⟨fun h => h.1 rfl, _, rfl, .inr ⟨_, rfl⟩⟩
  cases checked with
  | false => exact .inr ⟨fun h => Bool.noConfusion h.2.1, _, rfl, .inr ⟨_, rfl⟩⟩
  | true =>
      cases reconciled with
      | true =>
          refine .inr ⟨fun h => Bool.noConfusion h.2.2, ?_⟩
          cases resolves with
          | false => exact ⟨_, rfl, .inr ⟨_, rfl⟩⟩
          | true =>
              cases noted with
              | false => exact ⟨_, rfl, .inr ⟨_, rfl⟩⟩
              | true => exact ⟨_, rfl, .inl ⟨rfl, rfl⟩⟩
      | false =>
          refine .inl ⟨⟨Nat.succ_ne_zero rendered, rfl, rfl⟩, ?_⟩
          cases restarted with
          | false => exact ⟨_, rfl, .inr ⟨⟨_, rfl⟩, fun h => Bool.noConfusion h.1⟩⟩
          | true =>
              cases resolves with
              | false => exact ⟨_, rfl, .inr ⟨⟨_, rfl⟩, fun h => Bool.noConfusion h.2.1⟩⟩
              | true =>
                  cases noted with
                  | false => exact ⟨_, rfl, .inr ⟨⟨_, rfl⟩, fun h => Bool.noConfusion h.2.2⟩⟩
                  | true => exact ⟨_, rfl, .inl ⟨rfl, rfl, rfl, rfl⟩⟩

/-- A deployment restarts dnsdist not at all, or it ends with an error, or it restarts dnsdist once
and says so. -/
theorem upstreamDeploy_cases :
    ((upstreamDeploy w).restarts = 0 ∧ ¬w.FailsAfterRestart) ∨
    (∃ restarts out, upstreamDeploy w = ⟨restarts, .ok (1, out)⟩ ∧
      (restarts ≤ 1 ↔ ¬w.FailsAfterRestart)) ∨
    (upstreamDeploy w = ⟨1, .ok (0, lastOutput (deployOutput w.deploymentId (deployedMessage w)))⟩ ∧
      w.reconciled = false ∧ ¬w.FailsAfterRestart) := by
  by_cases hspawned : w.spawned = true
  · by_cases hbegan : w.began = false
    · refine .inr (.inl ⟨0, lastOutput w.traceback, ?_, ?_⟩)
      · rw [upstreamDeploy, if_pos hspawned, deployUpstreams, if_pos hbegan]
      · exact iff_of_true (Nat.zero_le 1) fun h => Bool.noConfusion (hbegan.symm.trans h.2.1)
    by_cases henabled : w.enabled = 0
    · refine .inr (.inl ⟨0, lastOutput w.traceback, ?_, ?_⟩)
      · rw [upstreamDeploy, if_pos hspawned, deployUpstreams, if_neg hbegan, if_pos henabled]
      · exact iff_of_true (Nat.zero_le 1) fun h => h.2.2.1 henabled
    have hdeploy : deployUpstreams w = match activateUpstreams w 0 with
        | (.error e, restarts) => (.error e, restarts + 1)
        | (.ok message, restarts) =>
            (if w.recorded then .ok (w.deploymentId, message) else .error .database, restarts) := by
      rw [deployUpstreams, if_neg hbegan, if_neg henabled]
    rcases activateUpstreams_eq w 0 with ⟨hfalls, r, hrun, hr⟩ | ⟨hfalls, r, hrun, hr⟩
    · rcases hr with ⟨rfl, hfine⟩ | ⟨⟨e, rfl⟩, hfine⟩
      · have hnot : ¬w.FailsAfterRestart := fun h => h.2.2.2.2 hfine
        cases hrecorded : w.recorded with
        | false =>
            refine .inr (.inl ⟨1, lastOutput w.traceback, ?_, iff_of_true (le_refl 1) hnot⟩)
            rw [upstreamDeploy, if_pos hspawned, hdeploy, hrun, hrecorded]
            rfl
        | true =>
            refine .inr (.inr ⟨?_, hfalls.2.2, hnot⟩)
            rw [upstreamDeploy, if_pos hspawned, hdeploy, hrun, hrecorded]
            rfl
      · have hfails : w.FailsAfterRestart :=
          ⟨hspawned, Bool.eq_true_of_not_eq_false hbegan, henabled, hfalls, hfine⟩
        refine .inr (.inl ⟨2, lastOutput w.traceback, ?_, ?_⟩)
        · rw [upstreamDeploy, if_pos hspawned, hdeploy, hrun]
        · exact iff_of_false (by omega) (not_not_intro hfails)
    · have hnot : ¬w.FailsAfterRestart := fun h => hfalls h.2.2.2.1
      rcases hr with ⟨rfl, hreconciled⟩ | ⟨e, rfl⟩
      · refine .inl ⟨?_, hnot⟩
        rw [upstreamDeploy, if_pos hspawned, hdeploy, hrun]
        cases w.recorded <;> rfl
      · refine .inr (.inl ⟨1, lastOutput w.traceback, ?_, iff_of_true (le_refl 1) hnot⟩)
        rw [upstreamDeploy, if_pos hspawned, hdeploy, hrun]
  · refine .inl ⟨?_, fun h => hspawned h.1⟩
    rw [upstreamDeploy, if_neg hspawned]

/-- **A deployment restarts dnsdist twice where it fails after its own restart.** -/
theorem restarts_upstreamDeploy_le : (upstreamDeploy w).restarts ≤ 1 ↔ ¬w.FailsAfterRestart := by
  rcases upstreamDeploy_cases w with ⟨hnone, hnot⟩ | ⟨restarts, out, hdeploy, hiff⟩ |
    ⟨hdeploy, -, hnot⟩
  · rw [hnone]
    exact iff_of_true (Nat.zero_le 1) hnot
  · rw [hdeploy]
    exact hiff
  · rw [hdeploy]
    exact iff_of_true (le_refl 1) hnot

/-! ### What the output says -/

/-- The text does not start with an `o`, and nowhere in it does an `o` follow an `n`, as it does in
what the coordinator looks for. -/
def NeverSaysNo (out : Str) : Prop :=
  out.head? ≠ some 'o' ∧ out.IsChain fun c d => ¬(c = 'n' ∧ d = 'o')

instance (out : Str) : Decidable (NeverSaysNo out) := inferInstanceAs (Decidable (_ ∧ _))

theorem NeverSaysNo.append {s t : Str} (hs : NeverSaysNo s) (ht : NeverSaysNo t) :
    NeverSaysNo (s ++ t) := by
  refine ⟨?_, List.isChain_append.mpr ⟨hs.2, ht.2, ?_⟩⟩
  · rcases s with _ | ⟨e, s⟩
    · exact ht.1
    · exact hs.1
  · rintro c - d hd ⟨-, rfl⟩
    exact ht.1 hd

theorem neverSaysNo_decimal (n : ℕ) : NeverSaysNo (decimal n) := by
  have hdigit (e : Char) (he : e.isDigit = false) : e ∉ decimal n := fun hmem => by
    exact absurd (Nat.isDigit_of_mem_toDigits (by decide) (by decide) hmem) (by rw [he]; decide)
  refine ⟨fun hhead => hdigit 'o' (by decide) (List.mem_of_head? hhead), ?_⟩
  have hpairs : (decimal n).Pairwise fun c d => ¬(c = 'n' ∧ d = 'o') :=
    List.pairwise_of_forall_mem_list fun c hc d _ heq => hdigit 'n' (by decide) (heq.1 ▸ hc)
  exact hpairs.isChain

/-- Nor does any part of the text. -/
theorem NeverSaysNo.not_isSubstring {out : Str} (h : NeverSaysNo out) :
    isSubstring noDnsdistRestart (lastOutput out) = false := by
  rw [Bool.eq_false_iff, ne_eq, isSubstring_iff]
  intro hin
  obtain ⟨before, after, hout⟩ := hin.trans (List.drop_suffix _ out).isInfix
  have hchain := h.2
  rw [← hout] at hchain
  exact (List.isChain_cons_cons.mp hchain.left_of_append.right_of_append).1 ⟨rfl, rfl⟩

/-- A success that does not say so is paced. -/
theorem paces_of_neverSaysNo {out : Str} (h : NeverSaysNo out) :
    upstreamDeployCoordinator.paces (.ok (0, lastOutput out)) = true := by
  have hpace : upstreamDeployCoordinator.shouldPace = upstreamDeployUsedARestart := rfl
  rw [Coordinator.paces, hpace, upstreamDeployUsedARestart, h.not_isSubstring]
  rfl

variable {w}

theorem neverSaysNo_deployedMessage (hreconciled : w.reconciled = false) :
    NeverSaysNo (deployedMessage w) := by
  have hnote : activationNote w = appliedViaRestart :=
    if_neg fun h => Bool.noConfusion (hreconciled.symm.trans h)
  have hcount : NeverSaysNo (deployedCount w) := by
    by_cases hall : w.rendered = w.enabled
    · rw [deployedCount, if_pos hall]
      exact neverSaysNo_decimal w.enabled
    · have hof : NeverSaysNo " of ".toList := by decide +kernel
      rw [deployedCount, if_neg hall]
      exact ((neverSaysNo_decimal w.rendered).append hof).append (neverSaysNo_decimal w.enabled)
  have hdown : NeverSaysNo (downNote w) := by
    by_cases hnone : w.downCount = 0
    · rw [downNote, if_pos hnone]
      exact ⟨by simp, List.isChain_nil⟩
    · have hopen : NeverSaysNo " (".toList := by decide +kernel
      have hrest : NeverSaysNo
          " of them currently unreachable; traffic is being served by the rest)".toList := by
        decide +kernel
      rw [downNote, if_neg hnone]
      exact (hopen.append (neverSaysNo_decimal w.downCount)).append hrest
  have hdeployed : NeverSaysNo "deployed ".toList := by decide +kernel
  have hresolvers : NeverSaysNo " enabled upstream resolver(s) (".toList := by decide +kernel
  have hvia : NeverSaysNo appliedViaRestart := by decide +kernel
  have hclose : NeverSaysNo ")".toList := by decide +kernel
  rw [← hnote] at hvia
  exact ((((hdeployed.append hcount).append hresolvers).append hvia).append hclose).append hdown

/-- **A deployment that restarts dnsdist is paced**, whatever becomes of it. -/
theorem paces_of_restarts (h : (upstreamDeploy w).restarts ≠ 0) :
    upstreamDeployCoordinator.paces (upstreamDeploy w).outcome = true := by
  rcases upstreamDeploy_cases w with ⟨hnone, -⟩ | ⟨restarts, out, hdeploy, -⟩ |
    ⟨hdeploy, hreconciled, -⟩
  · exact absurd hnone h
  · rw [hdeploy]
    rfl
  · have hspace : NeverSaysNo " ".toList := by decide +kernel
    have hline : NeverSaysNo "\n".toList := by decide +kernel
    have hsays : NeverSaysNo (deployOutput w.deploymentId (deployedMessage w)) :=
      (((neverSaysNo_decimal w.deploymentId).append hspace).append
      (neverSaysNo_deployedMessage hreconciled)).append hline
    have houtcome := congrArg (fun e => upstreamDeployCoordinator.paces e.outcome) hdeploy
    exact houtcome.trans (paces_of_neverSaysNo hsays)

/-! ## The restarts are spaced -/

section Spacing

variable {α ρ ε : Type}

/-- All restarts so far lie before the end of an execution that is paced. -/
def Settled (s : CoordinatorState ρ ε) : Prop := ∀ t ∈ s.restarts, ∃ f ∈ s.lastFinished, t ≤ f

/-- The call is inside `run_once` or right after it. -/
def CallPhase.Underway : CallPhase ρ ε → Prop
  | .running _ _ | .finished _ _ => True
  | _ => False

variable (c : Coordinator α ρ ε)

/-- A restart that an execution has yet to make comes late enough, and an execution that has made
one is paced. -/
def CallPhase.Spaced (s : CoordinatorState ρ ε) : CallPhase ρ ε → Prop
  | .running _ ⟨0, outcome⟩ | .finished _ outcome => c.paces outcome = true ∨ Settled s
  | .running _ ⟨restarts + 1, outcome⟩ =>
      restarts = 0 ∧ c.paces outcome = true ∧ ∀ t ∈ s.restarts, t + c.minIntervalSeconds ≤ s.now
  | _ => True

/-- The restarts so far are spaced, and so is the next one. -/
structure Spaced (s : CoordinatorState ρ ε) : Prop where
  consistent : Consistent s
  past : ∀ t ∈ s.restarts, t ≤ s.now
  gaps : s.restarts.Pairwise fun later earlier => earlier + c.minIntervalSeconds ≤ later
  phases : ∀ i, (s.phase i).Spaced c s
  settled : (∀ i, ¬(s.phase i).Underway) → Settled s

theorem spaced_idleCoordinator : Spaced c (idleCoordinator : CoordinatorState ρ ε) where
  consistent := consistent_idleCoordinator
  past _ h := nomatch h
  gaps := .nil
  phases _ := trivial
  settled _ _ h := nomatch h

variable {c} {s s' : CoordinatorState ρ ε} {a : CoordinatorAction α}

theorem CallPhase.Underway.leads {p : CallPhase ρ ε} (h : p.Underway) : p.Leads := by
  cases p <;> first | exact h.elim | trivial

theorem CallPhase.spaced_of_not_underway {p : CallPhase ρ ε} (h : ¬p.Underway) : p.Spaced c s := by
  cases p with
  | running number rest => exact (h trivial).elim
  | finished number outcome => exact (h trivial).elim
  | notMade => trivial
  | waiting targetRound deadline => trivial
  | pacing => trivial
  | busy => trivial
  | served number outcome => trivial

/-- What a phase says depends on the times alone, and time may pass. -/
theorem CallPhase.Spaced.later {p : CallPhase ρ ε} (h : p.Spaced c s)
    (hrestarts : s'.restarts = s.restarts) (hlast : s'.lastFinished = s.lastFinished)
    (hnow : s.now ≤ s'.now) : p.Spaced c s' := by
  have hsettled : Settled s → Settled s' := fun hs => by
    rw [Settled, hrestarts, hlast]
    exact hs
  cases p with
  | running number rest =>
      rcases rest with ⟨_ | restarts, outcome⟩
      · exact h.imp_right hsettled
      · obtain ⟨hzero, hpaces, hgap⟩ := h
        refine ⟨hzero, hpaces, ?_⟩
        rw [hrestarts]
        exact fun t ht => (hgap t ht).trans hnow
  | finished number outcome => exact h.imp_right hsettled
  | notMade => trivial
  | waiting targetRound deadline => trivial
  | pacing => trivial
  | busy => trivial
  | served number outcome => trivial

/-- A call moves on outside `run_once`. -/
theorem Spaced.move (h : Spaced c s) {t : CoordinatorState ρ ε} {i : ℕ} {phase : CallPhase ρ ε}
    (hconsistent : Consistent (t.move i phase)) (hphase : t.phase = s.phase)
    (hrestarts : t.restarts = s.restarts) (hlast : t.lastFinished = s.lastFinished)
    (hnow : t.now = s.now) (hi : ¬(s.phase i).Underway) (hnew : ¬phase.Underway) :
    Spaced c (t.move i phase) where
  consistent := hconsistent
  past := by
    show ∀ r ∈ t.restarts, r ≤ t.now
    rw [hrestarts, hnow]
    exact h.past
  gaps := by
    show t.restarts.Pairwise _
    rw [hrestarts]
    exact h.gaps
  phases := by
    refine forall_move (P := fun _ p => p.Spaced c (t.move i phase))
      (CallPhase.spaced_of_not_underway hnew) fun j _ => ?_
    rw [hphase]
    exact (h.phases j).later hrestarts hlast hnow.ge
  settled hall := by
    have hnone : ∀ j, ¬(s.phase j).Underway := by
      intro j
      by_cases hj : j = i
      · rwa [hj]
      · have hmoved := hall j
        rwa [move_phase_of_ne hj, hphase] at hmoved
    show ∀ r ∈ t.restarts, ∃ f ∈ t.lastFinished, r ≤ f
    rw [hrestarts, hlast]
    exact h.settled hnone

/-- The leader goes on in `run_once`, or right after it. -/
theorem Spaced.proceed (h : Spaced c s) {t : CoordinatorState ρ ε} {i : ℕ}
    {phase : CallPhase ρ ε} (hconsistent : Consistent (t.move i phase)) (hphase : t.phase = s.phase)
    (hi : (s.phase i).Leads) (hpast : ∀ r ∈ t.restarts, r ≤ t.now)
    (hgaps : t.restarts.Pairwise fun later earlier => earlier + c.minIntervalSeconds ≤ later)
    (hnew : phase.Spaced c (t.move i phase)) (hsettled : phase.Underway ∨ Settled t) :
    Spaced c (t.move i phase) where
  consistent := hconsistent
  past := hpast
  gaps := hgaps
  phases := by
    refine forall_move (P := fun _ p => p.Spaced c (t.move i phase)) hnew fun j hj => ?_
    rw [hphase]
    exact CallPhase.spaced_of_not_underway fun hunder =>
      h.consistent.not_leads hi hj hunder.leads
  settled hall := by
    rcases hsettled with hunder | hsettled
    · have hidle := hall i
      rw [move_phase] at hidle
      exact absurd hunder hidle
    · exact hsettled

/-- Time up to the end of an execution settles the restarts, where it is paced. -/
theorem Spaced.settled_publish (h : Spaced c s) {i number : ℕ} {outcome : Except ε ρ}
    (hi : s.phase i = .finished number outcome) : ∀ r ∈ s.restarts,
      ∃ f ∈ (if c.paces outcome then some s.now else s.lastFinished), r ≤ f := by
  have hphase := h.phases i
  rw [hi] at hphase
  intro r hr
  by_cases hpaces : c.paces outcome = true
  · rw [if_pos hpaces]
    exact ⟨s.now, rfl, h.past r hr⟩
  · rw [if_neg hpaces]
    rcases hphase with hpaced | hsettled
    · exact absurd hpaced hpaces
    · exact hsettled r hr

/-- **Every step keeps the restarts spaced**, where the executions that restart dnsdist are paced
and none restarts it twice. -/
theorem Spaced.step (hinterval : c.minIntervalSeconds ≠ 0)
    (hpaces : ∀ input, (c.runOnce input).restarts ≠ 0 → c.paces (c.runOnce input).outcome = true)
    (h : Spaced c s) (honce : ∀ i input, a = .start i input → (c.runOnce input).restarts ≤ 1)
    (hstep : CoordinatorStep c s a s') : Spaced c s' := by
  have hconsistent := h.consistent.step hstep
  cases hstep with
  | @passed seconds hseconds =>
      have hnow : s.now ≤ s.now + seconds := le_add_of_nonneg_right hseconds
      exact ⟨hconsistent, fun t ht => (h.past t ht).trans hnow, h.gaps,
        fun i => (h.phases i).later rfl rfl hnow, h.settled⟩
  | @joined i hi hbusy => exact h.move hconsistent rfl rfl rfl rfl (by rw [hi]; exact id) id
  | @led i hi hidle => exact h.move hconsistent rfl rfl rfl rfl (by rw [hi]; exact id) id
  | @gaveUp i targetRound deadline hi hround =>
      exact h.move hconsistent rfl rfl rfl rfl (by rw [hi]; exact id) id
  | waited hi hround => exact h
  | @woke i targetRound number deadline outcome hi hround hlast =>
      exact h.move hconsistent rfl rfl rfl rfl (by rw [hi]; exact id) id
  | @began i input hi hcooled =>
      have hleads : (s.phase i).Leads := by
        rw [hi]
        trivial
      have hsettled : Settled s := by
        refine h.settled fun j hj => ?_
        have hji : j = i := h.consistent.one_leader j i hj.leads hleads
        rw [hji, hi] at hj
        exact hj
      have hgap : ∀ t ∈ s.restarts, t + c.minIntervalSeconds ≤ s.now := by
        intro t ht
        obtain ⟨f, hf, hle⟩ := hsettled t ht
        have hrest := (hcooled.resolve_left hinterval) f hf
        linarith
      refine h.proceed hconsistent rfl hleads h.past h.gaps ?_ (.inl trivial)
      have hrestarts := honce i input rfl
      have hpaced := hpaces input
      rcases hrun : c.runOnce input with ⟨_ | restarts, outcome⟩
      · exact .inr hsettled
      · rw [hrun] at hrestarts hpaced
        exact ⟨Nat.le_zero.mp (Nat.le_of_succ_le_succ hrestarts),
          hpaced (Nat.succ_ne_zero restarts), hgap⟩
  | @restarted i number restarts outcome hi =>
      have hleads : (s.phase i).Leads := by
        rw [hi]
        trivial
      have hphase := h.phases i
      rw [hi] at hphase
      obtain ⟨rfl, hpaced, hgap⟩ := hphase
      refine h.proceed hconsistent rfl hleads ?_ ?_ (.inl hpaced) (.inl trivial)
      · exact List.forall_mem_cons.mpr ⟨le_refl _, h.past⟩
      · exact List.pairwise_cons.mpr ⟨hgap, h.gaps⟩
  | @ended i number outcome hi =>
      have hleads : (s.phase i).Leads := by
        rw [hi]
        trivial
      have hphase := h.phases i
      rw [hi] at hphase
      exact h.proceed hconsistent rfl hleads h.past h.gaps hphase (.inl trivial)
  | @again i number outcome hi hcoalesced =>
      have hleads : (s.phase i).Leads := by
        rw [hi]
        trivial
      exact h.proceed hconsistent rfl hleads h.past h.gaps trivial (.inr (h.settled_publish hi))
  | @released i number outcome hi hcoalesced =>
      have hleads : (s.phase i).Leads := by
        rw [hi]
        trivial
      exact h.proceed hconsistent rfl hleads h.past h.gaps trivial (.inr (h.settled_publish hi))

/-- Times that are spaced span the gaps between them. -/
theorem span_of_pairwise {gap start : ℚ} {times : List ℚ} {latest : ℚ}
    (h : (latest :: times).Pairwise fun later earlier => earlier + gap ≤ later)
    (hstart : ∀ t ∈ latest :: times, start ≤ t) : start + times.length * gap ≤ latest := by
  induction times generalizing latest with
  | nil => simpa using hstart
  | cons next times ih =>
      obtain ⟨hlatest, htimes⟩ := List.pairwise_cons.mp h
      have hnext := hlatest next List.mem_cons_self
      have hspan := ih htimes fun t ht => hstart t (List.mem_cons_of_mem latest ht)
      rw [List.length_cons, Nat.cast_succ]
      linarith

/-- A window has room for as many of them as it has gaps, and one more. -/
theorem length_window_lt {gap : ℚ} {times : List ℚ}
    (h : times.Pairwise fun later earlier => earlier + gap ≤ later) (start width : ℚ) {n : ℕ}
    (hwidth : width < n * gap) (hgap : 0 < gap) :
    (times.filter fun t => start ≤ t ∧ t ≤ start + width).length ≤ n := by
  have hwindow := h.filter fun t => decide (start ≤ t ∧ t ≤ start + width)
  have hin : ∀ t ∈ times.filter fun t => start ≤ t ∧ t ≤ start + width,
      start ≤ t ∧ t ≤ start + width := fun t ht => of_decide_eq_true (List.mem_filter.mp ht).2
  cases hlist : times.filter fun t => start ≤ t ∧ t ≤ start + width with
  | nil => exact Nat.zero_le n
  | cons latest earlier =>
      rw [hlist] at hwindow hin
      have hspan := span_of_pairwise hwindow fun t ht => (hin t ht).1
      have hlatest := (hin latest List.mem_cons_self).2
      have hlt : (earlier.length : ℚ) * gap < n * gap := by linarith
      have hcast : (earlier.length : ℚ) < n := lt_of_mul_lt_mul_right hlt hgap.le
      exact Nat.cast_lt.mp hcast

end Spacing

/-- Where no deployment fails after it has restarted dnsdist, fewer than five restarts lie in any
60 seconds, in every state of a run. -/
theorem restarts_lt_five (actions : List (CoordinatorAction UpstreamWorld))
    (hmeet : Runs.StepsMeet upstreamDeployCoordinator.step
      (fun _ a => ∀ i w, a = .start i w → ¬w.FailsAfterRestart) idleCoordinator actions) :
    ∀ before s, before <+: actions →
      Runs.run upstreamDeployCoordinator.step idleCoordinator before = some s →
      ∀ start : ℚ, (s.restarts.filter fun t => start ≤ t ∧ t ≤ start + 60).length < 5 := by
  rintro before s ⟨after, rfl⟩ hrun start
  have hinterval : upstreamDeployCoordinator.minIntervalSeconds = 16 := rfl
  have hbefore := (Runs.stepsMeet_append hmeet hrun).1
  have hspaced : Spaced upstreamDeployCoordinator s := by
    refine Runs.run_invariant ?_ before _ s (spaced_idleCoordinator _) hbefore hrun
    intro s a s' h honce hstep
    exact h.step (by rw [hinterval]; norm_num) (fun w => paces_of_restarts)
      (fun i w ha => (restarts_upstreamDeploy_le w).mpr (honce i w ha))
      (Coordinator.step_cases hstep)
  have hgaps := hspaced.gaps
  rw [hinterval] at hgaps
  exact Nat.lt_succ_of_le (length_window_lt hgaps start 60 (by norm_num) (by norm_num))

/-! ### Six restarts

Three deployments in a row fail after their restart: `rndc` does not answer.  Each restarts dnsdist
twice, and the third one starts 32 seconds after the first. -/

/-- The console does not answer, and neither does `rndc`. -/
def unresolvedWorld : UpstreamWorld where
  spawned := true
  began := true
  deploymentId := 1
  enabled := 1
  rendered := 1
  checked := true
  reconciled := false
  restarted := true
  resolves := false
  noted := true
  downCount := 0
  recorded := true
  traceback := []

theorem six_restarts : ∃ s, Runs.run upstreamDeployCoordinator.step idleCoordinator
    [.call 0, .start 0 unresolvedWorld, .restart 0, .restart 0, .finish 0, .publish 0, .pass 16,
      .call 1, .start 1 unresolvedWorld, .restart 1, .restart 1, .finish 1, .publish 1, .pass 16,
      .call 2, .start 2 unresolvedWorld, .restart 2, .restart 2] = some s ∧
    ¬(s.restarts.filter fun t => 0 ≤ t ∧ t ≤ (0 : ℚ) + 60).length < 5 := by
  have hcount : (Runs.run upstreamDeployCoordinator.step idleCoordinator
      [.call 0, .start 0 unresolvedWorld, .restart 0, .restart 0, .finish 0, .publish 0, .pass 16,
        .call 1, .start 1 unresolvedWorld, .restart 1, .restart 1, .finish 1, .publish 1, .pass 16,
        .call 2, .start 2 unresolvedWorld, .restart 2, .restart 2]).map
      (fun s => (s.restarts.filter fun t => 0 ≤ t ∧ t ≤ (0 : ℚ) + 60).length) = some 6 := by
    decide +kernel
  obtain ⟨s, hrun, hsix⟩ := Option.map_eq_some_iff.mp hcount
  exact ⟨s, hrun, by omega⟩

/-- `systemctl restart dnsdist` succeeds where the console does not answer. -/
def restartedWorld : UpstreamWorld := { unresolvedWorld with resolves := true }

theorem restarts_lt_five_restartedWorld :
    ∃ s, Runs.run upstreamDeployCoordinator.step idleCoordinator
      [.call 0, .start 0 restartedWorld, .restart 0, .finish 0, .publish 0] = some s ∧
      (s.restarts.filter fun t => 0 ≤ t ∧ t ≤ (0 : ℚ) + 60).length < 5 := by
  refine ⟨_, rfl, restarts_lt_five
    [.call 0, .start 0 restartedWorld, .restart 0, .finish 0, .publish 0] ?_ _ _
      (List.prefix_refl _) rfl 0⟩
  refine Runs.stepsMeet_of_forall fun a ha s i w heq => ?_
  rintro ⟨-, -, -, -, hfails⟩
  obtain ⟨-, hw⟩ : i = 0 ∧ w = restartedWorld := by simpa [heq] using ha
  exact hfails (by rw [hw]; exact ⟨rfl, rfl, rfl⟩)

end AlderpointDNS.Deploy
