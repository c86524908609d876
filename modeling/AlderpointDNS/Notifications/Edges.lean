import AlderpointDNS.Lib.Runs
import AlderpointDNS.Notifications.Dispatch

/-!
# Edge detection

`_fire_edge` dispatches when a component turns bad or good, and records what it has seen, whether or
not the message was delivered.  A check is a call of it for one component of one event category.

* `failureDelivered_bad` — what a failed check changes at one provider;
* `outageKnown_of_run` — an outage whose first message is delivered is the last message;
* **`outageReported_iff`** — the checks after which no outage is lost;
* `outage_lost` — an outage within the cooldown of the last recovery.
-/

namespace AlderpointDNS.Notifications

/-- The arguments of a call of `_fire_edge` but for the component, when it is made, and what the
providers answer. -/
structure Check where
  time : ℕ
  currentlyBad : Bool
  summaryBad : String
  summaryOk : String
  severity : Severity
  deliver : ℕ → Option String

section CheckState

variable {Digest : Type} (eventCategory component : String) (s : NotificationState Digest)
  (state : CheckState)

def setCheckState : NotificationState Digest :=
  { s with
    checkState := fun category name =>
      if category = eventCategory ∧ name = component then some state
      else s.checkState category name }

@[simp] theorem setCheckState_checkState :
    (setCheckState eventCategory component s state).checkState eventCategory component
      = some state := by
  simp [setCheckState]

end CheckState

variable {Digest : Type} [DecidableEq Digest] (hash : String → Digest)
  (config : NotificationConfig) (eventCategory component : String)

section State

variable (s : NotificationState Digest)

/-- The message of a check, with the defaults of `dispatch`. -/
def checkMessage (check : Check) (recovered : Bool) : NotificationMessage where
  eventCategory := eventCategory
  severity := check.severity
  host := "this appliance"
  component := component
  summary := if recovered then check.summaryOk else check.summaryBad
  beganAt := check.time
  recovered := recovered
  adminLink := ""

def fireEdge (check : Check) : NotificationState Digest :=
  let previous := s.checkState eventCategory component
  let send (recovered : Bool) := dispatch hash config check.time check.deliver
    (checkMessage eventCategory component check recovered) s
  if check.currentlyBad then
    setCheckState eventCategory component (if previous ≠ some .bad then send false else s) .bad
  else
    setCheckState eventCategory component (if previous = some .bad then send true else s) .ok

/-- The check finds a new outage. -/
def startsOutage (check : Check) : Prop :=
  check.currentlyBad = true ∧ s.checkState eventCategory component ≠ some .bad

/-- The last message about the component that has reached the provider is a failure message. -/
def FailureDelivered (sub : Subscription) : Prop :=
  lastDelivered s eventCategory component sub.providerId = some false

/-- Where the check finds a new outage, its message reaches every subscription, or the last one was
a failure message already. -/
def Reported (check : Check) : Prop :=
  startsOutage eventCategory component s check → ∀ sub ∈ config.enabledFor eventCategory,
    delivers hash config check.time check.deliver
        (checkMessage eventCategory component check false) s sub = true ∨
      FailureDelivered eventCategory component s sub

end State

/-- A check of the component. -/
def checkStep (s : NotificationState Digest) (check : Check) : Option (NotificationState Digest) :=
  some (fireEdge hash config eventCategory component s check)

/-- The severity is sufficient, and the provider works. -/
def Working (sub : Subscription) (check : Check) : Prop :=
  sub.minSeverity.rank ≤ check.severity.rank ∧ check.deliver sub.providerId = none

/-- After an outage longer than the cooldown, during which the provider has worked, the last
delivered message is a failure message. -/
def OutageReported (checks : List Check) : Prop :=
  ∀ s, Runs.run (checkStep hash config eventCategory component) .fresh checks = some s →
    ∀ sub ∈ config.enabledFor eventCategory, ∀ (start later : List Check) (first last : Check),
      checks = start ++ first :: later → later.getLast? = some last →
      (∀ check ∈ first :: later, check.currentlyBad = true) →
      (∀ check ∈ later, Working sub check) →
      first.time + config.cooldown sub * 60 < last.time →
      FailureDelivered eventCategory component s sub

variable {hash config eventCategory component}

/-- The state records what the last check has found. -/
theorem checkState_fireEdge (s : NotificationState Digest) (check : Check) :
    (fireEdge hash config eventCategory component s check).checkState eventCategory component
      = some (if check.currentlyBad then .bad else .ok) := by
  unfold fireEdge
  split_ifs <;> simp

/-- **What a check that finds the component bad changes**: the message reaches the provider at the
start of an outage, if it is delivered. -/
theorem failureDelivered_bad {s : NotificationState Digest} {check : Check}
    (hbad : check.currentlyBad = true) {sub : Subscription}
    (hsub : sub ∈ config.enabledFor eventCategory) :
    FailureDelivered eventCategory component
        (fireEdge hash config eventCategory component s check) sub ↔
      (startsOutage eventCategory component s check ∧
        delivers hash config check.time check.deliver
          (checkMessage eventCategory component check false) s sub = true) ∨
      FailureDelivered eventCategory component s sub := by
  have hlast := lastDelivered_dispatch hash config check.time check.deliver
    (checkMessage eventCategory component check false) hsub s
  by_cases hprevious : s.checkState eventCategory component = some .bad
  · have hfire : fireEdge hash config eventCategory component s check
        = setCheckState eventCategory component s .bad := by
      simp [fireEdge, hbad, hprevious]
    simp [startsOutage, hprevious, hfire, FailureDelivered, lastDelivered, setCheckState]
  · have hfire : FailureDelivered eventCategory component
        (fireEdge hash config eventCategory component s check) sub ↔
          lastDelivered (dispatch hash config check.time check.deliver
            (checkMessage eventCategory component check false) s) eventCategory component
              sub.providerId = some false := by
      simp [fireEdge, hbad, hprevious, FailureDelivered, lastDelivered, setCheckState]
    rw [hfire]
    refine (Eq.congr_left hlast).trans ?_
    split_ifs with hdelivers
    · exact ⟨fun _ => Or.inl ⟨⟨hbad, hprevious⟩, hdelivers⟩, fun _ => rfl⟩
    · exact ⟨Or.inr, fun h => h.resolve_left fun hstarts => hdelivers hstarts.2⟩

/-! ## Outages that are reported -/

/-- While the component is bad, the last message delivered to each subscription says so. -/
def OutageKnown (config : NotificationConfig) (eventCategory component : String)
    (s : NotificationState Digest) : Prop :=
  s.checkState eventCategory component = some .bad →
    ∀ sub ∈ config.enabledFor eventCategory, FailureDelivered eventCategory component s sub

theorem outageKnown_step {s s' : NotificationState Digest} {check : Check}
    (h : OutageKnown config eventCategory component s)
    (hreported : Reported hash config eventCategory component s check)
    (hstep : checkStep hash config eventCategory component s check = some s') :
    OutageKnown config eventCategory component s' := by
  cases hstep
  intro hstate sub hsub
  rw [checkState_fireEdge] at hstate
  cases hbad : check.currentlyBad with
  | false => simp [hbad] at hstate
  | true =>
      refine (failureDelivered_bad hbad hsub).mpr ?_
      by_cases hprevious : s.checkState eventCategory component = some .bad
      · exact Or.inr (h hprevious sub hsub)
      · have hstarts : startsOutage eventCategory component s check := ⟨hbad, hprevious⟩
        exact (hreported hstarts sub hsub).imp (fun hdelivers => ⟨hstarts, hdelivers⟩) id

/-- **An outage whose start is reported is known.** -/
theorem outageKnown_of_run {checks : List Check} {s : NotificationState Digest}
    (hmeet : Runs.StepsMeet (checkStep hash config eventCategory component)
      (Reported hash config eventCategory component) .fresh checks)
    (hrun : Runs.run (checkStep hash config eventCategory component) .fresh checks = some s) :
    OutageKnown config eventCategory component s := by
  have hfresh : OutageKnown config eventCategory component
      (NotificationState.fresh : NotificationState Digest) := fun h => by cases h
  exact Runs.run_invariant (fun _ _ _ => outageKnown_step) checks _ s hfresh hmeet hrun

/-- The state after some checks that have ended with the component bad. -/
theorem checkState_of_run {checks : List Check} {check : Check}
    {s₀ s : NotificationState Digest}
    (hrun : Runs.run (checkStep hash config eventCategory component) s₀ (checks ++ [check])
      = some s) :
    s.checkState eventCategory component = some (if check.currentlyBad then .bad else .ok) := by
  rw [Runs.run_append, Option.bind_eq_some_iff] at hrun
  obtain ⟨t, -, ht⟩ := hrun
  cases ht
  exact checkState_fireEdge t check

/-- Checks that find what the last one has found start no outage. -/
theorem outageKnown_of_unchanged {s t : NotificationState Digest} {bad : Bool}
    (h : OutageKnown config eventCategory component s)
    (hstate : s.checkState eventCategory component = some (if bad then .bad else .ok))
    {checks : List Check} (hsame : ∀ check ∈ checks, check.currentlyBad = bad)
    (hrun : Runs.run (checkStep hash config eventCategory component) s checks = some t) :
    OutageKnown config eventCategory component t := by
  have hstep : ∀ s check s', (OutageKnown config eventCategory component s ∧
      s.checkState eventCategory component = some (if bad then .bad else .ok)) →
      check.currentlyBad = bad → checkStep hash config eventCategory component s check = some s' →
      OutageKnown config eventCategory component s' ∧
        s'.checkState eventCategory component = some (if bad then .bad else .ok) := by
    rintro s check s' ⟨hknown, hstate⟩ rfl hstep
    refine ⟨outageKnown_step hknown (fun hstarts => ?_) hstep, ?_⟩
    · refine absurd ?_ hstarts.2
      rw [hstate, if_pos hstarts.1]
    · cases hstep
      exact checkState_fireEdge s check
  have hmeet : Runs.StepsMeet (checkStep hash config eventCategory component)
      (fun _ check => check.currentlyBad = bad) s checks :=
    Runs.stepsMeet_of_forall fun check hcheck _ => hsame check hcheck
  exact (Runs.run_invariant hstep checks s t ⟨h, hstate⟩ hmeet hrun).1

/-! ## Outages that are lost -/

/-- An outage whose start is not reported is lost, however long it lasts. -/
theorem not_outageReported {checks : List Check} {s : NotificationState Digest} {check : Check}
    (hrun : Runs.run (checkStep hash config eventCategory component) .fresh checks = some s)
    (hlost : ¬ Reported hash config eventCategory component s check) :
    check.currentlyBad = true ∧ ∃ later : Check, later.currentlyBad = true ∧
      ¬ OutageReported hash config eventCategory component (checks ++ [check] ++ [later]) := by
  obtain ⟨hstarts, hlost⟩ := Classical.not_imp.mp hlost
  have hbad : check.currentlyBad = true := hstarts.1
  push Not at hlost
  obtain ⟨sub, hsub, hdelivers, hfailure⟩ := hlost
  let later : Check :=
    ⟨check.time + config.cooldown sub * 60 + 1, true, "", "", .critical, fun _ => none⟩
  refine ⟨hbad, later, rfl, fun hreported => ?_⟩
  have hrun' : Runs.run (checkStep hash config eventCategory component) .fresh
      (checks ++ [check] ++ [later]) = some (fireEdge hash config eventCategory component
        (fireEdge hash config eventCategory component s check) later) := by
    rw [List.append_assoc, Runs.run_append, hrun]
    rfl
  have hworking : Working sub later := ⟨Severity.rank_le_critical _, rfl⟩
  have hdelivered := hreported _ hrun' sub hsub checks [later] check later (by simp) rfl
    (by simp [hbad, later]) (by simpa using hworking) (Nat.lt_succ_self _)
  rcases (failureDelivered_bad rfl hsub).mp hdelivered with ⟨hagain, -⟩ | hdelivered
  · exact hagain.2 (by rw [checkState_fireEdge, if_pos hbad])
  · rcases (failureDelivered_bad hbad hsub).mp hdelivered with ⟨-, h⟩ | h
    · exact hdelivers h
    · exact hfailure h

/-- The checks find what the last one before them has found. -/
def Unchanged (before after : List Check) : Prop :=
  ∀ check ∈ after, before.getLast?.map (·.currentlyBad) = some check.currentlyBad

/-- **The checks after which no outage is lost**, however it goes on: those that report the start of
each outage. -/
theorem outageReported_iff (hash : String → Digest) (config : NotificationConfig)
    (eventCategory component : String) (checks : List Check) :
    (∀ pre post, pre <+: checks → Unchanged pre post →
      OutageReported hash config eventCategory component (pre ++ post))
      ↔ Runs.StepsMeet (checkStep hash config eventCategory component)
          (Reported hash config eventCategory component) .fresh checks := by
  constructor
  · intro h
    refine Runs.stepsMeet_iff.mpr fun pre check post s hchecks hrun => ?_
    by_contra hlost
    obtain ⟨hbad, later, hlater, hnot⟩ := not_outageReported hrun hlost
    refine hnot (h (pre ++ [check]) [later] ⟨post, by simp [hchecks]⟩ ?_)
    simp [Unchanged, hbad, hlater]
  · rintro hmeet pre post ⟨rest, rfl⟩ hunchanged s hrun sub hsub start later first last hsplit hlast
      hbad - -
    -- the last check has found the component bad
    obtain ⟨middle, rfl⟩ := List.getLast?_eq_some_iff.mp hlast
    have hstate : s.checkState eventCategory component = some .bad := by
      rw [hsplit, ← List.cons_append, ← List.append_assoc] at hrun
      rw [checkState_of_run hrun, if_pos (hbad last (by simp))]
    refine (?_ : OutageKnown config eventCategory component s) hstate sub hsub
    rw [Runs.run_append, Option.bind_eq_some_iff] at hrun
    obtain ⟨t, ht, hrun⟩ := hrun
    have hknown : OutageKnown config eventCategory component t :=
      outageKnown_of_run (Runs.stepsMeet_append hmeet ht).1 ht
    cases hpre : pre.getLast? with
    | none =>
        have hpost : post = [] := List.eq_nil_iff_forall_not_mem.mpr fun check hcheck => by
          have hsame := hunchanged check hcheck
          rw [hpre] at hsame
          cases hsame
        subst hpost
        cases hrun
        exact hknown
    | some check =>
        obtain ⟨init, rfl⟩ := List.getLast?_eq_some_iff.mp hpre
        refine outageKnown_of_unchanged hknown (checkState_of_run ht) (fun other hother => ?_) hrun
        have hsame := hunchanged other hother
        rw [hpre] at hsame
        exact (Option.some.inj hsame).symm

/-- One webhook, which is told about services from `warning` on, with the default cooldown. -/
def webhookConfig : NotificationConfig where
  cooldownMinutes := 30
  subscriptions := [⟨1, "Discord", "service_unavailable", .warning, true, true, none⟩]
  unique := by simp

/-- A check of dnsdist, with the provider working. -/
def dnsdistCheck (time : ℕ) (currentlyBad : Bool) : Check :=
  ⟨time, currentlyBad, "dnsdist is not active", "dnsdist is active again", .critical, fun _ => none⟩

/-- dnsdist fails, recovers five minutes later, and fails again after five more minutes, for good:
the recovery remains the last message. -/
theorem outage_lost : ¬ OutageReported id webhookConfig "service_unavailable" "dnsdist"
    (dnsdistCheck 0 true :: dnsdistCheck 300 false ::
      (List.range 8).map fun k => dnsdistCheck (600 + 300 * k) true) := by
  intro h
  have hrun : (Runs.run (checkStep id webhookConfig "service_unavailable" "dnsdist") .fresh
      (dnsdistCheck 0 true :: dnsdistCheck 300 false ::
        (List.range 8).map fun k => dnsdistCheck (600 + 300 * k) true)).map
          (lastDelivered · "service_unavailable" "dnsdist" 1) = some (some true) := by
    decide +kernel
  obtain ⟨s, hs, hrecovery⟩ := Option.map_eq_some_iff.mp hrun
  have hfailure := h s hs ⟨1, "Discord", "service_unavailable", .warning, true, true, none⟩
    (by simp [webhookConfig, NotificationConfig.enabledFor])
    [dnsdistCheck 0 true, dnsdistCheck 300 false]
    ((List.range' 1 7).map fun k => dnsdistCheck (600 + 300 * k) true)
    (dnsdistCheck 600 true) (dnsdistCheck 2700 true) rfl rfl
    (List.forall_mem_cons.mpr ⟨rfl, List.forall_mem_map.mpr fun _ _ => rfl⟩)
    (List.forall_mem_map.mpr fun _ _ => ⟨by simp [dnsdistCheck, Severity.rank], rfl⟩)
    (by decide)
  rw [FailureDelivered, hrecovery] at hfailure
  cases hfailure

end AlderpointDNS.Notifications
