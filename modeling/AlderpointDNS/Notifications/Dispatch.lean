import AlderpointDNS.Lib.Dict

/-!
# Dispatching a notification

`dispatch` sends a message to the subscriptions of its event category, one after another.  Each
keeps a row of rate state, by event category and provider, which suppresses a message with the
fingerprint of the last one for the length of the cooldown.  What a provider answers is an argument
(`deliver`), and time is counted in seconds.

* `dispatchTo` — one round of the loop;
* **`view_dispatch`** — what a dispatch does to the rate state of one provider, and to the last
  message that has reached it.
-/

namespace AlderpointDNS.Notifications

inductive Severity where
  | info
  | warning
  | critical
  deriving DecidableEq

/-- `_SEVERITY_RANK`. -/
def Severity.rank : Severity → ℕ
  | .info => 0
  | .warning => 1
  | .critical => 2

theorem Severity.rank_le_critical (severity : Severity) : severity.rank ≤ critical.rank := by
  cases severity <;> decide

/-- A row of `notification_subscriptions`, joined with its provider. -/
structure Subscription where
  providerId : ℕ
  name : String
  eventCategory : String
  minSeverity : Severity
  enabled : Bool
  providerEnabled : Bool
  cooldownMinutes : Option ℕ

/-- The subscriptions and the setting `cooldown_minutes`. -/
structure NotificationConfig where
  cooldownMinutes : ℕ
  subscriptions : List Subscription
  unique : (subscriptions.map fun sub => (sub.providerId, sub.eventCategory)).Nodup

structure NotificationMessage where
  eventCategory : String
  severity : Severity
  host : String
  component : String
  summary : String
  beganAt : ℕ
  recovered : Bool
  adminLink : String

/-- A row of `notification_rate_state`. -/
structure RateState (Digest : Type) where
  lastSentAt : ℕ
  lastFingerprint : Digest
  suppressedCount : ℕ

inductive DeliveryStatus where
  | sent
  | suppressed
  | failed
  deriving DecidableEq

/-- A row of `notification_history`. -/
structure HistoryRow where
  time : ℕ
  message : NotificationMessage
  providerId : ℕ
  providerName : String
  status : DeliveryStatus
  error : String

/-- What the periodic checks store. -/
inductive CheckState where
  | ok
  | bad
  deriving DecidableEq

variable {Digest : Type}

structure NotificationState (Digest : Type) where
  rateState : String → ℕ → Option (RateState Digest)
  history : List HistoryRow
  checkState : String → String → Option CheckState

/-- Empty tables. -/
def NotificationState.fresh : NotificationState Digest :=
  { rateState := fun _ _ => none, history := [], checkState := fun _ _ => none }

/-- The row records a message about the component that has reached the provider. -/
def HistoryRow.reached (eventCategory component : String) (provider : ℕ) (row : HistoryRow) :
    Bool :=
  row.status = .sent && row.providerId = provider &&
    row.message.eventCategory = eventCategory && row.message.component = component

/-- Whether the last message about a component that has reached the provider is a recovery. -/
def lastDelivered (s : NotificationState Digest) (eventCategory component : String)
    (provider : ℕ) : Option Bool :=
  (s.history.filter (HistoryRow.reached eventCategory component provider)).getLast?.map
    (·.message.recovered)

theorem lastDelivered_of_history {s s' : NotificationState Digest} {row : HistoryRow}
    {eventCategory component : String} {provider : ℕ} (h : s'.history = s.history ++ [row]) :
    lastDelivered s' eventCategory component provider
      = if row.reached eventCategory component provider then some row.message.recovered
        else lastDelivered s eventCategory component provider := by
  rw [lastDelivered, h, List.filter_append]
  split_ifs with hrow
  · simp [hrow]
  · simp [hrow, lastDelivered]

/-! ## The loop over the subscriptions -/

variable [DecidableEq Digest] (hash : String → Digest)

/-- `_fingerprint`. -/
def fingerprint (eventCategory component : String) : Digest :=
  hash (eventCategory ++ ":" ++ component)

/-- A message other than a recovery is suppressed for the length of the cooldown. -/
def suppressed (cooldownMinutes now : ℕ) (message : NotificationMessage)
    (state : Option (RateState Digest)) : Bool :=
  !message.recovered && state.any fun row =>
    row.lastFingerprint = fingerprint hash message.eventCategory message.component &&
      now < row.lastSentAt + cooldownMinutes * 60

/-- The cooldown of a subscription. -/
def NotificationConfig.cooldown (config : NotificationConfig) (sub : Subscription) : ℕ :=
  sub.cooldownMinutes.getD config.cooldownMinutes

/-- The subscriptions that `dispatch` selects. -/
def NotificationConfig.enabledFor (config : NotificationConfig) (eventCategory : String) :
    List Subscription :=
  config.subscriptions.filter fun sub =>
    sub.eventCategory = eventCategory && sub.enabled && sub.providerEnabled

section Dispatch

variable (config : NotificationConfig) (now : ℕ) (deliver : ℕ → Option String)
  (message : NotificationMessage)

/-- The rate state after one round. -/
def nextRate (sub : Subscription) (state : Option (RateState Digest)) : Option (RateState Digest) :=
  if suppressed hash (config.cooldown sub) now message state then
    state.map fun row => { row with suppressedCount := row.suppressedCount + 1 }
  else some ⟨now, fingerprint hash message.eventCategory message.component, 0⟩

/-- The status and the error of one round. -/
def outcome (sub : Subscription) (state : Option (RateState Digest)) : DeliveryStatus × String :=
  if suppressed hash (config.cooldown sub) now message state then (.suppressed, "")
  else match deliver sub.providerId with
    | none => (.sent, "")
    | some error => (.failed, error)

theorem outcome_eq_sent {sub : Subscription} {state : Option (RateState Digest)} :
    (outcome hash config now deliver message sub state).1 = .sent ↔
      suppressed hash (config.cooldown sub) now message state = false ∧
        deliver sub.providerId = none := by
  unfold outcome
  split_ifs with hsuppressed
  · simp [hsuppressed]
  · cases deliver sub.providerId with
    | none => simpa using hsuppressed
    | some error => simp

/-- One round of the loop over the subscriptions. -/
def dispatchTo (s : NotificationState Digest) (sub : Subscription) : NotificationState Digest :=
  if message.severity.rank < sub.minSeverity.rank then s
  else
    let state := s.rateState message.eventCategory sub.providerId
    let (status, error) := outcome hash config now deliver message sub state
    { s with
      rateState := fun category provider =>
        if category = message.eventCategory ∧ provider = sub.providerId then
          nextRate hash config now message sub state
        else s.rateState category provider
      history := s.history ++ [⟨now, message, sub.providerId, sub.name, status, error⟩] }

def dispatch (s : NotificationState Digest) : NotificationState Digest :=
  (config.enabledFor message.eventCategory).foldl (dispatchTo hash config now deliver message) s

end Dispatch

/-! ## What reaches a provider -/

/-- The message is at the severity of the subscription, is not suppressed, and is delivered. -/
def delivers (config : NotificationConfig) (now : ℕ) (deliver : ℕ → Option String)
    (message : NotificationMessage) (s : NotificationState Digest) (sub : Subscription) : Bool :=
  sub.minSeverity.rank ≤ message.severity.rank &&
    !suppressed hash (config.cooldown sub) now message
      (s.rateState message.eventCategory sub.providerId) &&
    (deliver sub.providerId).isNone

section View

variable (config : NotificationConfig) (now : ℕ) (deliver : ℕ → Option String)
  (message : NotificationMessage)

/-- What a message meets at one provider. -/
abbrev View (Digest : Type) := Option (RateState Digest) × Option Bool

def view (s : NotificationState Digest) (provider : ℕ) : View Digest :=
  (s.rateState message.eventCategory provider,
    lastDelivered s message.eventCategory message.component provider)

/-- One round, at the provider of the subscription. -/
def viewTo (sub : Subscription) (v : View Digest) : View Digest :=
  if message.severity.rank < sub.minSeverity.rank then v
  else (nextRate hash config now message sub v.1,
    if (outcome hash config now deliver message sub v.1).1 = .sent then some message.recovered
    else v.2)

theorem local_dispatchTo : Local (view message) (dispatchTo hash config now deliver message)
    (fun sub => some sub.providerId) (viewTo hash config now deliver message) := by
  intro s sub provider
  by_cases hrank : message.severity.rank < sub.minSeverity.rank
  · simp [viewTo, dispatchTo, hrank]
  · obtain ⟨row, hhistory, hstatus, hprovider, hmessage⟩ : ∃ row,
        (dispatchTo hash config now deliver message s sub).history = s.history ++ [row] ∧
        row.status = (outcome hash config now deliver message sub
          (s.rateState message.eventCategory sub.providerId)).1 ∧
        row.providerId = sub.providerId ∧ row.message = message := by
      rw [dispatchTo, if_neg hrank]
      exact ⟨_, rfl, rfl, rfl, rfl⟩
    have hrate : (dispatchTo hash config now deliver message s sub).rateState message.eventCategory
        provider = if provider = sub.providerId then nextRate hash config now message sub
            (s.rateState message.eventCategory sub.providerId)
          else s.rateState message.eventCategory provider := by
      simp [dispatchTo, hrank]
    rw [view, hrate, lastDelivered_of_history hhistory]
    by_cases hkey : sub.providerId = provider
    · subst hkey
      by_cases hsent : (outcome hash config now deliver message sub
          (s.rateState message.eventCategory sub.providerId)).1 = .sent
      all_goals
        simp [view, viewTo, hrank, HistoryRow.reached, hstatus, hprovider, hmessage, hsent]
    · simp [view, HistoryRow.reached, hprovider, hkey, Ne.symm hkey]

/-- The subscriptions of a category have distinct providers. -/
theorem enabledFor_filter {config : NotificationConfig} {eventCategory : String}
    {sub : Subscription} (hsub : sub ∈ config.enabledFor eventCategory) :
    (config.enabledFor eventCategory).filter
      (fun other => some other.providerId = some sub.providerId) = [sub] := by
  have hcategory : ∀ other ∈ config.enabledFor eventCategory,
      other.eventCategory = eventCategory := by
    intro other hother
    have hand := (List.mem_filter.mp hother).2
    simp only [Bool.and_eq_true, decide_eq_true_eq] at hand
    exact hand.1.1
  have hnodup : ((config.enabledFor eventCategory).map
      fun other => (other.providerId, other.eventCategory)).Nodup :=
    config.unique.sublist (List.filter_sublist.map _)
  rw [← filter_key_eq_singleton hnodup hsub]
  refine List.filter_congr fun other hother => decide_eq_decide.mpr ?_
  rw [Option.some.injEq, Prod.mk.injEq, hcategory other hother, hcategory sub hsub]
  simp

/-- **What a dispatch does at the provider of one subscription.** -/
theorem view_dispatch {sub : Subscription} (hsub : sub ∈ config.enabledFor message.eventCategory)
    (s : NotificationState Digest) :
    view message (dispatch hash config now deliver message s) sub.providerId
      = viewTo hash config now deliver message sub (view message s sub.providerId) := by
  rw [dispatch, view_foldl (local_dispatchTo hash config now deliver message),
    enabledFor_filter hsub]
  rfl

/-- A dispatch delivers, or leaves the last delivered message as it was. -/
theorem lastDelivered_dispatch {sub : Subscription}
    (hsub : sub ∈ config.enabledFor message.eventCategory) (s : NotificationState Digest) :
    lastDelivered (dispatch hash config now deliver message s) message.eventCategory
        message.component sub.providerId
      = if delivers hash config now deliver message s sub then some message.recovered
        else lastDelivered s message.eventCategory message.component sub.providerId := by
  have hview := congrArg Prod.snd (view_dispatch hash config now deliver message hsub s)
  refine Eq.trans hview ?_
  by_cases hrank : message.severity.rank < sub.minSeverity.rank
  · simp [viewTo, view, delivers, hrank]
  · have hle := Nat.not_lt.mp hrank
    simp [viewTo, view, delivers, hrank, hle, outcome_eq_sent]

end View

end AlderpointDNS.Notifications
