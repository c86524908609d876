import AlderpointDNS.Analytics.Collector
import AlderpointDNS.Analytics.PolicyIndex
import AlderpointDNS.Lib.Counters

/-!
# Two feeds for the same columns

The buckets are filled by the writer, with an event for each logged response (`insert_events`), and
by the poll of dnsdist's own counters (`collect_dnsdist_aggregate`), which adds what a counter has
grown by since the poll before.  Both add to `responses` and `refused`.

* `total_insertEvents`, `total_collectDnsdistAggregate` — what the two add to a column;
* `FeedState.ledger` — the responses behind a column, each as often as it was added;
* **`counted_once_iff`** — in a run the columns are as large as their ledgers, and `responses` and
  `refused` have each response once exactly when no response comes in through both feeds;
* `logged_and_polled` — a response that does.

Which responses raise which counter is dnsdist's own matter, and a parameter.  Not modelled: the
latency columns and `backend_healthy`, which are not sums of responses.
-/

namespace AlderpointDNS.Analytics

open Text

/-! ## The tables -/

/-- The columns of `analytics_aggregate_buckets` that are added up. -/
inductive Column where
  | totalQueries | allowedQueries | blockedQueries | responses
  | noerror | nxdomain | servfail | refused
  | udpQueries | tcpQueries | dohQueries | dotQueries | doqQueries | doh3Queries
  | droppedRequests | rateLimitedRequests | cacheHits | cacheMisses | telemetryDropped
  deriving DecidableEq

/-- A `QueryEvent` with its time and client. -/
structure StoredEvent extends QueryEvent where
  ts : ℕ
  client : Str

/-- The tables that the two feeds write. -/
structure FeedTables where
  /-- `analytics_aggregate_buckets`, by `bucket_start` -/
  buckets : Dict ℕ (Column → ℕ)
  /-- `analytics_counter_state` -/
  counterState : Dict Str ℕ
  /-- `query_events` -/
  queryEvents : List StoredEvent

/-- `bucket_columns_for_event`; `upsert_bucket` takes `0` for the columns it does not have. -/
def bucketColumnsForEvent (u : UnicodeData) (event : StoredEvent) : Column → ℕ :=
  let protocol := u.toLower event.protocol
  let rcode := u.toLower event.rcode
  fun
    | .totalQueries => 1
    | .allowedQueries => if event.blocked then 0 else 1
    | .blockedQueries => if event.blocked then 1 else 0
    | .responses => 1
    | .noerror => if rcode = "noerror".toList then 1 else 0
    | .nxdomain => if rcode = "nxdomain".toList then 1 else 0
    | .servfail => if rcode = "servfail".toList then 1 else 0
    | .refused => if rcode = "refused".toList then 1 else 0
    | .udpQueries => if protocol = "udp".toList then 1 else 0
    | .tcpQueries => if protocol = "tcp".toList then 1 else 0
    | .dohQueries => if protocol = "doh".toList then 1 else 0
    | .dotQueries => if protocol = "dot".toList then 1 else 0
    | .doqQueries => if protocol = "doq".toList then 1 else 0
    | .doh3Queries => if protocol = "doh3".toList then 1 else 0
    | .droppedRequests | .rateLimitedRequests | .cacheHits | .cacheMisses | .telemetryDropped => 0

/-- `upsert_bucket`. -/
def upsertBucket (buckets : Dict ℕ (Column → ℕ)) (ts : ℕ) (values : Column → ℕ) :
    Dict ℕ (Column → ℕ) :=
  Counters.addRow buckets (bucketStart ts) values

/-- `insert_events`. -/
def insertEvents (u : UnicodeData) (db : FeedTables) (events : List StoredEvent)
    (detailedEnabled : Bool) : FeedTables :=
  { db with
    buckets := events.foldl
      (fun buckets event => upsertBucket buckets event.ts (bucketColumnsForEvent u event))
      db.buckets
    queryEvents := if detailedEnabled then db.queryEvents ++ events else db.queryEvents }

/-- `COUNTER_MAP`. -/
def counterMap : List (Str × Column) :=
  [("responses".toList, .responses),
    ("cache-hits".toList, .cacheHits),
    ("cache-misses".toList, .cacheMisses),
    ("packetcache-hits".toList, .cacheHits),
    ("packetcache-misses".toList, .cacheMisses),
    ("acl-drops".toList, .droppedRequests),
    ("dyn-blocked".toList, .rateLimitedRequests),
    ("over-capacity-drops".toList, .droppedRequests),
    ("rule-drop".toList, .droppedRequests),
    ("rule-refused".toList, .refused)]

/-- What a counter has grown by; a counter that was not seen before, or that fell, counts as `0`. -/
def counterDelta (old : Option ℕ) (current : ℕ) : ℕ :=
  match old with
  | none => 0
  | some old => if current < old then 0 else current - old

/-- `collect_dnsdist_aggregate`; a counter that is missing in the answer is `0`. -/
def collectDnsdistAggregate (db : FeedTables) (stats : Str → ℕ) (ts : ℕ) : FeedTables :=
  let previous := db.counterState
  let deltas := Counters.tally Prod.snd
    (fun entry => counterDelta (previous.lookup entry.1) (stats entry.1)) counterMap fun _ => 0
  { db with
    counterState := counterMap.foldl (fun state entry => state.insert entry.1 (stats entry.1))
      db.counterState
    buckets := upsertBucket db.buckets ts deltas }

/-! ### What they add to a column -/

theorem total_insertEvents (u : UnicodeData) (db : FeedTables) (events : List StoredEvent)
    (detailedEnabled : Bool) (c : Column) :
    Counters.total (insertEvents u db events detailedEnabled).buckets c
      = Counters.total db.buckets c
        + (events.map fun event => bucketColumnsForEvent u event c).sum :=
  Counters.total_foldl_addRow (fun event : StoredEvent => bucketStart event.ts)
    (bucketColumnsForEvent u) events db.buckets c

theorem total_collectDnsdistAggregate (db : FeedTables) (stats : Str → ℕ) (ts : ℕ) (c : Column) :
    Counters.total (collectDnsdistAggregate db stats ts).buckets c
      = Counters.total db.buckets c + (counterMap.map fun entry =>
          if entry.2 = c then counterDelta (db.counterState.lookup entry.1) (stats entry.1)
          else 0).sum := by
  rw [collectDnsdistAggregate, upsertBucket, Counters.total_addRow, Counters.tally_apply,
    Nat.zero_add]

theorem lookup_foldl_insert (stats : Str → ℕ) (entries : List (Str × Column))
    (state : Dict Str ℕ) (source : Str) :
    (entries.foldl (fun state entry => state.insert entry.1 (stats entry.1)) state).lookup source
      = if source ∈ entries.map Prod.fst then some (stats source) else state.lookup source := by
  induction entries generalizing state with
  | nil => simp
  | cons entry entries ih =>
      rw [List.foldl_cons, ih, Dict.lookup_insert']
      by_cases hentry : entry.1 = source
      · simp [hentry]
      · rw [if_neg hentry]
        exact if_congr (by simp [Ne.symm hentry]) rfl rfl

theorem counterDelta_add (old grown : ℕ) : counterDelta (some old) (old + grown) = grown := by
  rw [counterDelta, if_neg (Nat.not_lt.mpr (Nat.le_add_right old grown)), Nat.add_sub_cancel_left]

/-! ## dnsdist and the two feeds -/

section Feeds

variable {ρ : Type}

/-- dnsdist: the event that is logged for a response, and the counters that the response raises.  A
query that is not answered is a `ρ` too, without an event that anybody writes. -/
structure Dnsdist (ρ : Type) where
  event : ρ → StoredEvent
  raises : Str → ρ → Bool

/-- The tables, the counters of the process, and a record of what happened. -/
structure FeedState (ρ : Type) where
  db : FeedTables
  /-- what `dnsdist_stats` returns -/
  stats : Str → ℕ
  answered : List ρ
  /-- answered since the last poll -/
  pending : List ρ
  /-- answered between two polls -/
  polled : List ρ
  /-- those whose events were inserted -/
  written : List ρ

inductive FeedAction (ρ : Type) where
  /-- dnsdist answers -/
  | answer (r : ρ)
  /-- `insert_events`, with the events of these responses -/
  | insert (batch : List ρ) (detailedEnabled : Bool)
  /-- `collect_dnsdist_aggregate` -/
  | poll (ts : ℕ)

variable (u : UnicodeData) (d : Dnsdist ρ)

namespace FeedState

/-- A counter was polled before. -/
def seen (s : FeedState ρ) (source : Str) : Bool := (s.db.counterState.lookup source).isSome

def answer (s : FeedState ρ) (r : ρ) : FeedState ρ :=
  { s with
    stats := fun source => s.stats source + if d.raises source r then 1 else 0
    answered := s.answered ++ [r]
    pending := s.pending ++ [r] }

def insert (s : FeedState ρ) (batch : List ρ) (detailedEnabled : Bool) : FeedState ρ :=
  { s with
    db := insertEvents u s.db (batch.map d.event) detailedEnabled
    written := s.written ++ batch }

-- what was answered before the first poll is in no difference
def poll (s : FeedState ρ) (ts : ℕ) : FeedState ρ :=
  { s with
    db := collectDnsdistAggregate s.db s.stats ts
    pending := []
    polled := if s.seen "responses".toList then s.polled ++ s.pending else s.polled }

end FeedState

/-- One step; each response is answered once, and its event is in one batch at most. -/
def feedStep [DecidableEq ρ] (s : FeedState ρ) : FeedAction ρ → Option (FeedState ρ)
  | .answer r => if r ∉ s.answered then some (s.answer d r) else none
  | .insert batch detailedEnabled =>
      if batch.Nodup ∧ (∀ r ∈ batch, r ∈ s.answered ∧ r ∉ s.written) then
        some (s.insert u d batch detailedEnabled)
      else none
  | .poll ts => some (s.poll ts)

/-- Empty tables, and a dnsdist process with any counters. -/
def feedStart (stats : Str → ℕ) : FeedState ρ := ⟨⟨∅, ∅, []⟩, stats, [], [], [], []⟩

namespace FeedState

/-- The responses that were added to a column, each as often as it was added. -/
def ledger (s : FeedState ρ) (c : Column) : List ρ :=
  (s.written.flatMap fun r => List.replicate (bucketColumnsForEvent u (d.event r) c) r) ++
    counterMap.flatMap fun entry => if entry.2 = c then s.polled.filter (d.raises entry.1) else []

/-- Each response is counted at most once in `responses` and in `refused`. -/
def CountedOnce (s : FeedState ρ) : Prop :=
  (s.ledger u d .responses).Nodup ∧ (s.ledger u d .refused).Nodup

/-- The response is counted by both feeds. -/
def Twice (r : ρ) : Prop :=
  d.raises "responses".toList r = true ∨
    u.toLower (d.event r).rcode = "refused".toList ∧ d.raises "rule-refused".toList r = true

/-- No response gets to a column by the one feed that is there by the other. -/
def Apart (s : FeedState ρ) : FeedAction ρ → Prop
  | .answer _ => True
  | .insert batch _ => ∀ r ∈ batch, r ∈ s.polled → ¬Twice u d r
  | .poll _ => s.seen "responses".toList = true → ∀ r ∈ s.pending, r ∈ s.written → ¬Twice u d r

end FeedState

variable {u d} {s s' : FeedState ρ}

theorem feedStep_cases [DecidableEq ρ] {a : FeedAction ρ} (h : feedStep u d s a = some s') :
    (∃ r, a = .answer r ∧ r ∉ s.answered ∧ s' = s.answer d r) ∨
    (∃ batch detailedEnabled, a = .insert batch detailedEnabled ∧ batch.Nodup ∧
      (∀ r ∈ batch, r ∈ s.answered ∧ r ∉ s.written) ∧ s' = s.insert u d batch detailedEnabled) ∨
    ∃ ts, a = .poll ts ∧ s' = s.poll ts := by
  cases a with
  | answer r =>
      rw [feedStep] at h
      split_ifs at h with hnew
      exact .inl ⟨r, rfl, hnew, (Option.some.inj h).symm⟩
  | insert batch detailedEnabled =>
      rw [feedStep] at h
      split_ifs at h with hbatch
      exact .inr (.inl ⟨batch, detailedEnabled, rfl, hbatch.1, hbatch.2, (Option.some.inj h).symm⟩)
  | poll ts => exact .inr (.inr ⟨ts, rfl, (Option.some.inj h).symm⟩)

/-! ### The ledger is the column -/

theorem bucketColumns_responses (event : StoredEvent) :
    bucketColumnsForEvent u event .responses = 1 := rfl

theorem bucketColumns_refused (event : StoredEvent) :
    bucketColumnsForEvent u event .refused
      = if u.toLower event.rcode = "refused".toList then 1 else 0 := rfl

theorem counterMap_responses (f : Str → List ρ) :
    (counterMap.flatMap fun entry => if entry.2 = .responses then f entry.1 else [])
      = f "responses".toList :=
  List.append_nil _

theorem counterMap_refused (f : Str → List ρ) :
    (counterMap.flatMap fun entry => if entry.2 = .refused then f entry.1 else [])
      = f "rule-refused".toList :=
  List.append_nil _

namespace FeedState

theorem length_ledger (s : FeedState ρ) (c : Column) :
    (s.ledger u d c).length
      = (s.written.map fun r => bucketColumnsForEvent u (d.event r) c).sum
        + (counterMap.map fun entry =>
            if entry.2 = c then (s.polled.filter (d.raises entry.1)).length else 0).sum := by
  rw [ledger, List.length_append, List.length_flatMap, List.length_flatMap]
  simp only [List.length_replicate, apply_ite List.length, List.length_nil]

theorem ledger_responses (s : FeedState ρ) :
    s.ledger u d .responses = s.written ++ s.polled.filter (d.raises "responses".toList) := by
  rw [ledger, counterMap_responses fun source => s.polled.filter (d.raises source)]
  simp only [bucketColumns_responses, List.replicate_one, List.flatMap_singleton']

theorem ledger_refused (s : FeedState ρ) :
    s.ledger u d .refused
      = s.written.filter (fun r => u.toLower (d.event r).rcode = "refused".toList) ++
        s.polled.filter (d.raises "rule-refused".toList) := by
  have hevents : (s.written.flatMap fun r =>
      List.replicate (bucketColumnsForEvent u (d.event r) .refused) r)
        = s.written.filter fun r => u.toLower (d.event r).rcode = "refused".toList := by
    induction s.written with
    | nil => rfl
    | cons r rs ih =>
        rw [List.flatMap_cons, ih, List.filter_cons, bucketColumns_refused]
        by_cases hr : u.toLower (d.event r).rcode = "refused".toList
        · rw [if_pos hr, if_pos (decide_eq_true hr)]
          rfl
        · rw [if_neg hr, if_neg (by rwa [decide_eq_true_eq])]
          rfl
  rw [ledger, hevents, counterMap_refused fun source => s.polled.filter (d.raises source)]

end FeedState

/-- What holds in every state of a run. -/
structure Fed (u : UnicodeData) (d : Dnsdist ρ) (s : FeedState ρ) : Prop where
  total : ∀ c, Counters.total s.db.buckets c = (s.ledger u d c).length
  /-- a stored counter is that of the last poll -/
  grown : ∀ entry ∈ counterMap, s.db.counterState.lookup entry.1
    = none ∧ s.seen "responses".toList = false ∨
      s.seen "responses".toList = true ∧ ∃ old, s.db.counterState.lookup entry.1 = some old ∧
        s.stats entry.1 = old + (s.pending.filter (d.raises entry.1)).length
  answeredOnce : (s.polled ++ s.pending).Nodup
  answered : ∀ r ∈ s.polled ++ s.pending, r ∈ s.answered
  writtenOnce : s.written.Nodup

theorem fed_feedStart (stats : Str → ℕ) : Fed u d (feedStart stats) where
  total c := by
    have hledger : (feedStart stats : FeedState ρ).ledger u d c = [] := by
      simp [FeedState.ledger, feedStart]
    rw [hledger]
    rfl
  grown _ _ := .inl ⟨rfl, rfl⟩
  answeredOnce := List.nodup_nil
  answered _ h := absurd h List.not_mem_nil
  writtenOnce := List.nodup_nil

theorem Fed.answer (h : Fed u d s) {r : ρ} (hnew : r ∉ s.answered) : Fed u d (s.answer d r) where
  total := h.total
  grown entry hentry := by
    rcases h.grown entry hentry with hnone | ⟨hseen, old, hold, hstats⟩
    · exact .inl hnone
    · refine .inr ⟨hseen, old, hold, ?_⟩
      change s.stats entry.1 + _ = old + ((s.pending ++ [r]).filter _).length
      rw [hstats, List.filter_append, List.length_append, List.filter_singleton]
      cases d.raises entry.1 r <;> rfl
  answeredOnce := by
    change (s.polled ++ (s.pending ++ [r])).Nodup
    rw [← List.append_assoc]
    exact List.nodup_append_comm.mp
      (List.nodup_cons.mpr ⟨fun hr => hnew (h.answered r hr), h.answeredOnce⟩)
  answered x hx := by
    change x ∈ s.answered ++ [r]
    change x ∈ s.polled ++ (s.pending ++ [r]) at hx
    rw [← List.append_assoc, List.mem_append] at hx
    exact List.mem_append.mpr (hx.imp_left (h.answered x))
  writtenOnce := h.writtenOnce

theorem Fed.insert (h : Fed u d s) {batch : List ρ} (detailedEnabled : Bool)
    (honce : batch.Nodup) (hbatch : ∀ r ∈ batch, r ∈ s.answered ∧ r ∉ s.written) :
    Fed u d (s.insert u d batch detailedEnabled) where
  total c := by
    change Counters.total (insertEvents u s.db (batch.map d.event) detailedEnabled).buckets c = _
    rw [total_insertEvents, h.total, FeedState.length_ledger, FeedState.length_ledger]
    change _ = ((s.written ++ batch).map fun r => bucketColumnsForEvent u (d.event r) c).sum + _
    rw [List.map_append, List.sum_append, List.map_map]
    change _ = _ + _ + (counterMap.map fun entry =>
      if entry.2 = c then (s.polled.filter (d.raises entry.1)).length else 0).sum
    simp only [Function.comp_def]
    omega
  grown := h.grown
  answeredOnce := h.answeredOnce
  answered := h.answered
  writtenOnce := List.nodup_append.mpr ⟨h.writtenOnce, honce, fun _ hr _ hr' heq =>
    (hbatch _ hr').2 (heq ▸ hr)⟩

theorem seen_poll (s : FeedState ρ) (ts : ℕ) (entry : Str × Column) (h : entry ∈ counterMap) :
    (s.poll ts).db.counterState.lookup entry.1 = some (s.stats entry.1) := by
  change (counterMap.foldl (fun state entry => state.insert entry.1 (s.stats entry.1))
    s.db.counterState).lookup entry.1 = _
  rw [lookup_foldl_insert, if_pos (List.mem_map_of_mem h)]

theorem Fed.poll (h : Fed u d s) (ts : ℕ) : Fed u d (s.poll ts) where
  total c := by
    change Counters.total (collectDnsdistAggregate s.db s.stats ts).buckets c = _
    rw [total_collectDnsdistAggregate, h.total, FeedState.length_ledger, FeedState.length_ledger]
    change _ = (s.written.map fun r => bucketColumnsForEvent u (d.event r) c).sum + _
    rw [Nat.add_assoc, ← List.sum_map_add]
    refine congrArg _ (congrArg List.sum (List.map_congr_left fun entry hentry => ?_))
    change _ = if entry.2 = c then ((if s.seen "responses".toList then s.polled ++ s.pending
      else s.polled).filter (d.raises entry.1)).length else 0
    split_ifs with hc hseen
    · rcases h.grown entry hentry with ⟨_, hunseen⟩ | ⟨_, old, hold, hstats⟩
      · rw [hunseen] at hseen
        cases hseen
      · rw [hold, hstats, counterDelta_add, List.filter_append, List.length_append]
    · rcases h.grown entry hentry with ⟨hnone, _⟩ | ⟨hwas, _⟩
      · rw [hnone]
        rfl
      · exact absurd hwas hseen
    · rfl
  grown entry hentry := by
    have hseen : (s.poll ts).seen "responses".toList = true := by
      rw [FeedState.seen, seen_poll s ts ("responses".toList, .responses) (by simp [counterMap])]
      rfl
    exact .inr ⟨hseen, s.stats entry.1, seen_poll s ts entry hentry, rfl⟩
  answeredOnce := by
    change ((if s.seen "responses".toList then s.polled ++ s.pending else s.polled) ++ []).Nodup
    rw [List.append_nil]
    split_ifs
    · exact h.answeredOnce
    · exact (List.nodup_append.mp h.answeredOnce).1
  answered x hx := by
    change x ∈ (if s.seen "responses".toList then s.polled ++ s.pending else s.polled) ++ [] at hx
    rw [List.append_nil] at hx
    split_ifs at hx
    · exact h.answered x hx
    · exact h.answered x (List.mem_append_left _ hx)
  writtenOnce := h.writtenOnce

theorem Fed.step [DecidableEq ρ] (h : Fed u d s) {a : FeedAction ρ} (hstep : feedStep u d s a = some s') :
    Fed u d s' := by
  obtain ⟨r, rfl, hnew, rfl⟩ | ⟨batch, detailedEnabled, rfl, honce, hbatch, rfl⟩ | ⟨ts, rfl, rfl⟩ :=
    feedStep_cases hstep
  · exact h.answer hnew
  · exact h.insert detailedEnabled honce hbatch
  · exact h.poll ts

/-! ### Responses that come in twice -/

theorem countedOnce_iff (h : Fed u d s) :
    s.CountedOnce u d ↔ ∀ r ∈ s.written, r ∈ s.polled → ¬FeedState.Twice u d r := by
  have hpolled := (List.nodup_append.mp h.answeredOnce).1
  rw [FeedState.CountedOnce, FeedState.ledger_responses, FeedState.ledger_refused,
    List.nodup_append', List.nodup_append']
  constructor
  · rintro ⟨⟨-, -, hresponses⟩, ⟨-, -, hrefused⟩⟩ r hwritten hr (hraised | ⟨hcode, hraised⟩)
    · exact hresponses hwritten (List.mem_filter.mpr ⟨hr, hraised⟩)
    · exact hrefused (List.mem_filter.mpr ⟨hwritten, decide_eq_true hcode⟩)
        (List.mem_filter.mpr ⟨hr, hraised⟩)
  · intro hapart
    refine ⟨⟨h.writtenOnce, hpolled.filter _, fun r hwritten hr => ?_⟩,
      ⟨h.writtenOnce.filter _, hpolled.filter _, fun r hwritten hr => ?_⟩⟩
    · obtain ⟨hr, hraised⟩ := List.mem_filter.mp hr
      exact hapart r hwritten hr (.inl hraised)
    · obtain ⟨hwritten, hcode⟩ := List.mem_filter.mp hwritten
      obtain ⟨hr, hraised⟩ := List.mem_filter.mp hr
      exact hapart r hwritten hr (.inr ⟨of_decide_eq_true hcode, hraised⟩)

/-- A step keeps the two columns apart just when it brings in no response that the other feed
brought in. -/
theorem countedOnce_step_iff [DecidableEq ρ] (h : Fed u d s) (honce : s.CountedOnce u d)
    {a : FeedAction ρ} (hstep : feedStep u d s a = some s') :
    s'.CountedOnce u d ↔ s.Apart u d a := by
  have hbefore := (countedOnce_iff h).mp honce
  rw [countedOnce_iff (h.step hstep)]
  obtain ⟨r, rfl, -, rfl⟩ | ⟨batch, detailedEnabled, rfl, -, -, rfl⟩ | ⟨ts, rfl, rfl⟩ :=
    feedStep_cases hstep
  · exact iff_of_true hbefore trivial
  · change (∀ r ∈ s.written ++ batch, r ∈ s.polled → _) ↔ _
    simp only [List.forall_mem_append]
    exact and_iff_right hbefore
  · change (∀ r ∈ s.written, r ∈ (if s.seen "responses".toList then s.polled ++ s.pending
      else s.polled) → _) ↔ (s.seen "responses".toList = true → _)
    split_ifs with hseen
    · refine ⟨fun hall _ r hr hwritten => hall r hwritten (List.mem_append_right _ hr),
        fun hall r hwritten hr => ?_⟩
      rcases List.mem_append.mp hr with hr | hr
      · exact hbefore r hwritten hr
      · exact hall hseen r hr hwritten
    · exact iff_of_true hbefore fun h => absurd h hseen

/-- In every run the columns are the responses of their ledgers, and each response is counted at
most once in `responses` and in `refused` exactly when no step brings a response to one of them
that the other feed brought there. -/
theorem counted_once_iff [DecidableEq ρ] (u : UnicodeData) (d : Dnsdist ρ) (stats : Str → ℕ)
    (actions : List (FeedAction ρ)) {s : FeedState ρ}
    (hrun : Runs.run (feedStep u d) (feedStart stats) actions = some s) :
    (∀ c, Counters.total s.db.buckets c = (s.ledger u d c).length) ∧
      (Runs.StepsMeet (feedStep u d) (FeedState.Apart u d) (feedStart stats) actions ↔
        ∀ before t, before <+: actions →
          Runs.run (feedStep u d) (feedStart stats) before = some t → t.CountedOnce u d) := by
  have hkeep : ∀ (s : FeedState ρ) (a : FeedAction ρ) (s' : FeedState ρ), Fed u d s → True →
      feedStep u d s a = some s' → Fed u d s' := fun _ _ _ h _ hstep => h.step hstep
  refine ⟨(Runs.invariant_of_run (fun s a s' h => hkeep s a s' h trivial) actions _ s
    (fed_feedStart stats) hrun).total, ?_⟩
  refine Runs.stepsMeet_iff_forall_reached hkeep
    (fun _ _ _ h honce _ hstep => countedOnce_step_iff h honce hstep) actions _ s
    (fed_feedStart stats) ?_ (fun _ _ => trivial) hrun
  exact (countedOnce_iff (fed_feedStart stats)).mpr fun _ h => absurd h List.not_mem_nil

end Feeds

/-! ### A response in both feeds

dnsdist answers once, from a backend; the response is logged, and raises `responses`. -/

/-- ASCII text. -/
def asciiLower : UnicodeData := ⟨id, fun _ => none⟩

/-- Each response comes from a backend and is logged. -/
def loggingDnsdist : Dnsdist ℕ where
  event _ :=
    { domain := "example.org".toList
      qtype := "A".toList
      protocol := "UDP".toList
      rcode := "NOERROR".toList
      blocked := false
      blockedDomain := none
      blockSource := none
      blockCategory := none
      ts := 100
      client := "192.0.2.7".toList }
  raises source _ := source = "responses".toList

theorem logged_and_polled : ∃ s, Runs.run (feedStep asciiLower loggingDnsdist)
    (feedStart fun _ => 0) [.poll 60, .answer 0, .insert [0] true, .poll 120] = some s ∧
    Counters.total s.db.buckets .responses = 2 ∧
    ¬s.CountedOnce asciiLower loggingDnsdist := by
  refine ⟨_, rfl, by decide +kernel, fun h => ?_⟩
  have hledger : [0, 0].Nodup := h.1
  exact absurd hledger (by decide)

theorem counted_once_iff_apart : ∃ s, Runs.run (feedStep asciiLower loggingDnsdist)
    (feedStart fun _ => 0) [.answer 0, .insert [0] true, .poll 60, .answer 1, .poll 120] = some s ∧
    s.CountedOnce asciiLower loggingDnsdist := by
  refine ⟨_, rfl, (counted_once_iff asciiLower loggingDnsdist (fun _ => 0)
    [.answer 0, .insert [0] true, .poll 60, .answer 1, .poll 120] rfl).2.mp ?_ _ _
    (List.prefix_refl _) rfl⟩
  refine ⟨trivial, fun _ h => ?_⟩
  cases h
  refine ⟨fun r _ hr => absurd hr List.not_mem_nil, fun _ h => ?_⟩
  cases h
  refine ⟨fun hseen => absurd hseen (by decide), fun _ h => ?_⟩
  cases h
  refine ⟨trivial, fun _ h => ?_⟩
  cases h
  refine ⟨fun _ r hr hwritten => ?_, fun _ _ => trivial⟩
  have hr : r ∈ [1] := hr
  have hwritten : r ∈ [0] := hwritten
  rw [List.mem_singleton] at hr hwritten
  omega

end AlderpointDNS.Analytics
