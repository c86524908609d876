import AlderpointDNS.Lib.Runs
import Mathlib.Algebra.BigOperators.Group.Multiset.Basic
import Mathlib.Algebra.Order.Group.Multiset
import Mathlib.Logic.Function.Basic
import Mathlib.Tactic.Abel

/-!
# What becomes of a decoded message

The receiving threads of the collector decode frames and put the messages into a bounded queue; the
writer takes them out in batches and writes each batch in one transaction.  What does not fit is
counted in `self.dropped`, which the writer moves into `telemetry_dropped`.

* `ReceiverStep`, `WriterStep` — what one step of one thread does;
* `ledger_step` — what a step takes out of the queue, the batch and the threads, and which steps
  count as many messages as they drop;
* **`accounted_iff_lossless`** — every decoded message is accounted for exactly once, in every state
  of a run, exactly when all its steps are lossless;
* `lost_batch` — a batch that is gone after a writer cycle that failed.

An event is any value with a time, as nothing else of it is read here; a message stands for the
event that `event_from_message` makes of it.  `self.dropped += 1` is a load and a store.  The rows
that `cleanup` deletes when they are old have been counted before.  `analytics_enabled` is `1`.
-/

namespace AlderpointDNS.Analytics

/-! ## The tables -/

/-- `BUCKET_SECONDS`. -/
def bucketSeconds : ℕ := 60

/-- `QUEUE_SIZE`. -/
def queueSize : ℕ := 10000

/-- `LOCK_RETRY_ATTEMPTS`. -/
def lockRetryAttempts : ℕ := 5

/-- `WRITER_MAX_CONSECUTIVE_FAILURES`. -/
def writerMaxConsecutiveFailures : ℕ := 10

/-- The number of events in a full batch. -/
def batchSize : ℕ := 500

def bucketStart (ts : ℕ) : ℕ := ts - ts % bucketSeconds

/-- `analytics_aggregate_buckets`, as far as messages are counted there, and `query_events`. -/
structure Counts (ε : Type) where
  /-- `total_queries` of the bucket with that start -/
  totalQueries : ℕ → ℕ
  /-- `telemetry_dropped`, all buckets together -/
  telemetryDropped : ℕ
  queryEvents : List ε

variable {ε : Type} (ts : ε → ℕ)

/-- `upsert_bucket` of one event. -/
def Counts.upsertBucket (db : Counts ε) (e : ε) : Counts ε :=
  let start := bucketStart (ts e)
  { db with totalQueries := Function.update db.totalQueries start (db.totalQueries start + 1) }

def Counts.insertEvents (db : Counts ε) (events : List ε) (detailedEnabled : Bool) : Counts ε :=
  let counted := events.foldl (Counts.upsertBucket ts) db
  if detailedEnabled then { counted with queryEvents := counted.queryEvents ++ events } else counted

/-! ## The threads -/

/-- Where a receiving thread is; of the frames of a chunk, `decode_dnsdist_message` returns the
messages or raises. -/
inductive Receiver (ε : Type) where
  /-- in `recv` -/
  | reading
  /-- with the messages left of a frame, and the frames left -/
  | handling (events : List ε) (frames : List (Option (List ε)))
  /-- before `self.dropped += 1`, for a message or for a frame that is not decoded -/
  | counting (held : Option ε) (events : List ε) (frames : List (Option (List ε)))
  /-- within it, with the value that was loaded -/
  | storing (loaded : ℕ) (held : Option ε) (events : List ε) (frames : List (Option (List ε)))

/-- Where a transaction of the writer is. -/
inductive WriteStage where
  | inserting
  /-- at `if self.dropped` -/
  | testing
  | reading
  | upserting (value : ℕ)
  /-- at `self.dropped = 0` -/
  | resetting (value : ℕ)
  | committing (value : ℕ)

/-- A statement is executed there. -/
def WriteStage.canFail : WriteStage → Bool
  | .inserting | .upserting _ | .committing _ => true
  | .testing | .reading | .resetting _ => false

/-- Where the writer is. -/
inductive WriterPhase (ε : Type) where
  | gathering (batch : List ε)
  | writing (batch : List ε) (detailed : Bool) (attempt : ℕ) (stage : WriteStage)
  | ended

/-- The collector: the tables, its fields and its threads, and a record of what happened. -/
structure CollectorState (ε : Type) where
  db : Counts ε
  events : List ε
  dropped : ℕ
  receivers : List (Receiver ε)
  writer : WriterPhase ε
  writerConsecutiveFailures : ℕ
  /-- the messages that were decoded -/
  decoded : List ε
  /-- the frames that were not, and are counted -/
  undecodable : ℕ
  /-- the batches that were committed, and whether with details -/
  written : List (Bool × List ε)

/-- What a receiving thread can do next. -/
inductive ReceiverAction (ε : Type) where
  | receive (frames : List (Option (List ε)))
  /-- the next frame -/
  | decode
  | enqueue
  /-- `enqueue_message` raises before it gets to the queue -/
  | raise
  | load
  | store

/-- What the writer can do next. -/
inductive WriterAction where
  /-- `self.events.get` -/
  | get
  /-- `current_settings`, at the end of the batch -/
  | settings (detailed : Bool)
  | settingsRaise
  | insert
  | test
  | read
  | upsert
  | reset
  /-- COMMIT, and whether `_run_cleanup` raises afterwards -/
  | commit (cleanupRaises : Bool)
  /-- a statement of the transaction raises -/
  | fail (locked : Bool)

/-- What can happen next. -/
inductive CollectorAction (ε : Type) where
  /-- a client connects -/
  | accept
  | receiver (i : ℕ) (a : ReceiverAction ε)
  | writer (a : WriterAction)

section Step

variable (s : CollectorState ε)

def CollectorState.setReceiver (i : ℕ) (receiver : Receiver ε) : CollectorState ε :=
  { s with receivers := s.receivers.set i receiver }

/-- `_writer_cycle`, after an exception. -/
def CollectorState.cycleFailed : CollectorState ε :=
  { s with
    writerConsecutiveFailures := s.writerConsecutiveFailures + 1
    writer :=
      if writerMaxConsecutiveFailures ≤ s.writerConsecutiveFailures + 1 then .ended
      else .gathering [] }

/-- `_writer_cycle`, without one. -/
def CollectorState.cycleDone : CollectorState ε :=
  { s with
    writerConsecutiveFailures := 0
    writer := .gathering [] }

/-- One step of a receiving thread. -/
def receiverStep (i : ℕ) : Receiver ε → ReceiverAction ε → Option (CollectorState ε)
  | .reading, .receive frames => some (s.setReceiver i (.handling [] frames))
  | .handling [] [], .decode => some (s.setReceiver i .reading)
  | .handling [] (none :: _), .decode => some (s.setReceiver i (.counting none [] []))
  | .handling [] (some messages :: frames), .decode =>
      some ({ s with decoded := s.decoded ++ messages }.setReceiver i (.handling messages frames))
  | .handling (e :: events) frames, .enqueue =>
      if s.events.length < queueSize then
        some ({ s with events := s.events ++ [e] }.setReceiver i (.handling events frames))
      else some (s.setReceiver i (.counting (some e) events frames))
  -- the handler counts one message, and `buffer` and what was left of `frames` are gone
  | .handling (e :: _) _, .raise => some (s.setReceiver i (.counting (some e) [] []))
  | .counting held events frames, .load =>
      some (s.setReceiver i (.storing s.dropped held events frames))
  | .storing loaded held events frames, .store =>
      some ({ s with
        dropped := loaded + 1
        undecodable := s.undecodable + if held.isNone then 1 else 0 }.setReceiver i
          (.handling events frames))
  | _, _ => none

/-- One step of the writer. -/
def writerStep : WriterPhase ε → WriterAction → Option (CollectorState ε)
  | .gathering batch, .get =>
      match s.events with
      | e :: events =>
          if batch.length < batchSize then
            some { s with
              events := events
              writer := .gathering (batch ++ [e]) }
          else none
      | [] => none
  | .gathering batch, .settings detailed =>
      some { s with writer := .writing batch detailed 0 .inserting }
  -- not caught in `writer_loop`
  | .gathering _, .settingsRaise => some { s with writer := .ended }
  | .writing batch detailed attempt .inserting, .insert =>
      some { s with writer := .writing batch detailed attempt .testing }
  | .writing batch detailed attempt .testing, .test =>
      some { s with
        writer := .writing batch detailed attempt
          (if s.dropped = 0 then .committing 0 else .reading) }
  | .writing batch detailed attempt .reading, .read =>
      some { s with writer := .writing batch detailed attempt (.upserting s.dropped) }
  | .writing batch detailed attempt (.upserting value), .upsert =>
      some { s with writer := .writing batch detailed attempt (.resetting value) }
  | .writing batch detailed attempt (.resetting value), .reset =>
      some { s with
        dropped := 0
        writer := .writing batch detailed attempt (.committing value) }
  | .writing batch detailed _ (.committing value), .commit cleanupRaises =>
      let inserted := s.db.insertEvents ts batch detailed
      let committed := { s with
        db := { inserted with telemetryDropped := inserted.telemetryDropped + value }
        written := s.written ++ [(detailed, batch)] }
      some (if cleanupRaises then committed.cycleFailed else committed.cycleDone)
  | .writing batch detailed attempt stage, .fail locked =>
      if stage.canFail then
        -- what was written is rolled back
        if locked = true ∧ attempt + 1 < lockRetryAttempts then
          some { s with writer := .writing batch detailed (attempt + 1) .inserting }
        else some s.cycleFailed
      else none
  | _, _ => none

/-- One step of one thread. -/
def collectorStep : CollectorAction ε → Option (CollectorState ε)
  | .accept => some { s with receivers := s.receivers ++ [.reading] }
  | .receiver i a => s.receivers[i]?.bind fun receiver => receiverStep s i receiver a
  | .writer a => writerStep ts s s.writer a

/-- What a step of a receiving thread does. -/
inductive ReceiverStep (i : ℕ) : Receiver ε → ReceiverAction ε → CollectorState ε → Prop where
  | received {frames : List (Option (List ε))} :
      ReceiverStep i .reading (.receive frames) (s.setReceiver i (.handling [] frames))
  | finished : ReceiverStep i (.handling [] []) .decode (s.setReceiver i .reading)
  | undecoded {frames : List (Option (List ε))} :
      ReceiverStep i (.handling [] (none :: frames)) .decode
        (s.setReceiver i (.counting none [] []))
  | decoded {messages : List ε} {frames : List (Option (List ε))} :
      ReceiverStep i (.handling [] (some messages :: frames)) .decode
        ({ s with decoded := s.decoded ++ messages }.setReceiver i (.handling messages frames))
  | queued {e : ε} {events : List ε} {frames : List (Option (List ε))}
      (h : s.events.length < queueSize) :
      ReceiverStep i (.handling (e :: events) frames) .enqueue
        ({ s with events := s.events ++ [e] }.setReceiver i (.handling events frames))
  | full {e : ε} {events : List ε} {frames : List (Option (List ε))} :
      ReceiverStep i (.handling (e :: events) frames) .enqueue
        (s.setReceiver i (.counting (some e) events frames))
  | raised {e : ε} {events : List ε} {frames : List (Option (List ε))} :
      ReceiverStep i (.handling (e :: events) frames) .raise
        (s.setReceiver i (.counting (some e) [] []))
  | loaded {held : Option ε} {events : List ε} {frames : List (Option (List ε))} :
      ReceiverStep i (.counting held events frames) .load
        (s.setReceiver i (.storing s.dropped held events frames))
  | stored {loaded : ℕ} {held : Option ε} {events : List ε} {frames : List (Option (List ε))} :
      ReceiverStep i (.storing loaded held events frames) .store
        ({ s with
          dropped := loaded + 1
          undecodable := s.undecodable + if held.isNone then 1 else 0 }.setReceiver i
            (.handling events frames))

/-- What a step of the writer does. -/
inductive WriterStep : WriterPhase ε → WriterAction → CollectorState ε → Prop where
  | got {batch events : List ε} {e : ε} (h : s.events = e :: events) :
      WriterStep (.gathering batch) .get
        { s with
          events := events
          writer := .gathering (batch ++ [e]) }
  | began {batch : List ε} {detailed : Bool} :
      WriterStep (.gathering batch) (.settings detailed)
        { s with writer := .writing batch detailed 0 .inserting }
  | died {batch : List ε} : WriterStep (.gathering batch) .settingsRaise { s with writer := .ended }
  | inserted {batch : List ε} {detailed : Bool} {attempt : ℕ} :
      WriterStep (.writing batch detailed attempt .inserting) .insert
        { s with writer := .writing batch detailed attempt .testing }
  | tested {batch : List ε} {detailed : Bool} {attempt : ℕ} :
      WriterStep (.writing batch detailed attempt .testing) .test
        { s with
          writer := .writing batch detailed attempt
            (if s.dropped = 0 then .committing 0 else .reading) }
  | read {batch : List ε} {detailed : Bool} {attempt : ℕ} :
      WriterStep (.writing batch detailed attempt .reading) .read
        { s with writer := .writing batch detailed attempt (.upserting s.dropped) }
  | upserted {batch : List ε} {detailed : Bool} {attempt value : ℕ} :
      WriterStep (.writing batch detailed attempt (.upserting value)) .upsert
        { s with writer := .writing batch detailed attempt (.resetting value) }
  | wasReset {batch : List ε} {detailed : Bool} {attempt value : ℕ} :
      WriterStep (.writing batch detailed attempt (.resetting value)) .reset
        { s with
          dropped := 0
          writer := .writing batch detailed attempt (.committing value) }
  | committed {batch : List ε} {detailed cleanupRaises : Bool} {attempt value : ℕ}
      {t : CollectorState ε}
      (h : t = { s with
        db := { s.db.insertEvents ts batch detailed with
          telemetryDropped := (s.db.insertEvents ts batch detailed).telemetryDropped + value }
        written := s.written ++ [(detailed, batch)] }) :
      WriterStep (.writing batch detailed attempt (.committing value)) (.commit cleanupRaises)
        (if cleanupRaises then t.cycleFailed else t.cycleDone)
  | retried {batch : List ε} {detailed locked : Bool} {attempt : ℕ} {stage : WriteStage}
      (hstage : stage.canFail = true) (h : locked = true ∧ attempt + 1 < lockRetryAttempts) :
      WriterStep (.writing batch detailed attempt stage) (.fail locked)
        { s with writer := .writing batch detailed (attempt + 1) .inserting }
  | gaveUp {batch : List ε} {detailed locked : Bool} {attempt : ℕ} {stage : WriteStage}
      (hstage : stage.canFail = true) (h : ¬(locked = true ∧ attempt + 1 < lockRetryAttempts)) :
      WriterStep (.writing batch detailed attempt stage) (.fail locked) s.cycleFailed

variable {ts s} {s' : CollectorState ε}

theorem receiverStep_cases {i : ℕ} {receiver : Receiver ε} {a : ReceiverAction ε}
    (h : receiverStep s i receiver a = some s') : ReceiverStep s i receiver a s' := by
  unfold receiverStep at h
  split at h
  case h_5 =>
    split_ifs at h with hroom
    · cases h
      exact .queued hroom
    · cases h
      exact .full
  all_goals cases h
  all_goals constructor

theorem writerStep_cases {phase : WriterPhase ε} {a : WriterAction}
    (h : writerStep ts s phase a = some s') : WriterStep ts s phase a s' := by
  unfold writerStep at h
  split at h
  case h_1 batch =>
    split at h
    · rename_i e events hevents
      split_ifs at h
      cases h
      exact .got hevents
    · cases h
  case h_9 batch detailed attempt value cleanupRaises =>
    cases h
    exact .committed rfl
  case h_10 batch detailed attempt stage locked =>
    split_ifs at h with hstage hretry
    · cases h
      exact .retried hstage hretry
    · cases h
      exact .gaveUp hstage hretry
  all_goals cases h
  all_goals constructor

end Step

/-! ## Where the messages are -/

section Ledger

/-- The messages that a receiving thread has decoded and not yet put anywhere. -/
def Receiver.hand : Receiver ε → Multiset ε
  | .reading => 0
  | .handling events _ => events
  | .counting held events _ | .storing _ held events _ => (held.toList : Multiset ε) + events

/-- The batch in `writer_loop`. -/
def WriterPhase.batch : WriterPhase ε → List ε
  | .gathering batch | .writing batch _ _ _ => batch
  | .ended => []

/-- What is in the transaction alone of the messages counted as dropped. -/
def WriteStage.flushed : WriteStage → ℕ
  | .committing value => value
  | _ => 0

def WriterPhase.flushed : WriterPhase ε → ℕ
  | .writing _ _ _ stage => stage.flushed
  | _ => 0

variable (s : CollectorState ε)

/-- The messages that a thread has, that are queued, or that are written. -/
def CollectorState.held : Multiset ε :=
  (s.receivers.map Receiver.hand).sum + s.events + s.writer.batch + s.written.flatMap (·.2)

/-- The messages, and the frames, that are counted as dropped. -/
def CollectorState.drops : ℕ := s.db.telemetryDropped + s.writer.flushed + s.dropped

/-- No other message of the frame is left where `enqueue_message` raises, and no other thread has
changed `self.dropped` since it was loaded. -/
def Receiver.Lossless (dropped : ℕ) : Receiver ε → ReceiverAction ε → Prop
  | .handling (_ :: events) _, .raise => events = []
  | .storing loaded _ _ _, .store => loaded = dropped
  | _, _ => True

/-- No batch is given up, `self.dropped` is what was written when it is reset, and a transaction in
which it has been reset does not fail. -/
def WriterPhase.Lossless (dropped : ℕ) : WriterPhase ε → WriterAction → Prop
  | .gathering batch, .settingsRaise => batch = []
  | .writing _ _ _ (.resetting value), .reset => value = dropped
  | .writing batch _ attempt stage, .fail locked =>
      stage.flushed = 0 ∧ ((locked = true ∧ attempt + 1 < lockRetryAttempts) ∨ batch = [])
  | _, _ => True

theorem WriterPhase.lossless_fail (dropped : ℕ) (batch : List ε) (detailed : Bool) (attempt : ℕ)
    (stage : WriteStage) (locked : Bool) :
    (WriterPhase.writing batch detailed attempt stage).Lossless dropped (.fail locked) ↔
      stage.flushed = 0 ∧ ((locked = true ∧ attempt + 1 < lockRetryAttempts) ∨ batch = []) := by
  cases stage <;> rfl

/-- The step loses no message and counts none twice. -/
def CollectorState.Lossless : CollectorAction ε → Prop
  | .accept => True
  | .receiver i a => ∀ receiver, s.receivers[i]? = some receiver → receiver.Lossless s.dropped a
  | .writer a => s.writer.Lossless s.dropped a

/-- The steps that cannot go wrong. -/
def CollectorAction.quiet : CollectorAction ε → Bool
  | .receiver _ .raise | .receiver _ .store => false
  | .writer .settingsRaise | .writer .reset | .writer (.fail _) => false
  | _ => true

variable {s} {s' : CollectorState ε}

theorem lossless_of_quiet {a : CollectorAction ε} (h : a.quiet = true) : s.Lossless a := by
  cases a with
  | accept => trivial
  | receiver i a =>
      intro receiver _
      unfold Receiver.Lossless
      split
      · exact Bool.noConfusion h
      · exact Bool.noConfusion h
      · trivial
  | writer a =>
      show s.writer.Lossless s.dropped a
      unfold WriterPhase.Lossless
      split
      · exact Bool.noConfusion h
      · exact Bool.noConfusion h
      · exact Bool.noConfusion h
      · trivial

/-- One place of a list is changed. -/
theorem sum_map_set {l : List (Receiver ε)} {i : ℕ} {old : Receiver ε} (new : Receiver ε)
    (hold : l[i]? = some old) :
    ((l.set i new).map Receiver.hand).sum + old.hand = (l.map Receiver.hand).sum + new.hand := by
  induction l generalizing i with
  | nil => cases hold
  | cons receiver l ih =>
      cases i with
      | zero =>
          cases hold
          simp only [List.set_cons_zero, List.map_cons, List.sum_cons]
          abel
      | succ i =>
          have hrest := ih hold
          simp only [List.set_cons_succ, List.map_cons, List.sum_cons]
          rw [add_assoc, hrest, add_assoc]

/-- What a step leaves of the messages, and how many of those that are gone it counts. -/
def Books (s s' : CollectorState ε) (lossless : Prop) : Prop :=
  ∃ lost : Multiset ε, (s'.decoded : Multiset ε) + s.held = s.decoded + s'.held + lost ∧
    (s'.drops + s.undecodable = s.drops + s'.undecodable + lost.card ↔ lossless)

/-- A receiving thread moves on. -/
theorem held_setReceiver {i : ℕ} {old : Receiver ε} (new : Receiver ε)
    (hold : s.receivers[i]? = some old) :
    (s.setReceiver i new).held + old.hand = s.held + new.hand := by
  have hsum := sum_map_set new hold
  show ((s.receivers.set i new).map Receiver.hand).sum + s.events + s.writer.batch +
    s.written.flatMap (·.2) + old.hand = s.held + new.hand
  rw [CollectorState.held]
  calc _ = ((s.receivers.set i new).map Receiver.hand).sum + old.hand + s.events + s.writer.batch +
        s.written.flatMap (·.2) := by abel
    _ = _ := by rw [hsum]; abel

/-- A step that keeps the messages and the numbers. -/
theorem books_same {s' : CollectorState ε} {lossless : Prop} (hdecoded : s'.decoded = s.decoded)
    (hheld : s'.held = s.held) (hdrops : s'.drops = s.drops)
    (hundecodable : s'.undecodable = s.undecodable) (h : lossless) : Books s s' lossless := by
  refine ⟨0, ?_, iff_of_true ?_ h⟩
  · rw [hdecoded, hheld, add_zero]
  · rw [hdrops, hundecodable, Multiset.card_zero, add_zero]

theorem books_receiver {i : ℕ} {receiver : Receiver ε} {a : ReceiverAction ε}
    (hreceiver : s.receivers[i]? = some receiver) (h : ReceiverStep s i receiver a s') :
    Books s s' (receiver.Lossless s.dropped a) := by
  cases h with
  | @received frames =>
      have hheld := held_setReceiver (.handling [] frames) hreceiver
      exact books_same rfl (add_right_cancel hheld) rfl rfl trivial
  | finished =>
      have hheld := held_setReceiver .reading hreceiver
      exact books_same rfl (add_right_cancel hheld) rfl rfl trivial
  | @undecoded frames =>
      have hheld := held_setReceiver (.counting none [] []) hreceiver
      exact books_same rfl (add_right_cancel hheld) rfl rfl trivial
  | @decoded messages frames =>
      have hheld := held_setReceiver (s := { s with decoded := s.decoded ++ messages })
        (.handling messages frames) hreceiver
      refine ⟨0, ?_, iff_of_true (by rw [Multiset.card_zero]; rfl) trivial⟩
      have hmoved : CollectorState.held _ = s.held + (messages : Multiset ε) :=
        (add_zero _).symm.trans hheld
      rw [hmoved]
      show ((s.decoded ++ messages : List ε) : Multiset ε) + s.held = _
      rw [← Multiset.coe_add]
      abel
  | @queued e events frames hroom =>
      have hheld := held_setReceiver (s := { s with events := s.events ++ [e] })
        (.handling events frames) hreceiver
      have hqueue : CollectorState.held { s with events := s.events ++ [e] } = s.held + {e} := by
        show (s.receivers.map Receiver.hand).sum + ((s.events ++ [e] : List ε) : Multiset ε) +
          s.writer.batch + s.written.flatMap (·.2) = s.held + {e}
        rw [CollectorState.held, ← Multiset.coe_add, Multiset.coe_singleton]
        abel
      have hhand : (Receiver.handling (e :: events) frames).hand = {e} + (events : Multiset ε) := by
        rw [Multiset.singleton_add]
        rfl
      refine books_same rfl (add_right_cancel (b := {e} + (events : Multiset ε)) ?_) rfl rfl trivial
      rw [← hhand, hheld, hqueue, hhand, add_assoc]
      rfl
  | @full e events frames =>
      have hheld := held_setReceiver (.counting (some e) events frames) hreceiver
      exact books_same rfl (add_right_cancel hheld) rfl rfl trivial
  | @raised e events frames =>
      have hheld := held_setReceiver (.counting (some e) [] []) hreceiver
      have hheld' : (s.setReceiver i (.counting (some e) [] [])).held + events = s.held := by
        refine add_right_cancel (b := {e}) ?_
        rw [add_assoc, add_comm (events : Multiset ε), Multiset.singleton_add]
        exact hheld
      refine ⟨events, ?_, ?_⟩
      · rw [← hheld', add_assoc]
        rfl
      · show s.drops + s.undecodable = s.drops + s.undecodable + Multiset.card (events : Multiset ε)
          ↔ events = []
        rw [Multiset.coe_card, ← List.length_eq_zero_iff]
        omega
  | @loaded held events frames =>
      have hheld := held_setReceiver (.storing s.dropped held events frames) hreceiver
      exact books_same rfl (add_right_cancel hheld) rfl rfl trivial
  | @stored loaded held events frames =>
      have hheld := held_setReceiver (s := { s with
        dropped := loaded + 1
        undecodable := s.undecodable + if held.isNone then 1 else 0 }) (.handling events frames)
        hreceiver
      refine ⟨held.toList, ?_, ?_⟩
      · refine congrArg (_ + ·) (add_right_cancel (b := (events : Multiset ε)) ?_) |>.trans
          (add_assoc _ _ _).symm
        rw [add_assoc]
        exact hheld.symm
      · show s.db.telemetryDropped + s.writer.flushed + (loaded + 1) + s.undecodable =
          s.drops + (s.undecodable + if held.isNone then 1 else 0) +
            Multiset.card (held.toList : Multiset ε) ↔ loaded = s.dropped
        rw [CollectorState.drops, Multiset.coe_card]
        cases held with
        | none =>
            simp only [Option.isNone_none, if_true, Option.toList_none, List.length_nil]
            omega
        | some e =>
            simp only [Option.isNone_some, Bool.false_eq_true, if_false, Option.toList_some,
              List.length_singleton]
            omega

@[simp] theorem telemetryDropped_insertEvents (ts : ε → ℕ) (db : Counts ε) (events : List ε)
    (detailed : Bool) :
    (db.insertEvents ts events detailed).telemetryDropped = db.telemetryDropped := by
  have hfold : ∀ db : Counts ε,
      (events.foldl (Counts.upsertBucket ts) db).telemetryDropped = db.telemetryDropped := by
    induction events with
    | nil => exact fun _ => rfl
    | cons e events ih => exact fun db => ih (db.upsertBucket ts e)
  cases detailed
  · exact hfold db
  · exact hfold db

/-- After a cycle the writer has no batch. -/
theorem writer_cycleFailed :
    s.cycleFailed.writer.batch = [] ∧ s.cycleFailed.writer.flushed = 0 := by
  by_cases hfatal : writerMaxConsecutiveFailures ≤ s.writerConsecutiveFailures + 1
  · simp [CollectorState.cycleFailed, hfatal, WriterPhase.batch, WriterPhase.flushed]
  · simp [CollectorState.cycleFailed, hfatal, WriterPhase.batch, WriterPhase.flushed]

/-- What is held where the writer has another batch. -/
theorem held_of_writer (s' : CollectorState ε) (gone : Multiset ε)
    (hreceivers : s'.receivers = s.receivers) (hevents : s'.events = s.events)
    (hwritten : s'.written = s.written)
    (hbatch : (s.writer.batch : Multiset ε) = s'.writer.batch + gone) :
    s.held = s'.held + gone := by
  rw [CollectorState.held, CollectorState.held, hreceivers, hevents, hwritten, hbatch]
  abel

/-- The writer goes on with its batch. -/
theorem books_goesOn {phase : WriterPhase ε} {lossless : Prop}
    (hbatch : phase.batch = s.writer.batch) (hflushed : phase.flushed = s.writer.flushed)
    (h : lossless) : Books s { s with writer := phase } lossless := by
  refine books_same rfl ?_ ?_ rfl h
  · rw [CollectorState.held, CollectorState.held, ← hbatch]
  · rw [CollectorState.drops, CollectorState.drops, ← hflushed]

/-- A transaction is committed. -/
theorem books_committed {ts : ε → ℕ} {batch : List ε} {detailed cleanupRaises : Bool}
    {attempt value : ℕ} {t : CollectorState ε}
    (hw : s.writer = .writing batch detailed attempt (.committing value))
    (ht : t = { s with
      db := { s.db.insertEvents ts batch detailed with
        telemetryDropped := (s.db.insertEvents ts batch detailed).telemetryDropped + value }
      written := s.written ++ [(detailed, batch)] }) {lossless : Prop} (h : lossless) :
    Books s (if cleanupRaises then t.cycleFailed else t.cycleDone) lossless := by
  have hwriter : (if cleanupRaises then t.cycleFailed else t.cycleDone).writer.batch = [] ∧
      (if cleanupRaises then t.cycleFailed else t.cycleDone).writer.flushed = 0 := by
    cases cleanupRaises with
    | true => exact writer_cycleFailed
    | false => exact ⟨rfl, rfl⟩
  have hrest : ∀ u : CollectorState ε, u = (if cleanupRaises then t.cycleFailed
      else t.cycleDone) → u.db = t.db ∧ u.events = t.events ∧ u.dropped = t.dropped ∧
      u.receivers = t.receivers ∧ u.decoded = t.decoded ∧ u.undecodable = t.undecodable ∧
      u.written = t.written := by
    rintro u rfl
    cases cleanupRaises with
    | true => exact ⟨rfl, rfl, rfl, rfl, rfl, rfl, rfl⟩
    | false => exact ⟨rfl, rfl, rfl, rfl, rfl, rfl, rfl⟩
  obtain ⟨hdb, hevents, hdropped, hreceivers, hdecoded, hundecodable, hwritten⟩ := hrest _ rfl
  refine books_same (hdecoded.trans (by rw [ht])) ?_ ?_ (hundecodable.trans (by rw [ht])) h
  · rw [CollectorState.held, CollectorState.held, hreceivers, hevents, hwriter.1, hwritten, ht,
      hw]
    simp only [List.flatMap_append, List.flatMap_singleton, ← Multiset.coe_add,
      Multiset.coe_nil, add_zero]
    show _ = _ + (batch : Multiset ε) + _
    abel
  · rw [CollectorState.drops, CollectorState.drops, hdb, hwriter.2, hdropped, ht, hw]
    simp only [telemetryDropped_insertEvents]
    show _ = s.db.telemetryDropped + value + s.dropped
    omega

theorem books_writer {ts : ε → ℕ} {a : WriterAction} (h : WriterStep ts s s.writer a s') :
    Books s s' (s.writer.Lossless s.dropped a) := by
  generalize hw : s.writer = phase at h ⊢
  cases h with
  | @got batch events e hevents =>
      refine books_same rfl ?_ (by rw [CollectorState.drops, CollectorState.drops, hw]; rfl) rfl
        trivial
      show (s.receivers.map Receiver.hand).sum + (events : Multiset ε) +
        ((batch ++ [e] : List ε) : Multiset ε) + s.written.flatMap (·.2) = s.held
      rw [CollectorState.held, hw, hevents, ← Multiset.coe_add, Multiset.coe_singleton,
        ← Multiset.cons_coe, ← Multiset.singleton_add]
      show _ = _ + (batch : Multiset ε) + _
      abel
  | began => exact books_goesOn (hw ▸ rfl) (hw ▸ rfl) trivial
  | @died batch =>
      refine ⟨batch, ?_, ?_⟩
      · have hheld := held_of_writer (s := s) { s with writer := .ended } batch rfl rfl rfl
          (by rw [hw]; exact (zero_add _).symm)
        rw [hheld, add_assoc]
      · show s.db.telemetryDropped + 0 + s.dropped + s.undecodable =
          s.drops + s.undecodable + Multiset.card (batch : Multiset ε) ↔ batch = []
        rw [CollectorState.drops, hw, Multiset.coe_card, ← List.length_eq_zero_iff]
        show _ = s.db.telemetryDropped + 0 + s.dropped + s.undecodable + _ ↔ _
        omega
  | inserted => exact books_goesOn (hw ▸ rfl) (hw ▸ rfl) trivial
  | tested =>
      refine books_goesOn (hw ▸ rfl) ?_ trivial
      rw [hw]
      by_cases hzero : s.dropped = 0
      · simp [WriterPhase.flushed, WriteStage.flushed, hzero]
      · simp [WriterPhase.flushed, WriteStage.flushed, hzero]
  | read => exact books_goesOn (hw ▸ rfl) (hw ▸ rfl) trivial
  | upserted => exact books_goesOn (hw ▸ rfl) (hw ▸ rfl) trivial
  | @wasReset batch detailed attempt value =>
      refine ⟨0, ?_, ?_⟩
      · rw [add_zero]
        refine congrArg _ ?_
        rw [CollectorState.held, CollectorState.held, hw]
        rfl
      · show s.db.telemetryDropped + value + 0 + s.undecodable =
          s.drops + s.undecodable + Multiset.card (0 : Multiset ε) ↔ value = s.dropped
        rw [CollectorState.drops, hw, Multiset.card_zero]
        show _ = s.db.telemetryDropped + 0 + s.dropped + s.undecodable + 0 ↔ _
        omega
  | committed ht => exact books_committed hw ht trivial
  | @retried batch detailed locked attempt stage hstage hretry =>
      refine ⟨0, ?_, ?_⟩
      · rw [add_zero]
        refine congrArg _ ?_
        rw [CollectorState.held, CollectorState.held, hw]
        rfl
      · rw [WriterPhase.lossless_fail]
        show s.db.telemetryDropped + 0 + s.dropped + s.undecodable =
          s.drops + s.undecodable + Multiset.card (0 : Multiset ε) ↔ _
        rw [CollectorState.drops, hw, Multiset.card_zero, and_iff_left (Or.inl hretry)]
        show _ = s.db.telemetryDropped + stage.flushed + s.dropped + s.undecodable + 0 ↔ _
        omega
  | @gaveUp batch detailed locked attempt stage hstage hretry =>
      obtain ⟨hbatch, hflushed⟩ := writer_cycleFailed (s := s)
      refine ⟨batch, ?_, ?_⟩
      · have hheld := held_of_writer (s := s) s.cycleFailed batch rfl rfl rfl
          (by rw [hw, hbatch]; exact (zero_add _).symm)
        rw [hheld, add_assoc]
        rfl
      · rw [WriterPhase.lossless_fail]
        show s.db.telemetryDropped + s.cycleFailed.writer.flushed + s.dropped + s.undecodable =
          s.drops + s.undecodable + Multiset.card (batch : Multiset ε) ↔ _
        rw [CollectorState.drops, hw, hflushed, Multiset.coe_card, or_iff_right hretry,
          ← List.length_eq_zero_iff]
        show _ = s.db.telemetryDropped + stage.flushed + s.dropped + s.undecodable + _ ↔ _
        omega

/-- **What a step leaves of the messages, it has counted just when it is lossless.** -/
theorem ledger_step {ts : ε → ℕ} {a : CollectorAction ε} (h : collectorStep ts s a = some s') :
    Books s s' (s.Lossless a) := by
  cases a with
  | accept =>
      cases h
      refine books_same rfl ?_ rfl rfl trivial
      show ((s.receivers ++ [Receiver.reading]).map Receiver.hand).sum + s.events + s.writer.batch +
        s.written.flatMap (·.2) = s.held
      rw [List.map_append, List.sum_append]
      show _ + (0 + 0) + _ + _ + _ = _
      rw [add_zero, add_zero]
      rfl
  | receiver i a =>
      obtain ⟨receiver, hreceiver, h⟩ := Option.bind_eq_some_iff.mp h
      obtain ⟨lost, hheld, hiff⟩ := books_receiver hreceiver (receiverStep_cases h)
      refine ⟨lost, hheld, hiff.trans ⟨fun hlossless found hfound => ?_, fun hall => ?_⟩⟩
      · rw [hreceiver] at hfound
        rwa [← Option.some.inj hfound]
      · exact hall receiver hreceiver
  | writer a => exact books_writer (writerStep_cases h)

end Ledger

/-! ## Every message is accounted for -/

section Accounts

variable (ts : ε → ℕ)

/-- The collector starts with the tables as they are. -/
def collectorStart (db : Counts ε) : CollectorState ε where
  db := db
  events := []
  dropped := 0
  receivers := []
  writer := .gathering []
  writerConsecutiveFailures := 0
  decoded := []
  undecodable := 0
  written := []

/-- The tables count, and store, the events that are written, and nothing is held that was not
decoded. -/
structure Kept (db : Counts ε) (s : CollectorState ε) : Prop where
  held_le : s.held ≤ s.decoded
  buckets : ∀ start, s.db.totalQueries start = db.totalQueries start +
    (s.written.flatMap (·.2)).countP fun e => bucketStart (ts e) = start
  details : s.db.queryEvents = db.queryEvents ++ (s.written.filter (·.1)).flatMap (·.2)

/-- Every decoded message is in the hands of a thread, queued, or written, or it is counted as
dropped, once; and what is written is counted in its bucket, and stored where details are. -/
structure Accounted (db : Counts ε) (s : CollectorState ε) : Prop where
  messages : ∃ dropped : Multiset ε, (s.decoded : Multiset ε) = s.held + dropped ∧
    s.drops = db.telemetryDropped + dropped.card + s.undecodable
  buckets : ∀ start, s.db.totalQueries start = db.totalQueries start +
    (s.written.flatMap (·.2)).countP fun e => bucketStart (ts e) = start
  details : s.db.queryEvents = db.queryEvents ++ (s.written.filter (·.1)).flatMap (·.2)

variable {ts} {db : Counts ε} {s s' : CollectorState ε} {a : CollectorAction ε}

/-- Given what the tables say, the numbers decide. -/
theorem Kept.accounted_iff (h : Kept ts db s) : Accounted ts db s ↔
    s.drops + s.held.card = db.telemetryDropped + s.decoded.length + s.undecodable := by
  obtain ⟨dropped, hdropped⟩ := Multiset.le_iff_exists_add.mp h.held_le
  have hcard := congrArg Multiset.card hdropped
  rw [Multiset.coe_card, Multiset.card_add] at hcard
  constructor
  · rintro ⟨⟨dropped', hheld, hdrops⟩, -, -⟩
    have hcard' := congrArg Multiset.card hheld
    rw [Multiset.coe_card, Multiset.card_add] at hcard'
    omega
  · intro hnumbers
    exact ⟨⟨dropped, hdropped, by omega⟩, h.buckets, h.details⟩

theorem totalQueries_insertEvents (ts : ε → ℕ) (db : Counts ε) (events : List ε) (detailed : Bool)
    (start : ℕ) :
    (db.insertEvents ts events detailed).totalQueries start =
      db.totalQueries start + events.countP fun e => bucketStart (ts e) = start := by
  have hfold : ∀ db : Counts ε, (events.foldl (Counts.upsertBucket ts) db).totalQueries start =
      db.totalQueries start + events.countP fun e => bucketStart (ts e) = start := by
    induction events with
    | nil => exact fun _ => rfl
    | cons e events ih =>
        intro db
        rw [List.foldl_cons, ih, List.countP_cons]
        by_cases hstart : bucketStart (ts e) = start
        · simp [Counts.upsertBucket, hstart]
          omega
        · simp [Counts.upsertBucket, hstart, Function.update_of_ne (Ne.symm hstart)]
  cases detailed
  · exact hfold db
  · exact hfold db

theorem queryEvents_insertEvents (db : Counts ε) (events : List ε) (detailed : Bool) :
    (db.insertEvents ts events detailed).queryEvents =
      db.queryEvents ++ if detailed then events else [] := by
  have hfold : ∀ db : Counts ε,
      (events.foldl (Counts.upsertBucket ts) db).queryEvents = db.queryEvents := by
    induction events with
    | nil => exact fun _ => rfl
    | cons e events ih => exact fun db => ih (db.upsertBucket ts e)
  cases detailed with
  | false => exact (hfold db).trans (List.append_nil _).symm
  | true => exact congrArg (· ++ events) (hfold db)

/-- Only a commit changes the tables. -/
theorem tables_step (h : collectorStep ts s a = some s') :
    (s'.db = s.db ∧ s'.written = s.written) ∨
    ∃ batch detailed value,
      s'.db = { s.db.insertEvents ts batch detailed with
        telemetryDropped := (s.db.insertEvents ts batch detailed).telemetryDropped + value } ∧
      s'.written = s.written ++ [(detailed, batch)] := by
  cases a with
  | accept =>
      cases h
      exact .inl ⟨rfl, rfl⟩
  | receiver i a =>
      obtain ⟨receiver, hreceiver, h⟩ := Option.bind_eq_some_iff.mp h
      cases receiverStep_cases h <;> exact .inl ⟨rfl, rfl⟩
  | writer a =>
      have hstep := writerStep_cases h
      generalize s.writer = phase at hstep
      cases hstep with
      | @committed batch detailed cleanupRaises attempt value t ht =>
          refine .inr ⟨batch, detailed, value, ?_⟩
          subst ht
          cases cleanupRaises <;> exact ⟨rfl, rfl⟩
      | _ => exact .inl ⟨rfl, rfl⟩

theorem kept_collectorStart (db : Counts ε) : Kept ts db (collectorStart db) where
  held_le := le_refl 0
  buckets _ := rfl
  details := (List.append_nil _).symm

theorem Kept.step (h : Kept ts db s) (hstep : collectorStep ts s a = some s') :
    Kept ts db s' := by
  obtain ⟨lost, hheld, -⟩ := ledger_step hstep
  have hle : s'.held ≤ s'.decoded := by
    obtain ⟨rest, hrest⟩ := Multiset.le_iff_exists_add.mp h.held_le
    refine Multiset.le_iff_exists_add.mpr ⟨rest + lost, ?_⟩
    refine add_right_cancel (b := s.held) ?_
    rw [hheld, hrest]
    abel
  rcases tables_step hstep with ⟨hdb, hwritten⟩ | ⟨batch, detailed, value, hdb, hwritten⟩
  · refine ⟨hle, ?_, ?_⟩
    · rw [hdb, hwritten]
      exact h.buckets
    · rw [hdb, hwritten]
      exact h.details
  · refine ⟨hle, fun start => ?_, ?_⟩
    · have hinsert := totalQueries_insertEvents ts s.db batch detailed start
      rw [hdb, hwritten, List.flatMap_append, List.countP_append, List.flatMap_singleton]
      show (s.db.insertEvents ts batch detailed).totalQueries start = _
      rw [hinsert, h.buckets start, add_assoc]
    · rw [hdb, hwritten, List.filter_append, List.flatMap_append]
      show (s.db.insertEvents ts batch detailed).queryEvents = _
      rw [queryEvents_insertEvents, h.details, List.append_assoc]
      cases detailed with
      | false => rfl
      | true => simp

/-- **A step keeps the accounts just when it is lossless.** -/
theorem accounted_step_iff (h : Kept ts db s) (haccounted : Accounted ts db s)
    (hstep : collectorStep ts s a = some s') : Accounted ts db s' ↔ s.Lossless a := by
  obtain ⟨lost, hheld, hiff⟩ := ledger_step hstep
  have hcard := congrArg Multiset.card hheld
  simp only [Multiset.card_add, Multiset.coe_card] at hcard
  have hbefore := h.accounted_iff.mp haccounted
  rw [(h.step hstep).accounted_iff, ← hiff]
  omega

/-- Every decoded message is accounted for exactly once in every state of a run, exactly when all
steps of the run are lossless. -/
theorem accounted_iff_lossless (ts : ε → ℕ) (db : Counts ε) (actions : List (CollectorAction ε))
    {s : CollectorState ε}
    (hrun : Runs.run (collectorStep ts) (collectorStart db) actions = some s) :
    Runs.StepsMeet (collectorStep ts) CollectorState.Lossless (collectorStart db) actions ↔
      ∀ before t, before <+: actions →
        Runs.run (collectorStep ts) (collectorStart db) before = some t → Accounted ts db t := by
  have hkeep : ∀ (s : CollectorState ε) (a : CollectorAction ε) (s' : CollectorState ε),
      Kept ts db s → True → collectorStep ts s a = some s' → Kept ts db s' :=
    fun _ _ _ h _ hstep => h.step hstep
  refine Runs.stepsMeet_iff_forall_reached hkeep
    (fun _ _ _ h haccounted _ hstep => accounted_step_iff h haccounted hstep) actions _ s
    (kept_collectorStart db) ?_ (fun _ _ => trivial) hrun
  exact (kept_collectorStart db).accounted_iff.mpr rfl

end Accounts

/-! ### A batch that is lost

One message is received, queued and taken; then the settings are read, and `connect` raises. -/

/-- Tables without rows. -/
def emptyCounts : Counts ℕ := ⟨fun _ => 0, 0, []⟩

theorem lost_batch : ∃ s, Runs.run (collectorStep id) (collectorStart emptyCounts)
    [.accept, .receiver 0 (.receive [some [7]]), .receiver 0 .decode, .receiver 0 .enqueue,
      .writer .get, .writer (.settings true), .writer (.fail false)] = some s ∧
    ¬Accounted id emptyCounts s := by
  refine ⟨_, rfl, fun h => ?_⟩
  obtain ⟨dropped, hheld, hdrops⟩ := h.messages
  have hcard := congrArg Multiset.card hheld
  have hnone : dropped.card = 0 := by
    have hdrops : 0 = 0 + dropped.card + 0 := hdrops
    omega
  rw [Multiset.card_add, hnone] at hcard
  exact absurd hcard (by decide)

theorem accounted_iff_lossless_stored :
    ∃ s, Runs.run (collectorStep id) (collectorStart emptyCounts)
      [.accept, .receiver 0 (.receive [some [7]]), .receiver 0 .decode, .receiver 0 .enqueue,
        .writer .get, .writer (.settings true), .writer .insert, .writer .test,
        .writer (.commit false)] = some s ∧ Accounted id emptyCounts s := by
  refine ⟨_, rfl, (accounted_iff_lossless id emptyCounts
    [.accept, .receiver 0 (.receive [some [7]]), .receiver 0 .decode, .receiver 0 .enqueue,
      .writer .get, .writer (.settings true), .writer .insert, .writer .test,
      .writer (.commit false)] rfl).mp ?_ _ _ (List.prefix_refl _) rfl⟩
  refine Runs.stepsMeet_of_forall fun a ha s => lossless_of_quiet ?_
  simp only [List.mem_cons, List.not_mem_nil, or_false] at ha
  rcases ha with rfl | rfl | rfl | rfl | rfl | rfl | rfl | rfl | rfl <;> rfl

end AlderpointDNS.Analytics
