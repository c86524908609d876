import AlderpointDNS.Lib.Runs
import Mathlib.Data.List.Basic

/-!
# The promotion and other writers

`restore_backup` takes an exclusive lock on the live database, copies the tables that it has not
merged into the working copy once more, renames the working copy over the live file, removes the
`-wal` file of the path and lets go of the lock.  The lock is on the file, not on the path: a
connection that was opened before the rename gets to work on the replaced file once the lock is
gone, and one that is opened after the rename does not wait at all.

A connection is bound to the file it opened, and to its WAL from its first access on; it then holds
the file until it is closed, and the last one to close moves its WAL into the file.

* `promotionStep` — one step of the restore or of another process;
* `rowsFound_step` — which steps keep every reported row;
* **`rowsFound_iff`** — the interleavings in which no reported row is lost.
* `row_lost_on_replaced_file` — a writer that waits for the lock.

Not modelled: deletions (a row that another process deletes is no longer asked for), busy timeouts
(a writer that gives up closes its connection), and what two WALs of one file do to its pages.
-/

namespace AlderpointDNS.Backup

open Runs

/-! ## Files and connections -/

/-- The two files that may be at the live path. -/
inductive DbFileId where
  | original
  | workingCopy
  deriving DecidableEq

variable {Tbl Row : Type}

/-- Tables, and rows of tables. -/
structure Content (Tbl Row : Type) where
  tables : List Tbl
  rows : List (Tbl × Row)

def Content.empty : Content Tbl Row := ⟨[], []⟩

/-- More tables and rows. -/
def Content.add (c new : Content Tbl Row) : Content Tbl Row :=
  ⟨c.tables ++ new.tables, c.rows ++ new.rows⟩

@[simp] theorem add_rows (c new : Content Tbl Row) : (c.add new).rows = c.rows ++ new.rows := rfl

@[simp] theorem empty_rows : (Content.empty : Content Tbl Row).rows = [] := rfl

theorem add_empty (c : Content Tbl Row) : c.add .empty = c := by
  simp [Content.add, Content.empty]

/-- A database: its main file, the WAL next to it, and a WAL that has been unlinked but is still
open. -/
structure DbFile (Tbl Row : Type) where
  main : Content Tbl Row
  wal : Content Tbl Row
  unlinkedWal : Content Tbl Row

/-- What a new connection finds. -/
def DbFile.found (f : DbFile Tbl Row) : Content Tbl Row := f.main.add f.wal

/-- What a connection finds that works with the unlinked WAL, or not. -/
def DbFile.seen (f : DbFile Tbl Row) (unlinked : Bool) : Content Tbl Row :=
  if unlinked then f.main.add f.unlinkedWal else f.found

@[simp] theorem seen_false (f : DbFile Tbl Row) : f.seen false = f.found := rfl

/-- A commit. -/
def DbFile.commit (f : DbFile Tbl Row) (unlinked : Bool) (new : Content Tbl Row) :
    DbFile Tbl Row :=
  if unlinked then { f with unlinkedWal := f.unlinkedWal.add new }
  else { f with wal := f.wal.add new }

/-- A checkpoint. -/
def DbFile.checkpoint (f : DbFile Tbl Row) (unlinked : Bool) : DbFile Tbl Row :=
  if unlinked then { f with main := f.main.add f.unlinkedWal, unlinkedWal := .empty }
  else { f with main := f.found, wal := .empty }

inductive Connection where
  | closed
  /-- opened, and still without an access, perhaps waiting for the lock -/
  | opened (file : DbFileId)
  | active (file : DbFileId) (unlinked : Bool)
  deriving DecidableEq

def Connection.isActiveOn (file : DbFileId) : Connection → Bool
  | .active f _ => f = file
  | _ => false

/-- Where the restore is. -/
inductive PromotionPhase where
  | preparing
  | locked
  | resynced
  | replaced
  | sidecarsRemoved
  | released
  deriving DecidableEq

def PromotionPhase.holdsLock : PromotionPhase → Bool
  | .locked | .resynced | .replaced | .sidecarsRemoved => true
  | .preparing | .released => false

structure PromotionState (Tbl Row : Type) where
  original : DbFile Tbl Row
  workingCopy : DbFile Tbl Row
  /-- the file at the live path -/
  live : DbFileId
  /-- the working copy, before it is at the live path -/
  working : Option (Content Tbl Row)
  phase : PromotionPhase
  connections : List Connection
  /-- the rows that were there at the start, or that another process has committed -/
  reported : List (Tbl × Row)

def PromotionState.file (s : PromotionState Tbl Row) : DbFileId → DbFile Tbl Row
  | .original => s.original
  | .workingCopy => s.workingCopy

def PromotionState.setFile (s : PromotionState Tbl Row) (id : DbFileId) (f : DbFile Tbl Row) :
    PromotionState Tbl Row :=
  match id with
  | .original => { s with original := f }
  | .workingCopy => { s with workingCopy := f }

/-- What is found at the live path. -/
def PromotionState.found (s : PromotionState Tbl Row) : Content Tbl Row := (s.file s.live).found

def PromotionState.setConnection (s : PromotionState Tbl Row) (c : ℕ) (connection : Connection) :
    PromotionState Tbl Row :=
  { s with connections := s.connections.set c connection }

/-- A connection other than `c` works on the file. -/
def PromotionState.isUsed (s : PromotionState Tbl Row) (c : ℕ) (id : DbFileId) : Bool :=
  (s.connections.set c .closed).any (·.isActiveOn id)

inductive PromotionAction (Tbl Row : Type) where
  /-- another process opens the path -/
  | connect
  /-- its first access -/
  | access (c : ℕ)
  /-- it commits new tables and rows, and reports it -/
  | commit (c : ℕ) (new : Content Tbl Row)
  | close (c : ℕ)
  /-- `_create_working_db` -/
  | createWorkingDb
  /-- `_merge_database` has exchanged the rows of the merged tables -/
  | merge (rows : List (Tbl × Row))
  /-- `_acquire_exclusive_live_lock` -/
  | acquireLock
  /-- `_resync_live_state_into_working` -/
  | resync
  /-- the checkpoints and the rename -/
  | replace
  /-- the `-wal` file is unlinked -/
  | removeSidecars
  /-- the lock is closed, after whatever step -/
  | releaseLock

section Step

variable [DecidableEq Tbl] (merged : List Tbl)

/-- `(live_tables - merged) & working_tables` -/
def isResynced (live working : Content Tbl Row) (t : Tbl) : Bool :=
  live.tables.contains t && !merged.contains t && working.tables.contains t

/-- `_resync_live_state_into_working` -/
def resyncContent (live working : Content Tbl Row) : Content Tbl Row :=
  { working with
    rows := working.rows.filter (fun row => !isResynced merged live working row.1)
      ++ live.rows.filter (fun row => isResynced merged live working row.1) }

/-- One step. -/
def promotionStep (s : PromotionState Tbl Row) :
    PromotionAction Tbl Row → Option (PromotionState Tbl Row)
  | .connect => some { s with connections := s.connections ++ [.opened s.live] }
  | .access c =>
      match s.connections[c]? with
      | some (.opened id) =>
          if s.phase.holdsLock && id = .original then none
          else some (s.setConnection c (.active id false))
      | _ => none
  | .commit c new =>
      match s.connections[c]? with
      | some (.active id unlinked) =>
          if new.rows.all fun row =>
              (((s.file id).seen unlinked).tables ++ new.tables).contains row.1 then
            some { s.setFile id ((s.file id).commit unlinked new) with
              reported := s.reported ++ new.rows }
          else none
      | _ => none
  | .close c =>
      match s.connections[c]? with
      | some (.opened _) => some (s.setConnection c .closed)
      | some (.active id unlinked) =>
          if s.isUsed c id then some (s.setConnection c .closed)
          else some ((s.setConnection c .closed).setFile id ((s.file id).checkpoint unlinked))
      | _ => none
  | .createWorkingDb =>
      if s.phase = .preparing then some { s with working := some s.found } else none
  | .merge rows =>
      match s.phase, s.working with
      | .preparing, some w =>
          if rows.all fun row => merged.contains row.1 && w.tables.contains row.1 then
            let kept := w.rows.filter fun row => !merged.contains row.1
            some { s with working := some { w with rows := kept ++ rows } }
          else none
      | _, _ => none
  | .acquireLock =>
      if s.phase = .preparing && !s.connections.any (·.isActiveOn .original) then
        some { s with phase := .locked }
      else none
  | .resync =>
      match s.phase, s.working with
      | .locked, some w =>
          some { s with working := some (resyncContent merged s.found w), phase := .resynced }
      | _, _ => none
  | .replace =>
      match s.phase, s.working with
      | .resynced, some w =>
          some { s with
            original := s.original.checkpoint false
            workingCopy := ⟨w, .empty, .empty⟩
            live := .workingCopy
            working := none
            phase := .replaced }
      | _, _ => none
  | .removeSidecars =>
      if s.phase = .replaced then
        some { s with
          workingCopy := { s.workingCopy with wal := .empty, unlinkedWal := s.workingCopy.wal }
          connections := s.connections.map fun
            | .active .workingCopy _ => .active .workingCopy true
            | connection => connection
          phase := .sidecarsRemoved }
      else none
  | .releaseLock => some { s with phase := .released }

/-- The live database with nobody else at it. -/
def beforePromotion (content : Content Tbl Row) : PromotionState Tbl Row where
  original := ⟨content, .empty, .empty⟩
  workingCopy := ⟨.empty, .empty, .empty⟩
  live := .original
  working := none
  phase := .preparing
  connections := []
  reported := content.rows

/-- The reported rows of the tables that are not merged are found at the live path. -/
def RowsFound (s : PromotionState Tbl Row) : Prop :=
  ∀ row ∈ s.reported, row.1 ∉ merged → row ∈ s.found.rows

/-- A step that loses no reported row. -/
def KeepsRows (s : PromotionState Tbl Row) : PromotionAction Tbl Row → Prop
  -- what a connection to the replaced file, or with the unlinked WAL, commits
  | .commit c new => ∀ id unlinked, s.connections[c]? = some (.active id unlinked) →
      (id ≠ s.live ∨ unlinked = true) → ∀ row ∈ new.rows, row.1 ∉ merged → row ∈ s.found.rows
  -- the tables that the working copy does not have
  | .replace => ∀ w, s.working = some w → ∀ row ∈ s.reported, row.1 ∉ merged → row.1 ∈ w.tables
  -- what is in the WAL only
  | .removeSidecars => ∀ row ∈ (s.file s.live).wal.rows, row.1 ∉ merged →
      row ∈ (s.file s.live).main.rows
  | _ => True

end Step

/-! ## What holds in every state -/

section Invariant

variable (merged : List Tbl)

/-- The connection is to this file. -/
def Connection.isOn (file : DbFileId) : Connection → Bool
  | .closed => false
  | .opened f | .active f _ => f = file

/-- Before the rename. -/
def PromotionPhase.isBefore : PromotionPhase → Bool
  | .preparing | .locked | .resynced => true
  | .replaced | .sidecarsRemoved | .released => false

/-- Nobody else works on the live file. -/
def PromotionPhase.isQuiet : PromotionPhase → Bool
  | .locked | .resynced => true
  | .preparing | .replaced | .sidecarsRemoved | .released => false

/-- The tables of the rows exist. -/
def Content.Legal (c : Content Tbl Row) : Prop := ∀ row ∈ c.rows, row.1 ∈ c.tables

structure PromotionInv (s : PromotionState Tbl Row) : Prop where
  before : s.phase.isBefore = true → s.live = .original
  replaced : s.phase = .replaced → s.live = .workingCopy
  unused : s.live = .original → ∀ k ∈ s.connections, k.isOn .workingCopy = false
  linked : ∀ k ∈ s.connections, k ≠ .active .original true
  quiet : s.phase.isQuiet = true → ∀ k ∈ s.connections, k.isActiveOn .original = false
  legal : s.live = .original → s.original.found.Legal
  workingLegal : ∀ w, s.working = some w → w.Legal
  resynced : s.phase = .resynced → ∀ w, s.working = some w → ∀ row ∈ s.original.found.rows,
    row.1 ∉ merged → row.1 ∈ w.tables → row ∈ w.rows
  walReported : ∀ row ∈ s.workingCopy.wal.rows, row ∈ s.reported

variable {merged}

theorem promotionInv_beforePromotion {content : Content Tbl Row} (h : content.Legal) :
    PromotionInv merged (beforePromotion content) where
  before _ := rfl
  replaced hphase := by cases hphase
  unused _ k hk := (List.not_mem_nil hk).elim
  linked k hk := (List.not_mem_nil hk).elim
  quiet hquiet := by cases hquiet
  legal _ := by
    show (content.add .empty).Legal
    rw [add_empty]
    exact h
  workingLegal w hw := by cases hw
  resynced hphase := by cases hphase
  walReported row hrow := (List.not_mem_nil hrow).elim

/-- A connection that may be there. -/
structure ConnectionFits (s : PromotionState Tbl Row) (k : Connection) : Prop where
  unused : s.live = .original → k.isOn .workingCopy = false
  linked : k ≠ .active .original true
  quiet : s.phase.isQuiet = true → k.isActiveOn .original = false

/-- Connections are exchanged, or added. -/
theorem PromotionInv.withConnections {s : PromotionState Tbl Row} (h : PromotionInv merged s)
    {connections : List Connection}
    (hnew : ∀ k ∈ connections, k ∈ s.connections ∨ ConnectionFits s k) :
    PromotionInv merged { s with connections := connections } := by
  refine { h with
    unused := fun hlive k hk => ?_
    linked := fun k hk => ?_
    quiet := fun hquiet k hk => ?_ }
  · rcases hnew k hk with hk | hk
    · exact h.unused hlive k hk
    · exact hk.unused hlive
  · rcases hnew k hk with hk | hk
    · exact h.linked k hk
    · exact hk.linked
  · rcases hnew k hk with hk | hk
    · exact h.quiet hquiet k hk
    · exact hk.quiet hquiet

theorem PromotionInv.setConnection {s : PromotionState Tbl Row} (h : PromotionInv merged s)
    {c : ℕ} {k : Connection} (hk : ConnectionFits s k) :
    PromotionInv merged (s.setConnection c k) := by
  refine h.withConnections fun k' hk' => ?_
  rcases List.mem_or_eq_of_mem_set hk' with hk' | rfl
  · exact Or.inl hk'
  · exact Or.inr hk

/-- Nobody works on a quiet file. -/
theorem PromotionInv.not_active {s : PromotionState Tbl Row} (h : PromotionInv merged s) {c : ℕ}
    {id : DbFileId} {unlinked : Bool} (hc : s.connections[c]? = some (.active id unlinked)) :
    s.phase.isQuiet = false ∧ (s.live = .original → id = .original) ∧
      (id = .original → unlinked = false) := by
  have hmem := List.mem_of_getElem? hc
  have hid : s.live = .original → id = .original := by
    intro hlive
    have hunused := h.unused hlive _ hmem
    cases id with
    | original => rfl
    | workingCopy => simp [Connection.isOn] at hunused
  refine ⟨?_, hid, ?_⟩
  swap
  · rintro rfl
    cases unlinked with
    | false => rfl
    | true => exact absurd rfl (h.linked _ hmem)
  by_contra hquiet
  rw [Bool.not_eq_false] at hquiet
  have hbefore : s.phase.isBefore = true := by
    revert hquiet
    cases s.phase <;> simp [PromotionPhase.isQuiet, PromotionPhase.isBefore]
  have hactive := h.quiet hquiet _ hmem
  rw [hid (h.before hbefore)] at hactive
  simp [Connection.isActiveOn] at hactive

theorem found_checkpoint (f : DbFile Tbl Row) : (f.checkpoint false).found = f.found :=
  add_empty f.found

theorem mem_found_checkpoint {f : DbFile Tbl Row} {row : Tbl × Row} (unlinked : Bool)
    (h : row ∈ f.found.rows) : row ∈ (f.checkpoint unlinked).found.rows := by
  cases unlinked with
  | false =>
      rw [found_checkpoint]
      exact h
  | true =>
      simp only [DbFile.found, add_rows, List.mem_append] at h
      simp only [DbFile.checkpoint, if_true, DbFile.found, add_rows, List.mem_append]
      tauto

/-- A commit to the original file is a commit to a database whose tables are there. -/
theorem legal_commit {f : DbFile Tbl Row} {new : Content Tbl Row} (h : f.found.Legal)
    (hnew : ∀ row ∈ new.rows, row.1 ∈ f.found.tables ++ new.tables) :
    (f.commit false new).found.Legal := by
  intro row hrow
  have hfound : (f.commit false new).found = f.found.add new := by
    simp [DbFile.commit, DbFile.found, Content.add]
  rw [hfound] at hrow ⊢
  rcases List.mem_append.mp hrow with hrow | hrow
  · exact List.mem_append_left _ (h row hrow)
  · exact hnew row hrow

/-- The file of an active connection is exchanged for one with more rows. -/
theorem PromotionInv.setFile {s : PromotionState Tbl Row} (h : PromotionInv merged s) {c : ℕ}
    {id : DbFileId} {unlinked : Bool} (hc : s.connections[c]? = some (.active id unlinked))
    {f : DbFile Tbl Row} {reported : List (Tbl × Row)}
    (hlegal : id = .original → s.original.found.Legal → f.found.Legal)
    (hreported : ∀ row ∈ s.reported, row ∈ reported)
    (hwal : id = .workingCopy → ∀ row ∈ f.wal.rows, row ∈ s.workingCopy.wal.rows ∨ row ∈ reported) :
    PromotionInv merged { s.setFile id f with reported := reported } := by
  obtain ⟨hquiet, hid, -⟩ := h.not_active hc
  have hphase : s.phase ≠ .resynced := by
    intro heq
    rw [heq] at hquiet
    cases hquiet
  cases id with
  | original =>
      refine { h with
        legal := fun hlive => hlegal rfl (h.legal hlive)
        resynced := fun heq => absurd heq hphase
        walReported := fun row hrow => hreported row (h.walReported row hrow) }
  | workingCopy =>
      refine { h with
        walReported := fun row hrow => ?_ }
      rcases hwal rfl row hrow with hrow | hrow
      · exact hreported row (h.walReported row hrow)
      · exact hrow

theorem checkpoint_legal {f : DbFile Tbl Row} (h : f.found.Legal) :
    (f.checkpoint false).found.Legal := by
  rw [found_checkpoint]
  exact h

theorem wal_checkpoint {f : DbFile Tbl Row} {unlinked : Bool} {row : Tbl × Row}
    (h : row ∈ (f.checkpoint unlinked).wal.rows) : row ∈ f.wal.rows := by
  cases unlinked with
  | false => exact (List.not_mem_nil h).elim
  | true => exact h

theorem wal_commit {f : DbFile Tbl Row} {unlinked : Bool} {new : Content Tbl Row}
    {row : Tbl × Row} (h : row ∈ (f.commit unlinked new).wal.rows) :
    row ∈ f.wal.rows ∨ row ∈ new.rows := by
  cases unlinked with
  | false => exact List.mem_append.mp h
  | true => exact Or.inl h

theorem found_setFile_self (s : PromotionState Tbl Row) (f : DbFile Tbl Row) :
    (s.setFile s.live f).found = f.found := by
  unfold PromotionState.found PromotionState.setFile
  cases hlive : s.live <;> simp [PromotionState.file]

theorem found_setFile_of_ne (s : PromotionState Tbl Row) {id : DbFileId} (h : id ≠ s.live)
    (f : DbFile Tbl Row) : (s.setFile id f).found = s.found := by
  unfold PromotionState.found PromotionState.setFile
  cases id <;> cases hlive : s.live <;>
    first | exact absurd hlive.symm h | simp [PromotionState.file]

theorem RowsFound.mono {s s' : PromotionState Tbl Row} (h : RowsFound merged s)
    (hreported : s'.reported = s.reported) (hfound : ∀ row ∈ s.found.rows, row ∈ s'.found.rows) :
    RowsFound merged s' := by
  intro row hrow hmerged
  rw [hreported] at hrow
  exact hfound row (h row hrow hmerged)

variable [DecidableEq Tbl]

theorem promotionInv_connect {s s' : PromotionState Tbl Row}
    (h : PromotionInv merged s) (hstep : promotionStep merged s .connect = some s') :
    PromotionInv merged s' := by
  cases hstep
  refine h.withConnections fun k hk => ?_
  rcases List.mem_append.mp hk with hk | hk
  · exact Or.inl hk
  · rw [List.mem_singleton.mp hk]
    refine Or.inr ⟨fun hlive => ?_, by simp, fun _ => rfl⟩
    simp [Connection.isOn, hlive]

theorem promotionInv_access {s s' : PromotionState Tbl Row} {c : ℕ}
    (h : PromotionInv merged s) (hstep : promotionStep merged s (.access c) = some s') :
    PromotionInv merged s' := by
  simp only [promotionStep] at hstep
  split at hstep
  · rename_i id hc
    split_ifs at hstep with hlocked
    cases hstep
    have hmem := List.mem_of_getElem? hc
    refine h.setConnection ⟨fun hlive => ?_, by simp, fun hquiet => ?_⟩
    · have hunused := h.unused hlive _ hmem
      exact hunused
    · have hlock : s.phase.holdsLock = true := by
        revert hquiet
        cases s.phase <;> simp [PromotionPhase.isQuiet, PromotionPhase.holdsLock]
      simpa [hlock, Connection.isActiveOn] using hlocked
  · cases hstep

theorem promotionInv_commit {s s' : PromotionState Tbl Row} {c : ℕ} {new : Content Tbl Row}
    (h : PromotionInv merged s) (hstep : promotionStep merged s (.commit c new) = some s') :
    PromotionInv merged s' := by
  simp only [promotionStep] at hstep
  split at hstep
  · rename_i id unlinked hc
    split_ifs at hstep with hnew
    cases hstep
    refine h.setFile hc ?_ (fun row hrow => List.mem_append_left _ hrow) ?_
    · rintro rfl hlegal
      obtain rfl := (h.not_active hc).2.2 rfl
      refine legal_commit hlegal fun row hrow => ?_
      simpa using List.all_eq_true.mp hnew row hrow
    · rintro rfl row hrow
      rcases wal_commit hrow with hrow | hrow
      · exact Or.inl hrow
      · exact Or.inr (List.mem_append_right _ hrow)
  · cases hstep

theorem promotionInv_close {s s' : PromotionState Tbl Row} {c : ℕ}
    (h : PromotionInv merged s) (hstep : promotionStep merged s (.close c) = some s') :
    PromotionInv merged s' := by
  have hclosed : ConnectionFits s .closed := ⟨fun _ => rfl, by simp, fun _ => rfl⟩
  simp only [promotionStep] at hstep
  split at hstep
  · cases hstep
    exact h.setConnection hclosed
  · rename_i id unlinked hc
    split_ifs at hstep with hused
    · cases hstep
      exact h.setConnection hclosed
    · cases hstep
      have hinv : PromotionInv merged
          { s.setFile id ((s.file id).checkpoint unlinked) with reported := s.reported } := by
        refine h.setFile hc ?_ (fun _ hrow => hrow) ?_
        · rintro rfl hlegal
          obtain rfl := (h.not_active hc).2.2 rfl
          exact checkpoint_legal hlegal
        · rintro rfl row hrow
          exact Or.inl (wal_checkpoint hrow)
      cases id with
      | original => exact hinv.setConnection (c := c) ⟨fun _ => rfl, by simp, fun _ => rfl⟩
      | workingCopy => exact hinv.setConnection (c := c) ⟨fun _ => rfl, by simp, fun _ => rfl⟩
  · cases hstep

theorem promotionInv_createWorkingDb {s s' : PromotionState Tbl Row}
    (h : PromotionInv merged s) (hstep : promotionStep merged s .createWorkingDb = some s') :
    PromotionInv merged s' := by
  simp only [promotionStep] at hstep
  split_ifs at hstep with hphase
  cases hstep
  have hlive := h.before (by rw [hphase]; rfl)
  refine { h with
    workingLegal := fun w hw => ?_
    resynced := fun heq => absurd (hphase.symm.trans heq) (by decide) }
  cases hw
  have hlegal := h.legal hlive
  rw [PromotionState.found, hlive]
  exact hlegal

theorem promotionInv_merge {s s' : PromotionState Tbl Row} {rows : List (Tbl × Row)}
    (h : PromotionInv merged s) (hstep : promotionStep merged s (.merge rows) = some s') :
    PromotionInv merged s' := by
  simp only [promotionStep] at hstep
  split at hstep
  · rename_i w hphase hw
    split_ifs at hstep with hrows
    cases hstep
    refine { h with
      workingLegal := fun w' hw' => ?_
      resynced := fun heq => absurd (hphase.symm.trans heq) (by decide) }
    cases hw'
    intro row hrow
    rcases List.mem_append.mp hrow with hrow | hrow
    · exact h.workingLegal w hw row (List.mem_of_mem_filter hrow)
    · have hrow := List.all_eq_true.mp hrows row hrow
      simp only [Bool.and_eq_true, List.contains_iff_mem] at hrow
      exact hrow.2
  · cases hstep

theorem promotionInv_acquireLock {s s' : PromotionState Tbl Row}
    (h : PromotionInv merged s) (hstep : promotionStep merged s .acquireLock = some s') :
    PromotionInv merged s' := by
  simp only [promotionStep] at hstep
  split_ifs at hstep with hphase
  cases hstep
  simp only [Bool.and_eq_true, decide_eq_true_eq, Bool.not_eq_true', List.any_eq_false] at hphase
  refine { h with
    before := fun _ => h.before (by rw [hphase.1]; rfl)
    replaced := fun heq => by cases heq
    quiet := fun _ k hk => by simpa using hphase.2 k hk
    resynced := fun heq => by cases heq }

theorem promotionInv_resync {s s' : PromotionState Tbl Row}
    (h : PromotionInv merged s) (hstep : promotionStep merged s .resync = some s') :
    PromotionInv merged s' := by
  simp only [promotionStep] at hstep
  split at hstep
  · rename_i w hphase hw
    cases hstep
    have hlive := h.before (by rw [hphase]; rfl)
    have hlegal := h.legal hlive
    have hfound : s.found = s.original.found := by rw [PromotionState.found, hlive]; rfl
    refine { h with
      before := fun _ => hlive
      replaced := fun heq => by cases heq
      quiet := fun _ => h.quiet (by rw [hphase]; rfl)
      workingLegal := fun w' hw' => ?_
      resynced := fun _ w' hw' row hrow hmerged htable => ?_ }
    · cases hw'
      intro row hrow
      rcases List.mem_append.mp hrow with hrow | hrow
      · exact h.workingLegal w hw row (List.mem_of_mem_filter hrow)
      · have hrow := List.of_mem_filter hrow
        simp only [isResynced, Bool.and_eq_true, List.contains_iff_mem] at hrow
        exact hrow.2
    · cases hw'
      refine List.mem_append_right _ (List.mem_filter.mpr ⟨hfound ▸ hrow, ?_⟩)
      have htable' : row.1 ∈ w.tables := htable
      simp [isResynced, hfound, hlegal row hrow, hmerged, htable']
  · cases hstep

theorem promotionInv_replace {s s' : PromotionState Tbl Row}
    (h : PromotionInv merged s) (hstep : promotionStep merged s .replace = some s') :
    PromotionInv merged s' := by
  simp only [promotionStep] at hstep
  split at hstep
  · rename_i w hphase hw
    cases hstep
    exact
      { before := fun hbefore => by cases hbefore
        replaced := fun _ => rfl
        unused := fun hlive => by cases hlive
        linked := h.linked
        quiet := fun hquiet => by cases hquiet
        legal := fun hlive => by cases hlive
        workingLegal := fun w' hw' => by cases hw'
        resynced := fun heq => by cases heq
        walReported := fun row hrow => (List.not_mem_nil hrow).elim }
  · cases hstep

theorem promotionInv_removeSidecars {s s' : PromotionState Tbl Row}
    (h : PromotionInv merged s) (hstep : promotionStep merged s .removeSidecars = some s') :
    PromotionInv merged s' := by
  simp only [promotionStep] at hstep
  split_ifs at hstep with hphase
  cases hstep
  have hlive := h.replaced hphase
  refine { h with
    before := fun hbefore => by cases hbefore
    replaced := fun heq => by cases heq
    unused := fun hlive' => by cases hlive.symm.trans hlive'
    linked := fun k hk => ?_
    quiet := fun hquiet => by cases hquiet
    resynced := fun heq => by cases heq
    walReported := fun row hrow => (List.not_mem_nil hrow).elim }
  obtain ⟨k', hk', rfl⟩ := List.mem_map.mp hk
  have hlinked := h.linked k' hk'
  split
  · simp
  · exact hlinked

theorem promotionInv_releaseLock {s s' : PromotionState Tbl Row}
    (h : PromotionInv merged s) (hstep : promotionStep merged s .releaseLock = some s') :
    PromotionInv merged s' := by
  cases hstep
  exact { h with
    before := fun hbefore => by cases hbefore
    replaced := fun heq => by cases heq
    quiet := fun hquiet => by cases hquiet
    resynced := fun heq => by cases heq }

/-- **What a step preserves.** -/
theorem promotionInv_step {s s' : PromotionState Tbl Row} {a : PromotionAction Tbl Row}
    (h : PromotionInv merged s) (hstep : promotionStep merged s a = some s') :
    PromotionInv merged s' := by
  cases a with
  | connect => exact promotionInv_connect h hstep
  | access c => exact promotionInv_access h hstep
  | commit c new => exact promotionInv_commit h hstep
  | close c => exact promotionInv_close h hstep
  | createWorkingDb => exact promotionInv_createWorkingDb h hstep
  | merge rows => exact promotionInv_merge h hstep
  | acquireLock => exact promotionInv_acquireLock h hstep
  | resync => exact promotionInv_resync h hstep
  | replace => exact promotionInv_replace h hstep
  | removeSidecars => exact promotionInv_removeSidecars h hstep
  | releaseLock => exact promotionInv_releaseLock h hstep

/-! ## Which steps keep the rows -/

/-- A commit. -/
theorem rowsFound_commit {s s' : PromotionState Tbl Row} {c : ℕ} {new : Content Tbl Row}
    (hfound : RowsFound merged s) (hstep : promotionStep merged s (.commit c new) = some s') :
    RowsFound merged s' ↔ KeepsRows merged s (.commit c new) := by
  simp only [promotionStep] at hstep
  split at hstep
  · rename_i id unlinked hc
    split_ifs at hstep
    cases hstep
    by_cases hlost : id ≠ s.live ∨ unlinked = true
    · -- the new rows are nowhere to be found
      have hsame : (s.setFile id ((s.file id).commit unlinked new)).found = s.found := by
        by_cases hid : id = s.live
        · have hunlinked : unlinked = true := hlost.resolve_left fun hne => hne hid
          subst hid hunlinked
          rw [found_setFile_self]
          rfl
        · exact found_setFile_of_ne s hid _
      constructor
      · intro h id' unlinked' _ _ row hrow hmerged
        have hrow' := h row (List.mem_append_right _ hrow) hmerged
        exact (congrArg Content.rows hsame).subst hrow'
      · intro h row hrow hmerged
        show row ∈ (s.setFile id ((s.file id).commit unlinked new)).found.rows
        rw [hsame]
        rcases List.mem_append.mp hrow with hrow | hrow
        · exact hfound row hrow hmerged
        · exact h id unlinked hc hlost row hrow hmerged
    · rw [not_or, not_not, Bool.not_eq_true] at hlost
      obtain ⟨rfl, rfl⟩ := hlost
      have hadd : (s.setFile s.live ((s.file s.live).commit false new)).found =
          s.found.add new := by
        rw [found_setFile_self]
        simp [DbFile.commit, DbFile.found, Content.add, PromotionState.found]
      refine iff_of_true (fun row hrow hmerged => ?_) ?_
      · show row ∈ (s.setFile s.live ((s.file s.live).commit false new)).found.rows
        rw [hadd]
        rcases List.mem_append.mp hrow with hrow | hrow
        · exact List.mem_append_left _ (hfound row hrow hmerged)
        · exact List.mem_append_right _ hrow
      · intro id unlinked hc' hlost
        rw [hc, Option.some.injEq, Connection.active.injEq] at hc'
        obtain ⟨rfl, rfl⟩ := hc'
        rcases hlost with hne | hunlinked
        · exact absurd rfl hne
        · cases hunlinked
  · cases hstep

/-- The rename. -/
theorem rowsFound_replace {s s' : PromotionState Tbl Row} (h : PromotionInv merged s)
    (hfound : RowsFound merged s) (hstep : promotionStep merged s .replace = some s') :
    RowsFound merged s' ↔ KeepsRows merged s .replace := by
  simp only [promotionStep] at hstep
  split at hstep
  · rename_i w hphase hw
    cases hstep
    have hlive := h.before (by rw [hphase]; rfl)
    have horiginal : s.found = s.original.found := by rw [PromotionState.found, hlive]; rfl
    constructor
    · intro hall w' hw' row hrow hmerged
      cases hw.symm.trans hw'
      have hrow' : row ∈ w.rows ++ [] := hall row hrow hmerged
      rw [List.append_nil] at hrow'
      exact h.workingLegal w hw row hrow'
    · intro htables row hrow hmerged
      have hrow' := hfound row hrow hmerged
      rw [horiginal] at hrow'
      exact List.mem_append_left _
        (h.resynced hphase w hw row hrow' hmerged (htables w hw row hrow hmerged))
  · cases hstep

/-- The removal of the WAL. -/
theorem rowsFound_removeSidecars {s s' : PromotionState Tbl Row} (h : PromotionInv merged s)
    (hfound : RowsFound merged s) (hstep : promotionStep merged s .removeSidecars = some s') :
    RowsFound merged s' ↔ KeepsRows merged s .removeSidecars := by
  simp only [promotionStep] at hstep
  split_ifs at hstep with hphase
  cases hstep
  have hlive := h.replaced hphase
  have hfile : s.file s.live = s.workingCopy := by rw [hlive]; rfl
  constructor
  · intro hall row hrow hmerged
    rw [hfile] at hrow ⊢
    have hrow' := hall row (h.walReported row hrow) hmerged
    simp only [PromotionState.found, hlive] at hrow'
    simpa [PromotionState.file, DbFile.found] using hrow'
  · intro hwal row hrow hmerged
    have hrow' := hfound row hrow hmerged
    simp only [PromotionState.found, hlive]
    rw [PromotionState.found, hfile] at hrow'
    refine List.mem_append_left _ ?_
    rcases List.mem_append.mp hrow' with hrow' | hrow'
    · exact hrow'
    · have hmain := hwal row (hfile ▸ hrow') hmerged
      rw [hfile] at hmain
      exact hmain

/-- A checkpoint keeps the rows. -/
theorem rowsFound_close {s s' : PromotionState Tbl Row} {c : ℕ} (hfound : RowsFound merged s)
    (hstep : promotionStep merged s (.close c) = some s') : RowsFound merged s' := by
  simp only [promotionStep] at hstep
  split at hstep
  · cases hstep
    exact hfound.mono rfl fun _ hrow => hrow
  · rename_i id unlinked hc
    split_ifs at hstep
    · cases hstep
      exact hfound.mono rfl fun _ hrow => hrow
    · cases hstep
      refine hfound.mono (by cases id <;> rfl) fun row hrow => ?_
      by_cases hid : id = s.live
      · subst hid
        have hself := found_setFile_self (s.setConnection c .closed)
          ((s.file s.live).checkpoint unlinked)
        rw [show (s.setConnection c .closed).live = s.live from rfl] at hself
        rw [hself]
        exact mem_found_checkpoint unlinked hrow
      · rw [found_setFile_of_ne (s.setConnection c .closed) hid]
        exact hrow
  · cases hstep

/-- **Which steps keep every reported row.** -/
theorem rowsFound_step {s s' : PromotionState Tbl Row} {a : PromotionAction Tbl Row}
    (h : PromotionInv merged s) (hfound : RowsFound merged s)
    (hstep : promotionStep merged s a = some s') : RowsFound merged s' ↔ KeepsRows merged s a := by
  cases a with
  | commit c new => exact rowsFound_commit hfound hstep
  | replace => exact rowsFound_replace h hfound hstep
  | removeSidecars => exact rowsFound_removeSidecars h hfound hstep
  | connect =>
      cases hstep
      exact iff_of_true (hfound.mono rfl fun _ hrow => hrow) trivial
  | access c =>
      simp only [promotionStep] at hstep
      split at hstep
      · split_ifs at hstep
        cases hstep
        exact iff_of_true (hfound.mono rfl fun _ hrow => hrow) trivial
      · cases hstep
  | close c => exact iff_of_true (rowsFound_close hfound hstep) trivial
  | createWorkingDb =>
      simp only [promotionStep] at hstep
      split_ifs at hstep
      cases hstep
      exact iff_of_true (hfound.mono rfl fun _ hrow => hrow) trivial
  | merge rows =>
      simp only [promotionStep] at hstep
      split at hstep
      · split_ifs at hstep
        cases hstep
        exact iff_of_true (hfound.mono rfl fun _ hrow => hrow) trivial
      · cases hstep
  | acquireLock =>
      simp only [promotionStep] at hstep
      split_ifs at hstep
      cases hstep
      exact iff_of_true (hfound.mono rfl fun _ hrow => hrow) trivial
  | resync =>
      simp only [promotionStep] at hstep
      split at hstep
      · cases hstep
        exact iff_of_true (hfound.mono rfl fun _ hrow => hrow) trivial
      · cases hstep
  | releaseLock =>
      cases hstep
      exact iff_of_true (hfound.mono rfl fun _ hrow => hrow) trivial

/-- **The interleavings in which no reported row is lost**: those of which every step keeps the
rows. -/
theorem rowsFound_iff {content : Content Tbl Row} (hlegal : content.Legal)
    {actions : List (PromotionAction Tbl Row)} {s : PromotionState Tbl Row}
    (hrun : run (promotionStep merged) (beforePromotion content) actions = some s) :
    (∀ pre t, pre <+: actions → run (promotionStep merged) (beforePromotion content) pre = some t →
      RowsFound merged t) ↔
      StepsMeet (promotionStep merged) (KeepsRows merged) (beforePromotion content) actions := by
  have hfound : RowsFound merged (beforePromotion content) := by
    intro row hrow _
    exact List.mem_append_left _ hrow
  have hinv : ∀ (s : PromotionState Tbl Row) action s', PromotionInv merged s → True →
      promotionStep merged s action = some s' → PromotionInv merged s' :=
    fun _ _ _ hinv _ hstep => promotionInv_step hinv hstep
  exact (stepsMeet_iff_forall_reached hinv
    (fun _ _ _ hinv hP _ hstep => rowsFound_step hinv hP hstep) actions _ s
    (promotionInv_beforePromotion hlegal) hfound (fun _ _ => trivial) hrun).symm

end Invariant

/-! ### Lost rows -/

inductive ExampleTable where
  | sources
  | sessions
  | subscriptions
  deriving DecidableEq

/-- A database with two tables; the archive has sources. -/
def exampleContent : Content ExampleTable ℕ := ⟨[.sources, .sessions], [(.sources, 1)]⟩

/-- A writer that has opened the path before the rename waits for the lock and then commits. -/
def waitingWriter : List (PromotionAction ExampleTable ℕ) :=
  [.createWorkingDb, .merge [(.sources, 2)], .connect, .acquireLock, .resync, .replace,
    .removeSidecars, .releaseLock, .access 0, .commit 0 ⟨[], [(.sessions, 7)]⟩]

/-- `rowsFound_iff` in this run. -/
theorem rowsFound_waitingWriter : ∃ s,
    run (promotionStep [.sources]) (beforePromotion exampleContent) waitingWriter = some s ∧
    ((∀ pre t, pre <+: waitingWriter →
      run (promotionStep [.sources]) (beforePromotion exampleContent) pre = some t →
        RowsFound [.sources] t) ↔
      StepsMeet (promotionStep [.sources]) (KeepsRows [.sources]) (beforePromotion exampleContent)
        waitingWriter) := by
  have hlegal : exampleContent.Legal := by
    unfold Content.Legal
    decide
  exact ⟨_, rfl, rowsFound_iff hlegal rfl⟩

/-- The waiting writer's row is not in the database at the live path.  Nor is a row of a table that
is made after the working copy, or one that is committed on the new file and still in the WAL when
that is removed. -/
theorem row_lost_on_replaced_file :
    (∃ s, run (promotionStep [.sources]) (beforePromotion exampleContent) waitingWriter = some s ∧
      (.sessions, 7) ∈ s.reported ∧ ¬ RowsFound [.sources] s) ∧
    (∃ s, run (promotionStep [.sources]) (beforePromotion exampleContent)
      [.createWorkingDb, .connect, .access 0, .commit 0 ⟨[.subscriptions], [(.subscriptions, 7)]⟩,
        .close 0, .acquireLock, .resync, .replace, .removeSidecars, .releaseLock] = some s ∧
      ¬ RowsFound [.sources] s) ∧
    ∃ s, run (promotionStep [.sources]) (beforePromotion exampleContent)
      [.createWorkingDb, .acquireLock, .resync, .replace, .connect, .access 0,
        .commit 0 ⟨[], [(.sessions, 7)]⟩, .removeSidecars] = some s ∧
      ¬ RowsFound [.sources] s := by
  refine ⟨⟨_, rfl, by decide, fun h => ?_⟩, ⟨_, rfl, fun h => ?_⟩, ⟨_, rfl, fun h => ?_⟩⟩
  · exact absurd (h (.sessions, 7) (by decide) (by decide)) (by decide)
  · exact absurd (h (.subscriptions, 7) (by decide) (by decide)) (by decide)
  · exact absurd (h (.sessions, 7) (by decide) (by decide)) (by decide)

end AlderpointDNS.Backup
