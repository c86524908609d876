import AlderpointDNS.Backup.Extraction
import AlderpointDNS.Lib.Numerals
import AlderpointDNS.Lib.Runs
import AlderpointDNS.Lib.Tables
import AlderpointDNS.SoftwareUpdates.Versions
import Mathlib.Data.Nat.Digits.Defs

/-!
# Archives and their history rows

`create_backup` moves an archive to a name made of the local time in seconds and records its path in
`backup_history`; `prune_backups` and `delete_backup` remove the files that rows name.  A call can
be cut short by an exception or by the end of its process.

Files are known by where their paths lead (`resolve`), and an archive by the number of the call that
made it.  Components, manifests and messages play no part.

* `archiveName_inj` — the calls that give their archives the same name.
* `kept_createBackup`, `kept_pruneBackups`, `kept_deleteBackup` — when a call keeps the archives of
  the rows that remain.
* **`archives_kept_iff`** — the runs in which every row that remains has its archive.
* `replaced_in_one_second` — two backups in one second.
-/

namespace AlderpointDNS.Backup.Retention

open Text Runs

/-! ## Names -/

/-- The server's local time, `offset` seconds ahead of UTC. -/
structure LocalTime where
  year : Fin 10000
  month : Fin 13
  day : Fin 32
  hour : Fin 24
  minute : Fin 60
  second : Fin 60
  microsecond : Fin 1000000
  offset : ℤ
  offset_lt : offset.natAbs < 86400

/-- `n` with `k` digits. -/
def padded (k n : ℕ) : Str := (Numerals.digits 10 k n).map Nat.digitChar

/-- `%z`, which has seconds only if there are any. -/
def offsetText (offset : ℤ) : Str :=
  let n := offset.natAbs
  (if offset < 0 then '-' else '+') :: (padded 4 (n / 3600 * 100 + n / 60 % 60) ++
    if n % 60 = 0 then [] else padded 2 (n % 60))

/-- `strftime("%Y%m%d-%H%M%S%z")` -/
def stamp (t : LocalTime) : Str :=
  padded 4 t.year ++ (padded 2 t.month ++ (padded 2 t.day ++ '-' :: (padded 2 t.hour ++
    (padded 2 t.minute ++ (padded 2 t.second ++ offsetText t.offset)))))

/-- With a password or without. -/
def ending (encrypted : Bool) : Str :=
  if encrypted then ".tar.gz.enc".toList else ".tar.gz".toList

def archiveName (t : LocalTime) (encrypted : Bool) : Str :=
  "alderpointdns-backup-".toList ++ (stamp t ++ ending encrypted)

def archivePath (t : LocalTime) (encrypted : Bool) : Path := backupDir ++ [archiveName t encrypted]

def importsDir : Path :=
  ["var", "lib", "alderpointdns", "staging", "backup-imports"].map String.toList

/-! ## State -/

inductive Content where
  /-- what the `k`-th call of `create_backup` has made -/
  | archive (k : ℕ)
  | other
  deriving DecidableEq

inductive BackupStatus where
  | deployed
  | unchanged
  | failed
  deriving DecidableEq

/-- A row of `backup_history`.  The call that has inserted it is no column. -/
structure HistoryRow where
  id : ℕ
  path : Option Path
  status : BackupStatus
  call : ℕ
  deriving DecidableEq

structure BackupState where
  files : Path → Option Content
  history : List HistoryRow
  /-- how often `create_backup` has been called -/
  calls : ℕ

/-- The directories of the machine, and where its links lead. -/
structure Disk where
  resolve : Path → Path
  isDir : Path → Bool

variable (disk : Disk)

/-! ## Calls -/

/-- How a call of `create_backup` ends. -/
inductive Outcome where
  /-- with an exception before the archive is moved, when its path is known or not yet -/
  | failed (located : Bool)
  /-- with an exception while its mode is set -/
  | movedFailed
  /-- with its process, before there is a row -/
  | movedLost
  | deployed
  /-- with an exception while the modes of the directory are set -/
  | deployedFailed
  deriving DecidableEq

namespace Outcome

/-- `os.replace` has been called. -/
def moves : Outcome → Bool
  | failed _ => false
  | _ => true

/-- What is recorded. -/
def rows (path : Path) : Outcome → List (Option Path × BackupStatus)
  | failed located => [(if located then some path else none, .failed)]
  | movedFailed => [(some path, .failed)]
  | movedLost => []
  | deployed => [(some path, .deployed)]
  | deployedFailed => [(some path, .deployed), (some path, .failed)]

end Outcome

/-- `_record_backup_history`. -/
def recordBackupHistory (call : ℕ) (history : List HistoryRow)
    (row : Option Path × BackupStatus) : List HistoryRow :=
  history ++ [⟨nextRowid (history.map (·.id)), row.1, row.2, call⟩]

def createBackup (t : LocalTime) (encrypted : Bool) (outcome : Outcome) (s : BackupState) :
    BackupState where
  files := if outcome.moves then Function.update s.files (disk.resolve (archivePath t encrypted))
    (some (.archive s.calls)) else s.files
  history := (outcome.rows (archivePath t encrypted)).foldl (recordBackupHistory s.calls) s.history
  calls := s.calls + 1

/-- `l[n:]`. -/
def sliceFrom {α : Type} (n : ℤ) (l : List α) : List α :=
  if 0 ≤ n then l.drop n.toNat else l.drop (l.length - n.natAbs)

/-- The rows that retention removes, the newest first. -/
def expired (retention : ℤ) (history : List HistoryRow) : List HistoryRow :=
  sliceFrom retention ((history.filter fun r =>
    r.status = .deployed || r.status = .unchanged).mergeSort fun r r' => r'.id ≤ r.id)

/-- The file of a row is removed. -/
def unlinkRow (files : Path → Option Content) (r : HistoryRow) : Path → Option Content :=
  match r.path with
  | some path => Function.update files (disk.resolve path) none
  | none => files

/-- `prune_backups`; with `stop`, the removal of one file raises, and no row is removed. -/
def pruneBackups (retention : ℤ) (stop : Option ℕ) (s : BackupState) : BackupState :=
  let rows := expired retention s.history
  match stop.filter (· < rows.length) with
  | some k => { s with files := (rows.take k).foldl (unlinkRow disk) s.files }
  | none =>
      { s with
        files := rows.foldl (unlinkRow disk) s.files
        history := s.history.filter fun r => r.id ∉ rows.map (·.id) }

/-- A character with the property `isdigit` that is no decimal digit. -/
def isOtherDigit (c : Char) : Bool :=
  [(0xb2, 0xb3), (0xb9, 0xb9), (0x1369, 0x1371), (0x19da, 0x19da), (0x2070, 0x2070),
    (0x2074, 0x2079), (0x2080, 0x2089), (0x2460, 0x2468), (0x2474, 0x247c), (0x2488, 0x2490),
    (0x24ea, 0x24ea), (0x24f5, 0x24fd), (0x24ff, 0x24ff), (0x2776, 0x277e), (0x2780, 0x2788),
    (0x278a, 0x2792), (0x10a40, 0x10a43), (0x10e60, 0x10e68), (0x11052, 0x1105a),
    (0x1f100, 0x1f10a)].any fun range => range.1 ≤ c.toNat && c.toNat ≤ range.2

/-- `isdigit()`. -/
def isDigits (s : Str) : Bool :=
  s ≠ [] && s.all fun c => SoftwareUpdates.isDecimal c || isOtherDigit c

def BackupState.exists (s : BackupState) (path : Path) : Bool :=
  disk.isDir (disk.resolve path) || (s.files (disk.resolve path)).isSome

/-- `find_backup_path`; an exception is `none`, also the one of `int`. -/
def findBackupPath (identifier : Str) (s : BackupState) : Option Path :=
  let candidate :=
    if isDigits identifier then
      if identifier.all SoftwareUpdates.isDecimal then
        (s.history.find? (·.id = SoftwareUpdates.int identifier)).bind (·.path)
      else none
    else
      let raw := Extraction.components identifier
      match ([backupDir, importsDir].map (· ++ raw.getLast?.toList)).find? (s.exists disk) with
      | some probe => some probe
      | none => if startsWith identifier ['/'] then some raw else none
  (candidate.map disk.resolve).filter fun resolved =>
    [backupDir, importsDir].any (fun root => (disk.resolve root).isPrefixOf resolved) &&
      s.exists disk resolved

/-- The file that is removed: the removal of a directory raises. -/
def unlinkedPath (identifier : Str) (s : BackupState) : Option Path :=
  (findBackupPath disk identifier s).filter fun path => !disk.isDir path

/-- `delete_backup`, whose transaction may come to nothing. -/
def deleteBackup (identifier : Str) (committed : Bool) (s : BackupState) : BackupState :=
  match unlinkedPath disk identifier s with
  | none => s
  | some path =>
      { s with
        files := Function.update s.files path none
        history := if committed then s.history.filter (·.path ≠ some path) else s.history }

inductive BackupAction where
  | create (t : LocalTime) (encrypted : Bool) (outcome : Outcome)
  | prune (retention : ℤ) (stop : Option ℕ)
  | delete (identifier : Str) (committed : Bool)

def retentionStep (s : BackupState) : BackupAction → Option BackupState
  | .create t encrypted outcome => some (createBackup disk t encrypted outcome s)
  | .prune retention stop => some (pruneBackups disk retention stop s)
  | .delete identifier committed => some (deleteBackup disk identifier committed s)

/-- There are no rows yet. -/
def noBackups (files : Path → Bool) : BackupState :=
  ⟨fun path => if files path then some .other else none, [], 0⟩

/-! ## What is asked of it -/

/-- Every row of a backup that was made has its file, and the archive in it is the row's. -/
def Kept (s : BackupState) : Prop :=
  ∀ r ∈ s.history, r.status = .deployed →
    ∃ path, r.path = some path ∧ s.files (disk.resolve path) = some (.archive r.call)

/-- A row that names this place. -/
def Occupied (s : BackupState) (place : Path) : Prop :=
  ∃ r ∈ s.history, r.status = .deployed ∧ ∃ path, r.path = some path ∧ disk.resolve path = place

/-- No archive is moved to where another one is, no file is removed by a call that then fails, and
what is deleted by its path is what the row says. -/
def Careful (s : BackupState) : BackupAction → Prop
  | .create t encrypted outcome =>
      outcome.moves = true → ¬Occupied disk s (disk.resolve (archivePath t encrypted))
  | .prune retention stop => ∀ k ∈ stop, k = 0 ∨ (expired retention s.history).length ≤ k
  | .delete identifier committed => ∀ place ∈ unlinkedPath disk identifier s,
      ∀ r ∈ s.history, r.status = .deployed → ∀ path, r.path = some path →
        disk.resolve path = place → committed = true ∧ path = place

/-- What every call keeps, whatever happens: no two rows of backups that were made are of one
call. -/
structure OfCalls (s : BackupState) : Prop where
  lt_calls : ∀ r ∈ s.history, r.call < s.calls
  ne_unchanged : ∀ r ∈ s.history, r.status ≠ .unchanged
  eq_of_call : ∀ r ∈ s.history, ∀ r' ∈ s.history, r.status = .deployed → r'.status = .deployed →
    r.call = r'.call → r = r'

variable {disk : Disk} {s s' : BackupState}

/-! ## Names again -/

theorem length_padded (k n : ℕ) : (padded k n).length = k := by
  simp [padded]

theorem padded_inj {k m n : ℕ} (hm : m < 10 ^ k) (hn : n < 10 ^ k) (h : padded k m = padded k n) :
    m = n := by
  have hread : ∀ i, (padded k i).map (fun c => c.toNat - 48) = Numerals.digits 10 k i := by
    intro i
    rw [padded, List.map_map]
    refine (List.map_congr_left fun d hd => ?_).trans (List.map_id _)
    have hlt : d < 10 := Numerals.lt_of_mem_digits (by omega) hd
    simp [Nat.toNat_digitChar_sub_48_of_lt_ten hlt]
  refine Numerals.digits_inj hm hn ?_
  rw [← hread, ← hread, h]

theorem append_padded_inj {k m n : ℕ} {x y : Str} (hm : m < 10 ^ k) (hn : n < 10 ^ k)
    (h : padded k m ++ x = padded k n ++ y) : m = n ∧ x = y := by
  obtain ⟨hnumber, hrest⟩ := List.append_inj h (by simp [length_padded])
  exact ⟨padded_inj hm hn hnumber, hrest⟩

theorem length_ending (encrypted : Bool) :
    (ending encrypted).length = if encrypted then 11 else 7 := by
  cases encrypted <;> decide +kernel

/-- Hours, minutes and seconds. -/
theorem eq_of_parts {m n : ℕ} (hours : m / 3600 * 100 + m / 60 % 60 = n / 3600 * 100 + n / 60 % 60)
    (seconds : m % 60 = n % 60) : m = n := by
  have hm : m / 60 % 60 < 60 := Nat.mod_lt _ (by decide)
  have hn : n / 60 % 60 < 60 := Nat.mod_lt _ (by decide)
  have hsplit (k : ℕ) : k = k / 3600 * 3600 + k / 60 % 60 * 60 + k % 60 := by omega
  have hparts : m / 3600 = n / 3600 ∧ m / 60 % 60 = n / 60 % 60 := by
    generalize m / 3600 = a at *
    generalize m / 60 % 60 = b at *
    generalize n / 3600 = c at *
    generalize n / 60 % 60 = d at *
    omega
  rw [hsplit m, hparts.1, hparts.2, seconds, ← hsplit n]

/-- The length tells whether an offset has seconds. -/
theorem offsetText_inj {o o' : ℤ} {e e' : Bool} (ho : o.natAbs < 86400) (ho' : o'.natAbs < 86400)
    (h : offsetText o ++ ending e = offsetText o' ++ ending e') : o = o' ∧ e = e' := by
  simp only [offsetText, List.cons_append, List.append_assoc, List.cons.injEq] at h
  obtain ⟨hsign, htext⟩ := h
  have hneg : o < 0 ↔ o' < 0 := by
    constructor
    · intro hlt
      by_contra hge
      simp [hlt, hge] at hsign
    · intro hlt
      by_contra hge
      simp [hlt, hge] at hsign
  obtain ⟨hminutes, hrest⟩ := append_padded_inj (by omega) (by omega) htext
  have hlength := congrArg List.length hrest
  simp only [List.length_append, length_ending] at hlength
  have hwidth (n : ℕ) : (if n % 60 = 0 then ([] : Str) else padded 2 (n % 60)).length
      = if n % 60 = 0 then 0 else 2 := by
    rw [apply_ite List.length, length_padded]
    rfl
  rw [hwidth, hwidth] at hlength
  have hiff : o.natAbs % 60 = 0 ↔ o'.natAbs % 60 = 0 := by
    cases e <;> cases e' <;> grind
  have he : e = e' := by
    simp only [hiff] at hlength
    cases e <;> cases e' <;> simp_all
  subst he
  have hsecondsText := List.append_cancel_right hrest
  have hseconds : o.natAbs % 60 = o'.natAbs % 60 := by
    by_cases hzero : o.natAbs % 60 = 0
    · rw [hzero, hiff.mp hzero]
    · rw [if_neg hzero, if_neg (mt hiff.mpr hzero)] at hsecondsText
      exact padded_inj (by omega) (by omega) hsecondsText
  have habs : o.natAbs = o'.natAbs := eq_of_parts hminutes hseconds
  exact ⟨by omega, rfl⟩

/-- **When two archives get the same name**: in the same second, if both have a password or neither
has. -/
theorem archiveName_inj {t t' : LocalTime} {e e' : Bool} :
    archiveName t e = archiveName t' e' ↔
      { t with microsecond := 0 } = { t' with microsecond := 0 } ∧ e = e' := by
  constructor
  · intro h
    unfold archiveName at h
    simp only [List.append_cancel_left_eq, stamp, List.append_assoc, List.cons_append] at h
    obtain ⟨hyear, htext⟩ := append_padded_inj (by omega) (by omega) h
    obtain ⟨hmonth, htext⟩ := append_padded_inj (by omega) (by omega) htext
    obtain ⟨hday, htext⟩ := append_padded_inj (by omega) (by omega) htext
    obtain ⟨hhour, htext⟩ := append_padded_inj (by omega) (by omega) (List.cons.inj htext).2
    obtain ⟨hminute, htext⟩ := append_padded_inj (by omega) (by omega) htext
    obtain ⟨hsecond, htext⟩ := append_padded_inj (by omega) (by omega) htext
    obtain ⟨hoffset, he⟩ := offsetText_inj t.offset_lt t'.offset_lt htext
    refine ⟨?_, he⟩
    cases t
    cases t'
    simp only [LocalTime.mk.injEq, true_and]
    exact ⟨Fin.ext hyear, Fin.ext hmonth, Fin.ext hday, Fin.ext hhour, Fin.ext hminute,
      Fin.ext hsecond, hoffset⟩
  · rintro ⟨hsecond, rfl⟩
    have hstamp : stamp t = stamp t' := by
      simpa only [stamp] using congrArg stamp hsecond
    unfold archiveName
    rw [hstamp]

/-! ## What the calls do -/

theorem createBackup_files (t : LocalTime) (encrypted : Bool) (outcome : Outcome) (place : Path) :
    (createBackup disk t encrypted outcome s).files place
      = if outcome.moves = true ∧ place = disk.resolve (archivePath t encrypted) then
          some (.archive s.calls) else s.files place := by
  unfold createBackup
  cases hmoves : outcome.moves with
  | false => simp
  | true => simp [Function.update_apply]

theorem pruneBackups_cases (retention : ℤ) (stop : Option ℕ) (s : BackupState) :
    (∃ k ∈ stop, k < (expired retention s.history).length ∧ pruneBackups disk retention stop s
      = { s with files := ((expired retention s.history).take k).foldl (unlinkRow disk) s.files }) ∨
    ((∀ k ∈ stop, (expired retention s.history).length ≤ k) ∧ pruneBackups disk retention stop s
      = { s with
          files := (expired retention s.history).foldl (unlinkRow disk) s.files
          history := s.history.filter fun r =>
            r.id ∉ (expired retention s.history).map (·.id) }) := by
  unfold pruneBackups
  cases stop with
  | none => exact Or.inr ⟨by simp, rfl⟩
  | some k =>
      by_cases hk : k < (expired retention s.history).length
      · refine Or.inl ⟨k, rfl, hk, ?_⟩
        simp only [Option.filter_some, hk, decide_true, if_true]
      · refine Or.inr ⟨by simpa using hk, ?_⟩
        simp only [Option.filter_some, hk, decide_false, Bool.false_eq_true, if_false]

/-! ## Histories -/

theorem foldl_record_of_mem {call : ℕ} (rows : List (Option Path × BackupStatus))
    {history : List HistoryRow} {r : HistoryRow} (h : r ∈ history) :
    r ∈ rows.foldl (recordBackupHistory call) history := by
  induction rows generalizing history with
  | nil => exact h
  | cons row rows ih => exact ih (List.mem_append_left _ h)

theorem mem_foldl_record {call : ℕ} {rows : List (Option Path × BackupStatus)}
    {history : List HistoryRow} {r : HistoryRow}
    (h : r ∈ rows.foldl (recordBackupHistory call) history) :
    r ∈ history ∨ r.call = call ∧ (r.path, r.status) ∈ rows := by
  induction rows generalizing history with
  | nil => exact Or.inl h
  | cons row rows ih =>
      rcases ih h with hold | ⟨hcall, hmem⟩
      · rw [recordBackupHistory, List.mem_append, List.mem_singleton] at hold
        rcases hold with hold | rfl
        · exact Or.inl hold
        · exact Or.inr ⟨rfl, List.mem_cons_self⟩
      · exact Or.inr ⟨hcall, List.mem_cons_of_mem _ hmem⟩

/-- A call records its archive once, and only after it has moved it. -/
theorem moves_of_deployed {outcome : Outcome} {path : Path} {p : Option Path}
    (h : (p, BackupStatus.deployed) ∈ outcome.rows path) :
    outcome.moves = true ∧ p = some path := by
  cases outcome <;> simp_all [Outcome.rows, Outcome.moves]

theorem createBackup_deployed_unique {call : ℕ} {outcome : Outcome} {path : Path}
    {history : List HistoryRow} (hold : ∀ r ∈ history, r.call ≠ call) {r r' : HistoryRow}
    (hr : r ∈ (outcome.rows path).foldl (recordBackupHistory call) history)
    (hr' : r' ∈ (outcome.rows path).foldl (recordBackupHistory call) history)
    (hcall : r.call = call) (hcall' : r'.call = call) (hdeployed : r.status = .deployed)
    (hdeployed' : r'.status = .deployed) : r = r' := by
  have hnot : r ∉ history := fun hmem => hold r hmem hcall
  have hnot' : r' ∉ history := fun hmem => hold r' hmem hcall'
  cases outcome with
  | failed located => simp_all [Outcome.rows, recordBackupHistory]
  | movedFailed => simp_all [Outcome.rows, recordBackupHistory]
  | movedLost => exact absurd hr hnot
  | deployed => simp_all [Outcome.rows, recordBackupHistory]
  | deployedFailed =>
      simp only [Outcome.rows, List.foldl_cons, List.foldl_nil, recordBackupHistory,
        List.mem_append, List.mem_singleton, hnot, hnot', false_or] at hr hr'
      rcases hr with rfl | rfl
      · rcases hr' with rfl | rfl
        · rfl
        · cases hdeployed'
      · cases hdeployed

/-- Fewer rows. -/
theorem OfCalls.of_subset (h : OfCalls s) (hcalls : s'.calls = s.calls)
    (hsubset : s'.history ⊆ s.history) : OfCalls s' := by
  constructor
  · intro r hr
    rw [hcalls]
    exact h.lt_calls r (hsubset hr)
  · exact fun r hr => h.ne_unchanged r (hsubset hr)
  · exact fun r hr r' hr' => h.eq_of_call r (hsubset hr) r' (hsubset hr')

theorem OfCalls.createBackup (h : OfCalls s) (t : LocalTime) (encrypted : Bool)
    (outcome : Outcome) : OfCalls (createBackup disk t encrypted outcome s) := by
  have hold : ∀ r ∈ s.history, r.call ≠ s.calls := fun r hr => (h.lt_calls r hr).ne
  constructor
  · intro r hr
    rcases mem_foldl_record hr with hr | ⟨hcall, -⟩
    · exact Nat.lt_succ_of_lt (h.lt_calls r hr)
    · exact Nat.lt_succ_of_le hcall.le
  · intro r hr
    rcases mem_foldl_record hr with hr | ⟨-, hrow⟩
    · exact h.ne_unchanged r hr
    · intro hunchanged
      rw [hunchanged] at hrow
      cases outcome <;> simp [Outcome.rows] at hrow
  · intro r hr r' hr' hdeployed hdeployed' hcall
    rcases mem_foldl_record hr with hmem | ⟨hnew, -⟩
    · rcases mem_foldl_record hr' with hmem' | ⟨hnew', -⟩
      · exact h.eq_of_call r hmem r' hmem' hdeployed hdeployed' hcall
      · exact absurd (hcall.trans hnew') (hold r hmem)
    · exact createBackup_deployed_unique hold hr hr' hnew (hcall ▸ hnew) hdeployed hdeployed'

theorem ofCalls_retentionStep {action : BackupAction} (h : OfCalls s)
    (hstep : retentionStep disk s action = some s') : OfCalls s' := by
  cases action with
  | create t encrypted outcome =>
      cases hstep
      exact h.createBackup t encrypted outcome
  | prune retention stop =>
      cases hstep
      rcases pruneBackups_cases retention stop s with ⟨k, -, -, heq⟩ | ⟨-, heq⟩
      · rw [heq]
        exact h.of_subset rfl (List.Subset.refl _)
      · rw [heq]
        exact h.of_subset rfl fun r hr => List.mem_of_mem_filter hr
  | delete identifier committed =>
      cases hstep
      unfold deleteBackup
      split
      · exact h
      · refine h.of_subset rfl ?_
        cases committed with
        | false => exact List.Subset.refl _
        | true => exact fun r hr => List.mem_of_mem_filter hr

theorem ofCalls_noBackups (files : Path → Bool) : OfCalls (noBackups files) := by
  constructor <;> simp [noBackups]

/-! ## Files -/

theorem foldl_unlinkRow_of_forall_ne {rows : List HistoryRow} {files : Path → Option Content}
    {place : Path} (h : ∀ r ∈ rows, ∀ path, r.path = some path → disk.resolve path ≠ place) :
    rows.foldl (unlinkRow disk) files place = files place := by
  induction rows generalizing files with
  | nil => rfl
  | cons r rows ih =>
      obtain ⟨hr, hrows⟩ := List.forall_mem_cons.mp h
      rw [List.foldl_cons, ih hrows]
      cases hpath : r.path with
      | none => rw [unlinkRow, hpath]
      | some path =>
          rw [unlinkRow, hpath]
          exact Function.update_of_ne (hr path hpath).symm _ _

theorem foldl_unlinkRow_of_mem {rows : List HistoryRow} {files : Path → Option Content}
    {place : Path} (h : ∃ r ∈ rows, ∃ path, r.path = some path ∧ disk.resolve path = place) :
    rows.foldl (unlinkRow disk) files place = none := by
  induction rows generalizing files with
  | nil => simp at h
  | cons r rows ih =>
      rw [List.foldl_cons]
      by_cases hlater : ∃ r' ∈ rows, ∃ path, r'.path = some path ∧ disk.resolve path = place
      · exact ih hlater
      · obtain ⟨r', hr', path, hpath, hplace⟩ := h
        have hfirst : r' = r :=
          (List.mem_cons.mp hr').resolve_right fun hrows => hlater ⟨r', hrows, path, hpath, hplace⟩
        subst hfirst
        rw [foldl_unlinkRow_of_forall_ne, unlinkRow, hpath, ← hplace]
        · exact Function.update_self _ _ _
        · exact fun r'' hr'' path' hpath' hplace' => hlater ⟨r'', hr'', path', hpath', hplace'⟩

theorem mem_of_mem_expired {retention : ℤ} {history : List HistoryRow} {r : HistoryRow}
    (h : r ∈ expired retention history) :
    r ∈ history ∧ (r.status = .deployed ∨ r.status = .unchanged) := by
  have hsorted : r ∈ (history.filter fun r =>
      r.status = .deployed || r.status = .unchanged).mergeSort fun r r' => r'.id ≤ r.id := by
    unfold expired sliceFrom at h
    split_ifs at h
    · exact List.mem_of_mem_drop h
    · exact List.mem_of_mem_drop h
  simpa using hsorted

/-! ## What the calls keep -/

theorem kept_createBackup (h : Kept disk s) (hcalls : OfCalls s) (t : LocalTime)
    (encrypted : Bool) (outcome : Outcome) :
    Kept disk (createBackup disk t encrypted outcome s) ↔
      Careful disk s (.create t encrypted outcome) := by
  constructor
  · rintro hkept hmoves ⟨r, hr, hdeployed, path, hpath, hplace⟩
    obtain ⟨path', hpath', hfile⟩ := hkept r (foldl_record_of_mem _ hr) hdeployed
    obtain rfl : path = path' := Option.some.inj (hpath.symm.trans hpath')
    rw [createBackup_files, if_pos ⟨hmoves, hplace⟩, Option.some.injEq,
      Content.archive.injEq] at hfile
    have hlt := hcalls.lt_calls r hr
    omega
  · intro hcareful r hr hdeployed
    rcases mem_foldl_record hr with hr | ⟨hcall, hrow⟩
    · obtain ⟨path, hpath, hfile⟩ := h r hr hdeployed
      refine ⟨path, hpath, ?_⟩
      rw [createBackup_files, if_neg, hfile]
      rintro ⟨hmoves, hplace⟩
      exact hcareful hmoves ⟨r, hr, hdeployed, path, hpath, hplace⟩
    · rw [hdeployed] at hrow
      obtain ⟨hmoves, hpath⟩ := moves_of_deployed hrow
      refine ⟨_, hpath, ?_⟩
      rw [createBackup_files, if_pos ⟨hmoves, rfl⟩, hcall]

theorem kept_pruneBackups (h : Kept disk s) (hcalls : OfCalls s) (retention : ℤ)
    (stop : Option ℕ) :
    Kept disk (pruneBackups disk retention stop s) ↔ Careful disk s (.prune retention stop) := by
  -- what retention removes are rows of backups that were made, with their archives
  have hexpired : ∀ r ∈ expired retention s.history, r ∈ s.history ∧ r.status = .deployed := by
    intro r hr
    obtain ⟨hmem, hstatus⟩ := mem_of_mem_expired hr
    exact ⟨hmem, hstatus.resolve_right (hcalls.ne_unchanged r hmem)⟩
  rcases pruneBackups_cases retention stop s with ⟨k, hk, hlt, heq⟩ | ⟨hle, heq⟩
  · rw [heq]
    constructor
    · intro hkept k' hk'
      obtain rfl : k = k' := Option.some.inj (hk.symm.trans hk')
      refine Or.inl ?_
      by_contra hzero
      have hfirst : (expired retention s.history)[0] ∈ (expired retention s.history).take k :=
        List.mem_take_iff_getElem.mpr ⟨0, by omega, rfl⟩
      obtain ⟨hmem, hdeployed⟩ := hexpired _ (List.mem_of_mem_take hfirst)
      obtain ⟨path, hpath, hfile⟩ := hkept _ hmem hdeployed
      cases hfile.symm.trans (foldl_unlinkRow_of_mem ⟨_, hfirst, path, hpath, rfl⟩)
    · intro hcareful
      obtain rfl : k = 0 := (hcareful k hk).resolve_right (by omega)
      exact h
  · rw [heq]
    refine iff_of_true ?_ fun k hk => Or.inr (hle k hk)
    intro r hr hdeployed
    obtain ⟨hr, hid⟩ := List.mem_filter.mp hr
    obtain ⟨path, hpath, hfile⟩ := h r hr hdeployed
    refine ⟨path, hpath, ?_⟩
    refine (foldl_unlinkRow_of_forall_ne ?_).trans hfile
    intro r' hr' path' hpath' hplace
    -- two archives in one place are one
    obtain ⟨hmem, hdeployed'⟩ := hexpired r' hr'
    obtain ⟨path'', hpath'', hfile'⟩ := h r' hmem hdeployed'
    obtain rfl : path' = path'' := Option.some.inj (hpath'.symm.trans hpath'')
    rw [hplace, hfile, Option.some.injEq, Content.archive.injEq] at hfile'
    obtain rfl := hcalls.eq_of_call r hr r' hmem hdeployed hdeployed' hfile'
    simp only [List.mem_map, decide_eq_true_eq] at hid
    exact hid ⟨r, hr', rfl⟩

theorem kept_deleteBackup (h : Kept disk s) (identifier : Str) (committed : Bool) :
    Kept disk (deleteBackup disk identifier committed s) ↔
      Careful disk s (.delete identifier committed) := by
  simp only [deleteBackup, Careful]
  cases hplace : unlinkedPath disk identifier s with
  | none => simpa using h
  | some place =>
      simp only [Option.mem_some_iff, forall_eq']
      constructor
      · intro hkept r hr hdeployed path hpath hresolve
        by_contra hcareless
        have hremains : r ∈ if committed then s.history.filter (·.path ≠ some place)
            else s.history := by
          split_ifs with hcommitted
          · refine List.mem_filter.mpr ⟨hr, ?_⟩
            have hne : path ≠ place := fun heq => hcareless ⟨hcommitted, heq⟩
            simpa [hpath] using hne
          · exact hr
        obtain ⟨path', hpath', hfile⟩ := hkept r hremains hdeployed
        obtain rfl : path = path' := Option.some.inj (hpath.symm.trans hpath')
        simp [hresolve] at hfile
      · intro hcareful r hr hdeployed
        have hmem : r ∈ s.history := by
          dsimp only at hr
          split_ifs at hr
          · exact List.mem_of_mem_filter hr
          · exact hr
        obtain ⟨path, hpath, hfile⟩ := h r hmem hdeployed
        refine ⟨path, hpath, ?_⟩
        have hne : disk.resolve path ≠ place := by
          intro hresolve
          obtain ⟨rfl, rfl⟩ := hcareful r hmem hdeployed path hpath hresolve
          simp [hpath] at hr
        exact (Function.update_of_ne hne _ _).trans hfile

/-! ## Runs -/

/-- Every call returns or raises. -/
theorem exists_run (disk : Disk) (s : BackupState) (actions : List BackupAction) :
    ∃ s', run (retentionStep disk) s actions = some s' := by
  induction actions generalizing s with
  | nil => exact ⟨s, rfl⟩
  | cons action actions ih =>
      rw [run]
      cases action <;> exact ih _

/-- **When every row that remains has its archive**: in all states of a run exactly if every call is
careful. -/
theorem archives_kept_iff (files : Path → Bool) (actions : List BackupAction) :
    (∀ pre s, pre <+: actions → run (retentionStep disk) (noBackups files) pre = some s →
        Kept disk s) ↔
      StepsMeet (retentionStep disk) (Careful disk) (noBackups files) actions := by
  obtain ⟨s, hrun⟩ := exists_run disk (noBackups files) actions
  have hempty : Kept disk (noBackups files) := by
    intro r hr
    simp [noBackups] at hr
  refine (stepsMeet_iff_forall_reached
    (fun _ _ _ hs (_ : True) hstep => ofCalls_retentionStep hs hstep) ?_ actions
    (noBackups files) s (ofCalls_noBackups files) hempty (fun _ _ => trivial) hrun).symm
  intro s action s' hcalls hkept _ hstep
  cases action with
  | create t encrypted outcome =>
      cases hstep
      exact kept_createBackup hkept hcalls t encrypted outcome
  | prune retention stop =>
      cases hstep
      exact kept_pruneBackups hkept hcalls retention stop
  | delete identifier committed =>
      cases hstep
      exact kept_deleteBackup hkept identifier committed

/-! ## Two backups in one second -/

def noon : LocalTime := ⟨2026, 7, 1, 12, 0, 0, 0, 0, by decide⟩

def afterNoon : LocalTime := { noon with microsecond := 400000 }

/-- No links, and the two directories. -/
def plainDisk : Disk where
  resolve path := path
  isDir path := path.isPrefixOf backupDir || path.isPrefixOf importsDir

def twoInOneSecond : List BackupAction :=
  [.create noon false .deployed, .create afterNoon false .deployed]

/-- **The second archive replaces the first.** -/
theorem replaced_in_one_second :
    ¬∀ pre s, pre <+: twoInOneSecond →
      run (retentionStep plainDisk) (noBackups fun _ => false) pre = some s →
        Kept plainDisk s := by
  intro hall
  have hfirst := hall [.create noon false .deployed] _ (List.take_prefix 1 twoInOneSecond) rfl
  have hsecond := hall twoInOneSecond _ List.prefix_rfl rfl
  have hcalls : OfCalls (createBackup plainDisk noon false .deployed (noBackups fun _ => false)) :=
    (ofCalls_noBackups _).createBackup _ _ _
  have hname : archiveName noon false = archiveName afterNoon false :=
    archiveName_inj.mpr ⟨rfl, rfl⟩
  refine (kept_createBackup hfirst hcalls afterNoon false .deployed).mp hsecond rfl
    ⟨⟨1, some (archivePath noon false), .deployed, 0⟩, List.mem_singleton_self _, rfl, _, rfl, ?_⟩
  rw [archivePath, hname]
  rfl

end AlderpointDNS.Backup.Retention
