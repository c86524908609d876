import AlderpointDNS.Backup.LeftOut
import AlderpointDNS.Lib.Tables
import AlderpointDNS.Lib.Windows

/-!
# The chunked copy of a table

`_merge_database` empties a table of the working copy and copies that of the archive into it: with
one `INSERT … SELECT`, or, if it is large and `_integer_pk_column` finds a column to go by, in
windows of the values of that column.  Any value can be in the archive, whatever type the column has
been declared with.

The constraints of the table are up to it: it rejects rows, and pairs of rows.  An error is `none`;
so is what Python raises when the least and the greatest value are no numbers.  Numbers are computed
with exactly.

* `plainCopy_rows` — the plain statement copies each row once.
* **`copyTable_perm_iff`** — which tables the copy leaves with the same rows as that statement.
* `walked_of_int` — among them those whose column holds nothing but whole numbers.
* `between_windows` — a value that falls between two windows.
-/

namespace AlderpointDNS.Backup.Chunks

open Text

/-! ## Tables -/

/-- A value that SQLite stores. -/
inductive Value where
  | null
  | number (q : ℚ)
  | text (s : Str)
  | blob (bytes : List UInt8)
  deriving DecidableEq

abbrev Row := Str → Value

/-- A row of `PRAGMA table_info`; `pk` is the place of the column in the primary key, from 1 on. -/
structure ColumnInfo where
  name : Str
  type : Str
  pk : ℕ
  deriving DecidableEq

/-- A table of the archive. -/
structure ArchiveTable where
  columns : List Str
  rows : List Row

/-- The table of that name in the working copy. -/
structure TargetTable where
  columns : List ColumnInfo
  /-- the column defaults -/
  default : Row
  /-- `NOT NULL` and `CHECK` -/
  rejects : Row → Bool
  /-- `PRIMARY KEY` and `UNIQUE` -/
  conflict : Row → Row → Bool
  symm : ∀ r s, conflict r s = conflict s r

/-! ## The copy -/

/-- `_integer_pk_column`. -/
def integerPkColumn (columns : List ColumnInfo) : Option Str :=
  match columns.filter (·.pk = 1) with
  | [column] =>
      if column.type.map Char.toUpper ∈ ["INTEGER".toList, "INT".toList] then some column.name
      else none
  | _ => none

/-- `shared`. -/
def shared (target : TargetTable) (archive : ArchiveTable) : List Str :=
  (target.columns.map (·.name)).filter (· ∈ archive.columns)

/-- A row of `INSERT INTO table(shared) SELECT shared`; `none` is rejected. -/
def inserted (target : TargetTable) (archive : ArchiveTable) (row : Row) : Option Row :=
  let new : Row := fun column =>
    if column ∈ shared target archive then row column else target.default column
  if target.rejects new then none else some new

/-- `DELETE FROM table`, `INSERT INTO table(shared) SELECT shared FROM backupdb.table`. -/
def plainCopy (target : TargetTable) (archive : ArchiveTable) :
    Option (LegalRows target.conflict) :=
  LegalRows.replace (archive.rows.map (inserted target archive))

/-- A number in the column. -/
def numberIn (column : Str) (row : Row) : Option ℚ :=
  match row column with
  | .number q => some q
  | _ => none

/-- The value comes behind all numbers. -/
def isText (column : Str) (row : Row) : Bool :=
  match row column with
  | .text _ | .blob _ => true
  | _ => false

/-- `SELECT min, max`, of the values other than NULL.  A text among them is the greatest one, and so
is the name of a column that the archive does not have; the comparison of the loop then raises, or
the addition. -/
def keyRange (column : Str) (archive : ArchiveTable) : Option (ℚ × ℚ) :=
  if column ∉ archive.columns ∨ archive.rows.any (isText column) then none
  else
    let numbers := archive.rows.filterMap (numberIn column)
    match numbers.min?, numbers.max? with
    | some lo, some hi => some (lo, hi)
    | _, _ => none

/-- `WHERE column BETWEEN ? AND ?`. -/
def between (column : Str) (window : ℚ × ℚ) (row : Row) : Bool :=
  match numberIn column row with
  | some q => window.1 ≤ q && q ≤ window.2
  | none => false

/-- The windows of `CHUNK_SIZE` that the loop goes through. -/
def chunkWindows (lo hi : ℚ) : List (ℚ × ℚ) := Windows.windows (chunkSize - 1).toNat lo hi

/-- The loop over the windows, and the check of the count behind it. -/
def chunkedCopy (target : TargetTable) (archive : ArchiveTable) (column : Str) :
    Option (LegalRows target.conflict) := do
  let (lo, hi) ← keyRange column archive
  let copied ← (chunkWindows lo hi).foldlM (fun rows window => rows.insertAll
    ((archive.rows.filter (between column window)).map (inserted target archive))) LegalRows.empty
  if copied.1.length = archive.rows.length then some copied else none

/-- What `_merge_database` does with a table that shares a column with the archive. -/
def copyTable (target : TargetTable) (archive : ArchiveTable) :
    Option (LegalRows target.conflict) :=
  match integerPkColumn target.columns with
  | some column =>
      if chunkRowThreshold < archive.rows.length then chunkedCopy target archive column
      else plainCopy target archive
  | none => plainCopy target archive

/-! ## What is in the windows -/

/-- From the least value in the column, every one is a number in one of the windows. -/
def Walked (archive : ArchiveTable) (column : Str) : Prop :=
  column ∈ archive.columns ∧ ∃ lo, (∃ row ∈ archive.rows, row column = .number lo) ∧
    ∀ row ∈ archive.rows, ∃ q, row column = .number q ∧
      Windows.Reached (chunkSize - 1).toNat lo q

/-- The copy in chunks is not made, or it reaches every row. -/
def Covers (target : TargetTable) (archive : ArchiveTable) : Prop :=
  ∀ column, integerPkColumn target.columns = some column →
    chunkRowThreshold < archive.rows.length → Walked archive column

variable {target : TargetTable} {archive : ArchiveTable} {column : Str} {lo hi : ℚ}

theorem numberIn_eq_some {row : Row} {q : ℚ} :
    numberIn column row = some q ↔ row column = .number q := by
  unfold numberIn
  cases row column <;> simp

theorem keyRange_eq_some (h : keyRange column archive = some (lo, hi)) :
    column ∈ archive.columns ∧ (∃ row ∈ archive.rows, row column = .number lo) ∧
      ∀ row ∈ archive.rows, ∀ q, row column = .number q → lo ≤ q ∧ q ≤ hi := by
  unfold keyRange at h
  split_ifs at h with hcolumn
  obtain ⟨hcolumn, -⟩ := not_or.mp hcolumn
  dsimp only at h
  split at h
  · rename_i lo' hi' hmin hmax
    cases h
    rw [List.min?_eq_some_iff] at hmin
    rw [List.max?_eq_some_iff] at hmax
    obtain ⟨row, hrow, hlo⟩ := List.mem_filterMap.mp hmin.1
    refine ⟨not_not.mp hcolumn, ⟨row, hrow, numberIn_eq_some.mp hlo⟩, fun row hrow q hq => ?_⟩
    have hmem := List.mem_filterMap.mpr ⟨row, hrow, numberIn_eq_some.mpr hq⟩
    exact ⟨hmin.2 q hmem, hmax.2 q hmem⟩
  · cases h

/-- The range of a column that holds nothing but numbers. -/
theorem exists_keyRange (hcolumn : column ∈ archive.columns) (hne : archive.rows ≠ [])
    (h : ∀ row ∈ archive.rows, ∃ q, row column = .number q) :
    ∃ lo hi, keyRange column archive = some (lo, hi) := by
  have htext : archive.rows.any (isText column) = false := by
    rw [List.any_eq_false]
    intro row hrow
    obtain ⟨q, hq⟩ := h row hrow
    simp [isText, hq]
  obtain ⟨row, hrow⟩ := List.exists_mem_of_ne_nil _ hne
  obtain ⟨q, hq⟩ := h row hrow
  have hnumbers : archive.rows.filterMap (numberIn column) ≠ [] :=
    List.ne_nil_of_mem (List.mem_filterMap.mpr ⟨row, hrow, numberIn_eq_some.mpr hq⟩)
  obtain ⟨lo, hlo⟩ := Option.ne_none_iff_exists'.mp (mt List.min?_eq_none_iff.mp hnumbers)
  obtain ⟨hi, hhi⟩ := Option.ne_none_iff_exists'.mp (mt List.max?_eq_none_iff.mp hnumbers)
  refine ⟨lo, hi, ?_⟩
  rw [keyRange, if_neg (by simp [hcolumn, htext])]
  dsimp only
  rw [hlo, hhi]

theorem between_eq_true {window : ℚ × ℚ} {row : Row} : between column window row = true ↔
    ∃ q, row column = .number q ∧ window.1 ≤ q ∧ q ≤ window.2 := by
  unfold between
  cases hq : numberIn column row with
  | none =>
      have hnone : ∀ q, row column ≠ .number q := fun q hrow => by
        rw [numberIn_eq_some.mpr hrow] at hq
        cases hq
      simp [hnone]
  | some q => simp [numberIn_eq_some.mp hq]

/-- A row is copied if its value is reached. -/
theorem any_between_iff {row : Row} (hhi : ∀ q, row column = .number q → q ≤ hi) :
    (chunkWindows lo hi).any (between column · row) = true ↔
      ∃ q, row column = .number q ∧ Windows.Reached (chunkSize - 1).toNat lo q := by
  rw [List.any_eq_true]
  simp only [between_eq_true]
  constructor
  · rintro ⟨w, hw, q, hq, hlow, hhigh⟩
    exact ⟨q, hq, (Windows.exists_window_iff.mp ⟨w, hw, hlow, hhigh⟩).2⟩
  · rintro ⟨q, hq, hreached⟩
    obtain ⟨w, hw, hlow, hhigh⟩ := Windows.exists_window_iff.mpr ⟨hhi q hq, hreached⟩
    exact ⟨w, hw, q, hq, hlow, hhigh⟩

/-- What the windows take. -/
theorem perm_chunks (column : Str) (lo hi : ℚ) (rows : List Row) :
    ((chunkWindows lo hi).flatMap fun w => rows.filter (between column w)).Perm
      (rows.filter fun row => (chunkWindows lo hi).any (between column · row)) := by
  refine Windows.perm_flatMap_filter ?_ rows
  refine (Windows.windows_pairwise (chunkSize - 1).toNat lo hi).imp fun {v w} hvw row hv => ?_
  obtain ⟨q, hq, -, hhigh⟩ := between_eq_true.mp hv
  rw [Bool.eq_false_iff]
  intro hw
  obtain ⟨q', hq', hlow, -⟩ := between_eq_true.mp hw
  obtain rfl : q = q' := by simpa [hq] using hq'
  exact absurd (hlow.trans hhigh) (not_le.mpr hvw)

/-! ## The two copies -/

variable {plain copied : LegalRows target.conflict}

/-- **The plain statement** copies each row of the archive once, and nothing else. -/
theorem plainCopy_rows (h : plainCopy target archive = some plain) :
    plain.1.map some = archive.rows.map (inserted target archive) :=
  (LegalRows.replace_eq_some _ plain).mp h

theorem length_plainCopy (h : plainCopy target archive = some plain) :
    plain.1.length = archive.rows.length := by
  have hlength := congrArg List.length (plainCopy_rows h)
  rwa [List.length_map, List.length_map] at hlength

/-- The rows that the windows take, in their order. -/
def chunks (archive : ArchiveTable) (column : Str) (lo hi : ℚ) : List Row :=
  (chunkWindows lo hi).flatMap fun w => archive.rows.filter (between column w)

theorem chunkedCopy_eq_some : chunkedCopy target archive column = some copied ↔
    ∃ lo hi, keyRange column archive = some (lo, hi) ∧
      LegalRows.replace ((chunks archive column lo hi).map (inserted target archive))
        = some copied ∧ copied.1.length = archive.rows.length := by
  have hloop : ∀ lo hi, (chunkWindows lo hi).foldlM
      (fun (rows : LegalRows target.conflict) window => rows.insertAll
        ((archive.rows.filter (between column window)).map (inserted target archive)))
      LegalRows.empty
      = LegalRows.replace ((chunks archive column lo hi).map (inserted target archive)) := by
    intro lo hi
    rw [LegalRows.foldlM_insertAll, chunks, List.map_flatMap]
    rfl
  unfold chunkedCopy
  constructor
  · intro h
    obtain ⟨⟨lo, hi⟩, hrange, h⟩ := Option.bind_eq_some_iff.mp h
    obtain ⟨result, hresult, h⟩ := Option.bind_eq_some_iff.mp h
    split_ifs at h with hcount
    cases h
    exact ⟨lo, hi, hrange, (hloop lo hi).symm.trans hresult, hcount⟩
  · rintro ⟨lo, hi, hrange, hresult, hcount⟩
    refine Option.bind_eq_some_iff.mpr ⟨(lo, hi), hrange, ?_⟩
    exact Option.bind_eq_some_iff.mpr ⟨copied, (hloop lo hi).trans hresult, if_pos hcount⟩

/-- A copy in chunks that succeeds has taken every row. -/
theorem walked_of_chunkedCopy (h : chunkedCopy target archive column = some copied) :
    Walked archive column := by
  obtain ⟨lo, hi, hrange, hresult, hcount⟩ := chunkedCopy_eq_some.mp h
  obtain ⟨hcolumn, hlo, hbounds⟩ := keyRange_eq_some hrange
  have hlength : copied.1.length = (chunks archive column lo hi).length := by
    have hmap := congrArg List.length ((LegalRows.replace_eq_some _ copied).mp hresult)
    rwa [List.length_map, List.length_map] at hmap
  have hperm := perm_chunks column lo hi archive.rows
  have hall := List.length_filter_eq_length_iff.mp
    (hperm.length_eq.symm.trans (hlength.symm.trans hcount))
  exact ⟨hcolumn, lo, hlo, fun row hrow =>
    (any_between_iff fun q hq => (hbounds row hrow q hq).2).mp (hall row hrow)⟩

/-- Where every row is reached, the windows take all of them. -/
theorem perm_chunks_of_walked (h : Walked archive column) : ∃ lo hi,
    keyRange column archive = some (lo, hi) ∧
      (chunks archive column lo hi).Perm archive.rows := by
  obtain ⟨hcolumn, least, ⟨row, hrow, hleast⟩, hreached⟩ := h
  obtain ⟨lo, hi, hrange⟩ := exists_keyRange hcolumn (List.ne_nil_of_mem hrow)
    fun row hrow => (hreached row hrow).imp fun q hq => hq.1
  obtain ⟨-, ⟨row', hrow', hlo⟩, hbounds⟩ := keyRange_eq_some hrange
  have hsame : least = lo := by
    obtain ⟨q, hq, hq'⟩ := hreached row' hrow'
    obtain rfl : q = lo := by simpa [hq] using hlo
    exact le_antisymm (Windows.start_le_of_reached hq') (hbounds row hrow least hleast).1
  subst hsame
  refine ⟨least, hi, hrange, (perm_chunks column least hi archive.rows).trans ?_⟩
  rw [List.filter_eq_self.mpr fun row hrow =>
    (any_between_iff fun q hq => (hbounds row hrow q hq).2).mpr (hreached row hrow)]

/-- The copy in chunks, beside the plain statement. -/
theorem chunkedCopy_perm_iff (hplain : plainCopy target archive = some plain) :
    (∃ copied, chunkedCopy target archive column = some copied ∧ copied.1.Perm plain.1) ↔
      Walked archive column := by
  constructor
  · rintro ⟨copied, hcopied, -⟩
    exact walked_of_chunkedCopy hcopied
  · intro hwalked
    obtain ⟨lo, hi, hrange, hperm⟩ := perm_chunks_of_walked hwalked
    obtain ⟨copied, hcopied, hsame⟩ := LegalRows.replace_perm target.symm
      (hperm.symm.map (inserted target archive)) hplain
    refine ⟨copied, chunkedCopy_eq_some.mpr ⟨lo, hi, hrange, hcopied, ?_⟩, hsame⟩
    rw [hsame.length_eq, length_plainCopy hplain]

/-- What the plain statement does not copy, the chunks do not. -/
theorem copyTable_eq_none (hplain : plainCopy target archive = none) :
    copyTable target archive = none := by
  unfold copyTable
  cases hcolumn : integerPkColumn target.columns with
  | none => exact hplain
  | some column =>
      split_ifs with hlarge
      · rw [Option.eq_none_iff_forall_ne_some]
        intro copied hcopied
        obtain ⟨lo, hi, hrange, hperm⟩ :=
          perm_chunks_of_walked (walked_of_chunkedCopy hcopied)
        obtain ⟨lo', hi', hrange', hresult, -⟩ := chunkedCopy_eq_some.mp hcopied
        obtain ⟨rfl, rfl⟩ : lo = lo' ∧ hi = hi' := by simpa [hrange] using hrange'
        obtain ⟨plain, hsome, -⟩ := LegalRows.replace_perm target.symm
          (hperm.map (inserted target archive)) hresult
        have hnone : plainCopy target archive = some plain := hsome
        rw [hplain] at hnone
        cases hnone
      · exact hplain

/-- Whole numbers are all reached, however far apart. -/
theorem walked_of_int (hcolumn : column ∈ archive.columns) (hne : archive.rows ≠ [])
    (h : ∀ row ∈ archive.rows, ∃ n : ℤ, row column = .number n) : Walked archive column := by
  obtain ⟨lo, hi, hrange⟩ := exists_keyRange hcolumn hne
    fun row hrow => (h row hrow).imp' (fun n : ℤ => (n : ℚ)) fun n hn => hn
  obtain ⟨-, ⟨row, hrow, hlo⟩, hbounds⟩ := keyRange_eq_some hrange
  refine ⟨hcolumn, lo, ⟨row, hrow, hlo⟩, fun row' hrow' => ?_⟩
  obtain ⟨a, ha⟩ := h row hrow
  obtain ⟨b, hb⟩ := h row' hrow'
  obtain rfl : (a : ℚ) = lo := by simpa [ha] using hlo
  have hle : a ≤ b := by exact_mod_cast (hbounds row' hrow' b hb).1
  exact ⟨b, hb, Windows.reached_of_int hle⟩

/-! ## Buckets -/

def bucketStart : Str := "bucket_start".toList

def resolverId : Str := "resolver_id".toList

def resolverName : Str := "resolver_name".toList

/-- The key of `upstream_resolver_aggregate_buckets`, in which NULL differs from NULL. -/
def buckets : TargetTable where
  columns := [⟨bucketStart, "INTEGER".toList, 1⟩, ⟨resolverId, "INTEGER".toList, 2⟩,
    ⟨resolverName, "TEXT".toList, 3⟩]
  default _ := .null
  rejects row := row bucketStart = .null || row resolverName = .null
  conflict r s := r bucketStart = s bucketStart && r resolverName = s resolverName &&
    (r resolverId = s resolverId && r resolverId ≠ .null)
  symm r s := by
    by_cases hid : r resolverId = s resolverId
    · simp [hid, eq_comm]
    · simp [hid, Ne.symm hid]

/-- A bucket of a resolver that has been deleted. -/
def bucketRow (q : ℚ) : Row := fun column =>
  if column = bucketStart then .number q else if column = resolverName then .text [] else .null

/-- Such buckets, in an archive. -/
def bucketArchive (values : List ℚ) : ArchiveTable :=
  ⟨[bucketStart, resolverId, resolverName], values.map bucketRow⟩

theorem plainCopy_buckets (values : List ℚ) :
    ∃ plain, plainCopy buckets (bucketArchive values) = some plain := by
  have hnames : bucketStart ≠ resolverId ∧ resolverName ≠ resolverId ∧
      resolverName ≠ bucketStart := by
    decide
  have hsame : ∀ q, inserted buckets (bucketArchive values) (bucketRow q) = some (bucketRow q) := by
    intro q
    have hnew : (fun column => if column ∈ shared buckets (bucketArchive values)
        then bucketRow q column else buckets.default column) = bucketRow q := by
      funext column
      by_cases hcolumn : column ∈ shared buckets (bucketArchive values)
      · rw [if_pos hcolumn]
      · rw [if_neg hcolumn]
        simp only [shared, buckets, bucketArchive, List.map_cons, List.map_nil, List.mem_filter,
          List.mem_cons, List.not_mem_nil, or_false, decide_eq_true_eq, and_self] at hcolumn
        obtain ⟨hbucket, -, hname⟩ := by simpa only [not_or] using hcolumn
        rw [bucketRow, if_neg hbucket, if_neg hname]
        rfl
    rw [inserted, hnew]
    simp [buckets, bucketRow, hnames.2.2]
  have hlegal : (values.map bucketRow).Pairwise fun r s => buckets.conflict r s = false := by
    refine List.pairwise_map.mpr (List.pairwise_of_forall fun q q' => ?_)
    simp [buckets, bucketRow, hnames.1.symm, hnames.2.1.symm]
  refine ⟨⟨values.map bucketRow, hlegal⟩, (LegalRows.replace_eq_some _ _).mpr ?_⟩
  rw [bucketArchive, List.map_map, List.map_map]
  exact List.map_congr_left fun q _ => (hsame q).symm

/-- Buckets that are far apart, the first one negative. -/
def sparseValues (count : ℕ) : List ℚ :=
  (List.range count).map fun n : ℕ => ((1000000000 * (n : ℤ) - 7 : ℤ) : ℚ)

theorem covers_sparse {count : ℕ} (hpos : 0 < count) :
    Covers buckets (bucketArchive (sparseValues count)) := by
  intro column hcolumn _
  obtain rfl : bucketStart = column := Option.some.inj hcolumn
  have hne : (bucketArchive (sparseValues count)).rows ≠ [] :=
    List.ne_nil_of_mem (List.mem_map_of_mem (List.mem_map.mpr ⟨0, List.mem_range.mpr hpos, rfl⟩))
  refine walked_of_int (List.mem_cons_self ..) hne fun row hrow => ?_
  obtain ⟨q, hq, rfl⟩ := List.mem_map.mp hrow
  obtain ⟨n, -, rfl⟩ := List.mem_map.mp hq
  exact ⟨1000000000 * n - 7, if_pos rfl⟩

/-- The last bucket begins half a second before the second window. -/
def fractionalValues (count : ℕ) : List ℚ :=
  (List.range count).map (fun n : ℕ => (n : ℚ)) ++ [199999.5]

/-- It is in no window. -/
theorem not_walked_fractional {count : ℕ} (hpos : 0 < count) :
    ¬Walked (bucketArchive (fractionalValues count)) bucketStart := by
  rintro ⟨-, lo, ⟨row, hrow, hlo⟩, hreached⟩
  have hvalue : ∀ q, bucketRow q bucketStart = .number q := fun q => if_pos rfl
  have hmem : ∀ q, q ∈ fractionalValues count → Windows.Reached 199999 lo q := by
    intro q hq
    obtain ⟨q', hq', hwindow⟩ := hreached (bucketRow q) (List.mem_map_of_mem hq)
    obtain rfl : q = q' := by simpa [hvalue] using hq'
    exact hwindow
  -- the windows begin at the first bucket
  have hzero : lo = 0 := by
    obtain ⟨q, hq, rfl⟩ := List.mem_map.mp hrow
    obtain rfl : q = lo := by simpa [hvalue] using hlo
    have hle : q ≤ 0 := Windows.start_le_of_reached
      (hmem 0 (List.mem_append_left _ (List.mem_map.mpr ⟨0, by simp [hpos], by simp⟩)))
    rcases List.mem_append.mp hq with hq | hq
    · obtain ⟨n, -, rfl⟩ := List.mem_map.mp hq
      exact le_antisymm hle (Nat.cast_nonneg n)
    · rw [List.mem_singleton.mp hq] at hle
      norm_num at hle
  subst hzero
  obtain ⟨k, hlow, hhigh⟩ := hmem 199999.5 (List.mem_append_right _ (List.mem_singleton_self _))
  cases k with
  | zero => norm_num at hhigh
  | succ k =>
      have hk : (0 : ℚ) ≤ k := Nat.cast_nonneg k
      push_cast at hlow
      linarith

/-- A large archive with such a bucket. -/
theorem copyTable_fractional {count : ℕ} (hlarge : chunkRowThreshold ≤ count) :
    copyTable buckets (bucketArchive (fractionalValues count)) = none := by
  have hcolumn : integerPkColumn buckets.columns = some bucketStart := by decide
  have hrows : chunkRowThreshold < (bucketArchive (fractionalValues count)).rows.length := by
    simp [bucketArchive, fractionalValues]
    omega
  have hpos : 0 < count := (show 0 < chunkRowThreshold by decide).trans_le hlarge
  rw [copyTable, hcolumn]
  dsimp only
  rw [if_pos hrows, Option.eq_none_iff_forall_ne_some]
  intro copied hcopied
  exact not_walked_fractional hpos (walked_of_chunkedCopy hcopied)

end AlderpointDNS.Backup.Chunks
