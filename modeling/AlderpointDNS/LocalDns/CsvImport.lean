import AlderpointDNS.Importer.Outcomes
import AlderpointDNS.Lib.Commits
import AlderpointDNS.Lib.Csv
import AlderpointDNS.Numbers

/-!
# The CSV of the Local DNS page

`csv_import` validates all rows of a text and then adds one after the other with `add_record`.  Each
of these is a transaction of its own, and only there the rows meet the conflicts and the uniqueness
of the records, those of the rows before them among them.

* `csvPreview`, `csvImport` — the two functions;
* `addCsvRecord_isSome_iff` — when a row is added;
* **`csv_import_atomic_iff`** — the import adds a record for each row or leaves the records alone,
  exactly when no row but the first is refused after the rows before it were added;
* `second_row_refused` — two addresses for one name.
-/

namespace AlderpointDNS.LocalDns

open Text
open Importer (ImportData ValidRecord validateRecord pairwise_newRecord accept_eq_some_iff)

/-! ## Rows -/

/-- A row of the reader. -/
abbrev CsvRow := Dict Str (Option Str)

/-- `row.get(name, "")`; with `None` for it the validation raises. -/
def CsvRow.cell (row : CsvRow) (name : Str) : Option Str := (row.lookup name).getD (some [])

/-- `int(row.get("ttl", 300))`. -/
def CsvRow.ttl (row : CsvRow) : Option ℤ :=
  match row.lookup "ttl".toList with
  | none => some 300
  | some text => text.bind intOf

/-- The `record` of a valid row. -/
structure CsvRecord where
  record : ValidRecord
  comment : Str
  enabled : Bool

/-- An entry of `csv_preview`; the record and its warnings, or `valid` is `False`. -/
structure CsvItem where
  line : ℕ
  found : Option (CsvRecord × List Str)

section Import

variable (d : ImportData)

/-- What `csv_preview` makes of a row. -/
def previewRow (rows : RecordRows) (row : CsvRow) : Option (CsvRecord × List Str) := do
  let recordType ← row.cell "record_type".toList
  let fqdn ← row.cell "fqdn".toList
  let value ← row.cell "value".toList
  let record ← validateRecord d.toParserData recordType fqdn value row.ttl
  let findings ← recordFindings d.localData rows.1 record.name.1 record.recordType record.value none
  let comment := (row.lookup "comment".toList).join.getD []
  -- `None` is the text `None`
  let enabled : Bool := (row.lookup "enabled".toList).join ≠ some "0".toList
  return (⟨record, comment, enabled⟩, findings.map (·.message))

/-- The entry of a row and its number. -/
def csvItem (rows : RecordRows) (row : CsvRow × ℕ) : CsvItem := ⟨row.2, previewRow d rows row.1⟩

/-- `csv_preview`; `none` is an error of the reader. -/
def csvPreview (text : Str) (rows : RecordRows) : Option (List CsvItem) :=
  (Csv.dictRows text).map fun csvRows => (csvRows.zipIdx 2).map (csvItem d rows)

/-- One `add_record`, and `count += 1`. -/
def addCsvRecord (override : Bool) (s : ℕ × RecordRows) (c : CsvRecord) : Option (ℕ × RecordRows) :=
  (addRecord d.localData c.record.recordType c.record.name.1 c.record.value (some c.record.ttl)
    c.comment c.enabled override s.2).map fun added => (s.1 + 1, added.2)

/-- `csv_import`: what it returns, and the records afterwards. -/
def csvImport (text : Str) (override : Bool) (rows : RecordRows) : Option ℕ × RecordRows :=
  match (csvPreview d text rows).bind fun preview => preview.mapM CsvItem.found with
  | none => (none, rows)
  | some found =>
      match Commits.each (addCsvRecord d override) (0, rows) (found.map (·.1)) with
      | (true, count, rows) => (some count, rows)
      | (false, _, rows) => (none, rows)

/-! ## The records of the rows -/

/-- The valid records of the rows, when there is no other row. -/
def csvRecords (text : Str) (rows : RecordRows) : Option (List CsvRecord) :=
  (Csv.dictRows text).bind fun csvRows => csvRows.mapM fun row => (previewRow d rows row).map (·.1)

/-- `add_record` stores this record for the row. -/
def CsvRecord.StoredAs (c : CsvRecord) (r : DnsRecord) : Prop :=
  (normalizeDomain d.toUnicodeData c.record.name.1).map (·.1) = some r.fqdn ∧
    r.recordType = c.record.recordType ∧
    validateValue d.toUnicodeData c.record.recordType c.record.value = some r.value ∧
    validateTtl (some c.record.ttl) = some r.ttl ∧ r.comment = c.comment ∧ r.enabled = c.enabled

/-- The row can be added to the records: it is still valid, it is in no conflict, or overrides it,
and it is not there yet. -/
def CsvRecord.Fits (c : CsvRecord) (override : Bool) (rows : RecordRows) : Prop :=
  ∃ name ttl value,
    normalizeDomain d.toUnicodeData c.record.name.1 = some name ∧
    validateTtl (some c.record.ttl) = some ttl ∧
    validateValue d.toUnicodeData c.record.recordType c.record.value = some value ∧
    (∃ findings, recordFindings d.localData rows.1 name.1 c.record.recordType value none
        = some findings ∧ (override = true ∨ ∀ f ∈ findings, f.severity ≠ .conflict)) ∧
    ∀ r ∈ rows.1, ¬(r.fqdn = name.1 ∧ r.recordType = c.record.recordType ∧ r.value = value)

variable {d}

theorem check_eq_some_iff {l : List DnsRecord} {t : RecordRows} :
    LegalRows.check l = some t ↔ t.1 = l := by
  refine ⟨LegalRows.check_eq_some, fun h => ?_⟩
  subst h
  exact dif_pos t.2

/-- What `add_record` adds. -/
theorem addCsvRecord_eq_some {override : Bool} {s s' : ℕ × RecordRows} {c : CsvRecord}
    (h : addCsvRecord d override s c = some s') :
    c.Fits d override s.2 ∧ s'.1 = s.1 + 1 ∧ ∃ r, s'.2.1 = s.2.1 ++ [r] ∧ c.StoredAs d r := by
  rw [addCsvRecord, Option.map_eq_some_iff] at h
  obtain ⟨⟨messages, rows'⟩, hadd, rfl⟩ := h
  simp only [addRecord, Option.bind_eq_bind, Option.bind_eq_some_iff, Option.pure_def,
    Option.some.injEq, Prod.mk.injEq] at hadd
  obtain ⟨name, hname, ttl, httl, value, hvalue, findings, hfindings, messages', haccept, t, ht, -,
    rfl⟩ := hadd
  have hrows := LegalRows.check_eq_some ht
  refine ⟨⟨name, ttl, value, hname, httl, hvalue,
    ⟨findings, hfindings, accept_eq_some_iff.mp ⟨messages', haccept⟩⟩, fun r hr hkey => ?_⟩, rfl,
    _, hrows, ?_, rfl, hvalue, httl, rfl, rfl⟩
  · have hpairwise := t.2
    rw [hrows] at hpairwise
    have hfree := (List.pairwise_append.mp hpairwise).2.2 r hr _ (List.mem_singleton_self _)
    simp [recordConflict, DnsRecord.sameKey, newRecord, hkey] at hfree
  · rw [show normalizeDomain d.toUnicodeData c.record.name.1 = some name from hname]
    rfl

/-- **When `add_record` adds the row.** -/
theorem addCsvRecord_isSome_iff {override : Bool} {s : ℕ × RecordRows} {c : CsvRecord} :
    (addCsvRecord d override s c).isSome = true ↔ c.Fits d override s.2 := by
  constructor
  · intro h
    obtain ⟨s', hs'⟩ := Option.isSome_iff_exists.mp h
    exact (addCsvRecord_eq_some hs').1
  · rintro ⟨name, ttl, value, hname, httl, hvalue, ⟨findings, hfindings, hconflict⟩, hfree⟩
    obtain ⟨messages, haccept⟩ := accept_eq_some_iff.mpr hconflict
    have hlegal := pairwise_newRecord s.2 (newRecord (nextId s.2.1) c.record.recordType name
      value ttl c.comment c.enabled) rfl fun r hr => by
        rw [← Bool.not_eq_true, DnsRecord.sameKey, Bool.and_eq_true, Bool.and_eq_true,
          decide_eq_true_eq, decide_eq_true_eq, decide_eq_true_eq, and_assoc]
        exact hfree r hr
    have hcheck : LegalRows.check _ = some ⟨_, hlegal⟩ := check_eq_some_iff.mpr rfl
    have hname' : normalizeDomain d.localData.toUnicodeData c.record.name.1 = some name :=
      hname
    have hvalue' : validateValue d.localData.toUnicodeData c.record.recordType c.record.value
      = some value := hvalue
    simp only [addCsvRecord, addRecord, hname', httl, hvalue', hfindings, haccept, hcheck,
      Option.bind_eq_bind, Option.bind_some, Option.pure_def, Option.map_some, Option.isSome_some]

/-! ## The import -/

theorem mapM_items (rows : RecordRows) (csvRows : List CsvRow) (line : ℕ) :
    (((csvRows.zipIdx line).map (csvItem d rows)).mapM CsvItem.found).map (·.map (·.1))
      = csvRows.mapM fun row => (previewRow d rows row).map (·.1) := by
  induction csvRows generalizing line with
  | nil => rfl
  | cons row csvRows ih =>
      rw [List.zipIdx_cons, List.map_cons, List.mapM_cons, List.mapM_cons, ← ih (line + 1), csvItem]
      cases previewRow d rows row with
      | none => rfl
      | some found =>
          simp only [Option.bind_eq_bind, Option.bind_some, Option.map_some, Option.pure_def]
          cases ((csvRows.zipIdx (line + 1)).map (csvItem d rows)).mapM CsvItem.found with
          | none => rfl
          | some founds => rfl

/-- The import by the records of the rows. -/
theorem csvImport_eq (text : Str) (override : Bool) (rows : RecordRows) :
    csvImport d text override rows =
      match csvRecords d text rows with
      | none => (none, rows)
      | some records =>
          match Commits.each (addCsvRecord d override) (0, rows) records with
          | (true, count, rows) => (some count, rows)
          | (false, _, rows) => (none, rows) := by
  rw [csvImport, csvPreview, csvRecords]
  cases Csv.dictRows text with
  | none => rfl
  | some csvRows =>
      rw [Option.map_some, Option.bind_some, Option.bind_some, ← mapM_items rows csvRows 2]
      cases ((csvRows.zipIdx 2).map (csvItem d rows)).mapM CsvItem.found with
      | none => rfl
      | some found => rfl

/-- What is added when every row is. -/
theorem added_of_foldlM {override : Bool} {records : List CsvRecord} {s t : ℕ × RecordRows}
    (h : records.foldlM (addCsvRecord d override) s = some t) :
    t.1 = s.1 + records.length ∧
      ∃ added, t.2.1 = s.2.1 ++ added ∧ List.Forall₂ (fun c r => c.StoredAs d r) records added := by
  induction records generalizing s with
  | nil =>
      rw [← Option.some.inj h]
      exact ⟨rfl, [], (List.append_nil _).symm, .nil⟩
  | cons c records ih =>
      rw [List.foldlM_cons, Option.bind_eq_bind, Option.bind_eq_some_iff] at h
      obtain ⟨u, hu, h⟩ := h
      obtain ⟨-, hcount, r, hrows, hstored⟩ := addCsvRecord_eq_some hu
      obtain ⟨hcount', added, hrows', hadded⟩ := ih h
      refine ⟨?_, r :: added, ?_, .cons hstored hadded⟩
      · rw [hcount', hcount, List.length_cons]
        omega
      · rw [hrows', hrows, List.append_assoc, List.singleton_append]

theorem length_lt_add {override : Bool} (s : ℕ × RecordRows) (c : CsvRecord) (t : ℕ × RecordRows)
    (h : addCsvRecord d override s c = some t) : s.2.1.length < t.2.1.length := by
  obtain ⟨-, -, r, hrows, -⟩ := addCsvRecord_eq_some h
  rw [hrows, List.length_append, List.length_singleton]
  exact Nat.lt_succ_self _

variable (d)

/-- The import returns the number of the rows and has added a record for each of them, in order, or
it raises and leaves the records as they were. -/
def ImportAtomic (text : Str) (override : Bool) (rows : RecordRows) : Prop :=
  match csvImport d text override rows with
  | (some count, rows') =>
      ∃ csvRows added, Csv.dictRows text = some csvRows ∧ count = csvRows.length ∧
        rows'.1 = rows.1 ++ added ∧
        List.Forall₂ (fun row r => ∃ c warnings, previewRow d rows row = some (c, warnings) ∧
          c.StoredAs d r) csvRows added
  | (none, rows') => rows' = rows

/-- Every row but the first fits the records after the rows before it. -/
def LateRowsFit (text : Str) (override : Bool) (rows : RecordRows) : Prop :=
  ∀ records, csvRecords d text rows = some records →
    ∀ before c after t, records = before ++ c :: after → before ≠ [] →
      before.foldlM (addCsvRecord d override) (0, rows) = some t → c.Fits d override t.2

theorem forall₂_of_mapM {rows : RecordRows} {csvRows : List CsvRow} {records : List CsvRecord}
    {added : List DnsRecord}
    (h : (csvRows.mapM fun row => (previewRow d rows row).map (·.1)) = some records)
    (hadded : List.Forall₂ (fun c r => c.StoredAs d r) records added) :
    List.Forall₂ (fun row r => ∃ c warnings, previewRow d rows row = some (c, warnings) ∧
      c.StoredAs d r) csvRows added := by
  induction csvRows generalizing records added with
  | nil =>
      cases h
      cases hadded
      exact .nil
  | cons row csvRows ih =>
      simp only [List.mapM_cons, Option.bind_eq_bind, Option.bind_eq_some_iff, Option.pure_def,
        Option.some.injEq, Option.map_eq_some_iff, Prod.exists] at h
      obtain ⟨_, ⟨c, warnings, hrow, rfl⟩, records, hrecords, rfl⟩ := h
      cases hadded with
      | cons hc hadded => exact .cons ⟨c, warnings, hrow, hc⟩ (ih hrecords hadded)

/-- For every text, flag and table the import adds one record for each row or leaves the records as
they were, exactly when no row but the first is refused after the rows before it were added. -/
theorem csv_import_atomic_iff (text : Str) (override : Bool) (rows : RecordRows) :
    ImportAtomic d text override rows ↔ LateRowsFit d text override rows := by
  rw [ImportAtomic, csvImport_eq]
  cases hrecords : csvRecords d text rows with
  | none => exact iff_of_true rfl fun records h => by rw [hrecords] at h; cases h
  | some records =>
      have hlate : LateRowsFit d text override rows ↔
          Commits.LateAccepted (addCsvRecord d override) (0, rows) records := by
        rw [LateRowsFit, hrecords]
        simp only [Option.some.injEq, forall_eq', Commits.LateAccepted, addCsvRecord_isSome_iff]
      rw [hlate, ← Commits.unchanged_iff length_lt_add]
      rcases Commits.each_cases (f := addCsvRecord d override) records (0, rows) with
        ⟨⟨count, rows'⟩, hfold, heach⟩ | ⟨before, c, after, ⟨count, rows'⟩, -, hfold, -, heach⟩
      · simp only [heach, Bool.true_eq_false, false_imp_iff, iff_true]
        obtain ⟨csvRows, hcsv, hmap⟩ := Option.bind_eq_some_iff.mp hrecords
        obtain ⟨hcount, added, hrows, hadded⟩ := added_of_foldlM hfold
        have hrowed := forall₂_of_mapM d hmap hadded
        refine ⟨csvRows, added, hcsv, ?_, hrows, hrowed⟩
        have hcount : count = 0 + records.length := hcount
        rw [hcount, hadded.length_eq, ← hrowed.length_eq, Nat.zero_add]
      · simp only [heach, true_imp_iff]
        obtain ⟨-, added, hrows, -⟩ := added_of_foldlM hfold
        have hrows : rows'.1 = rows.1 ++ added := hrows
        constructor
        · rintro rfl
          rfl
        · intro hlength
          have hnil : added = [] := by
            rw [hrows, List.length_append] at hlength
            exact List.length_eq_zero_iff.mp (by omega)
          rw [hnil, List.append_nil] at hrows
          exact Subtype.ext hrows

end Import

/-! ### Two addresses for one name

The rows are valid, and there is no record yet; the second row conflicts with the first. -/

/-- Tables for text that is ASCII. -/
def asciiImportData : ImportData :=
  { lower := id, idna := some, upper := id, isAlnum := fun _ => false, compileError := fun _ => none
    isPrivate := fun _ => true }

def twoAddresses : Str :=
  "fqdn,record_type,value\na.home.arpa,A,10.0.0.1\na.home.arpa,A,10.0.0.2\n".toList

theorem second_row_refused : ¬ImportAtomic asciiImportData twoAddresses false LegalRows.empty := by
  have hraised : (csvImport asciiImportData twoAddresses false LegalRows.empty).1 = none ∧
      (csvImport asciiImportData twoAddresses false LegalRows.empty).2.1.length = 1 := by
    decide +kernel
  intro h
  rw [ImportAtomic] at h
  generalize csvImport asciiImportData twoAddresses false LegalRows.empty = result at hraised h
  obtain ⟨count, rows⟩ := result
  obtain ⟨rfl, hlength⟩ := hraised
  have h : rows = LegalRows.empty := h
  rw [h] at hlength
  cases hlength

end AlderpointDNS.LocalDns
