import AlderpointDNS.Lib.CsvText
import AlderpointDNS.LocalDns.CsvImport
import AlderpointDNS.LocalDns.RecordContents
import Mathlib.Data.List.Infix

/-!
# Export and import

`csv_export` writes all records in the order of their names, and `csv_import` validates the names,
the values and the TTLs of its rows again.

* `csvExport`, `RoundTrips` — the export, and that its import into an empty table gives the same
  records;
* `isStable_of_roundTrips`, `roundTrips_of_isStable` — a table round trips exactly when the
  validation keeps its records;
* **`csv_round_trip_iff`** — along a run every table round trips exactly when every operation meets
  `KeepsNames`;
* `long_host_name` — a label before a domain of 253 characters.
-/

namespace AlderpointDNS.LocalDns

open Text Ipaddress
open Importer (ImportData validateRecord)

/-! ## The export -/

/-- The header of the export. -/
def csvHeader : List Str :=
  ["fqdn", "record_type", "value", "ttl", "enabled", "comment"].map String.toList

/-- The row of a record. -/
def DnsRecord.cells (r : DnsRecord) : List Str :=
  [r.fqdn, r.recordType.text, r.value, number r.ttl, if r.enabled then ['1'] else ['0'], r.comment]

/-- `csv_export` of the rows that the query returns. -/
def csvExport (selected : List DnsRecord) : Str :=
  Csv.write (csvHeader :: selected.map DnsRecord.cells)

/-- `ORDER BY fqdn`, which leaves the order of the records of a name open. -/
structure Selects (rows : RecordRows) (selected : List DnsRecord) : Prop where
  perm : selected.Perm rows.1
  ordered : selected.Pairwise fun r s => r.fqdn ≤ s.fqdn

/-- `(fqdn, record_type, value, ttl, enabled, comment)`. -/
def DnsRecord.exported (r : DnsRecord) : RecordContent × Bool × Str :=
  (r.content, r.enabled, r.comment)

/-- Python's `csv` reads back what it wrote. -/
def ReadsBack (rows : RecordRows) : Prop :=
  ∀ selected, Selects rows selected →
    Csv.records (csvExport selected) = some (csvHeader :: selected.map DnsRecord.cells)

/-- The import of an export into an empty table, with `override`, adds every record of the export
and no other. -/
def RoundTrips (d : ImportData) (rows : RecordRows) : Prop :=
  ∀ selected, Selects rows selected →
    ∃ imported : RecordRows,
      csvImport d (csvExport selected) true LegalRows.empty = (some selected.length, imported) ∧
        ∀ row, row ∈ imported.1.map DnsRecord.exported ↔ row ∈ rows.1.map DnsRecord.exported

theorem selects_sortBy (rows : RecordRows) : Selects rows (sortBy (·.fqdn) rows.1) :=
  ⟨sortBy_perm _ _, sortBy_pairwise _ _⟩

/-- Fields that are not too long are read back. -/
theorem readsBack_of_short {rows : RecordRows}
    (h : ∀ r ∈ rows.1, ∀ cell ∈ r.cells, cell.length ≤ Csv.fieldSizeLimit) : ReadsBack rows := by
  intro selected hselected
  refine Csv.records_write ?_ ?_
  · intro row hrow
    rcases List.mem_cons.mp hrow with rfl | hrow
    · decide
    · obtain ⟨r, -, rfl⟩ := List.mem_map.mp hrow
      exact List.cons_ne_nil _ _
  · intro row hrow
    rcases List.mem_cons.mp hrow with rfl | hrow
    · decide
    · obtain ⟨r, hr, rfl⟩ := List.mem_map.mp hrow
      exact h r (hselected.perm.mem_iff.mp hr)

/-! ## A row is validated again -/

section Rows

variable {d : ImportData}

/-- The cells under their names. -/
theorem lookup_rowDict (r : DnsRecord) :
    (Csv.rowDict csvHeader r.cells).lookup "fqdn".toList = some (some r.fqdn) ∧
      (Csv.rowDict csvHeader r.cells).lookup "record_type".toList = some (some r.recordType.text) ∧
      (Csv.rowDict csvHeader r.cells).lookup "value".toList = some (some r.value) ∧
      (Csv.rowDict csvHeader r.cells).lookup "ttl".toList = some (some (number r.ttl)) ∧
      (Csv.rowDict csvHeader r.cells).lookup "enabled".toList
        = some (some (if r.enabled then ['1'] else ['0'])) ∧
      (Csv.rowDict csvHeader r.cells).lookup "comment".toList = some (some r.comment) := by
  refine ⟨rfl, rfl, rfl, rfl, rfl, rfl⟩

theorem recordTypeOf_text (d : ImportData) (type : RecordType) :
    Importer.recordTypeOf (d.toUpper (strip type.text)) = some type := by
  have hupper : d.toUpper (strip type.text) = (strip type.text).map Char.toUpper :=
    if_pos (by cases type <;> decide)
  rw [hupper]
  cases type <;> decide

/-- What the validation of a stable record's row gives. -/
structure CsvRecord.Of (c : CsvRecord) (r : DnsRecord) : Prop where
  name : c.record.name.1 = r.fqdn
  recordType : c.record.recordType = r.recordType
  value : c.record.value = r.value
  ttl : c.record.ttl = r.ttl
  comment : c.comment = r.comment
  enabled : c.enabled = r.enabled

/-- The validation of what is stored and stable. -/
theorem normalizeDomain_stable {u : UnicodeData} {s : Str} (h : IsFinal s) :
    LocalDns.normalizeDomain u s = some ⟨s, matchesDomainRe_of_isFinal h⟩ := by
  have hself := (normalizeDomain_eq_self_iff (u := u) (isStoredName_of_isFinal h)).mpr h
  obtain ⟨domain, hdomain, hval⟩ := Option.map_eq_some_iff.mp hself
  rw [hdomain, Option.some_inj]
  exact Subtype.ext hval

theorem validateTtl_stored {n : ℕ} (h : 30 ≤ n ∧ n ≤ 86400) : validateTtl (some (n : ℤ)) = some n :=
  validateTtl_eq_some_iff.mpr ⟨rfl, h⟩

theorem isSome_recordFindings {rows : List DnsRecord} {fqdn value : Str} {type : RecordType}
    {id : Option ℕ} (h : IsStoredValue type value) :
    (recordFindings d.localData rows fqdn type value id).isSome = true := by
  cases type with
  | a | aaaa =>
      obtain ⟨ip, hip, hstr, -, hptr⟩ := h
      exact (isSome_recordFindings_iff rfl hip hstr).mpr hptr
  | ptr | cname => rfl

theorem intOf_number {n : ℕ} (h : n ≤ 86400) : intOf (number n) = some (n : ℤ) := by
  have hlength : (Nat.toDigits 10 n).length ≤ 5 :=
    (Nat.length_toDigits_le_iff (by decide) (by decide)).mpr (by omega)
  rw [number, intOf_toDigits, if_pos (by omega)]

/-- **The row of a stable record is valid and gives the record.** -/
theorem previewRow_cells (rows : RecordRows) {r : DnsRecord} (hstored : IsStored r.content)
    (hstable : IsStable r.content) :
    ∃ c warnings, previewRow d rows (Csv.rowDict csvHeader r.cells) = some (c, warnings) ∧
      c.Of r := by
  obtain ⟨hfqdn, htype, hvalue, httl, henabled, hcomment⟩ := lookup_rowDict r
  have hname : LocalDns.normalizeDomain d.toUnicodeData r.fqdn
      = some ⟨r.fqdn, matchesDomainRe_of_isFinal hstable.name⟩ :=
    normalizeDomain_stable hstable.name
  have hvalid : validateValue d.toUnicodeData r.recordType r.value = some r.value :=
    validateValue_stored hstored.value hstable.value
  have hlimits : validateTtl (some (r.ttl : ℤ)) = some r.ttl := validateTtl_stored hstored.ttl
  have hrecord : validateRecord d.toParserData r.recordType.text r.fqdn r.value (some (r.ttl : ℤ))
      = some ⟨r.recordType, ⟨r.fqdn, matchesDomainRe_of_isFinal hstable.name⟩, r.value, r.ttl⟩ := by
    simp only [validateRecord, recordTypeOf_text d, hname, hvalid, hlimits, Option.bind_eq_bind,
      Option.bind_some, Option.pure_def]
  obtain ⟨findings, hfindings⟩ : ∃ findings,
      recordFindings d.localData rows.1 r.fqdn r.recordType r.value none = some findings :=
    Option.isSome_iff_exists.mp (isSome_recordFindings hstored.value)
  have hcells : CsvRow.ttl (Csv.rowDict csvHeader r.cells) = some (r.ttl : ℤ) := by
    simp only [CsvRow.ttl, httl, Option.bind_some]
    exact intOf_number hstored.ttl.2
  have henabled' :
      decide (some (if r.enabled then ['1'] else ['0']) ≠ some "0".toList) = r.enabled := by
    cases r.enabled <;> decide
  refine ⟨⟨⟨r.recordType, ⟨r.fqdn, matchesDomainRe_of_isFinal hstable.name⟩, r.value, r.ttl⟩,
    r.comment, r.enabled⟩, findings.map (·.message), ?_, ⟨rfl, rfl, rfl, rfl, rfl, rfl⟩⟩
  simp only [previewRow, CsvRow.cell, htype, hfqdn, hvalue, hcells, henabled, hcomment,
    Option.getD_some, Option.bind_eq_bind, Option.bind_some, hrecord, hfindings, Option.pure_def,
    Option.join_some, henabled']

/-- The records of an export. -/
theorem csvRecords_export (rows : RecordRows) {selected : List DnsRecord}
    (hcsv : Csv.records (csvExport selected)
      = some (csvHeader :: selected.map DnsRecord.cells))
    (hstored : ∀ r ∈ selected, IsStored r.content) (hstable : ∀ r ∈ selected, IsStable r.content) :
    ∃ records, csvRecords d (csvExport selected) rows = some records ∧
      List.Forall₂ CsvRecord.Of records selected := by
  have hrows : Csv.dictRows (csvExport selected)
      = some (selected.map fun r => Csv.rowDict csvHeader r.cells) := by
    have hkeep : (selected.map DnsRecord.cells).filter (· ≠ []) = selected.map DnsRecord.cells := by
      refine List.filter_eq_self.mpr fun row hrow => ?_
      obtain ⟨r, -, rfl⟩ := List.mem_map.mp hrow
      rfl
    rw [Csv.dictRows, hcsv, Option.map_some]
    simp only [hkeep, List.map_map]
    rfl
  rw [csvRecords, hrows, Option.bind_some]
  clear hcsv hrows
  induction selected with
  | nil => exact ⟨[], rfl, .nil⟩
  | cons r selected ih =>
      rw [List.forall_mem_cons] at hstored hstable
      obtain ⟨c, warnings, hrow, hof⟩ :=
        previewRow_cells (d := d) rows hstored.1 hstable.1
      obtain ⟨records, hrecords, hall⟩ := ih hstored.2 hstable.2
      refine ⟨c :: records, ?_, .cons hof hall⟩
      rw [List.map_cons, List.mapM_cons, hrow, hrecords]
      rfl

section Stable

variable {c : CsvRecord} {r : DnsRecord} (hof : c.Of r) (hstored : IsStored r.content)
  (hstable : IsStable r.content)

include hof hstored hstable

/-- What `add_record` validates in the row of a stable record. -/
theorem validated_of_stable :
    (∃ name, LocalDns.normalizeDomain d.toUnicodeData c.record.name.1 = some name ∧
        name.1 = r.fqdn) ∧
      validateTtl (some (c.record.ttl : ℤ)) = some r.ttl ∧
      validateValue d.toUnicodeData c.record.recordType c.record.value = some r.value := by
  rw [hof.name, hof.recordType, hof.value, hof.ttl]
  exact ⟨⟨_, normalizeDomain_stable hstable.name, rfl⟩, validateTtl_stored hstored.ttl,
    validateValue_stored hstored.value hstable.value⟩

/-- It stores the record. -/
theorem exported_of_storedAs {x : DnsRecord} (h : c.StoredAs d x) : x.exported = r.exported := by
  obtain ⟨hname, htype, hvalue, httl, hcomment, henabled⟩ := h
  obtain ⟨⟨name, hname', hfqdn⟩, httl', hvalue'⟩ :=
    validated_of_stable (d := d) hof hstored hstable
  rw [hname', Option.map_some, Option.some_inj, hfqdn] at hname
  rw [hvalue', Option.some_inj] at hvalue
  rw [httl', Option.some_inj] at httl
  simp only [DnsRecord.exported, DnsRecord.content, ← hname, htype, hof.recordType, ← hvalue,
    ← httl, hcomment, hof.comment, henabled, hof.enabled]

/-- It can store the record unless it is there. -/
theorem fits_of_stable {rows : RecordRows} (hkey : ∀ x ∈ rows.1, x.sameKey r = false) :
    c.Fits d true rows := by
  obtain ⟨⟨name, hname, hfqdn⟩, httl, hvalue⟩ := validated_of_stable (d := d) hof hstored hstable
  have hstoredValue : IsStoredValue c.record.recordType r.value := hof.recordType ▸ hstored.value
  obtain ⟨findings, hfindings⟩ : ∃ findings,
      recordFindings d.localData rows.1 name.1 c.record.recordType r.value none = some findings :=
    Option.isSome_iff_exists.mp (isSome_recordFindings hstoredValue)
  refine ⟨name, r.ttl, r.value, hname, httl, hvalue, ⟨findings, hfindings, .inl rfl⟩, ?_⟩
  rintro x hx ⟨hxname, hxtype, hxvalue⟩
  have hsame : x.sameKey r = true := by
    simp [DnsRecord.sameKey, hxname, hfqdn, hxtype, hof.recordType, hxvalue]
  rw [hkey x hx] at hsame
  cases hsame

end Stable

/-! ## The import of an export -/

/-- Different keys are different exports. -/
theorem sameKey_eq_of_exported {x y r : DnsRecord} (h : x.exported = y.exported) :
    x.sameKey r = y.sameKey r := by
  simp only [DnsRecord.exported, DnsRecord.content, Prod.mk.injEq, RecordContent.mk.injEq] at h
  simp only [DnsRecord.sameKey, h]

theorem sameKey_comm (r s : DnsRecord) : r.sameKey s = s.sameKey r := by
  simp only [DnsRecord.sameKey, eq_comm]

/-- The records of a table have different keys. -/
theorem pairwise_of_selects {rows : RecordRows} {selected : List DnsRecord}
    (h : Selects rows selected) : selected.Pairwise fun r s => r.sameKey s = false := by
  have hrows : rows.1.Pairwise fun r s => r.sameKey s = false := rows.2.imp fun {r s} hrs => by
    simp only [recordConflict, Bool.or_eq_false_iff] at hrs
    exact hrs.2
  refine (h.perm.pairwise_iff fun {r s} hrs => ?_).mpr hrows
  rw [sameKey_comm]
  exact hrs

/-- Each row finds its record missing, and is added. -/
theorem foldlM_of_stable {records : List CsvRecord} {selected : List DnsRecord}
    (hof : List.Forall₂ CsvRecord.Of records selected)
    (hstored : ∀ r ∈ selected, IsStored r.content) (hstable : ∀ r ∈ selected, IsStable r.content)
    (hkeys : selected.Pairwise fun r s => r.sameKey s = false) {s : ℕ × RecordRows}
    (hfree : ∀ x ∈ s.2.1, ∀ r ∈ selected, x.sameKey r = false) :
    ∃ t, records.foldlM (addCsvRecord d true) s = some t := by
  induction hof generalizing s with
  | nil => exact ⟨s, rfl⟩
  | @cons c r records selected hc _ ih =>
      rw [List.forall_mem_cons] at hstored hstable
      rw [List.pairwise_cons] at hkeys
      have hfits : c.Fits d true s.2 :=
        fits_of_stable hc hstored.1 hstable.1 fun x hx => hfree x hx r List.mem_cons_self
      obtain ⟨u, hu⟩ := Option.isSome_iff_exists.mp (addCsvRecord_isSome_iff.mpr hfits)
      obtain ⟨-, -, added, hrows, hadded⟩ := addCsvRecord_eq_some hu
      have hexported := exported_of_storedAs hc hstored.1 hstable.1 hadded
      obtain ⟨t, ht⟩ := ih hstored.2 hstable.2 hkeys.2 (s := u) (by
        intro x hx r' hr'
        rw [hrows, List.mem_append, List.mem_singleton] at hx
        rcases hx with hx | rfl
        · exact hfree x hx r' (List.mem_cons_of_mem _ hr')
        · rw [sameKey_eq_of_exported hexported]
          exact hkeys.1 r' hr')
      exact ⟨t, (Commits.foldlM_cons_some hu records).trans ht⟩

/-- The rounds before a row have stored the records before it. -/
theorem exported_added {records : List CsvRecord} {selected added : List DnsRecord}
    (hof : List.Forall₂ CsvRecord.Of records selected)
    (hadded : List.Forall₂ (fun c x => c.StoredAs d x) records added)
    (hstored : ∀ r ∈ selected, IsStored r.content) (hstable : ∀ r ∈ selected, IsStable r.content) :
    added.map DnsRecord.exported = selected.map DnsRecord.exported := by
  induction hof generalizing added with
  | nil =>
      cases hadded
      rfl
  | cons hc _ ih =>
      cases hadded with
      | cons hx hadded =>
          rw [List.forall_mem_cons] at hstored hstable
          rw [List.map_cons, List.map_cons, ih hadded hstored.2 hstable.2,
            exported_of_storedAs hc hstored.1 hstable.1 hx]

/-- **What the validation keeps is imported as it was.** -/
theorem roundTrips_of_isStable {rows : RecordRows} (hstored : ∀ c ∈ contents rows, IsStored c)
    (hstable : ∀ c ∈ contents rows, IsStable c) (hcsv : ReadsBack rows) : RoundTrips d rows := by
  intro selected hselects
  have hcontent : ∀ r ∈ selected, r.content ∈ contents rows := fun r hr =>
    List.mem_map_of_mem (hselects.perm.mem_iff.mp hr)
  have hstored' : ∀ r ∈ selected, IsStored r.content := fun r hr => hstored _ (hcontent r hr)
  have hstable' : ∀ r ∈ selected, IsStable r.content := fun r hr => hstable _ (hcontent r hr)
  obtain ⟨records, hrecords, hof⟩ := csvRecords_export (d := d) LegalRows.empty
    (hcsv selected hselects) hstored' hstable'
  obtain ⟨⟨count, imported⟩, hfold⟩ : ∃ t,
      records.foldlM (addCsvRecord d true) (0, LegalRows.empty) = some t :=
    foldlM_of_stable hof hstored' hstable' (pairwise_of_selects hselects)
      fun x hx => absurd hx List.not_mem_nil
  obtain ⟨hcount, added, hrows, hadded⟩ := added_of_foldlM hfold
  have hcount : count = 0 + records.length := hcount
  have hrows : imported.1 = [] ++ added := hrows
  refine ⟨imported, ?_, fun row => ?_⟩
  · rw [csvImport_eq, hrecords]
    simp only [Commits.each_of_foldlM hfold, hcount, hof.length_eq, Nat.zero_add]
  · rw [hrows, List.nil_append, exported_added hof hadded hstored' hstable']
    exact (hselects.perm.map _).mem_iff

/-- A record that was validated twice is stable. -/
theorem isStable_of_storedAs {rows : RecordRows} {row : CsvRow} {c : CsvRecord}
    {warnings : List Str} {x : DnsRecord} (hrow : previewRow d rows row = some (c, warnings))
    (h : c.StoredAs d x) : IsStable x.content := by
  obtain ⟨hname, htype, hvalue, -⟩ := h
  obtain ⟨name, hname, hfqdn⟩ := Option.map_eq_some_iff.mp hname
  constructor
  · rw [DnsRecord.content, ← hfqdn]
    exact isFinal_of_normalizeDomain ⟨c.record.name, .inl rfl⟩ hname
  · intro haddress
    have haddress : c.record.recordType.isAddress = false := htype ▸ haddress
    obtain ⟨value, hfirst⟩ : ∃ value,
        validateValue d.toUnicodeData c.record.recordType value = some c.record.value := by
      simp only [previewRow, validateRecord, Option.bind_eq_bind, Option.bind_eq_some_iff,
        Option.pure_def, Option.some.injEq, Prod.mk.injEq] at hrow
      obtain ⟨_, -, _, -, value, -, _, ⟨_, -, _, -, _, -, _, hvalid, rfl⟩, _, -, rfl, -⟩ := hrow
      exact ⟨value, hvalid⟩
    obtain ⟨target, -, htarget⟩ := (validateValue_eq_some_iff haddress).mp hfirst
    obtain ⟨target', hnormal, htarget'⟩ := (validateValue_eq_some_iff haddress).mp hvalue
    rw [DnsRecord.content, ← htarget']
    exact isFinal_of_normalizeDomain ⟨target, .inl htarget.symm⟩ hnormal

/-- **All that an import adds to an empty table is stable**, since it was validated twice. -/
theorem isStable_of_csvImport {content : Str} {count : ℕ} {imported : RecordRows}
    (h : csvImport d content true LegalRows.empty = (some count, imported)) :
    ∀ x ∈ imported.1, IsStable x.content := by
  rw [csvImport_eq] at h
  cases hrecords : csvRecords d content LegalRows.empty with
  | none =>
      rw [hrecords] at h
      cases h
  | some records =>
      rw [hrecords] at h
      rcases Commits.each_cases (f := addCsvRecord d true) records (0, LegalRows.empty) with
        ⟨⟨count, t⟩, hfold, heach⟩ | ⟨_, _, _, ⟨count, t⟩, -, -, -, heach⟩
      · simp only [heach, Prod.mk.injEq] at h
        obtain ⟨-, rfl⟩ := h
        obtain ⟨-, added, hrows, hadded⟩ := added_of_foldlM hfold
        have hrows : t.1 = [] ++ added := hrows
        obtain ⟨csvRows, -, hmap⟩ := Option.bind_eq_some_iff.mp hrecords
        have hall := (forall₂_of_mapM d hmap hadded).flip
        rw [hrows, List.nil_append]
        refine ((List.forall₂_and_left (R := fun _ _ => True) _ _).mp (hall.imp ?_)).1
        rintro x row ⟨c, warnings, hrow, hstored⟩
        exact ⟨isStable_of_storedAs hrow hstored, trivial⟩
      · simp only [heach, Prod.mk.injEq, reduceCtorEq, false_and] at h

/-- **What is imported as it was is kept by the validation.** -/
theorem isStable_of_roundTrips {rows : RecordRows} (h : RoundTrips d rows) :
    ∀ c ∈ contents rows, IsStable c := by
  obtain ⟨imported, himport, hsame⟩ := h _ (selects_sortBy rows)
  intro c hc
  obtain ⟨r, hr, rfl⟩ := List.mem_map.mp hc
  obtain ⟨x, hx, hexported⟩ := List.mem_map.mp ((hsame r.exported).mpr (List.mem_map_of_mem hr))
  have hcontent : x.content = r.content := congrArg Prod.fst hexported
  rw [← hcontent]
  exact isStable_of_csvImport himport x hx

end Rows

/-! ## Runs -/

/-- For every run in whose tables `csv` reads back what it wrote: all tables of the run round trip
exactly when all its operations meet `KeepsNames`. -/
theorem csv_round_trip_iff (d : ImportData) (internalDomain : Str) (actions : List LocalDnsAction)
    (rows : RecordRows) (hrun : localRun d.localData internalDomain actions = some rows)
    (hcsv : ∀ before reached, before <+: actions →
      localRun d.localData internalDomain before = some reached → ReadsBack reached) :
    (∀ before reached, before <+: actions →
        localRun d.localData internalDomain before = some reached → RoundTrips d reached)
      ↔ Runs.StepsMeet (localStep d.localData internalDomain)
          (KeepsNames d.toUnicodeData internalDomain) LegalRows.empty actions := by
  have hempty : contents LegalRows.empty = [] := rfl
  have hstored : ∀ before reached, localRun d.localData internalDomain before = some reached →
      ∀ c ∈ contents reached, IsStored c := fun before reached =>
    Runs.invariant_of_run (fun _ _ _ => isStored_step) before LegalRows.empty reached
      (by simp [hempty])
  have hiff := @Runs.stepsMeet_iff_forall_reached RecordRows LocalDnsAction
    (localStep d.localData internalDomain) (KeepsNames d.toUnicodeData internalDomain)
    (fun _ => True) (fun _ => True) (fun rows => ∀ c ∈ contents rows, IsStable c)
    (fun _ _ _ _ _ _ => trivial) (fun _ _ _ _ hrows _ => isStable_step_iff hrows) actions
    LegalRows.empty rows trivial (by simp [hempty]) (fun _ _ => trivial) hrun
  rw [hiff]
  refine forall_congr' fun before => forall_congr' fun reached => forall_congr' fun hbefore =>
    forall_congr' fun hreached => ?_
  exact ⟨isStable_of_roundTrips, fun hstable =>
    roundTrips_of_isStable (hstored before reached hreached) hstable (hcsv before reached hbefore
      hreached)⟩

/-- A host with its PTR, and a name for it. -/
def csvActions : List LocalDnsAction :=
  [.addHost "nas".toList [] "192.168.1.5".toList (some 300) "disk, \"new\"".toList true false,
   .addRecord .cname "files.home.arpa".toList "nas.home.arpa".toList (some 600) [] false false]

theorem csv_round_trip_iff_host :
    (∀ before reached, before <+: csvActions →
        localRun asciiImportData.localData homeArpa.1 before = some reached →
        RoundTrips asciiImportData reached)
      ↔ Runs.StepsMeet (localStep asciiImportData.localData homeArpa.1)
          (KeepsNames asciiImportData.toUnicodeData homeArpa.1) LegalRows.empty csvActions := by
  have hrun : (localRun asciiImportData.localData homeArpa.1 csvActions).isSome = true := by
    decide +kernel
  have hshort : ∀ before ∈ csvActions.inits,
      (localRun asciiImportData.localData homeArpa.1 before).all (fun rows : RecordRows =>
        rows.1.all fun r => r.cells.all (·.length ≤ Csv.fieldSizeLimit)) = true := by
    decide +kernel
  refine csv_round_trip_iff asciiImportData homeArpa.1 csvActions _ (Option.eq_some_of_isSome hrun)
    fun before reached hbefore hreached => readsBack_of_short fun r hr cell hcell => ?_
  have hall := hshort before ((List.mem_inits _ _).mpr hbefore)
  rw [hreached, Option.all_some, List.all_eq_true] at hall
  exact of_decide_eq_true (List.all_eq_true.mp (hall r hr) cell hcell)

/-! ### A long name

The label and the domain are both valid, and the name of the host is longer than a domain may be. -/

/-- A domain of 253 characters. -/
def longDomain : Str :=
  join ['.'] (List.replicate 3 (List.replicate 63 'a') ++ [List.replicate 61 'a'])

theorem long_host_name :
    ¬ ∀ (d : ImportData) (internalDomain : Str) (actions : List LocalDnsAction) (rows : RecordRows),
        localRun d.localData internalDomain actions = some rows → ReadsBack rows →
          RoundTrips d rows := by
  intro h
  have hrun : (localRun asciiImportData.localData homeArpa.1
      [.addHost "a".toList longDomain "10.0.0.1".toList (some 300) [] false false]).any
      (fun rows : RecordRows => (rows.1.all fun r => r.cells.all (·.length ≤ Csv.fieldSizeLimit)) &&
        rows.1.any fun r => 253 < r.fqdn.length) = true := by
    decide +kernel
  obtain ⟨rows, hrows, hlong⟩ := (Option.any_eq_true _ _).mp hrun
  rw [Bool.and_eq_true, List.all_eq_true, List.any_eq_true] at hlong
  obtain ⟨hshort, r, hr, hlength⟩ := hlong
  have hcsv : ReadsBack rows := readsBack_of_short fun r hr cell hcell =>
    of_decide_eq_true (List.all_eq_true.mp (hshort r hr) cell hcell)
  have hstable := isStable_of_roundTrips (h _ _ _ _ hrows hcsv) _ (List.mem_map_of_mem hr)
  exact absurd hstable.name.length (Nat.not_le.mpr (of_decide_eq_true hlength))

end AlderpointDNS.LocalDns
