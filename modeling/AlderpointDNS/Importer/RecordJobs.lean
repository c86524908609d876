import AlderpointDNS.Importer.Items
import AlderpointDNS.LocalDns.Answers
import AlderpointDNS.CustomRules.Duplicates

/-!
# Imports of records

`apply_job` imports the rows of a spreadsheet, a hosts file or a zone into the local DNS records.
It previews the job again, applies the rows one by one, each in its own transaction, and remembers
the ids of the records that it finds under the names of its rows.  `rollback_job` deletes these
ids.

* `previewJob` — the rows that can be applied, and which of them conflict;
* `applyRow` — what a row does to the tables;
* `Traced`, `Traced.applyRow` — the records of the store and the records of the job, kept apart;
* **`rollback_restores_iff`** — the rollback restores the store exactly when no row replaces a
  record;
* `replaced_lost` — a record that a row replaces.

Not modelled: the texts of the report, and failures of SQLite.  The timestamps of a record are not
in its row.
-/

namespace AlderpointDNS.Importer

open Text Ipaddress LocalDns

/-! ## The preview -/

/-- A row after `apply_column_map`. -/
structure ImportRow where
  hostname : Str := []
  fqdn : Str := []
  domain : Str := []
  ipv4 : Str := []
  ipv6 : Str := []
  recordType : Str := []
  target : Str := []
  /-- what `int` makes of `row["ttl"].strip() or "300"` -/
  ttl : Option ℤ := some 300
  comment : Str := []
  enabled : Str := []
  clientAlias : Str := []
  clientIdOrCidr : Str := []

/-- A row with the record that it stands for. -/
structure RowItem where
  index : ℕ
  row : ImportRow
  record : ValidRecord

/-- `key`. -/
def RowItem.key (item : RowItem) : Str × RecordType × Str :=
  (item.record.name.1, item.record.recordType, item.record.value)

section Preview

variable (d : ImportData)

/-- The name of a row; `none` is an error. -/
def ImportRow.name (row : ImportRow) (defaultDomain : Str) : Option Str :=
  if strip row.fqdn ≠ [] then some (strip row.fqdn)
  else if strip row.hostname = [] then none
  else (normalizeFqdn d.toUnicodeData (strip row.hostname)
    (if row.domain = [] then defaultDomain else row.domain)).map (·.1)

/-- The type and the value of a row. -/
def ImportRow.typeAndValue (row : ImportRow) : Str × Str :=
  let rtype := d.toUpper (strip row.recordType)
  let value := strip row.target
  if rtype = [] then
    if strip row.ipv4 ≠ [] then ("A".toList, strip row.ipv4)
    else if strip row.ipv6 ≠ [] then ("AAAA".toList, strip row.ipv6)
    else if value = [] then (rtype, value)
    else match ipAddress value with
      | some ip => (if ip.isV4 then "A".toList else "AAAA".toList, value)
      | none => ("CNAME".toList, value)
  else if rtype = "A".toList ∧ value = [] then (rtype, strip row.ipv4)
  else if rtype = "AAAA".toList ∧ value = [] then (rtype, strip row.ipv6)
  else (rtype, value)

/-- `_record_from_row` and `validate_record` after it. -/
def ImportRow.toRecord (row : ImportRow) (defaultDomain : Str) : Option ValidRecord :=
  (row.name d defaultDomain).bind fun fqdn =>
    validateRecord d.toParserData (row.typeAndValue d).1 fqdn (row.typeAndValue d).2 row.ttl

/-- What the preview makes of a row. -/
inductive RowFinding where
  | valid
  | conflict
  | duplicate
  | invalid
deriving DecidableEq

/-- One round of the loop of `preview_job`, with the keys seen before it. -/
def previewRow (defaultDomain : Str) (rows : RecordRows) (seen : List (Str × RecordType × Str))
    (row : ImportRow) : RowFinding × List (Str × RecordType × Str) :=
  match row.toRecord d defaultDomain with
  | none => (.invalid, seen)
  | some record =>
      let key := (record.name.1, record.recordType, record.value)
      if seen.any (· = key) then (.duplicate, seen)
      else
        (match recordFindings d.localData rows.1 record.name.1 record.recordType record.value
            none with
          | none => .invalid
          | some findings =>
              if findings.any (·.severity = .conflict) then .conflict else .valid,
          seen ++ [key])

/-- The loop of `preview_job`: the rows with what it makes of them. -/
def previewRows (defaultDomain : Str) (rows : RecordRows) :
    List (Str × RecordType × Str) → List ImportRow → List RowFinding
  | _, [] => []
  | seen, row :: rest =>
      (previewRow d defaultDomain rows seen row).1 ::
        previewRows defaultDomain rows (previewRow d defaultDomain rows seen row).2 rest

/-- The items of a finding, in order. -/
def itemsOf (defaultDomain : Str) (job : List ImportRow) (findings : List RowFinding)
    (finding : RowFinding) : List RowItem :=
  ((job.zip findings).zipIdx.filter fun p => p.1.2 = finding).filterMap fun p =>
    (p.1.1.toRecord d defaultDomain).map fun record => ⟨p.2, p.1.1, record⟩

/-- `rows_to_apply`: the valid rows, then those that conflict. -/
def previewJob (defaultDomain : Str) (rows : RecordRows) (job : List ImportRow) :
    List (RowItem × Bool) :=
  let findings := previewRows d defaultDomain rows [] job
  (itemsOf d defaultDomain job findings .valid).map (·, false)
    ++ (itemsOf d defaultDomain job findings .conflict).map (·, true)

end Preview

/-! ## The apply -/

/-- `default_policy` and the values of `row_policies`. -/
inductive ConflictPolicy where
  | skip
  | merge
  | replace
deriving DecidableEq

/-- What happened to a row. -/
inductive RowOutcome where
  | applied
  | skipped
  | failed
deriving DecidableEq

/-- The tables during an apply, with `inserted_ids` and the outcomes so far. -/
structure ApplyState where
  records : RecordRows
  aliases : AliasRows
  insertedIds : List ℕ
  outcomes : List RowOutcome

/-- What an apply is given. -/
structure ApplyContext where
  data : ImportData
  defaultDomain : Str
  /-- `row_policies.get(index, default_policy)` -/
  policy : ℕ → ConflictPolicy
  now : Str

section Apply

variable (ctx : ApplyContext)

/-- `is_conflict and policy == "replace"`. -/
def replaces (item : RowItem) (isConflict : Bool) : Bool :=
  isConflict && ctx.policy item.index = .replace

/-- The record has the name and the type of the item. -/
def RowItem.overwrites (item : RowItem) (r : DnsRecord) : Bool :=
  r.fqdn = item.record.name.1 && r.recordType = item.record.recordType

/-- The `DELETE` of the policy `replace`. -/
def clearRow (item : RowItem) (isConflict : Bool) (rows : RecordRows) : RecordRows :=
  if replaces ctx item isConflict then rows.filter fun r => !item.overwrites r else rows

/-- `SELECT id FROM local_dns_records WHERE fqdn=? AND record_type=? AND value=?`. -/
def selectId (rows : RecordRows) (item : RowItem) : Option ℕ :=
  (rows.1.find? fun r => item.overwrites r && r.value = item.record.value).map (·.id)

/-- `local_dns.upsert_alias` for the columns of a row, if they are there; `none` is an error. -/
def upsertRowAlias (aliases : AliasRows) (row : ImportRow) : Option AliasRows :=
  if strip row.clientAlias ≠ [] ∧ strip row.clientIdOrCidr ≠ [] then
    (ipNetworkStr (strip row.clientIdOrCidr)).map fun network =>
      aliasWriter.upsert aliases
        ⟨network, strip row.clientAlias, "imported".toList, ctx.now⟩
  else some aliases

/-- One round of the loop of `apply_job`. -/
def applyRow (s : ApplyState) (p : RowItem × Bool) : ApplyState :=
  let item := p.1
  if p.2 && ctx.policy item.index = .skip then { s with outcomes := s.outcomes ++ [.skipped] }
  else
    -- committed before the record is added, which can fail
    let cleared := clearRow ctx item p.2 s.records
    match addRecord ctx.data.localData item.record.recordType item.record.name.1 item.record.value
        (some item.record.ttl) item.row.comment (item.row.enabled ≠ "0".toList) p.2 cleared with
    | none => { s with records := cleared, outcomes := s.outcomes ++ [.failed] }
    | some (_, records) =>
        let insertedIds := s.insertedIds ++ (selectId records item).toList
        match upsertRowAlias ctx s.aliases item.row with
        | none => { s with records, insertedIds, outcomes := s.outcomes ++ [.failed] }
        | some aliases => ⟨records, aliases, insertedIds, s.outcomes ++ [.applied]⟩

/-- `apply_job`. -/
def applyJob (records : RecordRows) (aliases : AliasRows) (job : List ImportRow) : ApplyState :=
  (previewJob ctx.data ctx.defaultDomain records job).foldl (applyRow ctx)
    ⟨records, aliases, [], []⟩

/-- `rollback_job` of the ids that the job remembers. -/
def rollbackJob (insertedIds : List ℕ) (records : RecordRows) : RecordRows :=
  records.filter fun r => r.id ∉ insertedIds

end Apply


/-! ## What is left of the store -/

/-- `(fqdn, type, value, ttl, comment, enabled)`. -/
def recordContent (r : DnsRecord) : Str × RecordType × Str × ℕ × Str × Bool :=
  (r.fqdn, r.recordType, r.value, r.ttl, r.comment, r.enabled)

/-- Validating the record of an item again changes nothing: `add_record` stores it under the name
and the value of the preview. -/
def RowItem.Settled (d : ImportData) (item : RowItem) : Prop :=
  LocalDns.normalizeDomain d.toUnicodeData item.record.name.1 = some item.record.name ∧
    validateValue d.toUnicodeData item.record.recordType item.record.value
      = some item.record.value

instance (d : ImportData) (item : RowItem) : Decidable (item.Settled d) :=
  inferInstanceAs (Decidable (_ ∧ _))

/-- The records are those of the store that `keep` keeps, and records of the job: the job
remembers the ids of the latter and of no other. -/
def Traced (keep : DnsRecord → Bool) (before : RecordRows) (s : ApplyState) : Prop :=
  ∃ imported, s.records.1 = before.1.filter keep ++ imported ∧
    (∀ r ∈ imported, r.id ∈ s.insertedIds) ∧
    ∀ r ∈ before.1.filter keep, r.id ∉ s.insertedIds

section Trace

variable {ctx : ApplyContext} {keep : DnsRecord → Bool} {before : RecordRows} {s : ApplyState}

/-- A record of the table is found by its name, type and value. -/
theorem selectId_of_mem {rows : RecordRows} {item : RowItem} {r : DnsRecord} (hr : r ∈ rows.1)
    (hname : item.overwrites r = true) (hvalue : r.value = item.record.value) :
    selectId rows item = some r.id := by
  unfold selectId
  cases hfind : rows.1.find? fun r => item.overwrites r && r.value = item.record.value with
  | none =>
      have := List.find?_eq_none.mp hfind r hr
      simp [hname, hvalue] at this
  | some r' =>
      have hfound := List.find?_some hfind
      simp only [RowItem.overwrites, Bool.and_eq_true, decide_eq_true_eq] at hname hfound
      have hkey : r'.sameKey r = true := by
        simp [DnsRecord.sameKey, hname, hvalue, hfound]
      rw [key_inj (List.mem_of_find?_eq_some hfind) hr hkey, Option.map_some]

/-- The records of the store that a row leaves. -/
def keptBy (ctx : ApplyContext) (p : RowItem × Bool) (r : DnsRecord) : Bool :=
  !(replaces ctx p.1 p.2 && p.1.overwrites r)

theorem clearRow_eq (p : RowItem × Bool) (rows : RecordRows) :
    (clearRow ctx p.1 p.2 rows).1 = rows.1.filter (keptBy ctx p) := by
  unfold clearRow keptBy
  split_ifs with hreplaces
  · simp [hreplaces, LegalRows.filter]
  · simp [hreplaces]

/-- What a row that is not skipped does: it deletes what it replaces, and then adds nothing, or
its record, whose id the job remembers. -/
theorem applyRow_cases {p : RowItem × Bool} (hsettled : p.1.Settled ctx.data)
    (hskip : ¬(p.2 && ctx.policy p.1.index = .skip) = true) :
    ((applyRow ctx s p).records.1 = s.records.1.filter (keptBy ctx p) ∧
      (applyRow ctx s p).insertedIds = s.insertedIds) ∨
    ∃ r, (∀ r' ∈ s.records.1.filter (keptBy ctx p), r'.id < r.id) ∧
      (applyRow ctx s p).records.1 = s.records.1.filter (keptBy ctx p) ++ [r] ∧
      (applyRow ctx s p).insertedIds = s.insertedIds ++ [r.id] := by
  unfold applyRow
  simp only [hskip, Bool.false_eq_true, if_false]
  cases hadd : addRecord ctx.data.localData p.1.record.recordType p.1.record.name.1
      p.1.record.value (some p.1.record.ttl) p.1.row.comment (p.1.row.enabled ≠ "0".toList) p.2
      (clearRow ctx p.1 p.2 s.records) with
  | none => exact .inl ⟨clearRow_eq p s.records, rfl⟩
  | some added =>
      right
      obtain ⟨messages, records⟩ := added
      obtain ⟨name, value, ttl, hname, hvalue, -, hrecords⟩ := addRecord_spec hadd
      obtain rfl : p.1.record.name = name := Option.some.inj (hsettled.1.symm.trans hname)
      obtain rfl : p.1.record.value = value := Option.some.inj (hsettled.2.symm.trans hvalue)
      rw [clearRow_eq] at hrecords
      have hid : ∀ r' ∈ s.records.1.filter (keptBy ctx p), r'.id < LocalDns.nextId
          (s.records.1.filter (keptBy ctx p)) := fun r' hr' => id_lt_nextId hr'
      revert hrecords
      generalize hnew : newRecord (LocalDns.nextId (s.records.1.filter (keptBy ctx p))) _ _ _ ttl _
        _ = new
      intro hrecords
      have hselect : selectId records p.1 = some new.id := by
        refine selectId_of_mem (by simp [hrecords]) ?_ ?_
        · simp [RowItem.overwrites, ← hnew, newRecord]
        · simp [← hnew, newRecord]
      have hnewId : new.id = LocalDns.nextId (s.records.1.filter (keptBy ctx p)) := by
        rw [← hnew, newRecord]
      refine ⟨new, fun r' hr' => hnewId ▸ hid r' hr', ?_⟩
      cases upsertRowAlias ctx s.aliases p.1.row with
      | none => exact ⟨hrecords, by simp [hselect]⟩
      | some aliases => exact ⟨hrecords, by simp [hselect]⟩

/-- A row keeps the records of the store and those of the job apart. -/
theorem Traced.applyRow {p : RowItem × Bool} (h : Traced keep before s)
    (hsettled : ¬(p.2 && ctx.policy p.1.index = .skip) = true → p.1.Settled ctx.data) :
    Traced (fun r => keep r && keptBy ctx p r) before (applyRow ctx s p) := by
  by_cases hskip : (p.2 && ctx.policy p.1.index = .skip) = true
  · -- a skipped row replaces nothing
    have hkept : keptBy ctx p = fun _ => true := by
      simp only [Bool.and_eq_true, decide_eq_true_eq] at hskip
      funext r
      simp [keptBy, replaces, hskip.2]
    have happly : Importer.applyRow ctx s p = { s with outcomes := s.outcomes ++ [.skipped] } := by
      simp only [Importer.applyRow, hskip, if_true]
    simp only [happly, hkept, Bool.and_true]
    exact h
  · obtain ⟨imported, hrecords, himported, hkept⟩ := h
    have hfilter : s.records.1.filter (keptBy ctx p)
        = before.1.filter (fun r => keep r && keptBy ctx p r)
          ++ imported.filter (keptBy ctx p) := by
      rw [hrecords, List.filter_append, List.filter_filter]
      simp only [Bool.and_comm]
    have himported' : ∀ r ∈ imported.filter (keptBy ctx p), r.id ∈ s.insertedIds :=
      fun r hr => himported r (List.mem_of_mem_filter hr)
    have hkept' : ∀ r ∈ before.1.filter (fun r => keep r && keptBy ctx p r),
        r.id ∉ s.insertedIds := by
      intro r hr
      simp only [List.mem_filter, Bool.and_eq_true] at hr
      exact hkept r (List.mem_filter.mpr ⟨hr.1, hr.2.1⟩)
    rcases applyRow_cases (s := s) (hsettled hskip) hskip with
      ⟨hrows, hids⟩ | ⟨r, hr, hrows, hids⟩
    · refine ⟨_, hrows.trans hfilter, ?_, ?_⟩
      · simpa [hids] using himported'
      · simpa [hids] using hkept'
    · rw [hfilter] at hr hrows
      refine ⟨imported.filter (keptBy ctx p) ++ [r], by simp [hrows], ?_, ?_⟩
      · intro r' hr'
        rw [hids, List.mem_append]
        rcases List.mem_append.mp hr' with hr' | hr'
        · exact .inl (himported' r' hr')
        · exact .inr (by simp [List.mem_singleton.mp hr'])
      · intro r' hr'
        rw [hids, List.mem_append, List.mem_singleton]
        -- the new id is above all that were there
        have hlt := hr r' (List.mem_append_left _ hr')
        exact fun hmem => hmem.elim (hkept' r' hr') (Nat.ne_of_lt hlt)

theorem Traced.foldl (items : List (RowItem × Bool)) :
    ∀ {keep : DnsRecord → Bool} {s : ApplyState}, Traced keep before s →
      (∀ p ∈ items, ¬(p.2 && ctx.policy p.1.index = .skip) = true → p.1.Settled ctx.data) →
      Traced (fun r => keep r && items.all (keptBy ctx · r)) before
        (items.foldl (Importer.applyRow ctx) s) := by
  induction items with
  | nil => simp
  | cons p ps ih =>
      intro keep s h hsettled
      have hstep := h.applyRow (hsettled p List.mem_cons_self)
      have := ih hstep fun q hq => hsettled q (List.mem_cons_of_mem _ hq)
      simpa only [List.all_cons, List.foldl_cons, Bool.and_assoc] using this

/-- What is left after the rollback. -/
theorem Traced.rollback (h : Traced keep before s) :
    (rollbackJob s.insertedIds s.records).1 = before.1.filter keep := by
  obtain ⟨imported, hrecords, himported, hkept⟩ := h
  change s.records.1.filter (fun r => decide (r.id ∉ s.insertedIds)) = _
  have hgone : imported.filter (fun r => decide (r.id ∉ s.insertedIds)) = [] := by
    simpa [List.filter_eq_nil_iff] using himported
  have hleft : (before.1.filter keep).filter (fun r => decide (r.id ∉ s.insertedIds))
      = before.1.filter keep := List.filter_eq_self.mpr fun r hr => by simpa using hkept r hr
  rw [hrecords, List.filter_append, hleft, hgone, List.append_nil]

end Trace

/-- The contents of a part of the records are those of all records just when it is all of them. -/
theorem contents_filter_iff (rows : RecordRows) (keep : DnsRecord → Bool) :
    (∀ content, content ∈ (rows.1.filter keep).map recordContent ↔
        content ∈ rows.1.map recordContent) ↔ ∀ r ∈ rows.1, keep r = true := by
  constructor
  · intro h r hr
    obtain ⟨r', hr', hcontent⟩ := List.mem_map.mp ((h _).mpr (List.mem_map_of_mem hr))
    simp only [recordContent, Prod.mk.injEq] at hcontent
    have hkey : r'.sameKey r = true := by
      simp [DnsRecord.sameKey, hcontent]
    rw [List.mem_filter] at hr'
    rw [← key_inj hr'.1 hr hkey]
    exact hr'.2
  · intro h content
    rw [List.filter_eq_self.mpr h]

/-- **After the rollback the store has the records it had before the apply exactly when no
conflicting row with the policy `replace` meets a record of its name and type.** -/
theorem rollback_restores_iff (ctx : ApplyContext) (records : RecordRows) (aliases : AliasRows)
    (job : List ImportRow)
    (hsettled : ∀ p ∈ previewJob ctx.data ctx.defaultDomain records job,
      ¬(p.2 && ctx.policy p.1.index = .skip) = true → p.1.Settled ctx.data) :
    let applied := applyJob ctx records aliases job
    (∀ content,
        content ∈ (rollbackJob applied.insertedIds applied.records).1.map recordContent ↔
          content ∈ records.1.map recordContent) ↔
      ∀ p ∈ previewJob ctx.data ctx.defaultDomain records job, replaces ctx p.1 p.2 = true →
        ∀ r ∈ records.1, p.1.overwrites r = false := by
  intro applied
  have hstart : Traced (fun _ => true) records ⟨records, aliases, [], []⟩ :=
    ⟨[], by simp, by simp, by simp⟩
  have htraced := hstart.foldl _ hsettled
  rw [show (rollbackJob applied.insertedIds applied.records).1 = _ from htraced.rollback,
    contents_filter_iff]
  simp only [Bool.true_and, List.all_eq_true, keptBy, Bool.not_eq_true', Bool.and_eq_false_iff]
  constructor
  · intro h p hp hreplaces r hr
    simpa [hreplaces] using h r hr p hp
  · intro h r hr p hp
    by_cases hreplaces : replaces ctx p.1 p.2 = true
    · exact .inr (h p hp hreplaces r hr)
    · exact .inl (by simpa using hreplaces)

/-! ### A record that is replaced

The store has one address for a host, and the import another one. -/

def nasStore : RecordRows :=
  (LegalRows.check [{ id := 1, name := "nas".toList, fqdn := "nas.home.arpa".toList
                      recordType := .a, value := "192.0.2.1".toList, ttl := 300, comment := []
                      enabled := true, autoPtr := false, ptrRecordId := none
                      named := by decide +kernel }]).getD LegalRows.empty

def nasJob : List ImportRow :=
  [{ hostname := "nas".toList, ipv4 := "192.0.2.9".toList }]

def asciiContext (policy : ConflictPolicy) : ApplyContext where
  data := { asciiParserData with isPrivate := fun _ => true }
  defaultDomain := "home.arpa".toList
  policy _ := policy
  now := "2026-01-01T00:00:00+00:00".toList

/-- With `merge` the rollback restores the store, with `replace` it does not. -/
theorem rollback_restores_iff_nas :
    (∀ content, content ∈ (rollbackJob
        (applyJob (asciiContext .merge) nasStore LegalRows.empty nasJob).insertedIds
        (applyJob (asciiContext .merge) nasStore LegalRows.empty nasJob).records).1.map
          recordContent ↔ content ∈ nasStore.1.map recordContent) ∧
    ¬∀ content, content ∈ (rollbackJob
        (applyJob (asciiContext .replace) nasStore LegalRows.empty nasJob).insertedIds
        (applyJob (asciiContext .replace) nasStore LegalRows.empty nasJob).records).1.map
          recordContent ↔ content ∈ nasStore.1.map recordContent := by
  constructor
  · exact (rollback_restores_iff (asciiContext .merge) nasStore LegalRows.empty nasJob
      (by decide +kernel)).mpr (by decide +kernel)
  · exact (rollback_restores_iff (asciiContext .replace) nasStore LegalRows.empty nasJob
      (by decide +kernel)).not.mpr (by decide +kernel)

/-- The address that the store had is lost. -/
theorem replaced_lost : ¬∀ (ctx : ApplyContext) (records : RecordRows) (aliases : AliasRows)
    (job : List ImportRow),
    let applied := applyJob ctx records aliases job
    ∀ content,
      content ∈ (rollbackJob applied.insertedIds applied.records).1.map recordContent ↔
        content ∈ records.1.map recordContent := by
  intro h
  have hnas := (h (asciiContext .replace) nasStore LegalRows.empty nasJob
    ("nas.home.arpa".toList, .a, "192.0.2.1".toList, 300, [], true)).mpr
  revert hnas
  decide +kernel

end AlderpointDNS.Importer
