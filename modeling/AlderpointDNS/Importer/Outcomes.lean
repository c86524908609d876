import AlderpointDNS.Importer.RecordJobs

/-!
# What is reported of the rows of an import

`apply_job` reports an outcome for each row.  A row takes up to three transactions, and a later row
may replace the record of an earlier one.

* `stores_iff` — when `add_record` adds a record, and which one;
* `mem_contents_applyRow`, `rowOutcome_eq_applied` — what a row does, and what is reported of it;
* `mem_contents_foldl` — what is in the store after some rows;
* **`outcomesTrue_iff`** — when the report is true.
* `failed_stored` — a record whose row is reported as failed.
-/

namespace AlderpointDNS.Importer

open Text Ipaddress LocalDns

/-! ## Records and their contents -/

/-- `(fqdn, type, value, ttl, comment, enabled)`. -/
abbrev RecordContent := Str × RecordType × Str × ℕ × Str × Bool

def contents (rows : RecordRows) : List RecordContent := rows.1.map recordContent

/-- The record that is reported of a row. -/
def RowItem.content (item : RowItem) : RecordContent :=
  (item.record.name.1, item.record.recordType, item.record.value, item.record.ttl,
    item.row.comment, item.row.enabled ≠ "0".toList)

section Defs

variable (ctx : ApplyContext)

/-- `is_conflict and policy == "skip"`. -/
def skips (p : RowItem × Bool) : Bool := p.2 && ctx.policy p.1.index = .skip

/-- The record can be added to the rows, as `c`: it is still valid, it is in no conflict, or
overrides it, and it is not there yet. -/
def Stores (rows : RecordRows) (p : RowItem × Bool) (c : RecordContent) : Prop :=
  ∃ name ttl value,
    LocalDns.normalizeDomain ctx.data.toUnicodeData p.1.record.name.1 = some name ∧
    validateTtl (some p.1.record.ttl) = some ttl ∧
    validateValue ctx.data.toUnicodeData p.1.record.recordType p.1.record.value = some value ∧
    (∃ findings, recordFindings ctx.data.localData rows.1 name.1 p.1.record.recordType value none
        = some findings ∧ (p.2 = true ∨ ∀ f ∈ findings, f.severity ≠ .conflict)) ∧
    (∀ r ∈ rows.1, ¬(r.fqdn = name.1 ∧ r.recordType = p.1.record.recordType ∧ r.value = value)) ∧
    c = (name.1, p.1.record.recordType, value, ttl, p.1.row.comment,
      decide (p.1.row.enabled ≠ "0".toList))

/-- A row deletes the records of this name and type. -/
def deletes (p : RowItem × Bool) (c : RecordContent) : Bool :=
  replaces ctx p.1 p.2 && (c.1 = p.1.record.name.1 && c.2.1 = p.1.record.recordType)

/-- The client columns are blank, or name a network. -/
def AliasReadable (row : ImportRow) : Prop :=
  strip row.clientAlias ≠ [] → strip row.clientIdOrCidr ≠ [] →
    (ipNetworkStr (strip row.clientIdOrCidr)).isSome = true

end Defs

variable {ctx : ApplyContext} {s : ApplyState} {p : RowItem × Bool} {c : RecordContent}

/-! ## One row -/

/-- A record with a new key can be appended. -/
theorem pairwise_newRecord (rows : RecordRows) (r : DnsRecord)
    (hid : r.id = LocalDns.nextId rows.1) (hfree : ∀ r' ∈ rows.1, r'.sameKey r = false) :
    (rows.1 ++ [r]).Pairwise fun r s => recordConflict r s = false := by
  refine List.pairwise_append.mpr ⟨rows.2, List.pairwise_singleton _ _, ?_⟩
  intro r' hr' r'' hr''
  rw [List.mem_singleton.mp hr'', recordConflict, hfree r' hr', hid]
  simp [id_lt_nextId hr']

theorem accept_eq_some_iff {findings : List Finding} {override : Bool} :
    (∃ messages, accept findings override = some messages) ↔
      override = true ∨ ∀ f ∈ findings, f.severity ≠ .conflict := by
  unfold accept
  split_ifs with h
  · simp only [Bool.and_eq_true, List.any_eq_true, decide_eq_true_eq, Bool.not_eq_true'] at h
    obtain ⟨⟨f, hf, hconflict⟩, hoverride⟩ := h
    simp only [exists_false, hoverride, Bool.false_eq_true, false_or, false_iff]
    exact fun hnone => hnone f hf hconflict
  · refine iff_of_true ⟨_, rfl⟩ ?_
    cases override with
    | true => exact Or.inl rfl
    | false => exact Or.inr (by simpa using h)

/-- **When `add_record` adds a record**, and which one. -/
theorem stores_iff {rows : RecordRows} : Stores ctx rows p c ↔
    ∃ messages rows' r, addRecord ctx.data.localData p.1.record.recordType p.1.record.name.1
        p.1.record.value (some p.1.record.ttl) p.1.row.comment (p.1.row.enabled ≠ "0".toList) p.2
        rows = some (messages, rows') ∧ rows'.1 = rows.1 ++ [r] ∧ recordContent r = c := by
  constructor
  · rintro ⟨name, ttl, value, hname, httl, hvalue, ⟨findings, hfindings, hconflict⟩, hfree, rfl⟩
    obtain ⟨messages, haccept⟩ := accept_eq_some_iff.mpr hconflict
    have hlegal := pairwise_newRecord rows (newRecord (LocalDns.nextId rows.1)
      p.1.record.recordType name value ttl p.1.row.comment (p.1.row.enabled ≠ "0".toList)) rfl
      fun r hr => by simpa [DnsRecord.sameKey, newRecord, and_assoc] using hfree r hr
    refine ⟨messages, ⟨_, hlegal⟩, _, ?_, rfl, rfl⟩
    have hcheck : LegalRows.check (rows.1 ++ [newRecord (LocalDns.nextId rows.1)
        p.1.record.recordType name value ttl p.1.row.comment (p.1.row.enabled ≠ "0".toList)])
          = some ⟨_, hlegal⟩ := dif_pos hlegal
    have hname' : LocalDns.normalizeDomain ctx.data.localData.toUnicodeData p.1.record.name.1
      = some name := hname
    have hvalue' : validateValue ctx.data.localData.toUnicodeData p.1.record.recordType
      p.1.record.value = some value := hvalue
    simp only [addRecord, hname', httl, hvalue', hfindings, haccept, hcheck, Option.bind_eq_bind,
      Option.bind_some, Option.pure_def]
  · rintro ⟨messages, rows', r, hadd, hrows, rfl⟩
    simp only [addRecord, Option.bind_eq_bind, Option.bind_eq_some_iff, Option.pure_def,
      Option.some.injEq, Prod.mk.injEq] at hadd
    obtain ⟨name, hname, ttl, httl, value, hvalue, findings, hfindings, messages', haccept, t, ht, -,
      rfl⟩ := hadd
    have hchecked := LegalRows.check_eq_some ht
    obtain rfl := List.singleton_inj.mp (List.append_cancel_left (hchecked.symm.trans hrows))
    refine ⟨name, ttl, value, hname, httl, hvalue,
      ⟨findings, hfindings, accept_eq_some_iff.mp ⟨messages', haccept⟩⟩, ?_, rfl⟩
    intro r' hr' hkey
    have hpairwise := t.2
    rw [hchecked] at hpairwise
    have hconflict := (List.pairwise_append.mp hpairwise).2.2 r' hr' _ (List.mem_singleton_self _)
    simp [recordConflict, DnsRecord.sameKey, newRecord, hkey] at hconflict

theorem Stores.unique {rows : RecordRows} {c' : RecordContent} (h : Stores ctx rows p c)
    (h' : Stores ctx rows p c') : c = c' := by
  obtain ⟨messages, rows', r, hadd, hrows, rfl⟩ := stores_iff.mp h
  obtain ⟨messages', rows'', r', hadd', hrows', rfl⟩ := stores_iff.mp h'
  obtain ⟨-, rfl⟩ := Prod.mk.inj (Option.some.inj (hadd.symm.trans hadd'))
  rw [List.singleton_inj.mp (List.append_cancel_left (hrows.symm.trans hrows'))]

/-- A row that is skipped. -/
theorem applyRow_of_skips (h : skips ctx p = true) :
    applyRow ctx s p = { s with outcomes := s.outcomes ++ [.skipped] } := by
  rw [skips] at h
  simp only [applyRow, h, if_true]

/-- A row whose record cannot be added. -/
theorem applyRow_of_not_stores (hskips : skips ctx p = false)
    (h : ∀ c, ¬Stores ctx (clearRow ctx p.1 p.2 s.records) p c) :
    applyRow ctx s p = { s with
      records := clearRow ctx p.1 p.2 s.records
      outcomes := s.outcomes ++ [.failed] } := by
  rw [skips] at hskips
  cases hadd : addRecord ctx.data.localData p.1.record.recordType p.1.record.name.1
      p.1.record.value (some p.1.record.ttl) p.1.row.comment (p.1.row.enabled ≠ "0".toList) p.2
      (clearRow ctx p.1 p.2 s.records) with
  | none => simp only [applyRow, hskips, hadd, Bool.false_eq_true, if_false]
  | some added =>
      obtain ⟨messages, rows'⟩ := added
      obtain ⟨name, value, ttl, -, -, -, hrows⟩ := addRecord_spec hadd
      exact absurd (stores_iff.mpr ⟨messages, rows', _, hadd, hrows, rfl⟩) (h _)

/-- A row whose record is added. -/
theorem applyRow_of_stores (hskips : skips ctx p = false)
    (h : Stores ctx (clearRow ctx p.1 p.2 s.records) p c) :
    ∃ r, recordContent r = c ∧
      (applyRow ctx s p).records.1 = (clearRow ctx p.1 p.2 s.records).1 ++ [r] ∧
      (applyRow ctx s p).outcomes = s.outcomes ++
        [if (upsertRowAlias ctx s.aliases p.1.row).isSome then .applied else .failed] := by
  obtain ⟨messages, rows', r, hadd, hrows, hcontent⟩ := stores_iff.mp h
  refine ⟨r, hcontent, ?_⟩
  rw [skips] at hskips
  cases halias : upsertRowAlias ctx s.aliases p.1.row with
  | none =>
      simp only [applyRow, hskips, hadd, halias, Bool.false_eq_true, if_false, Option.isSome_none]
      exact ⟨hrows, trivial⟩
  | some aliases =>
      simp only [applyRow, hskips, hadd, halias, Bool.false_eq_true, if_false, Option.isSome_some,
        if_true]
      exact ⟨hrows, trivial⟩

theorem upsertRowAlias_isSome (ctx : ApplyContext) (aliases : AliasRows) {row : ImportRow} :
    (upsertRowAlias ctx aliases row).isSome = true ↔ AliasReadable row := by
  unfold upsertRowAlias AliasReadable
  split_ifs with h
  · cases ipNetworkStr (strip row.clientIdOrCidr) with
    | none =>
        constructor
        · intro hnone
          cases hnone
        · exact fun hreadable => absurd (hreadable h.1 h.2) (by simp)
    | some network => exact ⟨fun _ _ _ => rfl, fun _ => rfl⟩
  · simp only [Option.isSome_some, true_iff]
    exact fun halias hclient => absurd ⟨halias, hclient⟩ h

/-! ## The store -/

theorem mem_contents {rows : RecordRows} : c ∈ contents rows ↔ ∃ r ∈ rows.1, recordContent r = c :=
  List.mem_map

theorem mem_contents_clearRow : c ∈ contents (clearRow ctx p.1 p.2 s.records) ↔
    c ∈ contents s.records ∧ deletes ctx p c = false := by
  have hkept (r : DnsRecord) : keptBy ctx p r = !deletes ctx p (recordContent r) := rfl
  rw [mem_contents, clearRow_eq, mem_contents]
  constructor
  · rintro ⟨r, hr, rfl⟩
    rw [List.mem_filter, hkept, Bool.not_eq_true'] at hr
    exact ⟨⟨r, hr.1, rfl⟩, hr.2⟩
  · rintro ⟨⟨r, hr, rfl⟩, hdeletes⟩
    refine ⟨r, ?_, rfl⟩
    rw [List.mem_filter, hkept, hdeletes]
    exact ⟨hr, rfl⟩

/-- A row that is carried out stores its record. -/
def Adds (ctx : ApplyContext) (s : ApplyState) (p : RowItem × Bool) (c : RecordContent) : Prop :=
  skips ctx p = false ∧ Stores ctx (clearRow ctx p.1 p.2 s.records) p c

theorem deletes_of_skips (h : skips ctx p = true) (c : RecordContent) :
    deletes ctx p c = false := by
  simp only [skips, Bool.and_eq_true, decide_eq_true_eq] at h
  simp [deletes, replaces, h.2]

/-- **One row**: the records that it does not delete, and its own. -/
theorem mem_contents_applyRow : c ∈ contents (applyRow ctx s p).records ↔
    c ∈ contents s.records ∧ deletes ctx p c = false ∨ Adds ctx s p c := by
  by_cases hskips : skips ctx p = true
  · rw [applyRow_of_skips hskips]
    simp [Adds, hskips, deletes_of_skips hskips]
  · rw [Bool.not_eq_true] at hskips
    by_cases hstores : ∃ c', Stores ctx (clearRow ctx p.1 p.2 s.records) p c'
    · obtain ⟨c', hstores⟩ := hstores
      obtain ⟨r, hr, hrecords, -⟩ := applyRow_of_stores hskips hstores
      have hadds : Adds ctx s p c ↔ c = c' := by
        constructor
        · exact fun hadds => hadds.2.unique hstores
        · rintro rfl
          exact ⟨hskips, hstores⟩
      rw [hadds, ← mem_contents_clearRow, contents, hrecords, List.map_append, List.mem_append,
        List.map_singleton, hr, List.mem_singleton, contents]
    · rw [applyRow_of_not_stores hskips fun c' h => hstores ⟨c', h⟩, mem_contents_clearRow]
      have hnot : ¬Adds ctx s p c := fun h => hstores ⟨c, h.2⟩
      simp [hnot]

/-- **What is in the store after some rows**: what was there or has been stored, and has not been
deleted after that. -/
theorem mem_contents_foldl (items : List (RowItem × Bool)) (s : ApplyState) :
    c ∈ contents (items.foldl (applyRow ctx) s).records ↔
      c ∈ contents s.records ∧ (∀ q ∈ items, deletes ctx q c = false) ∨
      ∃ pre q post, items = pre ++ q :: post ∧ Adds ctx (pre.foldl (applyRow ctx) s) q c ∧
        ∀ q' ∈ post, deletes ctx q' c = false := by
  induction items generalizing s with
  | nil => simp
  | cons p items ih =>
      rw [List.foldl_cons, ih, mem_contents_applyRow]
      constructor
      · rintro (⟨⟨hold, hp⟩ | hadds, hrest⟩ | ⟨pre, q, post, rfl, hadds, hpost⟩)
        · exact Or.inl ⟨hold, List.forall_mem_cons.mpr ⟨hp, hrest⟩⟩
        · exact Or.inr ⟨[], p, items, rfl, hadds, hrest⟩
        · exact Or.inr ⟨p :: pre, q, post, rfl, hadds, hpost⟩
      · rintro (⟨hold, hall⟩ | ⟨pre, q, post, hsplit, hadds, hpost⟩)
        · obtain ⟨hp, hrest⟩ := List.forall_mem_cons.mp hall
          exact Or.inl ⟨Or.inl ⟨hold, hp⟩, hrest⟩
        · cases pre with
          | nil =>
              obtain ⟨rfl, rfl⟩ := List.cons.inj hsplit
              exact Or.inl ⟨Or.inr hadds, hpost⟩
          | cons p' pre =>
              obtain ⟨rfl, rfl⟩ := List.cons.inj hsplit
              exact Or.inr ⟨pre, q, post, rfl, hadds, hpost⟩

/-! ## The report -/

/-- What is reported of a row. -/
def rowOutcome (ctx : ApplyContext) (s : ApplyState) (p : RowItem × Bool) : RowOutcome :=
  ((applyRow ctx s p).outcomes.getLast?).getD .skipped

theorem rowOutcome_eq {outcome : RowOutcome}
    (h : (applyRow ctx s p).outcomes = s.outcomes ++ [outcome]) :
    rowOutcome ctx s p = outcome := by
  rw [rowOutcome, h, List.getLast?_concat, Option.getD_some]

theorem outcomes_applyRow : (applyRow ctx s p).outcomes = s.outcomes ++ [rowOutcome ctx s p] := by
  have hone : ∃ outcome, (applyRow ctx s p).outcomes = s.outcomes ++ [outcome] := by
    by_cases hskips : skips ctx p = true
    · exact ⟨.skipped, by rw [applyRow_of_skips hskips]⟩
    · rw [Bool.not_eq_true] at hskips
      by_cases hstores : ∃ c, Stores ctx (clearRow ctx p.1 p.2 s.records) p c
      · obtain ⟨c, hstores⟩ := hstores
        obtain ⟨r, -, -, houtcomes⟩ := applyRow_of_stores hskips hstores
        exact ⟨_, houtcomes⟩
      · exact ⟨.failed, by rw [applyRow_of_not_stores hskips fun c h => hstores ⟨c, h⟩]⟩
  obtain ⟨outcome, houtcome⟩ := hone
  rw [rowOutcome_eq houtcome, houtcome]

/-- The report of a row is that of its round. -/
theorem outcome_foldl (pre post : List (RowItem × Bool)) (p : RowItem × Bool) (s : ApplyState)
    (hs : s.outcomes = []) :
    ((pre ++ p :: post).foldl (applyRow ctx) s).outcomes[pre.length]?
      = some (rowOutcome ctx (pre.foldl (applyRow ctx) s) p) := by
  have hlength : ∀ (items : List (RowItem × Bool)) (s : ApplyState),
      (items.foldl (applyRow ctx) s).outcomes.length = s.outcomes.length + items.length := by
    intro items
    induction items with
    | nil => simp
    | cons q items ih =>
        intro s
        rw [List.foldl_cons, ih, outcomes_applyRow]
        simp
        omega
  have hprefix : ∀ (items : List (RowItem × Bool)) (s : ApplyState),
      s.outcomes <+: (items.foldl (applyRow ctx) s).outcomes := by
    intro items
    induction items with
    | nil => exact fun s => List.prefix_rfl
    | cons q items ih =>
        intro s
        have hone : s.outcomes <+: (applyRow ctx s q).outcomes := by
          rw [outcomes_applyRow]
          exact List.prefix_append _ _
        exact hone.trans (ih _)
  rw [List.foldl_append, List.foldl_cons]
  obtain ⟨later, hlater⟩ := hprefix post (applyRow ctx (pre.foldl (applyRow ctx) s) p)
  have hpre : (pre.foldl (applyRow ctx) s).outcomes.length = pre.length := by
    rw [hlength, hs, List.length_nil, Nat.zero_add]
  rw [← hlater, outcomes_applyRow, List.append_assoc, ← hpre]
  simp

/-- **When a row is reported as applied.** -/
theorem rowOutcome_eq_applied : rowOutcome ctx s p = .applied ↔
    (∃ c, Adds ctx s p c) ∧ AliasReadable p.1.row := by
  by_cases hskips : skips ctx p = true
  · have houtcome := rowOutcome_eq (congrArg ApplyState.outcomes (applyRow_of_skips (s := s) hskips))
    simp [houtcome, Adds, hskips]
  · rw [Bool.not_eq_true] at hskips
    by_cases hstores : ∃ c, Stores ctx (clearRow ctx p.1 p.2 s.records) p c
    · obtain ⟨c, hstores⟩ := hstores
      obtain ⟨r, -, -, houtcomes⟩ := applyRow_of_stores hskips hstores
      have hadds : ∃ c, Adds ctx s p c := ⟨c, hskips, hstores⟩
      rw [rowOutcome_eq houtcomes, ← upsertRowAlias_isSome ctx s.aliases]
      split_ifs with halias <;> simp [hadds, halias]
    · have houtcome := rowOutcome_eq (congrArg ApplyState.outcomes
        (applyRow_of_not_stores hskips fun c h => hstores ⟨c, h⟩))
      have hnot : ¬∃ c, Adds ctx s p c := fun ⟨c, h⟩ => hstores ⟨c, h.2⟩
      simp [houtcome, hnot]

/-- A row leaves the store as it is, in each of its transactions. -/
structure NothingDone (ctx : ApplyContext) (s : ApplyState) (p : RowItem × Bool) : Prop where
  deleted : clearRow ctx p.1 p.2 s.records = s.records
  records : (applyRow ctx s p).records = s.records
  aliases : (applyRow ctx s p).aliases = s.aliases

/-- The report is true: every applied row has its record in the store, and no other row has changed
anything. -/
def OutcomesTrue (ctx : ApplyContext) (records : RecordRows) (aliases : AliasRows)
    (job : List ImportRow) : Prop :=
  ∀ pre p post, previewJob ctx.data ctx.defaultDomain records job = pre ++ p :: post →
    match (applyJob ctx records aliases job).outcomes[pre.length]? with
    | some RowOutcome.applied =>
        p.1.content ∈ contents (applyJob ctx records aliases job).records
    | some _ => NothingDone ctx (pre.foldl (applyRow ctx) ⟨records, aliases, [], []⟩) p
    | none => False

/-- What the rows do last to a record is to store it. -/
def StoredLast (ctx : ApplyContext) (s : ApplyState) (items : List (RowItem × Bool))
    (c : RecordContent) : Prop :=
  c ∈ contents s.records ∧ (∀ q ∈ items, deletes ctx q c = false) ∨
    ∃ pre q post, items = pre ++ q :: post ∧ Adds ctx (pre.foldl (applyRow ctx) s) q c ∧
      ∀ q' ∈ post, deletes ctx q' c = false

/-- A row that is not skipped: if its record can be stored, then so can its alias, and no later row
replaces it for good; if not, then it replaces nothing. -/
def RowSound (ctx : ApplyContext) (start : ApplyState) (pre : List (RowItem × Bool))
    (p : RowItem × Bool) (post : List (RowItem × Bool)) : Prop :=
  let s := pre.foldl (applyRow ctx) start
  if skips ctx p then True
  else (∃ c, Stores ctx (clearRow ctx p.1 p.2 s.records) p c) ∧ AliasReadable p.1.row ∧
      StoredLast ctx start (pre ++ p :: post) p.1.content ∨
    (∀ c, ¬Stores ctx (clearRow ctx p.1 p.2 s.records) p c) ∧
      ∀ c ∈ contents s.records, deletes ctx p c = false

theorem clearRow_eq_self_iff :
    clearRow ctx p.1 p.2 s.records = s.records ↔
      ∀ c ∈ contents s.records, deletes ctx p c = false := by
  rw [Subtype.ext_iff, clearRow_eq, List.filter_eq_self]
  constructor
  · intro h c hc
    obtain ⟨r, hr, rfl⟩ := mem_contents.mp hc
    have hkept := h r hr
    rwa [keptBy, Bool.not_eq_true'] at hkept
  · intro h r hr
    rw [keptBy, Bool.not_eq_true']
    exact h (recordContent r) (mem_contents.mpr ⟨r, hr, rfl⟩)

/-- **A row that is not reported as applied has done nothing** exactly if it is skipped, or its
record could not be stored and it replaces none. -/
theorem nothingDone_iff : NothingDone ctx s p ↔ skips ctx p = true ∨
    (∀ c, ¬Stores ctx (clearRow ctx p.1 p.2 s.records) p c) ∧
      ∀ c ∈ contents s.records, deletes ctx p c = false := by
  by_cases hskips : skips ctx p = true
  · refine iff_of_true ?_ (Or.inl hskips)
    have hrow := applyRow_of_skips (s := s) hskips
    refine ⟨clearRow_eq_self_iff.mpr fun c _ => deletes_of_skips hskips c, ?_, ?_⟩
    · rw [hrow]
    · rw [hrow]
  · rw [← clearRow_eq_self_iff]
    simp only [hskips, Bool.false_eq_true, false_or]
    rw [Bool.not_eq_true] at hskips
    constructor
    · rintro ⟨hdeleted, hrecords, -⟩
      refine ⟨fun c hstores => ?_, hdeleted⟩
      obtain ⟨r, -, hadded, -⟩ := applyRow_of_stores hskips hstores
      have hlength := congrArg List.length hadded
      rw [hrecords, hdeleted, List.length_append, List.length_singleton] at hlength
      omega
    · rintro ⟨hstores, hdeleted⟩
      have hrow := applyRow_of_not_stores hskips hstores
      refine ⟨hdeleted, ?_, ?_⟩
      · rw [hrow]
        exact hdeleted
      · rw [hrow]

/-- What is asked of a row is what makes its report true. -/
theorem rowSound_iff {start : ApplyState} {pre post : List (RowItem × Bool)} :
    RowSound ctx start pre p post ↔
      if rowOutcome ctx (pre.foldl (applyRow ctx) start) p = .applied then
        StoredLast ctx start (pre ++ p :: post) p.1.content
      else NothingDone ctx (pre.foldl (applyRow ctx) start) p := by
  unfold RowSound
  generalize pre.foldl (applyRow ctx) start = s
  dsimp only
  by_cases happlied : rowOutcome ctx s p = .applied
  · rw [if_pos happlied]
    obtain ⟨⟨c, hskips, hstores⟩, halias⟩ := rowOutcome_eq_applied.mp happlied
    rw [hskips, if_neg (by simp)]
    constructor
    · rintro (⟨-, -, hlast⟩ | ⟨hnot, -⟩)
      · exact hlast
      · exact absurd hstores (hnot c)
    · exact fun hlast => Or.inl ⟨⟨c, hstores⟩, halias, hlast⟩
  · rw [if_neg happlied, nothingDone_iff]
    by_cases hskips : skips ctx p = true
    · simp [hskips]
    · rw [if_neg hskips]
      rw [Bool.not_eq_true] at hskips
      constructor
      · rintro (⟨⟨c, hstores⟩, halias, -⟩ | hidle)
        · exact absurd (rowOutcome_eq_applied.mpr ⟨⟨c, hskips, hstores⟩, halias⟩) happlied
        · exact Or.inr hidle
      · rintro (hskips' | hidle)
        · rw [hskips] at hskips'
          cases hskips'
        · exact Or.inr hidle

/-- **When the report of an import is true.** -/
theorem outcomesTrue_iff (ctx : ApplyContext) (records : RecordRows) (aliases : AliasRows)
    (job : List ImportRow) :
    OutcomesTrue ctx records aliases job ↔
      ∀ pre p post, previewJob ctx.data ctx.defaultDomain records job = pre ++ p :: post →
        RowSound ctx ⟨records, aliases, [], []⟩ pre p post := by
  refine forall_congr' fun pre => forall_congr' fun p => forall_congr' fun post =>
    forall_congr' fun hsplit => ?_
  have hjob : applyJob ctx records aliases job
      = (pre ++ p :: post).foldl (applyRow ctx) ⟨records, aliases, [], []⟩ := by
    rw [applyJob, hsplit]
  have hlast : p.1.content ∈ contents (applyJob ctx records aliases job).records ↔
      StoredLast ctx ⟨records, aliases, [], []⟩ (pre ++ p :: post) p.1.content := by
    rw [hjob]
    exact mem_contents_foldl _ _
  have hreport : (applyJob ctx records aliases job).outcomes[pre.length]?
      = some (rowOutcome ctx (pre.foldl (applyRow ctx) ⟨records, aliases, [], []⟩) p) := by
    rw [hjob]
    exact outcome_foldl pre post p _ rfl
  rw [hreport, rowSound_iff, ← hlast]
  cases rowOutcome ctx (pre.foldl (applyRow ctx) ⟨records, aliases, [], []⟩) p with
  | applied => simp
  | skipped => simp
  | failed => simp

/-! ### An alias that cannot be read

The import of one address, of a client that is known by a name. -/

def boxJob : List ImportRow :=
  [{ hostname := "nas".toList, ipv4 := "192.0.2.9".toList, clientAlias := "NAS".toList
     clientIdOrCidr := "nas-box".toList }]

/-- **The row is reported as failed, and its record is there.** -/
theorem failed_stored : ¬∀ (ctx : ApplyContext) (records : RecordRows) (aliases : AliasRows)
    (job : List ImportRow), OutcomesTrue ctx records aliases job := by
  intro h
  have hone : (previewJob (asciiContext .skip).data (asciiContext .skip).defaultDomain
      LegalRows.empty boxJob).length = 1 := by decide +kernel
  obtain ⟨p, hp⟩ := List.length_eq_one_iff.mp hone
  have htrue := h (asciiContext .skip) LegalRows.empty LegalRows.empty boxJob [] p [] hp
  have hreport : (applyJob (asciiContext .skip) LegalRows.empty LegalRows.empty boxJob).outcomes
      = [.failed] := by decide +kernel
  have hrecords : (applyJob (asciiContext .skip) LegalRows.empty LegalRows.empty
      boxJob).records.1.length = 1 := by decide +kernel
  rw [hreport] at htrue
  have hempty := congrArg (fun rows : RecordRows => rows.1.length) htrue.records
  rw [applyJob, hp] at hrecords
  exact absurd (hrecords.symm.trans hempty) (by decide)

end AlderpointDNS.Importer
