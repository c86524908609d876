import AlderpointDNS.Importer.Outcomes

/-!
# What the preview of an import promises

`preview_job` lists the rows of a job as valid or as conflicts.  `apply_job` makes a preview of its
own, which takes the domain of the settings for a row without a domain, adds the valid rows one
after another, and with the policy `skip` skips the others.

* `previewRows_getElem?` — what the preview makes of a row, by the rows before it;
* `previewJob_eq` — the rows that are applied;
* `mem_report_applied`, `mem_report_skipped` — what is reported of them;
* **`previewHolds_iff`** — when the report says what the preview said.
* `second_address_fails` — an address that the preview lists as valid, and the apply refuses.
-/

namespace AlderpointDNS.Importer

open Text Ipaddress LocalDns

/-! ## The rows of a preview -/

section Defs

variable (d : ImportData) (domain : Str) (rows : RecordRows)

/-- `key`, of a row that has a record. -/
def ImportRow.key (row : ImportRow) : Option (Str × RecordType × Str) :=
  (row.toRecord d domain).map fun record => (record.name.1, record.recordType, record.value)

/-- The list of a row without conflicts, or with some. -/
def RowFinding.ofConflicts : Bool → RowFinding
  | false => .valid
  | true => .conflict

/-- The record of a row that comes after the rows `before`, unless an earlier row has the same, if
the store has conflicts with it, or none. -/
def listedRecord (conflicts : Bool) (before : List ImportRow) (row : ImportRow) :
    Option ValidRecord :=
  (row.toRecord d domain).filter fun record =>
    !(before.filterMap (ImportRow.key d domain)).contains
        (record.name.1, record.recordType, record.value)
      && (recordFindings d.localData rows.1 record.name.1 record.recordType record.value none).any
        fun findings => (findings.any (·.severity = .conflict)) == conflicts

/-- The items of these rows, after the rows `before`. -/
def listedItems (conflicts : Bool) : List ImportRow → List ImportRow → List RowItem
  | _, [] => []
  | before, row :: rest =>
      ((listedRecord d domain rows conflicts before row).map
          fun record => ⟨before.length, row, record⟩).toList
        ++ listedItems conflicts (before ++ [row]) rest

end Defs

/-- The row with this index, and the rows before it. -/
def RowAt (job : List ImportRow) (i : ℕ) (P : List ImportRow → ImportRow → Prop) : Prop :=
  ∃ before row after, job = before ++ row :: after ∧ before.length = i ∧ P before row

theorem rowAt_iff {before after job : List ImportRow} {row : ImportRow}
    {P : List ImportRow → ImportRow → Prop} (hjob : job = before ++ row :: after) :
    RowAt job before.length P ↔ P before row := by
  constructor
  · rintro ⟨before', row', after', hjob', hlength, h⟩
    obtain ⟨rfl, hrest⟩ := List.append_inj (hjob.symm.trans hjob') hlength.symm
    obtain ⟨rfl, -⟩ := List.cons.inj hrest
    exact h
  · exact fun h => ⟨before, row, after, hjob, rfl, h⟩

section Preview

variable {d : ImportData} {domain : Str} {rows : RecordRows} {conflicts : Bool}
  {seen : List (Str × RecordType × Str)} {before : List ImportRow}

/-- The keys that the preview has seen are those of the rows before. -/
def Seen (d : ImportData) (domain : Str) (before : List ImportRow)
    (seen : List (Str × RecordType × Str)) : Prop :=
  ∀ key, key ∈ seen ↔ key ∈ before.filterMap (ImportRow.key d domain)

/-- One row of the preview. -/
theorem Seen.previewRow (h : Seen d domain before seen) (rows : RecordRows) (conflicts : Bool)
    (row : ImportRow) :
    ((previewRow d domain rows seen row).1 = .ofConflicts conflicts ↔
      (listedRecord d domain rows conflicts before row).isSome = true) ∧
    Seen d domain (before ++ [row]) (previewRow d domain rows seen row).2 := by
  unfold Importer.previewRow listedRecord
  cases hrecord : row.toRecord d domain with
  | none =>
      refine ⟨by cases conflicts <;> simp [RowFinding.ofConflicts], fun key => ?_⟩
      simp [h key, ImportRow.key, hrecord]
  | some record =>
      have hany : seen.any (· = (record.name.1, record.recordType, record.value)) = true ↔
          (before.filterMap (ImportRow.key d domain)).contains
            (record.name.1, record.recordType, record.value) = true := by
        rw [List.contains_iff_mem, ← h]
        simp
      dsimp only
      by_cases hseen : seen.any (· = (record.name.1, record.recordType, record.value)) = true
      · rw [if_pos hseen]
        refine ⟨?_, fun key => ?_⟩
        · simp only [Option.filter, hany.mp hseen]
          cases conflicts <;> simp [RowFinding.ofConflicts]
        · rw [List.filterMap_append, List.mem_append, ← h]
          simp only [List.any_eq_true, decide_eq_true_eq] at hseen
          obtain ⟨_, hmem, rfl⟩ := hseen
          simp only [List.filterMap_cons, List.filterMap_nil, ImportRow.key, hrecord,
            Option.map_some, List.mem_singleton]
          exact ⟨Or.inl, fun hkey => hkey.elim id fun heq => heq ▸ hmem⟩
      · rw [if_neg hseen]
        refine ⟨?_, fun key => ?_⟩
        · rw [hany, Bool.not_eq_true] at hseen
          simp only [Option.filter, hseen, Bool.not_false, Bool.true_and]
          cases recordFindings d.localData rows.1 record.name.1 record.recordType record.value none
            with
          | none => cases conflicts <;> simp [RowFinding.ofConflicts]
          | some findings =>
              simp only [Option.any_some]
              by_cases hany : findings.any (·.severity = .conflict) = true <;>
                cases conflicts <;> simp [hany, RowFinding.ofConflicts]
        · rw [List.mem_append, h key, List.filterMap_append, List.mem_append]
          simp [ImportRow.key, hrecord]

/-- The finding of the preview for a row, by the rows before it. -/
theorem previewRows_getElem? (rows : RecordRows) (conflicts : Bool) (job : List ImportRow) :
    ∀ {before : List ImportRow} {seen : List (Str × RecordType × Str)},
      Seen d domain before seen → ∀ mid row after, job = mid ++ row :: after →
        ((previewRows d domain rows seen job)[mid.length]? = some (.ofConflicts conflicts) ↔
          (listedRecord d domain rows conflicts (before ++ mid) row).isSome = true) := by
  induction job with
  | nil => simp
  | cons row' rest ih =>
      intro before seen h mid row after hjob
      obtain ⟨hfinding, hseen⟩ := h.previewRow rows conflicts row'
      cases mid with
      | nil =>
          obtain ⟨rfl, rfl⟩ := List.cons.inj hjob
          simpa [previewRows] using hfinding
      | cons row'' mid =>
          obtain ⟨rfl, rfl⟩ := List.cons.inj hjob
          have hrest := ih hseen mid row after rfl
          rw [List.append_assoc, List.singleton_append] at hrest
          simpa [previewRows] using hrest

/-- The items of a finding. -/
theorem itemsOf_eq (job : List ImportRow) :
    ∀ {before : List ImportRow} {seen : List (Str × RecordType × Str)}, Seen d domain before seen →
      ((((job.zip (previewRows d domain rows seen job)).zipIdx before.length).filter
          fun p => p.1.2 = .ofConflicts conflicts).filterMap fun p =>
        (p.1.1.toRecord d domain).map fun record => (⟨p.2, p.1.1, record⟩ : RowItem))
      = listedItems d domain rows conflicts before job := by
  induction job with
  | nil => intro before seen _; rfl
  | cons row rest ih =>
      intro before seen h
      obtain ⟨hfinding, hseen⟩ := h.previewRow rows conflicts row
      have hrest := ih hseen
      rw [List.length_append, List.length_singleton] at hrest
      rw [previewRows, List.zip_cons_cons, List.zipIdx_cons, listedItems, ← hrest]
      by_cases hlisted : (listedRecord d domain rows conflicts before row).isSome = true
      · obtain ⟨record, hrecord⟩ := Option.isSome_iff_exists.mp hlisted
        have htoRecord := (Option.filter_eq_some_iff.mp hrecord).1
        rw [List.filter_cons_of_pos (by simpa using hfinding.mpr hlisted),
          List.filterMap_cons_some (by rw [htoRecord, Option.map_some]), hrecord]
        rfl
      · rw [List.filter_cons_of_neg (by simpa using mt hfinding.mp hlisted)]
        rw [Option.not_isSome_iff_eq_none] at hlisted
        rw [hlisted]
        rfl

/-- The rows that are applied. -/
theorem previewJob_eq (job : List ImportRow) : previewJob d domain rows job =
    (listedItems d domain rows false [] job).map (·, false)
      ++ (listedItems d domain rows true [] job).map (·, true) := by
  have hstart : Seen d domain [] [] := fun key => by simp
  rw [← itemsOf_eq job hstart, ← itemsOf_eq job hstart]
  rfl

theorem listedItems_append (before mid after : List ImportRow) :
    listedItems d domain rows conflicts before (mid ++ after)
      = listedItems d domain rows conflicts before mid
        ++ listedItems d domain rows conflicts (before ++ mid) after := by
  induction mid generalizing before with
  | nil => rw [List.nil_append, List.append_nil, listedItems, List.nil_append]
  | cons row mid ih =>
      rw [List.cons_append, listedItems, listedItems, ih, List.append_assoc, List.append_assoc,
        List.singleton_append]

/-- The item of a row, between those of the rows before it and after it. -/
theorem listedItems_of_listed {row : ImportRow} {record : ValidRecord} (after : List ImportRow)
    (h : listedRecord d domain rows conflicts before row = some record) :
    listedItems d domain rows conflicts [] (before ++ row :: after)
      = listedItems d domain rows conflicts [] before ++ ⟨before.length, row, record⟩ ::
        listedItems d domain rows conflicts (before ++ [row]) after := by
  rw [listedItems_append, List.nil_append, listedItems, h, Option.map_some]
  rfl

/-- The row of an item, and the items before it. -/
theorem exists_row_of_listedItems {item : RowItem} {post : List RowItem} (job : List ImportRow) :
    ∀ {before : List ImportRow} {pre : List RowItem},
      listedItems d domain rows conflicts before job = pre ++ item :: post →
      ∃ mid row after record, job = mid ++ row :: after ∧
        pre = listedItems d domain rows conflicts before mid ∧
        listedRecord d domain rows conflicts (before ++ mid) row = some record ∧
        item = ⟨(before ++ mid).length, row, record⟩ := by
  induction job with
  | nil =>
      intro before pre h
      simp [listedItems] at h
  | cons row' rest ih =>
      intro before pre h
      -- the item is that of a later row
      have hlater : ∀ {pre : List RowItem},
          listedItems d domain rows conflicts (before ++ [row']) rest = pre ++ item :: post →
          ∃ mid row after record, row' :: rest = mid ++ row :: after ∧
            ((listedRecord d domain rows conflicts before row').map
              fun record => ⟨before.length, row', record⟩).toList ++ pre
                = listedItems d domain rows conflicts before mid ∧
            listedRecord d domain rows conflicts (before ++ mid) row = some record ∧
            item = ⟨(before ++ mid).length, row, record⟩ := by
        intro pre hrest
        obtain ⟨mid, row, after, record, rfl, rfl, hrecord, hitem⟩ := ih hrest
        rw [List.append_assoc, List.singleton_append] at hrecord hitem
        exact ⟨row' :: mid, row, after, record, rfl, rfl, hrecord, hitem⟩
      rw [listedItems] at h
      cases hrow : listedRecord d domain rows conflicts before row' with
      | none =>
          rw [hrow] at h hlater
          exact hlater h
      | some record =>
          rw [hrow] at h hlater
          cases pre with
          | nil =>
              obtain ⟨hitem, -⟩ := List.cons.inj h
              refine ⟨[], row', rest, record, rfl, rfl, ?_, ?_⟩
              · rwa [List.append_nil]
              · rw [List.append_nil]
                exact hitem.symm
          | cons first pre =>
              obtain ⟨rfl, hrest⟩ := List.cons.inj h
              exact hlater hrest

end Preview

/-! ## The report -/

/-- An element that is not among the last ones. -/
theorem exists_of_map_append {α β : Type} {f : α → β} {xs : List α} {ys pre post : List β} {p : β}
    (h : xs.map f ++ ys = pre ++ p :: post) (hp : p ∉ ys) :
    ∃ before x after, xs = before ++ x :: after ∧ pre = before.map f ∧ p = f x := by
  rcases List.append_eq_append_iff.mp h with ⟨as, -, hys⟩ | ⟨bs, hxs, hys⟩
  · exact absurd (by simp [hys]) hp
  · cases bs with
    | nil =>
        rw [List.nil_append] at hys
        exact absurd (hys ▸ List.mem_cons_self) hp
    | cons p' bs =>
        obtain ⟨rfl, -⟩ := List.cons.inj hys
        obtain ⟨before, rest, rfl, rfl, hrest⟩ := List.map_eq_append_iff.mp hxs
        obtain ⟨x, after, rfl, rfl, -⟩ := List.map_eq_cons_iff.mp hrest
        exact ⟨before, x, after, rfl, rfl, rfl⟩

section Report

variable (ctx : ApplyContext) (records : RecordRows) (aliases : AliasRows) (job : List ImportRow)

/-- The index and the outcome of each row of `report_rows`. -/
def importReport : List (ℕ × RowOutcome) :=
  ((previewJob ctx.data ctx.defaultDomain records job).map (·.1.index)).zip
    (applyJob ctx records aliases job).outcomes

/-- The store once the record of a row is added to it, if it can be. -/
def joinRow (rows : RecordRows) (item : RowItem) : RecordRows :=
  ((addRecord ctx.data.localData item.record.recordType item.record.name.1 item.record.value
    (some item.record.ttl) item.row.comment (item.row.enabled ≠ "0".toList) false rows).map
      (·.2)).getD rows

/-- The store with the records of some rows. -/
def storeWith (before : List ImportRow) : RecordRows :=
  (listedItems ctx.data ctx.defaultDomain records false [] before).foldl (joinRow ctx) records

/-- The record of a row is no duplicate, has no conflict with the store, and can be added to it
after those of the rows before; and its client columns are blank or name a network. -/
def GoesIn (before : List ImportRow) (row : ImportRow) : Prop :=
  ∃ record, listedRecord ctx.data ctx.defaultDomain records false before row = some record ∧
    AliasReadable row ∧
    ∃ c, Stores ctx (storeWith ctx records before) (⟨before.length, row, record⟩, false) c

variable {ctx records aliases job}

theorem clearRow_of_valid (item : RowItem) (rows : RecordRows) :
    clearRow ctx item false rows = rows := if_neg (by simp [replaces])

/-- A row without conflicts only adds its record. -/
theorem records_applyRow_valid (s : ApplyState) (item : RowItem) :
    (applyRow ctx s (item, false)).records = joinRow ctx s.records item := by
  simp only [applyRow, Bool.false_and, Bool.false_eq_true, if_false, clearRow_of_valid, joinRow]
  cases addRecord ctx.data.localData item.record.recordType item.record.name.1 item.record.value
      (some item.record.ttl) item.row.comment (item.row.enabled ≠ "0".toList) false s.records with
  | none => rfl
  | some added => cases upsertRowAlias ctx s.aliases item.row <;> rfl

theorem records_foldl_valid (items : List RowItem) (s : ApplyState) :
    ((items.map (·, false)).foldl (applyRow ctx) s).records
      = items.foldl (joinRow ctx) s.records := by
  induction items generalizing s with
  | nil => rfl
  | cons item items ih =>
      rw [List.map_cons, List.foldl_cons, List.foldl_cons, ih, records_applyRow_valid]

/-- A line of the report is that of a round. -/
theorem mem_importReport {i : ℕ} {outcome : RowOutcome} :
    (i, outcome) ∈ importReport ctx records aliases job ↔
      ∃ pre p post, previewJob ctx.data ctx.defaultDomain records job = pre ++ p :: post ∧
        p.1.index = i ∧
        rowOutcome ctx (pre.foldl (applyRow ctx) ⟨records, aliases, [], []⟩) p = outcome := by
  have hround : ∀ pre p post, previewJob ctx.data ctx.defaultDomain records job = pre ++ p :: post →
      (applyJob ctx records aliases job).outcomes[pre.length]?
        = some (rowOutcome ctx (pre.foldl (applyRow ctx) ⟨records, aliases, [], []⟩) p) := by
    intro pre p post hsplit
    rw [applyJob, hsplit]
    exact outcome_foldl pre post p _ rfl
  rw [importReport, List.mem_iff_getElem?]
  constructor
  · rintro ⟨k, hk⟩
    obtain ⟨hindex, houtcome⟩ := List.getElem?_zip_eq_some.mp hk
    rw [List.getElem?_map, Option.map_eq_some_iff] at hindex
    obtain ⟨p, hp, rfl⟩ := hindex
    obtain ⟨hlt, hget⟩ := List.getElem?_eq_some_iff.mp hp
    have hsplit := List.take_append_drop k (previewJob ctx.data ctx.defaultDomain records job)
    rw [List.drop_eq_getElem_cons hlt, hget] at hsplit
    refine ⟨_, p, _, hsplit.symm, rfl, ?_⟩
    have hreport := hround _ p _ hsplit.symm
    rw [List.length_take_of_le hlt.le, houtcome] at hreport
    exact (Option.some.inj hreport).symm
  · rintro ⟨pre, p, post, hsplit, rfl, rfl⟩
    refine ⟨pre.length, List.getElem?_zip_eq_some.mpr ⟨?_, hround pre p post hsplit⟩⟩
    rw [hsplit]
    simp

theorem rowOutcome_eq_skipped {s : ApplyState} {p : RowItem × Bool} :
    rowOutcome ctx s p = .skipped ↔ skips ctx p = true := by
  by_cases hskips : skips ctx p = true
  · refine iff_of_true (rowOutcome_eq ?_) hskips
    rw [applyRow_of_skips hskips]
  · rw [Bool.not_eq_true] at hskips
    refine iff_of_false ?_ (by simp [hskips])
    by_cases hstores : ∃ c, Stores ctx (clearRow ctx p.1 p.2 s.records) p c
    · obtain ⟨c, hstores⟩ := hstores
      obtain ⟨r, -, -, houtcomes⟩ := applyRow_of_stores hskips hstores
      rw [rowOutcome_eq houtcomes]
      split_ifs <;> simp
    · rw [rowOutcome_eq (congrArg ApplyState.outcomes
        (applyRow_of_not_stores hskips fun c h => hstores ⟨c, h⟩))]
      simp

theorem rowOutcome_valid {s : ApplyState} {item : RowItem} :
    rowOutcome ctx s (item, false) = .applied ↔
      AliasReadable item.row ∧ ∃ c, Stores ctx s.records (item, false) c := by
  rw [rowOutcome_eq_applied, and_comm]
  have hskips : skips ctx (item, false) = false := Bool.false_and _
  simp only [Adds, hskips, true_and, clearRow_of_valid]

/-- **The rows that are reported as applied.** -/
theorem mem_report_applied (hskip : ∀ i, ctx.policy i = .skip) {i : ℕ} :
    (i, .applied) ∈ importReport ctx records aliases job ↔
      RowAt job i (GoesIn ctx records) := by
  rw [mem_importReport, previewJob_eq]
  constructor
  · rintro ⟨pre, ⟨item, conflicts⟩, post, hsplit, rfl, happlied⟩
    cases conflicts with
    | true =>
        -- a conflict is skipped
        have hskips : skips ctx (item, true) = true := by simp [skips, hskip]
        rw [rowOutcome_eq_skipped.mpr hskips] at happlied
        cases happlied
    | false =>
        obtain ⟨valids, item', rest, hvalids, rfl, hitem⟩ :=
          exists_of_map_append hsplit (by simp)
        obtain ⟨rfl, -⟩ := Prod.mk.inj hitem
        obtain ⟨before, row, after, record, rfl, rfl, hrecord, rfl⟩ :=
          exists_row_of_listedItems job hvalids
        obtain ⟨halias, hstores⟩ := rowOutcome_valid.mp happlied
        rw [records_foldl_valid] at hstores
        exact ⟨before, row, after, rfl, rfl, record, hrecord, halias, hstores⟩
  · rintro ⟨before, row, after, rfl, rfl, record, hrecord, halias, hstores⟩
    have houtcome : rowOutcome ctx
        (((listedItems ctx.data ctx.defaultDomain records false [] before).map (·, false)).foldl
          (applyRow ctx) ⟨records, aliases, [], []⟩) (⟨before.length, row, record⟩, false)
        = .applied := by
      rw [rowOutcome_valid, records_foldl_valid]
      exact ⟨halias, hstores⟩
    rw [listedItems_of_listed after hrecord, List.map_append, List.map_cons, List.append_assoc]
    exact ⟨_, _, _, rfl, rfl, houtcome⟩

/-- **The rows that are reported as skipped.** -/
theorem mem_report_skipped (hskip : ∀ i, ctx.policy i = .skip) {i : ℕ} :
    (i, .skipped) ∈ importReport ctx records aliases job ↔
      RowAt job i fun before row =>
        (listedRecord ctx.data ctx.defaultDomain records true before row).isSome = true := by
  rw [mem_importReport, previewJob_eq]
  simp only [rowOutcome_eq_skipped, skips, hskip, decide_true, Bool.and_true]
  constructor
  · rintro ⟨pre, ⟨item, conflicts⟩, post, hsplit, rfl, rfl⟩
    have hmem : (item, true) ∈ (listedItems ctx.data ctx.defaultDomain records false [] job).map
        (·, false) ++ (listedItems ctx.data ctx.defaultDomain records true [] job).map
          (·, true) := by
      rw [hsplit]
      simp
    simp only [List.mem_append, List.mem_map, Prod.mk.injEq, Bool.false_eq_true, and_false,
      exists_false, false_or, and_true, exists_eq_right] at hmem
    obtain ⟨pre, post, hitems⟩ := List.append_of_mem hmem
    obtain ⟨before, row, after, record, rfl, -, hrecord, rfl⟩ :=
      exists_row_of_listedItems job hitems
    exact ⟨before, row, after, rfl, rfl, Option.isSome_of_eq_some hrecord⟩
  · rintro ⟨before, row, after, rfl, rfl, hlisted⟩
    obtain ⟨record, hrecord⟩ := Option.isSome_iff_exists.mp hlisted
    rw [listedItems_of_listed after hrecord, List.map_append, List.map_cons, ← List.append_assoc]
    exact ⟨_, _, _, rfl, rfl, rfl⟩

end Report

/-! ## The preview and the report -/

/-- The rows that the preview with the domain `shown` lists as valid are reported as applied, and
those that it lists as conflicts, and no others, as skipped. -/
def PreviewHolds (ctx : ApplyContext) (shown : Str) (records : RecordRows) (aliases : AliasRows)
    (job : List ImportRow) : Prop :=
  ∀ i,
    ((previewRows ctx.data shown records [] job)[i]? = some .valid →
      (i, .applied) ∈ importReport ctx records aliases job) ∧
    ((previewRows ctx.data shown records [] job)[i]? = some .conflict ↔
      (i, .skipped) ∈ importReport ctx records aliases job)

/-- An apply with the policy `skip`. -/
def skipContext (data : ImportData) (domain now : Str) : ApplyContext :=
  ⟨data, domain, fun _ => .skip, now⟩

/-- A finding of the preview, by the rows before. -/
theorem previewRows_eq_iff {d : ImportData} {domain : Str} {rows : RecordRows} (conflicts : Bool)
    {job : List ImportRow} {i : ℕ} :
    (previewRows d domain rows [] job)[i]? = some (.ofConflicts conflicts) ↔
      RowAt job i fun before row =>
        (listedRecord d domain rows conflicts before row).isSome = true := by
  have hstart : Seen d domain [] [] := fun key => by simp
  constructor
  · intro h
    have hlength : ∀ (job : List ImportRow) (seen : List (Str × RecordType × Str)),
        (previewRows d domain rows seen job).length = job.length := by
      intro job
      induction job with
      | nil => exact fun _ => rfl
      | cons row rest ih => exact fun seen => congrArg (· + 1) (ih _)
    obtain ⟨hlt, -⟩ := List.getElem?_eq_some_iff.mp h
    rw [hlength] at hlt
    have hsplit := List.take_append_drop i job
    rw [List.drop_eq_getElem_cons hlt] at hsplit
    have hbefore : (job.take i).length = i := List.length_take_of_le hlt.le
    have hlisted := previewRows_getElem? rows conflicts job hstart _ _ _ hsplit.symm
    rw [hbefore] at hlisted
    exact ⟨_, _, _, hsplit.symm, hbefore, hlisted.mp h⟩
  · rintro ⟨before, row, after, rfl, rfl, hlisted⟩
    exact (previewRows_getElem? rows conflicts _ hstart before row after rfl).mpr hlisted

/-- **When the report of an import says what the preview said.** -/
theorem previewHolds_iff (data : ImportData) (domain shown now : Str) (records : RecordRows)
    (aliases : AliasRows) (job : List ImportRow) :
    PreviewHolds (skipContext data domain now) shown records aliases job ↔
      ∀ before row after, job = before ++ row :: after →
        ((listedRecord data shown records true before row).isSome = true ↔
          (listedRecord data domain records true before row).isSome = true) ∧
        ((listedRecord data shown records false before row).isSome = true →
          GoesIn (skipContext data domain now) records before row) := by
  have hskip : ∀ i, (skipContext data domain now).policy i = .skip := fun i => rfl
  have hfinding (conflicts : Bool) (i : ℕ) : (previewRows (skipContext data domain now).data shown
      records [] job)[i]? = some (.ofConflicts conflicts) ↔ RowAt job i fun before row =>
        (listedRecord data shown records conflicts before row).isSome = true :=
    previewRows_eq_iff conflicts
  have hvalid := hfinding false
  have hconflict := hfinding true
  simp only [RowFinding.ofConflicts] at hvalid hconflict
  unfold PreviewHolds
  simp only [hvalid, hconflict, mem_report_applied hskip, mem_report_skipped hskip]
  constructor
  · intro h before row after hjob
    have hrow := h before.length
    simp only [rowAt_iff hjob] at hrow
    exact ⟨hrow.2, hrow.1⟩
  · intro h i
    refine ⟨?_, ?_, ?_⟩
    · rintro ⟨before, row, after, hjob, rfl, hlisted⟩
      exact (rowAt_iff hjob).mpr ((h before row after hjob).2 hlisted)
    · rintro ⟨before, row, after, hjob, rfl, hlisted⟩
      exact (rowAt_iff hjob).mpr ((h before row after hjob).1.mp hlisted)
    · rintro ⟨before, row, after, hjob, rfl, hlisted⟩
      exact (rowAt_iff hjob).mpr ((h before row after hjob).1.mpr hlisted)

/-! ### Two addresses of one host

A job with an IPv4 and an IPv6 address of one host, in an empty store. -/

def dualJob : List ImportRow :=
  [{ hostname := "nas".toList, ipv4 := "192.0.2.9".toList },
    { hostname := "nas".toList, ipv6 := "2001:db8::9".toList }]

/-- **Both addresses are listed as valid, and only the first is added.** -/
theorem second_address_fails : ¬∀ (data : ImportData) (domain shown now : Str)
    (records : RecordRows) (aliases : AliasRows) (job : List ImportRow),
    PreviewHolds (skipContext data domain now) shown records aliases job := by
  intro h
  have hvalid : (previewRows (asciiContext .skip).data (asciiContext .skip).defaultDomain
      LegalRows.empty [] dualJob)[1]? = some .valid := by decide +kernel
  have hreport := (h (asciiContext .skip).data (asciiContext .skip).defaultDomain
    (asciiContext .skip).defaultDomain (asciiContext .skip).now LegalRows.empty LegalRows.empty
    dualJob 1).1 hvalid
  have hfailed : (1, RowOutcome.applied) ∉ importReport (asciiContext .skip) LegalRows.empty
      LegalRows.empty dualJob := by decide +kernel
  exact hfailed hreport

end AlderpointDNS.Importer
