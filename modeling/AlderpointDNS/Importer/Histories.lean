import AlderpointDNS.Lib.Runs
import AlderpointDNS.Importer.RecordJobs
import AlderpointDNS.Importer.Rollback

/-!
# Edits between an import and its rollback

A rollback deletes rows by what the import remembered: row ids, the names of sources, the networks
of aliases, and for identifiers and access rules the ids of their clients.  In between
administrators write to the same tables, and SQLite gives a new row the rowid after the largest
one, which can be that of an imported row that was deleted.

* `Live` — the tables, in which each row carries whether the import has created it;
* `Edit` — the statements of ordinary edits, on any table;
* `targets`, `undo_deletes` — the rows that a rollback deletes;
* `spared_of_migration`, `spared_of_records` — right after the import it would delete nothing else
  than what the import has created;
* **`spared_throughout_iff`** — it stays so throughout a history exactly when no statement gives a
  row of the administrator what the import remembers;
* `reused_rowid` — a record of the administrator that a rollback deletes.

The setup with which a rollback begins is part of the history.
-/

namespace AlderpointDNS.Importer

open Text

/-! ## Tables with marks -/

/-- The tables to which an import writes. -/
inductive DestTable where
  | rules
  | localDns
  | upstreams
  | clients
  | identifiers
  | accessRules
  | sources
  | aliases
deriving DecidableEq

/-- The rows of a table; rules come with their `import_job_id`. -/
abbrev DestTable.Row : DestTable → Type
  | .rules => FilterRow × Option ℕ
  | .localDns => LocalDns.DnsRecord
  | .upstreams => Upstream.Resolver
  | .clients => Client
  | .identifiers => Identifier
  | .accessRules => AccessRule
  | .sources => SourceRow
  | .aliases => AliasRow

/-- The rows of every table, each with whether the import has created it. -/
abbrev Live := (t : DestTable) → List (t.Row × Bool)

/-- The rows of every table. -/
def JobState.rows (s : JobState) : (t : DestTable) → List t.Row
  | .rules => s.rules
  | .localDns => s.tables.localDns.1
  | .upstreams => s.tables.upstreams.rows
  | .clients => s.tables.clients.1
  | .identifiers => s.tables.identifiers.1
  | .accessRules => s.tables.accessRules.1
  | .sources => s.tables.sources.1
  | .aliases => s.tables.aliases.1

/-- The rows behind those that were there before are created. -/
def marked {R : Type} (before after : List R) : List (R × Bool) :=
  after.zipIdx.map fun p => (p.1, decide (before.length ≤ p.2))

/-! ## Statements -/

/-- What a statement does to the rows of a table. -/
inductive RowEdit (R : Type) where
  | insert (row : R)
  | update (f : R → R)
  | delete (p : R → Bool)

/-- A statement on a table. -/
structure Edit where
  table : DestTable
  edit : RowEdit table.Row

/-- The row can be inserted: it gets the next rowid, belongs to no import, and has a name or a
network that is new. -/
def insertable : (t : DestTable) → List t.Row → t.Row → Bool
  | .rules, _, row => row.2 = none
  | .localDns, rows, row => row.id = nextRowid (rows.map (·.id))
  | .upstreams, rows, row => row.id = nextRowid (rows.map (·.id))
  | .clients, rows, row => row.id = nextRowid (rows.map (·.id))
  | .identifiers, rows, row => row.id = nextRowid (rows.map (·.id))
  | .accessRules, rows, row => row.id = nextRowid (rows.map (·.id))
  | .sources, rows, row => !rows.any (·.name = row.name)
  | .aliases, rows, row => !rows.any (·.cidr = row.cidr)

/-- What no `UPDATE` of an ordinary edit writes. -/
def keeps : (t : DestTable) → t.Row → t.Row → Bool
  | .rules, row, row' => row'.2 = row.2
  | .localDns, row, row' => row'.id = row.id
  | .upstreams, row, row' => row'.id = row.id
  | .clients, row, row' => row'.id = row.id
  | .identifiers, row, row' => row'.id = row.id && row'.clientId = row.clientId
  | .accessRules, row, row' => row'.id = row.id && row'.clientId = row.clientId
  -- a source can get another name
  | .sources, _, _ => true
  | .aliases, row, row' => row'.cidr = row.cidr

/-- One statement; `none` where it fails. -/
def editStep (s : Live) (e : Edit) : Option Live :=
  match e.edit with
  | .insert row =>
      if insertable e.table ((s e.table).map (·.1)) row then
        some (Function.update s e.table (s e.table ++ [(row, false)]))
      else none
  | .update f =>
      if (s e.table).all fun p => keeps e.table p.1 (f p.1) then
        some (Function.update s e.table ((s e.table).map fun p => (f p.1, p.2)))
      else none
  | .delete p => some (Function.update s e.table ((s e.table).filter fun q => !p q.1))

/-! ## What a rollback deletes -/

/-- What a job remembers. -/
inductive RollbackLog where
  | migration (jobId : ℕ) (info : RollbackInfo)
  | records (insertedIds : List ℕ)

/-- The rollback deletes the row. -/
def targets : RollbackLog → (t : DestTable) → t.Row → Bool
  | .migration jobId _, .rules, row => row.2 = some jobId
  | .migration _ info, .localDns, row => row.id ∈ info.localDnsIds
  | .migration _ info, .upstreams, row => row.id ∈ info.upstreamIds
  | .migration _ info, .clients, row => row.id ∈ info.clientsAdded
  | .migration _ info, .identifiers, row => row.clientId ∈ info.clientsAdded
  | .migration _ info, .accessRules, row =>
      row.clientId.any (· ∈ info.clientsAdded) || row.id ∈ info.accessRulesAdded
  | .migration _ info, .sources, row => row.name ∈ info.sources.added
  | .migration _ info, .aliases, row => row.cidr ∈ info.aliases.added
  | .records insertedIds, .localDns, row => row.id ∈ insertedIds
  | .records _, _, _ => false

/-- The rollback deletes only rows that the import has created. -/
def Spared (log : RollbackLog) (s : Live) : Prop :=
  ∀ t, ∀ p ∈ s t, p.2 = false → targets log t p.1 = false

/-- The statement gives no row of the administrator what the import remembers. -/
def Unclaimed (log : RollbackLog) (s : Live) (e : Edit) : Prop :=
  match e.edit with
  | .insert row => targets log e.table row = false
  | .update f => ∀ p ∈ s e.table, p.2 = false → targets log e.table (f p.1) = false
  | .delete _ => True

/-- **A statement keeps the rows of the administrator out of the rollback exactly when it is
unclaimed.** -/
theorem spared_editStep_iff {log : RollbackLog} {s s' : Live} {e : Edit} (h : Spared log s)
    (hstep : editStep s e = some s') : Spared log s' ↔ Unclaimed log s e := by
  obtain ⟨t, edit⟩ := e
  have hother (rows : List (t.Row × Bool)) : Spared log (Function.update s t rows) ↔
      ∀ p ∈ rows, p.2 = false → targets log t p.1 = false := by
    constructor
    · intro hs
      have := hs t
      rwa [Function.update_self] at this
    · intro hrows t'
      by_cases ht : t' = t
      · subst ht
        rwa [Function.update_self]
      · rw [Function.update_of_ne ht]
        exact h t'
  unfold editStep at hstep
  unfold Unclaimed
  cases edit with
  | insert row =>
      dsimp only at hstep ⊢
      split_ifs at hstep
      cases hstep
      rw [hother, List.forall_mem_append, and_iff_right (h t)]
      simp
  | update f =>
      dsimp only at hstep ⊢
      split_ifs at hstep
      cases hstep
      rw [hother, List.forall_mem_map]
  | delete p =>
      cases hstep
      rw [hother]
      exact ⟨fun _ => trivial, fun _ q hq => h t q (List.mem_of_mem_filter hq)⟩

/-! ## The deletions of a rollback -/

/-- The row is the same, or a source or an alias that has been put back. -/
def stays : (t : DestTable) → t.Row → t.Row → Prop
  | .sources, row, row' => row'.name = row.name
  | .aliases, row, row' => row'.cidr = row.cidr
  | _, row, row' => row' = row

theorem stays_refl (t : DestTable) (row : t.Row) : stays t row row := by
  cases t <;> rfl

theorem forall₂_stays {t : DestTable} {rows rows' : List t.Row} (h : rows' = rows) :
    List.Forall₂ (stays t) rows rows' := by
  subst h
  exact List.forall₂_same.mpr fun row _ => stays_refl t row

/-- **The transaction of a rollback deletes the rows that it targets, and no other.** -/
theorem undo_deletes (host : ImportHost) (jobId : ℕ) (info : RollbackInfo) (s : JobState)
    (t : DestTable) :
    List.Forall₂ (stays t) ((s.rows t).filter fun row => !targets (.migration jobId info) t row)
      ((s.undo host jobId info).rows t) := by
  cases t with
  | rules =>
      refine forall₂_stays ?_
      change (s.undo host jobId info).rules = s.rules.filter _
      rw [rules_undo]
      simp [targets]
  | localDns => exact forall₂_stays (by simp [targets, JobState.rows, JobState.undo,
      RollbackInfo.undo, LegalRows.filter])
  | upstreams => exact forall₂_stays (by simp [targets, JobState.rows, JobState.undo,
      RollbackInfo.undo, deleteResolvers])
  | clients => exact forall₂_stays (by simp [targets, JobState.rows, JobState.undo,
      RollbackInfo.undo, LegalRows.filter])
  | identifiers => exact forall₂_stays (by simp [targets, JobState.rows, JobState.undo,
      RollbackInfo.undo, LegalRows.filter])
  | accessRules =>
      refine forall₂_stays ?_
      simp [targets, JobState.rows, JobState.undo, RollbackInfo.undo, LegalRows.filter,
        List.filter_filter, Bool.and_comm]
  | sources =>
      exact sourceRestorer.forall₂_undo info.sources s.tables.sources.1 fun row => by
        simp [targets, sourceWriter]
  | aliases =>
      exact (aliasRestorer host.now).forall₂_undo info.aliases s.tables.aliases.1 fun row => by
        simp [targets, aliasWriter]

/-- What a rollback does after its transaction adds rows at most. -/
theorem rows_deployAccess (host : ImportHost) (touched : Bool) (s : JobState) (t : DestTable) :
    s.rows t <+: JobState.rows { s with tables := deployAccess host touched s.tables } t := by
  have hlater := later_deployAccess host s.tables touched
  have hsame {R : Type} {rows rows' : List R} (h : rows' = rows) : rows <+: rows' :=
    h ▸ List.prefix_refl _
  cases t with
  | clients => exact hlater.clients
  | identifiers => exact identifiers_deployAccess host s.tables touched
  | rules =>
      refine hsame ?_
      change taggedRules (deployAccess ..).customRules _ = taggedRules s.tables.customRules _
      rw [show (deployAccess host touched s.tables).customRules = s.tables.customRules from
        congrArg (·.customRules) hlater.rest]
  | localDns => exact hsame (congrArg (·.localDns.1) hlater.rest)
  | upstreams => exact hsame (congrArg (·.upstreams.rows) hlater.rest)
  | accessRules => exact hsame (congrArg (·.accessRules.1) hlater.rest)
  | sources => exact hsame (congrArg (·.sources.1) hlater.rest)
  | aliases => exact hsame (congrArg (·.aliases.1) hlater.rest)

/-- **When only created rows are targeted, a rollback leaves every other row.** -/
theorem Spared.rollback {host : ImportHost} {jobId : ℕ} {info : RollbackInfo} {s final : JobState}
    {live : Live} (h : Spared (.migration jobId info) live)
    (hlive : ∀ t, (live t).map (·.1) = (s.initDbs host).rows t)
    (hrollback : rollbackMigrationJob host jobId info s = some final) (t : DestTable) :
    ∀ p ∈ live t, p.2 = false → ∃ row ∈ final.rows t, stays t p.1 row := by
  intro p hp hown
  unfold rollbackMigrationJob at hrollback
  split_ifs at hrollback
  cases hrollback
  have hkept : p.1 ∈ ((s.initDbs host).rows t).filter
      fun row => !targets (.migration jobId info) t row := by
    rw [List.mem_filter, ← hlive t]
    exact ⟨List.mem_map_of_mem hp, by rw [h t p hp hown]; rfl⟩
  obtain ⟨i, hi, hget⟩ := List.mem_iff_getElem.mp hkept
  have hdeletes := undo_deletes host jobId info (s.initDbs host) t
  have hi' := hdeletes.length_eq ▸ hi
  refine ⟨_, (rows_deployAccess host info.touchesAccess _ t).subset (List.getElem_mem hi'), ?_⟩
  rw [← hget]
  exact hdeletes.get hi hi'

/-! ## Right after the import -/

/-- The rows that were there before are not marked. -/
theorem mem_marked {R : Type} {before old extra : List R} {p : R × Bool}
    (hlength : old.length = before.length) (hp : p ∈ marked before (old ++ extra))
    (hown : p.2 = false) : p.1 ∈ old := by
  obtain ⟨⟨row, i⟩, hmem, rfl⟩ := List.mem_map.mp hp
  rw [List.mem_zipIdx_iff_getElem?] at hmem
  have hi : i < old.length := by
    rw [hlength]
    simpa using hown
  rw [List.getElem?_append_left hi] at hmem
  exact List.mem_of_getElem? hmem

theorem marked_spared {log : RollbackLog} {t : DestTable} {before after old : List t.Row}
    (hafter : old <+: after) (hlength : old.length = before.length)
    (h : ∀ row ∈ old, targets log t row = false) :
    ∀ p ∈ marked before after, p.2 = false → targets log t p.1 = false := by
  intro p hp hown
  obtain ⟨extra, rfl⟩ := hafter
  exact h p.1 (mem_marked hlength hp hown)

/-- Nothing that is there when the import begins is attached to the job or to a client that it
adds. -/
structure Unreferenced (host : ImportHost) (job : MigrationJob) (plan : MigrationPlan) (jobId : ℕ)
    (s : JobState) : Prop where
  rules : ∀ p ∈ (s.initDbs host).rules, p.2 ≠ some jobId
  identifiers : ∀ row ∈ (s.initDbs host).tables.identifiers.1, row.clientId ∉
    importedIds (s.initDbs host).tables.clients (clientEntries (job.chosen plan).reduceOption)
  accessRules : ∀ rule ∈ (s.initDbs host).tables.accessRules.1, ∀ id, rule.clientId = some id →
    id ∉ importedIds (s.initDbs host).tables.clients
      (clientEntries (job.chosen plan).reduceOption)

/-- **Right after an apply its rollback would delete only what the import has created.** -/
theorem spared_of_migration {host : ImportHost} {job : MigrationJob} {plan : MigrationPlan}
    {jobId : ℕ} {s s' : JobState} {info : RollbackInfo} (hplan : job.plan = some plan)
    (happly : applyLogged host job jobId s = some (s', info))
    (hstart : Unreferenced host job plan jobId s) :
    Spared (.migration jobId info) fun t => marked ((s.initDbs host).rows t) (s'.rows t) := by
  obtain ⟨applied, touched, new, rfl, hrecorded, -, hrules⟩ := applyLogged_spec hplan happly
  have hids := hrecorded.clientIds
  have hrest := rows_deployAccess host touched
    { s.initDbs host with
      tables := applied
      status := .applied
      ruleJob := tagFrom (s.initDbs host).tables.customRules.length (some jobId)
        (s.initDbs host).ruleJob }
  intro t
  cases t with
  | rules =>
      exact marked_spared ⟨_, hrules.symm⟩ rfl fun row hrow =>
        decide_eq_false (hstart.rules row hrow)
  | localDns =>
      obtain ⟨hbegins, hfresh⟩ := hrecorded.localDns.fresh
      exact marked_spared (hbegins.trans (hrest .localDns)) rfl fun row hrow =>
        decide_eq_false (hfresh row hrow)
  | upstreams =>
      obtain ⟨hbegins, hfresh⟩ := hrecorded.upstreams.fresh
      exact marked_spared (hbegins.trans (hrest .upstreams)) rfl fun row hrow =>
        decide_eq_false (hfresh row hrow)
  | clients =>
      obtain ⟨hbegins, hfresh⟩ := hrecorded.clients.fresh
      exact marked_spared (hbegins.trans (hrest .clients)) rfl fun row hrow =>
        decide_eq_false (hfresh row hrow)
  | identifiers =>
      obtain ⟨added, hadded, -⟩ := hrecorded.identifiers
      have hbegins : (s.initDbs host).tables.identifiers.1 <+: applied.identifiers.1 :=
        hadded ▸ List.prefix_append _ _
      exact marked_spared (hbegins.trans (hrest .identifiers)) rfl fun row hrow =>
        decide_eq_false (hids ▸ hstart.identifiers row hrow)
  | accessRules =>
      obtain ⟨hbegins, hfresh⟩ := hrecorded.accessRules.fresh
      refine marked_spared (hbegins.trans (hrest .accessRules)) rfl fun row hrow => ?_
      simp only [targets, Bool.or_eq_false_iff, Option.any_eq_false, decide_eq_false_iff_not]
      exact ⟨hids ▸ hstart.accessRules row hrow, hfresh row hrow⟩
  | sources =>
      have hundo := RowWriter.UndoInv.foldl (w := sourceWriter) (s.initDbs host).tables.sources
        (sourceEntries (job.chosen plan).reduceOption)
      rw [← hrecorded.sources] at hundo
      obtain ⟨added, hadded, -⟩ := hundo.rows
      refine marked_spared (List.IsPrefix.trans ⟨added, hadded.symm⟩ (hrest .sources))
        (List.length_map _) ?_
      rw [List.forall_mem_map]
      intro row hrow
      have hfresh := hundo.fresh row hrow
      rw [← sourceWriter.key_overwrite (sourceEntries (job.chosen plan).reduceOption)] at hfresh
      exact decide_eq_false hfresh
  | aliases =>
      have hundo := RowWriter.UndoInv.foldl (w := aliasWriter) (s.initDbs host).tables.aliases
        (aliasUpdates (job.context host plan) (job.chosen plan).reduceOption)
      rw [← hrecorded.aliases] at hundo
      obtain ⟨added, hadded, -⟩ := hundo.rows
      refine marked_spared (List.IsPrefix.trans ⟨added, hadded.symm⟩ (hrest .aliases))
        (List.length_map _) ?_
      rw [List.forall_mem_map]
      intro row hrow
      have hfresh := hundo.fresh row hrow
      rw [← aliasWriter.key_overwrite
        (aliasUpdates (job.context host plan) (job.chosen plan).reduceOption)] at hfresh
      exact decide_eq_false hfresh

/-- The records that no row of the job replaces. -/
def leftRecords (ctx : ApplyContext) (records : LocalDns.RecordRows) (job : List ImportRow) :
    List LocalDns.DnsRecord :=
  records.1.filter fun r => (previewJob ctx.data ctx.defaultDomain records job).all (keptBy ctx · r)

/-- The rows that are applied are settled. -/
def SettledJob (ctx : ApplyContext) (records : LocalDns.RecordRows) (job : List ImportRow) : Prop :=
  ∀ p ∈ previewJob ctx.data ctx.defaultDomain records job,
    ¬(p.2 && ctx.policy p.1.index = .skip) = true → p.1.Settled ctx.data

instance (ctx : ApplyContext) (records : LocalDns.RecordRows) (job : List ImportRow) :
    Decidable (SettledJob ctx records job) :=
  inferInstanceAs (Decidable (∀ p ∈ _, _ → _))

/-- **Right after an import of records its rollback would delete only records of the import.** -/
theorem spared_of_records {ctx : ApplyContext} {records : LocalDns.RecordRows} {aliases : AliasRows}
    {job : List ImportRow} {s : Live} (hsettled : SettledJob ctx records job)
    (hlocal : s .localDns = marked (leftRecords ctx records job)
      (applyJob ctx records aliases job).records.1) :
    Spared (.records (applyJob ctx records aliases job).insertedIds) s := by
  have hstart : Traced (fun _ => true) records ⟨records, aliases, [], []⟩ :=
    ⟨[], by simp, by simp, by simp⟩
  have htraced := hstart.foldl _ hsettled
  simp only [Bool.true_and] at htraced
  obtain ⟨imported, hrecords, -, hkept⟩ := htraced
  intro t
  cases t with
  | localDns =>
      rw [hlocal]
      exact marked_spared (t := .localDns) ⟨imported, hrecords.symm⟩ rfl fun row hrow =>
        decide_eq_false (hkept row hrow)
  | _ => exact fun _ _ _ => rfl

/-- The tables right after an import, and what its job remembers. -/
inductive AfterImport : RollbackLog → Live → Prop where
  | migration {host : ImportHost} {job : MigrationJob} {plan : MigrationPlan} {jobId : ℕ}
      {s s' : JobState} {info : RollbackInfo} (hplan : job.plan = some plan)
      (happly : applyLogged host job jobId s = some (s', info))
      (hstart : Unreferenced host job plan jobId s) :
      AfterImport (.migration jobId info) fun t => marked ((s.initDbs host).rows t) (s'.rows t)
  | records {ctx : ApplyContext} {records : LocalDns.RecordRows} {aliases : AliasRows}
      {job : List ImportRow} {s : Live} (hsettled : SettledJob ctx records job)
      (hlocal : s .localDns = marked (leftRecords ctx records job)
        (applyJob ctx records aliases job).records.1) :
      AfterImport (.records (applyJob ctx records aliases job).insertedIds) s

theorem AfterImport.spared {log : RollbackLog} {s : Live} (h : AfterImport log s) :
    Spared log s := by
  cases h with
  | migration hplan happly hstart => exact spared_of_migration hplan happly hstart
  | records hsettled hlocal => exact spared_of_records hsettled hlocal

/-! ## Histories -/

/-- **Throughout a history of edits after an import, its rollback would delete only what the import
has created, exactly when every edit is unclaimed.** -/
theorem spared_throughout_iff {log : RollbackLog} {s s' : Live} {edits : List Edit}
    (h : AfterImport log s) (hrun : Runs.run editStep s edits = some s') :
    Runs.StepsMeet editStep (Unclaimed log) s edits ↔
      ∀ pre t, pre <+: edits → Runs.run editStep s pre = some t → Spared log t :=
  Runs.stepsMeet_iff_forall_reached (fun _ _ _ (_ : True) (_ : True) _ => trivial)
    (fun _ _ _ _ hs _ hstep => spared_editStep_iff hs hstep)
    edits s s' trivial h.spared (fun _ _ => trivial) hrun

/-! ### An id that is used again

The import of one address into an empty store gives it the id 1.  An administrator deletes the
record and adds another one, which gets the same id. -/

/-- The tables right after the import. -/
def nasLive : Live
  | .localDns => marked (leftRecords (asciiContext .merge) LegalRows.empty nasJob)
      (applyJob (asciiContext .merge) LegalRows.empty LegalRows.empty nasJob).records.1
  | _ => []

def printerRecord (id : ℕ) : LocalDns.DnsRecord where
  id := id
  name := "printer".toList
  fqdn := "printer.home.arpa".toList
  recordType := .a
  value := "192.0.2.7".toList
  ttl := 300
  comment := []
  enabled := true
  autoPtr := false
  ptrRecordId := none
  named := by decide +kernel

def addPrinter (id : ℕ) : Edit := ⟨.localDns, .insert (printerRecord id)⟩

def deleteRecord (id : ℕ) : Edit := ⟨.localDns, .delete fun r => r.id = id⟩

/-- While the imported record is there, a new record gets another id, and the rollback leaves it. -/
theorem spared_throughout_iff_printer : ∃ s', Runs.run editStep nasLive [addPrinter 2] = some s' ∧
    Spared (.records (applyJob (asciiContext .merge) LegalRows.empty LegalRows.empty
      nasJob).insertedIds) s' := by
  obtain ⟨s', hrun⟩ : ∃ s', Runs.run editStep nasLive [addPrinter 2] = some s' :=
    Option.isSome_iff_exists.mp (by decide +kernel)
  have hunclaimed : Unclaimed (.records (applyJob (asciiContext .merge) LegalRows.empty
      LegalRows.empty nasJob).insertedIds) nasLive (addPrinter 2) := by
    change targets _ .localDns (printerRecord 2) = false
    decide +kernel
  exact ⟨s', hrun, (spared_throughout_iff (.records (by decide +kernel) rfl) hrun).mp
    ⟨hunclaimed, fun _ _ => trivial⟩ [addPrinter 2] s' (List.prefix_refl _) hrun⟩

/-- The rollback deletes the record of the administrator. -/
theorem reused_rowid : ¬∀ (log : RollbackLog) (s s' : Live) (edits : List Edit),
    AfterImport log s → Runs.run editStep s edits = some s' → Spared log s' := by
  intro h
  obtain ⟨s', hrun⟩ : ∃ s', Runs.run editStep nasLive [deleteRecord 1, addPrinter 1] = some s' :=
    Option.isSome_iff_exists.mp (by decide +kernel)
  have hspared := h _ _ _ _ (.records (by decide +kernel) rfl) hrun .localDns
  have hclaimed : (Runs.run editStep nasLive [deleteRecord 1, addPrinter 1]).map (fun t =>
      (t .localDns).any fun p => !p.2 && targets (.records (applyJob (asciiContext .merge)
        LegalRows.empty LegalRows.empty nasJob).insertedIds) .localDns p.1) = some true := by
    decide +kernel
  rw [hrun, Option.map_some, Option.some.injEq, List.any_eq_true] at hclaimed
  obtain ⟨p, hp, hclaimed⟩ := hclaimed
  rw [Bool.and_eq_true, Bool.not_eq_true'] at hclaimed
  rw [hspared p hp hclaimed.1] at hclaimed
  exact Bool.false_ne_true hclaimed.2

end AlderpointDNS.Importer
