import AlderpointDNS.Importer.Log
import AlderpointDNS.Importer.Plan

/-!
# Rolling back an import

`_rollback_migration_job` deletes and puts back what it finds in the log of the job, and the rules
with the id of the job.  Like the apply it begins with the idempotent setup of the tables, which
migrates legacy rows and client aliases, and ends with a deployment of the access layer, which
does so too.

* `applyLogged_fst` — the apply with its log is the apply;
* `Later` — the tables after migrations of aliases;
* **`rolledBack_spec`** — what a rollback leaves of each table;
* `rules_restored_iff` — when the rules are what they were;
* **`rollback_restores_job_iff`** — when a rollback right after the apply leaves every table as it
  was before;
* `alias_outlives_rollback` — a client that the rollback itself makes of an imported alias.

Not modelled: the counters, the message of the job, and failures of SQLite and of the deployments.
-/

namespace AlderpointDNS.Importer

open Text

/-! ## The apply and the rollback -/

/-- The database, with the `import_job_id` of the rule at each place. -/
structure JobState extends ImportState where
  ruleJob : ℕ → Option ℕ

/-- The rules from a place on belong to the job. -/
def tagFrom (place : ℕ) (job : Option ℕ) (ruleJob : ℕ → Option ℕ) : ℕ → Option ℕ :=
  fun i => if i < place then ruleJob i else job

/-- Rows with the jobs of their places. -/
def taggedRules (rows : List FilterRow) (ruleJob : ℕ → Option ℕ) : List (FilterRow × Option ℕ) :=
  rows.zipIdx.map fun p => (p.1, ruleJob p.2)

/-- The rows of `custom_filter_rules` with their `import_job_id`. -/
def JobState.rules (s : JobState) : List (FilterRow × Option ℕ) :=
  taggedRules s.tables.customRules s.ruleJob

/-- The setup: rules that it migrates belong to no job. -/
def JobState.initDbs (host : ImportHost) (s : JobState) : JobState where
  toImportState := s.toImportState.setup host .policy
  ruleJob := tagFrom s.tables.customRules.length none s.ruleJob

/-- `deploy_access_layer` begins with `init_db`. -/
def deployAccess (host : ImportHost) (touched : Bool) (t : Destination) : Destination :=
  if touched then t.migrateAliases host t.aliases.1 else t

/-- `apply_migration_job`, without failures from outside; `none` is an exception. -/
def applyLogged (host : ImportHost) (job : MigrationJob) (jobId : ℕ) (s : JobState) :
    Option (JobState × RollbackInfo) :=
  job.plan.bind fun plan =>
    if s.status.mayApply then
      let s := s.initDbs host
      (loggedTransaction (job.context host plan) job.translation.accessDefaultPolicy
        (job.chosen plan) s.tables).map fun p =>
          ({ s with
              tables := deployAccess host p.1.2 p.1.1
              status := .applied
              ruleJob := tagFrom s.tables.customRules.length (some jobId) s.ruleJob }, p.2)
    else none

/-- How `sources_updated` is put back. -/
def sourceRestorer : sourceWriter.Restorer SourceRow where
  content row := row
  back old row := { row with url := old.url, enabled := old.enabled, category := old.category }
  key_back _ _ := rfl
  content_back := by
    intro old row h
    cases old
    cases row
    cases h
    rfl

/-- The columns of an alias, up to timestamps. -/
def aliasContent (row : AliasRow) : Str × Str × Str := (row.cidr, row.displayName, row.description)

/-- How `aliases_updated` is put back. -/
def aliasRestorer (now : Str) : aliasWriter.Restorer (Str × Str × Str) where
  content := aliasContent
  back old row :=
    { row with displayName := old.displayName, description := old.description, updatedAt := now }
  key_back _ _ := rfl
  content_back := by
    intro old row h
    cases old
    cases row
    cases h
    rfl

/-- `DELETE FROM upstream_resolvers WHERE id IN (...)`. -/
def deleteResolvers (ids : List ℕ) (t : Upstream.ResolverTable) : Upstream.ResolverTable where
  rows := t.rows.filter (·.id ∉ ids)
  key := t.key.sublist (List.filter_sublist.map _)

/-- What the transaction of the rollback does, apart from the rules. -/
def RollbackInfo.undo (now : Str) (info : RollbackInfo) (t : Destination) : Destination :=
  { t with
    localDns := t.localDns.filter (·.id ∉ info.localDnsIds)
    sources := sourceRestorer.undoRows info.sources t.sources
    upstreams := deleteResolvers info.upstreamIds t.upstreams
    aliases := (aliasRestorer now).undoRows info.aliases t.aliases
    accessRules := (t.accessRules.filter fun rule =>
      !rule.clientId.any (· ∈ info.clientsAdded)).filter (·.id ∉ info.accessRulesAdded)
    identifiers := t.identifiers.filter (·.clientId ∉ info.clientsAdded)
    clients := t.clients.filter (·.id ∉ info.clientsAdded)
    defaultPolicy := info.accessDefaultPolicyBefore.getD t.defaultPolicy }

/-- `access_rules_touched`. -/
def RollbackInfo.touchesAccess (info : RollbackInfo) : Bool :=
  info.clientsAdded ≠ [] || info.accessRulesAdded ≠ [] || info.accessDefaultPolicyBefore.isSome

/-- The transaction of the rollback. -/
def JobState.undo (host : ImportHost) (jobId : ℕ) (info : RollbackInfo) (s : JobState) :
    JobState :=
  let rules := s.rules.filter (·.2 ≠ some jobId)
  { s with
    tables := { info.undo host.now s.tables with customRules := rules.map (·.1) }
    status := .rolledBack
    ruleJob := fun i => rules[i]?.bind (·.2) }

/-- `_rollback_migration_job`; `none` is an exception. -/
def rollbackMigrationJob (host : ImportHost) (jobId : ℕ) (info : RollbackInfo) (s : JobState) :
    Option JobState :=
  if s.status = .applied ∨ s.status = .deployFailed then
    let s := (s.initDbs host).undo host jobId info
    some { s with tables := deployAccess host info.touchesAccess s.tables }
  else none

/-- The apply with its log does what the apply does when nothing fails from outside. -/
theorem applyLogged_fst (host : ImportHost) (job : MigrationJob) (jobId : ℕ) (s : JobState) :
    (applyLogged host job jobId s).map (·.1.toImportState)
      = if (applyMigrationJob host {} job s.toImportState).1 = none then
          some (applyMigrationJob host {} job s.toImportState).2
        else none := by
  unfold applyLogged applyMigrationJob
  cases job.plan with
  | none => rfl
  | some plan =>
      by_cases hstatus : s.status.mayApply = true
      · have hfst := loggedTransaction_fst (job.context host plan)
          job.translation.accessDefaultPolicy (job.chosen plan) (s.initDbs host).tables
        simp only [Option.bind_some, hstatus, if_true, Bool.not_true, Bool.false_eq_true, if_false,
          applyItems]
        change _ = transaction (job.context host plan) {} _ _
          (s.toImportState.setup host .policy).tables at hfst
        rw [← hfst]
        cases loggedTransaction (job.context host plan) job.translation.accessDefaultPolicy
          (job.chosen plan) (s.initDbs host).tables with
        | none => rfl
        | some p =>
            obtain ⟨⟨t, touched⟩, info⟩ := p
            cases touched <;> rfl
      · simp [hstatus]

/-! ## Migrations in between -/

/-- `t'` is `t` after migrations of aliases. -/
structure Later (t t' : Destination) : Prop where
  rest : t' = { t with clients := t'.clients, identifiers := t'.identifiers }
  clients : t.clients.1 <+: t'.clients.1
  same : t'.clients.1.length = t.clients.1.length → t' = t

theorem Later.refl (t : Destination) : Later t t := ⟨rfl, List.prefix_refl _, fun _ => rfl⟩

theorem Later.trans {t t' t'' : Destination} (h : Later t t') (h' : Later t' t'') :
    Later t t'' where
  rest := by
    rw [h'.rest, h.rest]
  clients := h.clients.trans h'.clients
  same := by
    intro hlength
    have hle := h.clients.length_le
    have hle' := h'.clients.length_le
    rw [h'.same (by omega), h.same (by omega)]

/-- A migration adds clients. -/
theorem grows_migratedClients (u : UnicodeData) :
    Grows (migrateClientAlias u) (fun t => t.clients.1.length) (AliasMigrated u) where
  same := (grows_migrateClientAlias u).same
  larger t row h := by
    obtain ⟨kind, value, hid, hnew⟩ := not_aliasMigrated h
    rw [migrateClientAlias, hid]
    dsimp only
    rw [if_neg hnew, addClient_length]
    exact Nat.lt_succ_self _

theorem migrateClientAlias_spec (u : UnicodeData) (t : AddedTables) (row : AliasRow) :
    migrateClientAlias u t row = { t with
      clients := (migrateClientAlias u t row).clients
      identifiers := (migrateClientAlias u t row).identifiers } ∧
    t.clients.1 <+: (migrateClientAlias u t row).clients.1 ∧
    t.identifiers.1 <+: (migrateClientAlias u t row).identifiers.1 := by
  unfold migrateClientAlias
  cases normalizeIdentifier u row.cidr with
  | none => exact ⟨rfl, List.prefix_refl _, List.prefix_refl _⟩
  | some id =>
      dsimp only
      split_ifs
      · exact ⟨rfl, List.prefix_refl _, List.prefix_refl _⟩
      · refine ⟨rfl, ?_, ?_⟩
        · cases hadd : addClient t.clients (orComment row.displayName id.2) row.description
              true with
          | none => exact List.prefix_refl _
          | some clients =>
              rw [Option.getD_some, LegalRows.insert_eq_some hadd]
              exact List.prefix_append _ _
        · cases hadd : addIdentifier (nextRowid (t.clients.1.map (·.id))) t.identifiers id.1
            id.2 with
          | none => exact List.prefix_refl _
          | some identifiers =>
              rw [Option.getD_some, LegalRows.insert_eq_some hadd]
              exact List.prefix_append _ _

theorem foldl_migrateClientAlias_spec (u : UnicodeData) (rows : List AliasRow) (t : AddedTables) :
    rows.foldl (migrateClientAlias u) t = { t with
      clients := (rows.foldl (migrateClientAlias u) t).clients
      identifiers := (rows.foldl (migrateClientAlias u) t).identifiers } ∧
    t.clients.1 <+: (rows.foldl (migrateClientAlias u) t).clients.1 ∧
    t.identifiers.1 <+: (rows.foldl (migrateClientAlias u) t).identifiers.1 := by
  induction rows generalizing t with
  | nil => exact ⟨rfl, List.prefix_refl _, List.prefix_refl _⟩
  | cons row rows ih =>
      obtain ⟨hrest, hclients, hidentifiers⟩ := migrateClientAlias_spec u t row
      obtain ⟨hrest', hclients', hidentifiers'⟩ := ih (migrateClientAlias u t row)
      rw [List.foldl_cons]
      refine ⟨?_, hclients.trans hclients', hidentifiers.trans hidentifiers'⟩
      rw [hrest', hrest]

section Migrations

variable (host : ImportHost) (t : Destination)

/-- All aliases of the table are migrated. -/
def AllMigrated (rows : List AliasRow) : Prop :=
  ∀ row ∈ rows, AliasMigrated host.data.toUnicodeData t.toAddedTables row

theorem later_migrateAliases (rows : List AliasRow) : Later t (t.migrateAliases host rows) where
  rest := by
    have hrest := (foldl_migrateClientAlias_spec host.data.toUnicodeData rows t.toAddedTables).1
    unfold Destination.migrateAliases
    rw [hrest]
  clients := (foldl_migrateClientAlias_spec host.data.toUnicodeData rows t.toAddedTables).2.1
  same := by
    intro hlength
    have hgrows := grows_migratedClients host.data.toUnicodeData
    unfold Destination.migrateAliases at hlength ⊢
    by_cases hall : AllMigrated host t rows
    · rw [hgrows.foldl_same hall]
    · exact absurd hlength (hgrows.foldl_larger hall).ne'

theorem migrateAliases_eq_iff (rows : List AliasRow) :
    t.migrateAliases host rows = t ↔ AllMigrated host t rows := by
  have hgrows := grows_migratedClients host.data.toUnicodeData
  constructor
  · intro heq
    by_contra hall
    have hlarger := hgrows.foldl_larger hall
    exact hlarger.ne' (congrArg (fun t : Destination => t.clients.1.length) heq)
  · intro hall
    unfold Destination.migrateAliases
    rw [hgrows.foldl_same hall]

theorem later_deployAccess (touched : Bool) : Later t (deployAccess host touched t) := by
  unfold deployAccess
  split_ifs
  · exact later_migrateAliases host t _
  · exact Later.refl t

theorem identifiers_deployAccess (touched : Bool) :
    t.identifiers.1 <+: (deployAccess host touched t).identifiers.1 := by
  unfold deployAccess
  split_ifs
  · exact (foldl_migrateClientAlias_spec host.data.toUnicodeData t.aliases.1 t.toAddedTables).2.2
  · exact List.prefix_refl _

/-- A deployment has nothing to migrate. -/
theorem deployAccess_eq_self (touched : Bool) (h : AllMigrated host t t.aliases.1) :
    deployAccess host touched t = t := by
  unfold deployAccess
  split_ifs
  · exact (migrateAliases_eq_iff host t _).mpr h
  · rfl

/-- Neither a deployment nor the migration at the next start changes anything. -/
theorem migratedAgain_eq_iff (touched : Bool) :
    (deployAccess host touched t).migrateAliases host (deployAccess host touched t).aliases.1 = t
      ↔ AllMigrated host t t.aliases.1 := by
  have hdeployed := later_deployAccess host t touched
  constructor
  · intro hagain
    have hle := hdeployed.clients.length_le
    have hle' := (later_migrateAliases host (deployAccess host touched t)
      (deployAccess host touched t).aliases.1).clients.length_le
    rw [hagain] at hle'
    have hsame : deployAccess host touched t = t := hdeployed.same (by omega)
    rw [hsame] at hagain
    exact (migrateAliases_eq_iff host t _).mp hagain
  · intro hall
    rw [deployAccess_eq_self host t touched hall]
    exact (migrateAliases_eq_iff host t _).mpr hall

end Migrations

/-- Once seeded, the resolvers are not seeded again. -/
theorem initUpstreams_again {host : ImportHost} {before now : Upstream.ResolverTable}
    (h : (initUpstreams host before).rows.length ≤ now.rows.length) :
    initUpstreams host now = now := by
  refine (initUpstreams_spec host now).1 fun hempty => ?_
  obtain ⟨hsame, hlarger⟩ := initUpstreams_spec host before
  rw [hempty, List.length_nil, Nat.le_zero] at h
  by_cases hidle : before.rows = [] → ∀ server ∈ host.forwarders, server = none
  · refine hidle ?_
    rw [hsame hidle] at h
    exact List.eq_nil_of_length_eq_zero h
  · have := hlarger hidle
    omega

/-! ## What a rollback leaves -/

/-- The clients of the store are left, and those that a migration has added behind the imported
ones. -/
theorem filter_clients {start now later : ClientRows} {ids : List ℕ} {extra : List Client}
    (h : Added (·.id) start.1 now.1 ids) (hlater : later.1 = now.1 ++ extra) :
    later.1.filter (fun row => row.id ∉ ids) = start.1 ++ extra := by
  have hextra : extra.filter (fun row => decide (row.id ∉ ids)) = extra := by
    rw [List.filter_eq_self]
    intro row hrow
    refine decide_eq_true fun hmem => ?_
    obtain ⟨row', hrow', hid⟩ := h.mem hmem
    have hlegal := later.2
    rw [hlater, List.pairwise_append] at hlegal
    have := hlegal.2.2 row' hrow' row hrow
    simp [clientConflict, hid] at this
  rw [hlater, List.filter_append, h.undo, hextra]

/-- The access rules that do not belong to an imported client. -/
def RollbackInfo.keptRules (info : RollbackInfo) (rules : RuleRows) : RuleRows :=
  rules.filter fun rule => !rule.clientId.any (· ∈ info.clientsAdded)

/-- The identifiers that do not belong to an imported client. -/
def RollbackInfo.keptIdentifiers (info : RollbackInfo) (identifiers : IdentifierRows) :
    IdentifierRows :=
  identifiers.filter (·.clientId ∉ info.clientsAdded)

/-- What is left of the tables from which an apply began. -/
structure RolledBack (host : ImportHost) (info : RollbackInfo) (start applied final : Destination) :
    Prop where
  localDns : final.localDns = start.localDns
  upstreams : final.upstreams = start.upstreams
  sources : final.sources = sourceRestorer.undoRows info.sources applied.sources
  aliases : final.aliases = (aliasRestorer host.now).undoRows info.aliases applied.aliases
  accessRules : final.accessRules = info.keptRules start.accessRules
  defaultPolicy : final.defaultPolicy = start.defaultPolicy
  clients : start.clients.1 <+: final.clients.1
  quiet : final.clients.1.length = start.clients.1.length →
    AllMigrated host applied applied.aliases.1 ∧ final.clients = start.clients ∧
      final.identifiers = info.keptIdentifiers start.identifiers
  still : AllMigrated host applied applied.aliases.1 →
    AllMigrated host { start with identifiers := info.keptIdentifiers start.identifiers }
      final.aliases.1 →
    final.clients = start.clients ∧ final.identifiers = info.keptIdentifiers start.identifiers

section RolledBack

variable {host : ImportHost} {ctx : ImportContext} {policy : Option AllowDeny} {items : List Item}
  {start applied : Destination} {info : RollbackInfo}

theorem Recorded.kept (h : RecordedItems ctx start items applied info) :
    applied.identifiers.filter (·.clientId ∉ info.clientsAdded)
        = info.keptIdentifiers start.identifiers ∧
      (applied.accessRules.filter fun rule => !rule.clientId.any (· ∈ info.clientsAdded)).filter
          (·.id ∉ info.accessRulesAdded) = info.keptRules start.accessRules := by
  constructor
  · obtain ⟨added, hadded, hclients⟩ := h.identifiers
    refine Subtype.ext ?_
    change applied.identifiers.1.filter _ = start.identifiers.1.filter _
    have hgone : added.filter (fun row => decide (row.clientId ∉ info.clientsAdded)) = [] := by
      rw [List.filter_eq_nil_iff]
      intro row hrow
      simpa using hclients row hrow
    rw [hadded, List.filter_append, hgone, List.append_nil]
  · refine Subtype.ext ?_
    change (applied.accessRules.1.filter _).filter _ = start.accessRules.1.filter _
    rw [← h.accessRules.undo, List.filter_filter, List.filter_filter]
    refine List.filter_congr fun rule _ => ?_
    exact Bool.and_comm _ _

/-- The tables that only the apply writes are put back, whatever clients were migrated since. -/
theorem Recorded.undone {found : Destination} (h : RecordedItems ctx start items applied info)
    (hpolicy : info.accessDefaultPolicyBefore.getD applied.defaultPolicy = start.defaultPolicy)
    (hlater : Later applied found) :
    (info.undo host.now found).localDns = start.localDns ∧
      (info.undo host.now found).upstreams = start.upstreams ∧
      (info.undo host.now found).sources = sourceRestorer.undoRows info.sources applied.sources ∧
      (info.undo host.now found).aliases
        = (aliasRestorer host.now).undoRows info.aliases applied.aliases ∧
      (info.undo host.now found).accessRules = info.keptRules start.accessRules ∧
      (info.undo host.now found).defaultPolicy = start.defaultPolicy := by
  refine ⟨?_, ?_, ?_, ?_, ?_, ?_⟩
  · have hsame : found.localDns = applied.localDns := congrArg (·.localDns) hlater.rest
    change found.localDns.filter _ = _
    rw [hsame]
    exact Subtype.ext h.localDns.undo
  · have hsame : found.upstreams = applied.upstreams := congrArg (·.upstreams) hlater.rest
    change deleteResolvers info.upstreamIds found.upstreams = _
    rw [hsame]
    have hrows : (deleteResolvers info.upstreamIds applied.upstreams).rows = start.upstreams.rows :=
      h.upstreams.undo
    cases hd : deleteResolvers info.upstreamIds applied.upstreams
    cases hs : start.upstreams
    rw [hd, hs] at hrows
    cases hrows
    rfl
  · have hsame : found.sources = applied.sources := congrArg (·.sources) hlater.rest
    change sourceRestorer.undoRows info.sources found.sources = _
    rw [hsame]
  · have hsame : found.aliases = applied.aliases := congrArg (·.aliases) hlater.rest
    change (aliasRestorer host.now).undoRows info.aliases found.aliases = _
    rw [hsame]
  · have hsame : found.accessRules = applied.accessRules :=
      congrArg (·.accessRules) hlater.rest
    change (found.accessRules.filter _).filter _ = _
    rw [hsame]
    exact h.kept.2
  · have hsame : found.defaultPolicy = applied.defaultPolicy :=
      congrArg (·.defaultPolicy) hlater.rest
    change info.accessDefaultPolicyBefore.getD found.defaultPolicy = _
    rw [hsame]
    exact hpolicy

theorem rolledBack_spec {touched : Bool} {before : Destination} {X : List FilterRow}
    (h : RecordedItems ctx start items applied info)
    (hstart : start.upstreams = initUpstreams host before.upstreams)
    (hpolicy : info.accessDefaultPolicyBefore.getD applied.defaultPolicy = start.defaultPolicy) :
    let deployed := deployAccess host touched applied
    let found := (deployed.seed host []).migrateAliases host deployed.aliases.1
    RolledBack host info start applied
      (deployAccess host info.touchesAccess
        { info.undo host.now found with customRules := X }) := by
  intro deployed found
  have hdeployed : Later applied deployed := later_deployAccess host applied touched
  have hseed : deployed.seed host [] = deployed := by
    have hagain : initUpstreams host applied.upstreams = applied.upstreams :=
      initUpstreams_again (hstart ▸ h.upstreams.length_le)
    have hupstreams : deployed.upstreams = applied.upstreams := by rw [hdeployed.rest]
    rw [Destination.seed, hupstreams, hagain, ← hupstreams]
    rfl
  have hfound : Later deployed found := by
    simp only [found, hseed]
    exact later_migrateAliases host deployed _
  have hlater := hdeployed.trans hfound
  obtain ⟨extra, hextra⟩ := hlater.clients
  have hidentifiers := h.kept.1
  set undone : Destination := { info.undo host.now found with customRules := X } with hundone
  have hfinal : Later undone (deployAccess host info.touchesAccess undone) :=
    later_deployAccess host undone _
  have hclients : undone.clients.1 = start.clients.1 ++ extra :=
    filter_clients h.clients hextra.symm
  obtain ⟨hlocalDns, hupstreams, hsources, haliases, haccessRules, hdefault⟩ :=
    Recorded.undone h hpolicy hlater
  refine
    { localDns := (congrArg (·.localDns) hfinal.rest).trans hlocalDns
      upstreams := (congrArg (·.upstreams) hfinal.rest).trans hupstreams
      sources := (congrArg (·.sources) hfinal.rest).trans hsources
      aliases := (congrArg (·.aliases) hfinal.rest).trans haliases
      accessRules := (congrArg (·.accessRules) hfinal.rest).trans haccessRules
      defaultPolicy := (congrArg (·.defaultPolicy) hfinal.rest).trans hdefault
      clients := ?_
      quiet := ?_
      still := ?_ }
  · exact (hclients ▸ List.prefix_append _ _ : start.clients.1 <+: undone.clients.1).trans
      hfinal.clients
  · intro hlength
    -- no client was added at any time, so every migration found nothing to do
    have hle := hfinal.clients.length_le
    rw [hclients, List.length_append] at hle
    have hnone : extra = [] := List.eq_nil_of_length_eq_zero (by omega)
    have hsame := hfinal.same (by rw [hclients, List.length_append, hlength, hnone]; rfl)
    have hlengths : found.clients.1.length = applied.clients.1.length := by
      rw [← hextra, hnone, List.append_nil]
    have hfoundSame := hlater.same hlengths
    refine ⟨?_, ?_, ?_⟩
    · refine (migratedAgain_eq_iff host applied touched).mp ?_
      simpa only [found, hseed] using hfoundSame
    · rw [hsame]
      exact Subtype.ext (by rw [hclients, hnone, List.append_nil])
    · rw [hsame]
      change found.identifiers.filter _ = _
      rw [hfoundSame]
      exact hidentifiers
  · intro hall hfinalAll
    have hfoundSame : found = applied := by
      simp only [found, hseed]
      exact (migratedAgain_eq_iff host applied touched).mpr hall
    have hnone : extra = [] := by
      rw [hfoundSame] at hextra
      exact List.append_right_eq_self.mp hextra
    have hundoneIdentifiers : undone.identifiers = info.keptIdentifiers start.identifiers := by
      change found.identifiers.filter _ = _
      rw [hfoundSame]
      exact hidentifiers
    have haliases : (deployAccess host info.touchesAccess undone).aliases = undone.aliases :=
      congrArg (·.aliases) hfinal.rest
    have hsame : deployAccess host info.touchesAccess undone = undone := by
      refine deployAccess_eq_self host undone _ ?_
      rw [haliases] at hfinalAll
      intro row hrow kind value hid
      rw [hundoneIdentifiers]
      exact hfinalAll row hrow kind value hid
    rw [hsame]
    exact ⟨Subtype.ext (by rw [hclients, hnone, List.append_nil]), hundoneIdentifiers⟩

end RolledBack

/-! ## The rules -/

theorem getElem?_taggedRules (rows : List FilterRow) (ruleJob : ℕ → Option ℕ) (i : ℕ) :
    (taggedRules rows ruleJob)[i]? = rows[i]?.map fun row => (row, ruleJob i) := by
  simp [taggedRules, List.getElem?_map, List.getElem?_zipIdx, Option.map_map, Function.comp_def]

/-- Rules that are added behind the others belong to the job. -/
theorem taggedRules_tagFrom (rows added : List FilterRow) (job : Option ℕ)
    (ruleJob : ℕ → Option ℕ) : taggedRules (rows ++ added) (tagFrom rows.length job ruleJob)
      = taggedRules rows ruleJob ++ added.map (·, job) := by
  refine List.ext_getElem? fun i => ?_
  have hlength : (taggedRules rows ruleJob).length = rows.length := by
    simp [taggedRules]
  rw [getElem?_taggedRules, List.getElem?_append, List.getElem?_append, hlength]
  by_cases hi : i < rows.length
  · simp only [hi, if_true, getElem?_taggedRules, tagFrom]
  · simp only [hi, if_false, List.getElem?_map, tagFrom]

/-- The rules that the transaction of the rollback leaves. -/
theorem rules_undo (host : ImportHost) (jobId : ℕ) (info : RollbackInfo) (s : JobState) :
    (s.undo host jobId info).rules = s.rules.filter (·.2 ≠ some jobId) := by
  set rules := s.rules.filter (·.2 ≠ some jobId) with hrules
  change taggedRules (rules.map (·.1)) (fun i => rules[i]?.bind (·.2)) = rules
  refine List.ext_getElem? fun i => ?_
  rw [getElem?_taggedRules, List.getElem?_map]
  cases rules[i]? <;> rfl

/-- A rule that is migrated was not represented, and is so afterwards. -/
theorem migrateLegacyRules_spec (now : Str) (legacies : List LegacyRow) (rows : List FilterRow) :
    rows <+: migrateLegacyRules now legacies rows ∧
      ∀ legacy ∈ legacies, legacy.represented (migrateLegacyRules now legacies rows) = true := by
  induction legacies generalizing rows with
  | nil => exact ⟨List.prefix_refl _, fun _ h => nomatch h⟩
  | cons legacy legacies ih =>
      obtain ⟨hbegins, hall⟩ := ih (migrateLegacyRule now rows legacy)
      have hone : rows <+: migrateLegacyRule now rows legacy ∧
          legacy.represented (migrateLegacyRule now rows legacy) = true := by
        unfold migrateLegacyRule
        split_ifs with hrep
        · exact ⟨List.prefix_refl _, hrep⟩
        · refine ⟨List.prefix_append _ _, ?_⟩
          have happend := hasRule_append rows [migratedRow now legacy] legacy.text
            legacy.action.ruleAction
          rw [LegacyRow.represented, happend]
          have := represented_migratedRow now legacy
          rw [LegacyRow.represented] at this
          rw [this, Bool.or_true]
      refine ⟨hone.1.trans hbegins, List.forall_mem_cons.mpr ⟨?_, hall⟩⟩
      obtain ⟨added, hadded⟩ := hbegins
      change legacy.represented (migrateLegacyRules now legacies _) = true
      rw [← hadded, LegacyRow.represented, hasRule_append]
      rw [LegacyRow.represented] at hone
      rw [hone.2, Bool.true_or]

/-- Without the rules of a job, and with rules that a migration has added, the rules are what they
were just when there were none of either. -/
theorem rules_restored_iff {now : Str} {legacies : List LegacyRow} {rows added : List FilterRow}
    {ruleJob : ℕ → Option ℕ} {jobId : ℕ}
    (hadded : migrateLegacyRules now legacies rows = rows ++ added) :
    (taggedRules rows ruleJob ++ added.map (·, none)).filter (·.2 ≠ some jobId)
        = taggedRules rows ruleJob ↔
      (∀ legacy ∈ legacies, legacy.represented rows = true) ∧
        ∀ p ∈ taggedRules rows ruleJob, p.2 ≠ some jobId := by
  have hkept : (added.map fun row => (row, (none : Option ℕ))).filter
      (fun p => decide (p.2 ≠ some jobId)) = added.map (·, none) := by
    rw [List.filter_eq_self, List.forall_mem_map]
    simp
  rw [List.filter_append, hkept]
  constructor
  · intro h
    have hrep : ∀ legacy ∈ legacies, legacy.represented rows = true := by
      intro legacy hlegacy
      have hall := (migrateLegacyRules_spec now legacies rows).2 legacy hlegacy
      rw [hadded, LegacyRow.represented, hasRule_append, Bool.or_eq_true] at hall
      refine hall.elim id fun hnew => ?_
      -- the row that represents it is a row of the old table again
      obtain ⟨row, hrow, hkey⟩ := List.any_eq_true.mp hnew
      have hmem : (row, none) ∈ taggedRules rows ruleJob := by
        rw [← h]
        exact List.mem_append_right _ (List.mem_map_of_mem hrow)
      obtain ⟨i, hi⟩ := List.getElem?_of_mem hmem
      rw [getElem?_taggedRules, Option.map_eq_some_iff] at hi
      obtain ⟨row', hrow', heq⟩ := hi
      rw [(Prod.mk.inj heq).1] at hrow'
      exact List.any_eq_true.mpr ⟨row, List.mem_of_getElem? hrow', hkey⟩
    have hnone : added = [] := by
      have hsame : migrateLegacyRules now legacies rows = rows :=
        (grows_migrateLegacyRule now).foldl_same hrep
      rw [hsame] at hadded
      exact List.append_right_eq_self.mp hadded.symm
    rw [hnone, List.map_nil, List.append_nil, List.filter_eq_self] at h
    exact ⟨hrep, fun p hp => of_decide_eq_true (h p hp)⟩
  · rintro ⟨hrep, hjob⟩
    have hsame : migrateLegacyRules now legacies rows = rows :=
      (grows_migrateLegacyRule now).foldl_same hrep
    rw [hsame] at hadded
    rw [List.append_right_eq_self.mp hadded.symm, List.map_nil, List.append_nil,
      List.filter_eq_self]
    exact fun p hp => decide_eq_true (hjob p hp)

/-! ## The way back -/

/-- Every table of the destination has the content that it had, up to timestamps. -/
structure SameTables (s s' : JobState) : Prop where
  rules : s'.rules = s.rules
  localDns : s'.tables.localDns = s.tables.localDns
  upstreams : s'.tables.upstreams = s.tables.upstreams
  clients : s'.tables.clients = s.tables.clients
  identifiers : s'.tables.identifiers = s.tables.identifiers
  accessRules : s'.tables.accessRules = s.tables.accessRules
  sources : s'.tables.sources = s.tables.sources
  aliases : s'.tables.aliases.1.map aliasContent = s.tables.aliases.1.map aliasContent
  defaultPolicy : s'.tables.defaultPolicy = s.tables.defaultPolicy

/-- The job can be undone.  The conditions are about the store and the entries that the job
applies. -/
structure Restorable (host : ImportHost) (job : MigrationJob) (plan : MigrationPlan) (jobId : ℕ)
    (s : JobState) : Prop where
  /-- nothing is seeded or migrated before the import -/
  setup : SetupIdle host s.toImportState
  /-- the store has no rule of the job -/
  rules : ∀ p ∈ s.rules, p.2 ≠ some jobId
  /-- of several updates of a source, the last but one writes what the source held -/
  sources : ∀ row ∈ s.tables.sources.1, ∀ u,
    sourceWriter.beforeLast (sourceEntries (job.chosen plan).reduceOption) row.name = some u →
      sourceWriter.write u row = row
  /-- and so for the aliases -/
  aliases : ∀ row ∈ s.tables.aliases.1, ∀ u,
    aliasWriter.beforeLast
        (aliasUpdates (job.context host plan) (job.chosen plan).reduceOption) row.cidr = some u →
      aliasContent (aliasWriter.write u row) = aliasContent row
  /-- an imported alias is an identifier that a client has, in the store or in the import -/
  migrated : ∀ u ∈ aliasUpdates (job.context host plan) (job.chosen plan).reduceOption,
    ∀ kind value, normalizeIdentifier host.data.toUnicodeData u.cidr = some (kind, value) →
      hasIdentifier s.tables.identifiers kind value = true ∨
        ∃ client ∈ clientEntries (job.chosen plan).reduceOption, client.Identifies kind value
  /-- no identifier refers to the id of an imported client -/
  identifiers : ∀ row ∈ s.tables.identifiers.1,
    row.clientId ∉ importedIds s.tables.clients (clientEntries (job.chosen plan).reduceOption)
  /-- no access rule does -/
  accessRules : ∀ rule ∈ s.tables.accessRules.1, ∀ id, rule.clientId = some id →
    id ∉ importedIds s.tables.clients (clientEntries (job.chosen plan).reduceOption)

section Restore

variable {host : ImportHost} {job : MigrationJob} {plan : MigrationPlan} {jobId : ℕ}
  {s s' : JobState} {info : RollbackInfo}

/-- The setup adds rules that belong to no job. -/
theorem rules_initDbs (host : ImportHost) (s : JobState) {added : List FilterRow}
    (h : migrateLegacyRules host.now s.legacy s.tables.customRules
      = s.tables.customRules ++ added) :
    (s.initDbs host).tables.customRules = s.tables.customRules ++ added ∧
      (s.initDbs host).rules = s.rules ++ added.map (·, none) := by
  have hlater : Later (s.tables.seed host s.legacy) (s.initDbs host).tables :=
    later_migrateAliases host _ _
  have hrows : (s.initDbs host).tables.customRules = s.tables.customRules ++ added :=
    (congrArg (·.customRules) hlater.rest).trans h
  refine ⟨hrows, ?_⟩
  change taggedRules (s.initDbs host).tables.customRules
    (tagFrom s.tables.customRules.length none s.ruleJob) = _
  rw [hrows, taggedRules_tagFrom]
  rfl

/-- What a successful apply has recorded. -/
theorem applyLogged_spec (hplan : job.plan = some plan)
    (h : applyLogged host job jobId s = some (s', info)) :
    ∃ (applied : Destination) (touched : Bool) (new : List FilterRow),
      s' = { s.initDbs host with
        tables := deployAccess host touched applied
        status := .applied
        ruleJob := tagFrom (s.initDbs host).tables.customRules.length (some jobId)
          (s.initDbs host).ruleJob } ∧
      RecordedItems (job.context host plan) (s.initDbs host).tables (job.chosen plan).reduceOption
        applied info ∧
      info.accessDefaultPolicyBefore.getD applied.defaultPolicy
        = (s.initDbs host).tables.defaultPolicy ∧
      s'.rules = (s.initDbs host).rules ++ new.map (·, some jobId) := by
  unfold applyLogged at h
  rw [hplan, Option.bind_some] at h
  split_ifs at h with hstatus
  obtain ⟨⟨⟨applied, touched⟩, log⟩, hrun, heq⟩ := Option.map_eq_some_iff.mp h
  obtain ⟨rfl, rfl⟩ := Prod.mk.inj heq
  obtain ⟨hrecorded, hpolicy, hbefore⟩ := recorded_foldlM [] (Recorded.nil _ _ _) hrun
  rw [List.nil_append] at hrecorded
  obtain ⟨new, hnew⟩ := hrecorded.rules
  refine ⟨applied, touched, new, rfl, hrecorded, ?_, ?_⟩
  · change log.accessDefaultPolicyBefore = _ at hbefore
    change applied.defaultPolicy = _ at hpolicy
    rw [hbefore, hpolicy]
    simp only [RollbackInfo.start, Destination.setPolicy]
    cases job.translation.accessDefaultPolicy with
    | none => rfl
    | some policy =>
        by_cases hsame : policy = (s.initDbs host).tables.defaultPolicy
        · simp [hsame]
        · simp [hsame]
  · have hdeployed := later_deployAccess host applied touched
    change taggedRules (deployAccess host touched applied).customRules _ = _
    rw [show (deployAccess host touched applied).customRules = applied.customRules from
      congrArg (·.customRules) hdeployed.rest, ← hnew, taggedRules_tagFrom]
    rfl

/-- What a rollback right after a successful apply leaves. -/
theorem rollback_after_apply (hplan : job.plan = some plan)
    (h : applyLogged host job jobId s = some (s', info)) :
    ∃ applied final, rollbackMigrationJob host jobId info s' = some final ∧
      RecordedItems (job.context host plan) (s.initDbs host).tables (job.chosen plan).reduceOption
        applied info ∧
      RolledBack host info (s.initDbs host).tables applied final.tables ∧
      ∃ added, (s.initDbs host).tables.customRules = s.tables.customRules ++ added ∧
        final.rules = (s.rules ++ added.map (·, none)).filter (·.2 ≠ some jobId) := by
  obtain ⟨applied, touched, new, rfl, hrecorded, hpolicy, happliedRules⟩ :=
    applyLogged_spec hplan h
  set applied' : JobState :=
    { s.initDbs host with
      tables := deployAccess host touched applied
      status := .applied
      ruleJob := tagFrom (s.initDbs host).tables.customRules.length (some jobId)
        (s.initDbs host).ruleJob } with happlied'
  have hstart : Later (s.tables.seed host s.legacy) (s.initDbs host).tables :=
    later_migrateAliases host _ _
  obtain ⟨added, hadded⟩ := (migrateLegacyRules_spec host.now s.legacy s.tables.customRules).1
  obtain ⟨hstartRules, hstartTagged⟩ := rules_initDbs host s hadded.symm
  refine ⟨applied, _, if_pos (Or.inl rfl), hrecorded, ?_, added, hstartRules, ?_⟩
  · exact rolledBack_spec hrecorded (congrArg (·.upstreams) hstart.rest) hpolicy
  · -- the rollback finds no legacy row to migrate
    have hnone : migrateLegacyRules host.now applied'.legacy applied'.tables.customRules
        = applied'.tables.customRules ++ [] := (List.append_nil _).symm
    have hfound := (rules_initDbs host applied' hnone).2
    have hlast := later_deployAccess host ((applied'.initDbs host).undo host jobId info).tables
      info.touchesAccess
    change taggedRules (deployAccess host info.touchesAccess
      ((applied'.initDbs host).undo host jobId info).tables).customRules _ = _
    rw [show (deployAccess host info.touchesAccess
        ((applied'.initDbs host).undo host jobId info).tables).customRules
          = ((applied'.initDbs host).undo host jobId info).tables.customRules from
        congrArg (·.customRules) hlast.rest]
    change ((applied'.initDbs host).undo host jobId info).rules = _
    have hgone : (new.map fun row => (row, some jobId)).filter
        (fun p => decide (p.2 ≠ some jobId)) = [] := by
      rw [List.filter_eq_nil_iff, List.forall_mem_map]
      simp
    rw [rules_undo, hfound, List.map_nil, List.append_nil, happliedRules, hstartTagged,
      List.filter_append, hgone, List.append_nil]

end Restore

section Iff

variable {host : ImportHost} {job : MigrationJob} {plan : MigrationPlan} {jobId : ℕ}
  {s final : JobState} {info : RollbackInfo} {ctx : ImportContext} {items : List Item}
  {start applied : Destination}

theorem Recorded.mem_aliases (h : RecordedItems ctx start items applied info) (cidr : Str) :
    (∃ row ∈ applied.aliases.1, row.cidr = cidr) ↔
      (∃ row ∈ start.aliases.1, row.cidr = cidr) ∨
        ∃ u ∈ aliasUpdates ctx items, u.cidr = cidr := by
  have hfst : applied.aliases
      = (aliasUpdates ctx items).foldl aliasWriter.upsert start.aliases := by
    rw [← aliasWriter.foldl_loggedUpsert_fst (start.aliases, {}), ← h.aliases]
  rw [hfst]
  exact aliasWriter.exists_key_foldl (fun _ _ => rfl) _ start.aliases cidr

/-- When the sources are what they were. -/
theorem Recorded.sources_iff (h : RecordedItems ctx start items applied info) :
    sourceRestorer.undoRows info.sources applied.sources = start.sources ↔
      ∀ row ∈ start.sources.1, ∀ u,
        sourceWriter.beforeLast (sourceEntries items) row.name = some u →
          sourceWriter.write u row = row := by
  have hundo := sourceRestorer.undo_contents_iff start.sources (sourceEntries items)
  rw [← h.sources] at hundo
  refine Iff.trans ?_ hundo
  have hid (rows : List SourceRow) : rows.map sourceRestorer.content = rows := List.map_id' rows
  rw [hid, hid]
  exact Subtype.ext_iff

/-- When the aliases are. -/
theorem Recorded.aliases_iff (h : RecordedItems ctx start items applied info) (now : Str) :
    ((aliasRestorer now).undoRows info.aliases applied.aliases).1.map aliasContent
        = start.aliases.1.map aliasContent ↔
      ∀ row ∈ start.aliases.1, ∀ u,
        aliasWriter.beforeLast (aliasUpdates ctx items) row.cidr = some u →
          aliasContent (aliasWriter.write u row) = aliasContent row := by
  have hundo := (aliasRestorer now).undo_contents_iff start.aliases (aliasUpdates ctx items)
  rw [← h.aliases] at hundo
  exact hundo

/-- When all aliases of the tables after the items are migrated, if those before them were. -/
theorem Recorded.migrated_iff (h : RecordedItems ctx start items applied info)
    (hstart : AllMigrated host start start.aliases.1) :
    AllMigrated host applied applied.aliases.1 ↔ ∀ u ∈ aliasUpdates ctx items, ∀ kind value,
      normalizeIdentifier host.data.toUnicodeData u.cidr = some (kind, value) →
        hasIdentifier start.identifiers kind value = true ∨
          ∃ client ∈ clientEntries items, client.Identifies kind value := by
  constructor
  · intro hall u hu kind value hid
    obtain ⟨row, hrow, hcidr⟩ := (h.mem_aliases u.cidr).mpr (.inr ⟨u, hu, rfl⟩)
    exact (h.identified kind value).mp (hall row hrow kind value (hcidr ▸ hid))
  · intro hnew row hrow kind value hid
    rw [h.identified]
    rcases (h.mem_aliases row.cidr).mp ⟨row, hrow, rfl⟩ with ⟨row', hrow', hcidr⟩ | ⟨u, hu, hcidr⟩
    · exact .inl (hstart row' hrow' kind value (hcidr ▸ hid))
    · exact hnew u hu kind value (hcidr ▸ hid)

theorem keptIdentifiers_eq_iff (info : RollbackInfo) (identifiers : IdentifierRows) :
    info.keptIdentifiers identifiers = identifiers ↔
      ∀ row ∈ identifiers.1, row.clientId ∉ info.clientsAdded := by
  rw [Subtype.ext_iff]
  change identifiers.1.filter _ = identifiers.1 ↔ _
  simp [List.filter_eq_self]

theorem keptRules_eq_iff (info : RollbackInfo) (rules : RuleRows) :
    info.keptRules rules = rules ↔
      ∀ rule ∈ rules.1, ∀ id, rule.clientId = some id → id ∉ info.clientsAdded := by
  rw [Subtype.ext_iff]
  change rules.1.filter _ = rules.1 ↔ _
  simp only [List.filter_eq_self, Bool.not_eq_true', Option.any_eq_false,
    decide_eq_false_iff_not]

/-- A store that gets its tables back was ready for the import. -/
theorem setupIdle_of_same {log : RollbackInfo} {added : List FilterRow}
    (hadded : migrateLegacyRules host.now s.legacy s.tables.customRules
      = s.tables.customRules ++ added)
    (hrolled : RolledBack host log (s.initDbs host).tables applied final.tables)
    (hrules : final.rules = (s.rules ++ added.map (·, none)).filter (·.2 ≠ some jobId))
    (hsame : SameTables s final) : SetupIdle host s.toImportState := by
  have hlater : Later (s.tables.seed host s.legacy) (s.initDbs host).tables :=
    later_migrateAliases host _ _
  -- the setup has added no client
  have hclients : (s.initDbs host).tables.clients.1.length = s.tables.clients.1.length := by
    have hle := hrolled.clients.length_le
    rw [hsame.clients] at hle
    exact le_antisymm hle hlater.clients.length_le
  have hmigrated := (migrateAliases_eq_iff host _ _).mp (hlater.same hclients)
  refine ⟨⟨?_, ?_⟩, hmigrated⟩
  · by_contra hidle
    have hlarger := (initUpstreams_spec host s.tables.upstreams).2 hidle
    have hupstreams : (s.initDbs host).tables.upstreams
        = initUpstreams host s.tables.upstreams := congrArg (·.upstreams) hlater.rest
    rw [← hupstreams, ← hrolled.upstreams, hsame.upstreams] at hlarger
    exact lt_irrefl _ hlarger
  · exact ((rules_restored_iff hadded).mp (hrules.symm.trans hsame.rules)).1

/-- **A rollback right after an apply leaves every table as it was before the apply exactly when
the job can be undone.** -/
theorem rollback_restores_job_iff {s' : JobState} (hplan : job.plan = some plan)
    (h : applyLogged host job jobId s = some (s', info)) :
    ∃ final, rollbackMigrationJob host jobId info s' = some final ∧
      (SameTables s final ↔ Restorable host job plan jobId s) := by
  obtain ⟨applied, final, hfinal, hrecorded, hrolled, added, hadded, hrules⟩ :=
    rollback_after_apply hplan h
  refine ⟨final, hfinal, ?_⟩
  have hsetup := (setup_eq_iff host s.toImportState).2
  have hlegacy : migrateLegacyRules host.now s.legacy s.tables.customRules
      = s.tables.customRules ++ added := by
    have hlater : Later (s.tables.seed host s.legacy) (s.initDbs host).tables :=
      later_migrateAliases host _ _
    exact (congrArg (·.customRules) hlater.rest).symm.trans hadded
  have hids := hrecorded.clientIds
  constructor
  · intro hsame
    have hidle := setupIdle_of_same hlegacy hrolled hrules hsame
    have hstart : (s.initDbs host).tables = s.tables := hsetup.mpr hidle
    rw [hstart] at hrecorded hrolled hids
    obtain ⟨hmigrated, -, hidentifiers⟩ :=
      hrolled.quiet (congrArg (·.1.length) hsame.clients)
    exact
      { setup := hidle
        rules := ((rules_restored_iff hlegacy).mp (hrules.symm.trans hsame.rules)).2
        sources := hrecorded.sources_iff.mp (hrolled.sources.symm.trans hsame.sources)
        aliases := by
          rw [← hrecorded.aliases_iff host.now, ← hrolled.aliases]
          exact hsame.aliases
        migrated := (hrecorded.migrated_iff hidle.aliases).mp hmigrated
        identifiers := by
          rw [← hids, ← keptIdentifiers_eq_iff, ← hidentifiers]
          exact hsame.identifiers
        accessRules := by
          rw [← hids, ← keptRules_eq_iff, ← hrolled.accessRules]
          exact hsame.accessRules }
  · intro hrestorable
    have hstart : (s.initDbs host).tables = s.tables := hsetup.mpr hrestorable.setup
    rw [hstart] at hrecorded hrolled hids
    have hmigrated := (hrecorded.migrated_iff hrestorable.setup.aliases).mpr hrestorable.migrated
    have haliases : final.tables.aliases.1.map aliasContent
        = s.tables.aliases.1.map aliasContent := by
      rw [hrolled.aliases]
      exact (hrecorded.aliases_iff host.now).mpr hrestorable.aliases
    have hidentifiers : info.keptIdentifiers s.tables.identifiers = s.tables.identifiers := by
      rw [keptIdentifiers_eq_iff, hids]
      exact hrestorable.identifiers
    -- the aliases of the end are those of the store, whose identifiers are all there
    have hquiet := hrolled.still hmigrated fun row hrow kind value hid => by
      have hmem : aliasContent row ∈ s.tables.aliases.1.map aliasContent := by
        rw [← haliases]
        exact List.mem_map_of_mem hrow
      obtain ⟨row', hrow', hcontent⟩ := List.mem_map.mp hmem
      have hcidr : row'.cidr = row.cidr := congrArg (·.1) hcontent
      rw [hidentifiers]
      exact hrestorable.setup.aliases row' hrow' kind value (hcidr ▸ hid)
    exact
      { rules := hrules.trans ((rules_restored_iff hlegacy).mpr
          ⟨hrestorable.setup.rules, hrestorable.rules⟩)
        localDns := hrolled.localDns
        upstreams := hrolled.upstreams
        clients := hquiet.1
        identifiers := hquiet.2.trans hidentifiers
        accessRules := hrolled.accessRules.trans (by
          rw [keptRules_eq_iff, hids]
          exact hrestorable.accessRules)
        sources := hrolled.sources.trans (hrecorded.sources_iff.mpr hrestorable.sources)
        aliases := haliases
        defaultPolicy := hrolled.defaultPolicy }

end Iff

/-! ### An alias

The import of one client alias into an empty store.  The rollback begins with the setup of the
tables, which makes a client of the alias, and then deletes the alias and not the client. -/

def emptyJobState : JobState := { emptyState with ruleJob := fun _ => none }

def labAlias : StoredTranslation where
  clientsAsAliases := [{ cidrOrIp := "192.0.2.0/24".toList, displayName := "lab".toList }]

def adsSource : StoredTranslation where
  blocklistSources := [{ name := "ads".toList, url := "https://example.org/ads".toList }]

/-- The job of a translation, with everything selected. -/
def wholeJob (tr : StoredTranslation) : MigrationJob where
  sourceType := .alderpointdnsJson
  translation := tr.toTranslation
  plan := some (buildMigrationPlan asciiHost.data "home.arpa".toList tr)
  selected := none

/-- The import of a source can be undone. -/
theorem rollback_restores_job_iff_ads : ∃ s' info final,
    applyLogged asciiHost (wholeJob adsSource) 1 emptyJobState = some (s', info) ∧
      rollbackMigrationJob asciiHost 1 info s' = some final ∧ SameTables emptyJobState final := by
  have hidle : SetupIdle asciiHost emptyJobState.toImportState := by
    refine ⟨⟨?_, ?_⟩, ?_⟩
    · exact fun _ _ h => nomatch h
    · exact fun _ h => nomatch h
    · exact fun _ h => nomatch h
  have hnone : aliasUpdates ((wholeJob adsSource).context asciiHost
        (buildMigrationPlan asciiHost.data "home.arpa".toList adsSource))
      ((wholeJob adsSource).chosen
        (buildMigrationPlan asciiHost.data "home.arpa".toList adsSource)).reduceOption = [] :=
    List.eq_nil_of_length_eq_zero (by decide +kernel)
  obtain ⟨⟨s', info⟩, h⟩ : ∃ p, applyLogged asciiHost (wholeJob adsSource) 1 emptyJobState
      = some p := Option.isSome_iff_exists.mp (by decide +kernel)
  obtain ⟨final, hfinal, hiff⟩ := rollback_restores_job_iff rfl h
  refine ⟨s', info, final, h, hfinal, hiff.mpr
    { setup := hidle
      rules := fun _ h => nomatch h
      sources := fun _ h => nomatch h
      aliases := fun _ h => nomatch h
      migrated := ?_
      identifiers := fun _ h => nomatch h
      accessRules := fun _ h => nomatch h }⟩
  rw [hnone]
  exact fun _ h => nomatch h

/-- The client of the alias is left. -/
theorem alias_outlives_rollback : ¬∀ (host : ImportHost) (job : MigrationJob) (jobId : ℕ)
    (s s' : JobState) (info : RollbackInfo), applyLogged host job jobId s = some (s', info) →
      ∃ final, rollbackMigrationJob host jobId info s' = some final ∧ SameTables s final := by
  intro h
  obtain ⟨⟨s', info⟩, happly⟩ : ∃ p, applyLogged asciiHost (wholeJob labAlias) 1 emptyJobState
      = some p := Option.isSome_iff_exists.mp (by decide +kernel)
  obtain ⟨final, hfinal, hsame⟩ := h _ _ _ _ _ _ happly
  have hleft : ((applyLogged asciiHost (wholeJob labAlias) 1 emptyJobState).bind fun p =>
      rollbackMigrationJob asciiHost 1 p.2 p.1).map (·.tables.clients.1.length) = some 1 := by
    decide +kernel
  rw [happly, Option.bind_some, hfinal, Option.map_some, hsame.clients] at hleft
  cases hleft

end AlderpointDNS.Importer
