import AlderpointDNS.Importer.Items
import Mathlib.Data.List.ReduceOption

/-!
# Applying an import

`apply_migration_job`: the idempotent setup of the tables, then every selected item in one
transaction, then the deployment of the access layer, and last the report on the job.  The
deployment and the report come after the commit, and the setup commits by itself.

* `setup_eq_iff` — when the setup changes no row;
* `transaction_eq_iff` — when a transaction that is committed writes nothing;
* **`raises_of_eq`** — where a call can raise, and what it leaves then;
* **`tablesKept_iff`** — the points at which a call may raise with every destination table as it
  was, and that a retry then does what a first call would do.
* `created_twice` — a client that a retry after a failed deployment creates again.

The plan of the preview is any list of items.  SQLite and the commands outside the database raise
where `Faults` says so.  A call runs alone on the database, and a round of
`_migrate_client_aliases` is one step.
-/

namespace AlderpointDNS.Importer

open Text

/-! ## The job -/

/-- `source_type` of a migration job. -/
inductive SourceType where
  | adguardYaml
  | adguardApi
  | pihole
  | alderpointdnsJson

/-- `_SOURCE_SYSTEM_BY_TYPE`. -/
def SourceType.sourceSystem : SourceType → Str
  | .adguardYaml | .adguardApi => "adguard".toList
  | .pihole => "pihole".toList
  | .alderpointdnsJson => "import".toList

/-- `source_label`. -/
def SourceType.sourceLabel : SourceType → Str
  | .adguardYaml | .adguardApi => "AdGuard Home".toList
  | .pihole => "Pi-hole".toList
  | .alderpointdnsJson => "import".toList

/-- An entry of `"custom_rules"`. -/
structure RawRule where
  rule : Str := []
  text : Str := []
  plainDomainSubdomains : Bool := true
  comment : Str := []

/-- The translation that is stored in the job. -/
structure Translation where
  customRules : List RawRule := []
  customAllow : List Str := []
  customBlock : List Str := []
  blocklistSources : List SourceEntry := []
  rewritesAsLocalDns : List RecordEntry := []
  upstreamResolvers : List ResolverEntry := []
  clientsAsAliases : List AliasEntry := []
  clientsFull : List FullClientEntry := []
  accessAllowed : List AccessEntry := []
  accessDenied : List AccessEntry := []
  /-- `none` unless it is one of the two policies -/
  accessDefaultPolicy : Option AllowDeny := none

/-- The entries of one of the legacy lists. -/
def domainEntries (pre : Str) (domains : List Str) : List CustomRuleEntry :=
  domains.filterMap fun domain =>
    let name := stripBy (· = '.') (strip domain)
    if name = [] then none else some ⟨pre ++ name ++ ['^'], true, []⟩

/-- `_rule_entries`. -/
def Translation.ruleEntries (tr : Translation) : List CustomRuleEntry :=
  (tr.customRules.filterMap fun raw =>
    let rule := strip (orComment raw.rule raw.text)
    if rule = [] then none else some ⟨rule, raw.plainDomainSubdomains, raw.comment⟩)
  ++ domainEntries "@@||".toList tr.customAllow ++ domainEntries "||".toList tr.customBlock

/-- The first component of `item["apply"]`. -/
inductive ItemKind where
  | source
  | rule
  | localDns
  | upstream
  | clientAlias
  | client
  | accessAllow
  | accessDeny

/-- The item that `item["apply"]` names; `none` is an `IndexError`. -/
def Translation.item (tr : Translation) (kind : ItemKind) (index : ℕ) : Option Item :=
  match kind with
  | .source => tr.blocklistSources[index]?.map .source
  | .rule => tr.ruleEntries[index]?.map .rule
  | .localDns => tr.rewritesAsLocalDns[index]?.map .localDns
  | .upstream => tr.upstreamResolvers[index]?.map .upstream
  | .clientAlias => tr.clientsAsAliases[index]?.map .clientAlias
  | .client => tr.clientsFull[index]?.map .client
  | .accessAllow => tr.accessAllowed[index]?.map (.access .allow)
  | .accessDeny => tr.accessDenied[index]?.map (.access .deny)

/-- An item of the plan. -/
structure PlanItem where
  key : Str
  selected : Bool := true
  apply : Option (ItemKind × ℕ)

/-- What `build_migration_plan` returns. -/
structure MigrationPlan where
  domain : Str
  items : List PlanItem

/-- A migration job, and the selection it is applied with. -/
structure MigrationJob where
  sourceType : SourceType
  translation : Translation
  /-- `none` when there is no such job, or the translation cannot be planned -/
  plan : Option MigrationPlan
  /-- `none` for the items that are selected by default -/
  selected : Option (List Str)

/-- `selected_keys`. -/
def MigrationJob.selectedKeys (job : MigrationJob) (plan : MigrationPlan) : List Str :=
  job.selected.getD ((plan.items.filter (·.selected)).map (·.key))

/-- The items that are applied, in the order of the plan. -/
def MigrationJob.chosen (job : MigrationJob) (plan : MigrationPlan) : List (Option Item) :=
  (plan.items.filter fun item => (job.selectedKeys plan).contains item.key).filterMap
    fun item => item.apply.map fun p => job.translation.item p.1 p.2

/-- `status` of a job. -/
inductive JobStatus where
  | uploaded
  | previewed
  | failed
  | applied
  | deployFailed
  | rolledBack
  | canceled
  deriving DecidableEq

/-- The call goes on with a job in this status. -/
def JobStatus.mayApply : JobStatus → Bool
  | .applied | .rolledBack | .canceled => false
  | _ => true

/-- What the database contains. -/
structure ImportState where
  tables : Destination
  /-- the rows of `custom_rules` that are not marked as migrated -/
  legacy : List LegacyRow
  status : JobStatus

/-- What the call takes from the machine. -/
structure ImportHost where
  data : ImportData
  now : Str
  /-- the port of the forwarders in `named.conf.options` -/
  port : ℕ
  /-- what `_normalize_host` makes of each of them -/
  forwarders : List (Option String)

/-! ## The setup -/

/-- One round of `seed_from_named_options`. -/
def seedForwarder (host : ImportHost) (t : Upstream.ResolverTable) (server : Option String × ℕ) :
    Upstream.ResolverTable :=
  match server.1 with
  | none => t
  | some address =>
      addResolver t
        { name := "Imported upstream " ++ toString (server.2 + 1)
          protocol := .plain
          address := address
          port := host.port
          dohPath := ""
          tlsHostname := ""
          bootstrapIps := "" }
        true (server.2 + 1)

/-- `upstream_dns.init_db`: an empty table gets the forwarders of BIND. -/
def initUpstreams (host : ImportHost) (t : Upstream.ResolverTable) : Upstream.ResolverTable :=
  if t.rows = [] then host.forwarders.zipIdx.foldl (seedForwarder host) t else t

/-- One round of `_migrate_client_aliases`. -/
def migrateClientAlias (u : UnicodeData) (t : AddedTables) (row : AliasRow) : AddedTables :=
  match normalizeIdentifier u row.cidr with
  | none => t
  | some (kind, value) =>
      if hasIdentifier t.identifiers kind value then t
      else
        -- new ids and a new identifier: neither insertion violates a constraint
        { t with
          clients := (addClient t.clients (orComment row.displayName value) row.description
            true).getD t.clients
          identifiers := (addIdentifier (nextRowid (t.clients.1.map (·.id))) t.identifiers kind
            value).getD t.identifiers }

/-- Rounds of `_migrate_client_aliases`. -/
def Destination.migrateAliases (host : ImportHost) (rows : List AliasRow) (t : Destination) :
    Destination :=
  { t with
    toAddedTables := rows.foldl (migrateClientAlias host.data.toUnicodeData) t.toAddedTables }

/-- What `upstream_dns.init_db` and `custom_rules.init_db` write, and `clients.init_db` commits. -/
def Destination.seed (host : ImportHost) (legacy : List LegacyRow) (t : Destination) :
    Destination :=
  { t with
    upstreams := initUpstreams host t.upstreams
    customRules := migrateLegacyRules host.now legacy t.customRules }

/-- Where the setup raises. -/
inductive SetupStage where
  /-- before `clients.init_db` commits what the others wrote -/
  | schema
  /-- in `clients.init_db`, before the migrated aliases are committed -/
  | clients
  /-- at the `SELECT` of the default policy or the `commit` after it -/
  | policy
  deriving DecidableEq

/-- What is committed when the setup raises at a stage; `policy` is all of it. -/
def ImportState.setup (host : ImportHost) (s : ImportState) : SetupStage → ImportState
  | .schema => s
  | .clients => { s with tables := s.tables.seed host s.legacy, legacy := [] }
  | .policy =>
      { s with
        tables := (s.tables.seed host s.legacy).migrateAliases host s.tables.aliases.1
        legacy := [] }

/-! ## What the setup changes -/

theorem grows_seedForwarder (host : ImportHost) :
    Grows (seedForwarder host) (·.rows.length) (fun _ server => server.1 = none) where
  same t server h := by rw [seedForwarder, h]
  larger t server h := by
    obtain ⟨address, haddress⟩ := Option.ne_none_iff_exists'.mp h
    rw [seedForwarder, haddress]
    simp only [addResolver, List.length_append, List.length_singleton]
    exact Nat.lt_succ_self _

/-- The alias is migrated already, or cannot be. -/
def AliasMigrated (u : UnicodeData) (t : AddedTables) (row : AliasRow) : Prop :=
  ∀ kind value, normalizeIdentifier u row.cidr = some (kind, value) →
    hasIdentifier t.identifiers kind value = true

/-- An alias that is still to be migrated names a new identifier. -/
theorem not_aliasMigrated {u : UnicodeData} {t : AddedTables} {row : AliasRow}
    (h : ¬AliasMigrated u t row) : ∃ kind value,
      normalizeIdentifier u row.cidr = some (kind, value) ∧
        ¬hasIdentifier t.identifiers kind value = true := by
  unfold AliasMigrated at h
  push Not at h
  exact h

/-- A client is inserted under a new id. -/
theorem addClient_rows (rows : ClientRows) (name description : Str) (enabled : Bool) :
    ((addClient rows name description enabled).getD rows).1
      = rows.1 ++ [⟨nextRowid (rows.1.map (·.id)), name, description, enabled⟩] := by
  have hfree : ¬rows.1.any (clientConflict · ⟨nextRowid (rows.1.map (·.id)), name, description,
      enabled⟩) = true := by
    rw [List.any_eq_true]
    rintro ⟨row, hrow, hconflict⟩
    have hid : row.id < nextRowid (rows.1.map (·.id)) := lt_nextRowid (List.mem_map_of_mem hrow)
    simp [clientConflict, hid] at hconflict
  rw [addClient, LegalRows.insert, dif_neg hfree, Option.getD_some]

theorem addClient_length (rows : ClientRows) (name description : Str) (enabled : Bool) :
    ((addClient rows name description enabled).getD rows).1.length = rows.1.length + 1 := by
  rw [addClient_rows, List.length_append, List.length_singleton]

theorem addIdentifier_length (clientId : ℕ) (rows : IdentifierRows) (kind : IdentifierKind)
    (value : Str) :
    rows.1.length ≤ ((addIdentifier clientId rows kind value).getD rows).1.length := by
  cases h : addIdentifier clientId rows kind value with
  | none => exact le_rfl
  | some rows' =>
      rw [Option.getD_some, LegalRows.insert_eq_some h, List.length_append]
      exact Nat.le_add_right _ _

theorem grows_migrateClientAlias (u : UnicodeData) :
    Grows (migrateClientAlias u) AddedTables.size (AliasMigrated u) where
  same t row h := by
    rw [migrateClientAlias]
    cases hid : normalizeIdentifier u row.cidr with
    | none => rfl
    | some id => exact if_pos (h _ _ hid)
  larger t row h := by
    obtain ⟨kind, value, hid, hnew⟩ := not_aliasMigrated h
    have hclients := addClient_length t.clients (orComment row.displayName value)
      row.description true
    have hidentifiers := addIdentifier_length (nextRowid (t.clients.1.map (·.id)))
      t.identifiers kind value
    rw [migrateClientAlias, hid]
    dsimp only
    rw [if_neg hnew]
    simp only [AddedTables.size]
    omega

section Setup

variable (host : ImportHost) (s : ImportState)

/-- The first two steps of the setup have nothing to add. -/
structure SeedIdle : Prop where
  upstreams : s.tables.upstreams.rows = [] → ∀ server ∈ host.forwarders, server = none
  rules : ∀ legacy ∈ s.legacy, legacy.represented s.tables.customRules = true

/-- The setup has nothing to add. -/
structure SetupIdle : Prop extends SeedIdle host s where
  aliases : ∀ row ∈ s.tables.aliases.1,
    AliasMigrated host.data.toUnicodeData s.tables.toAddedTables row

theorem initUpstreams_spec (t : Upstream.ResolverTable) :
    ((t.rows = [] → ∀ server ∈ host.forwarders, server = none) → initUpstreams host t = t) ∧
    ((¬(t.rows = [] → ∀ server ∈ host.forwarders, server = none)) →
      t.rows.length < (initUpstreams host t).rows.length) := by
  unfold initUpstreams
  have hmem : (∀ server ∈ host.forwarders.zipIdx, server.1 = none) ↔
      ∀ server ∈ host.forwarders, server = none := by
    conv_rhs => rw [← List.zipIdx_map_fst 0 host.forwarders]
    rw [List.forall_mem_map]
  split_ifs with hempty
  · refine ⟨fun h => (grows_seedForwarder host).foldl_same (hmem.mpr (h hempty)), fun h => ?_⟩
    exact (grows_seedForwarder host).foldl_larger fun hall => h fun _ => hmem.mp hall
  · exact ⟨fun _ => rfl, fun h => absurd (fun hc => absurd hc hempty) h⟩

theorem seed_spec : (SeedIdle host s → s.tables.seed host s.legacy = s.tables) ∧
    (¬SeedIdle host s → s.tables.size < (s.tables.seed host s.legacy).size) := by
  obtain ⟨hsame, hlarger⟩ := initUpstreams_spec host s.tables.upstreams
  have hrules := grows_migrateLegacyRule host.now
  have hle : s.tables.customRules.length
      ≤ (migrateLegacyRules host.now s.legacy s.tables.customRules).length :=
    hrules.size_le_foldl s.legacy s.tables.customRules
  have hle' : s.tables.upstreams.rows.length
      ≤ (initUpstreams host s.tables.upstreams).rows.length := by
    by_cases hidle : s.tables.upstreams.rows = [] → ∀ server ∈ host.forwarders, server = none
    · rw [hsame hidle]
    · exact (hlarger hidle).le
  constructor
  · intro h
    have hsame' : migrateLegacyRules host.now s.legacy s.tables.customRules
        = s.tables.customRules := hrules.foldl_same h.rules
    rw [Destination.seed, hsame h.upstreams, hsame']
  · intro h
    simp only [Destination.seed, AddedTables.size]
    by_cases hidle : s.tables.upstreams.rows = [] → ∀ server ∈ host.forwarders, server = none
    · have hlt : s.tables.customRules.length
          < (migrateLegacyRules host.now s.legacy s.tables.customRules).length :=
        hrules.foldl_larger fun hall => h ⟨hidle, hall⟩
      omega
    · have hlt := hlarger hidle
      omega

theorem size_le_migrateAliases (rows : List AliasRow) (t : Destination) :
    t.size ≤ (t.migrateAliases host rows).size :=
  (grows_migrateClientAlias host.data.toUnicodeData).size_le_foldl rows t.toAddedTables

/-- A setup with something to add makes the tables larger. -/
theorem setup_larger (h : ¬SetupIdle host s) :
    s.tables.size < (s.setup host .policy).tables.size := by
  obtain ⟨hsame, hlarger⟩ := seed_spec host s
  by_cases hidle : SeedIdle host s
  · rw [ImportState.setup, hsame hidle]
    exact (grows_migrateClientAlias host.data.toUnicodeData).foldl_larger
      fun haliases => h ⟨hidle, haliases⟩
  · exact (hlarger hidle).trans_le (size_le_migrateAliases host _ _)

/-- **When the setup changes no row.** -/
theorem setup_eq_iff :
    ((s.setup host .clients).tables = s.tables ↔ SeedIdle host s) ∧
    ((s.setup host .policy).tables = s.tables ↔ SetupIdle host s) := by
  obtain ⟨hsame, hlarger⟩ := seed_spec host s
  constructor
  · refine ⟨fun h => ?_, hsame⟩
    by_contra hidle
    exact (hlarger hidle).ne' (congrArg (fun t : Destination => t.size) h)
  · refine ⟨fun h => ?_, fun h => ?_⟩
    · by_contra hidle
      exact (setup_larger host s hidle).ne' (congrArg (fun t : Destination => t.size) h)
    · rw [ImportState.setup, hsame h.toSeedIdle]
      exact congrArg (fun added => { s.tables with toAddedTables := added })
        ((grows_migrateClientAlias host.data.toUnicodeData).foldl_same h.aliases)

end Setup

/-! ## The transaction -/

/-- Where SQLite and the commands raise. -/
structure Faults where
  /-- the backup before the import -/
  backup : Bool := false
  setup : Option SetupStage := none
  /-- a statement for the item with this number among the selected ones -/
  item : ℕ → Bool := fun _ => false
  /-- the update of the default policy, or the commit -/
  transaction : Bool := false
  /-- the deployment of the access layer, and the rounds of `_migrate_client_aliases` that are
  committed nevertheless -/
  deploy : Option ℕ := none
  /-- the update of the job to `failed` -/
  mark : Bool := false
  /-- the report on the applied job -/
  report : Bool := false

/-- What the items of a job share. -/
def MigrationJob.context (host : ImportHost) (job : MigrationJob) (plan : MigrationPlan) :
    ImportContext where
  data := host.data
  sourceSystem := job.sourceType.sourceSystem
  sourceLabel := job.sourceType.sourceLabel
  domain := plan.domain
  now := host.now

/-- One item of the transaction. -/
def applyRound (ctx : ImportContext) (faults : Faults) (progress : Progress)
    (item : Option Item × ℕ) : Option Progress :=
  if faults.item item.2 then none
  else item.1.bind (applyItem ctx progress.1 progress.2)

/-- The tables when the loop over the items begins. -/
def Destination.setPolicy (policy : Option AllowDeny) (t : Destination) : Progress :=
  ({ t with defaultPolicy := policy.getD t.defaultPolicy }, policy.any (· ≠ t.defaultPolicy))

/-- The body of `with conn:`; `none` is an exception, after which nothing of it is left. -/
def transaction (ctx : ImportContext) (faults : Faults) (policy : Option AllowDeny)
    (items : List (Option Item)) (t : Destination) : Option Progress :=
  if faults.transaction then none
  else items.zipIdx.foldlM (applyRound ctx faults) (t.setPolicy policy)

/-- The items write nothing: those that add rows find them, and the last update of each source and
each alias writes what the row holds. -/
structure NothingToWrite (ctx : ImportContext) (policy : Option AllowDeny) (items : List Item)
    (t : Destination) : Prop where
  policy : ∀ p, policy = some p → p = t.defaultPolicy
  skipped : ∀ item ∈ items, item.Skipped ctx t.toAddedTables
  sources : sourceWriter.Settled t.sources.1 (sourceEntries items)
  aliases : aliasWriter.Settled t.aliases.1 (aliasUpdates ctx items)

section Transaction

variable {ctx : ImportContext} {faults : Faults} {policy : Option AllowDeny}
  {items : List (Option Item)} {t : Destination} {r : Progress}

theorem applied_foldlM {n : ℕ} {progress : Progress}
    (h : (items.zipIdx n).foldlM (applyRound ctx faults) progress = some r) :
    Applied ctx items.reduceOption progress.1 progress.2 r := by
  induction items generalizing n progress with
  | nil =>
      cases h
      exact Applied.nil ctx r.1 r.2
  | cons item items ih =>
      rw [List.zipIdx_cons, List.foldlM_cons, Option.bind_eq_bind, Option.bind_eq_some_iff] at h
      obtain ⟨progress₁, h₁, h⟩ := h
      unfold applyRound at h₁
      split_ifs at h₁ with hfault
      obtain ⟨item, rfl, h₁⟩ := Option.bind_eq_some_iff.mp h₁
      rw [List.reduceOption_cons_of_some]
      exact (applyItem_spec h₁).append (ih h)

theorem applied_transaction (h : transaction ctx faults policy items t = some r) :
    Applied ctx items.reduceOption (t.setPolicy policy).1 (t.setPolicy policy).2 r := by
  unfold transaction at h
  split_ifs at h with hfault
  exact applied_foldlM h

/-- **When a committed transaction writes nothing.** -/
theorem transaction_eq_iff (h : transaction ctx faults policy items t = some r) :
    r.1 = t ↔ NothingToWrite ctx policy items.reduceOption t := by
  have happlied := applied_transaction h
  constructor
  · rintro rfl
    refine ⟨?_, ?_, ?_, ?_⟩
    · rintro p rfl
      exact happlied.policy.symm
    · by_contra hnew
      exact lt_irrefl _ (happlied.larger hnew)
    · exact (sourceWriter.foldl_upsert_eq_iff _ _).mp happlied.sources.symm
    · exact (aliasWriter.foldl_upsert_eq_iff _ _).mp happlied.aliases.symm
  · intro hnothing
    have hadded := (happlied.same hnothing.skipped).1
    have hsources := happlied.sources.trans
      ((sourceWriter.foldl_upsert_eq_iff _ _).mpr hnothing.sources)
    have haliases := happlied.aliases.trans
      ((aliasWriter.foldl_upsert_eq_iff _ _).mpr hnothing.aliases)
    have hpolicy : r.1.defaultPolicy = t.defaultPolicy := by
      rw [happlied.policy]
      cases policy with
      | none => rfl
      | some p => exact hnothing.policy p rfl
    rcases r with ⟨⟨added, sources, aliases, policy'⟩, touched⟩
    cases t
    cases hadded
    cases hsources
    cases haliases
    cases hpolicy
    rfl

/-- The access layer is touched only by a write. -/
theorem touched_changes (h : transaction ctx faults policy items t = some r)
    (htouched : r.2 = true) : r.1.defaultPolicy ≠ t.defaultPolicy ∨ t.size < r.1.size := by
  have happlied := applied_transaction h
  by_cases hskipped : ∀ item ∈ items.reduceOption, item.Skipped ctx t.toAddedTables
  · left
    have hpolicy : policy.any (· ≠ t.defaultPolicy) = true :=
      (happlied.same hskipped).2.symm.trans htouched
    obtain ⟨p, rfl, hne⟩ := Option.any_eq_true _ _ |>.mp hpolicy
    rw [happlied.policy]
    exact of_decide_eq_true hne
  · exact Or.inr (happlied.larger hskipped)

theorem size_le_transaction (h : transaction ctx faults policy items t = some r) :
    t.size ≤ r.1.size := (applied_transaction h).size_le

end Transaction

/-! ## The call -/

/-- Where a call raises. -/
inductive RaisePoint where
  /-- the job, its status or its translation -/
  | check
  | backup
  | setup (stage : SetupStage)
  | transaction
  /-- `clients.deploy_access_layer` -/
  | deployment
  | report
  deriving DecidableEq

/-- What the handler of the exceptions writes. -/
def ImportState.markFailed (faults : Faults) (s : ImportState) : ImportState :=
  if faults.mark then s else { s with status := .failed }

/-- The report on an applied job. -/
def ImportState.markApplied (faults : Faults) (s : ImportState) :
    Option RaisePoint × ImportState :=
  if faults.report then (some .report, s) else (none, { s with status := .applied })

/-- The part of the call after the setup. -/
def applyItems (host : ImportHost) (faults : Faults) (job : MigrationJob) (plan : MigrationPlan)
    (s : ImportState) : Option RaisePoint × ImportState :=
  match transaction (job.context host plan) faults job.translation.accessDefaultPolicy
      (job.chosen plan) s.tables with
  | none => (some .transaction, s.markFailed faults)
  | some (tables, touched) =>
      if touched then
        -- `deploy_access_layer` begins with `init_db`
        match faults.deploy with
        | some rounds =>
            (some .deployment, ImportState.markFailed faults
              { s with tables := tables.migrateAliases host (tables.aliases.1.take rounds) })
        | none => ImportState.markApplied faults
            { s with tables := tables.migrateAliases host tables.aliases.1 }
      else ImportState.markApplied faults { s with tables := tables }

/-- `apply_migration_job`: where it raises, and what it leaves. -/
def applyMigrationJob (host : ImportHost) (faults : Faults) (job : MigrationJob)
    (s : ImportState) : Option RaisePoint × ImportState :=
  match job.plan with
  | none => (some .check, s)
  | some plan =>
      if !s.status.mayApply then (some .check, s)
      else if faults.backup then (some .backup, s)
      else match faults.setup with
        | some stage => (some (.setup stage), s.setup host stage)
        | none => applyItems host faults job plan (s.setup host .policy)

/-- The tables are what they were when the call has raised at the point. -/
def TablesKept (host : ImportHost) (job : MigrationJob) (s : ImportState) : RaisePoint → Prop
  | .check | .backup | .setup .schema => True
  | .setup .clients => SeedIdle host s
  | .setup .policy | .transaction => SetupIdle host s
  | .deployment => False
  | .report => SetupIdle host s ∧ ∀ plan, job.plan = some plan →
      NothingToWrite (job.context host plan) job.translation.accessDefaultPolicy
        (job.chosen plan).reduceOption s.tables

section Call

variable {host : ImportHost} {faults : Faults} {job : MigrationJob} {s s' : ImportState}
  {p : RaisePoint}

@[simp] theorem markFailed_tables : (s.markFailed faults).tables = s.tables := by
  unfold ImportState.markFailed
  split_ifs <;> rfl

@[simp] theorem markFailed_legacy : (s.markFailed faults).legacy = s.legacy := by
  unfold ImportState.markFailed
  split_ifs <;> rfl

theorem markFailed_mayApply (h : s.status.mayApply = true) :
    (s.markFailed faults).status.mayApply = true := by
  unfold ImportState.markFailed
  split_ifs
  · exact h
  · rfl

@[simp] theorem markApplied_tables : (s.markApplied faults).2.tables = s.tables := by
  unfold ImportState.markApplied
  split_ifs <;> rfl

theorem markApplied_raised (h : (s.markApplied faults).1 = some p) :
    s.markApplied faults = (some .report, s) ∧ p = .report := by
  unfold ImportState.markApplied at h ⊢
  split_ifs at h ⊢
  cases h
  exact ⟨rfl, rfl⟩

variable (host faults job s) in
/-- The call raises at a point and leaves a state. -/
inductive Raises : RaisePoint → ImportState → Prop where
  | check : Raises .check s
  | backup : Raises .backup s
  | setup (stage : SetupStage) : s.status.mayApply = true →
      Raises (.setup stage) (s.setup host stage)
  | transaction : s.status.mayApply = true →
      Raises .transaction ((s.setup host .policy).markFailed faults)
  | deployment (plan : MigrationPlan) (tables : Destination) (rows : List AliasRow) :
      s.status.mayApply = true →
      Importer.transaction (job.context host plan) faults job.translation.accessDefaultPolicy
        (job.chosen plan) (s.setup host .policy).tables = some (tables, true) →
      Raises .deployment (ImportState.markFailed faults
        { s.setup host .policy with tables := tables.migrateAliases host rows })
  | report (plan : MigrationPlan) (tables : Destination) (touched : Bool) (rows : List AliasRow) :
      s.status.mayApply = true → job.plan = some plan →
      Importer.transaction (job.context host plan) faults job.translation.accessDefaultPolicy
        (job.chosen plan) (s.setup host .policy).tables = some (tables, touched) →
      (touched = false → rows = []) →
      Raises .report { s.setup host .policy with tables := tables.migrateAliases host rows }

/-- **How a call raises.** -/
theorem raises_of_eq (h : (applyMigrationJob host faults job s).1 = some p) :
    Raises host faults job s p (applyMigrationJob host faults job s).2 := by
  unfold applyMigrationJob at h ⊢
  cases hplan : job.plan with
  | none =>
      rw [hplan] at h
      cases h
      exact .check
  | some plan =>
      rw [hplan] at h
      dsimp only at h ⊢
      split_ifs at h ⊢ with hstatus hbackup
      · cases h
        exact .check
      · cases h
        exact .backup
      · have hmay : s.status.mayApply = true := by simpa using hstatus
        cases hsetup : faults.setup with
        | some stage =>
            rw [hsetup] at h
            cases h
            exact .setup stage hmay
        | none =>
            rw [hsetup] at h
            unfold applyItems at h ⊢
            cases htransaction : transaction (job.context host plan) faults
                job.translation.accessDefaultPolicy (job.chosen plan)
                (s.setup host .policy).tables with
            | none =>
                rw [htransaction] at h
                cases h
                exact .transaction hmay
            | some r =>
                obtain ⟨tables, touched⟩ := r
                rw [htransaction] at h
                dsimp only at h ⊢
                split_ifs at h ⊢ with htouched
                · cases htouched
                  cases hdeploy : faults.deploy with
                  | some rounds =>
                      rw [hdeploy] at h
                      cases h
                      exact .deployment plan tables _ hmay htransaction
                  | none =>
                      rw [hdeploy] at h
                      obtain ⟨heq, rfl⟩ := markApplied_raised h
                      dsimp only
                      rw [heq]
                      exact .report plan tables true _ hmay hplan htransaction nofun
                · obtain ⟨heq, rfl⟩ := markApplied_raised h
                  rw [heq]
                  exact .report plan tables touched [] hmay hplan htransaction fun _ => rfl

/-- Once the access layer is touched, the tables are not what they were. -/
theorem ne_of_touched {ctx : ImportContext} {policy : Option AllowDeny}
    {items : List (Option Item)} {tables : Destination} (rows : List AliasRow)
    (h : transaction ctx faults policy items (s.setup host .policy).tables = some (tables, true)) :
    tables.migrateAliases host rows ≠ s.tables := by
  intro heq
  have hsize : (tables.migrateAliases host rows).size = s.tables.size :=
    congrArg (fun t : Destination => t.size) heq
  have hle := (size_le_transaction h).trans (size_le_migrateAliases host rows tables)
  have hidle : SetupIdle host s := by
    by_contra hidle
    exact absurd hsize ((setup_larger host s hidle).trans_le hle).ne'
  rw [((setup_eq_iff host s).2).mpr hidle] at h
  rcases touched_changes h rfl with hpolicy | hlarger
  · exact hpolicy (congrArg Destination.defaultPolicy heq :)
  · exact absurd hsize (hlarger.trans_le (size_le_migrateAliases host rows tables)).ne'

/-- A transaction from the tables after the setup ends with the tables before it just when neither
has anything to write. -/
theorem transaction_setup_eq_iff {ctx : ImportContext} {policy : Option AllowDeny}
    {items : List (Option Item)} {r : Progress}
    (h : transaction ctx faults policy items (s.setup host .policy).tables = some r) :
    r.1 = s.tables ↔ SetupIdle host s ∧ NothingToWrite ctx policy items.reduceOption s.tables := by
  by_cases hidle : SetupIdle host s
  · rw [((setup_eq_iff host s).2).mpr hidle] at h
    rw [transaction_eq_iff h, and_iff_right hidle]
  · have hlarger := (setup_larger host s hidle).trans_le (size_le_transaction h)
    exact iff_of_false (fun heq => hlarger.ne' (congrArg (fun t : Destination => t.size) heq))
      fun hc => hidle hc.1

theorem Raises.kept_iff (h : Raises host faults job s p s') :
    s'.tables = s.tables ↔ TablesKept host job s p := by
  cases h with
  | check | backup => exact iff_of_true rfl trivial
  | setup stage _ =>
      cases stage with
      | schema => exact iff_of_true rfl trivial
      | clients => exact (setup_eq_iff host s).1
      | policy => exact (setup_eq_iff host s).2
  | transaction _ =>
      rw [markFailed_tables]
      exact (setup_eq_iff host s).2
  | deployment plan tables rows _ htransaction =>
      rw [markFailed_tables]
      exact iff_of_false (ne_of_touched rows htransaction) id
  | report plan tables touched rows _ hplan htransaction huntouched =>
      have hkept := transaction_setup_eq_iff htransaction
      have hplans : TablesKept host job s .report ↔ SetupIdle host s ∧
          NothingToWrite (job.context host plan) job.translation.accessDefaultPolicy
            (job.chosen plan).reduceOption s.tables := by
        refine and_congr_right fun _ => ⟨fun hall => hall plan hplan, ?_⟩
        intro hnothing plan' hplan'
        cases hplan.symm.trans hplan'
        exact hnothing
      rw [hplans, ← hkept]
      cases touched with
      | true =>
          refine iff_of_false (ne_of_touched rows htransaction) ?_
          exact ne_of_touched [] htransaction
      | false =>
          rw [huntouched rfl]
          rfl

/-! ## The retry -/

/-- Two states from which every call does the same to the tables. -/
structure SameStart (s s' : ImportState) : Prop where
  tables : s'.tables = s.tables
  mayApply : s'.status.mayApply = s.status.mayApply
  legacy : s'.legacy = s.legacy ∨
    s'.legacy = [] ∧ ∀ legacy ∈ s.legacy, legacy.represented s.tables.customRules = true

theorem SameStart.seed (h : SameStart s s') (host : ImportHost) :
    s'.tables.seed host s'.legacy = s.tables.seed host s.legacy := by
  rcases h.legacy with hlegacy | ⟨hlegacy, hrules⟩
  · rw [h.tables, hlegacy]
  · have hsame : migrateLegacyRules host.now s.legacy s.tables.customRules
        = s.tables.customRules := (grows_migrateLegacyRule host.now).foldl_same hrules
    rw [h.tables, hlegacy, Destination.seed, Destination.seed, hsame]
    rfl

theorem SameStart.setup (h : SameStart s s') (host : ImportHost) (stage : SetupStage) :
    (s'.setup host stage).tables = (s.setup host stage).tables := by
  cases stage with
  | schema => exact h.tables
  | clients => exact h.seed host
  | policy => rw [ImportState.setup, ImportState.setup, h.seed host, h.tables]

theorem applyItems_tables {plan : MigrationPlan} (h : s'.tables = s.tables) :
    (applyItems host faults job plan s').2.tables
      = (applyItems host faults job plan s).2.tables := by
  unfold applyItems
  rw [h]
  cases transaction (job.context host plan) faults job.translation.accessDefaultPolicy
      (job.chosen plan) s.tables with
  | none => simp only [markFailed_tables, h]
  | some r =>
      dsimp only
      split_ifs
      · cases faults.deploy with
        | some rounds => simp only [markFailed_tables]
        | none => simp only [markApplied_tables]
      · simp only [markApplied_tables]

theorem SameStart.apply (h : SameStart s s') (host : ImportHost) (faults : Faults)
    (job : MigrationJob) : (applyMigrationJob host faults job s').2.tables
      = (applyMigrationJob host faults job s).2.tables := by
  unfold applyMigrationJob
  cases job.plan with
  | none => exact h.tables
  | some plan =>
      dsimp only
      rw [h.mayApply]
      split_ifs
      · exact h.tables
      · exact h.tables
      · cases faults.setup with
        | some stage => exact h.setup host stage
        | none => exact applyItems_tables (h.setup host .policy)

/-- A call that has left the tables alone can be repeated. -/
theorem Raises.sameStart (h : Raises host faults job s p s') (hkept : TablesKept host job s p) :
    SameStart s s' := by
  have htables := h.kept_iff.mpr hkept
  cases h with
  | check | backup => exact ⟨rfl, rfl, Or.inl rfl⟩
  | setup stage hmay =>
      cases stage with
      | schema => exact ⟨rfl, rfl, Or.inl rfl⟩
      | clients => exact ⟨htables, rfl, Or.inr ⟨rfl, hkept.rules⟩⟩
      | policy => exact ⟨htables, rfl, Or.inr ⟨rfl, hkept.rules⟩⟩
  | transaction hmay =>
      exact ⟨htables, (markFailed_mayApply (s := s.setup host .policy) hmay).trans hmay.symm,
        Or.inr ⟨markFailed_legacy, hkept.rules⟩⟩
  | deployment => exact hkept.elim
  | report => exact ⟨htables, rfl, Or.inr ⟨rfl, hkept.1.rules⟩⟩

end Call

/-- **A call that raises has left every destination table as it was just when it raised before the
commit, with nothing for the setup to add, or at the report on an import that wrote nothing; every
later call then does what it would have done without it.** -/
theorem tablesKept_iff {host : ImportHost} {faults : Faults} {job : MigrationJob}
    {s : ImportState} {p : RaisePoint} (h : (applyMigrationJob host faults job s).1 = some p) :
    ((applyMigrationJob host faults job s).2.tables = s.tables ↔ TablesKept host job s p) ∧
    (TablesKept host job s p → ∀ host' faults' job',
      (applyMigrationJob host' faults' job' (applyMigrationJob host faults job s).2).2.tables
        = (applyMigrationJob host' faults' job' s).2.tables) := by
  have hraises := raises_of_eq h
  exact ⟨hraises.kept_iff, fun hkept host' faults' job' =>
    (hraises.sameStart hkept).apply host' faults' job'⟩

/-! ### A client that is created twice

One client with a ClientID, whose deployment dnsdist rejects.  The job is marked as failed with
the client committed, and a retry is let through. -/

def asciiHost : ImportHost where
  data := { asciiParserData with isPrivate := fun _ => true }
  now := "2026-01-01T00:00:00+00:00".toList
  port := 53
  forwarders := []

def laptop : FullClientEntry where
  name := "laptop".toList
  identifiers := [⟨"clientid".toList, List.replicate 48 'a'⟩]

def laptopJob : MigrationJob where
  sourceType := .adguardYaml
  translation := { clientsFull := [laptop] }
  plan := some
    { domain := "home.arpa".toList
      items := [{ key := "clients_access:0".toList, apply := some (.client, 0) }] }
  selected := none

def emptyState : ImportState where
  tables :=
    { customRules := []
      localDns := LegalRows.empty
      upstreams := ⟨[], List.nodup_nil⟩
      clients := LegalRows.empty
      identifiers := LegalRows.empty
      accessRules := LegalRows.empty
      sources := LegalRows.empty
      aliases := LegalRows.empty
      defaultPolicy := .allow }
  legacy := []
  status := .previewed

/-- A transaction that fails, and a deployment that fails. -/
theorem tablesKept_iff_laptop :
    (applyMigrationJob asciiHost { transaction := true } laptopJob emptyState).2.tables
      = emptyState.tables ∧
    (applyMigrationJob asciiHost { deploy := some 0 } laptopJob emptyState).2.tables
      ≠ emptyState.tables := by
  constructor
  · refine (tablesKept_iff (p := .transaction) rfl).1.mpr ⟨⟨?_, ?_⟩, ?_⟩
    · exact fun _ _ hserver => nomatch hserver
    · exact fun _ hlegacy => nomatch hlegacy
    · exact fun _ hrow => nomatch hrow
  · exact (tablesKept_iff (p := .deployment) (by decide +kernel)).1.not.mpr id

theorem created_twice : ∃ (host : ImportHost) (faults : Faults) (job : MigrationJob)
    (s : ImportState), (applyMigrationJob host faults job s).1 = some .deployment ∧
      (applyMigrationJob host faults job s).2.tables ≠ s.tables ∧
      (applyMigrationJob host {} job (applyMigrationJob host faults job s).2).1 = none ∧
      (applyMigrationJob host {} job
        (applyMigrationJob host faults job s).2).2.tables.clients.1.map (·.name)
          = ["laptop".toList, "laptop".toList] := by
  refine ⟨asciiHost, { deploy := some 0 }, laptopJob, emptyState, by decide +kernel, ?_,
    by decide +kernel, by decide +kernel⟩
  intro hsame
  have hclients : (applyMigrationJob asciiHost { deploy := some 0 } laptopJob
      emptyState).2.tables.clients.1.length = 1 := by decide +kernel
  rw [hsame] at hclients
  cases hclients

end AlderpointDNS.Importer
