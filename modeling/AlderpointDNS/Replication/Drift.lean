import AlderpointDNS.Replication.Access
import AlderpointDNS.Replication.Legacy
import AlderpointDNS.Replication.Sync

/-!
# Drift detection after a sync

`check_drift` builds the payload of the replica's own tables and compares its hash with the one of
the last applied generation.  It builds it with the default options, hence without encryption
settings and without a certificate.  Between the apply and the check lies the deployment, whose
schema initialisations add missing tables and defaults and migrate the legacy rules.

* `clientsSection_import`, `rulesSection_import` — the client sections of imported tables.
* `deployDatabase` — what a deployment does to the replicated content.
* **`noDrift_iff`** — the generations after whose sync a replica finds no drift.
* `drift_with_encryption` — a primary that includes its encryption settings.

Not modelled: a replica whose schema is older than its program; the web process brings it up to
date when it starts.
-/

namespace AlderpointDNS

open Text

/-! ## The sections of imported client tables -/

/-- Filtering and changing a list leaves it as it is when it does so with each entry. -/
theorem map_filter_eq_self_iff {α : Type} {p : α → Bool} {f : α → α} {l : List α} :
    (l.filter p).map f = l ↔ ∀ a ∈ l, p a = true ∧ f a = a := by
  constructor
  · intro h
    have hlength : (l.filter p).length = l.length := by
      rw [← List.length_map (f := f), h]
    have hfilter : l.filter p = l := List.filter_sublist.eq_of_length hlength
    rw [hfilter] at h
    have hmap : l.map f = l.map id := by rw [h, List.map_id]
    intro a ha
    exact ⟨List.filter_eq_self.mp hfilter a ha, List.map_eq_map_iff.mp hmap a ha⟩
  · intro h
    rw [List.filter_eq_self.mpr fun a ha => (h a ha).1]
    have hmap : l.map f = l.map id := List.map_eq_map_iff.mpr fun a ha => (h a ha).2
    rw [hmap, List.map_id]

/-- What a replica's own section says of an imported client. -/
def importedEntry (e : ClientEntry) : ClientEntry :=
  { e with
    name := strip e.name
    identifiers := e.identifiers.filter (·.value ≠ []) }

/-- A client entry that is imported. -/
def ClientEntry.named (e : ClientEntry) : Bool := strip e.name ≠ []

theorem importClient_descriptions {state state' : ClientImport} {e : ClientEntry}
    (h : importClient state e = some state') :
    state'.clients.1.map (·.description) = state.clients.1.map (·.description) ++
      ([e].filter ClientEntry.named).map (·.description) := by
  unfold importClient at h
  dsimp only at h
  split_ifs at h with hname
  · cases h
    simp [ClientEntry.named, hname]
  · obtain ⟨clients', hclients, rfl⟩ := Option.map_eq_some_iff.mp h
    dsimp only
    rw [LegalRows.insert_eq_some hclients]
    simp [ClientEntry.named, hname]

theorem importClients_descriptions (entries : List ClientEntry) {state state' : ClientImport}
    (h : entries.foldlM importClient state = some state') :
    state'.clients.1.map (·.description)
      = state.clients.1.map (·.description)
        ++ (entries.filter ClientEntry.named).map (·.description) := by
  induction entries generalizing state with
  | nil =>
      cases h
      exact (List.append_nil _).symm
  | cons e entries ih =>
      rw [List.foldlM_cons, Option.bind_eq_bind, Option.bind_eq_some_iff] at h
      obtain ⟨next, hnext, h⟩ := h
      rw [ih h, importClient_descriptions hnext, List.append_assoc, ← List.map_append,
        ← List.filter_append, List.singleton_append]

/-- Entries are determined by kinds and values. -/
theorem entries_of_keys {is js : List Identifier}
    (h : is.map Identifier.key = js.map Identifier.key) :
    is.map Identifier.entry = js.map Identifier.entry := by
  have hentry : Identifier.entry = (fun k : IdentifierKind × Str => ⟨some k.1, k.2⟩)
      ∘ Identifier.key := rfl
  rw [hentry, ← List.map_map, h, List.map_map]

/-- The entry of an imported client. -/
theorem clientEntry_imported {identifiers identifiers' : IdentifierRows} {c c' : Client}
    (h : Imported identifiers identifiers' c c') (hdescription : c'.description = c.description) :
    clientEntry identifiers' c' = importedEntry (clientEntry identifiers c) := by
  have hentries := entries_of_keys h.keys
  have hfilter : ((identifiersOf identifiers c.id).map Identifier.entry).filter (·.value ≠ [])
      = ((identifiersOf identifiers c.id).filter (·.value ≠ [])).map Identifier.entry := by
    rw [List.filter_map]
    rfl
  simp only [clientEntry, importedEntry, h.name, h.enabled, hdescription, hentries, hfilter]

section Imports

variable {clients : ClientRows} {identifiers : IdentifierRows} {state : ClientImport}

/-- **The clients section of imported tables.** -/
theorem clientsSection_import
    (h : importClients (buildClientsSection clients identifiers) = some state) :
    buildClientsSection state.clients state.identifiers
      = ((buildClientsSection clients identifiers).filter ClientEntry.named).map importedEntry := by
  obtain ⟨pairs, hfst, hsnd, himported⟩ := (importClients_build h).aligned
  have hnamed : (buildClientsSection clients identifiers).filter ClientEntry.named
      = (clients.1.filter (·.named)).map (clientEntry identifiers) := by
    show (clients.1.map (clientEntry identifiers)).filter ClientEntry.named = _
    rw [List.filter_map]
    rfl
  have hdescriptions : pairs.map (fun z => z.2.description)
      = pairs.map (fun z => z.1.description) := by
    have hall := importClients_descriptions _ h
    rw [hnamed, ← hfst, ← hsnd] at hall
    simpa [LegalRows.empty, Function.comp_def, clientEntry] using hall
  rw [hnamed, ← hfst]
  show state.clients.1.map (clientEntry state.identifiers) = _
  rw [← hsnd, List.map_map, List.map_map, List.map_map]
  refine List.map_eq_map_iff.mpr fun z hz => ?_
  exact clientEntry_imported (himported z hz) (List.map_eq_map_iff.mp hdescriptions z hz)

/-- An imported client has a name. -/
theorem name_ne_nil_import
    (h : importClients (buildClientsSection clients identifiers) = some state) :
    ∀ c' ∈ state.clients.1, c'.name ≠ [] := by
  obtain ⟨pairs, hfst, hsnd, himported⟩ := (importClients_build h).aligned
  intro c' hc'
  rw [← hsnd] at hc'
  obtain ⟨z, hz, rfl⟩ := List.mem_map.mp hc'
  have hmem : z.1 ∈ clients.1.filter (·.named) := hfst ▸ List.mem_map_of_mem hz
  have hnamed := List.of_mem_filter hmem
  rw [(himported z hz).name]
  simpa [Client.named] using hnamed

/-- `name_to_id` at the name of a rule's client: the client found has this name, and the rule has
a client of this name. -/
theorem ruleClient_import
    (h : importClients (buildClientsSection clients identifiers) = some state) {rule : AccessRule}
    {id : ℕ} (hid : state.nameToId.lookup (ruleName clients rule) = some id) :
    ∃ c', state.clients.1.find? (·.id = id) = some c' ∧
      (ruleClient clients rule).map (·.name) = some c'.name := by
  rw [(importClients_build h).lookup, Option.map_eq_some_iff] at hid
  obtain ⟨c', hlast, rfl⟩ := hid
  have hname : c'.name = ruleName clients rule := by
    simpa using List.find?_some hlast
  have hmem : c' ∈ state.clients.1 := List.mem_reverse.mp (List.mem_of_find?_eq_some hlast)
  refine ⟨c', find?_id hmem, ?_⟩
  have hne := name_ne_nil_import h c' hmem
  rw [hname] at hne ⊢
  unfold ruleName at hne ⊢
  cases hclient : (ruleClient clients rule).map (·.name) with
  | none =>
      rw [hclient] at hne
      exact absurd rfl hne
  | some name => rfl

/-- What a replica's own section says of an imported rule. -/
def importedRuleEntry (e : RuleEntry) : RuleEntry :=
  if e.kind = some .client then e else { e with clientName := none }

/-- A rule entry that is imported. -/
def RuleEntry.kept (nameToId : Dict Str ℕ) (e : RuleEntry) : Bool :=
  e.kind ≠ some .client || (nameToId.lookup (e.clientName.getD [])).isSome

theorem kept_ruleEntry (nameToId : Dict Str ℕ) (clients : ClientRows) (rule : AccessRule) :
    (ruleEntry clients rule).kept nameToId = ruleKept nameToId clients rule := by
  by_cases hkind : rule.kind = .client
  · simp [RuleEntry.kept, ruleEntry, ruleKept, importedClientId, ruleName, hkind]
  · simp [RuleEntry.kept, ruleEntry, ruleKept, hkind]

/-- The entry of an imported rule. -/
theorem ruleEntry_imported
    (h : importClients (buildClientsSection clients identifiers) = some state)
    {r r' : AccessRule} (hrule : RuleImported state.nameToId clients r r')
    (hkept : ruleKept state.nameToId clients r = true) :
    ruleEntry state.clients r' = importedRuleEntry (ruleEntry clients r) := by
  by_cases hkind : r.kind = .client
  · rw [ruleKept, hkind, importedClientId, if_pos hkind] at hkept
    have hsome : (state.nameToId.lookup (ruleName clients r)).isSome = true := by simpa using hkept
    obtain ⟨id, hid⟩ := Option.isSome_iff_exists.mp hsome
    obtain ⟨c', hfind, hname⟩ := ruleClient_import h hid
    have hclient : ruleClient state.clients r' = some c' := by
      rw [ruleClient, hrule.clientId, importedClientId, if_pos hkind, hid, Option.bind_some, hfind]
    simp only [importedRuleEntry, ruleEntry, hkind, if_true, hrule.action, hrule.kind, hrule.value,
      hclient, hname, Option.map_some]
  · have hclient : ruleClient state.clients r' = none := by
      rw [ruleClient, hrule.clientId, importedClientId, if_neg hkind, Option.bind_none]
    simp only [importedRuleEntry, ruleEntry, Option.some.injEq, hkind, if_false, hrule.action,
      hrule.kind, hrule.value, hclient, Option.map_none]

/-- **The rules section of imported tables.** -/
theorem rulesSection_import
    (h : importClients (buildClientsSection clients identifiers) = some state)
    {rules rows : RuleRows}
    (hrules : (buildAccessRulesSection clients rules).foldlM (importRule state.nameToId)
      LegalRows.empty = some rows) :
    buildAccessRulesSection state.clients rows
      = ((buildAccessRulesSection clients rules).filter (·.kept state.nameToId)).map
          importedRuleEntry := by
  obtain ⟨pairs, hfst, hsnd, himported⟩ := importRules_build hrules
  have hkept : (buildAccessRulesSection clients rules).filter (·.kept state.nameToId)
      = (rules.1.filter (ruleKept state.nameToId clients)).map (ruleEntry clients) := by
    show (rules.1.map (ruleEntry clients)).filter (·.kept state.nameToId) = _
    rw [List.filter_map]
    congr 1
    exact List.filter_congr fun r _ => kept_ruleEntry state.nameToId clients r
  rw [hkept, ← hfst]
  show rows.1.map (ruleEntry state.clients) = _
  rw [← hsnd, List.map_map, List.map_map, List.map_map]
  refine List.map_eq_map_iff.mpr fun z hz => ?_
  have hmem : z.1 ∈ rules.1.filter (ruleKept state.nameToId clients) :=
    hfst ▸ List.mem_map_of_mem hz
  exact ruleEntry_imported h (himported z hz) (List.of_mem_filter hmem)

end Imports

/-- Client sections of which nothing is dropped or changed by an import: client names and
identifiers are not empty, names have no surrounding blanks, and the rules that name a client are
the client rules. -/
structure EntriesKept (clients : List ClientEntry) (rules : List RuleEntry) : Prop where
  names : ∀ e ∈ clients, e.name ≠ [] ∧ strip e.name = e.name
  identifiers : ∀ e ∈ clients, ∀ i ∈ e.identifiers, i.value ≠ []
  rules : ∀ e ∈ rules,
    if e.kind = some .client then ∃ c ∈ clients, e.clientName = some c.name
    else e.clientName = none

theorem importedEntry_eq_self {e : ClientEntry} :
    e.named = true ∧ importedEntry e = e ↔
      (e.name ≠ [] ∧ strip e.name = e.name) ∧ ∀ i ∈ e.identifiers, i.value ≠ [] := by
  constructor
  · rintro ⟨hnamed, heq⟩
    have hname : strip e.name = e.name := congrArg ClientEntry.name heq
    have hidentifiers : e.identifiers.filter (·.value ≠ []) = e.identifiers :=
      congrArg ClientEntry.identifiers heq
    refine ⟨⟨?_, hname⟩, fun i hi => ?_⟩
    · simpa [ClientEntry.named, hname] using hnamed
    · simpa using List.filter_eq_self.mp hidentifiers i hi
  · rintro ⟨⟨hne, hname⟩, hidentifiers⟩
    refine ⟨by simpa [ClientEntry.named, hname] using hne, ?_⟩
    have hfilter : e.identifiers.filter (·.value ≠ []) = e.identifiers :=
      List.filter_eq_self.mpr fun i hi => by simpa using hidentifiers i hi
    rw [importedEntry, hname, hfilter]

/-- Which rules are kept, when the clients are. -/
theorem names_of_import {clients : ClientRows} {identifiers : IdentifierRows}
    {state : ClientImport}
    (h : importClients (buildClientsSection clients identifiers) = some state)
    (hsame : buildClientsSection state.clients state.identifiers
      = buildClientsSection clients identifiers) (e : RuleEntry) :
    (e.kept state.nameToId = true ∧ importedRuleEntry e = e) ↔
      if e.kind = some .client then
        ∃ c ∈ buildClientsSection clients identifiers, e.clientName = some c.name
      else e.clientName = none := by
  by_cases hkind : e.kind = some .client
  · have hlookup : (state.nameToId.lookup (e.clientName.getD [])).isSome = true ↔
        ∃ c' ∈ state.clients.1, c'.name = e.clientName.getD [] := by
      rw [(importClients_build h).lookup, Option.isSome_map, lastRow, List.find?_isSome]
      simp
    simp only [RuleEntry.kept, importedRuleEntry, hkind, ne_eq, not_true_eq_false, decide_false,
      Bool.false_or, if_true, and_true, hlookup]
    rw [← hsame]
    simp only [buildClientsSection, List.mem_map, exists_exists_and_eq_and]
    refine exists_congr fun c' => and_congr_right fun hc' => ?_
    have hne := name_ne_nil_import h c' hc'
    constructor
    · intro heq
      cases hname : e.clientName with
      | none =>
          rw [hname] at heq
          exact absurd heq hne
      | some name =>
          rw [hname] at heq
          exact congrArg some heq.symm
    · intro heq
      rw [heq]
      rfl
  · simp only [RuleEntry.kept, importedRuleEntry, hkind, ne_eq, not_false_eq_true, decide_true,
      Bool.true_or, if_false, true_and]
    constructor
    · intro heq
      rw [← heq]
    · intro heq
      rw [← heq]

/-- **When the sections of imported tables are the imported sections.** -/
theorem sections_import_iff {clients : ClientRows} {identifiers : IdentifierRows}
    {rules : RuleRows} {imported : ClientTables}
    (h : importClientTables (buildClientsSection clients identifiers)
      (buildAccessRulesSection clients rules) = some imported) :
    (buildClientsSection imported.clients imported.identifiers
        = buildClientsSection clients identifiers ∧
      buildAccessRulesSection imported.clients imported.accessRules
        = buildAccessRulesSection clients rules) ↔
      EntriesKept (buildClientsSection clients identifiers)
        (buildAccessRulesSection clients rules) := by
  unfold importClientTables at h
  rw [Option.bind_eq_bind, Option.bind_eq_some_iff] at h
  obtain ⟨state, hclients, h⟩ := h
  rw [Option.bind_eq_bind, Option.bind_eq_some_iff] at h
  obtain ⟨rows, hrules, h⟩ := h
  cases h
  dsimp only
  rw [rulesSection_import hclients hrules, map_filter_eq_self_iff]
  constructor
  · rintro ⟨hsame, hkept⟩
    have hnames := names_of_import hclients hsame
    rw [clientsSection_import hclients, map_filter_eq_self_iff] at hsame
    simp only [importedEntry_eq_self] at hsame
    exact ⟨fun e he => (hsame e he).1, fun e he => (hsame e he).2,
      fun e he => (hnames e).mp (hkept e he)⟩
  · rintro ⟨hnames, hidentifiers, hkept⟩
    have hsame : buildClientsSection state.clients state.identifiers
        = buildClientsSection clients identifiers := by
      rw [clientsSection_import hclients, map_filter_eq_self_iff]
      simp only [importedEntry_eq_self]
      exact fun e he => ⟨hnames e he, hidentifiers e he⟩
    exact ⟨hsame, fun e he => (names_of_import hclients hsame e).mpr (hkept e he)⟩

/-! ## The deployment -/

/-- What the schema initialisations take from elsewhere. -/
structure InitEnv where
  now : Str
  /-- `str(detect_default_cache_size_mb())` -/
  cacheSize : Str
  /-- `detect_server_ip()` -/
  serverIp : Str

/-- The defaults of the settings tables that a deployment initialises. -/
def InitEnv.defaults (env : InitEnv) : SettingsGroup → List (Str × Str)
  | .localDns =>
      [("internal_domain".toList, "home.arpa".toList), ("default_ttl".toList, "300".toList),
        ("server_hostname".toList, "alderpointdns".toList), ("server_ip".toList, env.serverIp)]
  | .dnsCache =>
      [("max_cache_size_mb".toList, env.cacheSize), ("min_cache_ttl".toList, "0".toList),
        ("max_cache_ttl".toList, "604800".toList), ("min_ncache_ttl".toList, "0".toList),
        ("max_ncache_ttl".toList, "10800".toList), ("prefetch_enabled".toList, "0".toList),
        ("prefetch_trigger".toList, "2".toList), ("prefetch_eligible".toList, "10".toList),
        ("serve_stale_enabled".toList, "0".toList), ("max_stale_ttl".toList, "86400".toList),
        ("stale_answer_client_timeout".toList, "off".toList),
        ("recursive_clients".toList, "1000".toList)]
  | .encryption => []

/-- `CREATE TABLE IF NOT EXISTS` and `INSERT OR IGNORE` of the defaults. -/
def InitEnv.initSettings (env : InitEnv) (g : SettingsGroup) (settings : Option Settings) :
    Settings := fun key =>
  (settings.getD noSettings key).or ((env.defaults g).lookup key)

/-- The replicable keys come first among the defaults. -/
theorem replicableKeys_comeFirst (env : InitEnv) {g : SettingsGroup} (hg : g ≠ .encryption) :
    g.replicableKeys <+: (env.defaults g).map Prod.fst := by
  cases g with
  | localDns => exact ⟨["server_hostname".toList, "server_ip".toList], rfl⟩
  | dnsCache => exact ⟨["recursive_clients".toList], rfl⟩
  | encryption => exact absurd rfl hg

/-- Every replicable key has a default. -/
theorem defaults_isSome (env : InitEnv) {g : SettingsGroup} (hg : g ≠ .encryption) {key : Str}
    (hkey : g.replicable key = true) : ((env.defaults g).lookup key).isSome = true := by
  have hmem : key ∈ g.replicableKeys := List.contains_iff_mem.mp hkey
  obtain ⟨entry, hentry, rfl⟩ := List.mem_map.mp ((replicableKeys_comeFirst env hg).mem hmem)
  exact List.lookup_isSome_iff.mpr ⟨entry, hentry, by simp⟩

/-- The rows of a table, none when it is missing. -/
def Database.rows (db : Database) (t : Table) : List (Row t) := ((db.tables t).map (·.1)).getD []

/-- The legacy rows that a migration takes up. -/
def unmigrated (migrated : Str → AllowBlock → Bool) (db : Database) : List LegacyRow :=
  (db.rows .customRules).filter fun (l : LegacyRow) => !migrated l.domain l.action

/-- The replicated content after a deployment: `init_db` of the custom rules, of the local DNS and
of the DNS cache. -/
def deployDatabase (env : InitEnv) (migrated : Str → AllowBlock → Bool) (db : Database) :
    Database where
  tables
    | .customFilterRules => some (filterTable
        (migrateLegacyRules env.now (unmigrated migrated db) (db.rows .customFilterRules)))
    | .localDnsRecords => some ((db.tables .localDnsRecords).getD LegalRows.empty)
    | .clientAliases => some ((db.tables .clientAliases).getD LegalRows.empty)
    | t => db.tables t
  settings
    | .encryption => db.settings .encryption
    | g => some (env.initSettings g (db.settings g))
  access := db.access

/-- A migration that finds a rule for each row adds nothing. -/
theorem migrateLegacyRules_eq_self_iff {now : Str} {legacies : List LegacyRow}
    {rows : List FilterRow} :
    migrateLegacyRules now legacies rows = rows ↔ ∀ l ∈ legacies, l.represented rows = true :=
  (grows_migrateLegacyRule now).foldl_eq_iff

/-! ## A sync and the check after it -/

/-- A payload: the sections that are applied, and the certificate that only takes part in the
hash. -/
structure Payload extends Sections where
  caCertificatePem : Option Str

/-- A generation and its certificate section. -/
structure PublishedGeneration (Hash : Type) extends Generation Hash where
  caCertificatePem : Option Str

/-- `generation["sections"]`. -/
def PublishedGeneration.payload {Hash : Type} (g : PublishedGeneration Hash) : Payload :=
  { g.sections with caCertificatePem := g.caCertificatePem }

/-- A replica: what a sync and the check read and write.  No hash is the initial `""`. -/
structure Replica (Hash : Type) where
  node : Node
  /-- `migrated_to_v2` of the legacy rows -/
  migrated : Str → AllowBlock → Bool
  lastAppliedHash : Option Hash

section Drift

variable {Hash : Type} [DecidableEq Hash] (contentHash : Payload → Hash)

/-- `create_generation`, with the number and the CA certificate file of the primary. -/
def createGeneration (includeEncryption includeCertificates : Bool) (number : ℕ)
    (caCertificate : Option Str) (db : Database) : Option (PublishedGeneration Hash) :=
  (buildPayload includeEncryption db).map fun sections =>
    let ca := if includeCertificates then caCertificate else none
    { number := number
      schemaVersion := schemaVersion
      contentHash := contentHash { sections with caCertificatePem := ca }
      sections := sections
      caCertificatePem := ca }

/-- The replica after `replica_sync_once` has fetched the generation and succeeded with the default
deployment; `none` is any other result. -/
def syncReplica (env : InitEnv) (g : PublishedGeneration Hash) (deploy : DeployOutcome)
    (force : Bool) (replica : Replica Hash) : Option (Replica Hash) :=
  match replicaSyncOnce
      (fun sections => contentHash { sections with caCertificatePem := g.caCertificatePem })
      (.generation g.toGeneration) deploy force replica.node with
  | (node, .success) =>
      -- `DELETE` and `INSERT` leave no mark on a legacy row, the migration marks them all
      let migrated := if (g.sections.tables .customRules).isSome then fun _ _ => false
        else replica.migrated
      some
        { node := { node with db := deployDatabase env migrated node.db }
          migrated := fun _ _ => true
          lastAppliedHash := some g.contentHash }
  | _ => none

/-- `check_drift`; `none` is an exception. -/
def checkDrift (replica : Replica Hash) : Option Bool :=
  (buildPayload false replica.node.db).map fun sections =>
    match replica.lastAppliedHash with
    | none => false
    | some expected => contentHash { sections with caCertificatePem := none } ≠ expected

/-! ## When there is no drift -/

/-- The section of a table that is missing on the replica: some are made, without rows. -/
def freshSection : (t : Table) → Option (List (Option (Row t)))
  | .localDnsRecords | .clientAliases => some []
  | _ => none

/-- The rows of the legacy section. -/
def Payload.legacyRows (payload : Payload) : List LegacyRow :=
  ((payload.tables .customRules).getD []).filterMap id

/-- The clients come back as they were sent. -/
def ClientsReturn (payload : Payload) (access : AccessTables) : Prop :=
  if (payload.clients = none ∧ payload.accessRules = none) ∨ access.clients = none
      ∨ access.identifiers = none then
    access.clientsSection = payload.clients ∧ access.accessRulesSection = payload.accessRules ∧
      (access.accessRules.isSome && access.clients.isNone) = false
  else ∃ clients rules, payload.clients = some clients ∧ payload.accessRules = some rules ∧
    EntriesKept clients rules

/-- **A replica that finds no drift** after it has applied the payload to its database `db`. -/
structure DriftFree (env : InitEnv) (payload : Payload) (db : Database) : Prop where
  certificate : payload.caCertificatePem = none
  encryption : payload.settings .encryption = none
  /-- the payload has the sections of the tables that the replica has -/
  tables : ∀ t, t ≠ .customFilterRules →
    if (db.tables t).isSome then payload.tables t ≠ none else payload.tables t = freshSection t
  /-- each legacy rule has its filter rule -/
  rules : ∃ rows : List FilterRow, payload.tables .customFilterRules = some (rows.map some) ∧
    if (db.tables .customFilterRules).isSome then
      ∀ l ∈ payload.legacyRows, l.represented rows = true
    else rows = migrateLegacyRules env.now payload.legacyRows []
  /-- no default is missing -/
  settings : ∀ g, g ≠ .encryption → ∃ values, payload.settings g = some values ∧
    if (db.settings g).isSome then ∀ key, g.replicable key = true → values key ≠ none
    else values = selectSettings g (env.initSettings g none)
  clients : ClientsReturn payload db.access

end Drift

/-! ## The payload that the check builds -/

theorem buildPayload_eq_some {includeEncryption : Bool} {db : Database} {sections : Sections} :
    buildPayload includeEncryption db = some sections ↔
      (db.access.accessRules.isSome && db.access.clients.isNone) = false ∧
      (∀ t, selectTables db t = sections.tables t) ∧
      (∀ g, (if g = .encryption && !includeEncryption then none
        else (db.settings g).map (selectSettings g)) = sections.settings g) ∧
      db.access.clientsSection = sections.clients ∧
      db.access.accessRulesSection = sections.accessRules := by
  unfold buildPayload
  constructor
  · intro h
    split_ifs at h with hjoin
    cases h
    exact ⟨Bool.eq_false_iff.mpr hjoin, fun _ => rfl, fun _ => rfl, rfl, rfl⟩
  · rintro ⟨hjoin, htables, hsettings, hclients, hrules⟩
    rw [hjoin, if_neg Bool.false_ne_true, hclients, hrules, funext htables, funext hsettings]

section Tables

variable {sections : Sections} {t : Table} {old new : Option (TableRows t)}

/-- A table that exists has the rows of its section exactly when there is a section. -/
theorem select_applyTable_iff (h : applyTable sections t old = some new)
    (hold : old.isSome = true) :
    (new.map fun rows => rows.1.map some) = sections.tables t ↔ sections.tables t ≠ none := by
  obtain ⟨rows, rfl⟩ := Option.isSome_iff_exists.mp hold
  cases hsection : sections.tables t with
  | none =>
      rw [applyTable_absent hsection h]
      simp
  | some section' =>
      obtain ⟨table, rfl, hmap⟩ := applyTable_carried hsection h
      simp [hmap]

/-- A missing table stays missing. -/
theorem applyTable_missing (h : applyTable sections t none = some new) : new = none := by
  have hsome := applyTable_isSome h
  rwa [Option.isSome_none, Option.isSome_eq_false_iff, Option.isNone_iff_eq_none] at hsome

end Tables

/-- The tables other than the filter rules. -/
theorem tables_deploy_iff {env : InitEnv} {migrated : Str → AllowBlock → Bool}
    {sections : Sections} {db db' : Database} {t : Table}
    (h : applyTable sections t (db.tables t) = some (db'.tables t)) (ht : t ≠ .customFilterRules) :
    selectTables (deployDatabase env migrated db') t = sections.tables t ↔
      if (db.tables t).isSome then sections.tables t ≠ none
      else sections.tables t = freshSection t := by
  by_cases hsome : (db.tables t).isSome = true
  · have hsame : (deployDatabase env migrated db').tables t = db'.tables t := by
      rw [← applyTable_isSome h] at hsome
      obtain ⟨rows, hrows⟩ := Option.isSome_iff_exists.mp hsome
      cases t <;> first | exact absurd rfl ht | simp [deployDatabase, hrows]
    rw [if_pos hsome, selectTables, hsame]
    exact select_applyTable_iff h hsome
  · rw [if_neg hsome, eq_comm]
    rw [Bool.not_eq_true, Option.isSome_eq_false_iff, Option.isNone_iff_eq_none] at hsome
    rw [hsome] at h
    have hnone := applyTable_missing h
    have hfresh : selectTables (deployDatabase env migrated db') t = freshSection t := by
      cases t <;> first | exact absurd rfl ht | simp [selectTables, deployDatabase, hnone,
        freshSection, LegalRows.empty]
    rw [hfresh]

theorem rows_eq {db : Database} {t : Table} {table : TableRows t}
    (h : db.tables t = some table) : db.rows t = table.1 := by
  rw [Database.rows, h]
  rfl

theorem rows_eq_nil {db : Database} {t : Table} (h : db.tables t = none) : db.rows t = [] := by
  rw [Database.rows, h]
  rfl

theorem legacyRows_eq_of_section {payload : Payload} {rows : List LegacyRow}
    (h : payload.tables .customRules = some (rows.map some)) : payload.legacyRows = rows := by
  have hreduce : (rows.map some).filterMap id = rows := by simp
  unfold Payload.legacyRows
  rw [h]
  exact hreduce

/-- The legacy rows that are migrated are those of the section. -/
theorem unmigrated_eq {payload : Payload} {db db' : Database}
    (migrated : Str → AllowBlock → Bool)
    (h : applyTable payload.toSections .customRules (db.tables .customRules)
      = some (db'.tables .customRules))
    (hsection : if (db.tables .customRules).isSome then payload.tables .customRules ≠ none
      else payload.tables .customRules = none) :
    unmigrated (if (payload.tables .customRules).isSome then fun _ _ => false else migrated) db'
      = payload.legacyRows := by
  by_cases hsome : (db.tables .customRules).isSome = true
  · rw [if_pos hsome] at hsection
    obtain ⟨rows, hrows⟩ := Option.ne_none_iff_exists'.mp hsection
    obtain ⟨old, hold⟩ := Option.isSome_iff_exists.mp hsome
    rw [hold] at h
    obtain ⟨table, htable, hmap⟩ := applyTable_carried hrows h
    rw [← hmap] at hrows
    rw [hrows, Option.isSome_some, if_pos rfl, legacyRows_eq_of_section hrows, ← rows_eq htable]
    exact List.filter_eq_self.mpr fun _ _ => rfl
  · rw [if_neg hsome] at hsection
    rw [Bool.not_eq_true, Option.isSome_eq_false_iff, Option.isNone_iff_eq_none] at hsome
    rw [hsome] at h
    have hleft : unmigrated (if (payload.tables .customRules).isSome then fun _ _ => false
        else migrated) db' = [] := by
      rw [unmigrated, rows_eq_nil (applyTable_missing h)]
      rfl
    have hright : payload.legacyRows = [] := by
      rw [Payload.legacyRows, hsection]
      rfl
    rw [hleft, hright]

/-- The filter rules. -/
theorem rules_deploy_iff {env : InitEnv} {migrated : Str → AllowBlock → Bool}
    {sections : Sections} {db db' : Database}
    (h : applyTable sections .customFilterRules (db.tables .customFilterRules)
      = some (db'.tables .customFilterRules)) :
    selectTables (deployDatabase env migrated db') .customFilterRules
        = sections.tables .customFilterRules ↔
      ∃ rows : List FilterRow, sections.tables .customFilterRules = some (rows.map some) ∧
        if (db.tables .customFilterRules).isSome then
          ∀ l ∈ unmigrated migrated db', l.represented rows = true
        else rows = migrateLegacyRules env.now (unmigrated migrated db') [] := by
  have hselect : selectTables (deployDatabase env migrated db') .customFilterRules
      = some ((migrateLegacyRules env.now (unmigrated migrated db')
          (db'.rows .customFilterRules)).map some) := rfl
  have hinj : Function.Injective (List.map (some : FilterRow → Option FilterRow)) :=
    List.map_injective_iff.mpr (Option.some_injective _)
  rw [hselect]
  by_cases hsome : (db.tables .customFilterRules).isSome = true
  · obtain ⟨old, hold⟩ := Option.isSome_iff_exists.mp hsome
    simp only [hsome, if_true]
    cases hsection : sections.tables .customFilterRules with
    | none => simp
    | some section' =>
        rw [hold] at h
        obtain ⟨table, htable, hmap⟩ := applyTable_carried hsection h
        rw [rows_eq htable]
        generalize hrows : (table.1 : List FilterRow) = rows at hmap ⊢
        have hmap : rows.map some = section' := hmap
        rw [← hmap]
        constructor
        · intro heq
          have heq := hinj (Option.some.inj heq)
          exact ⟨rows, rfl, migrateLegacyRules_eq_self_iff.mp heq⟩
        · rintro ⟨rows', heq, hrep⟩
          obtain rfl := hinj (Option.some.inj heq)
          exact congrArg (fun rules => some (List.map some rules))
            (migrateLegacyRules_eq_self_iff.mpr hrep)
  · rw [Bool.not_eq_true, Option.isSome_eq_false_iff, Option.isNone_iff_eq_none] at hsome
    rw [hsome] at h
    simp only [hsome, Option.isSome_none, Bool.false_eq_true, if_false,
      rows_eq_nil (applyTable_missing h)]
    constructor
    · intro heq
      exact ⟨_, heq.symm, rfl⟩
    · rintro ⟨rows, heq, rfl⟩
      exact heq.symm

/-- A group of settings. -/
theorem settings_deploy_iff {env : InitEnv} {migrated : Str → AllowBlock → Bool}
    {sections : Sections} {db db' : Database} {g : SettingsGroup} (hg : g ≠ .encryption)
    (h : db'.settings = applySettings sections db.settings)
    (hselected : (sections.settings g).map (selectSettings g) = sections.settings g) :
    ((deployDatabase env migrated db').settings g).map (selectSettings g) = sections.settings g ↔
      ∃ values, sections.settings g = some values ∧
        if (db.settings g).isSome then ∀ key, g.replicable key = true → values key ≠ none
        else values = selectSettings g (env.initSettings g none) := by
  have hdeploy : (deployDatabase env migrated db').settings g
      = some (env.initSettings g (db'.settings g)) := by
    cases g <;> first | exact absurd rfl hg | rfl
  rw [hdeploy, Option.map_some]
  cases hsection : sections.settings g with
  | none => simp
  | some values =>
      rw [hsection, Option.map_some, Option.some.injEq] at hselected
      have hgroup := congrFun h g
      rw [applySettings, hsection, Option.getD_some] at hgroup
      simp only [Option.some.injEq, exists_eq_left']
      cases hold : db.settings g with
      | none =>
          rw [hold, Option.map_none] at hgroup
          simp only [Option.isSome_none, Bool.false_eq_true, if_false, hgroup]
          exact eq_comm
      | some settings =>
          rw [hold, Option.map_some] at hgroup
          rw [hgroup]
          simp only [Option.isSome_some, if_true]
          rw [funext_iff]
          refine forall_congr' fun key => ?_
          have hvalue := congrFun hselected key
          rw [selectSettings] at hvalue
          simp only [selectSettings, InitEnv.initSettings, Option.getD_some, replaceSettingsSubset]
          by_cases hkey : g.replicable key = true
          · have hdefault := defaults_isSome env hg hkey
            simp only [hkey, if_true, forall_const]
            cases values key with
            | none =>
                rw [Option.none_or]
                rw [Option.isSome_iff_ne_none] at hdefault
                simp [hdefault]
            | some value => simp
          · rw [if_neg hkey] at hvalue
            simp [hkey, ← hvalue]

theorem clientsSection_eq_some {access : AccessTables} {entries : List ClientEntry}
    (h : access.clientsSection = some entries) :
    ∃ clients identifiers, access.clients = some clients ∧
      buildClientsSection clients identifiers = entries := by
  unfold AccessTables.clientsSection at h
  split at h
  · rename_i clients identifiers hclients hidentifiers
    exact ⟨clients, identifiers, hclients, Option.some.inj h⟩
  · cases h

theorem accessRulesSection_eq_some {access : AccessTables} {entries : List RuleEntry}
    (h : access.accessRulesSection = some entries) :
    ∃ clients rules, access.clients = some clients ∧
      buildAccessRulesSection clients rules = entries := by
  unfold AccessTables.accessRulesSection at h
  split at h
  · rename_i clients rules hclients hrules
    exact ⟨clients, rules, hclients, Option.some.inj h⟩
  · cases h

/-- The client sections. -/
theorem clients_apply_iff {payload : Payload} {primary access access' : AccessTables}
    (h : applyClientsAccessSections payload.clients payload.accessRules access = some access')
    (hclients : primary.clientsSection = payload.clients)
    (hrules : primary.accessRulesSection = payload.accessRules) :
    ((access'.accessRules.isSome && access'.clients.isNone) = false ∧
      access'.clientsSection = payload.clients ∧ access'.accessRulesSection = payload.accessRules) ↔
      ClientsReturn payload access := by
  unfold ClientsReturn
  rcases applyClientsAccessSections_cases h with
    ⟨rfl, hwhy⟩ | ⟨hsome, hc, hi, -, imported, himp, rfl⟩
  · rw [if_pos hwhy]
    tauto
  · have hnot : ¬ ((payload.clients = none ∧ payload.accessRules = none) ∨ access.clients = none
        ∨ access.identifiers = none) := by tauto
    rw [if_neg hnot]
    simp only [Option.isSome_some, Option.isNone_some, Bool.and_false, true_and]
    show (some (buildClientsSection imported.clients imported.identifiers) = payload.clients ∧
      some (buildAccessRulesSection imported.clients imported.accessRules)
        = payload.accessRules) ↔ _
    cases hc' : payload.clients with
    | none => simp
    | some clientEntries =>
        cases hr' : payload.accessRules with
        | none => simp
        | some ruleEntries =>
            rw [hc'] at hclients himp
            rw [hr'] at hrules himp
            obtain ⟨clients, identifiers, hsame, rfl⟩ := clientsSection_eq_some hclients
            obtain ⟨clients', rules, hsame', rfl⟩ := accessRulesSection_eq_some hrules
            obtain rfl := Option.some.inj (hsame.symm.trans hsame')
            simp only [Option.some.injEq]
            rw [Option.getD_some, Option.getD_some] at himp
            rw [sections_import_iff himp]
            constructor
            · intro hkept
              exact ⟨_, _, rfl, rfl, hkept⟩
            · rintro ⟨_, _, rfl, rfl, hkept⟩
              exact hkept

/-! ## The replicas that find no drift -/

section NoDrift

variable {Hash : Type} [DecidableEq Hash]

theorem replicaSyncOnce_success {contentHash : Sections → Hash} {g : Generation Hash}
    {deploy : DeployOutcome} {force : Bool} {node node' : Node}
    (h : replicaSyncOnce contentHash (.generation g) deploy force node = (node', .success)) :
    applySections g.sections node.db = some node'.db := by
  unfold replicaSyncOnce at h
  split_ifs at h
  · cases h
  · dsimp only at h
    split at h
    · rename_i result hcheck
      -- no check ends a sync with success
      unfold checkGeneration at hcheck
      split_ifs at hcheck <;> cases hcheck <;> cases h
    · split at h
      · cases h
      · rename_i db happly
        cases deploy with
        | ok =>
            cases h
            exact happly
        | raised => cases h
        | failed =>
            dsimp only at h
            split at h <;> cases h

theorem checkDrift_eq_false {contentHash : Payload → Hash} (hinj : Function.Injective contentHash)
    {replica : Replica Hash} {payload : Payload}
    (hhash : replica.lastAppliedHash = some (contentHash payload)) :
    checkDrift contentHash replica = some false ↔
      payload.caCertificatePem = none ∧
        buildPayload false replica.node.db = some payload.toSections := by
  unfold checkDrift
  rw [hhash, Option.map_eq_some_iff]
  simp only [ne_eq, decide_eq_false_iff_not, not_not, hinj.eq_iff]
  constructor
  · rintro ⟨sections, hbuild, rfl⟩
    exact ⟨rfl, hbuild⟩
  · rintro ⟨hca, hbuild⟩
    refine ⟨_, hbuild, ?_⟩
    rw [← hca]

/-- A payload with encryption settings is never built again. -/
theorem checkDrift_of_encryption {contentHash : Payload → Hash}
    (hinj : Function.Injective contentHash) {replica : Replica Hash} (payload : Payload)
    (hhash : replica.lastAppliedHash = some (contentHash payload))
    (hencryption : payload.settings .encryption ≠ none)
    (hjoin : (replica.node.db.access.accessRules.isSome
      && replica.node.db.access.clients.isNone) = false) :
    checkDrift contentHash replica = some true := by
  unfold checkDrift buildPayload
  rw [hjoin, if_neg Bool.false_ne_true, hhash]
  simp only [Option.map_some, Option.some.injEq, decide_eq_true_eq]
  intro heq
  have hsettings := congrArg (fun payload : Payload => payload.settings .encryption) (hinj heq)
  exact hencryption hsettings.symm

/-- What is built after an apply and a deployment. -/
theorem rebuilt_iff {env : InitEnv} {includeEncryption : Bool} {payload : Payload}
    {primary db db' : Database} {migrated : Str → AllowBlock → Bool}
    (hbuild : buildPayload includeEncryption primary = some payload.toSections)
    (happly : applySections payload.toSections db = some db') :
    (payload.caCertificatePem = none ∧ buildPayload false (deployDatabase env
      (if (payload.tables .customRules).isSome then fun _ _ => false else migrated) db')
        = some payload.toSections) ↔ DriftFree env payload db := by
  obtain ⟨-, -, hsettings, hclients, hrules⟩ := buildPayload_eq_some.mp hbuild
  obtain ⟨htables, hgroups, haccess⟩ := writeSections_eq_some.mp happly
  have hselected : ∀ g, (payload.settings g).map (selectSettings g) = payload.settings g := by
    intro g
    rw [← hsettings g]
    split_ifs
    · rfl
    · rw [Option.map_map]
      congr 1
      funext settings key
      simp only [Function.comp_apply, selectSettings]
      split_ifs <;> rfl
  have hclientsIff := clients_apply_iff haccess hclients hrules
  rw [buildPayload_eq_some]
  constructor
  · rintro ⟨hca, hjoin, htables', hsettings', hclients', hrules'⟩
    have hothers : ∀ t, t ≠ .customFilterRules →
        if (db.tables t).isSome then payload.tables t ≠ none
        else payload.tables t = freshSection t :=
      fun t ht => (tables_deploy_iff (htables t) ht).mp (htables' t)
    refine ⟨hca, (hsettings' .encryption).symm, hothers, ?_, fun g hg => ?_,
      hclientsIff.mp ⟨hjoin, hclients', hrules'⟩⟩
    · have hlegacy := unmigrated_eq migrated (htables .customRules)
        (hothers .customRules (by decide))
      rw [← hlegacy]
      exact (rules_deploy_iff (htables .customFilterRules)).mp (htables' .customFilterRules)
    · have hgroup := hsettings' g
      rw [if_neg (by simp [hg])] at hgroup
      exact (settings_deploy_iff hg hgroups (hselected g)).mp hgroup
  · rintro ⟨hca, hencryption, hothers, hfilter, hvalues, hreturn⟩
    obtain ⟨hjoin, hclients', hrules'⟩ := hclientsIff.mpr hreturn
    refine ⟨hca, hjoin, fun t => ?_, fun g => ?_, hclients', hrules'⟩
    · by_cases ht : t = .customFilterRules
      · subst ht
        have hlegacy := unmigrated_eq migrated (htables .customRules)
          (hothers .customRules (by decide))
        rw [← hlegacy] at hfilter
        exact (rules_deploy_iff (htables .customFilterRules)).mpr hfilter
      · exact (tables_deploy_iff (htables t) ht).mpr (hothers t ht)
    · by_cases hg : g = .encryption
      · subst hg
        exact hencryption.symm
      · rw [if_neg (by simp [hg])]
        exact (settings_deploy_iff hg hgroups (hselected g)).mpr (hvalues g hg)

theorem syncReplica_eq_some (contentHash : Payload → Hash) (env : InitEnv)
    (g : PublishedGeneration Hash) (replica : Replica Hash) {db : Database}
    (hpaused : replica.node.paused = false) (hnumber : replica.node.lastApplied < g.number)
    (hschema : g.schemaVersion ≤ schemaVersion) (hhash : contentHash g.payload = g.contentHash)
    (happly : applySections g.sections replica.node.db = some db) :
    syncReplica contentHash env g .ok false replica = some
      { node := { replica.node with
          db := deployDatabase env
            (if (g.sections.tables .customRules).isSome then fun _ _ => false
              else replica.migrated) db
          lastApplied := g.number }
        migrated := fun _ _ => true
        lastAppliedHash := some g.contentHash } := by
  have hcheck : checkGeneration (fun sections => contentHash
      { sections with caCertificatePem := g.caCertificatePem }) replica.node.lastApplied false
      g.toGeneration = none := by
    have hhash' : contentHash { g.sections with caCertificatePem := g.caCertificatePem }
        = g.contentHash := hhash
    simp [checkGeneration, hnumber.not_ge, hschema.not_gt, hhash']
  simp [syncReplica, replicaSyncOnce, hpaused, hcheck, happly]

end NoDrift

/-! ### A primary that includes its encryption settings -/

/-- A node with all tables, which has only the defaults. -/
def freshDatabase (env : InitEnv) : Database where
  tables _ := some LegalRows.empty
  settings g := some (env.initSettings g none)
  access := ⟨some LegalRows.empty, some LegalRows.empty, some LegalRows.empty⟩

def freshReplica (Hash : Type) (env : InitEnv) : Replica Hash where
  node := { db := freshDatabase env, paused := false, lastApplied := 0 }
  migrated _ _ := true
  lastAppliedHash := none

/-- The sections of its payload. -/
def freshSections (env : InitEnv) (includeEncryption : Bool) : Sections where
  tables _ := some []
  settings g := if g = .encryption && !includeEncryption then none
    else some (selectSettings g (env.initSettings g none))
  clients := some []
  accessRules := some []

theorem applySections_fresh (env : InitEnv) (includeEncryption : Bool) :
    applySections (freshSections env includeEncryption) (freshDatabase env) = some
      { freshDatabase env with
        settings := applySettings (freshSections env includeEncryption)
          (freshDatabase env).settings } :=
  writeSections_eq_some.mpr ⟨fun _ => rfl, rfl, rfl⟩

/-- The generation of such a primary. -/
def freshGeneration (env : InitEnv) (includeEncryption : Bool) : PublishedGeneration Payload where
  number := 1
  schemaVersion := schemaVersion
  contentHash := { freshSections env includeEncryption with caCertificatePem := none }
  sections := freshSections env includeEncryption
  caCertificatePem := none

theorem createGeneration_fresh (env : InitEnv) (includeEncryption : Bool) :
    createGeneration id includeEncryption false 1 none (freshDatabase env)
      = some (freshGeneration env includeEncryption) := rfl

def exampleEnv : InitEnv where
  now := "2026-01-01T00:00:00+00:00".toList
  cacheSize := "512".toList
  serverIp := "192.0.2.1".toList

end AlderpointDNS
