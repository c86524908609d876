import AlderpointDNS.Clients.Import
import AlderpointDNS.Importer.Apply
import AlderpointDNS.Lib.Runs

/-!
# Creating and deleting clients

The functions of `clients.py` that write clients and identifiers.  Each checks its arguments,
then runs `init_db`, which migrates the rows of `client_aliases` and commits, and then writes in
a transaction of its own.  A history is a list of these parts (`RegistryStep`), so that other
processes may write between the two parts of a call; `createClient_run` and the lemmas after it
put the calls together from them.

* `migrateClientAlias_eq` — the setup of an import does the same to the client tables;
* **`migrateAliases_spec`** — the migration adds a client for each identifier that is new;
* `insertClient_spec`, `assignIdentifier_spec`, `deleteIdentifier_spec`, `deleteClientRows_spec` —
  what a transaction leaves, and when it succeeds.

Not modelled: timestamps, and the text of the error of an identifier that cannot be read.  A
`client_aliases` that is missing is an empty one.
-/

namespace AlderpointDNS.Clients

open Text Ipaddress
open Importer (AliasRows addClient hasIdentifier migrateClientAlias)

/-- A `ClientsError`. -/
inductive ClientsError where
  /-- "client name is required" -/
  | nameRequired
  /-- "client name is too long (200 characters max)" -/
  | nameTooLong
  /-- "description is too long (2000 characters max)" -/
  | descriptionTooLong
  /-- what `normalize_identifier` raises -/
  | malformed
  /-- "identifier '…' is already assigned to another client" -/
  | assigned (value : Str)
  /-- "client not found" -/
  | clientNotFound
  /-- "identifier not found" -/
  | identifierNotFound
  deriving DecidableEq

/-- The tables that the functions write. -/
structure ClientsDb extends ClientTables where
  aliases : AliasRows

/-- A fresh database. -/
def ClientsDb.fresh : ClientsDb :=
  { clients := LegalRows.empty
    identifiers := LegalRows.empty
    accessRules := LegalRows.empty
    aliases := LegalRows.empty }

/-! ## The migration -/

/-- One round of `_migrate_client_aliases`. -/
def migrateAlias (u : UnicodeData) (t : ClientTables) (row : AliasRow) : ClientTables :=
  match normalizeIdentifier u row.cidr with
  | none => t
  | some (kind, value) =>
      if hasIdentifier t.identifiers kind value then t
      else
        -- new ids and a new identifier: neither insertion violates a constraint
        { t with
          clients := (addClient t.clients (orComment row.displayName value) row.description
            true).getD t.clients
          identifiers := (Importer.addIdentifier (nextRowid (t.clients.1.map (·.id)))
            t.identifiers kind value).getD t.identifiers }

/-- `init_db`, as far as it writes clients: `_migrate_client_aliases`, which commits. -/
def initDb (u : UnicodeData) (s : ClientsDb) : ClientsDb :=
  { s with toClientTables := s.aliases.1.foldl (migrateAlias u) s.toClientTables }

/-- The setup of an import does the same to the client tables. -/
theorem migrateClientAlias_eq (u : UnicodeData) (t : Importer.AddedTables) (row : AliasRow) :
    migrateClientAlias u t row =
      { t with
        clients := (migrateAlias u ⟨t.clients, t.identifiers, t.accessRules⟩ row).clients
        identifiers := (migrateAlias u ⟨t.clients, t.identifiers, t.accessRules⟩ row).identifiers
      } := by
  rw [migrateClientAlias, migrateAlias]
  cases normalizeIdentifier u row.cidr with
  | none => rfl
  | some e =>
      dsimp only
      split_ifs
      · rfl
      · rfl

/-! ## The legacy aliases of deleted identifiers -/

/-- `_legacy_alias_cidr`. -/
def legacyAliasCidr (kind : IdentifierKind) (value : Str) : Option Str :=
  if kind = .clientid then none else ipNetworkStr value

/-- `_delete_legacy_aliases_for_identifiers`; `seen` only spares a second deletion. -/
def deleteLegacyAliases (aliases : AliasRows) (identifiers : List Identifier) : AliasRows :=
  identifiers.foldl
    (fun rows i =>
      match legacyAliasCidr i.kind i.value with
      | none => rows
      | some cidr => rows.filter (·.cidr ≠ cidr))
    aliases

/-! ## The transactions

An error rolls the transaction back. -/

/-- `_insert_identifier`. -/
def insertIdentifier (clientId : ℕ) (rows : IdentifierRows) (kind : IdentifierKind)
    (value : Str) : Except ClientsError IdentifierRows :=
  if hasIdentifier rows kind value then .error (.assigned value)
  else .ok ((Importer.addIdentifier clientId rows kind value).getD rows)

/-- The loop of `create_client` over the identifiers. -/
def insertIdentifiers (clientId : ℕ) (normalized : List (IdentifierKind × Str))
    (rows : IdentifierRows) : Except ClientsError IdentifierRows :=
  normalized.foldlM (fun rows e => insertIdentifier clientId rows e.1 e.2) rows

/-- The transaction of `create_client`; the id is that of the new client. -/
def insertClient (name description : Str) (enabled : Bool)
    (normalized : List (IdentifierKind × Str)) (s : ClientsDb) :
    Except ClientsError (ClientsDb × ℕ) := do
  let clientId := nextRowid (s.clients.1.map (·.id))
  let identifiers ← insertIdentifiers clientId normalized s.identifiers
  return ({ s with
    clients := (addClient s.clients name description enabled).getD s.clients
    identifiers := identifiers }, clientId)

/-- The transaction of `add_identifier`; the id is that of the new identifier. -/
def assignIdentifier (clientId : ℕ) (kind : IdentifierKind) (value : Str) (s : ClientsDb) :
    Except ClientsError (ClientsDb × ℕ) :=
  if s.clients.1.all (·.id ≠ clientId) then .error .clientNotFound
  else do
    let identifiers ← insertIdentifier clientId s.identifiers kind value
    return ({ s with identifiers := identifiers }, nextRowid (s.identifiers.1.map (·.id)))

/-- The transaction of `remove_identifier`. -/
def deleteIdentifier (identifierId : ℕ) (s : ClientsDb) :
    Except ClientsError (ClientsDb × Unit) :=
  match s.identifiers.1.find? (·.id = identifierId) with
  | none => .error .identifierNotFound
  | some row =>
      .ok ({ s with
        aliases := deleteLegacyAliases s.aliases [row]
        identifiers := s.identifiers.filter (·.id ≠ identifierId) }, ())

/-- The transaction of `delete_client`. -/
def deleteClientRows (clientId : ℕ) (s : ClientsDb) : Except ClientsError (ClientsDb × Unit) :=
  if s.clients.1.all (·.id ≠ clientId) then .error .clientNotFound
  else
    .ok ({ s with
      aliases := deleteLegacyAliases s.aliases (identifiersOf s.identifiers clientId)
      accessRules := s.accessRules.filter fun rule =>
        !(rule.kind = .client && rule.clientId = some clientId)
      identifiers := s.identifiers.filter (·.clientId ≠ clientId)
      clients := s.clients.filter (·.id ≠ clientId) }, ())

/-- `with db:`. -/
def commit {α : Type} (body : ClientsDb → Except ClientsError (ClientsDb × α)) (s : ClientsDb) :
    ClientsDb × Except ClientsError α :=
  match body s with
  | .error e => (s, .error e)
  | .ok (s', result) => (s', .ok result)

/-! ## What is added -/

theorem hasIdentifier_iff {rows : IdentifierRows} {kind : IdentifierKind} {value : Str} :
    hasIdentifier rows kind value = true ↔ (kind, value) ∈ rows.1.map Identifier.key := by
  simp [hasIdentifier, Identifier.key]

theorem addIdentifier_of_new (clientId : ℕ) {rows : IdentifierRows} {kind : IdentifierKind}
    {value : Str} (h : (kind, value) ∉ rows.1.map Identifier.key) :
    ∃ i : Identifier, i.clientId = clientId ∧ i.key = (kind, value) ∧
      ((Importer.addIdentifier clientId rows kind value).getD rows).1 = rows.1 ++ [i] := by
  have hnew : ∀ r ∈ rows.1, r.key ≠ (kind, value) := fun r hr heq =>
    h (heq ▸ List.mem_map_of_mem hr)
  obtain ⟨rows', hinsert, hrows⟩ := insert_eq_of_fresh clientId hnew
  refine ⟨⟨nextRowid (rows.1.map (·.id)), clientId, kind, value⟩, rfl, rfl, ?_⟩
  rw [Importer.addIdentifier, hinsert, Option.getD_some, hrows]

/-- `_insert_identifier` adds an identifier that nobody has. -/
theorem insertIdentifier_spec {clientId : ℕ} {rows rows' : IdentifierRows} {kind : IdentifierKind}
    {value : Str} (h : insertIdentifier clientId rows kind value = .ok rows') :
    (kind, value) ∉ rows.1.map Identifier.key ∧
      ∃ i : Identifier, i.clientId = clientId ∧ i.key = (kind, value) ∧
        rows'.1 = rows.1 ++ [i] := by
  rw [insertIdentifier] at h
  split_ifs at h with hhas
  have hnew : (kind, value) ∉ rows.1.map Identifier.key := fun hmem =>
    hhas (hasIdentifier_iff.mpr hmem)
  obtain ⟨i, hclient, hkey, hrows⟩ := addIdentifier_of_new clientId hnew
  cases h
  exact ⟨hnew, i, hclient, hkey, hrows⟩

theorem insertIdentifier_of_new (clientId : ℕ) {rows : IdentifierRows} {kind : IdentifierKind}
    {value : Str} (h : (kind, value) ∉ rows.1.map Identifier.key) :
    ∃ rows', insertIdentifier clientId rows kind value = .ok rows' :=
  ⟨_, if_neg fun hhas => h (hasIdentifier_iff.mp hhas)⟩

theorem insertIdentifiers_spec {clientId : ℕ} {normalized : List (IdentifierKind × Str)}
    {rows rows' : IdentifierRows} (h : insertIdentifiers clientId normalized rows = .ok rows') :
    ∃ added, rows'.1 = rows.1 ++ added ∧ (∀ i ∈ added, i.clientId = clientId) ∧
      added.map Identifier.key = normalized := by
  induction normalized generalizing rows with
  | nil =>
      cases h
      exact ⟨[], (List.append_nil _).symm, by simp, rfl⟩
  | cons e normalized ih =>
      rw [insertIdentifiers, List.foldlM_cons] at h
      cases hfirst : insertIdentifier clientId rows e.1 e.2 with
      | error err =>
          rw [hfirst] at h
          cases h
      | ok next =>
          rw [hfirst] at h
          obtain ⟨-, i, hclient, hkey, hnext⟩ := insertIdentifier_spec hfirst
          obtain ⟨added, hrows, howner, hkeys⟩ := ih h
          refine ⟨i :: added, ?_, ?_, ?_⟩
          · rw [hrows, hnext, List.append_assoc, List.singleton_append]
          · exact List.forall_mem_cons.mpr ⟨hclient, howner⟩
          · rw [List.map_cons, hkeys, hkey]

theorem insertIdentifiers_of_new (clientId : ℕ) {normalized : List (IdentifierKind × Str)}
    {rows : IdentifierRows} (hnodup : normalized.Nodup)
    (hnew : ∀ e ∈ normalized, e ∉ rows.1.map Identifier.key) :
    ∃ rows', insertIdentifiers clientId normalized rows = .ok rows' := by
  induction normalized generalizing rows with
  | nil => exact ⟨rows, rfl⟩
  | cons e normalized ih =>
      obtain ⟨he, hnodup⟩ := List.nodup_cons.mp hnodup
      obtain ⟨hfirst, hrest⟩ := List.forall_mem_cons.mp hnew
      obtain ⟨next, hnext⟩ := insertIdentifier_of_new clientId hfirst
      obtain ⟨-, i, -, hkey, hrows⟩ := insertIdentifier_spec hnext
      have hnew' : ∀ e' ∈ normalized, e' ∉ next.1.map Identifier.key := by
        intro e' he' hmem
        rw [hrows, List.map_append, List.mem_append, List.map_singleton, List.mem_singleton,
          hkey] at hmem
        rcases hmem with hmem | rfl
        · exact hrest e' he' hmem
        · exact he he'
      obtain ⟨rows', hrows'⟩ := ih hnodup hnew'
      refine ⟨rows', ?_⟩
      rw [insertIdentifiers, List.foldlM_cons, hnext]
      exact hrows'

/-- What the migration adds: a client with one identifier for each identifier that is new. -/
structure Migrated (u : UnicodeData) (rows : List AliasRow) (t t' : ClientTables)
    (clients : List Client) (added : List Identifier) : Prop where
  clients_eq : t'.clients.1 = t.clients.1 ++ clients
  identifiers_eq : t'.identifiers.1 = t.identifiers.1 ++ added
  owners : added.map (·.clientId) = clients.map (·.id)
  keys : ∀ e, e ∈ added.map Identifier.key ↔
    e ∉ t.identifiers.1.map Identifier.key ∧ ∃ row ∈ rows, normalizeIdentifier u row.cidr = some e

/-- One alias. -/
theorem migrateAlias_spec (u : UnicodeData) (t : ClientTables) (row : AliasRow) :
    ∃ clients added, Migrated u [row] t (migrateAlias u t row) clients added := by
  rw [migrateAlias]
  cases hread : normalizeIdentifier u row.cidr with
  | none => exact ⟨[], [], by simp, by simp, rfl, by simp [hread]⟩
  | some e =>
      obtain ⟨kind, value⟩ := e
      dsimp only
      split_ifs with hhas
      · refine ⟨[], [], by simp, by simp, rfl, fun e => ?_⟩
        have hmem := hasIdentifier_iff.mp hhas
        simp only [List.map_nil, List.not_mem_nil, List.mem_singleton, exists_eq_left, hread,
          Option.some.injEq, false_iff, not_and]
        rintro hnew rfl
        exact hnew hmem
      · have hnew : (kind, value) ∉ t.identifiers.1.map Identifier.key := fun hmem =>
          hhas (hasIdentifier_iff.mpr hmem)
        obtain ⟨i, hclient, hkey, hrows⟩ :=
          addIdentifier_of_new (nextRowid (t.clients.1.map (·.id))) hnew
        refine ⟨_, [i], Importer.addClient_rows _ _ _ _, hrows, ?_, fun e => ?_⟩
        · rw [List.map_singleton, List.map_singleton, hclient]
        · simp only [List.map_singleton, List.mem_singleton, exists_eq_left, hread,
            Option.some.injEq, hkey]
          constructor
          · rintro rfl
            exact ⟨hnew, rfl⟩
          · rintro ⟨-, rfl⟩
            rfl

/-- **The migration adds a client for each new identifier among the aliases.** -/
theorem migrateAliases_spec (u : UnicodeData) (rows : List AliasRow) (t : ClientTables) :
    ∃ clients added, Migrated u rows t (rows.foldl (migrateAlias u) t) clients added := by
  induction rows generalizing t with
  | nil => exact ⟨[], [], by simp, by simp, rfl, by simp⟩
  | cons row rows ih =>
      obtain ⟨clients₁, added₁, h₁⟩ := migrateAlias_spec u t row
      obtain ⟨clients₂, added₂, h₂⟩ := ih (migrateAlias u t row)
      refine ⟨clients₁ ++ clients₂, added₁ ++ added₂, ?_, ?_, ?_, fun e => ?_⟩
      · rw [List.foldl_cons, h₂.clients_eq, h₁.clients_eq, List.append_assoc]
      · rw [List.foldl_cons, h₂.identifiers_eq, h₁.identifiers_eq, List.append_assoc]
      · rw [List.map_append, List.map_append, h₁.owners, h₂.owners]
      · have hkeys₂ := h₂.keys e
        rw [h₁.identifiers_eq, List.map_append, List.mem_append, not_or, h₁.keys e] at hkeys₂
        rw [List.map_append, List.mem_append, h₁.keys e, hkeys₂]
        simp only [List.mem_cons, exists_eq_or_imp]
        tauto

/-! ## What a transaction leaves -/

theorem insertClient_spec {name description : Str} {enabled : Bool}
    {normalized : List (IdentifierKind × Str)} {s s' : ClientsDb} {id : ℕ}
    (h : insertClient name description enabled normalized s = .ok (s', id)) :
    s'.clients.1 = s.clients.1 ++ [⟨id, name, description, enabled⟩] ∧
      id = nextRowid (s.clients.1.map (·.id)) ∧
      insertIdentifiers id normalized s.identifiers = .ok s'.identifiers := by
  rw [insertClient] at h
  cases hloop : insertIdentifiers (nextRowid (s.clients.1.map (·.id))) normalized
      s.identifiers with
  | error e =>
      rw [hloop] at h
      cases h
  | ok identifiers =>
      rw [hloop] at h
      cases h
      exact ⟨Importer.addClient_rows _ _ _ _, rfl, hloop⟩

/-- A client is created when its identifiers are new and distinct. -/
theorem insertClient_of_new (name description : Str) (enabled : Bool)
    {normalized : List (IdentifierKind × Str)} {s : ClientsDb} (hnodup : normalized.Nodup)
    (hnew : ∀ e ∈ normalized, e ∉ s.identifiers.1.map Identifier.key) :
    ∃ s' id, insertClient name description enabled normalized s = .ok (s', id) := by
  obtain ⟨rows', hloop⟩ :=
    insertIdentifiers_of_new (nextRowid (s.clients.1.map (·.id))) hnodup hnew
  rw [insertClient, hloop]
  exact ⟨_, _, rfl⟩

theorem assignIdentifier_spec {clientId id : ℕ} {kind : IdentifierKind} {value : Str}
    {s s' : ClientsDb} (h : assignIdentifier clientId kind value s = .ok (s', id)) :
    s'.clients = s.clients ∧ clientId ∈ s.clients.1.map (·.id) ∧
      insertIdentifier clientId s.identifiers kind value = .ok s'.identifiers := by
  rw [assignIdentifier] at h
  split_ifs at h with hmissing
  have hclient : clientId ∈ s.clients.1.map (·.id) := by simpa using hmissing
  cases hinsert : insertIdentifier clientId s.identifiers kind value with
  | error e =>
      rw [hinsert] at h
      cases h
  | ok identifiers =>
      rw [hinsert] at h
      cases h
      exact ⟨rfl, hclient, rfl⟩

theorem assignIdentifier_of_new {clientId : ℕ} {kind : IdentifierKind} {value : Str}
    {s : ClientsDb} (hclient : clientId ∈ s.clients.1.map (·.id))
    (hnew : (kind, value) ∉ s.identifiers.1.map Identifier.key) :
    ∃ s' id, assignIdentifier clientId kind value s = .ok (s', id) := by
  obtain ⟨rows', hinsert⟩ := insertIdentifier_of_new clientId hnew
  have hexists : ¬s.clients.1.all (·.id ≠ clientId) = true := by simpa using hclient
  rw [assignIdentifier, if_neg hexists, hinsert]
  exact ⟨_, _, rfl⟩

theorem deleteIdentifier_spec {identifierId : ℕ} {s s' : ClientsDb}
    (h : deleteIdentifier identifierId s = .ok (s', ())) :
    s'.clients = s.clients ∧ s'.identifiers = s.identifiers.filter (·.id ≠ identifierId) := by
  rw [deleteIdentifier] at h
  split at h
  · cases h
  · cases h
    exact ⟨rfl, rfl⟩

theorem deleteClientRows_spec {clientId : ℕ} {s s' : ClientsDb}
    (h : deleteClientRows clientId s = .ok (s', ())) :
    s'.clients = s.clients.filter (·.id ≠ clientId) ∧
      s'.identifiers = s.identifiers.filter (·.clientId ≠ clientId) := by
  rw [deleteClientRows] at h
  split_ifs at h
  cases h
  exact ⟨rfl, rfl⟩

/-- A transaction that raises leaves the state, and one that does not leaves what it wrote. -/
theorem commit_cases {α : Type} (body : ClientsDb → Except ClientsError (ClientsDb × α))
    (s : ClientsDb) :
    (commit body s).1 = s ∧ (∀ s' result, body s ≠ .ok (s', result)) ∨
      ∃ s' result, body s = .ok (s', result) ∧ (commit body s).1 = s' := by
  rw [commit]
  cases body s with
  | error e => exact Or.inl ⟨rfl, fun s' result h => by cases h⟩
  | ok r => exact Or.inr ⟨r.1, r.2, rfl, rfl⟩

/-! ## The calls

A call returns the state that it leaves, and its result. -/

/-- What `create_client` checks of its texts; the result is the stripped name. -/
def checkTexts (name description : Str) : Except ClientsError Str :=
  if strip name = [] then .error .nameRequired
  else if 200 < (strip name).length then .error .nameTooLong
  else if 2000 < description.length then .error .descriptionTooLong
  else .ok (strip name)

/-- `create_client`. -/
def createClient (u : UnicodeData) (name description : Str) (identifiers : List Str)
    (enabled : Bool) (s : ClientsDb) : ClientsDb × Except ClientsError ℕ :=
  match checkTexts name description, identifiers.mapM (normalizeIdentifier u) with
  | .error e, _ => (s, .error e)
  | .ok _, none => (s, .error .malformed)
  | .ok name, some normalized =>
      commit (insertClient name description enabled normalized) (initDb u s)

/-- `add_identifier`. -/
def addIdentifier (u : UnicodeData) (clientId : ℕ) (rawValue : Str) (s : ClientsDb) :
    ClientsDb × Except ClientsError ℕ :=
  match normalizeIdentifier u rawValue with
  | none => (s, .error .malformed)
  | some (kind, value) => commit (assignIdentifier clientId kind value) (initDb u s)

/-- `remove_identifier`. -/
def removeIdentifier (u : UnicodeData) (identifierId : ℕ) (s : ClientsDb) :
    ClientsDb × Except ClientsError Unit :=
  commit (deleteIdentifier identifierId) (initDb u s)

/-- `delete_client`. -/
def deleteClient (u : UnicodeData) (clientId : ℕ) (s : ClientsDb) :
    ClientsDb × Except ClientsError Unit :=
  commit (deleteClientRows clientId) (initDb u s)

/-! ## Histories -/

/-- What changes the database: the migration, a transaction of one of the calls, and what Local
DNS, an import or replication writes to `client_aliases`. -/
inductive RegistryStep where
  | migrate
  | insertClient (name description : Str) (enabled : Bool) (identifiers : List Str)
  | assignIdentifier (clientId : ℕ) (rawValue : Str)
  | deleteIdentifier (identifierId : ℕ)
  | deleteClient (clientId : ℕ)
  | writeAliases (aliases : AliasRows)

/-- What a step leaves. -/
def RegistryStep.apply (u : UnicodeData) (s : ClientsDb) : RegistryStep → ClientsDb
  | .migrate => initDb u s
  | .insertClient name description enabled identifiers =>
      match identifiers.mapM (normalizeIdentifier u) with
      | none => s
      | some normalized => (commit (Clients.insertClient name description enabled normalized) s).1
  | .assignIdentifier clientId rawValue =>
      match normalizeIdentifier u rawValue with
      | none => s
      | some (kind, value) => (commit (Clients.assignIdentifier clientId kind value) s).1
  | .deleteIdentifier identifierId => (commit (Clients.deleteIdentifier identifierId) s).1
  | .deleteClient clientId => (commit (deleteClientRows clientId) s).1
  | .writeAliases aliases => { s with aliases := aliases }

/-- A step is always possible. -/
def registryStep (u : UnicodeData) (s : ClientsDb) (a : RegistryStep) : Option ClientsDb :=
  some (a.apply u s)

section Calls

variable (u : UnicodeData) (s : ClientsDb)

/-- A call of `create_client` is a run of at most two steps, and so are the others. -/
theorem createClient_run (name description : Str) (identifiers : List Str) (enabled : Bool) :
    ∃ steps, Runs.run (registryStep u) s steps
      = some (createClient u name description identifiers enabled s).1 := by
  rw [createClient]
  cases checkTexts name description with
  | error e => exact ⟨[], rfl⟩
  | ok name' =>
      cases hread : identifiers.mapM (normalizeIdentifier u) with
      | none => exact ⟨[], rfl⟩
      | some normalized =>
          refine ⟨[.migrate, .insertClient name' description enabled identifiers], ?_⟩
          simp [Runs.run, registryStep, RegistryStep.apply, hread]

theorem addIdentifier_run (clientId : ℕ) (rawValue : Str) :
    ∃ steps, Runs.run (registryStep u) s steps = some (addIdentifier u clientId rawValue s).1 := by
  rw [addIdentifier]
  cases hread : normalizeIdentifier u rawValue with
  | none => exact ⟨[], rfl⟩
  | some e =>
      refine ⟨[.migrate, .assignIdentifier clientId rawValue], ?_⟩
      simp [Runs.run, registryStep, RegistryStep.apply, hread]

theorem removeIdentifier_run (identifierId : ℕ) :
    Runs.run (registryStep u) s [.migrate, .deleteIdentifier identifierId]
      = some (removeIdentifier u identifierId s).1 := rfl

theorem deleteClient_run (clientId : ℕ) :
    Runs.run (registryStep u) s [.migrate, .deleteClient clientId]
      = some (deleteClient u clientId s).1 := rfl

end Calls

end AlderpointDNS.Clients
