import AlderpointDNS.Lib.Tables
import AlderpointDNS.Lib.Dict
import AlderpointDNS.Lib.Text

/-!
# Clients, identifiers and access rules

The three tables of `clients.py`, each a list of rows in rowid order that carries its
constraints, and the two sections they are replicated as.  A client rule names its client by id
in the table and by name in the section: `buildClientsSection` and `buildAccessRulesSection`
write names, and `importClientTables` (the body of `_apply_clients_access_sections`) gives new
ids to the received clients and looks the names up again.

Not modelled: timestamps.
-/

namespace AlderpointDNS

open Text

/-- The `action` of an access rule, and `default_policy`. -/
inductive AllowDeny where
  | allow
  | deny
  deriving DecidableEq

/-- `IdentifierKind`. -/
inductive IdentifierKind where
  | ipv4
  | ipv4Cidr
  | ipv6
  | ipv6Cidr
  | clientid
  deriving DecidableEq

/-- `RuleKind`: an identifier, or a persistent client. -/
inductive RuleKind where
  | identifier (kind : IdentifierKind)
  | client
  deriving DecidableEq

/-- A row of `clients`. -/
structure Client where
  id : ℕ
  name : Str
  description : Str
  enabled : Bool
  deriving DecidableEq

/-- A row of `client_identifiers`. -/
structure Identifier where
  id : ℕ
  clientId : ℕ
  kind : IdentifierKind
  value : Str
  deriving DecidableEq

/-- A row of `access_rules`. -/
structure AccessRule where
  id : ℕ
  action : AllowDeny
  kind : RuleKind
  value : Option Str
  clientId : Option ℕ
  deriving DecidableEq

/-- Rows come in the order of their ids. -/
def clientConflict (r s : Client) : Bool := !(r.id < s.id)

/-- `UNIQUE(kind, value)`. -/
def identifierConflict (r s : Identifier) : Bool :=
  !(r.id < s.id) || (r.kind = s.kind && r.value = s.value)

/-- `UNIQUE(action, kind, value, client_id)`, in which two `NULL`s differ. -/
def ruleConflict (r s : AccessRule) : Bool :=
  !(r.id < s.id) || (r.value.isSome && r.clientId.isSome && r.action = s.action
    && r.kind = s.kind && r.value = s.value && r.clientId = s.clientId)

abbrev ClientRows := LegalRows clientConflict
abbrev IdentifierRows := LegalRows identifierConflict
abbrev RuleRows := LegalRows ruleConflict

/-! ## The sections -/

/-- An entry of `"identifiers"`; `kind` is `none` when it is not one of the kinds. -/
structure IdentifierEntry where
  kind : Option IdentifierKind
  value : Str
  deriving DecidableEq

/-- An entry of `sections["clients"]`. -/
structure ClientEntry where
  name : Str
  description : Str
  enabled : Bool
  identifiers : List IdentifierEntry
  deriving DecidableEq

/-- An entry of `sections["client_access_rules"]`; `action` and `kind` are `none` when the
column's `CHECK` rejects them. -/
structure RuleEntry where
  action : Option AllowDeny
  kind : Option RuleKind
  value : Option Str
  clientName : Option Str
  deriving DecidableEq

/-- The identifiers of a client, in rowid order. -/
def identifiersOf (identifiers : IdentifierRows) (clientId : ℕ) : List Identifier :=
  identifiers.1.filter (·.clientId = clientId)

/-- `_build_clients_section`. -/
def buildClientsSection (clients : ClientRows) (identifiers : IdentifierRows) :
    List ClientEntry :=
  clients.1.map fun client =>
    { name := client.name
      description := client.description
      enabled := client.enabled
      identifiers := (identifiersOf identifiers client.id).map fun i => ⟨some i.kind, i.value⟩ }

/-- `clients.id = access_rules.client_id`. -/
def ruleClient (clients : ClientRows) (rule : AccessRule) : Option Client :=
  rule.clientId.bind fun id => clients.1.find? (·.id = id)

/-- `_build_access_rules_section`. -/
def buildAccessRulesSection (clients : ClientRows) (rules : RuleRows) : List RuleEntry :=
  rules.1.map fun rule =>
    { action := some rule.action
      kind := some rule.kind
      value := rule.value
      clientName := (ruleClient clients rule).map (·.name) }

/-! ## Importing the sections -/

/-- The three tables. -/
structure ClientTables where
  clients : ClientRows
  identifiers : IdentifierRows
  accessRules : RuleRows

/-- `INSERT OR IGNORE INTO client_identifiers`: a kind or value that is missing is skipped, and
so is an identifier that exists. -/
def insertIdentifier (clientId : ℕ) (rows : IdentifierRows) (entry : IdentifierEntry) :
    IdentifierRows :=
  match entry.kind with
  | none => rows
  | some kind =>
      if entry.value = [] then rows
      else (rows.insert ⟨nextRowid (rows.1.map (·.id)), clientId, kind, entry.value⟩).getD rows

/-- The tables and `name_to_id` while the clients are inserted. -/
structure ClientImport where
  clients : ClientRows := LegalRows.empty
  identifiers : IdentifierRows := LegalRows.empty
  nameToId : Dict Str ℕ := ∅

/-- One round of the loop over the clients. -/
def importClient (state : ClientImport) (entry : ClientEntry) : Option ClientImport :=
  let name := strip entry.name
  if name = [] then some state
  else
    let clientId := nextRowid (state.clients.1.map (·.id))
    (state.clients.insert ⟨clientId, name, entry.description, entry.enabled⟩).map fun clients =>
      { clients := clients
        identifiers := entry.identifiers.foldl (insertIdentifier clientId) state.identifiers
        nameToId := state.nameToId.insert name clientId }

/-- The loop over the clients. -/
def importClients (entries : List ClientEntry) : Option ClientImport :=
  entries.foldlM importClient {}

/-- One round of the loop over the rules. -/
def importRule (nameToId : Dict Str ℕ) (rows : RuleRows) (entry : RuleEntry) : Option RuleRows :=
  let insert (clientId : Option ℕ) : Option RuleRows :=
    match entry.action, entry.kind with
    | some action, some kind =>
        rows.insert ⟨nextRowid (rows.1.map (·.id)), action, kind, entry.value, clientId⟩
    | _, _ => none
  if entry.kind = some .client then
    match nameToId.lookup (entry.clientName.getD []) with
    | none => some rows
    | some clientId => insert (some clientId)
  else insert none

/-- `_apply_clients_access_sections` on existing tables: what it fills the emptied tables with,
`none` when a constraint fails. -/
def importClientTables (clients : List ClientEntry) (rules : List RuleEntry) :
    Option ClientTables := do
  let state ← importClients clients
  let accessRules ← rules.foldlM (importRule state.nameToId) LegalRows.empty
  return ⟨state.clients, state.identifiers, accessRules⟩

end AlderpointDNS
