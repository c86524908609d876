import AlderpointDNS.Lib.Upsert
import AlderpointDNS.Replication.Legacy
import AlderpointDNS.Clients.Access
import AlderpointDNS.Clients.Identifiers
import AlderpointDNS.LocalDns.Records
import AlderpointDNS.Upstream.Resolvers

/-!
# The items of an import

What each kind of item of a migration plan does to the destination tables: `applyItem`, which is
`none` where the code raises.  Sources and aliases are overwritten by name and by network, rows of
the other tables are only added.

* `Applied` — what items do: the sources and the aliases are updated in order, and no row is added
  just when each item finds in the tables what it would add;
* **`applyItem_spec`**, `Applied.append` — for one item, and for items one after the other.

Not modelled: the counters and `rollback_info`, the import job id of a rule, the timestamps that
the tables do not have in the other modules, and that the clock moves during a call.  A table that
is missing is an empty one.
-/

namespace AlderpointDNS.Importer

open Text Ipaddress

/-! ## The tables -/

abbrev SourceRows := KeyedRows SourceRow.name
abbrev AliasRows := KeyedRows AliasRow.cidr

/-- The tables to which an import only adds rows. -/
structure AddedTables where
  customRules : List FilterRow
  localDns : LocalDns.RecordRows
  upstreams : Upstream.ResolverTable
  clients : ClientRows
  identifiers : IdentifierRows
  accessRules : RuleRows

/-- The number of rows. -/
def AddedTables.size (t : AddedTables) : ℕ :=
  t.customRules.length + t.localDns.1.length + t.upstreams.rows.length + t.clients.1.length
    + t.identifiers.1.length + t.accessRules.1.length

/-- The destination tables. -/
structure Destination extends AddedTables where
  sources : SourceRows
  aliases : AliasRows
  /-- `default_policy` of `access_settings`, `allow` without a row -/
  defaultPolicy : AllowDeny

/-! ## The entries of a translation

A field that is missing has the default of its `get`. -/

/-- What the import takes from Python's tables. -/
structure ImportData extends ParserData where
  /-- `ip_address(...).is_private`. -/
  isPrivate : IpAddress → Bool

def ImportData.localData (d : ImportData) : LocalDns.LocalDnsData :=
  { d.toUnicodeData with isPrivate := d.isPrivate }

/-- What the items of one job share. -/
structure ImportContext where
  data : ImportData
  sourceSystem : Str
  sourceLabel : Str
  /-- `plan["domain"]` -/
  domain : Str
  now : Str

/-- `f"imported from {source_label}"`. -/
def ImportContext.importedFrom (ctx : ImportContext) : Str :=
  "imported from ".toList ++ ctx.sourceLabel

/-- An entry of `"blocklist_sources"`. -/
structure SourceEntry where
  name : Str := []
  url : Str := []
  category : Str := "ads_trackers".toList
  enabled : Bool := true

/-- An entry of `_rule_entries`. -/
structure CustomRuleEntry where
  rule : Str
  plainDomainSubdomains : Bool
  comment : Str

/-- An entry of `"rewrites_as_local_dns"`. -/
structure RecordEntry where
  fqdn : Str := []
  recordType : Str := []
  value : Str := []
  /-- what `int` makes of it; `some 0` for every value that is false, and when it is missing -/
  ttl : Option ℤ := some 0
  enabled : Bool := true

/-- An entry of `"upstream_resolvers"`: what `validate_resolver` returns of it. -/
abbrev ResolverEntry := Option (Upstream.Settings × Bool)

/-- An entry of `"clients_as_aliases"`. -/
structure AliasEntry where
  cidrOrIp : Str := []
  displayName : Str := []

/-- An entry of `"identifiers"`. -/
structure ImportedIdentifier where
  kind : Str := []
  value : Str := []

/-- An entry of `"clients_full"`. -/
structure FullClientEntry where
  name : Str := []
  description : Str := []
  enabled : Bool := true
  identifiers : List ImportedIdentifier := []

/-- An entry of `"access_allowed"` and `"access_denied"`. -/
structure AccessEntry where
  kind : Str := []
  value : Str := []
  clientName : Str := []

/-! ## Sources and aliases -/

/-- `_apply_source_item`: update by name, skip a known URL, insert. -/
def sourceWriter : RowWriter SourceRow SourceEntry Str where
  key := SourceRow.name
  target source := (strip source.name).take 120
  write source row :=
    { row with
      url := strip source.url
      enabled := source.enabled
      category := orComment (strip source.category) "ads_trackers".toList }
  fresh source :=
    { name := (strip source.name).take 120
      url := strip source.url
      enabled := source.enabled
      category := orComment (strip source.category) "ads_trackers".toList }
  skip source rows := rows.any fun row => row.url = strip source.url
  key_write _ _ := rfl
  key_fresh _ := rfl
  write_write _ _ _ := rfl

/-- `_apply_source_item`. -/
def applySourceItem (sources : SourceRows) (source : SourceEntry) : SourceRows :=
  sourceWriter.upsert sources source

/-- A valid alias entry, as it is written. -/
structure AliasUpdate where
  cidr : Str
  displayName : Str
  description : Str
  now : Str

/-- `INSERT ... ON CONFLICT(cidr) DO UPDATE`. -/
def aliasWriter : RowWriter AliasRow AliasUpdate Str where
  key := AliasRow.cidr
  target := AliasUpdate.cidr
  write u row :=
    { row with displayName := u.displayName, description := u.description, updatedAt := u.now }
  fresh u := ⟨u.cidr, u.displayName, u.description, u.now, u.now⟩
  skip _ _ := false
  key_write _ _ := rfl
  key_fresh _ := rfl
  write_write _ _ _ := rfl

/-- The network and the display name of an alias entry; `none` is an error. -/
def aliasUpdate (ctx : ImportContext) (client : AliasEntry) : Option AliasUpdate :=
  (ipNetworkStr (strip client.cidrOrIp)).bind fun network =>
    if strip client.displayName = [] then none
    else some ⟨network, strip client.displayName, ctx.importedFrom, ctx.now⟩

/-- `_apply_alias_item`. -/
def applyAliasItem (ctx : ImportContext) (aliases : AliasRows) (client : AliasEntry) :
    Option AliasRows :=
  (aliasUpdate ctx client).map (aliasWriter.upsert aliases)

/-! ## Rules and records -/

/-- `custom_rules.add_rule` on the connection of the import. -/
def applyRuleItem (ctx : ImportContext) (rows : List FilterRow) (entry : CustomRuleEntry) :
    List FilterRow :=
  insertText ctx.data.toParserData ctx.now ctx.sourceSystem
    (orComment entry.comment ctx.importedFrom) true entry.plainDomainSubdomains rows entry.rule

/-- `normalize_fqdn`. -/
def normalizeFqdn (u : UnicodeData) (value domain : Str) : Option LocalDns.Domain :=
  let fqdn := u.toLower (stripBy (· = '.') (strip value))
  if domain ≠ [] ∧ '.' ∉ fqdn then
    (LocalDns.validateLabel u fqdn).bind fun label =>
      LocalDns.normalizeDomain u (label.1 ++ '.' :: domain)
  else LocalDns.normalizeDomain u fqdn

/-- `RECORD_TYPES`. -/
def recordTypeOf (text : Str) : Option RecordType :=
  if text = "A".toList then some .a
  else if text = "AAAA".toList then some .aaaa
  else if text = "PTR".toList then some .ptr
  else if text = "CNAME".toList then some .cname
  else none

/-- What `validate_record` returns. -/
structure ValidRecord where
  recordType : RecordType
  name : LocalDns.Domain
  value : Str
  ttl : ℕ

/-- `validate_record`. -/
def validateRecord (d : ParserData) (recordType fqdn value : Str) (ttl : Option ℤ) :
    Option ValidRecord := do
  let recordType ← recordTypeOf (d.toUpper (strip recordType))
  let name ← LocalDns.normalizeDomain d.toUnicodeData fqdn
  let ttl ← LocalDns.validateTtl ttl
  let value ← LocalDns.validateValue d.toUnicodeData recordType value
  return ⟨recordType, name, value, ttl⟩

/-- The valid record of an entry; `none` is an error. -/
def importedRecord (ctx : ImportContext) (record : RecordEntry) : Option ValidRecord :=
  (normalizeFqdn ctx.data.toUnicodeData record.fqdn ctx.domain).bind fun fqdn =>
    validateRecord ctx.data.toParserData record.recordType fqdn.1 record.value
      -- `record.get("ttl", 300) or 300`
      (if record.ttl = some 0 then some 300 else record.ttl)

/-- `_apply_local_dns_record`. -/
def applyLocalDnsRecord (ctx : ImportContext) (rows : LocalDns.RecordRows) (record : RecordEntry) :
    Option LocalDns.RecordRows := do
  let valid ← importedRecord ctx record
  let _ ← LocalDns.recordFindings ctx.data.localData rows.1 valid.name.1 valid.recordType
    valid.value none
  -- `INSERT OR IGNORE`
  return (rows.insert (LocalDns.newRecord (LocalDns.nextId rows.1) valid.recordType valid.name
    valid.value valid.ttl ctx.importedFrom record.enabled)).getD rows

/-! ## Upstream resolvers -/

/-- `(protocol, address, port, doh_path)` is the same. -/
def sameServer (a b : Upstream.Settings) : Bool :=
  a.protocol = b.protocol && a.address = b.address && a.port = b.port && a.dohPath = b.dohPath

/-- A row for the server exists. -/
def hasServer (t : Upstream.ResolverTable) (settings : Upstream.Settings) : Bool :=
  t.rows.any fun row => sameServer settings row.settings

/-- `INSERT INTO upstream_resolvers`. -/
def addResolver (t : Upstream.ResolverTable) (settings : Upstream.Settings) (enabled : Bool)
    (position : ℕ) : Upstream.ResolverTable where
  rows := t.rows ++ [⟨nextRowid (t.rows.map (·.id)), settings, enabled, position⟩]
  key := by
    rw [List.map_append, List.map_singleton, List.nodup_append]
    refine ⟨t.key, List.nodup_singleton _, fun id hid id' hid' => ?_⟩
    rw [List.mem_singleton.mp hid']
    exact (lt_nextRowid hid).ne

/-- `_insert_upstream_resolvers` of one resolver. -/
def insertUpstreamResolver (t : Upstream.ResolverTable) (resolver : ResolverEntry) :
    Upstream.ResolverTable :=
  match resolver with
  | none => t
  | some (settings, enabled) =>
      if hasServer t settings then t
      else addResolver t settings enabled (nextRowid (t.rows.map (·.position)))

/-! ## Clients and access rules -/

/-- The kinds that the `CHECK` of `client_identifiers` knows. -/
def identifierKindOf (text : Str) : Option IdentifierKind :=
  [IdentifierKind.ipv4, .ipv4Cidr, .ipv6, .ipv6Cidr, .clientid].find? (·.text = text)

/-- A row with the kind and the value exists. -/
def hasIdentifier (rows : IdentifierRows) (kind : IdentifierKind) (value : Str) : Bool :=
  rows.1.any fun row => row.kind = kind && row.value = value

/-- `INSERT INTO client_identifiers`. -/
def addIdentifier (clientId : ℕ) (rows : IdentifierRows) (kind : IdentifierKind) (value : Str) :
    Option IdentifierRows :=
  rows.insert ⟨nextRowid (rows.1.map (·.id)), clientId, kind, value⟩

/-- One round of the loop over the identifiers: an unknown kind violates the `CHECK`. -/
def importIdentifier (clientId : ℕ) (rows : IdentifierRows) (identifier : ImportedIdentifier) :
    Option IdentifierRows :=
  if identifier.kind = [] ∨ identifier.value = [] then some rows
  else match identifierKindOf identifier.kind with
    | none => none
    | some kind =>
        if hasIdentifier rows kind identifier.value then some rows
        else addIdentifier clientId rows kind identifier.value

/-- `INSERT INTO clients`. -/
def addClient (rows : ClientRows) (name description : Str) (enabled : Bool) : Option ClientRows :=
  rows.insert ⟨nextRowid (rows.1.map (·.id)), name, description, enabled⟩

/-- `_apply_client_full_item`. -/
def applyClientFullItem (ctx : ImportContext) (t : AddedTables) (client : FullClientEntry) :
    Option AddedTables :=
  if strip client.name = [] then none
  else do
    let clients ← addClient t.clients (strip client.name)
      (orComment client.description ctx.importedFrom) client.enabled
    let identifiers ← client.identifiers.foldlM
      (importIdentifier (nextRowid (t.clients.1.map (·.id)))) t.identifiers
    return { t with clients := clients, identifiers := identifiers }

/-- `_client_id_by_unique_name`. -/
def clientIdByUniqueName (clients : ClientRows) (name : Str) : Option ℕ :=
  match clients.1.filter (·.name = name) with
  | [client] => some client.id
  | _ => none

/-- The columns of an access rule. -/
structure RuleColumns where
  kind : RuleKind
  value : Option Str
  clientId : Option ℕ

/-- What the row of an imported access rule contains: `some none` where there is none to write,
`none` where the client is missing or ambiguous. -/
def ruleColumns (clients : ClientRows) (rule : AccessEntry) : Option (Option RuleColumns) :=
  if rule.kind = RuleKind.client.text then
    if strip rule.clientName = [] then some none
    else (clientIdByUniqueName clients (strip rule.clientName)).map fun id =>
      some ⟨.client, none, some id⟩
  else match identifierKindOf rule.kind with
    | none => some none
    | some kind => if rule.value = [] then some none
        else some (some ⟨.identifier kind, some rule.value, none⟩)

/-- The access rule exists. -/
def hasAccessRule (rules : RuleRows) (action : AllowDeny) (columns : RuleColumns) : Bool :=
  rules.1.any fun row => row.action = action && row.kind = columns.kind
    && row.value = columns.value && row.clientId = columns.clientId

/-- `_apply_access_rule_item`, and whether it has made a rule. -/
def applyAccessRuleItem (clients : ClientRows) (rules : RuleRows) (action : AllowDeny)
    (rule : AccessEntry) : Option (RuleRows × Bool) :=
  (ruleColumns clients rule).bind fun columns? => match columns? with
    | none => some (rules, false)
    | some columns =>
        if hasAccessRule rules action columns then some (rules, false)
        else (rules.insert ⟨nextRowid (rules.1.map (·.id)), action, columns.kind, columns.value,
          columns.clientId⟩).map (·, true)

/-! ## One item -/

/-- An item of the plan, with the entry that its index names. -/
inductive Item where
  | source (source : SourceEntry)
  | rule (entry : CustomRuleEntry)
  | localDns (record : RecordEntry)
  | upstream (resolver : ResolverEntry)
  | clientAlias (client : AliasEntry)
  | client (client : FullClientEntry)
  | access (action : AllowDeny) (rule : AccessEntry)

/-- The tables, and `access_layer_touched`. -/
abbrev Progress := Destination × Bool

/-- The client has a ClientID. -/
def FullClientEntry.hasClientid (client : FullClientEntry) : Bool :=
  client.identifiers.any (·.kind = IdentifierKind.clientid.text)

/-- One round of the loop over the items. -/
def applyItem (ctx : ImportContext) (t : Destination) (touched : Bool) : Item → Option Progress
  | .source source => some ({ t with sources := applySourceItem t.sources source }, touched)
  | .rule entry => some ({ t with customRules := applyRuleItem ctx t.customRules entry }, touched)
  | .localDns record => (applyLocalDnsRecord ctx t.localDns record).map fun localDns =>
      ({ t with localDns := localDns }, touched)
  | .upstream resolver =>
      some ({ t with upstreams := insertUpstreamResolver t.upstreams resolver }, touched)
  | .clientAlias client => (applyAliasItem ctx t.aliases client).map fun aliases =>
      ({ t with aliases := aliases }, touched)
  | .client client => (applyClientFullItem ctx t.toAddedTables client).map fun added =>
      ({ t with toAddedTables := added }, touched || client.hasClientid)
  | .access action rule => (applyAccessRuleItem t.clients t.accessRules action rule).map fun r =>
      ({ t with accessRules := r.1 }, touched || r.2)

/-- The item finds in the tables what it would add. -/
def Item.Skipped (ctx : ImportContext) (t : AddedTables) : Item → Prop
  | .source _ | .clientAlias _ => True
  | .rule entry => ∀ r ∈ parseRule ctx.data.toParserData entry.plainDomainSubdomains entry.rule,
      hasRule t.customRules r.normalized r.action = true
  | .localDns record => ∀ valid, importedRecord ctx record = some valid →
      ∃ row ∈ t.localDns.1, row.fqdn = valid.name.1 ∧ row.recordType = valid.recordType ∧
        row.value = valid.value
  | .upstream resolver => ∀ settings enabled, resolver = some (settings, enabled) →
      hasServer t.upstreams settings = true
  | .client _ => False
  | .access action entry => ∀ columns, ruleColumns t.clients entry = some (some columns) →
      hasAccessRule t.accessRules action columns = true

/-! ## What one item does -/

/-- A rule that exists is not added again. -/
theorem grows_insertFilterRule (now sourceSystem comment : Str) (enabled : Bool) :
    Grows (insertFilterRule now sourceSystem comment enabled) List.length
      (fun rows rule => hasRule rows rule.normalized rule.action = true) where
  same _ _ h := if_pos h
  larger rows rule h := by
    rw [insertFilterRule, if_neg h, List.length_append]
    exact Nat.lt_succ_self _

theorem applyLocalDnsRecord_spec {ctx : ImportContext} {rows rows' : LocalDns.RecordRows}
    {record : RecordEntry} (h : applyLocalDnsRecord ctx rows record = some rows') :
    ∃ valid, importedRecord ctx record = some valid ∧
      ((∃ row ∈ rows.1, row.fqdn = valid.name.1 ∧ row.recordType = valid.recordType ∧
        row.value = valid.value) → rows' = rows) ∧
      ((¬∃ row ∈ rows.1, row.fqdn = valid.name.1 ∧ row.recordType = valid.recordType ∧
        row.value = valid.value) → rows.1.length < rows'.1.length) := by
  simp only [applyLocalDnsRecord, Option.bind_eq_bind, Option.bind_eq_some_iff] at h
  obtain ⟨valid, hvalid, -, -, h⟩ := h
  cases h
  refine ⟨valid, hvalid, ?_, ?_⟩
  · rintro ⟨row, hrow, hname, htype, hvalue⟩
    have hconflict : rows.1.any (LocalDns.recordConflict · (LocalDns.newRecord
        (LocalDns.nextId rows.1) valid.recordType valid.name valid.value valid.ttl
        ctx.importedFrom record.enabled)) = true := by
      refine List.any_eq_true.mpr ⟨row, hrow, ?_⟩
      simp [LocalDns.recordConflict, LocalDns.DnsRecord.sameKey, LocalDns.newRecord, hname, htype,
        hvalue]
    rw [LegalRows.insert, dif_pos hconflict, Option.getD_none]
  · intro hnew
    have hfree : ¬rows.1.any (LocalDns.recordConflict · (LocalDns.newRecord
        (LocalDns.nextId rows.1) valid.recordType valid.name valid.value valid.ttl
        ctx.importedFrom record.enabled)) = true := by
      rw [List.any_eq_true]
      rintro ⟨row, hrow, hconflict⟩
      have hid : row.id < LocalDns.nextId rows.1 := LocalDns.id_lt_nextId hrow
      simp only [LocalDns.recordConflict, LocalDns.DnsRecord.sameKey, LocalDns.newRecord, hid,
        decide_true, Bool.not_true, Bool.false_or, Bool.and_eq_true] at hconflict
      obtain ⟨⟨hname, htype⟩, hvalue⟩ := hconflict
      exact hnew ⟨row, hrow, of_decide_eq_true hname, of_decide_eq_true htype,
        of_decide_eq_true hvalue⟩
    rw [LegalRows.insert, dif_neg hfree, Option.getD_some, List.length_append]
    exact Nat.lt_succ_self _

theorem importIdentifier_le {clientId : ℕ} {rows rows' : IdentifierRows}
    {identifier : ImportedIdentifier} (h : importIdentifier clientId rows identifier = some rows') :
    rows.1.length ≤ rows'.1.length := by
  unfold importIdentifier at h
  split_ifs at h with hempty
  · rw [Option.some.inj h]
  · cases hkind : identifierKindOf identifier.kind with
    | none => rw [hkind] at h; cases h
    | some kind =>
        rw [hkind] at h
        dsimp only at h
        split_ifs at h with hhas
        · rw [Option.some.inj h]
        · rw [LegalRows.insert_eq_some h, List.length_append]
          exact Nat.le_add_right _ _

theorem importIdentifiers_le {clientId : ℕ} {identifiers : List ImportedIdentifier}
    {rows rows' : IdentifierRows}
    (h : identifiers.foldlM (importIdentifier clientId) rows = some rows') :
    rows.1.length ≤ rows'.1.length := by
  induction identifiers generalizing rows with
  | nil => rw [Option.some.inj h]
  | cons identifier identifiers ih =>
      rw [List.foldlM_cons, Option.bind_eq_bind, Option.bind_eq_some_iff] at h
      obtain ⟨rows₁, h₁, h⟩ := h
      exact (importIdentifier_le h₁).trans (ih h)

/-- A client is always added. -/
theorem applyClientFullItem_size {ctx : ImportContext} {t t' : AddedTables}
    {client : FullClientEntry} (h : applyClientFullItem ctx t client = some t') :
    t.size < t'.size := by
  unfold applyClientFullItem at h
  split_ifs at h with hname
  simp only [Option.bind_eq_bind, Option.bind_eq_some_iff] at h
  obtain ⟨clients, hclients, identifiers, hidentifiers, h⟩ := h
  cases h
  have hone : clients.1.length = t.clients.1.length + 1 := by
    rw [LegalRows.insert_eq_some hclients, List.length_append]
    rfl
  have hle := importIdentifiers_le hidentifiers
  simp only [AddedTables.size]
  omega

theorem applyAccessRuleItem_spec {clients : ClientRows} {rules : RuleRows} {action : AllowDeny}
    {rule : AccessEntry} {r : RuleRows × Bool}
    (h : applyAccessRuleItem clients rules action rule = some r) :
    ((∀ columns, ruleColumns clients rule = some (some columns) →
      hasAccessRule rules action columns = true) → r = (rules, false)) ∧
    ((¬∀ columns, ruleColumns clients rule = some (some columns) →
      hasAccessRule rules action columns = true) → rules.1.length < r.1.1.length) := by
  rw [applyAccessRuleItem, Option.bind_eq_some_iff] at h
  obtain ⟨columns?, hcolumns, h⟩ := h
  cases columns? with
  | none =>
      refine ⟨fun _ => (Option.some.inj h).symm, fun hnew => absurd (fun columns hc => ?_) hnew⟩
      rw [hcolumns] at hc
      cases hc
  | some columns =>
      dsimp only at h
      split_ifs at h with hhas
      · refine ⟨fun _ => (Option.some.inj h).symm, fun hnew => absurd (fun columns' hc => ?_) hnew⟩
        rw [hcolumns] at hc
        cases hc
        exact hhas
      · refine ⟨fun hall => absurd (hall columns hcolumns) hhas, fun _ => ?_⟩
        obtain ⟨rules', hrules', rfl⟩ := Option.map_eq_some_iff.mp h
        rw [LegalRows.insert_eq_some hrules', List.length_append]
        exact Nat.lt_succ_self _

/-- The source entries among the items. -/
def sourceEntries (items : List Item) : List SourceEntry :=
  items.filterMap fun
    | .source source => some source
    | _ => none

/-- The alias entries among the items, as they are written. -/
def aliasUpdates (ctx : ImportContext) (items : List Item) : List AliasUpdate :=
  items.filterMap fun
    | .clientAlias client => aliasUpdate ctx client
    | _ => none

/-- What one item does to the tables to which rows are only added. -/
structure AddsRows (ctx : ImportContext) (item : Item) (t : Destination) (touched : Bool)
    (r : Progress) : Prop where
  same : item.Skipped ctx t.toAddedTables → r.1.toAddedTables = t.toAddedTables ∧ r.2 = touched
  larger : ¬item.Skipped ctx t.toAddedTables → t.size < r.1.size

theorem applyItem_adds {ctx : ImportContext} {t : Destination} {touched : Bool} {item : Item}
    {r : Progress} (h : applyItem ctx t touched item = some r) : AddsRows ctx item t touched r := by
  cases item with
  | source source =>
      cases h
      exact ⟨fun _ => ⟨rfl, rfl⟩, fun hnew => absurd trivial hnew⟩
  | rule entry =>
      cases h
      have hgrows := grows_insertFilterRule ctx.now ctx.sourceSystem
        (orComment entry.comment ctx.importedFrom) true
      refine ⟨fun hall => ⟨?_, rfl⟩, fun hnew => ?_⟩
      · exact congrArg (fun rows => { t.toAddedTables with customRules := rows })
          (hgrows.foldl_same hall)
      · have hlarger : t.customRules.length < (applyRuleItem ctx t.customRules entry).length :=
          hgrows.foldl_larger hnew
        simp only [AddedTables.size]
        omega
  | localDns record =>
      obtain ⟨rows, hrows, rfl⟩ := Option.map_eq_some_iff.mp h
      obtain ⟨valid, hvalid, hsame, hlarger⟩ := applyLocalDnsRecord_spec hrows
      refine ⟨fun hall => ⟨?_, rfl⟩, fun hnew => ?_⟩
      · rw [hsame (hall valid hvalid)]
      · have hlarger := hlarger fun hex => hnew fun valid' hvalid' => by
          rw [hvalid] at hvalid'
          cases hvalid'
          exact hex
        simp only [AddedTables.size]
        omega
  | upstream resolver =>
      cases h
      cases resolver with
      | none => exact ⟨fun _ => ⟨rfl, rfl⟩, fun hnew => absurd (fun _ _ hc => nomatch hc) hnew⟩
      | some resolver =>
          obtain ⟨settings, enabled⟩ := resolver
          by_cases hhas : hasServer t.upstreams settings = true
          · have hsame : insertUpstreamResolver t.upstreams (some (settings, enabled))
                = t.upstreams := if_pos hhas
            refine ⟨fun _ => ⟨by rw [hsame], rfl⟩, fun hnew => absurd (fun _ _ hc => ?_) hnew⟩
            cases hc
            exact hhas
          · have hadded : insertUpstreamResolver t.upstreams (some (settings, enabled))
                = addResolver t.upstreams settings enabled
                  (nextRowid (t.upstreams.rows.map (·.position))) := if_neg hhas
            refine ⟨fun hall => absurd (hall settings enabled rfl) hhas, fun _ => ?_⟩
            simp only [hadded, addResolver, AddedTables.size, List.length_append,
              List.length_singleton]
            omega
  | clientAlias client =>
      obtain ⟨aliases, -, rfl⟩ := Option.map_eq_some_iff.mp h
      exact ⟨fun _ => ⟨rfl, rfl⟩, fun hnew => absurd trivial hnew⟩
  | client client =>
      obtain ⟨added, hadded, rfl⟩ := Option.map_eq_some_iff.mp h
      exact ⟨False.elim, fun _ => applyClientFullItem_size hadded⟩
  | access action rule =>
      obtain ⟨⟨rules, made⟩, hrules, rfl⟩ := Option.map_eq_some_iff.mp h
      obtain ⟨hsame, hlarger⟩ := applyAccessRuleItem_spec hrules
      refine ⟨fun hall => ?_, fun hnew => ?_⟩
      · cases hsame hall
        exact ⟨rfl, Bool.or_false touched⟩
      · have hlarger := hlarger hnew
        simp only [AddedTables.size] at hlarger ⊢
        omega

/-- What items do: the sources and the aliases are updated in order, and the other tables are
larger afterwards unless each item has found what it would add. -/
structure Applied (ctx : ImportContext) (items : List Item) (t : Destination) (touched : Bool)
    (r : Progress) : Prop where
  policy : r.1.defaultPolicy = t.defaultPolicy
  sources : r.1.sources = (sourceEntries items).foldl sourceWriter.upsert t.sources
  aliases : r.1.aliases = (aliasUpdates ctx items).foldl aliasWriter.upsert t.aliases
  same : (∀ item ∈ items, item.Skipped ctx t.toAddedTables) →
    r.1.toAddedTables = t.toAddedTables ∧ r.2 = touched
  larger : (¬∀ item ∈ items, item.Skipped ctx t.toAddedTables) → t.size < r.1.size

theorem applyItem_spec {ctx : ImportContext} {t : Destination} {touched : Bool} {item : Item}
    {r : Progress} (h : applyItem ctx t touched item = some r) :
    Applied ctx [item] t touched r := by
  have hadds := applyItem_adds h
  have hrest : r.1.defaultPolicy = t.defaultPolicy ∧
      r.1.sources = (sourceEntries [item]).foldl sourceWriter.upsert t.sources ∧
      r.1.aliases = (aliasUpdates ctx [item]).foldl aliasWriter.upsert t.aliases := by
    cases item with
    | source _ | rule _ | upstream _ =>
        cases h
        exact ⟨rfl, rfl, rfl⟩
    | localDns _ | client _ | access _ _ =>
        obtain ⟨_, -, rfl⟩ := Option.map_eq_some_iff.mp h
        exact ⟨rfl, rfl, rfl⟩
    | clientAlias client =>
        obtain ⟨aliases, haliases, rfl⟩ := Option.map_eq_some_iff.mp h
        obtain ⟨update, hupdate, rfl⟩ := Option.map_eq_some_iff.mp haliases
        have hupdates : aliasUpdates ctx [.clientAlias client] = [update] :=
          List.filterMap_cons_some hupdate
        rw [hupdates]
        exact ⟨rfl, rfl, rfl⟩
  exact
    { policy := hrest.1
      sources := hrest.2.1
      aliases := hrest.2.2
      same := fun hall => hadds.same (hall item List.mem_cons_self)
      larger := fun hnew => hadds.larger fun hskipped =>
        hnew (List.forall_mem_singleton.mpr hskipped) }

namespace Applied

variable {ctx : ImportContext} {items : List Item} {t : Destination} {touched : Bool} {r : Progress}

theorem nil (ctx : ImportContext) (t : Destination) (touched : Bool) :
    Applied ctx [] t touched (t, touched) where
  policy := rfl
  sources := rfl
  aliases := rfl
  same _ := ⟨rfl, rfl⟩
  larger hnew := absurd (fun _ h => nomatch h) hnew

theorem size_le (h : Applied ctx items t touched r) : t.size ≤ r.1.size := by
  by_cases hall : ∀ item ∈ items, item.Skipped ctx t.toAddedTables
  · rw [(h.same hall).1]
  · exact (h.larger hall).le

/-- Items one after the other. -/
theorem append {items' : List Item} {r' : Progress} (h : Applied ctx items t touched r)
    (h' : Applied ctx items' r.1 r.2 r') : Applied ctx (items ++ items') t touched r' where
  policy := h'.policy.trans h.policy
  sources := by
    have hentries : sourceEntries (items ++ items') = sourceEntries items ++ sourceEntries items' :=
      List.filterMap_append
    rw [h'.sources, h.sources, hentries]
    exact List.foldl_append.symm
  aliases := by
    have hupdates : aliasUpdates ctx (items ++ items')
        = aliasUpdates ctx items ++ aliasUpdates ctx items' := List.filterMap_append
    rw [h'.aliases, h.aliases, hupdates]
    exact List.foldl_append.symm
  same hall := by
    obtain ⟨hleft, hright⟩ := List.forall_mem_append.mp hall
    obtain ⟨htables, htouched⟩ := h.same hleft
    rw [← htables, ← htouched]
    exact h'.same (htables ▸ hright)
  larger hnew := by
    by_cases hleft : ∀ item ∈ items, item.Skipped ctx t.toAddedTables
    · rw [← (h.same hleft).1]
      refine h'.larger fun hright => hnew ?_
      rw [(h.same hleft).1] at hright
      exact List.forall_mem_append.mpr ⟨hleft, hright⟩
    · exact (h.larger hleft).trans_le h'.size_le

end Applied

end AlderpointDNS.Importer
