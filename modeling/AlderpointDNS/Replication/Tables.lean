import AlderpointDNS.CustomRules.Rule
import AlderpointDNS.Clients.Tables
import AlderpointDNS.LocalDns.Records
import AlderpointDNS.Lib.Tables

/-!
# The replicated tables

`Table` lists the keys of `REPLICABLE_TABLES` and `Row` their rows: the columns listed there, in
that order.  `INTEGER` flags are `Bool` and `CHECK(... IN ...)` columns are enumerations, so a
received row with a missing column, a `NULL` or an unlisted value is not a `Row` at all.
`conflict` is the uniqueness constraint of each table.  The settings tables are key/value tables
of which some keys are replicable (`SettingsGroup.replicableKeys`).

Not modelled: the columns that are not replicated (row ids, download statistics).
-/

namespace AlderpointDNS

open Text

/-- The keys of `REPLICABLE_TABLES`. -/
inductive Table where
  | sources
  | customRules
  | customFilterRules
  | categories
  | policyProfiles
  | profileCategories
  | networkPolicies
  | localDnsRecords
  | clientAliases
  | accessSettings
  deriving DecidableEq

/-- The iteration order of `REPLICABLE_TABLES`. -/
def replicableTables : List Table :=
  [.sources, .customRules, .customFilterRules, .categories, .policyProfiles, .profileCategories,
    .networkPolicies, .localDnsRecords, .clientAliases, .accessSettings]

theorem replicableTables_nodup : replicableTables.Nodup := by decide

theorem mem_replicableTables (t : Table) : t ∈ replicableTables := by cases t <;> decide

/-- The `action` of a rule of the legacy table. -/
inductive AllowBlock where
  | allow
  | block
  deriving DecidableEq

structure SourceRow where
  name : Str
  url : Str
  enabled : Bool
  category : Str
  deriving DecidableEq

/-- A row of the legacy table `custom_rules`. -/
structure LegacyRow where
  domain : Str
  action : AllowBlock
  enabled : Bool
  comment : Str
  createdAt : Str
  deriving DecidableEq

/-- A row of `custom_filter_rules`, as it is replicated. -/
structure FilterRow extends ParsedRule where
  qtypeRestriction : Option Str
  enabled : Bool
  sourceSystem : Str
  createdAt : Str
  updatedAt : Str
  deriving DecidableEq

structure CategoryRow where
  key : Str
  name : Str
  description : Str
  deriving DecidableEq

structure ProfileRow where
  key : Str
  name : Str
  description : Str
  isCustom : Bool
  deriving DecidableEq

structure ProfileCategoryRow where
  profileKey : Str
  categoryKey : Str
  enabled : Bool
  deriving DecidableEq

structure NetworkPolicyRow where
  cidr : Str
  profileKey : Str
  description : Str
  enabled : Bool
  deriving DecidableEq

structure LocalDnsRow where
  name : Str
  fqdn : Str
  recordType : RecordType
  value : Str
  ttl : ℕ
  comment : Str
  enabled : Bool
  autoPtr : Bool
  createdAt : Str
  updatedAt : Str
  deriving DecidableEq

structure AliasRow where
  cidr : Str
  displayName : Str
  description : Str
  createdAt : Str
  updatedAt : Str
  deriving DecidableEq

structure AccessSettingsRow where
  defaultPolicy : AllowDeny
  updatedAt : Str
  deriving DecidableEq

/-- The rows of a table. -/
def Row : Table → Type
  | .sources => SourceRow
  | .customRules => LegacyRow
  | .customFilterRules => FilterRow
  | .categories => CategoryRow
  | .policyProfiles => ProfileRow
  | .profileCategories => ProfileCategoryRow
  | .networkPolicies => NetworkPolicyRow
  | .localDnsRecords => LocalDnsRow
  | .clientAliases => AliasRow
  | .accessSettings => AccessSettingsRow

/-- Two rows that the `UNIQUE` and `PRIMARY KEY` constraints do not allow together.  The filter
rules have none, and `access_settings` has `CHECK(id = 1)`, hence at most one row. -/
def conflict : (t : Table) → Row t → Row t → Bool
  | .sources => fun (r s : SourceRow) => r.name = s.name
  | .customRules => fun (r s : LegacyRow) => r.domain = s.domain && r.action = s.action
  | .customFilterRules => fun _ _ => false
  | .categories => fun (r s : CategoryRow) => r.key = s.key
  | .policyProfiles => fun (r s : ProfileRow) => r.key = s.key
  | .profileCategories => fun (r s : ProfileCategoryRow) =>
      r.profileKey = s.profileKey && r.categoryKey = s.categoryKey
  | .networkPolicies => fun (r s : NetworkPolicyRow) => r.cidr = s.cidr
  | .localDnsRecords => fun (r s : LocalDnsRow) =>
      r.fqdn = s.fqdn && r.recordType = s.recordType && r.value = s.value
  | .clientAliases => fun (r s : AliasRow) => r.cidr = s.cidr
  | .accessSettings => fun _ _ => true

/-- The contents of a table. -/
abbrev TableRows (t : Table) := LegalRows (conflict t)

/-! ## Settings -/

/-- The three key/value tables. -/
inductive SettingsGroup where
  | localDns
  | dnsCache
  | encryption
  deriving DecidableEq

/-- A key/value table. -/
abbrev Settings := Str → Option Str

/-- `REPLICABLE_LOCAL_DNS_SETTING_KEYS` and its siblings. -/
def SettingsGroup.replicableKeys : SettingsGroup → List Str
  | .localDns => ["internal_domain".toList, "default_ttl".toList]
  | .dnsCache =>
      ["max_cache_size_mb".toList, "min_cache_ttl".toList, "max_cache_ttl".toList,
        "min_ncache_ttl".toList, "max_ncache_ttl".toList, "prefetch_enabled".toList,
        "prefetch_trigger".toList, "prefetch_eligible".toList, "serve_stale_enabled".toList,
        "max_stale_ttl".toList, "stale_answer_client_timeout".toList]
  | .encryption =>
      ["doh_enabled".toList, "doh3_enabled".toList, "dot_enabled".toList, "doq_enabled".toList,
        "dnscrypt_enabled".toList, "doh_path".toList, "doh_port".toList, "doh3_port".toList,
        "dot_port".toList, "doq_port".toList, "dnscrypt_port".toList]

/-- `key IN (...)`. -/
def SettingsGroup.replicable (g : SettingsGroup) (key : Str) : Bool := g.replicableKeys.contains key

/-- `SELECT key, value ... WHERE key IN (...)`. -/
def selectSettings (g : SettingsGroup) (settings : Settings) : Settings := fun key =>
  if g.replicable key then settings key else none

/-- `_replace_settings_subset` on an existing table. -/
def replaceSettingsSubset (g : SettingsGroup) (values settings : Settings) : Settings := fun key =>
  if g.replicable key then values key else settings key

/-- Writing back what was read changes nothing. -/
theorem replaceSettingsSubset_select (g : SettingsGroup) (settings : Settings) :
    replaceSettingsSubset g (selectSettings g settings) settings = settings := by
  funext key
  simp only [replaceSettingsSubset, selectSettings]
  split_ifs <;> rfl

/-- What is read after a write is what is replicable of the written values. -/
theorem selectSettings_replace (g : SettingsGroup) (values settings : Settings) :
    selectSettings g (replaceSettingsSubset g values settings) = selectSettings g values := by
  funext key
  simp only [replaceSettingsSubset, selectSettings]
  split_ifs <;> rfl

/-- The last write to a group is the one that shows. -/
theorem replaceSettingsSubset_replace (g : SettingsGroup) (values values' settings : Settings) :
    replaceSettingsSubset g values (replaceSettingsSubset g values' settings)
      = replaceSettingsSubset g values settings := by
  funext key
  simp only [replaceSettingsSubset]
  split_ifs <;> rfl

end AlderpointDNS
