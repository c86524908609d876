import AlderpointDNS.Importer.Pihole

/-!
# AdGuard Home configurations

`_translate_adguard_config`: each loop goes over one list of the configuration, and what it appends
is listed here with the object that it was made of.

* `AdguardThing` — the objects, by their places;
* `KeptThing` — the objects that are not lost on the way;
* **`accounted_iff_kept`** — every line of a Pi-hole text and every object of a configuration gets
  an item of the plan exactly when it is one of those.
* `tablet_lost` — a client that is known by its hardware address only.

The entries have the types of the AdGuard schema, so that no `isinstance` fails.  A value that is
missing has the default of its `get`.
-/

namespace AlderpointDNS.Importer

open Text Ipaddress

/-! ## The configuration -/

/-- An entry of `filters` and `whitelist_filters`. -/
structure FilterEntry where
  name : Str := []
  url : Option Str := none
  enabled : Bool := true

/-- An entry of `rewrites`. -/
structure RewriteEntry where
  domain : Str := []
  answer : Str := []
  enabled : Bool := true
  /-- `str` of the entry -/
  shown : Str := []

/-- The value of a setting of a client. -/
inductive FeatureValue where
  | unset
  | flag (value : Bool)
  | mapping (isEmpty : Bool)
  | list

/-- `value not in (None, False, {})`. -/
def FeatureValue.counts : FeatureValue → Bool
  | .unset => false
  | .flag value => value
  | .mapping isEmpty => !isEmpty
  | .list => true

/-- An entry of `clients.persistent`. -/
structure AdguardClient where
  name : Str := []
  ids : List Str := []
  filteringEnabled : FeatureValue := .unset
  safeSearch : FeatureValue := .unset
  blockedServices : FeatureValue := .unset
  upstreams : FeatureValue := .unset
  ignoreQuerylog : FeatureValue := .unset
  ignoreStatistics : FeatureValue := .unset

/-- The settings that are looked at, by name. -/
def AdguardClient.features (client : AdguardClient) : List (String × FeatureValue) :=
  [("filtering_enabled", client.filteringEnabled), ("safe_search", client.safeSearch),
    ("blocked_services", client.blockedServices), ("upstreams", client.upstreams),
    ("ignore_querylog", client.ignoreQuerylog), ("ignore_statistics", client.ignoreStatistics)]

/-- `filtering`. -/
structure AdguardFiltering where
  filters : List FilterEntry := []
  whitelistFilters : List FilterEntry := []
  userRules : List Str := []
  rewrites : List RewriteEntry := []
  rewritesEnabled : Bool := true
  /-- `safe_search.enabled` -/
  safeSearch : Bool := false
  /-- `blocked_services.ids` -/
  blockedServices : List Str := []

/-- `dns`. -/
structure AdguardDns where
  bootstrapDns : List Str := []
  allowedClients : List Str := []
  disallowedClients : List Str := []
  upstreamDns : List Str := []

/-- The configuration. -/
structure AdguardConfig where
  filters : List FilterEntry := []
  whitelistFilters : List FilterEntry := []
  userRules : List Str := []
  rewrites : List RewriteEntry := []
  filtering : AdguardFiltering := {}
  /-- `clients.persistent` -/
  clients : List AdguardClient := []
  dns : AdguardDns := {}

/-- `a or b`. -/
def orList {α : Type} (a b : List α) : List α := if a.isEmpty then b else a

/-- What `validate_resolver` is given. -/
structure ResolverValues where
  name : Str
  protocol : Str
  address : Str
  port : Str := []
  dohPath : Str := []
  tlsHostname : Str := []
  bootstrapIps : Str := []
  enabled : Str := "1".toList

/-- What the translator takes from Python's tables, and `validate_resolver` with the text of its
error. -/
structure AdguardData extends ImportData where
  /-- `str.isprintable` of a character that is not ASCII. -/
  isPrintable : Char → Bool
  validateResolver : ResolverValues → Except Str (Upstream.Settings × Bool)

/-! ## Texts -/

/-- A character of `repr`. -/
def AdguardData.reprChar (d : AdguardData) (quote c : Char) : Str :=
  let n := c.toNat
  let hexDigits (width : ℕ) : Str := (Numerals.digits 16 width n).map hexDigit
  if c = quote || c = '\\' then ['\\', c]
  else if c = '\t' then ['\\', 't']
  else if c = '\n' then ['\\', 'n']
  else if c = '\r' then ['\\', 'r']
  else if n < 32 || n = 127 then '\\' :: 'x' :: hexDigits 2
  else if n < 127 || d.isPrintable c then [c]
  else if n < 256 then '\\' :: 'x' :: hexDigits 2
  else if n < 65536 then '\\' :: 'u' :: hexDigits 4
  else '\\' :: 'U' :: hexDigits 8

/-- `repr` of a text. -/
def AdguardData.reprStr (d : AdguardData) (s : Str) : Str :=
  let quote := if s.contains '\'' && !s.contains '"' then '"' else '\''
  quote :: s.flatMap (d.reprChar quote) ++ [quote]

/-- `_SOURCE_CATEGORY_KEYWORDS`. -/
def sourceCategoryKeywords : List (String × List String) :=
  [("malware", ["malware", "phishing", "scam", "threat", "badware", "crypto", "security",
      "safe browsing", "safebrowsing"]),
    ("adult_content", ["adult", "porn", "nsfw", "gambling", "explicit"]),
    ("iot_telemetry", ["telemetry", "iot", "smart-tv", "smarttv", "vendor tracking"])]

/-- `_map_source_category`. -/
def mapSourceCategory (u : UnicodeData) (name url : Str) : Str :=
  let haystack := u.toLower (name ++ ' ' :: url)
  ((sourceCategoryKeywords.find? fun p => p.2.any fun keyword =>
    isSubstring keyword.toList haystack).map (·.1)).getD "ads_trackers" |>.toList

/-- What `_classify_adguard_identifier` returns. -/
inductive AdguardIdentifier where
  | known (kind : IdentifierKind) (value : Str)
  | clientidWeak (value : Str)
  | unrecognized (text : Str)

/-- `_classify_adguard_identifier`. -/
def classifyAdguardIdentifier (u : UnicodeData) (raw : Str) : AdguardIdentifier :=
  let text := strip raw
  if text = [] then .unrecognized text
  else if text.all isHexDigit && !text.contains '.' && !text.contains ':' && !text.contains '/' then
    if 48 ≤ text.length then
      match validateClientid u text with
      | some id => .known .clientid id
      | none => .unrecognized text
    else .clientidWeak (u.toLower text)
  else
    match normalizeIdentifier u text with
    | some (kind, value) => .known kind value
    | none => .unrecognized text

/-- The identifier that is imported. -/
def AdguardIdentifier.imported : AdguardIdentifier → Option ImportedIdentifier
  | .known kind value => some ⟨kind.text, value⟩
  | _ => none

def AdguardIdentifier.isWeak : AdguardIdentifier → Bool
  | .clientidWeak _ => true
  | _ => false

/-- `_looks_like_ip_or_cidr`. -/
def looksLikeIpOrCidr (value : Str) : Bool := (ipNetwork value).isSome

/-! ## The loops -/

section Loops

variable (d : AdguardData)

/-- A round of the loop over `filters`. -/
def filterEntry (entry : FilterEntry) : List Emitted :=
  let name := orComment entry.name (entry.url.getD "imported-filter".toList)
  let url := entry.url.getD []
  [.source
    { name := name
      url := url
      enabled := entry.enabled
      category := mapSourceCategory d.toUnicodeData name url }]

/-- A round of the loop over `whitelist_filters`. -/
def whitelistEntry (entry : FilterEntry) : List Emitted :=
  [.allowlist (strip (orComment entry.name (entry.url.getD "imported-allowlist".toList)
    ++ ' ' :: entry.url.getD []))]

/-- A round of the loop over `user_rules`. -/
def userRuleEntry (number : ℕ) (raw : Str) : List Emitted :=
  let line := strip raw
  if line = [] then []
  else if maxLineChars < line.length then
    [.unsupportedRule ("user rule ".toList ++ (Nat.repr number).toList
      ++ " exceeds 2048 characters and was not imported".toList)]
  else [.rule { text := line, rule := line, plainDomainSubdomains := true }]

/-- `f"DNS rewrite {domain} -> {answer}: {what}"`. -/
def rewriteFinding (domain answer what : Str) : Emitted :=
  .unsupportedRule
    ("DNS rewrite ".toList ++ domain ++ " -> ".toList ++ answer ++ ": ".toList ++ what)

/-- `disabled_reason`. -/
def disabledReason (enabledGlobally enabled : Bool) : Str :=
  if !enabledGlobally then
    "AdGuard Home's global DNS rewrites feature (filtering.rewrites_enabled) was turned off".toList
  else if !enabled then "this rewrite was disabled in AdGuard Home".toList
  else []

/-- A rewrite to an address. -/
def addressRewrite (enabledGlobally : Bool) (entry : RewriteEntry) (domain answer : Str)
    (ip : IpAddress) : Emitted :=
  let enabled := enabledGlobally && entry.enabled
  if startsWith domain "*.".toList then
    if !enabled then
      rewriteFinding domain answer
        ("disabled in AdGuard Home (".toList ++ disabledReason enabledGlobally entry.enabled
          ++ "); disabled wildcard rewrites are reported ".toList
          ++ "rather than imported as an active custom rule".toList)
    else
      .rule
        { text := domain ++ " -> ".toList ++ answer
          rule := "||".toList ++ domain.drop 2 ++ "^$dnsrewrite=".toList ++ ip.str
          plainDomainSubdomains := true
          comment := "AdGuard DNS rewrite ".toList ++ domain ++ " -> ".toList ++ answer }
  else
    .record
      { fqdn := domain
        recordType := if ip.isV4 then ['A'] else "AAAA".toList
        value := ip.str
        ttl := some 300
        enabled := enabled }

/-- A rewrite to a name. -/
def nameRewrite (enabledGlobally : Bool) (entry : RewriteEntry) (domain answer : Str) : Emitted :=
  if startsWith domain "*.".toList then
    rewriteFinding domain answer "wildcard CNAME-style rewrites are not supported".toList
  else
    match LocalDns.normalizeDomain d.toUnicodeData domain,
        LocalDns.normalizeDomain d.toUnicodeData answer with
    | some fqdn, some target =>
        .record
          { fqdn := fqdn.1
            recordType := "CNAME".toList
            value := target.1
            ttl := some 300
            enabled := enabledGlobally && entry.enabled }
    | _, _ =>
        rewriteFinding domain answer
          "the answer is neither an IP address nor a valid domain".toList

/-- A round of the loop over `rewrites`. -/
def rewriteEntry (enabledGlobally : Bool) (entry : RewriteEntry) : Emitted :=
  let domain := stripBy (· = '.') (strip entry.domain)
  let answer := strip entry.answer
  if domain = [] ∨ answer = [] then
    .unsupportedRule ("DNS rewrite is missing a domain or answer: ".toList ++ entry.shown)
  else if ["A".toList, "AAAA".toList].contains (d.toUpper answer) then
    rewriteFinding domain answer ("AdGuard's '".toList ++ d.toUpper answer
      ++ "' pass-through/exclusion value has no Alderpoint DNS equivalent ".toList
      ++ "and was not imported".toList)
  else
    match ipAddress answer with
    | some ip => addressRewrite enabledGlobally entry domain answer ip
    | none => nameRewrite d enabledGlobally entry domain answer

/-- `identifiers`. -/
def clientIdentifiers (client : AdguardClient) : List ImportedIdentifier :=
  client.ids.filterMap fun id => (classifyAdguardIdentifier d.toUnicodeData id).imported

/-- `weak_clientids` is not empty. -/
def hasWeakClientid (client : AdguardClient) : Bool :=
  client.ids.any fun id => (classifyAdguardIdentifier d.toUnicodeData id).isWeak

/-- `cidr_or_ip`. -/
def clientCidrOrIp (client : AdguardClient) : Str :=
  (client.ids.find? looksLikeIpOrCidr).getD []

/-- The alias of a client. -/
def clientAlias (client : AdguardClient) : AliasEntry where
  cidrOrIp := clientCidrOrIp client
  displayName := client.name

/-- The persistent client that a client becomes. -/
def fullClient (client : AdguardClient) : FullClientEntry where
  name := client.name
  description := "imported from AdGuard Home".toList
  identifiers := clientIdentifiers d client

/-- A setting of a client that is reported. -/
def featureFinding (client : AdguardClient) (feature : String) : Str :=
  orComment client.name (clientCidrOrIp client) ++ ": ".toList ++ feature.toList
    ++ " has no Alderpoint DNS per-client equivalent yet ".toList
    ++ "(schema exists, not enforced at runtime)".toList

/-- A round of the loop over the clients. -/
def adguardClientEntries (client : AdguardClient) : List Emitted :=
  (if client.name ≠ [] ∧ clientCidrOrIp client ≠ [] then [.alias (clientAlias client)] else [])
  ++ (if client.name ≠ [] ∧ (clientIdentifiers d client ≠ [] ∨ hasWeakClientid d client = true) then
      [.client (fullClient d client)]
    else [])
  ++ (client.features.filter (·.2.counts)).map fun feature =>
      .clientScoped (featureFinding client feature.1)

/-- A round of the loops over `allowed_clients` and `disallowed_clients`. -/
def accessEntry (list verb : String) (emit : AccessEntry → Emitted) (raw : Str) : Emitted :=
  let finding (what : Str) : Emitted :=
    .clientScoped (list.toList ++ " entry ".toList ++ d.reprStr raw ++ ": ".toList ++ what)
  match classifyAdguardIdentifier d.toUnicodeData raw with
  | .known kind value => emit { kind := kind.text, value := value }
  | .clientidWeak _ =>
      finding ("ClientID is below Alderpoint's 192-bit minimum, not imported as an active ".toList
        ++ verb.toList ++ " rule".toList)
  | .unrecognized _ => finding "not a recognized IPv4/IPv6/CIDR/ClientID value".toList

/-- `allowed_clients`. -/
def allowedEntry (raw : Str) : Emitted := accessEntry d "allowed_clients" "allow" .allowed raw

/-- `disallowed_clients`. -/
def disallowedEntry (raw : Str) : Emitted := accessEntry d "disallowed_clients" "deny" .denied raw

/-- The plan validates the resolver again. -/
def plannedResolver (resolver : Upstream.Settings × Bool) : ResolverEntry :=
  (d.validateResolver
    { name := resolver.1.name.toList
      protocol := match resolver.1.protocol with
        | .plain => "plain".toList
        | .dot => "dot".toList
        | .doh => "doh".toList
      address := resolver.1.address.toList
      port := (Nat.repr resolver.1.port).toList
      dohPath := resolver.1.dohPath.toList
      tlsHostname := resolver.1.tlsHostname.toList
      bootstrapIps := resolver.1.bootstrapIps.toList
      enabled := if resolver.2 then "1".toList else "0".toList }).toOption

/-- The schemes that are not importable. -/
def upstreamSchemes : List Str :=
  ["tls://".toList, "sdns://".toList, "quic://".toList, "h3://".toList]

/-- `_translate_upstream_resolver`. -/
def translateUpstreamResolver (value : Str) (index : ℕ) (bootstrapIps : List Str) : Emitted :=
  let raw := strip value
  let name := "Imported upstream ".toList ++ (Nat.repr index).toList
  if raw = [] then .untranslatable "empty upstream resolver entry".toList
  else if startsWith raw "[/".toList then
    .untranslatable (raw ++ ": domain-specific upstream routing is not implemented".toList)
  else
    match d.validateResolver
        { name := name
          protocol := "doh".toList
          address := raw
          bootstrapIps := join ", ".toList bootstrapIps } with
    | .ok resolver => .resolver (plannedResolver d resolver)
    | .error _ =>
        if upstreamSchemes.any (startsWith (d.toLower raw)) then
          .untranslatable (raw ++ ": upstream scheme is not directly importable yet".toList)
        else
          let (host, port) := if raw.count ':' = 1 then partition ':' raw else (raw, [])
          match d.validateResolver
              { name := name
                protocol := "plain".toList
                address := stripBy (fun c => c = '[' || c = ']') host
                port := orComment port "53".toList } with
          | .ok resolver => .resolver (plannedResolver d resolver)
          | .error text => .untranslatable (raw ++ ": ".toList ++ text)

/-- `bootstrap_ips`. -/
def bootstrapIps (dns : AdguardDns) : List Str :=
  dns.bootstrapDns.filterMap fun raw => (ipAddress (strip raw)).map (·.str)

/-- The two settings that are reported by themselves. -/
def settingEntries (filtering : AdguardFiltering) : List Emitted :=
  (if filtering.safeSearch then
      [.untranslatable
        ("filtering.safe_search: SafeSearch enforcement is not implemented ".toList
          ++ "in Alderpoint DNS".toList)]
    else [])
  ++ (if filtering.blockedServices ≠ [] then
      [.untranslatable
        ("filtering.blocked_services: named blocked-service bundles are not implemented ".toList
          ++ "in Alderpoint DNS".toList)]
    else [])

end Loops

/-! ## The translation -/

/-- The objects of a configuration; of the lists that can stand in two places, those that are
`nested` stand under `filtering`. -/
inductive AdguardThing where
  | filter (i : ℕ)
  | whitelistFilter (i : ℕ)
  | userRule (nested : Bool) (i : ℕ)
  | rewrite (nested : Bool) (i : ℕ)
  | client (i : ℕ)
  | allowedClient (i : ℕ)
  | disallowedClient (i : ℕ)
  | upstream (i : ℕ)
  | setting
deriving DecidableEq

/-- A loop with a counter. -/
def loopEntries {τ α : Type} (thing : ℕ → τ) (round : ℕ → α → List Emitted) (xs : List α) :
    List (τ × Emitted) :=
  xs.zipIdx.flatMap fun p => (round p.2 p.1).map (thing p.2, ·)

section Translation

variable (d : AdguardData) (config : AdguardConfig)

/-- The loops in their order. -/
def adguardEntries : List (AdguardThing × Emitted) :=
  let filtering := config.filtering
  loopEntries .filter (fun _ => filterEntry d) (orList config.filters filtering.filters)
  ++ loopEntries .whitelistFilter (fun _ => whitelistEntry)
      (orList config.whitelistFilters filtering.whitelistFilters)
  ++ loopEntries (.userRule config.userRules.isEmpty) (fun i => userRuleEntry (i + 1))
      (orList config.userRules filtering.userRules)
  ++ loopEntries (.rewrite !filtering.rewrites.isEmpty)
      (fun _ entry => [rewriteEntry d filtering.rewritesEnabled entry])
      (orList filtering.rewrites config.rewrites)
  ++ loopEntries .client (fun _ => adguardClientEntries d) config.clients
  ++ loopEntries .allowedClient (fun _ raw => [allowedEntry d raw]) config.dns.allowedClients
  ++ loopEntries .disallowedClient (fun _ raw => [disallowedEntry d raw])
      config.dns.disallowedClients
  ++ loopEntries .upstream
      (fun i raw => [translateUpstreamResolver d raw (i + 1) (bootstrapIps config.dns)])
      config.dns.upstreamDns
  ++ (settingEntries filtering).map (.setting, ·)

/-- `_translate_adguard_config`. -/
def translateAdguardConfig : StoredTranslation := collect (adguardEntries d config)

/-- The user rules in one of the two places. -/
def AdguardConfig.rulesAt (nested : Bool) : List Str :=
  if nested then config.filtering.userRules else config.userRules

/-- The rewrites in one of the two places. -/
def AdguardConfig.rewritesAt (nested : Bool) : List RewriteEntry :=
  if nested then config.filtering.rewrites else config.rewrites

/-- The client becomes a persistent client of the translation. -/
def HasClientEntry (client : AdguardClient) : Prop :=
  client.name ≠ [] ∧ (clientIdentifiers d client ≠ [] ∨ hasWeakClientid d client = true)

/-- The client sets a feature that is reported, or it has a name and an identifier to import, or
it has a name and an address and no client has an entry. -/
def KeptClient (client : AdguardClient) : Prop :=
  client.features.any (·.2.counts) = true ∨
    strip client.name ≠ [] ∧ clientIdentifiers d client ≠ [] ∨
    client.name ≠ [] ∧ clientCidrOrIp client ≠ [] ∧
      ∀ other ∈ config.clients, ¬HasClientEntry d other

/-- The object is a user rule, a rewrite, a client, an entry of the access lists or an upstream. -/
def HasThing : AdguardThing → Prop
  | .userRule nested i => i < (config.rulesAt nested).length
  | .rewrite nested i => i < (config.rewritesAt nested).length
  | .client i => i < config.clients.length
  | .allowedClient i => i < config.dns.allowedClients.length
  | .disallowedClient i => i < config.dns.disallowedClients.length
  | .upstream i => i < config.dns.upstreamDns.length
  | .filter _ | .whitelistFilter _ | .setting => False

/-- The object is not lost: a rule is not blank and a list is not passed over for the other. -/
def KeptThing : AdguardThing → Prop
  | .userRule nested i =>
      (nested = true → config.userRules = []) ∧
        ∀ raw ∈ (config.rulesAt nested)[i]?, strip raw ≠ []
  | .rewrite nested _ => nested = false → config.filtering.rewrites = []
  | .client i => ∀ client ∈ config.clients[i]?, KeptClient d config client
  | _ => True

end Translation

/-! ## What becomes of an object -/

theorem mem_loopEntries {τ α : Type} {thing : ℕ → τ} {round : ℕ → α → List Emitted}
    {xs : List α} {t : τ} {e : Emitted} :
    (t, e) ∈ loopEntries thing round xs ↔
      ∃ (i : ℕ) (x : α), xs[i]? = some x ∧ t = thing i ∧ e ∈ round i x := by
  simp only [loopEntries, List.mem_flatMap, List.mem_map, Prod.mk.injEq, Prod.exists,
    List.mem_zipIdx_iff_getElem?]
  constructor
  · rintro ⟨x, i, hx, e, he, rfl, rfl⟩
    exact ⟨i, x, hx, rfl, he⟩
  · rintro ⟨i, x, hx, rfl, he⟩
    exact ⟨x, i, hx, e, he, rfl, rfl⟩

section Kept

variable (d : AdguardData) (config : AdguardConfig)

theorem isPlain_filterEntry (entry : FilterEntry) : ∀ e ∈ filterEntry d entry, e.IsPlain := by
  intro e he
  rw [List.mem_singleton.mp he]
  exact trivial

theorem isPlain_whitelistEntry (entry : FilterEntry) : ∀ e ∈ whitelistEntry entry, e.IsPlain := by
  intro e he
  rw [List.mem_singleton.mp he]
  exact trivial

/-- A user rule has no entry if it is blank, and one that is kept otherwise. -/
theorem userRuleEntry_cases (number : ℕ) (raw : Str) :
    strip raw = [] ∧ userRuleEntry number raw = [] ∨
      strip raw ≠ [] ∧ ∃ e, userRuleEntry number raw = [e] ∧ e.IsPlain := by
  unfold userRuleEntry
  dsimp only
  by_cases hblank : strip raw = []
  · exact .inl ⟨hblank, if_pos hblank⟩
  rw [if_neg hblank]
  refine .inr ⟨hblank, ?_⟩
  by_cases hlong : maxLineChars < (strip raw).length
  · exact ⟨_, if_pos hlong, trivial⟩
  · refine ⟨_, if_neg hlong, ?_⟩
    show strip (orComment (strip raw) (strip raw)) ≠ []
    rw [orComment, if_neg hblank, strip, strip, stripBy_stripBy]
    exact hblank

theorem isPlain_addressRewrite (enabledGlobally : Bool) (entry : RewriteEntry) (domain answer : Str)
    (ip : IpAddress) : (addressRewrite enabledGlobally entry domain answer ip).IsPlain := by
  unfold addressRewrite
  dsimp only
  by_cases hwildcard : startsWith domain "*.".toList = true
  · rw [if_pos hwildcard]
    cases enabledGlobally && entry.enabled with
    | false => exact trivial
    | true => exact isKept_of_mem (c := '|') (by simp) (by decide)
  · rw [if_neg hwildcard]
    exact trivial

theorem isPlain_nameRewrite (enabledGlobally : Bool) (entry : RewriteEntry)
    (domain answer : Str) : (nameRewrite d enabledGlobally entry domain answer).IsPlain := by
  unfold nameRewrite
  by_cases hwildcard : startsWith domain "*.".toList = true
  · rw [if_pos hwildcard]
    exact trivial
  · rw [if_neg hwildcard]
    split
    · exact trivial
    · exact trivial

theorem isPlain_rewriteEntry (enabledGlobally : Bool) (entry : RewriteEntry) :
    (rewriteEntry d enabledGlobally entry).IsPlain := by
  unfold rewriteEntry
  dsimp only
  by_cases hmissing : stripBy (· = '.') (strip entry.domain) = [] ∨ strip entry.answer = []
  · rw [if_pos hmissing]
    exact trivial
  rw [if_neg hmissing]
  by_cases hsentinel :
      ["A".toList, "AAAA".toList].contains (d.toUpper (strip entry.answer)) = true
  · rw [if_pos hsentinel]
    exact trivial
  rw [if_neg hsentinel]
  split
  · exact isPlain_addressRewrite _ _ _ _ _
  · exact isPlain_nameRewrite d _ _ _ _

theorem isPlain_accessEntry (list verb : String) {emit : AccessEntry → Emitted}
    (hemit : ∀ entry, (emit entry).IsPlain) (raw : Str) :
    (accessEntry d list verb emit raw).IsPlain := by
  unfold accessEntry
  dsimp only
  split
  · exact hemit _
  · exact trivial
  · exact trivial

theorem isPlain_allowedEntry (raw : Str) : (allowedEntry d raw).IsPlain := by
  have hemit (entry : AccessEntry) : (Emitted.allowed entry).IsPlain := trivial
  exact isPlain_accessEntry d _ _ hemit raw

theorem isPlain_disallowedEntry (raw : Str) : (disallowedEntry d raw).IsPlain := by
  have hemit (entry : AccessEntry) : (Emitted.denied entry).IsPlain := trivial
  exact isPlain_accessEntry d _ _ hemit raw

theorem isPlain_translateUpstreamResolver (value : Str) (index : ℕ) (ips : List Str) :
    (translateUpstreamResolver d value index ips).IsPlain := by
  unfold translateUpstreamResolver
  dsimp only
  by_cases hblank : strip value = []
  · rw [if_pos hblank]
    exact trivial
  rw [if_neg hblank]
  by_cases hrouted : startsWith (strip value) "[/".toList = true
  · rw [if_pos hrouted]
    exact trivial
  rw [if_neg hrouted]
  split
  · exact trivial
  by_cases hscheme : upstreamSchemes.any (startsWith (d.toLower (strip value))) = true
  · rw [if_pos hscheme]
    exact trivial
  rw [if_neg hscheme]
  split
  · exact trivial
  · exact trivial

theorem isPlain_settingEntries (filtering : AdguardFiltering) :
    ∀ e ∈ settingEntries filtering, e.IsPlain := by
  intro e he
  rw [settingEntries, List.mem_append] at he
  rcases he with he | he <;>
  · split_ifs at he
    · rw [List.mem_singleton.mp he]
      exact trivial
    · exact absurd he List.not_mem_nil

theorem mem_adguardClientEntries {client : AdguardClient} {e : Emitted} :
    e ∈ adguardClientEntries d client ↔
      (client.name ≠ [] ∧ clientCidrOrIp client ≠ []) ∧ e = .alias (clientAlias client) ∨
        HasClientEntry d client ∧ e = .client (fullClient d client) ∨
        ∃ feature ∈ client.features, feature.2.counts = true ∧
          e = .clientScoped (featureFinding client feature.1) := by
  simp only [adguardClientEntries, List.mem_append, List.mem_ite_nil_right, List.mem_singleton,
    List.mem_map, List.mem_filter, or_assoc, HasClientEntry, and_assoc, eq_comm (a := e)]

/-- What a client leaves in the plan. -/
theorem exists_kept_adguardClientEntries {τ : Type} (entries : List (τ × Emitted))
    (client : AdguardClient) :
    (∃ e ∈ adguardClientEntries d client, Kept entries e) ↔
      client.features.any (·.2.counts) = true ∨
        strip client.name ≠ [] ∧ clientIdentifiers d client ≠ [] ∨
        client.name ≠ [] ∧ clientCidrOrIp client ≠ [] ∧ (collect entries).clientsFull = [] := by
  constructor
  · rintro ⟨e, he, hkept⟩
    rcases (mem_adguardClientEntries d).mp he with ⟨h, rfl⟩ | ⟨-, rfl⟩ | ⟨feature, hmem, hcounts, -⟩
    · exact .inr (.inr ⟨h.1, h.2, hkept⟩)
    · exact .inr (.inl hkept)
    · exact .inl (List.any_eq_true.mpr ⟨feature, hmem, hcounts⟩)
  · rintro (h | h | h)
    · obtain ⟨feature, hmem, hcounts⟩ := List.any_eq_true.mp h
      exact ⟨_, (mem_adguardClientEntries d).mpr (.inr (.inr ⟨feature, hmem, hcounts, rfl⟩)),
        trivial⟩
    · have hname : client.name ≠ [] := by
        intro hname
        rw [hname] at h
        exact h.1 rfl
      exact ⟨_, (mem_adguardClientEntries d).mpr (.inr (.inl ⟨⟨hname, .inl h.2⟩, rfl⟩)), h⟩
    · exact ⟨_, (mem_adguardClientEntries d).mpr (.inl ⟨⟨h.1, h.2.1⟩, rfl⟩), h.2.2⟩

/-- The persistent clients are those of the loop over the clients. -/
theorem client_mem_adguardEntries {thing : AdguardThing} {entry : FullClientEntry} :
    (thing, Emitted.client entry) ∈ adguardEntries d config ↔
      ∃ (i : ℕ) (client : AdguardClient), config.clients[i]? = some client ∧
        thing = .client i ∧ Emitted.client entry ∈ adguardClientEntries d client := by
  have hplain {e : Emitted} (he : e.IsPlain) : Emitted.client entry ≠ e := by
    rintro rfl
    exact he
  simp only [adguardEntries, List.mem_append, mem_loopEntries]
  constructor
  · rintro (((((((( h | h) | h) | h) | h) | h) | h) | h) | h)
    · obtain ⟨i, x, -, -, hmem⟩ := h
      exact absurd rfl (hplain (isPlain_filterEntry d x _ hmem))
    · obtain ⟨i, x, -, -, hmem⟩ := h
      exact absurd rfl (hplain (isPlain_whitelistEntry x _ hmem))
    · obtain ⟨i, x, -, -, hmem⟩ := h
      rcases userRuleEntry_cases (i + 1) x with ⟨-, hnil⟩ | ⟨-, e, hsingle, he⟩
      · rw [hnil] at hmem
        exact absurd hmem List.not_mem_nil
      · rw [hsingle] at hmem
        exact absurd (List.mem_singleton.mp hmem) (hplain he)
    · obtain ⟨i, x, -, -, hmem⟩ := h
      exact absurd (List.mem_singleton.mp hmem) (hplain (isPlain_rewriteEntry d _ x))
    · exact h
    · obtain ⟨i, x, -, -, hmem⟩ := h
      exact absurd (List.mem_singleton.mp hmem)
        (hplain (isPlain_allowedEntry d x))
    · obtain ⟨i, x, -, -, hmem⟩ := h
      exact absurd (List.mem_singleton.mp hmem)
        (hplain (isPlain_disallowedEntry d x))
    · obtain ⟨i, x, -, -, hmem⟩ := h
      exact absurd (List.mem_singleton.mp hmem)
        (hplain (isPlain_translateUpstreamResolver d x _ _))
    · obtain ⟨e, hmem, heq⟩ := List.mem_map.mp h
      rw [Prod.mk.injEq] at heq
      exact absurd heq.2.symm (hplain (isPlain_settingEntries _ e hmem))
  · intro h
    exact .inl (.inl (.inl (.inl (.inr h))))

/-- No client has an entry of its own. -/
theorem clientsFull_adguardEntries :
    (collect (adguardEntries d config)).clientsFull = [] ↔
      ∀ other ∈ config.clients, ¬HasClientEntry d other := by
  simp only [clientsFull_collect_eq_nil, client_mem_adguardEntries]
  constructor
  · intro h other hother hentry
    obtain ⟨i, hi⟩ := List.getElem?_of_mem hother
    exact h (.client i) (fullClient d other)
      ⟨i, other, hi, rfl, (mem_adguardClientEntries d).mpr (.inr (.inl ⟨hentry, rfl⟩))⟩
  · rintro h thing entry ⟨i, client, hi, -, hmem⟩
    rcases (mem_adguardClientEntries d).mp hmem with ⟨-, heq⟩ | ⟨hentry, -⟩ | ⟨feature, -, -, heq⟩
    · exact nomatch heq
    · exact h client (List.mem_of_getElem? hi) hentry
    · exact nomatch heq

/-- The list that a loop goes over is the second one where the first is empty. -/
theorem orList_place {α : Type} {a b : List α} {second : Bool} {i : ℕ}
    (h : i < (if second then b else a).length) (P : α → Prop) :
    (second = a.isEmpty ∧ ∃ x, (orList a b)[i]? = some x ∧ P x) ↔
      (second = true → a = []) ∧ ∃ x, (if second then b else a)[i]? = some x ∧ P x := by
  cases a with
  | nil =>
      cases second with
      | false => exact absurd h (Nat.not_lt_zero i)
      | true => simp [orList]
  | cons x xs => cases second <;> simp [orList]

/-- The entries of one round of a loop, where `p` says that the loop is the right one. -/
theorem exists_loop {α : Type} {p : Prop} {n : ℕ} {xs : List α} {round : ℕ → α → List Emitted}
    {K : Emitted → Prop} :
    (∃ e, (∃ (i : ℕ) (x : α), xs[i]? = some x ∧ (p ∧ n = i) ∧ e ∈ round i x) ∧ K e) ↔
      p ∧ ∃ x, xs[n]? = some x ∧ ∃ e ∈ round n x, K e := by
  constructor
  · rintro ⟨e, ⟨i, x, hx, ⟨hp, rfl⟩, he⟩, hK⟩
    exact ⟨hp, x, hx, e, he, hK⟩
  · rintro ⟨hp, x, hx, e, he, hK⟩
    exact ⟨e, ⟨n, x, hx, ⟨hp, rfl⟩, he⟩, hK⟩

/-- A round that always has a kept entry. -/
theorem exists_single {α : Type} {n : ℕ} {xs : List α} {round : ℕ → α → Emitted}
    {K : Emitted → Prop} (h : n < xs.length) (hround : ∀ i x, K (round i x)) :
    ∃ e, (∃ (i : ℕ) (x : α), xs[i]? = some x ∧ n = i ∧ e ∈ [round i x]) ∧ K e :=
  ⟨round n xs[n], ⟨n, xs[n], List.getElem?_eq_getElem h, rfl, List.mem_singleton_self _⟩,
    hround n xs[n]⟩

/-- The objects that get an item are those that are not lost. -/
theorem accounted_adguardThing (domain : Str) {thing : AdguardThing} (h : HasThing config thing) :
    Accounted (adguardEntries d config) d.toImportData domain thing ↔
      KeptThing d config thing := by
  rw [accounted_iff]
  have hclient := exists_kept_adguardClientEntries d (adguardEntries d config)
  rw [clientsFull_adguardEntries] at hclient
  generalize hentries : adguardEntries d config = entries at hclient ⊢
  have hmem (e : Emitted) : (thing, e) ∈ entries ↔ (thing, e) ∈ adguardEntries d config := by
    rw [hentries]
  simp only [adguardEntries, List.mem_append, mem_loopEntries] at hmem
  simp only [hmem]
  clear hmem hentries
  cases thing with
  | filter i => exact h.elim
  | whitelistFilter i => exact h.elim
  | setting => exact h.elim
  | userRule nested i =>
      simp only [reduceCtorEq, AdguardThing.userRule.injEq, false_and, and_false, exists_false,
        List.mem_map, Prod.mk.injEq, false_or, or_false]
      rw [exists_loop, orList_place h, KeptThing]
      refine and_congr_right fun _ => ?_
      rw [← AdguardConfig.rulesAt, List.getElem?_eq_getElem h]
      simp only [Option.some.injEq, exists_eq_left', Option.mem_def, forall_eq']
      rcases userRuleEntry_cases (i + 1) (config.rulesAt nested)[i] with
        ⟨hblank, hnil⟩ | ⟨hblank, e, hsingle, he⟩
      · rw [hnil]
        exact iff_of_false (fun ⟨e, he, _⟩ => List.not_mem_nil he) (not_not.mpr hblank)
      · rw [hsingle]
        exact iff_of_true ⟨e, List.mem_singleton_self e, he.kept⟩ hblank
  | rewrite nested i =>
      simp only [reduceCtorEq, AdguardThing.rewrite.injEq, false_and, and_false, exists_false,
        List.mem_map, Prod.mk.injEq, false_or, or_false]
      have hplace : nested = !config.filtering.rewrites.isEmpty ↔
          (!nested) = config.filtering.rewrites.isEmpty := by
        cases nested <;> cases config.filtering.rewrites.isEmpty <;> decide
      have hlist : i < (if !nested then config.rewrites else config.filtering.rewrites).length := by
        cases nested with
        | false => exact h
        | true => exact h
      rw [exists_loop, hplace, orList_place hlist, KeptThing, List.getElem?_eq_getElem hlist]
      refine (and_iff_left ?_).trans (by rw [Bool.not_eq_true'])
      exact ⟨_, rfl, _, List.mem_singleton_self _, (isPlain_rewriteEntry d _ _).kept⟩
  | client i =>
      simp only [reduceCtorEq, AdguardThing.client.injEq, false_and, and_false, exists_false,
        List.mem_map, Prod.mk.injEq, false_or, or_false]
      constructor
      · rintro ⟨e, ⟨j, client, hj, rfl, he⟩, hkept⟩ client' hclient'
        have heq : client = client' := Option.some.inj (hj.symm.trans hclient')
        exact heq ▸ (hclient client).mp ⟨e, he, hkept⟩
      · intro hkept
        have hi : config.clients[i]? = some config.clients[i] := List.getElem?_eq_getElem h
        obtain ⟨e, he, hkept⟩ := (hclient _).mpr (hkept _ hi)
        exact ⟨e, ⟨i, _, hi, rfl, he⟩, hkept⟩
  | allowedClient i =>
      simp only [reduceCtorEq, AdguardThing.allowedClient.injEq, false_and, and_false,
        exists_false, List.mem_map, Prod.mk.injEq, false_or, or_false]
      exact iff_of_true (exists_single h fun _ x => (isPlain_allowedEntry d x).kept) trivial
  | disallowedClient i =>
      simp only [reduceCtorEq, AdguardThing.disallowedClient.injEq, false_and, and_false,
        exists_false, List.mem_map, Prod.mk.injEq, false_or, or_false]
      exact iff_of_true (exists_single h fun _ x => (isPlain_disallowedEntry d x).kept) trivial
  | upstream i =>
      simp only [reduceCtorEq, AdguardThing.upstream.injEq, false_and, and_false,
        exists_false, List.mem_map, Prod.mk.injEq, false_or, or_false]
      exact iff_of_true
        (exists_single h fun _ x => (isPlain_translateUpstreamResolver d x _ _).kept) trivial

end Kept

/-! ## Nothing is lost without an item -/

/-- A line of a Pi-hole text gets an item of the plan unless it is a word before a domain to block
with white space between dots after it.  An object of an AdGuard configuration gets one exactly
when it is a user rule that is not blank and stands in the list that is read, a rewrite in the list
that is read, an entry of the access lists, an upstream, or a client that reports a feature or has
a name and an identifier to import. -/
theorem accounted_iff_kept (domain : Str) :
    (∀ (d : PiholeData) (defaultDomain text : Str) (tr : StoredTranslation),
      parsePiholeText d defaultDomain text = some tr →
      tr = collect (piholeTextEntries d defaultDomain text) ∧
      ∀ (i : ℕ) (raw : Str), (splitlines text)[i]? = some raw → IsPiholeThing d raw →
        (Accounted (piholeTextEntries d defaultDomain text) d.toImportData domain (i + 1) ↔
          ¬((strip raw).length ≤ maxLineChars ∧ BlankRule d (strip raw)))) ∧
    ∀ (d : AdguardData) (config : AdguardConfig),
      translateAdguardConfig d config = collect (adguardEntries d config) ∧
      ∀ thing, HasThing config thing →
        (Accounted (adguardEntries d config) d.toImportData domain thing ↔
          KeptThing d config thing) := by
  constructor
  · intro d defaultDomain text tr htr
    rw [parsePiholeText] at htr
    split_ifs at htr
    refine ⟨(Option.some.inj htr).symm, fun i raw hraw hthing => ?_⟩
    exact piholeLine_accounted_iff d defaultDomain domain text hraw hthing
  · intro d config
    exact ⟨rfl, fun thing hthing => accounted_adguardThing d config domain hthing⟩

def asciiPihole : PiholeData where
  toImportData := asciiHost.data
  isDigit _ := false
  int _ := none

def asciiAdguard : AdguardData where
  toImportData := asciiHost.data
  isPrintable _ := true
  validateResolver _ := .error "resolver address is required".toList

/-- A line to block, and a rule. -/
theorem accounted_iff_kept_ads :
    Accounted (piholeTextEntries asciiPihole [] "block ads.example".toList)
      asciiPihole.toImportData "home.arpa".toList 1 ∧
    Accounted (adguardEntries asciiAdguard { userRules := ["||ads.example^".toList] })
      asciiAdguard.toImportData "home.arpa".toList (.userRule false 0) := by
  have h := accounted_iff_kept "home.arpa".toList
  constructor
  · refine ((h.1 asciiPihole [] "block ads.example".toList _ rfl).2 0 "block ads.example".toList
      (by decide) (by decide)).mpr (by decide)
  · refine ((h.2 asciiAdguard { userRules := ["||ads.example^".toList] }).2 (.userRule false 0)
      Nat.zero_lt_one).mpr ⟨nofun, ?_⟩
    rintro raw ⟨⟩
    decide

/-! ### A client without an address

A tablet that AdGuard knows by its hardware address. -/

def tabletConfig : AdguardConfig where
  clients := [{ name := "tablet".toList, ids := ["aa:bb:cc:dd:ee:ff".toList] }]

/-- No item of the plan is about the tablet: the address is not reported, and the client is not
imported without it. -/
theorem tablet_lost : ¬((∀ (d : PiholeData) (defaultDomain domain text : Str)
      (tr : StoredTranslation), parsePiholeText d defaultDomain text = some tr →
      ∀ (i : ℕ) (raw : Str), (splitlines text)[i]? = some raw → IsPiholeThing d raw →
        Accounted (piholeTextEntries d defaultDomain text) d.toImportData domain (i + 1)) ∧
    ∀ (d : AdguardData) (config : AdguardConfig) (domain : Str) (thing : AdguardThing),
      HasThing config thing → Accounted (adguardEntries d config) d.toImportData domain thing) := by
  rintro ⟨-, h⟩
  obtain ⟨e, he, -⟩ := (accounted_iff asciiHost.data "home.arpa".toList _).mp
    (h asciiAdguard tabletConfig "home.arpa".toList (.client 0) Nat.zero_lt_one)
  have hnone : (adguardEntries asciiAdguard tabletConfig).isEmpty = true := by decide +kernel
  rw [List.isEmpty_iff.mp hnone] at he
  exact List.not_mem_nil he

end AlderpointDNS.Importer
