import AlderpointDNS.Importer.Apply

/-!
# The migration plan

`build_migration_plan` goes through the sections of a stored translation and puts an item for each
entry into a category.  The key of an item is the category and the place of the item in it, and the
operator's selection comes back as a set of such keys, for which `apply_migration_job` builds the
plan again.

* `Placement` — where an entry goes; one function for each section says so.
* `Designates` — the entry that a key names in a plan.
* `recordOutcome_eq` — what becomes of the record at a place of its section.
* **`keys_stable_iff`** — two plans of a translation name the same entries by their keys exactly
  when the two domains treat each record alike.
* `key_moved` — a record that the second domain takes for a duplicate.

Not modelled: the texts of an item that are only displayed.
-/

namespace AlderpointDNS.Importer

open Text Ipaddress

/-! ## Entries and items -/

/-- `MIGRATION_CATEGORIES`, in order. -/
inductive Category where
  | blocklists
  | customBlocks
  | customAllows
  | rewrites
  | regexRules
  | localDns
  | upstreams
  | clientScoped
  | clientsAccess
  | comments
  | duplicates
  | invalid
  | unsupported
  | skipped
deriving DecidableEq, Repr

/-- The categories in their order. -/
def categories : List Category :=
  [.blocklists, .customBlocks, .customAllows, .rewrites, .regexRules, .localDns, .upstreams,
    .clientScoped, .clientsAccess, .comments, .duplicates, .invalid, .unsupported, .skipped]

/-- The key of a category. -/
def Category.name : Category → String
  | .blocklists => "blocklists"
  | .customBlocks => "custom_blocks"
  | .customAllows => "custom_allows"
  | .rewrites => "rewrites"
  | .regexRules => "regex_rules"
  | .localDns => "local_dns"
  | .upstreams => "upstreams"
  | .clientScoped => "client_scoped"
  | .clientsAccess => "clients_access"
  | .comments => "comments"
  | .duplicates => "duplicates"
  | .invalid => "invalid"
  | .unsupported => "unsupported"
  | .skipped => "skipped"

/-- The sections of a translation, in the order in which they are planned. -/
inductive Section where
  | sources
  | rules
  | records
  | resolvers
  | aliases
  | clients
  | accessAllowed
  | accessDenied
  | clientScoped
  | allowlists
  /-- `unsupported_rules` and `untranslatable` -/
  | findings
deriving DecidableEq, Repr

/-- The kind of the object that an entry of the section becomes. -/
def Section.kind : Section → Option ItemKind
  | .sources => some .source
  | .rules => some .rule
  | .records => some .localDns
  | .resolvers => some .upstream
  | .aliases => some .clientAlias
  | .clients => some .client
  | .accessAllowed => some .accessAllow
  | .accessDenied => some .accessDeny
  | .clientScoped | .allowlists | .findings => none

/-- The translation with its findings, which carry no object. -/
structure StoredTranslation extends Translation where
  clientScoped : List Str := []
  allowlistUnsupported : List Str := []
  unsupportedRules : List Str := []
  untranslatable : List Str := []

/-- Where an entry goes: its category, and whether its item can be selected, is selected, and
names an object to apply. -/
structure Placement where
  category : Category
  selectable : Bool := true
  selected : Bool := true
  applies : Bool := true
deriving DecidableEq, Repr

/-- An item that only informs. -/
def Placement.finding (category : Category) : Placement := ⟨category, false, true, false⟩

/-- A duplicate within the import. -/
def Placement.duplicate : Placement := ⟨.duplicates, true, false, true⟩

/-- An item of the plan, with the entry that it is about. -/
structure PlannedItem where
  origin : Section × ℕ
  placement : Placement
deriving DecidableEq, Repr

/-- `item["apply"]`. -/
def PlannedItem.apply (item : PlannedItem) : Option (ItemKind × ℕ) :=
  if item.placement.applies then item.origin.1.kind.map fun kind => (kind, item.origin.2) else none

/-- A loop over entries that remembers something: where each goes, `none` for an entry without an
item. -/
def planLoop {σ α : Type} (place : σ → α → Option Placement × σ) : σ → List α →
    List (Option Placement)
  | _, [] => []
  | seen, x :: xs => (place seen x).1 :: planLoop place (place seen x).2 xs

/-- The items of a section. -/
def sectionItems (origin : Section) (placements : List (Option Placement)) : List PlannedItem :=
  placements.zipIdx.filterMap fun p => p.1.map fun placement => ⟨(origin, p.2), placement⟩

/-! ## The sections -/

section Sections

variable (d : ImportData)

/-- `url.lower().startswith(("http://", "https://"))`. -/
def isHttpUrl (url : Str) : Bool :=
  startsWith (d.toLower url) "http://".toList || startsWith (d.toLower url) "https://".toList

/-- A blocklist subscription. -/
def placeSource (source : SourceEntry) : Placement :=
  if (strip source.name).take 120 = [] ∨ strip source.url = []
      ∨ ¬isHttpUrl d (strip source.url) then
    .finding .skipped
  else { category := .blocklists }

/-- `_RULE_TYPE_CATEGORY`. -/
def ruleTypeCategory : RuleType → Category
  | .block => .customBlocks
  | .allow => .customAllows
  | .rewrite => .rewrites
  | .regexBlock | .regexAllow => .regexRules
  | .comment | .unsupported => .unsupported

/-- A custom rule, after the rules with these normalized texts and actions. -/
def placeRule (seen : List (Str × RuleAction)) (entry : CustomRuleEntry) :
    Option Placement × List (Str × RuleAction) :=
  let rules := parseRule d.toParserData entry.plainDomainSubdomains entry.rule
  let valid := rules.filter (·.validationState = .valid)
  let unsupported := rules.filter (·.validationState = .unsupported)
  let dupkeys := valid.map fun r => (r.normalized, r.action)
  if rules = [] then (none, seen)
  else
    (some (
      if rules.all (·.ruleType = .comment) then { category := .comments }
      else if valid ≠ [] ∧ dupkeys.all (seen.contains ·) then .duplicate
      else match valid with
        | rule :: _ => { category := ruleTypeCategory rule.ruleType }
        | [] =>
            if unsupported = [] then { category := .invalid }
            else if isSubstring "$client".toList
                (join "; ".toList (unsupported.map (·.unsupportedReason))) then
              { category := .clientScoped }
            else { category := .unsupported }),
      seen ++ dupkeys)

/-- The record that an entry of `"rewrites_as_local_dns"` stands for under a domain. -/
def plannedRecord (domain : Str) (record : RecordEntry) : Option ValidRecord :=
  (normalizeFqdn d.toUnicodeData record.fqdn domain).bind fun fqdn =>
    validateRecord d.toParserData record.recordType fqdn.1 record.value
      (if record.ttl = some 0 then some 300 else record.ttl)

/-- What tells two records apart. -/
def recordKey (domain : Str) (record : RecordEntry) : Option (Str × RecordType × Str) :=
  (plannedRecord d domain record).map fun valid => (valid.name.1, valid.recordType, valid.value)

/-- A local DNS record. -/
def placeRecord (domain : Str) (seen : List (Str × RecordType × Str)) (record : RecordEntry) :
    Option Placement × List (Str × RecordType × Str) :=
  match recordKey d domain record with
  | none => (some (.finding .invalid), seen)
  | some key =>
      if key ∈ seen then (some .duplicate, seen)
      else (some { category := .localDns }, seen ++ [key])

/-- An upstream resolver. -/
def placeResolver (seen : List Upstream.Settings) (resolver : ResolverEntry) :
    Option Placement × List Upstream.Settings :=
  match resolver with
  | none => (some (.finding .skipped), seen)
  | some (settings, _) =>
      if seen.any (sameServer settings ·) then (some .duplicate, seen)
      else (some { category := .upstreams }, seen ++ [settings])

/-- A client alias. -/
def placeAlias (client : AliasEntry) : Placement :=
  if strip client.displayName = [] ∨ ipNetworkStr (strip client.cidrOrIp) = none then
    .finding .skipped
  else { category := .clientScoped }

/-- A persistent client. -/
def placeClient (client : FullClientEntry) : Option Placement :=
  if strip client.name = [] ∨ client.identifiers = [] then none
  else some { category := .clientsAccess }

/-- Where the entries of a section go. -/
def placements (domain : Str) (tr : StoredTranslation) : Section → List (Option Placement)
  | .sources => tr.blocklistSources.map fun source => some (placeSource d source)
  | .rules => planLoop (placeRule d) [] tr.ruleEntries
  | .records => planLoop (placeRecord d domain) [] tr.rewritesAsLocalDns
  | .resolvers => planLoop placeResolver [] tr.upstreamResolvers
  | .aliases =>
      if tr.clientsFull = [] then tr.clientsAsAliases.map fun client => some (placeAlias client)
      else []
  | .clients => tr.clientsFull.map placeClient
  | .accessAllowed => tr.accessAllowed.map fun _ => some { category := .clientsAccess }
  | .accessDenied => tr.accessDenied.map fun _ => some { category := .clientsAccess }
  | .clientScoped => tr.clientScoped.map fun _ => some (.finding .clientScoped)
  | .allowlists => tr.allowlistUnsupported.map fun _ => some (.finding .unsupported)
  | .findings =>
      (tr.unsupportedRules ++ tr.untranslatable).map fun _ => some (.finding .unsupported)

/-- The items in the order of the calls of `add`. -/
def plannedItems (domain : Str) (tr : StoredTranslation) : List PlannedItem :=
  [Section.sources, .rules, .records, .resolvers, .aliases, .clients, .accessAllowed,
    .accessDenied, .clientScoped, .allowlists, .findings].flatMap fun origin =>
      sectionItems origin (placements d domain tr origin)

end Sections

/-! ## The plan -/

/-- `f"{category}:{index}"`. -/
def itemKey (category : Category) (index : ℕ) : Str :=
  category.name.toList ++ ':' :: (Nat.repr index).toList

/-- The items of a category with their keys. -/
def keyedCategory (items : List PlannedItem) (category : Category) : List (Str × PlannedItem) :=
  (items.filter (·.placement.category = category)).zipIdx.map fun p => (itemKey category p.2, p.1)

/-- The items with their keys, in the order of `_plan_items`. -/
def keyedItems (items : List PlannedItem) : List (Str × PlannedItem) :=
  categories.flatMap (keyedCategory items)

/-- `build_migration_plan`. -/
def buildMigrationPlan (d : ImportData) (domain : Str) (tr : StoredTranslation) :
    MigrationPlan where
  domain := domain
  items := (keyedItems (plannedItems d domain tr)).map fun p =>
    { key := p.1
      selected := p.2.placement.selected && p.2.placement.selectable
      apply := p.2.apply }

/-- `_internal_domain`; `setting` is the row of `local_dns_settings`, where it can be read. -/
def internalDomain (u : UnicodeData) (defaultDomain setting : Option Str) : Str :=
  match defaultDomain.filter (· ≠ []) with
  | some domain => u.toLower (stripBy (· = '.') (strip domain))
  | none => setting.getD "home.arpa".toList

/-- The key names the entry in the plan with these items. -/
def Designates (items : List PlannedItem) (key : Str) (origin : Section × ℕ) : Prop :=
  ∃ item, (key, item) ∈ keyedItems items ∧ item.origin = origin

/-- The objects that a selection applies, in order. -/
def appliedObjects (items : List PlannedItem) (selected : List Str) : List (ItemKind × ℕ) :=
  ((keyedItems items).filter fun p => selected.contains p.1).filterMap (·.2.apply)

/-! ## When the keys stay the same -/

/-- The key of a category names it. -/
theorem find_category (c : Category) :
    categories.find? (fun d => d.name.toList = c.name.toList) = some c := by
  cases c <;> decide +kernel

/-- The category of an item is read off its key. -/
theorem itemKey_category {c c' : Category} {n n' : ℕ} (h : itemKey c n = itemKey c' n') :
    c = c' := by
  have key (c : Category) (n : ℕ) : (itemKey c n).takeWhile (· ≠ ':') = c.name.toList := by
    have hname : ∀ x ∈ c.name.toList, decide (x ≠ ':') = true :=
      List.all_eq_true.mp (by cases c <;> decide +kernel)
    rw [itemKey, List.takeWhile_append_of_pos hname]
    simp
  have names : c.name.toList = c'.name.toList := by rw [← key c n, ← key c' n', h]
  have hfound := find_category c
  rw [names, find_category c'] at hfound
  exact (Option.some.inj hfound).symm

theorem mem_keyedItems {items : List PlannedItem} {key : Str} {item : PlannedItem} :
    (key, item) ∈ keyedItems items ↔
      ∃ n, (items.filter (·.placement.category = item.placement.category))[n]? = some item ∧
        key = itemKey item.placement.category n := by
  unfold keyedItems keyedCategory
  simp only [List.mem_flatMap, List.mem_map, Prod.exists, List.mem_zipIdx_iff_getElem?,
    Prod.mk.injEq]
  constructor
  · rintro ⟨c, -, item', n, h, rfl, rfl⟩
    have hc : item'.placement.category = c := by
      simpa using (List.mem_filter.mp (List.mem_of_getElem? h)).2
    subst hc
    exact ⟨n, h, rfl⟩
  · rintro ⟨n, h, rfl⟩
    refine ⟨_, ?_, item, n, h, rfl, rfl⟩
    cases item.placement.category <;> decide

/-- Every item has a key. -/
theorem exists_key {items : List PlannedItem} {item : PlannedItem} (h : item ∈ items) :
    ∃ key, (key, item) ∈ keyedItems items := by
  have hmem : item ∈ items.filter (·.placement.category = item.placement.category) := by
    simp [h]
  obtain ⟨n, hn⟩ := List.getElem?_of_mem hmem
  exact ⟨_, mem_keyedItems.mpr ⟨n, hn, rfl⟩⟩

theorem mem_of_mem_keyedItems {items : List PlannedItem} {key : Str} {item : PlannedItem}
    (h : (key, item) ∈ keyedItems items) : item ∈ items := by
  obtain ⟨n, hn, -⟩ := mem_keyedItems.mp h
  exact List.mem_of_mem_filter (List.mem_of_getElem? hn)

section Records

variable (d : ImportData)

/-- A record before it in the section comes to the same. -/
def RepeatsEarlier (domain : Str) (before : List RecordEntry) (record : RecordEntry) : Prop :=
  ∃ key, recordKey d domain record = some key ∧ some key ∈ before.map (recordKey d domain)

instance (domain : Str) (before : List RecordEntry) (record : RecordEntry) :
    Decidable (RepeatsEarlier d domain before record) :=
  decidable_of_iff ((recordKey d domain record).any fun key =>
      decide (some key ∈ before.map (recordKey d domain))) (by
    unfold RepeatsEarlier
    cases recordKey d domain record <;> simp)

/-- What becomes of a record after the records before it. -/
def recordPlacement (domain : Str) (before : List RecordEntry) (record : RecordEntry) :
    Placement :=
  if recordKey d domain record = none then .finding .invalid
  else if RepeatsEarlier d domain before record then .duplicate
  else { category := .localDns }

/-- The loop over the records, after some that left their keys in `seen`. -/
theorem planLoop_placeRecord (domain : Str) (records : List RecordEntry) :
    ∀ (before : List RecordEntry) (seen : List (Str × RecordType × Str)),
      (∀ key, key ∈ seen ↔ some key ∈ before.map (recordKey d domain)) →
      ∀ i record, records[i]? = some record →
        (planLoop (placeRecord d domain) seen records)[i]? =
          some (some (recordPlacement d domain (before ++ records.take i) record)) := by
  induction records with
  | nil => simp
  | cons r rs ih =>
      intro before seen hseen i record hrecord
      have hplace : (placeRecord d domain seen r).1 = some (recordPlacement d domain before r) := by
        unfold placeRecord recordPlacement
        rcases Option.eq_none_or_eq_some (recordKey d domain r) with hkey | ⟨key, hkey⟩
        · simp [hkey]
        · have hrepeats : RepeatsEarlier d domain before r ↔ key ∈ seen := by
            simp [RepeatsEarlier, hkey, hseen key]
          by_cases hmem : key ∈ seen
          · simp [hkey, hrepeats, hmem]
          · simp [hkey, hrepeats, hmem]
      have hnext : ∀ key, key ∈ (placeRecord d domain seen r).2 ↔
          some key ∈ (before ++ [r]).map (recordKey d domain) := by
        intro key
        rw [List.map_append, List.mem_append, ← hseen key]
        unfold placeRecord
        cases hkey : recordKey d domain r with
        | none => simp [hkey]
        | some key' =>
            by_cases hmem : key' ∈ seen
            · simp only [hmem, if_true, List.map_cons, List.map_nil, List.mem_singleton, hkey,
                Option.some.injEq]
              exact ⟨.inl, fun h => h.elim id fun h => h ▸ hmem⟩
            · simp [hmem, hkey]
      cases i with
      | zero =>
          simp only [List.getElem?_cons_zero, Option.some.injEq] at hrecord
          subst hrecord
          simp [planLoop, hplace]
      | succ i =>
          simp only [List.getElem?_cons_succ] at hrecord
          have := ih (before ++ [r]) _ hnext i record hrecord
          simpa [planLoop] using this

/-- What becomes of the record at a place of its section. -/
theorem recordOutcome_eq (domain : Str) (tr : StoredTranslation) {i : ℕ} {record : RecordEntry}
    (h : tr.rewritesAsLocalDns[i]? = some record) :
    (placements d domain tr .records)[i]? =
      some (some (recordPlacement d domain (tr.rewritesAsLocalDns.take i) record)) := by
  have := planLoop_placeRecord d domain tr.rewritesAsLocalDns [] [] (by simp) i record h
  simpa [placements] using this

theorem length_planLoop {σ α : Type} (place : σ → α → Option Placement × σ) (xs : List α) :
    ∀ seen, (planLoop place seen xs).length = xs.length := by
  induction xs with
  | nil => simp [planLoop]
  | cons x xs ih => simp [planLoop, ih]

/-- The two domains treat each record alike: it is invalid under both or neither, and repeats a
record before it under both or neither. -/
def RecordsAlike (domain domain' : Str) (records : List RecordEntry) : Prop :=
  ∀ i record, records[i]? = some record →
    (recordKey d domain record = none ↔ recordKey d domain' record = none) ∧
    (RepeatsEarlier d domain (records.take i) record ↔
      RepeatsEarlier d domain' (records.take i) record)

/-- The category tells the three cases of a record apart. -/
theorem recordPlacement_category {domain domain' : Str} {before : List RecordEntry}
    {record : RecordEntry}
    (h : (recordPlacement d domain before record).category =
      (recordPlacement d domain' before record).category) :
    (recordKey d domain record = none ↔ recordKey d domain' record = none) ∧
    (RepeatsEarlier d domain before record ↔ RepeatsEarlier d domain' before record) := by
  have none_of (domain : Str) (hr : RepeatsEarlier d domain before record) :
      recordKey d domain record ≠ none := by
    obtain ⟨key, hkey, -⟩ := hr
    simp [hkey]
  have h1 := none_of domain
  have h2 := none_of domain'
  unfold recordPlacement Placement.finding Placement.duplicate at h
  split_ifs at h <;> simp_all

theorem placements_records {domain domain' : Str} {tr : StoredTranslation}
    (h : RecordsAlike d domain domain' tr.rewritesAsLocalDns) :
    placements d domain tr .records = placements d domain' tr .records := by
  apply List.ext_getElem?
  intro i
  cases hi : tr.rewritesAsLocalDns[i]? with
  | none =>
      have hlen (domain : Str) : (placements d domain tr .records)[i]? = none := by
        rw [List.getElem?_eq_none_iff] at hi ⊢
        simpa [placements, length_planLoop] using hi
      rw [hlen domain, hlen domain']
  | some record =>
      obtain ⟨hnone, hrepeats⟩ := h i record hi
      rw [recordOutcome_eq d domain tr hi, recordOutcome_eq d domain' tr hi]
      unfold recordPlacement
      simp only [hnone, hrepeats]

theorem plannedItems_congr {domain domain' : Str} {tr : StoredTranslation}
    (h : RecordsAlike d domain domain' tr.rewritesAsLocalDns) :
    plannedItems d domain tr = plannedItems d domain' tr := by
  have hrecords := placements_records d h
  have hall : ∀ origin, placements d domain tr origin = placements d domain' tr origin := by
    intro origin
    cases origin <;> first | exact hrecords | rfl
  simp only [plannedItems, hall]

theorem mem_sectionItems {origin : Section} {ps : List (Option Placement)} {item : PlannedItem} :
    item ∈ sectionItems origin ps ↔
      item.origin.1 = origin ∧ ps[item.origin.2]? = some (some item.placement) := by
  obtain ⟨⟨s, i⟩, p⟩ := item
  unfold sectionItems
  simp only [List.mem_filterMap, Prod.exists, List.mem_zipIdx_iff_getElem?, Option.map_eq_some_iff,
    PlannedItem.mk.injEq, Prod.mk.injEq]
  constructor
  · rintro ⟨o, j, h, p', rfl, ⟨rfl, rfl⟩, rfl⟩
    exact ⟨rfl, h⟩
  · rintro ⟨rfl, h⟩
    exact ⟨_, _, h, p, rfl, ⟨rfl, rfl⟩, rfl⟩

/-- The items about a record. -/
theorem mem_plannedItems_record (domain : Str) (tr : StoredTranslation) {i : ℕ}
    {record : RecordEntry} (h : tr.rewritesAsLocalDns[i]? = some record) (p : Placement) :
    ⟨(.records, i), p⟩ ∈ plannedItems d domain tr ↔
      p = recordPlacement d domain (tr.rewritesAsLocalDns.take i) record := by
  unfold plannedItems
  simp only [List.mem_flatMap, mem_sectionItems]
  constructor
  · rintro ⟨origin, -, rfl, hp⟩
    rw [recordOutcome_eq d domain tr h] at hp
    simpa using hp.symm
  · rintro rfl
    exact ⟨.records, by simp, rfl, recordOutcome_eq d domain tr h⟩

end Records

/-- The keys of a preview name the same entries in the plan of the apply, and every selection
applies the same objects, exactly when the internal domains of the two occasions treat each record
of the translation alike. -/
theorem keys_stable_iff (d : ImportData) (tr : StoredTranslation)
    (defaultDomain setting setting' : Option Str) :
    let domain := internalDomain d.toUnicodeData defaultDomain setting
    let domain' := internalDomain d.toUnicodeData defaultDomain setting'
    let preview := plannedItems d domain tr
    let rebuilt := plannedItems d domain' tr
    ((∀ key origin, Designates preview key origin → Designates rebuilt key origin) ∧
        ∀ selected, appliedObjects rebuilt selected = appliedObjects preview selected) ↔
      RecordsAlike d domain domain' tr.rewritesAsLocalDns := by
  intro domain domain' preview rebuilt
  constructor
  · rintro ⟨hkeys, -⟩ i record hrecord
    apply recordPlacement_category d
    -- the key of the record in the preview carries its category over to the rebuilt plan
    obtain ⟨key, hkey⟩ := exists_key ((mem_plannedItems_record d domain tr hrecord _).mpr rfl)
    obtain ⟨⟨origin, p⟩, hitem, horigin⟩ := hkeys key (.records, i) ⟨_, hkey, rfl⟩
    simp only at horigin
    subst horigin
    have hp := (mem_plannedItems_record d domain' tr hrecord p).mp (mem_of_mem_keyedItems hitem)
    obtain ⟨n, -, hn⟩ := mem_keyedItems.mp hkey
    obtain ⟨n', -, hn'⟩ := mem_keyedItems.mp hitem
    have hcategory := itemKey_category (hn.symm.trans hn')
    simpa [hp] using hcategory
  · intro h
    have hitems : preview = rebuilt := plannedItems_congr d h
    rw [hitems]
    exact ⟨fun _ _ h => h, fun _ => rfl⟩

/-! ### A record that becomes a duplicate

Two spellings of one host that the second domain makes the same, and a record after them. -/

def nasRecords : StoredTranslation where
  rewritesAsLocalDns :=
    [{ fqdn := "nas".toList, recordType := "A".toList, value := "192.0.2.1".toList },
      { fqdn := "nas.lan".toList, recordType := "A".toList, value := "192.0.2.1".toList },
      { fqdn := "tv".toList, recordType := "A".toList, value := "192.0.2.2".toList }]

/-- The domain is changed to `lan` between the preview and the apply; the operator has deselected
the second record, and it is the third that is not applied. -/
theorem key_moved : ¬∀ (d : ImportData) (tr : StoredTranslation)
    (defaultDomain setting setting' : Option Str),
    let preview := plannedItems d (internalDomain d.toUnicodeData defaultDomain setting) tr
    let rebuilt := plannedItems d (internalDomain d.toUnicodeData defaultDomain setting') tr
    (∀ key origin, Designates preview key origin → Designates rebuilt key origin) ∧
      ∀ selected, appliedObjects rebuilt selected = appliedObjects preview selected := by
  intro h
  have happlied := (h asciiHost.data nasRecords none (some "home.arpa".toList)
    (some "lan".toList)).2 ["local_dns:0".toList, "local_dns:2".toList]
  have hplaces := congrArg (List.map Prod.snd) happlied
  revert hplaces
  decide +kernel

end AlderpointDNS.Importer
