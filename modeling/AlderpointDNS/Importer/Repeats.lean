import AlderpointDNS.Importer.Rollback

/-!
# The same import again

A translation without clients is applied twice in a row.  An item that adds rows finds them the
second time, and the aliases are written as they are.  A source is skipped when its URL is known
under another name, and that can change in between.

* `Extends`, `Done` — what an item has added, and that it stays;
* `done_transaction` — what the first transaction leaves;
* `sources_again_iff` — when the sources are the same the second time;
* **`repeatIdle_iff`** — when the second transaction changes nothing.
* `renamed_added` — a source that is added the second time.

Before the second transaction clients may have been added, as `clients.init_db` does for aliases.
-/

namespace AlderpointDNS.Importer

open Text Ipaddress

/-! ## What items leave -/

/-- The tables have the same rows, and possibly more. -/
structure Extends (t t' : AddedTables) : Prop where
  customRules : t.customRules <+: t'.customRules
  localDns : t.localDns.1 <+: t'.localDns.1
  upstreams : t.upstreams.rows <+: t'.upstreams.rows
  accessRules : t.accessRules.1 <+: t'.accessRules.1
  clients : t.clients.1 <+: t'.clients.1

theorem Extends.refl (t : AddedTables) : Extends t t :=
  ⟨List.prefix_rfl, List.prefix_rfl, List.prefix_rfl, List.prefix_rfl, List.prefix_rfl⟩

/-- The item raises nothing, whatever the other tables are. -/
def Item.Admitted (ctx : ImportContext) (clients : ClientRows) : Item → Prop
  | .source _ | .rule _ | .upstream _ => True
  | .localDns record => ∃ valid, importedRecord ctx record = some valid ∧
      ∀ rows, (LocalDns.recordFindings ctx.data.localData rows valid.name.1 valid.recordType
        valid.value none).isSome = true
  | .clientAlias entry => (aliasUpdate ctx entry).isSome = true
  | .client _ => False
  | .access _ entry => (ruleColumns clients entry).isSome = true

/-- The item can be applied, and has nothing to add. -/
structure Done (ctx : ImportContext) (t : AddedTables) (item : Item) : Prop where
  admitted : item.Admitted ctx t.clients
  skipped : item.Skipped ctx t

section Item

variable {ctx : ImportContext} {t t' : AddedTables} {item : Item}

/-- A name that is unique among more clients was so before. -/
theorem clientIdByUniqueName_unique {clients clients' : ClientRows} {name : Str} {id id' : ℕ}
    (hmore : clients.1 <+: clients'.1) (h : clientIdByUniqueName clients name = some id)
    (h' : clientIdByUniqueName clients' name = some id') : id = id' := by
  obtain ⟨more, hclients⟩ := hmore
  unfold clientIdByUniqueName at h h'
  rw [← hclients, List.filter_append] at h'
  split at h
  · case h_1 client hclient =>
      rw [hclient] at h'
      split at h'
      · case h_1 client' hclient' =>
          obtain ⟨rfl, -⟩ := List.cons.inj hclient'
          exact (Option.some.inj h).symm.trans (Option.some.inj h')
      · cases h'
  · cases h

theorem ruleColumns_unique {clients clients' : ClientRows} {entry : AccessEntry}
    {columns columns' : Option RuleColumns} (hmore : clients.1 <+: clients'.1)
    (h : ruleColumns clients entry = some columns)
    (h' : ruleColumns clients' entry = some columns') : columns = columns' := by
  unfold ruleColumns at h h'
  by_cases hkind : entry.kind = RuleKind.client.text
  · rw [if_pos hkind] at h h'
    split_ifs at h h' with hname
    · exact (Option.some.inj h).symm.trans (Option.some.inj h')
    · obtain ⟨id, hid, rfl⟩ := Option.map_eq_some_iff.mp h
      obtain ⟨id', hid', rfl⟩ := Option.map_eq_some_iff.mp h'
      rw [clientIdByUniqueName_unique hmore hid hid']
  · rw [if_neg hkind] at h h'
    exact Option.some.inj (h.symm.trans h')

/-- What has been added stays. -/
theorem Done.skipped_of_extends (h : Done ctx t item) (hmore : Extends t t') :
    item.Skipped ctx t' := by
  obtain ⟨hadmitted, hskipped⟩ := h
  cases item with
  | source _ | clientAlias _ => trivial
  | rule entry =>
      intro r hr
      obtain ⟨row, hrow, hkey⟩ := List.any_eq_true.mp (hskipped r hr)
      exact List.any_eq_true.mpr ⟨row, hmore.customRules.subset hrow, hkey⟩
  | localDns record =>
      intro valid hvalid
      obtain ⟨row, hrow, hkey⟩ := hskipped valid hvalid
      exact ⟨row, hmore.localDns.subset hrow, hkey⟩
  | upstream resolver =>
      intro settings enabled hresolver
      obtain ⟨row, hrow, hkey⟩ := List.any_eq_true.mp (hskipped settings enabled hresolver)
      exact List.any_eq_true.mpr ⟨row, hmore.upstreams.subset hrow, hkey⟩
  | client client => exact hadmitted.elim
  | access action entry =>
      intro columns hcolumns
      obtain ⟨columns?, hcolumns?⟩ := Option.isSome_iff_exists.mp hadmitted
      obtain rfl := ruleColumns_unique hmore.clients hcolumns? hcolumns
      obtain ⟨row, hrow, hkey⟩ := List.any_eq_true.mp (hskipped columns hcolumns?)
      exact List.any_eq_true.mpr ⟨row, hmore.accessRules.subset hrow, hkey⟩

/-- A rule exists once it has been inserted. -/
theorem hasRule_foldl (now sourceSystem comment : Str) (enabled : Bool) (rules : List ParsedRule) :
    ∀ rows, ∀ r ∈ rules, hasRule (rules.foldl (insertFilterRule now sourceSystem comment enabled)
      rows) r.normalized r.action = true := by
  induction rules with
  | nil => simp
  | cons rule rules ih =>
      intro rows r hr
      rw [List.foldl_cons]
      rcases List.mem_cons.mp hr with rfl | hr
      · have hone : hasRule (insertFilterRule now sourceSystem comment enabled rows r)
            r.normalized r.action = true := by
          unfold insertFilterRule
          split_ifs with hhas
          · exact hhas
          · simp [hasRule, newFilterRow]
        obtain ⟨row, hrow, hkey⟩ := List.any_eq_true.mp hone
        exact List.any_eq_true.mpr ⟨row, (prefix_insertRules _ _ _ _ rules _).subset hrow, hkey⟩
      · exact ih _ r hr

/-- `record_findings` fails for an address or for none, whatever the rows are. -/
theorem recordFindings_isSome (d : LocalDns.LocalDnsData) (rows rows' : List LocalDns.DnsRecord)
    (fqdn value : Str) (type : RecordType) :
    (LocalDns.recordFindings d rows fqdn type value none).isSome
      = (LocalDns.recordFindings d rows' fqdn type value none).isSome := by
  simp only [LocalDns.recordFindings, Option.isSome_map]
  split_ifs
  · unfold LocalDns.addressFindings
    cases Ipaddress.ipAddress value with
    | none => rfl
    | some ip => simp only [Option.isSome_map]
  · rfl

theorem prefix_of_inserts {R : Type} {rowid : R → ℕ} {rows rows' : List R}
    (h : Inserts rowid rows rows') : rows <+: rows' := by
  rcases h with rfl | ⟨r, rfl, -⟩
  · exact List.prefix_rfl
  · exact List.prefix_append _ _

theorem importedRecord_of_apply {rows rows' : LocalDns.RecordRows} {record : RecordEntry}
    (h : applyLocalDnsRecord ctx rows record = some rows') :
    Item.Admitted ctx t.clients (.localDns record) := by
  simp only [applyLocalDnsRecord, Option.bind_eq_bind, Option.bind_eq_some_iff] at h
  obtain ⟨valid, hvalid, findings, hfindings, -⟩ := h
  refine ⟨valid, hvalid, fun rows' => ?_⟩
  rw [recordFindings_isSome _ rows' rows.1, hfindings, Option.isSome_some]

theorem skipped_of_apply {rows rows' : LocalDns.RecordRows} {record : RecordEntry}
    (h : applyLocalDnsRecord ctx rows record = some rows') (valid : ValidRecord)
    (hvalid : importedRecord ctx record = some valid) :
    ∃ row ∈ rows'.1, row.fqdn = valid.name.1 ∧ row.recordType = valid.recordType ∧
      row.value = valid.value := by
  obtain ⟨valid', hvalid', hsame, hlarger⟩ := applyLocalDnsRecord_spec h
  obtain rfl := Option.some.inj (hvalid'.symm.trans hvalid)
  by_cases hold : ∃ row ∈ rows.1, row.fqdn = valid'.name.1 ∧
      row.recordType = valid'.recordType ∧ row.value = valid'.value
  · rwa [hsame hold]
  · have hlarger := hlarger hold
    simp only [applyLocalDnsRecord, Option.bind_eq_bind, Option.bind_eq_some_iff] at h
    obtain ⟨valid, hvalid, -, -, h⟩ := h
    obtain rfl := Option.some.inj (hvalid'.symm.trans hvalid)
    obtain rfl := Option.some.inj h
    revert hlarger
    generalize hnew : LocalDns.newRecord (LocalDns.nextId rows.1) valid'.recordType valid'.name
      valid'.value valid'.ttl ctx.importedFrom record.enabled = new
    cases hinsert : rows.insert new with
    | none => exact fun hlarger => absurd hlarger (Nat.lt_irrefl _)
    | some rows' =>
        intro
        rw [Option.getD_some, LegalRows.insert_eq_some hinsert, ← hnew]
        exact ⟨_, List.mem_append_right _ (List.mem_singleton_self _), rfl, rfl, rfl⟩

/-- An access rule that has been applied exists. -/
theorem done_accessRule {clients : ClientRows} {rules : RuleRows} {action : AllowDeny}
    {entry : AccessEntry} {r : RuleRows × Bool}
    (h : applyAccessRuleItem clients rules action entry = some r) :
    (ruleColumns clients entry).isSome = true ∧
      ∀ columns, ruleColumns clients entry = some (some columns) →
        hasAccessRule r.1 action columns = true := by
  rw [applyAccessRuleItem, Option.bind_eq_some_iff] at h
  obtain ⟨columns?, hcolumns?, h⟩ := h
  refine ⟨Option.isSome_of_eq_some hcolumns?, fun columns hcolumns => ?_⟩
  obtain rfl := Option.some.inj (hcolumns?.symm.trans hcolumns)
  dsimp only at h
  split_ifs at h with hhas
  · cases h
    exact hhas
  · obtain ⟨rules', hrules', rfl⟩ := Option.map_eq_some_iff.mp h
    rw [hasAccessRule, LegalRows.insert_eq_some hrules']
    simp

/-- What an item has added is there. -/
theorem done_applyItem {d : Destination} {touched : Bool} {r : Progress}
    (h : applyItem ctx d touched item = some r) (hclient : ∀ client, item ≠ .client client) :
    Done ctx r.1.toAddedTables item ∧ Extends d.toAddedTables r.1.toAddedTables ∧
      r.1.clients = d.clients := by
  cases item with
  | source source =>
      cases h
      exact ⟨⟨trivial, trivial⟩, Extends.refl _, rfl⟩
  | rule entry =>
      cases h
      refine ⟨⟨trivial, hasRule_foldl _ _ _ _ _ _⟩, ?_, rfl⟩
      exact { Extends.refl d.toAddedTables with customRules := prefix_insertText _ _ _ _ _ _ _ _ }
  | localDns record =>
      obtain ⟨rows, hrows, rfl⟩ := Option.map_eq_some_iff.mp h
      refine ⟨⟨importedRecord_of_apply hrows, skipped_of_apply hrows⟩, ?_, rfl⟩
      exact { Extends.refl d.toAddedTables with
        localDns := prefix_of_inserts (inserts_localDns hrows) }
  | upstream resolver =>
      cases h
      refine ⟨⟨trivial, ?_⟩, ?_, rfl⟩
      · rintro settings enabled rfl
        simp only [insertUpstreamResolver]
        split_ifs with hhas
        · exact hhas
        · simp [hasServer, addResolver, sameServer]
      · exact { Extends.refl d.toAddedTables with
          upstreams := prefix_of_inserts (inserts_upstream d.upstreams resolver) }
  | clientAlias client =>
      obtain ⟨aliases, haliases, rfl⟩ := Option.map_eq_some_iff.mp h
      obtain ⟨update, hupdate, -⟩ := Option.map_eq_some_iff.mp haliases
      exact ⟨⟨Option.isSome_of_eq_some hupdate, trivial⟩, Extends.refl _, rfl⟩
  | client client => exact absurd rfl (hclient client)
  | access action entry =>
      obtain ⟨⟨rules, made⟩, hrules, rfl⟩ := Option.map_eq_some_iff.mp h
      obtain ⟨hadmitted, hskipped⟩ := done_accessRule hrules
      refine ⟨⟨hadmitted, hskipped⟩, ?_, rfl⟩
      exact { Extends.refl d.toAddedTables with
        accessRules := prefix_of_inserts (inserts_accessRule hrules) }

/-- An item that is done can be applied again. -/
theorem exists_applyItem {d : Destination} (touched : Bool) (h : Done ctx d.toAddedTables item) :
    ∃ r, applyItem ctx d touched item = some r := by
  obtain ⟨hadmitted, hskipped⟩ := h
  cases item with
  | source _ | rule _ | upstream _ => exact ⟨_, rfl⟩
  | localDns record =>
      obtain ⟨valid, hvalid, hfindings⟩ := hadmitted
      obtain ⟨findings, hfindings⟩ := Option.isSome_iff_exists.mp (hfindings d.localDns.1)
      simp only [applyItem, applyLocalDnsRecord, hvalid, hfindings, Option.bind_eq_bind,
        Option.bind_some, Option.pure_def, Option.map_some]
      exact ⟨_, rfl⟩
  | clientAlias entry =>
      obtain ⟨update, hupdate⟩ := Option.isSome_iff_exists.mp hadmitted
      simp only [applyItem, applyAliasItem, hupdate]
      exact ⟨_, rfl⟩
  | client _ => exact hadmitted.elim
  | access action entry =>
      obtain ⟨columns?, hcolumns⟩ := Option.isSome_iff_exists.mp hadmitted
      simp only [applyItem, applyAccessRuleItem, hcolumns, Option.bind_some]
      cases columns? with
      | none => exact ⟨_, rfl⟩
      | some columns =>
          dsimp only
          rw [if_pos (hskipped columns hcolumns)]
          exact ⟨_, rfl⟩

/-- The time does not matter. -/
theorem Done.later (h : Done ctx t item) (later : Str) : Done { ctx with now := later } t item := by
  obtain ⟨hadmitted, hskipped⟩ := h
  cases item with
  | clientAlias entry =>
      refine ⟨?_, trivial⟩
      obtain ⟨update, hupdate⟩ := Option.isSome_iff_exists.mp hadmitted
      unfold aliasUpdate at hupdate
      simp only [Item.Admitted, aliasUpdate]
      obtain ⟨network, hnetwork, hname⟩ := Option.bind_eq_some_iff.mp hupdate
      split_ifs at hname with hblank
      rw [hnetwork, Option.bind_some, if_neg hblank, Option.isSome_some]
  | source _ | rule _ | localDns _ | upstream _ | client _ | access _ _ =>
      exact ⟨hadmitted, hskipped⟩

end Item

/-! ## What the first transaction leaves -/

section Transaction

variable {ctx : ImportContext} {faults : Faults} {options : List (Option Item)} {r : Progress}

theorem Extends.trans {t t' t'' : AddedTables} (h : Extends t t') (h' : Extends t' t'') :
    Extends t t'' where
  customRules := h.customRules.trans h'.customRules
  localDns := h.localDns.trans h'.localDns
  upstreams := h.upstreams.trans h'.upstreams
  accessRules := h.accessRules.trans h'.accessRules
  clients := h.clients.trans h'.clients

theorem done_foldlM {n : ℕ} {progress : Progress}
    (h : (options.zipIdx n).foldlM (applyRound ctx faults) progress = some r)
    (hclient : ∀ client, some (.client client) ∉ options) :
    (∀ item ∈ options.reduceOption, Done ctx r.1.toAddedTables item) ∧
      Extends progress.1.toAddedTables r.1.toAddedTables ∧ r.1.clients = progress.1.clients := by
  induction options generalizing n progress with
  | nil =>
      cases h
      exact ⟨by simp, Extends.refl _, rfl⟩
  | cons option options ih =>
      rw [List.zipIdx_cons, List.foldlM_cons, Option.bind_eq_bind, Option.bind_eq_some_iff] at h
      obtain ⟨progress₁, h₁, h⟩ := h
      unfold applyRound at h₁
      split_ifs at h₁ with hfault
      obtain ⟨item, rfl, h₁⟩ := Option.bind_eq_some_iff.mp h₁
      obtain ⟨hdone, hone, hclients₁⟩ := done_applyItem h₁ fun client heq =>
        hclient client (heq ▸ List.mem_cons_self)
      obtain ⟨hrest, hmore, hclients⟩ := ih h fun client hmem =>
        hclient client (List.mem_cons_of_mem _ hmem)
      refine ⟨?_, hone.trans hmore, hclients.trans hclients₁⟩
      rw [List.reduceOption_cons_of_some]
      intro item' hitem'
      rcases List.mem_cons.mp hitem' with rfl | hitem'
      · refine ⟨?_, hdone.skipped_of_extends hmore⟩
        rw [hclients]
        exact hdone.admitted
      · exact hrest item' hitem'

/-- Items that are done can be applied again. -/
theorem exists_foldlM (n : ℕ) {progress : Progress} (hall : ∀ option ∈ options, option ≠ none)
    (hdone : ∀ item ∈ options.reduceOption, Done ctx progress.1.toAddedTables item) :
    ∃ r, (options.zipIdx n).foldlM (applyRound ctx {}) progress = some r := by
  induction options generalizing n progress with
  | nil => exact ⟨progress, rfl⟩
  | cons option options ih =>
      obtain ⟨hsome, hrest⟩ := List.forall_mem_cons.mp hall
      obtain ⟨item, rfl⟩ := Option.ne_none_iff_exists'.mp hsome
      rw [List.reduceOption_cons_of_some] at hdone
      obtain ⟨hitem, hdone⟩ := List.forall_mem_cons.mp hdone
      obtain ⟨progress₁, h₁⟩ := exists_applyItem progress.2 hitem
      have hsame := (applyItem_adds h₁).same hitem.skipped
      rw [← hsame.1] at hdone
      obtain ⟨r, hr⟩ := ih (n + 1) hrest hdone
      have hround : applyRound ctx {} progress (some item, n) = some progress₁ := h₁
      rw [List.zipIdx_cons, List.foldlM_cons, hround]
      exact ⟨r, hr⟩

theorem ne_none_of_foldlM {n : ℕ} {progress : Progress}
    (h : (options.zipIdx n).foldlM (applyRound ctx faults) progress = some r) :
    ∀ option ∈ options, option ≠ none := by
  induction options generalizing n progress with
  | nil => exact fun _ hmem => nomatch hmem
  | cons option options ih =>
      rw [List.zipIdx_cons, List.foldlM_cons, Option.bind_eq_bind, Option.bind_eq_some_iff] at h
      obtain ⟨progress₁, h₁, h⟩ := h
      unfold applyRound at h₁
      split_ifs at h₁ with hfault
      obtain ⟨item, rfl, -⟩ := Option.bind_eq_some_iff.mp h₁
      exact List.forall_mem_cons.mpr ⟨Option.some_ne_none _, ih h⟩

end Transaction

/-! ## Sources and aliases -/

/-- The URL of a source when the second application comes to the entry after `before`: that of the
last entry before it with this name; else that of the last entry with this name; else its own. -/
def urlAgain (sources : List SourceRow) (entries before : List SourceEntry) (name : Str) :
    Option Str :=
  match sourceWriter.lastWrite before name, sourceWriter.lastWrite entries name with
  | some source, _ => some (strip source.url)
  | none, some source => some (strip source.url)
  | none, none => (sources.find? fun row => row.name = name).map (·.url)

/-- Each entry names a source that is there in the end, or has the URL of one at its second turn. -/
def SourcesSettle (sources : List SourceRow) (entries : List SourceEntry) : Prop :=
  ∀ before source after, entries = before ++ source :: after →
    sourceWriter.Holds sources entries (sourceWriter.target source) ∨
    ∃ name, sourceWriter.Holds sources entries name ∧
      urlAgain sources entries before name = some (strip source.url)

theorem url_overwrite {sources : SourceRows} {entries : List SourceEntry} {row : SourceRow}
    (hrow : row ∈ entries.foldl sourceWriter.upsertRows sources.1) (before : List SourceEntry) :
    urlAgain sources.1 entries before row.name
      = some (sourceWriter.overwrite before row).url := by
  have hfinal := sourceWriter.overwrite_foldl (fun _ => rfl) sources.1 entries row hrow
  unfold urlAgain
  unfold RowWriter.overwrite at hfinal ⊢
  cases hbefore : sourceWriter.lastWrite before row.name with
  | some source =>
      rw [show sourceWriter.key row = row.name from rfl, hbefore]
      rfl
  | none =>
      rw [show sourceWriter.key row = row.name from rfl, hbefore]
      cases hlast : sourceWriter.lastWrite entries row.name with
      | some source =>
          rw [show sourceWriter.key row = row.name from rfl, hlast] at hfinal
          exact congrArg (fun row : SourceRow => some row.url) hfinal
      | none =>
          have hold := sourceWriter.mem_of_mem_foldl hrow hlast
          have hfind : sources.1.find? (fun r => r.name = row.name) = some row :=
            RowWriter.find_key (w := sourceWriter) sources.2 hold rfl
          dsimp only
          rw [hfind]
          rfl

/-- **When the sources are the same the second time.** -/
theorem sources_again_iff (sources : SourceRows) (entries : List SourceEntry) :
    entries.foldl sourceWriter.upsert (entries.foldl sourceWriter.upsert sources)
      = entries.foldl sourceWriter.upsert sources ↔ SourcesSettle sources.1 entries := by
  refine (sourceWriter.foldl_again_iff (fun _ => rfl) sources entries).trans ?_
  refine forall_congr' fun before => forall_congr' fun source => forall_congr' fun after =>
    forall_congr' fun _ => or_congr_right ?_
  change ((entries.foldl sourceWriter.upsertRows sources.1).map
    (sourceWriter.overwrite before)).any (fun row => row.url = strip source.url) = true ↔ _
  rw [List.any_map, List.any_eq_true]
  simp only [Function.comp_apply, decide_eq_true_eq, ← sourceWriter.exists_key_iff_holds]
  constructor
  · rintro ⟨row, hrow, hurl⟩
    exact ⟨row.name, ⟨row, hrow, rfl⟩, (url_overwrite hrow before).trans (congrArg some hurl)⟩
  · rintro ⟨_, ⟨row, hrow, rfl⟩, hurl⟩
    exact ⟨row, hrow, Option.some.inj ((url_overwrite hrow before).symm.trans hurl)⟩

theorem aliasUpdates_later (ctx : ImportContext) (later : Str) (items : List Item) :
    aliasUpdates { ctx with now := later } items
      = (aliasUpdates ctx items).map fun update => { update with now := later } := by
  unfold aliasUpdates
  rw [List.map_filterMap]
  refine List.filterMap_congr fun item _ => ?_
  cases item with
  | clientAlias entry =>
      simp only [aliasUpdate]
      cases ipNetworkStr (strip entry.cidrOrIp) with
      | none => rfl
      | some network =>
          simp only [Option.bind_some]
          split_ifs <;> rfl
  | source _ | rule _ | localDns _ | upstream _ | client _ | access _ _ => rfl

/-- The aliases are written again as they are. -/
theorem aliases_again (aliases : AliasRows) (updates : List AliasUpdate) (later : Str) :
    ((updates.map fun update => { update with now := later }).foldl aliasWriter.upsert
        (updates.foldl aliasWriter.upsert aliases)).1.map aliasContent
      = (updates.foldl aliasWriter.upsert aliases).1.map aliasContent := by
  have hstamped (k : Str) :
      aliasWriter.lastWrite (updates.map fun update => { update with now := later }) k
        = (aliasWriter.lastWrite updates k).map fun update => { update with now := later } := by
    unfold RowWriter.lastWrite
    rw [← List.map_reverse, List.find?_map]
    rfl
  have hcovered : aliasWriter.Covered (updates.foldl aliasWriter.upsert aliases).1
      (updates.map fun update => { update with now := later }) := by
    intro before update after hsplit
    left
    obtain ⟨update', hmem, rfl⟩ := List.mem_map.mp (hsplit ▸ List.mem_append_right before
      (List.mem_cons_self (a := update)))
    exact aliasWriter.present_iff.mpr ((aliasWriter.exists_key_foldl (fun _ _ => rfl) updates
      aliases _).mpr (Or.inr ⟨update', hmem, rfl⟩))
  have hrows : (updates.foldl aliasWriter.upsert aliases).1
      = updates.foldl aliasWriter.upsertRows aliases.1 :=
    aliasWriter.foldl_upsert_val aliases updates
  rw [aliasWriter.foldl_upsert_val, aliasWriter.foldl_of_covered hcovered, List.map_map]
  refine List.map_congr_left fun row hrow => ?_
  rw [hrows] at hrow
  have hfinal := aliasWriter.overwrite_foldl (fun _ => rfl) aliases.1 updates row hrow
  rw [Function.comp_apply]
  unfold RowWriter.overwrite at hfinal ⊢
  rw [hstamped]
  cases hlast : aliasWriter.lastWrite updates (aliasWriter.key row) with
  | none => rfl
  | some update =>
      rw [hlast, Option.elim_some] at hfinal
      exact (rfl : aliasContent _ = aliasContent (aliasWriter.write update row)).trans
        (congrArg aliasContent hfinal)

/-! ## The second transaction -/

/-- Everything is the same but the timestamps. -/
structure SameData (t t' : Destination) : Prop where
  added : t'.toAddedTables = t.toAddedTables
  sources : t'.sources = t.sources
  aliases : t'.aliases.1.map aliasContent = t.aliases.1.map aliasContent
  policy : t'.defaultPolicy = t.defaultPolicy

/-- The job is applied to the tables that it has left, but for clients that have been added, and
changes nothing. -/
def RepeatIdle (host : ImportHost) (later : Str) (job : MigrationJob) (plan : MigrationPlan)
    (t : Destination) : Prop :=
  ∀ clients identifiers, t.clients.1 <+: clients.1 → ∀ r,
    transaction (job.context { host with now := later } plan) {}
        job.translation.accessDefaultPolicy (job.chosen plan)
        { t with clients := clients, identifiers := identifiers } = some r →
      SameData { t with clients := clients, identifiers := identifiers } r.1

theorem no_client_chosen {job : MigrationJob} (plan : MigrationPlan)
    (h : job.translation.clientsFull = []) (client : FullClientEntry) :
    some (.client client) ∉ job.chosen plan := by
  intro hmem
  obtain ⟨item, -, hitem⟩ := List.mem_filterMap.mp hmem
  obtain ⟨⟨kind, index⟩, -, hentry⟩ := Option.map_eq_some_iff.mp hitem
  cases kind <;> simp [Translation.item, h] at hentry

theorem transaction_eq (ctx : ImportContext) (policy : Option AllowDeny)
    (items : List (Option Item)) (t : Destination) : transaction ctx {} policy items t
      = items.zipIdx.foldlM (applyRound ctx {}) (t.setPolicy policy) := if_neg Bool.false_ne_true

section Repeat

variable {host : ImportHost} {job : MigrationJob} {plan : MigrationPlan} {t : Destination}
  {r : Progress}

/-- **What the first transaction leaves**: every item is done. -/
theorem done_transaction (hclients : job.translation.clientsFull = [])
    (h : transaction (job.context host plan) {} job.translation.accessDefaultPolicy
      (job.chosen plan) t = some r) :
    ∀ item ∈ (job.chosen plan).reduceOption,
      Done (job.context host plan) r.1.toAddedTables item := by
  rw [transaction_eq] at h
  exact (done_foldlM h (no_client_chosen plan hclients)).1

/-- The second transaction goes through. -/
theorem exists_again (hclients : job.translation.clientsFull = [])
    (h : transaction (job.context host plan) {} job.translation.accessDefaultPolicy
      (job.chosen plan) t = some r) (later : Str) :
    ∃ r', transaction (job.context { host with now := later } plan) {}
      job.translation.accessDefaultPolicy (job.chosen plan) r.1 = some r' := by
  have hdone := done_transaction hclients h
  rw [transaction_eq] at h ⊢
  exact exists_foldlM 0 (ne_none_of_foldlM h) fun item hitem => (hdone item hitem).later later

/-- **When the same import again changes nothing.** -/
theorem repeatIdle_iff (hclients : job.translation.clientsFull = [])
    (h : transaction (job.context host plan) {} job.translation.accessDefaultPolicy
      (job.chosen plan) t = some r) (later : Str) :
    RepeatIdle host later job plan r.1 ↔
      SourcesSettle t.sources.1 (sourceEntries (job.chosen plan).reduceOption) := by
  have hfirst := applied_transaction h
  have hdone := done_transaction hclients h
  have hsources : r.1.sources = (sourceEntries (job.chosen plan).reduceOption).foldl
      sourceWriter.upsert t.sources := hfirst.sources
  rw [← sources_again_iff, ← hsources]
  constructor
  · intro hidle
    obtain ⟨r', hr'⟩ := exists_again hclients h later
    have hsame := hidle r.1.clients r.1.identifiers List.prefix_rfl r' hr'
    exact (applied_transaction hr').sources.symm.trans hsame.sources
  · intro hsettle clients identifiers hmore r' hr'
    have hagain := applied_transaction hr'
    have hextends : Extends r.1.toAddedTables
        { r.1.toAddedTables with clients := clients, identifiers := identifiers } :=
      { Extends.refl r.1.toAddedTables with clients := hmore }
    have hskipped := fun item hitem =>
      ((hdone item hitem).later later).skipped_of_extends hextends
    have haliases : r.1.aliases = (aliasUpdates (job.context host plan)
        (job.chosen plan).reduceOption).foldl aliasWriter.upsert t.aliases := hfirst.aliases
    refine ⟨(hagain.same hskipped).1, hagain.sources.trans hsettle, ?_, ?_⟩
    · have hlater : r'.1.aliases = (aliasUpdates { job.context host plan with now := later }
          (job.chosen plan).reduceOption).foldl aliasWriter.upsert r.1.aliases := hagain.aliases
      rw [hlater, aliasUpdates_later, haliases]
      exact aliases_again t.aliases _ later
    · have hpolicy : r.1.defaultPolicy
          = job.translation.accessDefaultPolicy.getD t.defaultPolicy := hfirst.policy
      have hpolicy' : r'.1.defaultPolicy
          = job.translation.accessDefaultPolicy.getD r.1.defaultPolicy := hagain.policy
      rw [hpolicy', hpolicy]
      cases job.translation.accessDefaultPolicy with
      | none => rfl
      | some policy => rfl

end Repeat

/-! ### A source whose URL is taken over

The destination has the source "Ads".  The translation has its URL under the name "List", and
another URL under the name "Ads". -/

def adsUrl : Str := "http://a.example".toList

def adsJob : MigrationJob where
  sourceType := .adguardYaml
  translation :=
    { blocklistSources :=
        [{ name := "List".toList, url := adsUrl },
          { name := "Ads".toList, url := "http://b.example".toList }] }
  plan := none
  selected := none

def adsPlan : MigrationPlan where
  domain := "home.arpa".toList
  items :=
    [{ key := "blocklists:0".toList, apply := some (.source, 0) },
      { key := "blocklists:1".toList, apply := some (.source, 1) }]

def adsTables : Destination :=
  { emptyState.tables with
    sources :=
      ⟨[⟨"Ads".toList, adsUrl, true, "ads_trackers".toList⟩], List.pairwise_singleton _ _⟩ }

/-- Without the source "Ads" both are added, and found again. -/
theorem repeatIdle_ads : ∃ r, transaction (adsJob.context asciiHost adsPlan) {} none
      (adsJob.chosen adsPlan) emptyState.tables = some r ∧
    RepeatIdle asciiHost "2026-01-02T00:00:00+00:00".toList adsJob adsPlan r.1 := by
  have hsome : (transaction (adsJob.context asciiHost adsPlan) {} none (adsJob.chosen adsPlan)
      emptyState.tables).isSome = true := by decide +kernel
  obtain ⟨r, hr⟩ := Option.isSome_iff_exists.mp hsome
  refine ⟨r, hr, (repeatIdle_iff rfl hr _).mpr fun before source after hsplit => ?_⟩
  left
  right
  refine ⟨before, source, after, hsplit, rfl, ?_⟩
  have hentries : sourceEntries (adsJob.chosen adsPlan).reduceOption
      = adsJob.translation.blocklistSources := by rfl
  rw [hentries] at hsplit
  rcases before with _ | ⟨first, _ | ⟨second, before⟩⟩
  · cases hsplit
    rfl
  · cases hsplit
    decide +kernel
  · simp [adsJob] at hsplit

/-- **"List" is skipped the first time, and added the second time.** -/
theorem renamed_added : ¬∀ (host : ImportHost) (later : Str) (job : MigrationJob)
    (plan : MigrationPlan) (t : Destination) (r : Progress), job.translation.clientsFull = [] →
    transaction (job.context host plan) {} job.translation.accessDefaultPolicy (job.chosen plan) t
      = some r → RepeatIdle host later job plan r.1 := by
  intro h
  have hone : (transaction (adsJob.context asciiHost adsPlan) {} none (adsJob.chosen adsPlan)
      adsTables).map (·.1.sources.1.length) = some 1 := by decide +kernel
  have htwo : ((transaction (adsJob.context asciiHost adsPlan) {} none (adsJob.chosen adsPlan)
      adsTables).bind fun r => transaction (adsJob.context asciiHost adsPlan) {} none
        (adsJob.chosen adsPlan) r.1).map (·.1.sources.1.length) = some 2 := by decide +kernel
  obtain ⟨r, hr, hlength⟩ := Option.map_eq_some_iff.mp hone
  rw [hr, Option.bind_some] at htwo
  obtain ⟨r', hr', hlength'⟩ := Option.map_eq_some_iff.mp htwo
  have hsame := h asciiHost asciiHost.now adsJob adsPlan adsTables r rfl hr r.1.clients
    r.1.identifiers List.prefix_rfl r' hr'
  rw [hsame.sources] at hlength'
  exact absurd (hlength.symm.trans hlength') (by decide)

end AlderpointDNS.Importer
