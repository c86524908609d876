import AlderpointDNS.Lib.Undo
import AlderpointDNS.Importer.Apply

/-!
# The log of an import

`apply_migration_job` remembers in `rollback_info` what its items write: the ids of new rows, the
names and networks of new sources and aliases, and the sources and aliases that it overwrites.

* `logItem`, `loggedTransaction` — the transaction with its log;
* **`recorded_foldlM`** — what the log says about the tables after a transaction (`Recorded`);
* `loggedTransaction_fst` — the log changes nothing of the transaction.

The log has whole rows where the code has the columns that the rollback reads.
-/

namespace AlderpointDNS.Importer

open Text

/-! ## The log -/

/-- `rollback_info`. -/
structure RollbackInfo where
  localDnsIds : List ℕ := []
  /-- `sources_added` and `sources_updated` -/
  sources : UpsertLog SourceRow Str := {}
  /-- `aliases_added` and `aliases_updated` -/
  aliases : UpsertLog AliasRow Str := {}
  upstreamIds : List ℕ := []
  clientsAdded : List ℕ := []
  accessRulesAdded : List ℕ := []
  accessDefaultPolicyBefore : Option AllowDeny := none

/-- What an item adds to `rollback_info`, with the tables before and after it. -/
def logItem (ctx : ImportContext) (t t' : Destination) (info : RollbackInfo) :
    Item → RollbackInfo
  | .source source =>
      { info with sources := sourceWriter.logUpsert t.sources.1 info.sources source }
  | .rule _ => info
  | .localDns _ =>
      { info with
        localDnsIds := info.localDnsIds ++ insertedIds (·.id) t.localDns.1 t'.localDns.1 }
  | .upstream _ =>
      { info with
        upstreamIds := info.upstreamIds ++ insertedIds (·.id) t.upstreams.rows t'.upstreams.rows }
  | .clientAlias client =>
      match aliasUpdate ctx client with
      | none => info
      | some update =>
          { info with aliases := aliasWriter.logUpsert t.aliases.1 info.aliases update }
  | .client _ =>
      { info with
        clientsAdded := info.clientsAdded ++ insertedIds (·.id) t.clients.1 t'.clients.1 }
  | .access _ _ =>
      { info with
        accessRulesAdded :=
          info.accessRulesAdded ++ insertedIds (·.id) t.accessRules.1 t'.accessRules.1 }

/-- The state of the loop over the items. -/
abbrev LoggedProgress := Progress × RollbackInfo

/-- One round of the loop. -/
def loggedRound (ctx : ImportContext) (p : LoggedProgress) (item : Option Item) :
    Option LoggedProgress :=
  item.bind fun item => (applyItem ctx p.1.1 p.1.2 item).map fun r =>
    (r, logItem ctx p.1.1 r.1 p.2 item)

/-- The log when the loop begins. -/
def RollbackInfo.start (policy : Option AllowDeny) (t : Destination) : RollbackInfo where
  accessDefaultPolicyBefore :=
    if policy.any (· ≠ t.defaultPolicy) then some t.defaultPolicy else none

/-- The body of `with conn:`. -/
def loggedTransaction (ctx : ImportContext) (policy : Option AllowDeny)
    (items : List (Option Item)) (t : Destination) : Option LoggedProgress :=
  items.foldlM (loggedRound ctx) (t.setPolicy policy, RollbackInfo.start policy t)

/-! ## What the log says -/

/-- The clients among the items. -/
def clientEntries (items : List Item) : List FullClientEntry :=
  items.filterMap fun
    | .client client => some client
    | _ => none

/-- The client comes with the identifier. -/
def FullClientEntry.Identifies (client : FullClientEntry) (kind : IdentifierKind) (value : Str) :
    Prop :=
  ∃ identifier ∈ client.identifiers, identifierKindOf identifier.kind = some kind ∧
    identifier.value = value ∧ value ≠ []

/-- The ids that imported clients get. -/
def importedIds (rows : ClientRows) (clients : List FullClientEntry) : List ℕ :=
  (List.range clients.length).map (nextRowid (rows.1.map (·.id)) + ·)

/-- What the tables and the log are after items with these clients, sources and aliases, which
began with an empty log. -/
structure Recorded (start : Destination) (newClients : List FullClientEntry)
    (newSources : List SourceEntry) (newAliases : List AliasUpdate) (t : Destination)
    (info : RollbackInfo) : Prop where
  rules : start.customRules <+: t.customRules
  localDns : Added (·.id) start.localDns.1 t.localDns.1 info.localDnsIds
  upstreams : Added (·.id) start.upstreams.rows t.upstreams.rows info.upstreamIds
  clients : Added (·.id) start.clients.1 t.clients.1 info.clientsAdded
  clientIds : info.clientsAdded = importedIds start.clients newClients
  nextClient : nextRowid (t.clients.1.map (·.id))
    = nextRowid (start.clients.1.map (·.id)) + newClients.length
  identifiers : ∃ added, t.identifiers.1 = start.identifiers.1 ++ added ∧
    ∀ identifier ∈ added, identifier.clientId ∈ info.clientsAdded
  identified : ∀ kind value, hasIdentifier t.identifiers kind value = true ↔
    hasIdentifier start.identifiers kind value = true ∨
      ∃ client ∈ newClients, client.Identifies kind value
  accessRules : Added (·.id) start.accessRules.1 t.accessRules.1 info.accessRulesAdded
  sources : (t.sources, info.sources)
    = newSources.foldl sourceWriter.loggedUpsert (start.sources, {})
  aliases : (t.aliases, info.aliases)
    = newAliases.foldl aliasWriter.loggedUpsert (start.aliases, {})

section Recorded

variable {ctx : ImportContext} {start t t' : Destination} {items : List Item}
  {info : RollbackInfo} {touched : Bool} {r : Progress}

theorem Recorded.nil (t : Destination) (policy before : Option AllowDeny) :
    Recorded t [] [] [] (t.setPolicy policy).1 { accessDefaultPolicyBefore := before } where
  rules := List.prefix_refl _
  localDns := Added.refl _
  upstreams := Added.refl _
  clients := Added.refl _
  clientIds := rfl
  nextClient := rfl
  identifiers := ⟨[], (List.append_nil _).symm, fun _ h => nomatch h⟩
  identified := by simp [Destination.setPolicy]
  accessRules := Added.refl _
  sources := rfl
  aliases := rfl

theorem inserts_localDns {rows rows' : LocalDns.RecordRows} {record : RecordEntry}
    (h : applyLocalDnsRecord ctx rows record = some rows') : Inserts (·.id) rows.1 rows'.1 := by
  simp only [applyLocalDnsRecord, Option.bind_eq_bind, Option.bind_eq_some_iff] at h
  obtain ⟨valid, -, -, -, h⟩ := h
  cases h
  cases hinsert : rows.insert (LocalDns.newRecord (LocalDns.nextId rows.1) valid.recordType
      valid.name valid.value valid.ttl ctx.importedFrom record.enabled) with
  | none => exact .inl rfl
  | some rows' => exact .inr ⟨_, LegalRows.insert_eq_some hinsert, rfl⟩

theorem inserts_upstream (t : Upstream.ResolverTable) (resolver : ResolverEntry) :
    Inserts (·.id) t.rows (insertUpstreamResolver t resolver).rows := by
  unfold insertUpstreamResolver
  cases resolver with
  | none => exact .inl rfl
  | some resolver =>
      dsimp only
      split_ifs
      · exact .inl rfl
      · exact .inr ⟨_, rfl, rfl⟩

theorem inserts_accessRule {clients : ClientRows} {rules : RuleRows} {action : AllowDeny}
    {rule : AccessEntry} {r : RuleRows × Bool}
    (h : applyAccessRuleItem clients rules action rule = some r) :
    Inserts (·.id) rules.1 r.1.1 := by
  rw [applyAccessRuleItem, Option.bind_eq_some_iff] at h
  obtain ⟨columns?, -, h⟩ := h
  cases columns? with
  | none =>
      cases h
      exact .inl rfl
  | some columns =>
      dsimp only at h
      split_ifs at h with hhas
      · cases h
        exact .inl rfl
      · obtain ⟨rules', hrules', rfl⟩ := Option.map_eq_some_iff.mp h
        exact .inr ⟨_, LegalRows.insert_eq_some hrules', rfl⟩

theorem prefix_insertRules (now sourceSystem comment : Str) (enabled : Bool)
    (rules : List ParsedRule) (rows : List FilterRow) :
    rows <+: rules.foldl (insertFilterRule now sourceSystem comment enabled) rows := by
  induction rules generalizing rows with
  | nil => exact List.prefix_refl _
  | cons rule rules ih =>
      refine List.IsPrefix.trans ?_ (ih _)
      unfold insertFilterRule
      split_ifs
      · exact List.prefix_refl _
      · exact List.prefix_append _ _

theorem prefix_insertText (d : ParserData) (now sourceSystem comment : Str) (enabled plain : Bool)
    (rows : List FilterRow) (text : Str) :
    rows <+: insertText d now sourceSystem comment enabled plain rows text :=
  prefix_insertRules now sourceSystem comment enabled (parseRule d plain text) rows

/-- What one identifier of a client adds. -/
theorem importIdentifier_spec {clientId : ℕ} {identifier : ImportedIdentifier}
    {rows rows' : IdentifierRows} (h : importIdentifier clientId rows identifier = some rows') :
    (∃ added, rows'.1 = rows.1 ++ added ∧ ∀ row ∈ added, row.clientId = clientId) ∧
    ∀ kind value, hasIdentifier rows' kind value = true ↔ hasIdentifier rows kind value = true ∨
      identifierKindOf identifier.kind = some kind ∧ identifier.value = value ∧ value ≠ [] := by
  have hempty : identifierKindOf [] = none := by decide
  unfold importIdentifier at h
  split_ifs at h with hskip
  · cases h
    refine ⟨⟨[], (List.append_nil _).symm, fun _ h => nomatch h⟩, fun kind value => ?_⟩
    rw [or_iff_left]
    rintro ⟨hkind, rfl, hvalue⟩
    rcases hskip with hnone | hnone
    · rw [hnone, hempty] at hkind
      cases hkind
    · exact hvalue hnone
  · obtain ⟨-, hvalue⟩ := not_or.mp hskip
    cases hkind : identifierKindOf identifier.kind with
    | none => rw [hkind] at h; cases h
    | some kind =>
        rw [hkind] at h
        dsimp only at h
        split_ifs at h with hhas
        · cases h
          refine ⟨⟨[], (List.append_nil _).symm, fun _ h => nomatch h⟩, fun kind' value => ?_⟩
          rw [or_iff_left_of_imp]
          rintro ⟨hk, rfl, -⟩
          cases hk
          exact hhas
        · have hrows := LegalRows.insert_eq_some h
          refine ⟨⟨_, hrows, fun row hrow => by rw [List.mem_singleton.mp hrow]⟩, ?_⟩
          intro kind' value
          unfold hasIdentifier
          rw [hrows, List.any_append, Bool.or_eq_true]
          refine or_congr_right ?_
          simp only [List.any_cons, List.any_nil, Bool.or_false, Bool.and_eq_true,
            decide_eq_true_eq, Option.some.injEq]
          exact and_congr_right fun _ => ⟨fun heq => ⟨heq, heq ▸ hvalue⟩, And.left⟩

/-- What the identifiers of a client add. -/
theorem importIdentifiers_spec {clientId : ℕ} {identifiers : List ImportedIdentifier}
    {rows rows' : IdentifierRows}
    (h : identifiers.foldlM (importIdentifier clientId) rows = some rows') :
    (∃ added, rows'.1 = rows.1 ++ added ∧ ∀ row ∈ added, row.clientId = clientId) ∧
    ∀ kind value, hasIdentifier rows' kind value = true ↔ hasIdentifier rows kind value = true ∨
      ∃ identifier ∈ identifiers, identifierKindOf identifier.kind = some kind ∧
        identifier.value = value ∧ value ≠ [] := by
  induction identifiers generalizing rows with
  | nil =>
      cases h
      exact ⟨⟨[], (List.append_nil _).symm, fun _ h => nomatch h⟩, by simp⟩
  | cons identifier identifiers ih =>
      rw [List.foldlM_cons, Option.bind_eq_bind, Option.bind_eq_some_iff] at h
      obtain ⟨rows₁, h₁, h⟩ := h
      obtain ⟨⟨added₁, hrows₁, hclient₁⟩, hhas₁⟩ := importIdentifier_spec h₁
      obtain ⟨⟨added, hrows, hclient⟩, hhas⟩ := ih h
      refine ⟨⟨added₁ ++ added, ?_, ?_⟩, fun kind value => ?_⟩
      · rw [hrows, hrows₁, List.append_assoc]
      · exact List.forall_mem_append.mpr ⟨hclient₁, hclient⟩
      · rw [hhas, hhas₁, or_assoc]
        simp only [List.mem_cons, exists_eq_or_imp]

/-- What the item of a client does. -/
theorem applyClientFullItem_spec {added added' : AddedTables} {client : FullClientEntry}
    (h : applyClientFullItem ctx added client = some added') :
    (∃ row, added'.clients.1 = added.clients.1 ++ [row] ∧
      row.id = nextRowid (added.clients.1.map (·.id))) ∧
    (∃ rows, added'.identifiers.1 = added.identifiers.1 ++ rows ∧
      ∀ row ∈ rows, row.clientId = nextRowid (added.clients.1.map (·.id))) ∧
    (∀ kind value, hasIdentifier added'.identifiers kind value = true ↔
      hasIdentifier added.identifiers kind value = true ∨ client.Identifies kind value) ∧
    added' = { added with clients := added'.clients, identifiers := added'.identifiers } := by
  unfold applyClientFullItem at h
  split_ifs at h with hname
  simp only [Option.bind_eq_bind, Option.bind_eq_some_iff] at h
  obtain ⟨clients, hclients, identifiers, hidentifiers, h⟩ := h
  cases h
  obtain ⟨hrows, hhas⟩ := importIdentifiers_spec hidentifiers
  exact ⟨⟨_, LegalRows.insert_eq_some hclients, rfl⟩, hrows, hhas, rfl⟩

/-- What is recorded after items. -/
abbrev RecordedItems (ctx : ImportContext) (start : Destination) (items : List Item) :=
  Recorded start (clientEntries items) (sourceEntries items) (aliasUpdates ctx items)

/-- One more client. -/
theorem Recorded.addClient {clients : List FullClientEntry} {sources : List SourceEntry}
    {aliases : List AliasUpdate} {client : FullClientEntry} {added : AddedTables}
    (h : Recorded start clients sources aliases t info)
    (hadded : applyClientFullItem ctx t.toAddedTables client = some added) :
    Recorded start (clients ++ [client]) sources aliases { t with toAddedTables := added }
      { info with
        clientsAdded := info.clientsAdded ++ insertedIds (·.id) t.clients.1 added.clients.1 } := by
  obtain ⟨⟨row, hrow, hid⟩, ⟨rows, hrows, hrowsClient⟩, hhas, hrest⟩ :=
    applyClientFullItem_spec hadded
  have hinserted : insertedIds (·.id) t.clients.1 added.clients.1 = [row.id] := by
    rw [insertedIds, hrow, List.drop_left]
    rfl
  rw [hrest]
  refine
    { h with
      clients := h.clients.insert (.inr ⟨row, hrow, hid⟩)
      clientIds := ?_
      nextClient := ?_
      identifiers := ?_
      identified := ?_ }
  · rw [hinserted, hid, h.nextClient, h.clientIds, importedIds, importedIds, List.length_append,
      List.length_singleton, List.range_succ, List.map_append, List.map_singleton]
  · have hids : added.clients.1.map (·.id)
        = t.clients.1.map (·.id) ++ [nextRowid (t.clients.1.map (·.id))] := by
      rw [hrow, List.map_append, List.map_singleton, hid]
    change nextRowid (added.clients.1.map (·.id)) = _
    rw [hids, nextRowid_concat, h.nextClient, List.length_append, List.length_singleton]
    rfl
  · obtain ⟨before, hbefore, hbeforeClient⟩ := h.identifiers
    refine ⟨before ++ rows, ?_, ?_⟩
    · change added.identifiers.1 = _
      rw [hrows, hbefore, List.append_assoc]
    · intro identifier hmem
      rw [List.mem_append]
      rcases List.mem_append.mp hmem with hmem | hmem
      · exact .inl (hbeforeClient identifier hmem)
      · rw [hinserted, hrowsClient identifier hmem, hid]
        exact .inr (List.mem_singleton_self _)
  · intro kind value
    change hasIdentifier added.identifiers kind value = true ↔ _
    rw [hhas, h.identified, or_assoc]
    simp [or_and_right, exists_or]

/-- One more item. -/
theorem Recorded.concat {item : Item} (h : RecordedItems ctx start items t info)
    (hitem : applyItem ctx t touched item = some r) :
    RecordedItems ctx start (items ++ [item]) r.1 (logItem ctx t r.1 info item) := by
  have hclients : clientEntries (items ++ [item]) = clientEntries items ++ clientEntries [item] :=
    List.filterMap_append
  have hsources : sourceEntries (items ++ [item])
      = sourceEntries items ++ sourceEntries [item] := List.filterMap_append
  have haliases : aliasUpdates ctx (items ++ [item])
      = aliasUpdates ctx items ++ aliasUpdates ctx [item] := List.filterMap_append
  unfold RecordedItems at h ⊢
  rw [hclients, hsources, haliases]
  cases item with
  | source source =>
      cases hitem
      change Recorded start (clientEntries items ++ []) (sourceEntries items ++ [source])
        (aliasUpdates ctx items ++ []) _ _
      rw [List.append_nil, List.append_nil]
      refine { h with sources := ?_ }
      rw [List.foldl_concat, ← h.sources]
      rfl
  | clientAlias client =>
      obtain ⟨aliases, happly, rfl⟩ := Option.map_eq_some_iff.mp hitem
      obtain ⟨update, hupdate, rfl⟩ := Option.map_eq_some_iff.mp happly
      have hone : aliasUpdates ctx [.clientAlias client] = [update] :=
        List.filterMap_cons_some hupdate
      rw [hone, logItem, hupdate]
      change Recorded start (clientEntries items ++ []) (sourceEntries items ++ []) _ _ _
      rw [List.append_nil, List.append_nil]
      refine { h with aliases := ?_ }
      rw [List.foldl_concat, ← h.aliases]
      rfl
  | client client =>
      obtain ⟨added, hadded, rfl⟩ := Option.map_eq_some_iff.mp hitem
      change Recorded start (clientEntries items ++ [client]) (sourceEntries items ++ [])
        (aliasUpdates ctx items ++ []) _ _
      rw [List.append_nil, List.append_nil]
      exact h.addClient hadded
  | rule entry =>
      cases hitem
      change Recorded start (clientEntries items ++ []) (sourceEntries items ++ [])
        (aliasUpdates ctx items ++ []) _ _
      rw [List.append_nil, List.append_nil, List.append_nil]
      exact { h with rules := h.rules.trans (prefix_insertText _ _ _ _ _ _ _ _) }
  | localDns record =>
      obtain ⟨rows, hrows, rfl⟩ := Option.map_eq_some_iff.mp hitem
      change Recorded start (clientEntries items ++ []) (sourceEntries items ++ [])
        (aliasUpdates ctx items ++ []) _ _
      rw [List.append_nil, List.append_nil, List.append_nil]
      exact { h with localDns := h.localDns.insert (inserts_localDns hrows) }
  | upstream resolver =>
      cases hitem
      change Recorded start (clientEntries items ++ []) (sourceEntries items ++ [])
        (aliasUpdates ctx items ++ []) _ _
      rw [List.append_nil, List.append_nil, List.append_nil]
      exact { h with upstreams := h.upstreams.insert (inserts_upstream _ resolver) }
  | access action rule =>
      obtain ⟨rules, hrules, rfl⟩ := Option.map_eq_some_iff.mp hitem
      change Recorded start (clientEntries items ++ []) (sourceEntries items ++ [])
        (aliasUpdates ctx items ++ []) _ _
      rw [List.append_nil, List.append_nil, List.append_nil]
      exact { h with accessRules := h.accessRules.insert (inserts_accessRule hrules) }

/-- What a transaction records, and that its log keeps the policy. -/
theorem recorded_foldlM {options : List (Option Item)} {p p' : LoggedProgress} (items : List Item)
    (h : RecordedItems ctx start items p.1.1 p.2)
    (hrun : options.foldlM (loggedRound ctx) p = some p') :
    RecordedItems ctx start (items ++ options.reduceOption) p'.1.1 p'.2 ∧
      p'.1.1.defaultPolicy = p.1.1.defaultPolicy ∧
      p'.2.accessDefaultPolicyBefore = p.2.accessDefaultPolicyBefore := by
  induction options generalizing items p with
  | nil =>
      cases hrun
      rw [List.reduceOption_nil, List.append_nil]
      exact ⟨h, rfl, rfl⟩
  | cons option options ih =>
      rw [List.foldlM_cons, Option.bind_eq_bind, Option.bind_eq_some_iff] at hrun
      obtain ⟨p₁, h₁, hrun⟩ := hrun
      obtain ⟨item, rfl, h₁⟩ := Option.bind_eq_some_iff.mp h₁
      obtain ⟨r, hitem, rfl⟩ := Option.map_eq_some_iff.mp h₁
      obtain ⟨hrecorded, hpolicy, hbefore⟩ := ih (items ++ [item]) (h.concat hitem) hrun
      rw [List.reduceOption_cons_of_some, List.append_cons]
      refine ⟨hrecorded, hpolicy.trans (applyItem_spec hitem).policy, hbefore.trans ?_⟩
      cases item with
      | clientAlias client => rw [logItem]; split <;> rfl
      | _ => rfl

end Recorded

theorem foldlM_loggedRound_fst (ctx : ImportContext) (items : List (Option Item)) :
    ∀ (n : ℕ) (p : LoggedProgress), (items.foldlM (loggedRound ctx) p).map (·.1)
      = (items.zipIdx n).foldlM (applyRound ctx {}) p.1 := by
  induction items with
  | nil => exact fun _ _ => rfl
  | cons item items ih =>
      intro n p
      rw [List.zipIdx_cons, List.foldlM_cons, List.foldlM_cons]
      cases item with
      | none => rfl
      | some item =>
          simp only [loggedRound, applyRound, Bool.false_eq_true, if_false, Option.bind_some]
          cases applyItem ctx p.1.1 p.1.2 item with
          | none => rfl
          | some r => exact ih (n + 1) _

theorem loggedTransaction_fst (ctx : ImportContext) (policy : Option AllowDeny)
    (items : List (Option Item)) (t : Destination) :
    (loggedTransaction ctx policy items t).map (·.1) = transaction ctx {} policy items t :=
  foldlM_loggedRound_fst ctx items 0 _

end AlderpointDNS.Importer
