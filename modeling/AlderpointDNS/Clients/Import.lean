import AlderpointDNS.Clients.Access

/-!
# Importing what was built

The client tables that `importClientTables` makes of the two sections built from other client
tables.  The imported clients are the named ones in order, under new ids and stripped names;
each has the identifiers of its original that are not empty; and a client rule goes to the last
imported client that has the name of its client.

* **`importClients_build`** — the clients, their identifiers and `name_to_id`.
* **`importRules_build`** — the rules.
-/

namespace AlderpointDNS

open Text

/-- What `INSERT OR IGNORE` compares. -/
def Identifier.key (i : Identifier) : IdentifierKind × Str := (i.kind, i.value)

/-- The entry of an identifier in the section. -/
def Identifier.entry (i : Identifier) : IdentifierEntry := ⟨some i.kind, i.value⟩

/-! ## Identifiers -/

theorem insert_eq_of_fresh (clientId : ℕ) {rows : IdentifierRows} {kind : IdentifierKind}
    {value : Str} (hnew : ∀ r ∈ rows.1, r.key ≠ (kind, value)) :
    ∃ rows' : IdentifierRows,
      rows.insert ⟨nextRowid (rows.1.map (·.id)), clientId, kind, value⟩ = some rows' ∧
      rows'.1 = rows.1 ++ [⟨nextRowid (rows.1.map (·.id)), clientId, kind, value⟩] := by
  have hfree : ¬rows.1.any
      (identifierConflict · ⟨nextRowid (rows.1.map (·.id)), clientId, kind, value⟩) = true := by
    rw [List.any_eq_true]
    rintro ⟨r, hr, hconf⟩
    have hid : r.id < nextRowid (rows.1.map (·.id)) := lt_nextRowid (List.mem_map_of_mem hr)
    simp only [identifierConflict, hid, decide_true, Bool.not_true, Bool.false_or,
      Bool.and_eq_true, decide_eq_true_eq] at hconf
    exact hnew r hr (Prod.ext hconf.1 hconf.2)
  refine ⟨_, dif_neg hfree, rfl⟩

/-- The identifiers of one client are added, the empty ones apart. -/
theorem insertIdentifiers_spec (clientId : ℕ) {is : List Identifier} {rows : IdentifierRows}
    (hdistinct : is.Pairwise fun i j => i.key ≠ j.key)
    (hnew : ∀ i ∈ is, ∀ r ∈ rows.1, r.key ≠ i.key) :
    ∃ new, ((is.map Identifier.entry).foldl (insertIdentifier clientId) rows).1 = rows.1 ++ new ∧
      (∀ i ∈ new, i.clientId = clientId) ∧
      new.map Identifier.key = (is.filter (·.value ≠ [])).map Identifier.key := by
  induction is generalizing rows with
  | nil => exact ⟨[], (List.append_nil _).symm, by simp, rfl⟩
  | cons i is ih =>
      obtain ⟨hi, hdistinct⟩ := List.pairwise_cons.mp hdistinct
      have hrest : ∀ j ∈ is, ∀ r ∈ rows.1, r.key ≠ j.key :=
        fun j hj => hnew j (List.mem_cons_of_mem _ hj)
      rw [List.map_cons, List.foldl_cons]
      by_cases hempty : i.value = []
      · have hskip : insertIdentifier clientId rows i.entry = rows := if_pos hempty
        rw [hskip, List.filter_cons_of_neg (by simpa using hempty)]
        exact ih hdistinct hrest
      · obtain ⟨rows', hrows', happend⟩ := insert_eq_of_fresh clientId
          (hnew i List.mem_cons_self)
        have hinsert : insertIdentifier clientId rows i.entry = rows' := by
          show (if i.value = [] then rows else _) = rows'
          rw [if_neg hempty, show i.entry.value = i.value from rfl, hrows', Option.getD_some]
        rw [hinsert, List.filter_cons_of_pos (by simpa using hempty)]
        have hrest' : ∀ j ∈ is, ∀ r ∈ rows'.1, r.key ≠ j.key := by
          intro j hj r hr
          rw [happend, List.mem_append, List.mem_singleton] at hr
          rcases hr with hr | rfl
          · exact hrest j hj r hr
          · exact hi j hj
        obtain ⟨new, hnew', howner, hkeys⟩ := ih hdistinct hrest'
        refine ⟨_ :: new, by rw [hnew', happend, List.append_assoc]; rfl, ?_, ?_⟩
        · intro r hr
          rcases List.mem_cons.mp hr with rfl | hr
          · rfl
          · exact howner r hr
        · rw [List.map_cons, List.map_cons, hkeys]
          rfl

theorem identifiers_distinct (identifiers : IdentifierRows) :
    identifiers.1.Pairwise fun i j => i.key ≠ j.key := by
  refine identifiers.2.imp fun {i j} h heq => ?_
  simp only [identifierConflict, Bool.or_eq_false_iff] at h
  obtain ⟨hkind, hvalue⟩ := Prod.mk.inj heq
  rw [hkind, hvalue, decide_eq_true rfl, decide_eq_true rfl] at h
  cases h.2

theorem identifiersOf_distinct (identifiers : IdentifierRows) (id : ℕ) :
    (identifiersOf identifiers id).Pairwise fun i j => i.key ≠ j.key :=
  (identifiers_distinct identifiers).filter _

theorem identifier_of_key {identifiers : IdentifierRows} {i j : Identifier}
    (hi : i ∈ identifiers.1) (hj : j ∈ identifiers.1) (h : i.key = j.key) : i = j := by
  by_contra hne
  have hsymm : Std.Symm fun i j : Identifier => i.key ≠ j.key := ⟨fun _ _ h => h.symm⟩
  exact (identifiers_distinct identifiers).forall hi hj hne h

/-- Adding identifiers of one client leaves those of the others. -/
theorem identifiersOf_append {identifiers identifiers' : IdentifierRows} {new : List Identifier}
    {clientId : ℕ} (happend : identifiers'.1 = identifiers.1 ++ new)
    (howner : ∀ i ∈ new, i.clientId = clientId) {id : ℕ} (hid : id ≠ clientId) :
    identifiersOf identifiers' id = identifiersOf identifiers id := by
  have hnew : new.filter (·.clientId = id) = [] := by
    rw [List.filter_eq_nil_iff]
    intro i hi heq
    rw [decide_eq_true_eq, howner i hi] at heq
    exact hid heq.symm
  rw [identifiersOf, happend, List.filter_append, hnew, List.append_nil, identifiersOf]

theorem identifiersOf_fresh {identifiers identifiers' : IdentifierRows} {new : List Identifier}
    {clientId : ℕ} (happend : identifiers'.1 = identifiers.1 ++ new)
    (howner : ∀ i ∈ new, i.clientId = clientId)
    (hfresh : ∀ i ∈ identifiers.1, i.clientId ≠ clientId) :
    identifiersOf identifiers' clientId = new := by
  have hold : identifiers.1.filter (·.clientId = clientId) = [] := by
    rw [List.filter_eq_nil_iff]
    intro i hi heq
    exact hfresh i hi (by simpa using heq)
  rw [identifiersOf, happend, List.filter_append, hold, List.nil_append, List.filter_eq_self]
  exact fun i hi => decide_eq_true (howner i hi)

/-! ## Clients -/

/-- A client that is imported. -/
def Client.named (c : Client) : Bool := strip c.name ≠ []

/-- An imported client and its original. -/
structure Imported (identifiers identifiers' : IdentifierRows) (c c' : Client) : Prop where
  name : c'.name = strip c.name
  enabled : c'.enabled = c.enabled
  keys : (identifiersOf identifiers' c'.id).map Identifier.key
    = ((identifiersOf identifiers c.id).filter (·.value ≠ [])).map Identifier.key

/-- The last row of a name. -/
def lastRow (rows : List Client) (name : Str) : Option Client := rows.reverse.find? (·.name = name)

/-- The loop after the clients `done`. -/
structure ImportInv (identifiers : IdentifierRows) (done : List Client) (state : ClientImport) :
    Prop where
  aligned : ∃ pairs : List (Client × Client), pairs.map (·.1) = done.filter (·.named) ∧
    pairs.map (·.2) = state.clients.1 ∧
    ∀ z ∈ pairs, Imported identifiers state.identifiers z.1 z.2
  lookup : ∀ name, state.nameToId.lookup name = (lastRow state.clients.1 name).map (·.id)
  owners : ∀ i ∈ state.identifiers.1, i.clientId ∈ state.clients.1.map (·.id)
  sources : ∀ i ∈ state.identifiers.1, ∃ c ∈ done, ∃ j ∈ identifiersOf identifiers c.id,
    j.key = i.key

/-- The section's entry of a client. -/
def clientEntry (identifiers : IdentifierRows) (c : Client) : ClientEntry where
  name := c.name
  description := c.description
  enabled := c.enabled
  identifiers := (identifiersOf identifiers c.id).map Identifier.entry

theorem lastRow_concat (rows : List Client) (c : Client) (name : Str) :
    lastRow (rows ++ [c]) name = if c.name = name then some c else lastRow rows name := by
  unfold lastRow
  rw [List.reverse_append, List.reverse_singleton, List.singleton_append, List.find?_cons]
  by_cases h : c.name = name <;> simp [h]

/-- The identifiers of the next client are not in the table yet. -/
theorem ImportInv.key_fresh {identifiers : IdentifierRows} {done : List Client} {c : Client}
    {state : ClientImport} (hinv : ImportInv identifiers done state)
    (hfresh : ∀ d ∈ done, d.id ≠ c.id) :
    ∀ i ∈ identifiersOf identifiers c.id, ∀ r ∈ state.identifiers.1, r.key ≠ i.key := by
  intro i hi r hr hkey
  obtain ⟨d, hd, j, hj, hjr⟩ := hinv.sources r hr
  have hij := identifier_of_key (List.mem_of_mem_filter hi) (List.mem_of_mem_filter hj)
    (hkey.symm.trans hjr.symm)
  have hci := List.of_mem_filter hi
  have hdj := List.of_mem_filter hj
  rw [← hij] at hdj
  rw [decide_eq_true_eq] at hci hdj
  exact hfresh d hd (hdj.symm.trans hci)

/-- A client without a name is passed over. -/
theorem ImportInv.skip {identifiers : IdentifierRows} {done : List Client} {c : Client}
    {state : ClientImport} (hinv : ImportInv identifiers done state) (hname : strip c.name = []) :
    ImportInv identifiers (done ++ [c]) state := by
  have hskip : (done ++ [c]).filter (·.named) = done.filter (·.named) := by
    simp [List.filter_append, Client.named, hname]
  refine ⟨by rw [hskip]; exact hinv.aligned, hinv.lookup, hinv.owners, fun i hi => ?_⟩
  obtain ⟨d, hd, j, hj⟩ := hinv.sources i hi
  exact ⟨d, List.mem_append_left _ hd, j, hj⟩

/-- A named client is added with its identifiers, under an id above all others. -/
theorem ImportInv.add {identifiers identifiers' : IdentifierRows} {done : List Client}
    {c : Client} {state : ClientImport} {clients' : ClientRows} {new : List Identifier}
    {clientId : ℕ} (hinv : ImportInv identifiers done state) (hname : strip c.name ≠ [])
    (hid : ∀ d ∈ state.clients.1, d.id < clientId)
    (hrows : clients'.1 = state.clients.1 ++ [⟨clientId, strip c.name, c.description, c.enabled⟩])
    (happend : identifiers'.1 = state.identifiers.1 ++ new)
    (howner : ∀ i ∈ new, i.clientId = clientId)
    (hkeys : new.map Identifier.key
      = ((identifiersOf identifiers c.id).filter (·.value ≠ [])).map Identifier.key) :
    ImportInv identifiers (done ++ [c])
      ⟨clients', identifiers', state.nameToId.insert (strip c.name) clientId⟩ := by
  have hold : ∀ d ∈ state.clients.1, identifiersOf identifiers' d.id
      = identifiersOf state.identifiers d.id :=
    fun d hd => identifiersOf_append happend howner (hid d hd).ne
  have hfreshId : ∀ i ∈ state.identifiers.1, i.clientId ≠ clientId := by
    intro i hi
    obtain ⟨d, hd, hdi⟩ := List.mem_map.mp (hinv.owners i hi)
    rw [← hdi]
    exact (hid d hd).ne
  constructor
  case aligned =>
    obtain ⟨pairs, hfst, hsnd, himported⟩ := hinv.aligned
    have hfilter : (done ++ [c]).filter (·.named) = done.filter (·.named) ++ [c] := by
      simp [List.filter_append, Client.named, hname]
    refine ⟨pairs ++ [(c, ⟨clientId, strip c.name, c.description, c.enabled⟩)], ?_, ?_, ?_⟩
    · rw [hfilter, List.map_append, hfst]
      rfl
    · rw [List.map_append, hsnd]
      exact hrows.symm
    · intro z hz
      rcases List.mem_append.mp hz with hz | hz
      · have himp := himported z hz
        have hmem : z.2 ∈ state.clients.1 := hsnd ▸ List.mem_map_of_mem hz
        exact ⟨himp.name, himp.enabled, (congrArg _ (hold z.2 hmem)).trans himp.keys⟩
      · rw [List.mem_singleton.mp hz]
        refine ⟨rfl, rfl, ?_⟩
        exact (congrArg _ (identifiersOf_fresh happend howner hfreshId)).trans hkeys
  case lookup =>
    intro name
    rw [Dict.lookup_insert', hrows, lastRow_concat, hinv.lookup]
    split_ifs <;> rfl
  case owners =>
    intro i hi
    replace hi : i ∈ identifiers'.1 := hi
    rw [happend, List.mem_append] at hi
    rw [hrows, List.map_append, List.mem_append]
    rcases hi with hi | hi
    · exact Or.inl (hinv.owners i hi)
    · exact Or.inr (by simp [howner i hi])
  case sources =>
    intro i hi
    replace hi : i ∈ identifiers'.1 := hi
    rw [happend, List.mem_append] at hi
    rcases hi with hi | hi
    · obtain ⟨d, hd, j, hj⟩ := hinv.sources i hi
      exact ⟨d, List.mem_append_left _ hd, j, hj⟩
    · have hkey : i.key ∈ new.map Identifier.key := List.mem_map_of_mem hi
      rw [hkeys] at hkey
      obtain ⟨j, hj, hji⟩ := List.mem_map.mp hkey
      exact ⟨c, by simp, j, List.mem_of_mem_filter hj, hji⟩

/-- One client. -/
theorem importInv_step {identifiers : IdentifierRows} {done : List Client} {c : Client}
    {state state' : ClientImport} (hinv : ImportInv identifiers done state)
    (hfresh : ∀ d ∈ done, d.id ≠ c.id)
    (h : importClient state (clientEntry identifiers c) = some state') :
    ImportInv identifiers (done ++ [c]) state' := by
  unfold importClient at h
  dsimp only [clientEntry] at h
  split_ifs at h with hname
  · cases h
    exact hinv.skip hname
  · obtain ⟨clients', hclients, rfl⟩ := Option.map_eq_some_iff.mp h
    obtain ⟨new, happend, howner, hkeys⟩ := insertIdentifiers_spec
      (nextRowid (state.clients.1.map (·.id))) (identifiersOf_distinct identifiers c.id)
      (hinv.key_fresh hfresh)
    have hid : ∀ d ∈ state.clients.1, d.id < nextRowid (state.clients.1.map (·.id)) :=
      fun d hd => lt_nextRowid (List.mem_map_of_mem hd)
    exact hinv.add hname hid (LegalRows.insert_eq_some hclients) happend howner hkeys

theorem importInv_foldlM {identifiers : IdentifierRows} (cs done : List Client)
    {state state' : ClientImport} (hinv : ImportInv identifiers done state)
    (hids : (done ++ cs).Pairwise fun c d => c.id ≠ d.id)
    (h : (cs.map (clientEntry identifiers)).foldlM importClient state = some state') :
    ImportInv identifiers (done ++ cs) state' := by
  induction cs generalizing done state with
  | nil =>
      cases h
      rw [List.append_nil]
      exact hinv
  | cons c cs ih =>
      rw [List.map_cons, List.foldlM_cons, Option.bind_eq_bind, Option.bind_eq_some_iff] at h
      obtain ⟨next, hnext, h⟩ := h
      rw [List.append_cons] at hids ⊢
      refine ih _ (importInv_step hinv (fun d hd => ?_) hnext) hids h
      exact (List.pairwise_append.mp (List.pairwise_append.mp hids).1).2.2 d hd c
        (List.mem_singleton_self c)

/-- **The imported clients.** -/
theorem importClients_build {clients : ClientRows} {identifiers : IdentifierRows}
    {state : ClientImport}
    (h : importClients (buildClientsSection clients identifiers) = some state) :
    ImportInv identifiers clients.1 state := by
  have hids : clients.1.Pairwise fun c d => c.id ≠ d.id := by
    refine clients.2.imp fun {c d} h heq => ?_
    simp [clientConflict, heq] at h
  have hempty : ImportInv identifiers [] {} :=
    ⟨⟨[], rfl, rfl, by simp⟩, fun name => rfl, by simp [LegalRows.empty], by simp [LegalRows.empty]⟩
  exact importInv_foldlM clients.1 [] hempty hids h

/-! ## Rules -/

/-- What `name_to_id.get` is asked for. -/
def ruleName (clients : ClientRows) (rule : AccessRule) : Str :=
  ((ruleClient clients rule).map (·.name)).getD []

/-- The client id a rule is imported with. -/
def importedClientId (nameToId : Dict Str ℕ) (clients : ClientRows) (rule : AccessRule) :
    Option ℕ :=
  if rule.kind = .client then nameToId.lookup (ruleName clients rule) else none

/-- A rule that is imported. -/
def ruleKept (nameToId : Dict Str ℕ) (clients : ClientRows) (rule : AccessRule) : Bool :=
  rule.kind ≠ .client || (importedClientId nameToId clients rule).isSome

/-- An imported rule and its original. -/
structure RuleImported (nameToId : Dict Str ℕ) (clients : ClientRows) (r r' : AccessRule) :
    Prop where
  action : r'.action = r.action
  kind : r'.kind = r.kind
  value : r'.value = r.value
  clientId : r'.clientId = importedClientId nameToId clients r

/-- The section's entry of a rule. -/
def ruleEntry (clients : ClientRows) (rule : AccessRule) : RuleEntry where
  action := some rule.action
  kind := some rule.kind
  value := rule.value
  clientName := (ruleClient clients rule).map (·.name)

theorem importRule_entry_eq (nameToId : Dict Str ℕ) (clients : ClientRows) (rule : AccessRule)
    (rows : RuleRows) : importRule nameToId rows (ruleEntry clients rule) =
      if ruleKept nameToId clients rule then
        rows.insert ⟨nextRowid (rows.1.map (·.id)), rule.action, rule.kind, rule.value,
          importedClientId nameToId clients rule⟩
      else some rows := by
  by_cases hkind : rule.kind = .client
  · cases hget : nameToId.lookup (ruleName clients rule) with
    | none =>
        have hkept : ruleKept nameToId clients rule = false := by
          simp [ruleKept, importedClientId, hkind, hget]
        rw [hkept, if_neg Bool.false_ne_true]
        rw [ruleName] at hget
        simp only [importRule, ruleEntry, hkind, if_true, hget]
    | some clientId =>
        have hkept : ruleKept nameToId clients rule = true := by
          simp [ruleKept, importedClientId, hkind, hget]
        rw [hkept, if_pos rfl, importedClientId, if_pos hkind, hget]
        rw [ruleName] at hget
        simp only [importRule, ruleEntry, hkind, if_true, hget]
  · simp only [importRule, ruleEntry, ruleKept, importedClientId, Option.some.injEq, hkind,
      if_false, ne_eq, not_false_eq_true, decide_true, Bool.true_or, if_true]

/-- One rule. -/
theorem importRule_entry {nameToId : Dict Str ℕ} {clients : ClientRows} {rule : AccessRule}
    {rows rows' : RuleRows} (h : importRule nameToId rows (ruleEntry clients rule) = some rows') :
    ruleKept nameToId clients rule = false ∧ rows' = rows ∨
    ruleKept nameToId clients rule = true ∧ ∃ rule', rows'.1 = rows.1 ++ [rule'] ∧
      RuleImported nameToId clients rule rule' := by
  rw [importRule_entry_eq] at h
  split_ifs at h with hkept
  · exact Or.inr ⟨hkept, _, LegalRows.insert_eq_some h, rfl, rfl, rfl, rfl⟩
  · cases h
    exact Or.inl ⟨Bool.eq_false_iff.mpr hkept, rfl⟩

theorem importRules_foldlM {nameToId : Dict Str ℕ} {clients : ClientRows} (rules : List AccessRule)
    {rows rows' : RuleRows}
    (h : (rules.map (ruleEntry clients)).foldlM (importRule nameToId) rows = some rows') :
    ∃ pairs : List (AccessRule × AccessRule),
      pairs.map (·.1) = rules.filter (ruleKept nameToId clients) ∧
      rows'.1 = rows.1 ++ pairs.map (·.2) ∧
      ∀ z ∈ pairs, RuleImported nameToId clients z.1 z.2 := by
  induction rules generalizing rows with
  | nil =>
      cases h
      exact ⟨[], rfl, (List.append_nil _).symm, by simp⟩
  | cons rule rules ih =>
      rw [List.map_cons, List.foldlM_cons, Option.bind_eq_bind, Option.bind_eq_some_iff] at h
      obtain ⟨next, hnext, h⟩ := h
      obtain ⟨pairs, hfst, hsnd, himported⟩ := ih h
      rcases importRule_entry hnext with ⟨hkept, rfl⟩ | ⟨hkept, rule', hrows, hrule⟩
      · refine ⟨pairs, ?_, hsnd, himported⟩
        rw [List.filter_cons_of_neg (by rw [hkept]; exact Bool.false_ne_true), hfst]
      · refine ⟨(rule, rule') :: pairs, ?_, ?_, ?_⟩
        · rw [List.filter_cons_of_pos hkept, List.map_cons, hfst]
        · rw [hsnd, hrows, List.append_assoc]
          rfl
        · intro z hz
          rcases List.mem_cons.mp hz with rfl | hz
          · exact hrule
          · exact himported z hz

/-- **The imported rules.** -/
theorem importRules_build {nameToId : Dict Str ℕ} {clients : ClientRows} {rules rows' : RuleRows}
    (h : (buildAccessRulesSection clients rules).foldlM (importRule nameToId) LegalRows.empty
      = some rows') :
    ∃ pairs : List (AccessRule × AccessRule),
      pairs.map (·.1) = rules.1.filter (ruleKept nameToId clients) ∧
      pairs.map (·.2) = rows'.1 ∧ ∀ z ∈ pairs, RuleImported nameToId clients z.1 z.2 := by
  obtain ⟨pairs, hfst, hsnd, himported⟩ := importRules_foldlM rules.1 h
  exact ⟨pairs, hfst, (hsnd.trans (List.nil_append _)).symm, himported⟩

end AlderpointDNS
