import AlderpointDNS.Clients.Import
import AlderpointDNS.Replication.Sections

/-!
# The access decision on a replica

Client rules travel by the name of their client.  The replica looks the name up among the
stripped names of the imported clients, where the last one of a name wins, and drops a rule whose
name it does not find.

* `matchingRules_import` — what an imported rule stands for on the replica.
* **`decision_replicated`** — when looking clients up by name changes nothing that a client rule
  can match, every decision on the replica, with its reason, is the primary's.
-/

namespace AlderpointDNS

open Text Ipaddress

/-! ## What a client rule stands for -/

/-- The identifiers of an enabled client, the empty ones apart: what a rule for it can match. -/
def matchable (identifiers : IdentifierRows) (c : Client) : List (IdentifierKind × Str) :=
  if c.enabled then ((identifiersOf identifiers c.id).filter (·.value ≠ [])).map Identifier.key
  else []

/-- The order of identifiers. -/
def keyOrder (key : IdentifierKind × Str) : Str ×ₗ Str := toLex (key.1.text, key.2)

theorem kindText_inj {a b : IdentifierKind} (h : a.text = b.text) : a = b := by
  cases a <;> cases b <;> first | rfl | exact absurd h (by decide)

theorem keyOrder_inj {a b : IdentifierKind × Str} (h : keyOrder a = keyOrder b) : a = b := by
  obtain ⟨htext, hvalue⟩ := Prod.mk.inj (toLex_inj.mp h)
  exact Prod.ext (kindText_inj htext) hvalue

/-- The effective rules of a client rule. -/
def clientRules (action : AllowDeny) (name : Str) (keys : List (IdentifierKind × Str)) :
    List EffectiveRule :=
  (sortBy keyOrder keys).map fun key => ⟨action, key.1, some key.2, "client:".toList ++ name⟩

/-- The effective rules of a rule that can match something. -/
def matchingRules (clients : ClientRows) (identifiers : IdentifierRows) (rule : AccessRule) :
    List EffectiveRule :=
  (expandRule (clientsById clients identifiers) rule).filter (·.canMatch)

theorem sortedIdentifiers_filter (is : List Identifier) :
    ((sortBy Identifier.sortKey is).filter (·.value ≠ [])).map Identifier.key
      = sortBy keyOrder ((is.filter (·.value ≠ [])).map Identifier.key) := by
  have hperm : (((sortBy Identifier.sortKey is).filter (·.value ≠ [])).map Identifier.key).Perm
      (sortBy keyOrder ((is.filter (·.value ≠ [])).map Identifier.key)) :=
    (((sortBy_perm Identifier.sortKey is).filter _).map _).trans (sortBy_perm _ _).symm
  have hsorted : (((sortBy Identifier.sortKey is).filter (·.value ≠ [])).map
      Identifier.key).Pairwise fun a b => keyOrder a ≤ keyOrder b := by
    rw [List.pairwise_map]
    exact (sortBy_pairwise Identifier.sortKey is).filter _
  have h := map_eq_of_sorted id hperm hsorted (sortBy_pairwise _ _)
    fun a _ b _ heq => keyOrder_inj heq
  rwa [List.map_id, List.map_id] at h

/-- **A rule for a client** stands for what the client's identifiers can match. -/
theorem matchingRules_client {clients : ClientRows} {identifiers : IdentifierRows}
    {rule : AccessRule} (hkind : rule.kind = .client) : matchingRules clients identifiers rule
      = ((ruleClient clients rule).map fun c =>
          clientRules rule.action c.name (matchable identifiers c)).getD [] := by
  unfold matchingRules expandRule ruleClient clientsById
  rw [hkind]
  cases rule.clientId with
  | none => rfl
  | some id =>
      simp only [Option.bind_some]
      cases clients.1.find? (·.id = id) with
      | none => rfl
      | some c =>
          simp only [Option.map_some, Option.getD_some, matchable]
          split_ifs
          · rw [clientRules, ← sortedIdentifiers_filter, List.filter_map, List.map_map]
            rfl
          · rfl

theorem matchingRules_identifier {clients clients' : ClientRows}
    {identifiers identifiers' : IdentifierRows} {r r' : AccessRule} {kind : IdentifierKind}
    (hkind : r.kind = .identifier kind) (haction : r'.action = r.action) (hkind' : r'.kind = r.kind)
    (hvalue : r'.value = r.value) :
    matchingRules clients' identifiers' r' = matchingRules clients identifiers r := by
  unfold matchingRules expandRule
  rw [hkind', hkind, haction, hvalue]

/-! ## Pairs of rows in order -/

/-- Two lists of rows in the order of their ids, paired up, are in the same order. -/
theorem pairs_order {α β : Type} {f : α → ℕ} {g : β → ℕ} {pairs : List (α × β)}
    (hf : (pairs.map (·.1)).Pairwise fun a b => f a < f b)
    (hg : (pairs.map (·.2)).Pairwise fun a b => g a < g b) {z y : α × β} (hz : z ∈ pairs)
    (hy : y ∈ pairs) : z = y ∨ (f z.1 < f y.1 ∧ g z.2 < g y.2) ∨ (f y.1 < f z.1 ∧ g y.2 < g z.2) := by
  have hsymm : Std.Symm fun z y : α × β =>
      (f z.1 < f y.1 ∧ g z.2 < g y.2) ∨ (f y.1 < f z.1 ∧ g y.2 < g z.2) := ⟨fun _ _ => Or.symm⟩
  have hboth : pairs.Pairwise fun z y =>
      (f z.1 < f y.1 ∧ g z.2 < g y.2) ∨ (f y.1 < f z.1 ∧ g y.2 < g z.2) := by
    rw [List.pairwise_map] at hf hg
    exact (hf.and hg).imp Or.inl
  by_cases h : z = y
  · exact Or.inl h
  · exact Or.inr (hboth.forall hz hy h)

theorem clients_increasing (clients : ClientRows) :
    clients.1.Pairwise fun c d => c.id < d.id :=
  clients.2.imp fun h => by simpa [clientConflict] using h

theorem rules_increasing (rules : RuleRows) : rules.1.Pairwise fun r s => r.id < s.id :=
  rules.2.imp fun h => by
    simp only [ruleConflict, Bool.or_eq_false_iff, Bool.not_eq_false', decide_eq_true_eq] at h
    exact h.1

/-! ## Looking clients up by name -/

/-- The last client whose name is `name` once it is stripped. -/
def lastNamed (clients : ClientRows) (name : Str) : Option Client :=
  (clients.1.filter (·.named)).reverse.find? (strip ·.name = name)

/-- Looking the clients of the client rules up by name changes nothing that the rules match. -/
def NamesKeepRules (s : ClientTables) : Prop :=
  ∀ rule ∈ s.accessRules.1, rule.kind = .client → ∀ c, ruleClient s.clients rule = some c →
    ((lastNamed s.clients c.name).map (matchable s.identifiers)).getD []
      = matchable s.identifiers c

theorem find?_pairs {α β : Type} (p : α → Bool) (q : β → Bool) {pairs : List (α × β)}
    (h : ∀ z ∈ pairs, q z.2 = p z.1) :
    (pairs.map (·.2)).find? q = (pairs.find? fun z => p z.1).map (·.2) ∧
    (pairs.map (·.1)).find? p = (pairs.find? fun z => p z.1).map (·.1) := by
  refine ⟨?_, List.find?_map⟩
  induction pairs with
  | nil => rfl
  | cons z pairs ih =>
      rw [List.map_cons, List.find?_cons, List.find?_cons, h z List.mem_cons_self]
      cases p z.1 with
      | true => rfl
      | false => exact ih fun y hy => h y (List.mem_cons_of_mem _ hy)

/-- What `name_to_id` gives is the id of the copy of the last client of the name. -/
theorem lookup_lastNamed {clients : ClientRows} {identifiers : IdentifierRows}
    {state : ClientImport} {pairs : List (Client × Client)}
    (hinv : ImportInv identifiers clients.1 state)
    (hfst : pairs.map (·.1) = clients.1.filter (·.named))
    (hsnd : pairs.map (·.2) = state.clients.1)
    (himported : ∀ z ∈ pairs, Imported identifiers state.identifiers z.1 z.2) (name : Str) :
    (state.nameToId.lookup name = none ∧ lastNamed clients name = none) ∨
    ∃ z ∈ pairs, state.nameToId.lookup name = some z.2.id ∧ lastNamed clients name = some z.1 ∧
      z.2.name = name := by
  have hsame : ∀ z ∈ pairs.reverse, decide (z.2.name = name) = decide (strip z.1.name = name) :=
    fun z hz => by rw [(himported z (List.mem_reverse.mp hz)).name]
  have hfind := find?_pairs (fun c : Client => strip c.name = name)
    (fun c : Client => c.name = name) hsame
  rw [List.map_reverse, List.map_reverse, hfst, hsnd] at hfind
  rw [hinv.lookup, lastRow, lastNamed, hfind.1, hfind.2]
  cases hz : pairs.reverse.find? fun z => decide (strip z.1.name = name) with
  | none => exact Or.inl ⟨rfl, rfl⟩
  | some z =>
      have hmem := List.mem_reverse.mp (List.mem_of_find?_eq_some hz)
      have hname := List.find?_some hz
      rw [decide_eq_true_eq] at hname
      exact Or.inr ⟨z, hmem, rfl, rfl, (himported z hmem).name.trans hname⟩

/-- The client with a given row. -/
theorem find?_id {clients : ClientRows} {c : Client} (hc : c ∈ clients.1) :
    clients.1.find? (·.id = c.id) = some c := by
  have hinj : ∀ d ∈ clients.1, d.id = c.id → d = c := by
    intro d hd hid
    by_contra hne
    have hsymm : Std.Symm fun c d : Client => c.id ≠ d.id := ⟨fun _ _ h => h.symm⟩
    exact ((clients_increasing clients).imp fun h => h.ne).forall hd hc hne hid
  cases h : clients.1.find? (·.id = c.id) with
  | none => exact absurd (List.find?_eq_none.mp h c hc) (by simp)
  | some d =>
      have hid := List.find?_some h
      rw [hinj d (List.mem_of_find?_eq_some h) (by simpa using hid)]

/-- The copies of a client's identifiers match the same. -/
theorem matchable_imported {identifiers identifiers' : IdentifierRows} {c c' : Client}
    (h : Imported identifiers identifiers' c c') :
    matchable identifiers' c' = matchable identifiers c := by
  unfold matchable
  rw [h.enabled]
  split_ifs
  · have hkeys : ∀ is : List Identifier, (is.filter (·.value ≠ [])).map Identifier.key
        = (is.map Identifier.key).filter (·.2 ≠ []) := fun is => by rw [List.filter_map]; rfl
    rw [hkeys, h.keys, ← hkeys, List.filter_filter]
    simp only [Bool.and_self]
  · rfl

/-- A client whose rule matches something is not confused with another one. -/
theorem eq_of_matchable {identifiers : IdentifierRows} {c w : Client}
    (h : matchable identifiers w = matchable identifiers c) (hne : matchable identifiers c ≠ []) :
    w.id = c.id := by
  have howner : ∀ {d : Client} {key}, key ∈ matchable identifiers d →
      ∃ i ∈ identifiers.1, i.clientId = d.id ∧ i.key = key := by
    intro d key hkey
    unfold matchable at hkey
    split_ifs at hkey
    · obtain ⟨i, hi, rfl⟩ := List.mem_map.mp hkey
      have hi := List.mem_filter.mp (List.mem_of_mem_filter hi)
      exact ⟨i, hi.1, by simpa using hi.2, rfl⟩
    · cases hkey
  obtain ⟨key, hkey⟩ := List.exists_mem_of_ne_nil _ hne
  obtain ⟨i, hi, hic, hik⟩ := howner hkey
  obtain ⟨j, hj, hjw, hjk⟩ := howner (h ▸ hkey)
  rw [← hic, ← hjw, identifier_of_key hi hj (hik.trans hjk.symm)]

/-! ## Rules after an import -/

section Import

variable {clients : ClientRows} {identifiers : IdentifierRows} {rules : RuleRows}
  {state : ClientImport} {pairs : List (Client × Client)}

theorem ruleClient_id {r : AccessRule} {c : Client} (h : ruleClient clients r = some c) :
    r.clientId = some c.id ∧ c ∈ clients.1 := by
  unfold ruleClient at h
  obtain ⟨id, hid, hfind⟩ := Option.bind_eq_some_iff.mp h
  have hc := List.find?_some hfind
  rw [decide_eq_true_eq] at hc
  exact ⟨by rw [hid, hc], List.mem_of_find?_eq_some hfind⟩

/-- A rule that is dropped stood for nothing. -/
theorem matchingRules_dropped (hkeep : NamesKeepRules ⟨clients, identifiers, rules⟩)
    (hinv : ImportInv identifiers clients.1 state)
    (hfst : pairs.map (·.1) = clients.1.filter (·.named))
    (hsnd : pairs.map (·.2) = state.clients.1)
    (himported : ∀ z ∈ pairs, Imported identifiers state.identifiers z.1 z.2)
    {r : AccessRule} (hr : r ∈ rules.1) (hdrop : ruleKept state.nameToId clients r = false) :
    matchingRules clients identifiers r = [] := by
  simp only [ruleKept, ne_eq, decide_not, Bool.or_eq_false_iff, Bool.not_eq_false',
    decide_eq_true_eq, importedClientId] at hdrop
  obtain ⟨hkind, hlookup⟩ := hdrop
  rw [if_pos hkind, Option.isSome_eq_false_iff, Option.isNone_iff_eq_none] at hlookup
  rw [matchingRules_client hkind]
  cases hc : ruleClient clients r with
  | none => rfl
  | some c =>
      have hname : ruleName clients r = c.name := by rw [ruleName, hc]; rfl
      rw [hname] at hlookup
      have hlast : lastNamed clients c.name = none := by
        rcases lookup_lastNamed hinv hfst hsnd himported c.name with h | ⟨z, -, h, -⟩
        · exact h.2
        · rw [hlookup] at h
          cases h
      have hempty := hkeep r hr hkind c hc
      rw [hlast] at hempty
      rw [Option.map_some, Option.getD_some, ← hempty]
      rfl

/-- **An imported rule** stands for the same on the replica. -/
theorem matchingRules_import (hkeep : NamesKeepRules ⟨clients, identifiers, rules⟩)
    (hinv : ImportInv identifiers clients.1 state)
    (hfst : pairs.map (·.1) = clients.1.filter (·.named))
    (hsnd : pairs.map (·.2) = state.clients.1)
    (himported : ∀ z ∈ pairs, Imported identifiers state.identifiers z.1 z.2)
    {r r' : AccessRule} (hr : r ∈ rules.1) (hkept : ruleKept state.nameToId clients r = true)
    (hrule : RuleImported state.nameToId clients r r') :
    matchingRules state.clients state.identifiers r' = matchingRules clients identifiers r ∧
    (r.kind = .client → matchingRules clients identifiers r ≠ [] →
      ∃ z ∈ pairs, r.clientId = some z.1.id ∧ r'.clientId = some z.2.id) := by
  cases hkind : r.kind with
  | identifier kind =>
      exact ⟨matchingRules_identifier hkind hrule.action hrule.kind hrule.value, nofun⟩
  | client =>
      have hid : r'.clientId = state.nameToId.lookup (ruleName clients r) := by
        rw [hrule.clientId, importedClientId, if_pos hkind]
      have hsome : (state.nameToId.lookup (ruleName clients r)).isSome = true := by
        simpa [ruleKept, importedClientId, hkind] using hkept
      rcases lookup_lastNamed hinv hfst hsnd himported (ruleName clients r) with
        ⟨hnone, -⟩ | ⟨z, hz, hlook, hlast, hname⟩
      · rw [hnone] at hsome
        cases hsome
      have hmem : z.2 ∈ state.clients.1 := hsnd ▸ List.mem_map_of_mem hz
      have hclient' : ruleClient state.clients r' = some z.2 := by
        rw [ruleClient, hid, hlook, Option.bind_some]
        exact find?_id hmem
      -- a rule without a client has the empty name, which no imported client has
      cases hc : ruleClient clients r with
      | none =>
          have hnil : ruleName clients r = [] := by rw [ruleName, hc]; rfl
          have hnamed : z.1.named = true := by
            have : z.1 ∈ clients.1.filter (·.named) := hfst ▸ List.mem_map_of_mem hz
            exact List.of_mem_filter this
          rw [(himported z hz).name, hnil] at hname
          simp [Client.named, hname] at hnamed
      | some c =>
          have hcname : ruleName clients r = c.name := by rw [ruleName, hc]; rfl
          have hmatch := hkeep r hr hkind c hc
          rw [hcname] at hlast hname
          rw [hlast, Option.map_some, Option.getD_some] at hmatch
          have hrules : matchingRules clients identifiers r
              = clientRules r.action c.name (matchable identifiers c) := by
            rw [matchingRules_client hkind, hc]
            rfl
          refine ⟨?_, fun _ hne => ⟨z, hz, ?_, by rw [hid, hlook]⟩⟩
          · rw [matchingRules_client (hrule.kind.trans hkind), hclient', hrules]
            simp only [Option.map_some, Option.getD_some]
            rw [hrule.action, hname, matchable_imported (himported z hz), hmatch]
          · have hcne : matchable identifiers c ≠ [] := by
              intro hnil
              rw [hrules, hnil] at hne
              exact hne rfl
            rw [(ruleClient_id hc).1, eq_of_matchable hmatch hcne]

end Import

/-! ## The order of the rules -/

/-- The columns that `list_access_rules` orders by. -/
def AccessRule.columns (r : AccessRule) : Str ×ₗ Str ×ₗ WithBot Str :=
  toLex (r.action.text, toLex (r.kind.text, r.value))

/-- The sort key without the ids, for the rules that do not depend on them. -/
def AccessRule.coarseKey (r : AccessRule) : (Str ×ₗ Str ×ₗ WithBot Str) ×ₗ (WithBot ℕ ×ₗ ℕ) :=
  toLex (r.columns, if r.kind = .client then toLex (r.clientId, r.id) else toLex (⊥, 0))

theorem ruleKindText_inj {a b : RuleKind} (h : a.text = b.text) : a = b := by
  cases a with
  | client =>
      cases b with
      | client => rfl
      | identifier kind => cases kind <;> exact absurd h (by decide)
  | identifier kind =>
      cases b with
      | client => cases kind <;> exact absurd h (by decide)
      | identifier kind' => rw [kindText_inj h]

theorem actionText_inj {a b : AllowDeny} (h : a.text = b.text) : a = b := by
  cases a <;> cases b <;> first | rfl | exact absurd h (by decide)

theorem columns_inj {r s : AccessRule} (h : r.columns = s.columns) :
    r.action = s.action ∧ r.kind = s.kind ∧ r.value = s.value := by
  obtain ⟨haction, h⟩ := Prod.mk.inj (toLex_inj.mp h)
  obtain ⟨hkind, hvalue⟩ := Prod.mk.inj (toLex_inj.mp h)
  exact ⟨actionText_inj haction, ruleKindText_inj hkind, hvalue⟩

theorem coarseKey_le {r s : AccessRule} (h : r.sortKey ≤ s.sortKey) :
    r.coarseKey ≤ s.coarseKey := by
  rw [AccessRule.sortKey, AccessRule.sortKey, Prod.Lex.toLex_le_toLex] at h
  rw [AccessRule.coarseKey, AccessRule.coarseKey, Prod.Lex.toLex_le_toLex]
  rcases h with h | ⟨hcolumns, hids⟩
  · exact Or.inl h
  · refine Or.inr ⟨hcolumns, ?_⟩
    have hkind : r.kind = s.kind := (columns_inj hcolumns).2.1
    dsimp only
    rw [hkind]
    split_ifs
    · exact hids
    · exact le_rfl

/-- Rules with the same coarse key stand for the same. -/
theorem matchingRules_coarse {clients : ClientRows} {identifiers : IdentifierRows}
    {r s : AccessRule} (h : r.coarseKey = s.coarseKey) :
    matchingRules clients identifiers r = matchingRules clients identifiers s := by
  obtain ⟨hcolumns, hids⟩ := Prod.mk.inj (toLex_inj.mp h)
  obtain ⟨haction, hkind, hvalue⟩ := columns_inj hcolumns
  cases hs : s.kind with
  | identifier kind => exact matchingRules_identifier hs haction hkind hvalue
  | client =>
      rw [hkind, hs, if_pos rfl, if_pos rfl] at hids
      have hclient : r.clientId = s.clientId := (Prod.mk.inj (toLex_inj.mp hids)).1
      unfold matchingRules expandRule
      rw [hkind, haction, hclient, hvalue]

/-- The rules that can match something, in the order in which they are tried. -/
def triedRules (clients : ClientRows) (identifiers : IdentifierRows) (rules : RuleRows) :
    List EffectiveRule :=
  (listAccessRules rules).flatMap (matchingRules clients identifiers)

theorem expandRules_filter (clients : ClientRows) (identifiers : IdentifierRows)
    (rules : RuleRows) :
    (expandRules (listAccessRules rules) (clientsById clients identifiers)).filter (·.canMatch)
      = triedRules clients identifiers rules := by
  rw [expandRules, List.filter_flatMap]
  rfl

/-- In any arrangement by the coarse key the rules stand for the same list. -/
theorem triedRules_eq {clients : ClientRows} {identifiers : IdentifierRows} {rules : RuleRows}
    {arranged : List AccessRule}
    (hperm : arranged.Perm (rules.1.filter fun r => matchingRules clients identifiers r ≠ []))
    (hsorted : arranged.Pairwise fun r s => r.coarseKey ≤ s.coarseKey) :
    triedRules clients identifiers rules
      = (arranged.map (matchingRules clients identifiers)).flatten := by
  have hfilter : triedRules clients identifiers rules
      = (((listAccessRules rules).filter fun r => matchingRules clients identifiers r ≠ []).map
          (matchingRules clients identifiers)).flatten := by
    rw [triedRules, List.flatMap, ← List.flatten_filter_ne_nil, List.filter_map]
    rfl
  rw [hfilter]
  congr 1
  refine map_eq_of_sorted _ ?_ ?_ hsorted fun r _ s _ h => matchingRules_coarse h
  · exact (((sortBy_perm _ rules.1).filter _).trans hperm.symm)
  · exact ((sortBy_pairwise AccessRule.sortKey rules.1).imp coarseKey_le).filter _

/-- Pairs of a rule and its copy are in the same coarse order on both sides. -/
theorem coarseKey_import {clientPairs : List (Client × Client)}
    (hf : (clientPairs.map (·.1)).Pairwise fun c d => c.id < d.id)
    (hg : (clientPairs.map (·.2)).Pairwise fun c d => c.id < d.id)
    {rulePairs : List (AccessRule × AccessRule)}
    (hrf : (rulePairs.map (·.1)).Pairwise fun r s => r.id < s.id)
    (hrg : (rulePairs.map (·.2)).Pairwise fun r s => r.id < s.id)
    (hcolumns : ∀ z ∈ rulePairs, z.2.columns = z.1.columns)
    (hclient : ∀ z ∈ rulePairs, z.1.kind = .client →
      ∃ w ∈ clientPairs, z.1.clientId = some w.1.id ∧ z.2.clientId = some w.2.id)
    {z y : AccessRule × AccessRule} (hz : z ∈ rulePairs) (hy : y ∈ rulePairs)
    (h : z.1.coarseKey ≤ y.1.coarseKey) : z.2.coarseKey ≤ y.2.coarseKey := by
  rw [AccessRule.coarseKey, AccessRule.coarseKey, Prod.Lex.toLex_le_toLex] at h ⊢
  dsimp only at h ⊢
  rw [hcolumns z hz, hcolumns y hy]
  rcases h with h | ⟨hcol, hids⟩
  · exact Or.inl h
  refine Or.inr ⟨hcol, ?_⟩
  have hkind := (columns_inj hcol).2.1
  have hkz := (columns_inj (hcolumns z hz)).2.1
  have hky := (columns_inj (hcolumns y hy)).2.1
  rw [hkz, hky]
  by_cases hk : z.1.kind = .client
  · have hk' : y.1.kind = .client := hkind ▸ hk
    rw [if_pos hk, if_pos hk'] at hids ⊢
    obtain ⟨v, hv, hv1, hv2⟩ := hclient z hz hk
    obtain ⟨w, hw, hw1, hw2⟩ := hclient y hy hk'
    rw [hv1, hw1, Prod.Lex.toLex_le_toLex] at hids
    rw [hv2, hw2, Prod.Lex.toLex_le_toLex]
    have hrow : z.1.id ≤ y.1.id → z.2.id ≤ y.2.id := by
      rcases pairs_order hrf hrg hz hy with rfl | h | h <;> omega
    rcases pairs_order hf hg hv hw with rfl | h | h
    · rcases hids with h | ⟨-, h⟩
      · exact absurd h (lt_irrefl _)
      · exact Or.inr ⟨rfl, hrow h⟩
    · exact Or.inl (WithBot.coe_lt_coe.mpr h.2)
    · rcases hids with h' | ⟨h', -⟩
      · exact absurd (WithBot.coe_lt_coe.mp h') (by omega)
      · exact absurd (WithBot.coe_inj.mp h') (by omega)
  · have hk' : y.1.kind ≠ .client := hkind ▸ hk
    rw [if_neg hk, if_neg hk']

/-- **The imported rules stand for the same, in the same order.** -/
theorem triedRules_import {s imported : ClientTables} (hkeep : NamesKeepRules s)
    (h : importClientTables (buildClientsSection s.clients s.identifiers)
      (buildAccessRulesSection s.clients s.accessRules) = some imported) :
    triedRules imported.clients imported.identifiers imported.accessRules
      = triedRules s.clients s.identifiers s.accessRules := by
  unfold importClientTables at h
  rw [Option.bind_eq_bind, Option.bind_eq_some_iff] at h
  obtain ⟨state, hstate, h⟩ := h
  rw [Option.bind_eq_bind, Option.bind_eq_some_iff] at h
  obtain ⟨rows', hrows', h⟩ := h
  cases h
  have hinv := importClients_build hstate
  obtain ⟨clientPairs, hcf, hcs, himported⟩ := hinv.aligned
  obtain ⟨rulePairs, hrf, hrs, hrules⟩ := importRules_build hrows'
  have hmem : ∀ z ∈ rulePairs, z.1 ∈ s.accessRules.1 ∧
      ruleKept state.nameToId s.clients z.1 = true := by
    intro z hz
    have : z.1 ∈ s.accessRules.1.filter (ruleKept state.nameToId s.clients) :=
      hrf ▸ List.mem_map_of_mem hz
    exact List.mem_filter.mp this
  have hsame : ∀ z ∈ rulePairs, _ := fun z hz =>
    matchingRules_import hkeep hinv hcf hcs himported (hmem z hz).1 (hmem z hz).2 (hrules z hz)
  -- the pairs whose rules match something, in the order of the primary
  let tried := rulePairs.filter fun z => matchingRules s.clients s.identifiers z.1 ≠ []
  let arranged := sortBy (fun z : AccessRule × AccessRule => z.1.coarseKey) tried
  have hperm : arranged.Perm tried := sortBy_perm _ _
  have htried : ∀ z ∈ arranged, z ∈ tried := fun z hz => hperm.mem_iff.mp hz
  have hpairs : ∀ z ∈ tried, z ∈ rulePairs := fun z hz => List.mem_of_mem_filter hz
  have hfst : triedRules s.clients s.identifiers s.accessRules
      = ((arranged.map (·.1)).map (matchingRules s.clients s.identifiers)).flatten := by
    refine triedRules_eq ?_ (List.pairwise_map.mpr (sortBy_pairwise _ _))
    have hfilter : tried.map (·.1) = s.accessRules.1.filter fun r =>
        matchingRules s.clients s.identifiers r ≠ [] := by
      rw [show tried.map (·.1) = (rulePairs.map (·.1)).filter fun r =>
        matchingRules s.clients s.identifiers r ≠ [] by rw [List.filter_map]; rfl, hrf,
        List.filter_filter]
      refine List.filter_congr fun r hr => ?_
      cases hkept : ruleKept state.nameToId s.clients r with
      | true => simp
      | false => simp [matchingRules_dropped hkeep hinv hcf hcs himported hr hkept]
    rw [← hfilter]
    exact hperm.map _
  have hsnd : triedRules state.clients state.identifiers rows'
      = ((arranged.map (·.2)).map (matchingRules state.clients state.identifiers)).flatten := by
    refine triedRules_eq ?_ (List.pairwise_map.mpr ?_)
    · have hfilter : tried.map (·.2) = rows'.1.filter fun r =>
          matchingRules state.clients state.identifiers r ≠ [] := by
        rw [← hrs, List.filter_map]
        congr 1
        exact List.filter_congr fun z hz => by simp [(hsame z hz).1]
      rw [← hfilter]
      exact hperm.map _
    · refine (sortBy_pairwise _ tried).imp_of_mem fun {z y} hz hy hle => ?_
      have hcf' : (clientPairs.map (·.1)).Pairwise fun c d => c.id < d.id := by
        rw [hcf]
        exact (clients_increasing s.clients).filter _
      have hcs' : (clientPairs.map (·.2)).Pairwise fun c d => c.id < d.id := by
        rw [hcs]
        exact clients_increasing state.clients
      refine coarseKey_import hcf' hcs' ?_ ?_ ?_ ?_ (htried z hz) (htried y hy) hle
      · exact (hrf ▸ (rules_increasing s.accessRules).filter _ :
          (rulePairs.map (·.1)).Pairwise _).sublist (List.filter_sublist.map _)
      · exact (hrs ▸ rules_increasing rows' :
          (rulePairs.map (·.2)).Pairwise _).sublist (List.filter_sublist.map _)
      · intro z hz
        have hr := hrules z (hpairs z hz)
        rw [AccessRule.columns, AccessRule.columns, hr.action, hr.kind, hr.value]
      · intro z hz hk
        have hne := List.of_mem_filter hz
        exact (hsame z (hpairs z hz)).2 hk (by simpa using hne)
  rw [hfst, hsnd, List.map_map, List.map_map]
  congr 1
  exact List.map_congr_left fun z hz => (hsame z (hpairs z (htried z hz))).1

/-! ## Decisions -/

/-- `get_default_policy`. -/
def defaultPolicy (settings : TableRows .accessSettings) : AllowDeny :=
  match settings.1 with
  | [] => .allow
  | (row : AccessSettingsRow) :: _ => row.defaultPolicy

/-- What the decisions of a node are made of, when its schema has been initialised. -/
def Database.accessStore (db : Database) : Option AccessStore :=
  match db.access.clients, db.access.identifiers, db.access.accessRules,
      db.tables .accessSettings with
  | some clients, some identifiers, some accessRules, some settings =>
      some ⟨⟨clients, identifiers, accessRules⟩, defaultPolicy settings⟩
  | _, _, _, _ => none

theorem accessStore_eq_some {db : Database} {s : AccessStore} (h : db.accessStore = some s) :
    db.access.clients = some s.clients ∧ db.access.identifiers = some s.identifiers ∧
      db.access.accessRules = some s.accessRules ∧
      ∃ settings, db.tables .accessSettings = some settings ∧
        s.defaultPolicy = defaultPolicy settings := by
  unfold Database.accessStore at h
  split at h
  · rename_i clients identifiers accessRules settings hc hi hr hs
    cases h
    exact ⟨hc, hi, hr, settings, hs, rfl⟩
  · cases h

/-- The decision depends on the rules that are tried and the default policy. -/
theorem decision_eq (s : AccessStore) (remoteIp clientid : Option Str) :
    s.decision remoteIp clientid = decideExpanded (remoteIp.bind ipAddress) clientid
      (triedRules s.clients s.identifiers s.accessRules) s.defaultPolicy := by
  rw [AccessStore.decision, evaluateAccess, ← decideExpanded_filter, expandRules_filter]

/-- **When names keep the rules, every decision is replicated**, with its reason. -/
theorem decision_replicated {includeEncryption : Bool} {primary replica replica' : Database}
    {sections : Sections} {s r : AccessStore}
    (hbuild : buildPayload includeEncryption primary = some sections)
    (happly : applySections sections replica = some replica')
    (hs : primary.accessStore = some s) (hr : replica.accessStore = some r)
    (hkeep : NamesKeepRules s.toClientTables) :
    ∃ s', replica'.accessStore = some s' ∧
      ∀ remoteIp clientid, s'.decision remoteIp clientid = s.decision remoteIp clientid := by
  obtain ⟨hc, hi, ha, settings, hsettings, hpolicy⟩ := accessStore_eq_some hs
  obtain ⟨hc', hi', ha', old, hold, -⟩ := accessStore_eq_some hr
  obtain ⟨htables, -, haccess⟩ := writeSections_eq_some.mp happly
  have hsections : sections.tables .accessSettings = some (settings.1.map some) ∧
      sections.clients = some (buildClientsSection s.clients s.identifiers) ∧
      sections.accessRules = some (buildAccessRulesSection s.clients s.accessRules) := by
    unfold buildPayload at hbuild
    split_ifs at hbuild
    cases hbuild
    refine ⟨?_, ?_, ?_⟩
    · simp only [selectTables, hsettings, Option.map_some]
    · simp only [AccessTables.clientsSection, hc, hi]
    · simp only [AccessTables.accessRulesSection, hc, ha]
  -- the settings row is copied
  have hpolicy' : replica'.tables .accessSettings = some settings := by
    have htable := htables .accessSettings
    rw [hold] at htable
    obtain ⟨table, htable, hmap⟩ := applyTable_carried hsections.1 htable
    rw [htable, Option.some.injEq, Subtype.ext_iff]
    exact List.map_injective_iff.mpr (Option.some_injective _) hmap
  rw [hsections.2.1, hsections.2.2] at haccess
  unfold applyClientsAccessSections at haccess
  rw [if_neg (by simp), hc', hi', ha'] at haccess
  obtain ⟨imported, himported, himp⟩ := Option.map_eq_some_iff.mp haccess
  refine ⟨⟨imported, s.defaultPolicy⟩, ?_, fun remoteIp clientid => ?_⟩
  · simp only [Database.accessStore, ← himp, hpolicy', hpolicy]
  · rw [decision_eq, decision_eq]
    exact congrArg (decideExpanded _ _ · _) (triedRules_import hkeep himported)

/-! ### Two clients of one name -/

/-- A node on which everybody is allowed, except by the given rules. -/
def accessNode (clients : ClientRows) (identifiers : IdentifierRows) (rules : RuleRows) :
    Database where
  tables
    | .accessSettings => some ⟨[⟨.allow, "t".toList⟩], List.pairwise_singleton _ _⟩
    | _ => none
  settings _ := none
  access := ⟨some clients, some identifiers, some rules⟩

/-- A client that is denied. -/
def oneClientTables : ClientTables where
  clients := ⟨[⟨1, "A".toList, [], true⟩], by decide⟩
  identifiers := ⟨[⟨1, 1, .ipv4, "1.2.3.4".toList⟩], by decide⟩
  accessRules := ⟨[⟨1, .deny, .client, none, some 1⟩], by decide⟩

def oneClient : Database :=
  accessNode oneClientTables.clients oneClientTables.identifiers oneClientTables.accessRules

theorem namesKeepRules_oneClient : NamesKeepRules oneClientTables := by
  intro rule hrule _ c hc
  rw [List.mem_singleton.mp hrule] at hc
  rw [← Option.some.inj hc]
  decide +kernel

/-- The first of two clients with one name is denied. -/
def twoClients : Database :=
  accessNode ⟨[⟨1, "A".toList, [], true⟩, ⟨2, "A".toList, [], true⟩], by decide⟩
    ⟨[⟨1, 1, .ipv4, "1.2.3.4".toList⟩, ⟨2, 2, .ipv4, "5.6.7.8".toList⟩], by decide⟩
    ⟨[⟨1, .deny, .client, none, some 1⟩], by decide⟩

/-- `decision_replicated` for one client. -/
theorem decision_replicated_oneClient : ∃ s s' sections replica',
    buildPayload false oneClient = some sections ∧
    applySections sections oneClient = some replica' ∧
    oneClient.accessStore = some s ∧ replica'.accessStore = some s' ∧
    ∀ remoteIp clientid, s'.decision remoteIp clientid = s.decision remoteIp clientid := by
  have hs : oneClient.accessStore = some ⟨oneClientTables, .allow⟩ := rfl
  have hbuild : (buildPayload false oneClient).isSome = true := rfl
  obtain ⟨sections, hbuild⟩ := Option.isSome_iff_exists.mp hbuild
  have happly : (applySections sections oneClient).isSome = true := by
    cases hbuild
    rfl
  obtain ⟨replica', happly⟩ := Option.isSome_iff_exists.mp happly
  obtain ⟨s', hs', hsame⟩ := decision_replicated hbuild happly hs hs namesKeepRules_oneClient
  exact ⟨_, s', _, _, hbuild, happly, hs, hs', hsame⟩

/-- On the replica the rule goes to the second client, and the first one is allowed. -/
theorem denied_client_allowed : ∃ s s' sections replica',
    buildPayload false twoClients = some sections ∧
    applySections sections twoClients = some replica' ∧
    twoClients.accessStore = some s ∧ replica'.accessStore = some s' ∧
    (s.decision (some "1.2.3.4".toList) none).allowed = false ∧
    (s'.decision (some "1.2.3.4".toList) none).allowed = true := by
  refine ⟨_, _, _, _, rfl, rfl, rfl, rfl, by decide +kernel, by decide +kernel⟩

end AlderpointDNS
