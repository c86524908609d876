import AlderpointDNS.Clients.Ownership
import AlderpointDNS.Lib.Undo

/-!
# Aliases of deleted clients

`init_db` makes a client of every row of `client_aliases` whose identifier nobody has.  The
deletion of an identifier deletes the alias of its network, so that the client does not come back.
A history consists of what `upsert_alias` writes, of migrations, and of the transactions of the
client operations; each call of an operation is a migration and a transaction.

* `normalizeIdentifier_network` — an alias is migrated under the text that it has;
* `hasAlias_apply` — which aliases a step leaves;
* `adders_length` — how often an identifier is added;
* **`aliases_retired_and_migrated`** — what is deleted stays deleted, and every other alias is
  migrated once.
-/

namespace AlderpointDNS.Clients

open Text Ipaddress
open Importer (AliasRows AliasUpdate aliasWriter)

/-! ## The text of an alias -/

theorem networkScope_networkText {net : IpNetwork} (h : net.Proper) (hv6 : net.isV4 = false)
    {scope : Option Str} (hscope : ∀ z ∈ scope, IsScope z) :
    networkScope (networkText net scope) net = scope := by
  rcases net with ⟨v4, network, p⟩
  obtain ⟨hle, -, hlt⟩ := h
  cases hv6
  have hread := ipAddress_v6Str_of_lt hlt hscope
  have hsplit := split_prefixlen (slash_notMem_of_ipAddress hread) hle
  have htext : networkText ⟨false, network, p⟩ scope
      = (IpAddress.v6 network scope).str ++ '/' :: decimal p := rfl
  rw [networkScope, htext, hsplit]
  simp [(parseV6Scoped_of_ipAddress hread).2]

/-- The text of a network is the text of what it is read as. -/
theorem ipNetworkStr_networkText {net : IpNetwork} (h : net.Proper) {scope : Option Str}
    (hscope : ∀ z ∈ scope, IsScope z) :
    ipNetworkStr (networkText net scope) = some (networkText net scope) := by
  rw [ipNetworkStr, ipNetwork_networkText h hscope, Option.map_some]
  cases hv4 : net.isV4 with
  | true => simp [networkText, hv4]
  | false =>
      rw [networkScope_networkText h hv4 hscope]
      simp [networkText, hv4]

theorem strip_networkText {net : IpNetwork} (h : net.Proper) (scope : Option Str) :
    strip (networkText net scope) = networkText net scope := by
  have hle : net.prefixlen ≤ 128 := by
    have hbits := h.prefixlen_le
    unfold IpNetwork.bits at hbits
    split_ifs at hbits
    · omega
    · exact hbits
  refine stripBy_eq_self_of_ends (fun c hc => ?_) fun c hc => ?_
  · obtain ⟨d, hhead, hstart⟩ :=
      str_head (if net.isV4 then IpAddress.v4 net.network else .v6 net.network scope)
    rw [networkText, List.head?_append, hhead] at hc
    cases hc
    exact (isSpace_of_isAddressStart hstart).1
  · obtain ⟨d, ds, hdecimal, -⟩ := @decimal_head_spec net.prefixlen (by omega)
    rw [networkText, List.getLast?_append_of_ne_nil _ (List.cons_ne_nil _ _), hdecimal,
      List.getLast?_cons_cons, ← hdecimal] at hc
    have hdigit := isDecDigit_of_mem_decimal (by omega) (List.mem_of_getLast? hc)
    exact (isSpace_of_isAddressStart (by simp [isAddressStart, isHexDigit, hdigit])).1

/-- **An alias is migrated under the text that it has.** -/
theorem normalizeIdentifier_network (u : UnicodeData) {raw text : Str}
    (h : ipNetworkStr raw = some text) :
    ∃ e, legacyAliasCidr e.1 e.2 = some text ∧ normalizeIdentifier u text = some e := by
  obtain ⟨-, net, scope, -, hproper, -, hscope, rfl⟩ := ipNetworkStr_spec h
  have hstr := ipNetworkStr_networkText hproper hscope
  have hslash : '/' ∈ networkText net scope := by simp [networkText]
  have hne : networkText net scope ≠ [] := by simp [networkText]
  refine ⟨(if net.isV4 then .ipv4Cidr else .ipv6Cidr, networkText net scope), ?_, ?_⟩
  · dsimp only
    rw [legacyAliasCidr, if_neg, hstr]
    cases net.isV4 <;> decide
  · rw [normalizeIdentifier, strip_networkText hproper scope]
    simp [hne, hslash, ipNetwork_networkText hproper hscope, hstr]

/-! ## Histories -/

/-- The checks of `upsert_alias`; `none` is a `ValueError` or a `LocalDNSError`. -/
def upsertAlias (cidr displayName description now : Str) : Option AliasUpdate :=
  (ipNetworkStr (strip cidr)).bind fun network =>
    if strip displayName = [] then none
    else some ⟨network, strip displayName, description, now⟩

/-- The transaction of `update_client` and `set_client_enabled`; neither touches an identifier. -/
def updateClientRow (edit : Client → Client) (s : ClientsDb) : ClientsDb :=
  { s with clients := s.clients.map (fun c => { edit c with id := c.id }) fun _ _ => rfl }

/-- What happens: a migration, a transaction of a client operation, or a call of `upsert_alias`. -/
inductive HistoryStep where
  | initDb
  | insertClient (name description : Str) (enabled : Bool) (identifiers : List Str)
  | updateClient (edit : Client → Client)
  | assignIdentifier (clientId : ℕ) (rawValue : Str)
  | removeIdentifier (identifierId : ℕ)
  | deleteClient (clientId : ℕ)
  | upsertAlias (cidr displayName description now : Str)

/-- What a step writes to `client_aliases`. -/
def HistoryStep.upserted : HistoryStep → Option AliasUpdate
  | .upsertAlias cidr displayName description now =>
      Clients.upsertAlias cidr displayName description now
  | _ => none

/-- What a step leaves. -/
def HistoryStep.apply (u : UnicodeData) (s : ClientsDb) : HistoryStep → ClientsDb
  | .initDb => Clients.initDb u s
  | .insertClient name description enabled identifiers =>
      RegistryStep.apply u s (.insertClient name description enabled identifiers)
  | .updateClient edit => updateClientRow edit s
  | .assignIdentifier clientId rawValue =>
      RegistryStep.apply u s (.assignIdentifier clientId rawValue)
  | .removeIdentifier identifierId => RegistryStep.apply u s (.deleteIdentifier identifierId)
  | .deleteClient clientId => RegistryStep.apply u s (.deleteClient clientId)
  | .upsertAlias cidr displayName description now =>
      match Clients.upsertAlias cidr displayName description now with
      | none => s
      | some update => { s with aliases := aliasWriter.upsert s.aliases update }

def after (u : UnicodeData) (s : ClientsDb) (history : List HistoryStep) : ClientsDb :=
  history.foldl (HistoryStep.apply u) s

/-- The identifiers that somebody has. -/
def held (s : ClientsDb) : List (IdentifierKind × Str) := s.identifiers.1.map Identifier.key

/-- The step deletes the identifier. -/
def Removes (u : UnicodeData) (s : ClientsDb) (a : HistoryStep) (i : Identifier) : Prop :=
  i ∈ s.identifiers.1 ∧ i.key ∉ held (a.apply u s)

def HasAlias (s : ClientsDb) (cidr : Str) : Prop := ∃ row ∈ s.aliases.1, row.cidr = cidr

/-- What was deleted does not come back with a migration, unless an alias of its network is
written again. -/
def NoZombies (u : UnicodeData) (before : List HistoryStep) : Prop :=
  ∀ a i later, Removes u (after u .fresh before) a i →
    (∀ b ∈ later, ∀ update, b.upserted = some update →
      legacyAliasCidr i.kind i.value ≠ some update.cidr) →
    i.key ∉ held (after u .fresh (before ++ a :: later)) →
    i.key ∉ held (initDb u (after u .fresh (before ++ a :: later)))

/-- The steps of a history that add the identifier. -/
def adders (u : UnicodeData) (e : IdentifierKind × Str) : ClientsDb → List HistoryStep →
    List HistoryStep
  | _, [] => []
  | s, a :: history =>
      (if e ∉ held s ∧ e ∈ held (a.apply u s) then [a] else []) ++
        adders u e (a.apply u s) history

/-- No step of the history deletes an identifier of the network. -/
def KeepsNetwork (u : UnicodeData) (s : ClientsDb) (cidr : Str) (history : List HistoryStep) :
    Prop :=
  ∀ pre a post, history = pre ++ a :: post → ∀ i, Removes u (after u s pre) a i →
    legacyAliasCidr i.kind i.value ≠ some cidr

/-- An alias of a network of which nothing is deleted stays in the table.  With a migration its
identifier is added, once and to one client, if nobody has it yet. -/
def MigratesOnce (u : UnicodeData) (before : List HistoryStep) : Prop :=
  ∀ cidr, HasAlias (after u .fresh before) cidr → ∀ later,
    KeepsNetwork u (after u .fresh before) cidr later → HistoryStep.initDb ∈ later →
    HasAlias (after u .fresh (before ++ later)) cidr ∧
    ∃ e, normalizeIdentifier u cidr = some e ∧
      (adders u e (after u .fresh before) later).length
        = (if e ∈ held (after u .fresh before) then 0 else 1) ∧
      ∃! i, i ∈ (after u .fresh (before ++ later)).identifiers.1 ∧ i.key = e

/-! ## The aliases that a step leaves -/

section Steps

variable {u : UnicodeData} {s : ClientsDb}

theorem mem_deleteLegacyAliases {identifiers : List Identifier} {rows : AliasRows}
    {row : AliasRow} : row ∈ (deleteLegacyAliases rows identifiers).1 ↔
      row ∈ rows.1 ∧ ∀ i ∈ identifiers, legacyAliasCidr i.kind i.value ≠ some row.cidr := by
  induction identifiers generalizing rows with
  | nil => simp [deleteLegacyAliases]
  | cons i identifiers ih =>
      rw [deleteLegacyAliases, List.foldl_cons]
      refine ih.trans ?_
      rw [List.forall_mem_cons, ← and_assoc]
      refine and_congr_left fun _ => ?_
      cases hlegacy : legacyAliasCidr i.kind i.value with
      | none => simp
      | some cidr =>
          show row ∈ rows.1.filter (fun row => row.cidr ≠ cidr) ↔ _
          rw [List.mem_filter, decide_eq_true_iff, ne_eq, ne_eq, Option.some.injEq]
          exact and_congr_right fun _ => not_congr eq_comm

/-- A step that only adds identifiers deletes none. -/
theorem not_removes_of_subset {a : HistoryStep} (h : held s ⊆ held (a.apply u s)) (i : Identifier) :
    ¬Removes u s a i := fun hremoves => hremoves.2 (h (List.mem_map_of_mem hremoves.1))

theorem held_subset_of_append {s' : ClientsDb} {added : List Identifier}
    (h : s'.identifiers.1 = s.identifiers.1 ++ added) : held s ⊆ held s' := by
  rw [held, held, h, List.map_append]
  exact List.subset_append_left _ _

theorem held_subset_initDb (u : UnicodeData) (s : ClientsDb) : held s ⊆ held (initDb u s) := by
  obtain ⟨clients, added, hm⟩ := migrateAliases_spec u s.aliases.1 s.toClientTables
  exact held_subset_of_append hm.identifiers_eq

/-- The steps that insert keep the identifiers and the aliases. -/
theorem insertClient_keeps (u : UnicodeData) (s : ClientsDb) (name description : Str)
    (enabled : Bool) (identifiers : List Str) :
    held s ⊆ held (HistoryStep.apply u s (.insertClient name description enabled identifiers)) ∧
      (HistoryStep.apply u s (.insertClient name description enabled identifiers)).aliases
        = s.aliases := by
  simp only [HistoryStep.apply, RegistryStep.apply]
  cases identifiers.mapM (normalizeIdentifier u) with
  | none => exact ⟨List.Subset.refl _, rfl⟩
  | some normalized =>
      dsimp only
      rcases commit_cases (Clients.insertClient name description enabled normalized) s with
        ⟨hsame, -⟩ | ⟨s', id, hbody, hleft⟩
      · rw [hsame]
        exact ⟨List.Subset.refl _, rfl⟩
      · obtain ⟨-, -, hloop⟩ := insertClient_spec hbody
        obtain ⟨added, hrows, -⟩ := insertIdentifiers_spec hloop
        rw [hleft]
        refine ⟨held_subset_of_append hrows, ?_⟩
        rw [Clients.insertClient] at hbody
        cases hinsert : insertIdentifiers (nextRowid (s.clients.1.map (·.id))) normalized
            s.identifiers with
        | error e =>
            rw [hinsert] at hbody
            cases hbody
        | ok identifiers' =>
            rw [hinsert] at hbody
            cases hbody
            rfl

theorem assignIdentifier_keeps (u : UnicodeData) (s : ClientsDb) (clientId : ℕ) (rawValue : Str) :
    held s ⊆ held (HistoryStep.apply u s (.assignIdentifier clientId rawValue)) ∧
      (HistoryStep.apply u s (.assignIdentifier clientId rawValue)).aliases = s.aliases := by
  simp only [HistoryStep.apply, RegistryStep.apply]
  cases normalizeIdentifier u rawValue with
  | none => exact ⟨List.Subset.refl _, rfl⟩
  | some e =>
      obtain ⟨kind, value⟩ := e
      dsimp only
      rcases commit_cases (Clients.assignIdentifier clientId kind value) s with
        ⟨hsame, -⟩ | ⟨s', id, hbody, hleft⟩
      · rw [hsame]
        exact ⟨List.Subset.refl _, rfl⟩
      · obtain ⟨-, -, hinsert⟩ := assignIdentifier_spec hbody
        obtain ⟨-, i, -, -, hrows⟩ := insertIdentifier_spec hinsert
        rw [hleft]
        refine ⟨held_subset_of_append hrows, ?_⟩
        rw [Clients.assignIdentifier] at hbody
        split_ifs at hbody
        cases hidentifiers : insertIdentifier clientId s.identifiers kind value with
        | error e =>
            rw [hidentifiers] at hbody
            cases hbody
        | ok identifiers' =>
            rw [hidentifiers] at hbody
            cases hbody
            rfl

theorem identifier_of_id {identifiers : IdentifierRows} {i j : Identifier}
    (hi : i ∈ identifiers.1) (hj : j ∈ identifiers.1) (h : i.id = j.id) : i = j := by
  by_contra hne
  have hdistinct : identifiers.1.Pairwise fun i j => i.id ≠ j.id :=
    identifiers.2.imp fun {i j} hlegal heq => by simp [identifierConflict, heq] at hlegal
  have hsymm : Std.Symm fun i j : Identifier => i.id ≠ j.id := ⟨fun _ _ h => h.symm⟩
  exact hdistinct.forall hi hj hne h

/-- A row goes with its identifier: no other row has the same one. -/
theorem removes_filter {a : HistoryStep} {p : Identifier → Bool}
    (h : (a.apply u s).identifiers = s.identifiers.filter p) (i : Identifier) :
    Removes u s a i ↔ i ∈ s.identifiers.1 ∧ p i = false := by
  refine and_congr_right fun hi => ?_
  rw [held, h, LegalRows.filter]
  constructor
  · intro hgone
    cases hp : p i with
    | false => rfl
    | true => exact absurd (List.mem_map_of_mem (List.mem_filter.mpr ⟨hi, hp⟩)) hgone
  · intro hp hmem
    obtain ⟨j, hj, hkey⟩ := List.mem_map.mp hmem
    obtain ⟨hj, hpj⟩ := List.mem_filter.mp hj
    rw [identifier_of_key hj hi hkey, hp] at hpj
    cases hpj

/-- A transaction that deletes: the rows that go, and the aliases of their networks. -/
def Deletes (u : UnicodeData) (s : ClientsDb) (a : HistoryStep) : Prop :=
  a.apply u s = s ∨ ∃ gone, (∀ i, Removes u s a i ↔ i ∈ gone) ∧
    (a.apply u s).aliases = deleteLegacyAliases s.aliases gone

theorem removeIdentifier_deletes (u : UnicodeData) (s : ClientsDb) (identifierId : ℕ) :
    Deletes u s (.removeIdentifier identifierId) := by
  rcases commit_cases (deleteIdentifier identifierId) s with ⟨hsame, -⟩ | ⟨s', ⟨⟩, hbody, hleft⟩
  · exact Or.inl hsame
  · right
    have happly : HistoryStep.apply u s (.removeIdentifier identifierId) = s' := hleft
    obtain ⟨-, hidentifiers⟩ := deleteIdentifier_spec hbody
    rw [← happly] at hidentifiers
    rw [deleteIdentifier] at hbody
    cases hfind : s.identifiers.1.find? (·.id = identifierId) with
    | none =>
        rw [hfind] at hbody
        cases hbody
    | some row =>
        rw [hfind] at hbody
        refine ⟨[row], fun i => ?_, ?_⟩
        · rw [removes_filter hidentifiers, List.mem_singleton]
          have hrow := List.mem_of_find?_eq_some hfind
          have hid : row.id = identifierId := by simpa using List.find?_some hfind
          constructor
          · rintro ⟨hi, hsame⟩
            have hsame : i.id = identifierId := by simpa using hsame
            exact identifier_of_id hi hrow (hsame.trans hid.symm)
          · rintro rfl
            simp [hrow, hid]
        · rw [happly]
          cases hbody
          rfl

theorem deleteClient_deletes (u : UnicodeData) (s : ClientsDb) (clientId : ℕ) :
    Deletes u s (.deleteClient clientId) := by
  rcases commit_cases (deleteClientRows clientId) s with ⟨hsame, -⟩ | ⟨s', ⟨⟩, hbody, hleft⟩
  · exact Or.inl hsame
  · right
    have happly : HistoryStep.apply u s (.deleteClient clientId) = s' := hleft
    obtain ⟨-, hidentifiers⟩ := deleteClientRows_spec hbody
    rw [← happly] at hidentifiers
    rw [deleteClientRows] at hbody
    split_ifs at hbody
    refine ⟨identifiersOf s.identifiers clientId, fun i => ?_, ?_⟩
    · rw [removes_filter hidentifiers]
      simp [identifiersOf]
    · rw [happly]
      cases hbody
      rfl

/-- **Which aliases a step leaves**: those that were there or are written, but for the networks of
what is deleted. -/
theorem hasAlias_apply (u : UnicodeData) (s : ClientsDb) (a : HistoryStep) (cidr : Str) :
    HasAlias (a.apply u s) cidr ↔
      (HasAlias s cidr ∨ ∃ update, a.upserted = some update ∧ update.cidr = cidr) ∧
        ∀ i, Removes u s a i → legacyAliasCidr i.kind i.value ≠ some cidr := by
  have hkeeps : ∀ {a : HistoryStep}, held s ⊆ held (a.apply u s) →
      (a.apply u s).aliases = s.aliases → a.upserted = none →
      (HasAlias (a.apply u s) cidr ↔
        (HasAlias s cidr ∨ ∃ update, a.upserted = some update ∧ update.cidr = cidr) ∧
          ∀ i, Removes u s a i → legacyAliasCidr i.kind i.value ≠ some cidr) := by
    intro a hheld haliases hnone
    have hremoves := not_removes_of_subset hheld
    simp [HasAlias, haliases, hnone, hremoves]
  have hdeletes : ∀ {a : HistoryStep}, a.upserted = none →
      Deletes u s a → (HasAlias (a.apply u s) cidr ↔
        (HasAlias s cidr ∨ ∃ update, a.upserted = some update ∧ update.cidr = cidr) ∧
          ∀ i, Removes u s a i → legacyAliasCidr i.kind i.value ≠ some cidr) := by
    intro a hnone hcases
    rcases hcases with hsame | ⟨gone, hgone, haliases⟩
    · have hheld : held s ⊆ held (a.apply u s) := by
        rw [hsame]
        exact List.Subset.refl _
      exact hkeeps hheld (by rw [hsame]) hnone
    · simp only [HasAlias, haliases, mem_deleteLegacyAliases, hnone, hgone]
      constructor
      · rintro ⟨row, ⟨hrow, hother⟩, rfl⟩
        exact ⟨Or.inl ⟨row, hrow, rfl⟩, hother⟩
      · rintro ⟨⟨row, hrow, rfl⟩ | ⟨update, hupdate, -⟩, hother⟩
        · exact ⟨row, ⟨hrow, hother⟩, rfl⟩
        · cases hupdate
  cases a with
  | initDb => exact hkeeps (held_subset_initDb u s) rfl rfl
  | insertClient name description enabled identifiers =>
      obtain ⟨hheld, haliases⟩ := insertClient_keeps u s name description enabled identifiers
      exact hkeeps hheld haliases rfl
  | updateClient edit => exact hkeeps (List.Subset.refl _) rfl rfl
  | assignIdentifier clientId rawValue =>
      obtain ⟨hheld, haliases⟩ := assignIdentifier_keeps u s clientId rawValue
      exact hkeeps hheld haliases rfl
  | removeIdentifier identifierId => exact hdeletes rfl (removeIdentifier_deletes u s identifierId)
  | deleteClient clientId => exact hdeletes rfl (deleteClient_deletes u s clientId)
  | upsertAlias raw displayName description now =>
      have hupserted : HistoryStep.upserted (.upsertAlias raw displayName description now)
          = Clients.upsertAlias raw displayName description now := rfl
      rw [hupserted]
      have happly : HistoryStep.apply u s (.upsertAlias raw displayName description now)
          = match Clients.upsertAlias raw displayName description now with
            | none => s
            | some update => { s with aliases := aliasWriter.upsert s.aliases update } := rfl
      have hremoves : ∀ i, ¬Removes u s (.upsertAlias raw displayName description now) i := by
        refine not_removes_of_subset ?_
        rw [happly]
        cases Clients.upsertAlias raw displayName description now with
        | none => exact List.Subset.refl _
        | some update => exact List.Subset.refl _
      simp only [hremoves, false_imp_iff, implies_true, and_true]
      rw [happly]
      cases Clients.upsertAlias raw displayName description now with
      | none => simp
      | some update =>
          have hkeys := aliasWriter.exists_key_foldl (fun _ _ => rfl) [update] s.aliases cidr
          simpa [HasAlias, aliasWriter, eq_comm] using hkeys

/-- A step that keeps a network deletes no identifier of it. -/
theorem mem_held_apply {a : HistoryStep} {cidr : Str} {e : IdentifierKind × Str}
    (hkeeps : ∀ i, Removes u s a i → legacyAliasCidr i.kind i.value ≠ some cidr)
    (he : legacyAliasCidr e.1 e.2 = some cidr) (h : e ∈ held s) : e ∈ held (a.apply u s) := by
  by_contra hgone
  obtain ⟨i, hi, rfl⟩ := List.mem_map.mp h
  exact hkeeps i ⟨hi, hgone⟩ he

/-- A migration leaves an identifier with each alias that can be read. -/
theorem mem_held_initDb {cidr : Str} {e : IdentifierKind × Str} (h : HasAlias s cidr)
    (he : normalizeIdentifier u cidr = some e) : e ∈ held (initDb u s) := by
  by_cases hheld : e ∈ held s
  · exact held_subset_initDb u s hheld
  · obtain ⟨clients, added, hm⟩ := migrateAliases_spec u s.aliases.1 s.toClientTables
    obtain ⟨row, hrow, rfl⟩ := h
    have hadded : e ∈ added.map Identifier.key := (hm.keys e).mpr ⟨hheld, row, hrow, he⟩
    have hrows : (initDb u s).identifiers.1 = s.identifiers.1 ++ added := hm.identifiers_eq
    rw [held, hrows, List.map_append]
    exact List.mem_append_right _ hadded

/-- What a migration adds is an alias. -/
theorem alias_of_mem_initDb {e : IdentifierKind × Str} (hnew : e ∉ held s)
    (h : e ∈ held (initDb u s)) : ∃ cidr, HasAlias s cidr ∧ normalizeIdentifier u cidr = some e := by
  obtain ⟨clients, added, hm⟩ := migrateAliases_spec u s.aliases.1 s.toClientTables
  have hrows : (initDb u s).identifiers.1 = s.identifiers.1 ++ added := hm.identifiers_eq
  rw [held, hrows, List.map_append, List.mem_append] at h
  obtain ⟨-, row, hrow, hread⟩ := (hm.keys e).mp (h.resolve_left hnew)
  exact ⟨row.cidr, ⟨row, hrow, rfl⟩, hread⟩

end Steps

/-! ## Whole histories -/

section Histories

variable {u : UnicodeData} {cidr : Str} {e : IdentifierKind × Str}

theorem after_append (u : UnicodeData) (s : ClientsDb) (history later : List HistoryStep) :
    after u s (history ++ later) = after u (after u s history) later :=
  List.foldl_append

/-- The text of every alias is that of a network. -/
theorem alias_canonical {s : ClientsDb} (hs : ∀ cidr, HasAlias s cidr →
    ∃ raw, ipNetworkStr raw = some cidr) (history : List HistoryStep) :
    ∀ cidr, HasAlias (after u s history) cidr → ∃ raw, ipNetworkStr raw = some cidr := by
  induction history generalizing s with
  | nil => exact hs
  | cons a history ih =>
      refine ih fun cidr h => ?_
      rcases ((hasAlias_apply u s a cidr).mp h).1 with hold | ⟨update, hupdate, rfl⟩
      · exact hs cidr hold
      · cases a with
        | upsertAlias raw displayName description now =>
            obtain ⟨network, hread, hrow⟩ := Option.bind_eq_some_iff.mp hupdate
            split_ifs at hrow
            cases hrow
            exact ⟨_, hread⟩
        | _ => cases hupdate

/-- An alias that is not written stays away. -/
theorem not_hasAlias_after {s : ClientsDb} {history : List HistoryStep} (h : ¬HasAlias s cidr)
    (hunwritten : ∀ b ∈ history, ∀ update, b.upserted = some update → update.cidr ≠ cidr) :
    ¬HasAlias (after u s history) cidr := by
  induction history generalizing s with
  | nil => exact h
  | cons a history ih =>
      obtain ⟨hfirst, hrest⟩ := List.forall_mem_cons.mp hunwritten
      refine ih (fun hleft => ?_) hrest
      rcases ((hasAlias_apply u s a cidr).mp hleft).1 with hold | ⟨update, hupdate, hcidr⟩
      · exact h hold
      · exact hfirst update hupdate hcidr

theorem noZombies (u : UnicodeData) (before : List HistoryStep) : NoZombies u before := by
  intro a i later hremoves hunwritten hnew hback
  obtain ⟨cidr, halias, hread⟩ := alias_of_mem_initDb hnew hback
  have hfresh : ∀ cidr, HasAlias .fresh cidr → ∃ raw, ipNetworkStr raw = some cidr := by
    rintro cidr ⟨row, hrow, -⟩
    cases hrow
  obtain ⟨raw, hraw⟩ := alias_canonical hfresh _ cidr halias
  obtain ⟨e, hlegacy, hread'⟩ := normalizeIdentifier_network u hraw
  rw [hread, Option.some.injEq] at hread'
  subst hread'
  have hafter : after u .fresh (before ++ a :: later)
      = after u (a.apply u (after u .fresh before)) later := after_append u _ before (a :: later)
  rw [hafter] at halias
  refine not_hasAlias_after (fun hleft => ?_) (fun b hb update hupdate hcidr => ?_) halias
  · exact ((hasAlias_apply u _ a cidr).mp hleft).2 i hremoves hlegacy
  · exact hunwritten b hb update hupdate (by rw [hcidr]; exact hlegacy)

theorem keepsNetwork_cons {s : ClientsDb} {a : HistoryStep} {history : List HistoryStep} :
    KeepsNetwork u s cidr (a :: history) ↔
      (∀ i, Removes u s a i → legacyAliasCidr i.kind i.value ≠ some cidr) ∧
        KeepsNetwork u (a.apply u s) cidr history := by
  constructor
  · intro h
    exact ⟨h [] a history rfl, fun pre b post hsplit => h (a :: pre) b post (by rw [hsplit]; rfl)⟩
  · rintro ⟨hfirst, hrest⟩ pre b post hsplit
    cases pre with
    | nil =>
        cases hsplit
        exact hfirst
    | cons b' pre =>
        cases hsplit
        exact hrest pre b post rfl

theorem keepsNetwork_append {s : ClientsDb} {history later : List HistoryStep}
    (h : KeepsNetwork u s cidr (history ++ later)) :
    KeepsNetwork u s cidr history ∧ KeepsNetwork u (after u s history) cidr later := by
  induction history generalizing s with
  | nil =>
      refine ⟨fun pre a post hsplit => ?_, h⟩
      simp at hsplit
  | cons a history ih =>
      obtain ⟨hfirst, hrest⟩ := keepsNetwork_cons.mp h
      obtain ⟨hhistory, hlater⟩ := ih hrest
      exact ⟨keepsNetwork_cons.mpr ⟨hfirst, hhistory⟩, hlater⟩

/-- Where nothing of the network is deleted, its alias and its identifier stay. -/
theorem stays {s : ClientsDb} {history : List HistoryStep} (hkeeps : KeepsNetwork u s cidr history)
    (he : legacyAliasCidr e.1 e.2 = some cidr) :
    (HasAlias s cidr → HasAlias (after u s history) cidr) ∧
      (e ∈ held s → e ∈ held (after u s history)) := by
  induction history generalizing s with
  | nil => exact ⟨id, id⟩
  | cons a history ih =>
      obtain ⟨hfirst, hrest⟩ := keepsNetwork_cons.mp hkeeps
      obtain ⟨halias, hheld⟩ := ih hrest
      refine ⟨fun h => halias ?_, fun h => hheld (mem_held_apply hfirst he h)⟩
      exact (hasAlias_apply u s a cidr).mpr ⟨Or.inl h, hfirst⟩

/-- **How often an identifier is added** while nothing of its network is deleted. -/
theorem adders_length {s : ClientsDb} {history : List HistoryStep}
    (hkeeps : KeepsNetwork u s cidr history) (he : legacyAliasCidr e.1 e.2 = some cidr) :
    (adders u e s history).length
      = if e ∉ held s ∧ e ∈ held (after u s history) then 1 else 0 := by
  induction history generalizing s with
  | nil => simp [adders, after]
  | cons a history ih =>
      obtain ⟨hfirst, hrest⟩ := keepsNetwork_cons.mp hkeeps
      have hstay : e ∈ held s → e ∈ held (a.apply u s) := mem_held_apply hfirst he
      have hlater := (stays hrest he).2
      have hafter : after u s (a :: history) = after u (a.apply u s) history := rfl
      rw [adders, List.length_append, ih hrest, hafter]
      by_cases hbefore : e ∈ held s
      · simp [hbefore, hstay hbefore]
      · by_cases hnow : e ∈ held (a.apply u s)
        · simp [hbefore, hnow, hlater hnow]
        · simp [hbefore, hnow]

theorem migratesOnce (u : UnicodeData) (before : List HistoryStep) : MigratesOnce u before := by
  intro cidr halias later hkeeps hmigrated
  have hfresh : ∀ cidr, HasAlias .fresh cidr → ∃ raw, ipNetworkStr raw = some cidr := by
    rintro cidr ⟨row, hrow, -⟩
    cases hrow
  obtain ⟨raw, hraw⟩ := alias_canonical hfresh _ cidr halias
  obtain ⟨e, he, hread⟩ := normalizeIdentifier_network u hraw
  obtain ⟨pre, post, rfl⟩ := List.append_of_mem hmigrated
  obtain ⟨hpre, hpost⟩ := keepsNetwork_append hkeeps
  obtain ⟨-, hpost⟩ := keepsNetwork_cons.mp hpost
  have hadded := mem_held_initDb ((stays hpre he).1 halias) hread
  have hheld : e ∈ held (after u (after u .fresh before) (pre ++ .initDb :: post)) := by
    rw [after_append]
    exact (stays hpost he).2 hadded
  have hcount := adders_length hkeeps he
  rw [after_append]
  refine ⟨(stays hkeeps he).1 halias, e, hread, ?_, ?_⟩
  · rw [hcount]
    simp [hheld]
  · obtain ⟨i, hi, hkey⟩ := List.mem_map.mp hheld
    exact ⟨i, ⟨hi, hkey⟩, fun j ⟨hj, hkey'⟩ => identifier_of_key hj hi (hkey'.trans hkey.symm)⟩

end Histories

end AlderpointDNS.Clients
