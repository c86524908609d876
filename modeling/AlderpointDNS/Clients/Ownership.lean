import AlderpointDNS.Clients.Registry
import AlderpointDNS.Lib.IpSets

/-!
# Networks with two owners

An identifier is unique by its kind and its text, but it denotes a set of addresses: those of
`identifier_network`.  Normalization gives an address and the network of that one address
different texts, and it keeps the scope id of an IPv6 address.  `networkSpelling` is the text
without these differences.

* **`sameAddresses_iff`** — normalized identifiers denote the same addresses exactly when their
  spellings agree.
* **`noNetworkTwice_iff`** — in every state of a history no two clients own the same network,
  exactly when each step adds only identifiers whose spelling no other client has.
* `host_owned_twice` — one client gets an address, and another one the network of this address.
-/

namespace AlderpointDNS.Clients

open Text Ipaddress

/-! ## What an identifier denotes -/

/-- `identifier_network`; it is also `none` where the value is no network. -/
def identifierNetwork (kind : IdentifierKind) (value : Str) : Option IpNetwork :=
  if kind = .clientid then none else ipNetwork value

/-- Two identifiers denote the same set of addresses. -/
def SameAddresses (i j : IdentifierKind × Str) : Prop :=
  ∃ net net', identifierNetwork i.1 i.2 = some net ∧ identifierNetwork j.1 j.2 = some net' ∧
    net.addresses = net'.addresses

/-- Identifiers of different clients denote different sets of addresses. -/
def NoNetworkTwice (s : ClientsDb) : Prop :=
  ∀ i ∈ s.identifiers.1, ∀ j ∈ s.identifiers.1, i.clientId ≠ j.clientId →
    ¬SameAddresses i.key j.key

/-- The text of the network of an identifier: an address gets the prefix length of a single
address, and scope ids are left out. -/
def networkSpelling : IdentifierKind → Str → Option Str
  | .ipv4, value => some (value ++ "/32".toList)
  | .ipv6, value => some (dropScope value ++ "/128".toList)
  | .ipv4Cidr, value | .ipv6Cidr, value => some (dropScope value)
  | .clientid, _ => none

/-- Two identifiers are spellings of one network. -/
def SameSpelling (i j : IdentifierKind × Str) : Prop :=
  ∃ text, networkSpelling i.1 i.2 = some text ∧ networkSpelling j.1 j.2 = some text

theorem SameSpelling.symm {i j : IdentifierKind × Str} (h : SameSpelling i j) :
    SameSpelling j i := by
  obtain ⟨text, hi, hj⟩ := h
  exact ⟨text, hj, hi⟩

/-! ## Normalized identifiers -/

/-- The network that a normalized identifier is the text of. -/
inductive Spells : IdentifierKind × Str → IpNetwork → Prop
  | ipv4 {n : ℕ} (h : n < 2 ^ 32) : Spells (.ipv4, (IpAddress.v4 n).str) (hostNetwork true n)
  | ipv6 {n : ℕ} {scope : Option Str} (h : n < 2 ^ 128) (hscope : ∀ z ∈ scope, IsScope z) :
      Spells (.ipv6, (IpAddress.v6 n scope).str) (hostNetwork false n)
  | cidr {net : IpNetwork} {scope : Option Str} (h : net.Proper)
      (hscope : ∀ z ∈ scope, IsScope z) :
      Spells (if net.isV4 then .ipv4Cidr else .ipv6Cidr, networkText net scope) net

/-- A normalized identifier. -/
def Canonical (e : IdentifierKind × Str) : Prop := e.1 = .clientid ∨ ∃ net, Spells e net

theorem normalizeIdentifier_canonical {u : UnicodeData} {raw : Str} {e : IdentifierKind × Str}
    (h : normalizeIdentifier u raw = some e) : Canonical e := by
  rw [normalizeIdentifier] at h
  split_ifs at h with _ _ hslash
  · obtain ⟨id, -, rfl⟩ := Option.map_eq_some_iff.mp h
    exact Or.inl rfl
  · obtain ⟨net₀, hnet₀, h⟩ := Option.bind_eq_some_iff.mp h
    obtain ⟨text, htext, h⟩ := Option.bind_eq_some_iff.mp h
    cases h
    obtain ⟨net₁, net, scope, hnet₁, hproper, hversion, hscope, rfl⟩ := ipNetworkStr_spec htext
    rw [hnet₀, Option.some.injEq] at hnet₁
    subst hnet₁
    rw [← hversion]
    exact Or.inr ⟨net, .cidr hproper hscope⟩
  · obtain ⟨address, haddress, h⟩ := Option.bind_eq_some_iff.mp h
    cases h
    rcases ipAddress_str_spec haddress with ⟨n, hn, hv4, htext⟩ | ⟨n, scope, hn, hscope, hv4, htext⟩
    · rw [hv4, if_pos rfl, htext]
      exact Or.inr ⟨_, .ipv4 hn⟩
    · rw [hv4, if_neg Bool.false_ne_true, htext]
      exact Or.inr ⟨_, .ipv6 hn hscope⟩

theorem Spells.proper {e : IdentifierKind × Str} {net : IpNetwork} (h : Spells e net) :
    net.Proper := by
  cases h with
  | ipv4 hn => exact proper_hostNetwork hn
  | ipv6 hn => exact proper_hostNetwork hn
  | cidr hproper => exact hproper

/-- A normalized identifier denotes the network that it is the text of. -/
theorem Spells.identifierNetwork_eq {e : IdentifierKind × Str} {net : IpNetwork}
    (h : Spells e net) : identifierNetwork e.1 e.2 = some net := by
  cases h with
  | ipv4 hn => exact ipNetwork_host_v4 (ipAddress_v4Str_of_lt hn)
  | ipv6 hn hscope => exact ipNetwork_host_v6 (ipAddress_v6Str_of_lt hn hscope)
  | cidr hproper hscope =>
      have hkind : ¬(if net.isV4 then IdentifierKind.ipv4Cidr else .ipv6Cidr) = .clientid := by
        cases net.isV4 <;> decide
      exact (if_neg hkind).trans (ipNetwork_networkText hproper hscope)

/-- The text of a network without its scope id. -/
theorem dropScope_networkText {net : IpNetwork} (h : net.Proper) {scope : Option Str}
    (hscope : ∀ z ∈ scope, IsScope z) :
    dropScope (networkText net scope) = networkText net none := by
  rcases net with ⟨v4, network, p⟩
  have hle := h.prefixlen_le
  cases v4 with
  | true =>
      have hp : p ≤ 32 := hle
      refine dropScope_eq_self fun hmem => ?_
      rcases List.mem_append.mp hmem with hmem | hmem
      · exact notMem_v4Str (by decide) (by decide) network hmem
      · exact percent_notMem_prefixlen (hp.trans (by decide)) hmem
  | false => exact dropScope_str network hscope (percent_notMem_prefixlen hle) (Or.inr ⟨_, rfl⟩)

theorem Spells.networkSpelling_eq {e : IdentifierKind × Str} {net : IpNetwork} (h : Spells e net) :
    networkSpelling e.1 e.2 = some (networkText net none) := by
  have h32 : "/32".toList = '/' :: decimal 32 := by decide
  have h128 : "/128".toList = '/' :: decimal 128 := by decide
  cases h with
  | ipv4 hn =>
      show some (_ ++ "/32".toList) = _
      rw [h32]
      rfl
  | @ipv6 n scope hn hscope =>
      have hdrop := dropScope_str n hscope List.not_mem_nil (Or.inl rfl)
      rw [List.append_nil, List.append_nil] at hdrop
      show some (dropScope _ ++ "/128".toList) = _
      rw [hdrop, h128]
      rfl
  | @cidr net scope hproper hscope =>
      have hdrop := dropScope_networkText hproper hscope
      cases hv4 : net.isV4 with
      | true => exact congrArg some hdrop
      | false => exact congrArg some hdrop

theorem networkText_inj {net net' : IpNetwork} (h : net.Proper) (h' : net'.Proper)
    (heq : networkText net none = networkText net' none) : net = net' := by
  have hread := @ipNetwork_networkText net h none (by simp)
  have hread' := @ipNetwork_networkText net' h' none (by simp)
  rw [heq, hread', Option.some.injEq] at hread
  exact hread.symm

/-- **Normalized identifiers denote the same addresses exactly when their spellings agree.** -/
theorem sameAddresses_iff {i j : IdentifierKind × Str} (hi : Canonical i) (hj : Canonical j) :
    SameAddresses i j ↔ SameSpelling i j := by
  have hclientid : ∀ e : IdentifierKind × Str, e.1 = .clientid →
      identifierNetwork e.1 e.2 = none ∧ networkSpelling e.1 e.2 = none := fun e he => by
    rw [he]
    exact ⟨rfl, rfl⟩
  rcases hi with hi | ⟨net, hnet⟩
  · obtain ⟨hnone, hnone'⟩ := hclientid i hi
    simp [SameAddresses, SameSpelling, hnone, hnone']
  · rcases hj with hj | ⟨net', hnet'⟩
    · obtain ⟨hnone, hnone'⟩ := hclientid j hj
      simp [SameAddresses, SameSpelling, hnone, hnone']
    · rw [SameAddresses, SameSpelling, hnet.identifierNetwork_eq, hnet'.identifierNetwork_eq,
        hnet.networkSpelling_eq, hnet'.networkSpelling_eq]
      constructor
      · rintro ⟨_, _, ⟨⟩, ⟨⟩, hsame⟩
        have heq := (addresses_eq_iff hnet.proper hnet'.proper).mp hsame
        exact ⟨_, rfl, by rw [heq]⟩
      · rintro ⟨text, htext, htext'⟩
        have heq := networkText_inj hnet.proper hnet'.proper
          (Option.some.inj (htext.trans htext'.symm))
        exact ⟨_, _, rfl, rfl, by rw [heq]⟩

/-! ## What a step keeps -/

/-- What every state of a history satisfies. -/
structure Sound (s : ClientsDb) : Prop where
  owners : ∀ i ∈ s.identifiers.1, i.clientId ∈ s.clients.1.map (·.id)
  canonical : ∀ i ∈ s.identifiers.1, Canonical i.key

theorem sound_fresh : Sound ClientsDb.fresh :=
  ⟨fun _ h => absurd h List.not_mem_nil, fun _ h => absurd h List.not_mem_nil⟩

/-- Identifiers of existing clients are added, or nothing. -/
theorem Sound.append {s s' : ClientsDb} (h : Sound s) {clients : List Client}
    {added : List Identifier} (hclients : s'.clients.1 = s.clients.1 ++ clients)
    (hidentifiers : s'.identifiers.1 = s.identifiers.1 ++ added)
    (howners : ∀ i ∈ added, i.clientId ∈ s'.clients.1.map (·.id))
    (hcanonical : ∀ i ∈ added, Canonical i.key) : Sound s' := by
  refine ⟨fun i hi => ?_, fun i hi => ?_⟩
  · rw [hidentifiers, List.mem_append] at hi
    rcases hi with hi | hi
    · rw [hclients, List.map_append]
      exact List.mem_append_left _ (h.owners i hi)
    · exact howners i hi
  · rw [hidentifiers, List.mem_append] at hi
    rcases hi with hi | hi
    · exact h.canonical i hi
    · exact hcanonical i hi

/-- What the identifiers of a step are compared with. -/
theorem noNetworkTwice_append {s s' : ClientsDb} {added : List Identifier} (h : Sound s')
    (hidentifiers : s'.identifiers.1 = s.identifiers.1 ++ added) (hs : NoNetworkTwice s) :
    NoNetworkTwice s' ↔
      (∀ a ∈ added, ∀ i ∈ s.identifiers.1, i.clientId ≠ a.clientId →
        ¬SameSpelling i.key a.key) ∧
      ∀ a ∈ added, ∀ b ∈ added, a.clientId ≠ b.clientId → ¬SameSpelling a.key b.key := by
  have hiff : ∀ i ∈ s'.identifiers.1, ∀ j ∈ s'.identifiers.1,
      (SameAddresses i.key j.key ↔ SameSpelling i.key j.key) := fun i hi j hj =>
    sameAddresses_iff (h.canonical i hi) (h.canonical j hj)
  have hold : ∀ i ∈ s.identifiers.1, i ∈ s'.identifiers.1 := fun i hi => by
    rw [hidentifiers]
    exact List.mem_append_left _ hi
  have hnew : ∀ a ∈ added, a ∈ s'.identifiers.1 := fun a ha => by
    rw [hidentifiers]
    exact List.mem_append_right _ ha
  constructor
  · intro hs'
    refine ⟨fun a ha i hi hne hsame => ?_, fun a ha b hb hne hsame => ?_⟩
    · exact hs' i (hold i hi) a (hnew a ha) hne ((hiff i (hold i hi) a (hnew a ha)).mpr hsame)
    · exact hs' a (hnew a ha) b (hnew b hb) hne ((hiff a (hnew a ha) b (hnew b hb)).mpr hsame)
  · rintro ⟨hbetween, hwithin⟩ i hi j hj hne hsame
    have hspelling := (hiff i hi j hj).mp hsame
    rw [hidentifiers, List.mem_append] at hi hj
    rcases hi with hi | hi
    · rcases hj with hj | hj
      · exact hs i hi j hj hne hsame
      · exact hbetween j hj i hi hne hspelling
    · rcases hj with hj | hj
      · exact hbetween i hi j hj hne.symm hspelling.symm
      · exact hwithin i hi j hj hne hspelling

/-- Deleting rows gives no network a second owner. -/
theorem NoNetworkTwice.sublist {s s' : ClientsDb} (h : NoNetworkTwice s)
    (hsub : ∀ i ∈ s'.identifiers.1, i ∈ s.identifiers.1) : NoNetworkTwice s' :=
  fun i hi j hj => h i (hsub i hi) j (hsub j hj)

/-! ## The steps of a history -/

/-- A step adds no identifier that is another spelling of what another client has.  Nothing is
asked of a step that fails because an identifier is taken, or because the client is missing. -/
def AddsNewNetworks (u : UnicodeData) (s : ClientsDb) : RegistryStep → Prop
  | .migrate =>
      ∀ row ∈ s.aliases.1, ∀ e, normalizeIdentifier u row.cidr = some e →
        e ∉ s.identifiers.1.map Identifier.key →
        (∀ i ∈ s.identifiers.1, ¬SameSpelling i.key e) ∧
        ∀ row' ∈ s.aliases.1, ∀ e', normalizeIdentifier u row'.cidr = some e' →
          SameSpelling e' e → e' = e
  | .insertClient _ _ _ identifiers =>
      ∀ normalized, identifiers.mapM (normalizeIdentifier u) = some normalized →
        normalized.Nodup → (∀ e ∈ normalized, e ∉ s.identifiers.1.map Identifier.key) →
        ∀ e ∈ normalized, ∀ i ∈ s.identifiers.1, ¬SameSpelling i.key e
  | .assignIdentifier clientId rawValue =>
      ∀ e, normalizeIdentifier u rawValue = some e → clientId ∈ s.clients.1.map (·.id) →
        e ∉ s.identifiers.1.map Identifier.key →
        ∀ i ∈ s.identifiers.1, i.clientId ≠ clientId → ¬SameSpelling i.key e
  | .deleteIdentifier _ | .deleteClient _ | .writeAliases _ => True

section Steps

variable {u : UnicodeData} {s s' : ClientsDb}

/-- New clients have new ids. -/
theorem new_ids {rows : ClientRows} {old new : List Client} (h : rows.1 = old ++ new) :
    (∀ c ∈ old, ∀ c' ∈ new, c.id < c'.id) ∧ (new.map (·.id)).Nodup := by
  have hlt : ∀ c c' : Client, clientConflict c c' = false → c.id < c'.id := by
    intro c c' hconflict
    simpa [clientConflict] using hconflict
  have hrows := rows.2
  rw [h, List.pairwise_append] at hrows
  obtain ⟨-, hnew, hbetween⟩ := hrows
  refine ⟨fun c hc c' hc' => hlt c c' (hbetween c hc c' hc'), ?_⟩
  refine List.pairwise_map.mpr (hnew.imp fun {c c'} hconflict => ?_)
  exact (hlt c c' hconflict).ne

/-- The owners of what the migration adds are new, one for each identifier. -/
theorem migrated_owners {rows : List AliasRow} {t t' : ClientTables} {clients : List Client}
    {added : List Identifier} (h : Migrated u rows t t' clients added) :
    (∀ a ∈ added, a.clientId ∈ t'.clients.1.map (·.id)) ∧
      (∀ a ∈ added, a.clientId ∉ t.clients.1.map (·.id)) ∧
      ∀ a ∈ added, ∀ b ∈ added, a.clientId = b.clientId → a = b := by
  obtain ⟨hlt, hnodup⟩ := new_ids h.clients_eq
  have howner : ∀ a ∈ added, a.clientId ∈ clients.map (·.id) := fun a ha => by
    rw [← h.owners]
    exact List.mem_map_of_mem ha
  refine ⟨fun a ha => ?_, fun a ha hmem => ?_, fun a ha b hb => ?_⟩
  · rw [h.clients_eq, List.map_append]
    exact List.mem_append_right _ (howner a ha)
  · obtain ⟨c', hc', hid'⟩ := List.mem_map.mp (howner a ha)
    obtain ⟨c, hc, hid⟩ := List.mem_map.mp hmem
    have hless := hlt c hc c' hc'
    omega
  · rw [← h.owners] at hnodup
    exact List.inj_on_of_nodup_map hnodup ha hb

theorem migrated_canonical {rows : List AliasRow} {t t' : ClientTables} {clients : List Client}
    {added : List Identifier} (h : Migrated u rows t t' clients added) :
    ∀ a ∈ added, Canonical a.key := by
  intro a ha
  obtain ⟨-, row, -, hread⟩ := (h.keys a.key).mp (List.mem_map_of_mem ha)
  exact normalizeIdentifier_canonical hread

theorem sound_migrate (h : Sound s) : Sound (initDb u s) := by
  obtain ⟨clients, added, hm⟩ := migrateAliases_spec u s.aliases.1 s.toClientTables
  exact h.append hm.clients_eq hm.identifiers_eq (migrated_owners hm).1 (migrated_canonical hm)

/-- The migration. -/
theorem noNetworkTwice_migrate (h : Sound s) (hs : NoNetworkTwice s) :
    NoNetworkTwice (initDb u s) ↔ AddsNewNetworks u s .migrate := by
  obtain ⟨clients, added, hm⟩ := migrateAliases_spec u s.aliases.1 s.toClientTables
  obtain ⟨-, hnew, hone⟩ := migrated_owners hm
  have hfresh : ∀ a ∈ added, ∀ i ∈ s.identifiers.1, i.clientId ≠ a.clientId :=
    fun a ha i hi heq => hnew a ha (heq ▸ h.owners i hi)
  have hkeys : ∀ a ∈ added, ∀ b ∈ added, a.key = b.key → a = b := by
    intro a ha b hb
    have hmem : ∀ a ∈ added, a ∈ (initDb u s).identifiers.1 := fun a ha => by
      rw [initDb, hm.identifiers_eq]
      exact List.mem_append_right _ ha
    exact identifier_of_key (hmem a ha) (hmem b hb)
  have hadded : ∀ row ∈ s.aliases.1, ∀ e, normalizeIdentifier u row.cidr = some e →
      e ∉ s.identifiers.1.map Identifier.key → ∃ a ∈ added, a.key = e := by
    intro row hrow e hread he
    exact List.mem_map.mp ((hm.keys e).mpr ⟨he, row, hrow, hread⟩)
  rw [noNetworkTwice_append (sound_migrate h) hm.identifiers_eq hs]
  constructor
  · rintro ⟨hbetween, hwithin⟩ row hrow e hread he
    obtain ⟨a, ha, rfl⟩ := hadded row hrow e hread he
    have hold : ∀ i ∈ s.identifiers.1, ¬SameSpelling i.key a.key := fun i hi =>
      hbetween a ha i hi (hfresh a ha i hi)
    refine ⟨hold, fun row' hrow' e' hread' hsame => ?_⟩
    -- the other alias is an identifier already, or becomes one of a client of its own
    by_cases he' : e' ∈ s.identifiers.1.map Identifier.key
    · obtain ⟨i, hi, rfl⟩ := List.mem_map.mp he'
      exact absurd hsame (hold i hi)
    · obtain ⟨b, hb, rfl⟩ := hadded row' hrow' e' hread' he'
      by_contra hne
      refine hwithin b hb a ha (fun howner => hne ?_) hsame
      rw [hone b hb a ha howner]
  · intro hok
    have hread : ∀ a ∈ added, a.key ∉ s.identifiers.1.map Identifier.key ∧
        ∃ row ∈ s.aliases.1, normalizeIdentifier u row.cidr = some a.key := fun a ha =>
      (hm.keys a.key).mp (List.mem_map_of_mem ha)
    refine ⟨fun a ha i hi _ => ?_, fun a ha b hb hne hsame => ?_⟩
    · obtain ⟨he, row, hrow, hrow'⟩ := hread a ha
      exact (hok row hrow a.key hrow' he).1 i hi
    · obtain ⟨-, row, hrow, hreada⟩ := hread a ha
      obtain ⟨he, row', hrow', hreadb⟩ := hread b hb
      have heq := (hok row' hrow' b.key hreadb he).2 row hrow a.key hreada hsame
      exact hne (by rw [hkeys a ha b hb heq])

theorem mem_of_mapM {α β : Type} {f : α → Option β} {as : List α} {bs : List β}
    (h : as.mapM f = some bs) {b : β} (hb : b ∈ bs) : ∃ a ∈ as, f a = some b := by
  induction as generalizing bs with
  | nil =>
      cases h
      cases hb
  | cons a as ih =>
      rw [List.mapM_cons] at h
      obtain ⟨b', hb', h⟩ := Option.bind_eq_some_iff.mp h
      obtain ⟨bs', hbs', h⟩ := Option.bind_eq_some_iff.mp h
      cases h
      rcases List.mem_cons.mp hb with rfl | hb
      · exact ⟨a, List.mem_cons_self, hb'⟩
      · obtain ⟨a', ha', hread⟩ := ih hbs' hb
        exact ⟨a', List.mem_cons_of_mem _ ha', hread⟩

/-- Added identifiers are distinct and new. -/
theorem new_keys {rows : IdentifierRows} {old added : List Identifier}
    (h : rows.1 = old ++ added) :
    (added.map Identifier.key).Nodup ∧
      ∀ e ∈ added.map Identifier.key, e ∉ old.map Identifier.key := by
  have hnodup : (rows.1.map Identifier.key).Nodup :=
    List.pairwise_map.mpr (identifiers_distinct rows)
  rw [h, List.map_append, List.nodup_append] at hnodup
  obtain ⟨-, hadded, hdisjoint⟩ := hnodup
  exact ⟨hadded, fun e he hold => hdisjoint e hold e he rfl⟩

section Created

variable {name description : Str} {enabled : Bool} {normalized : List (IdentifierKind × Str)}
  {id : ℕ}

/-- The identifiers of a new client. -/
theorem created_identifiers (h : Sound s)
    (hcreate : insertClient name description enabled normalized s = .ok (s', id)) :
    ∃ added, s'.identifiers.1 = s.identifiers.1 ++ added ∧
      (∀ a ∈ added, a.clientId = id) ∧ added.map Identifier.key = normalized ∧
      ∀ i ∈ s.identifiers.1, i.clientId ≠ id := by
  obtain ⟨-, hid, hloop⟩ := insertClient_spec hcreate
  obtain ⟨added, hrows, howner, hkeys⟩ := insertIdentifiers_spec hloop
  refine ⟨added, hrows, howner, hkeys, fun i hi heq => ?_⟩
  have hlt := lt_nextRowid (h.owners i hi)
  omega

theorem sound_insertClient (h : Sound s) (hcanonical : ∀ e ∈ normalized, Canonical e)
    (hcreate : insertClient name description enabled normalized s = .ok (s', id)) : Sound s' := by
  obtain ⟨hclients, -, -⟩ := insertClient_spec hcreate
  obtain ⟨added, hrows, howner, hkeys, -⟩ := created_identifiers h hcreate
  refine h.append hclients hrows (fun a ha => ?_) fun a ha => ?_
  · rw [howner a ha, hclients, List.map_append]
    exact List.mem_append_right _ List.mem_cons_self
  · exact hcanonical a.key (hkeys ▸ List.mem_map_of_mem ha)

theorem noNetworkTwice_insertClient (h : Sound s) (hs : NoNetworkTwice s)
    (hcanonical : ∀ e ∈ normalized, Canonical e)
    (hcreate : insertClient name description enabled normalized s = .ok (s', id)) :
    NoNetworkTwice s' ↔ ∀ e ∈ normalized, ∀ i ∈ s.identifiers.1, ¬SameSpelling i.key e := by
  obtain ⟨added, hrows, howner, hkeys, hfresh⟩ := created_identifiers h hcreate
  rw [noNetworkTwice_append (sound_insertClient h hcanonical hcreate) hrows hs]
  constructor
  · rintro ⟨hbetween, -⟩ e he i hi
    rw [← hkeys] at he
    obtain ⟨a, ha, rfl⟩ := List.mem_map.mp he
    refine hbetween a ha i hi ?_
    rw [howner a ha]
    exact hfresh i hi
  · intro hok
    refine ⟨fun a ha i hi _ => hok a.key (hkeys ▸ List.mem_map_of_mem ha) i hi, ?_⟩
    intro a ha b hb hne
    exact absurd ((howner a ha).trans (howner b hb).symm) hne

end Created

section Assigned

variable {clientId id : ℕ} {kind : IdentifierKind} {value : Str}

theorem sound_assignIdentifier (h : Sound s) (hcanonical : Canonical (kind, value))
    (hassign : assignIdentifier clientId kind value s = .ok (s', id)) : Sound s' := by
  obtain ⟨hclients, hclient, hinsert⟩ := assignIdentifier_spec hassign
  obtain ⟨-, a, howner, hkey, hrows⟩ := insertIdentifier_spec hinsert
  have hsame : s'.clients.1 = s.clients.1 ++ [] := by rw [hclients, List.append_nil]
  refine h.append hsame hrows (fun i hi => ?_) fun i hi => ?_
  · rw [List.mem_singleton.mp hi, howner, hclients]
    exact hclient
  · rw [List.mem_singleton.mp hi, hkey]
    exact hcanonical

theorem noNetworkTwice_assignIdentifier (h : Sound s) (hs : NoNetworkTwice s)
    (hcanonical : Canonical (kind, value))
    (hassign : assignIdentifier clientId kind value s = .ok (s', id)) :
    NoNetworkTwice s' ↔
      ∀ i ∈ s.identifiers.1, i.clientId ≠ clientId → ¬SameSpelling i.key (kind, value) := by
  obtain ⟨-, -, hinsert⟩ := assignIdentifier_spec hassign
  obtain ⟨-, a, howner, hkey, hrows⟩ := insertIdentifier_spec hinsert
  rw [noNetworkTwice_append (sound_assignIdentifier h hcanonical hassign) hrows hs]
  simp only [List.mem_singleton, forall_eq, howner, hkey, ne_eq, not_true_eq_false,
    false_implies, and_true]

end Assigned

/-- The transaction of `create_client`. -/
theorem apply_insertClient (h : Sound s) (name description : Str) (enabled : Bool)
    (identifiers : List Str) :
    Sound ((RegistryStep.insertClient name description enabled identifiers).apply u s) ∧
      (NoNetworkTwice s →
        (NoNetworkTwice ((RegistryStep.insertClient name description enabled identifiers).apply u s)
          ↔ AddsNewNetworks u s (.insertClient name description enabled identifiers))) := by
  rw [RegistryStep.apply, AddsNewNetworks]
  cases hread : identifiers.mapM (normalizeIdentifier u) with
  | none => exact ⟨h, fun hs => iff_of_true hs fun _ hnone => by cases hnone⟩
  | some normalized =>
      have hcanonical : ∀ e ∈ normalized, Canonical e := fun e he => by
        obtain ⟨raw, -, hraw⟩ := mem_of_mapM hread he
        exact normalizeIdentifier_canonical hraw
      simp only [Option.some.injEq, forall_eq']
      rcases commit_cases (insertClient name description enabled normalized) s with
        ⟨hsame, hfail⟩ | ⟨s', id, hcreate, hleft⟩
      · rw [hsame]
        refine ⟨h, fun hs => iff_of_true hs fun hnodup hnew => ?_⟩
        obtain ⟨s', id, hcreate⟩ := insertClient_of_new name description enabled hnodup hnew
        exact absurd hcreate (hfail s' id)
      · rw [hleft]
        refine ⟨sound_insertClient h hcanonical hcreate, fun hs => ?_⟩
        obtain ⟨added, hrows, -, hkeys, -⟩ := created_identifiers h hcreate
        obtain ⟨hnodup, hnew⟩ := new_keys hrows
        rw [hkeys] at hnodup hnew
        rw [noNetworkTwice_insertClient h hs hcanonical hcreate]
        exact ⟨fun hok _ _ => hok, fun hok => hok hnodup hnew⟩

/-- The transaction of `add_identifier`. -/
theorem apply_assignIdentifier (h : Sound s) (clientId : ℕ) (rawValue : Str) :
    Sound ((RegistryStep.assignIdentifier clientId rawValue).apply u s) ∧
      (NoNetworkTwice s →
        (NoNetworkTwice ((RegistryStep.assignIdentifier clientId rawValue).apply u s)
          ↔ AddsNewNetworks u s (.assignIdentifier clientId rawValue))) := by
  rw [RegistryStep.apply, AddsNewNetworks]
  cases hread : normalizeIdentifier u rawValue with
  | none => exact ⟨h, fun hs => iff_of_true hs fun _ hnone => by cases hnone⟩
  | some e =>
      obtain ⟨kind, value⟩ := e
      have hcanonical : Canonical (kind, value) := normalizeIdentifier_canonical hread
      simp only [Option.some.injEq, forall_eq']
      rcases commit_cases (assignIdentifier clientId kind value) s with
        ⟨hsame, hfail⟩ | ⟨s', id, hassign, hleft⟩
      · rw [hsame]
        refine ⟨h, fun hs => iff_of_true hs fun hclient hnew => ?_⟩
        obtain ⟨s', id, hassign⟩ := assignIdentifier_of_new hclient hnew
        exact absurd hassign (hfail s' id)
      · rw [hleft]
        refine ⟨sound_assignIdentifier h hcanonical hassign, fun hs => ?_⟩
        obtain ⟨-, hclient, hinsert⟩ := assignIdentifier_spec hassign
        obtain ⟨hnew, -⟩ := insertIdentifier_spec hinsert
        rw [noNetworkTwice_assignIdentifier h hs hcanonical hassign]
        exact ⟨fun hok _ _ => hok, fun hok => hok hclient hnew⟩

/-- Deleting an identifier, or a client with its identifiers. -/
theorem apply_delete (h : Sound s) {s' : ClientsDb}
    (hsub : ∀ i ∈ s'.identifiers.1, i ∈ s.identifiers.1)
    (howners : ∀ i ∈ s'.identifiers.1, i.clientId ∈ s'.clients.1.map (·.id)) :
    Sound s' ∧ (NoNetworkTwice s → NoNetworkTwice s') :=
  ⟨⟨howners, fun i hi => h.canonical i (hsub i hi)⟩, fun hs => hs.sublist hsub⟩

/-- **What a step preserves, and what it needs to keep the networks apart.** -/
theorem apply_spec (h : Sound s) (a : RegistryStep) :
    Sound (a.apply u s) ∧
      (NoNetworkTwice s → (NoNetworkTwice (a.apply u s) ↔ AddsNewNetworks u s a)) := by
  cases a with
  | migrate => exact ⟨sound_migrate h, noNetworkTwice_migrate h⟩
  | insertClient name description enabled identifiers =>
      exact apply_insertClient h name description enabled identifiers
  | assignIdentifier clientId rawValue => exact apply_assignIdentifier h clientId rawValue
  | deleteIdentifier identifierId =>
      rw [RegistryStep.apply]
      rcases commit_cases (Clients.deleteIdentifier identifierId) s with
        ⟨hsame, -⟩ | ⟨s', _, hdelete, hleft⟩
      · rw [hsame]
        exact ⟨h, fun hs => iff_of_true hs trivial⟩
      · obtain ⟨hclients, hidentifiers⟩ := deleteIdentifier_spec hdelete
        have hsub : ∀ i ∈ s'.identifiers.1, i ∈ s.identifiers.1 := fun i hi => by
          rw [hidentifiers] at hi
          exact List.mem_of_mem_filter hi
        obtain ⟨hsound, hkeep⟩ := apply_delete h hsub fun i hi => by
          rw [hclients]
          exact h.owners i (hsub i hi)
        rw [hleft]
        exact ⟨hsound, fun hs => iff_of_true (hkeep hs) trivial⟩
  | deleteClient clientId =>
      rw [RegistryStep.apply]
      rcases commit_cases (deleteClientRows clientId) s with
        ⟨hsame, -⟩ | ⟨s', _, hdelete, hleft⟩
      · rw [hsame]
        exact ⟨h, fun hs => iff_of_true hs trivial⟩
      · obtain ⟨hclients, hidentifiers⟩ := deleteClientRows_spec hdelete
        have hkept : ∀ i ∈ s'.identifiers.1, i ∈ s.identifiers.1 ∧ i.clientId ≠ clientId :=
          fun i hi => by
            rw [hidentifiers] at hi
            obtain ⟨hi, hother⟩ := List.mem_filter.mp hi
            exact ⟨hi, by simpa using hother⟩
        obtain ⟨hsound, hkeep⟩ := apply_delete h (fun i hi => (hkept i hi).1) fun i hi => by
          obtain ⟨hi, hother⟩ := hkept i hi
          obtain ⟨c, hc, hid⟩ := List.mem_map.mp (h.owners i hi)
          rw [hclients]
          refine List.mem_map.mpr ⟨c, List.mem_filter.mpr ⟨hc, ?_⟩, hid⟩
          simpa [hid] using hother
        rw [hleft]
        exact ⟨hsound, fun hs => iff_of_true (hkeep hs) trivial⟩
  | writeAliases aliases => exact ⟨⟨h.owners, h.canonical⟩, fun hs => iff_of_true hs trivial⟩

end Steps

/-! ## Whole histories -/

theorem exists_run (u : UnicodeData) (s : ClientsDb) (history : List RegistryStep) :
    ∃ s', Runs.run (registryStep u) s history = some s' := by
  induction history generalizing s with
  | nil => exact ⟨s, rfl⟩
  | cons a history ih => exact ih (a.apply u s)

/-- **In every state of a history no two clients own the same network, exactly when each step
adds only identifiers whose spelling no other client has.** -/
theorem noNetworkTwice_iff (u : UnicodeData) (history : List RegistryStep) :
    Runs.StepsMeet (registryStep u) (AddsNewNetworks u) ClientsDb.fresh history ↔
      ∀ before s, before <+: history →
        Runs.run (registryStep u) ClientsDb.fresh before = some s → NoNetworkTwice s := by
  obtain ⟨s', hrun⟩ := exists_run u ClientsDb.fresh history
  have hsound : ∀ s a s', Sound s → True → registryStep u s a = some s' → Sound s' := by
    rintro s a s' h - hstep
    cases hstep
    exact (apply_spec h a).1
  have hstep : ∀ s a s', Sound s → NoNetworkTwice s → True → registryStep u s a = some s' →
      (NoNetworkTwice s' ↔ AddsNewNetworks u s a) := by
    rintro s a s' h hs - hstep
    cases hstep
    exact (apply_spec h a).2 hs
  have hfresh : NoNetworkTwice ClientsDb.fresh := fun i hi => absurd hi List.not_mem_nil
  exact Runs.stepsMeet_iff_forall_reached hsound hstep history ClientsDb.fresh s' sound_fresh
    hfresh (fun _ _ => trivial) hrun

/-- One client is created with an address, and another one with the network of this address. -/
def hostAndItsNetwork : List RegistryStep :=
  [.migrate, .insertClient "laptop".toList [] true ["10.0.0.1".toList],
    .migrate, .insertClient "printer".toList [] true ["10.0.0.1/32".toList]]

/-- **Both clients are created.** -/
theorem host_owned_twice :
    ¬∀ (u : UnicodeData) (history : List RegistryStep) (s : ClientsDb),
      Runs.run (registryStep u) ClientsDb.fresh history = some s → NoNetworkTwice s := by
  intro hall
  obtain ⟨s, hs⟩ := exists_run ⟨fun s => s, some⟩ ClientsDb.fresh hostAndItsNetwork
  have hrows : (Runs.run (registryStep ⟨fun s => s, some⟩) ClientsDb.fresh hostAndItsNetwork).map
      (fun s => s.identifiers.1) = some [⟨1, 1, .ipv4, "10.0.0.1".toList⟩,
        ⟨2, 2, .ipv4Cidr, "10.0.0.1/32".toList⟩] := by decide +kernel
  rw [hs, Option.map_some, Option.some.injEq] at hrows
  have hsame : SameAddresses (.ipv4, "10.0.0.1".toList) (.ipv4Cidr, "10.0.0.1/32".toList) := by
    have haddress : identifierNetwork .ipv4 "10.0.0.1".toList = some ⟨true, 167772161, 32⟩ := by
      decide +kernel
    have hnetwork : identifierNetwork .ipv4Cidr "10.0.0.1/32".toList
        = some ⟨true, 167772161, 32⟩ := by decide +kernel
    exact ⟨_, _, haddress, hnetwork, rfl⟩
  refine hall _ _ s hs ⟨1, 1, .ipv4, "10.0.0.1".toList⟩ ?_
    ⟨2, 2, .ipv4Cidr, "10.0.0.1/32".toList⟩ ?_ (by decide) hsame
  · rw [hrows]
    exact List.mem_cons_self
  · rw [hrows]
    exact List.mem_cons_of_mem _ List.mem_cons_self

end AlderpointDNS.Clients
