import AlderpointDNS.Clients.Compiled

/-!
# The effective access of a client

`effectiveAccessForClient` is what the web page shows for the identifiers of a client.  An
identifier stands for queries (`Covers`): an address for itself, a network for each of its
addresses, a ClientID for what presents it from an address that no rule names.

* `refuses_iff_not_layerAllows` — what the compiled layer does, in terms of the rules;
* `shown_iff` — what is shown: a disabled client is denied, and a network is decided as its network
  address;
* **`effectiveAccess_iff`** — when every decision shown is the one that is enforced.
-/

namespace AlderpointDNS

open Text Ipaddress

/-! ## What is shown -/

/-- `ip_network(value, strict=False).network_address`. -/
def networkAddress (value : Str) : Option IpAddress :=
  (ipNetwork value).map fun net =>
    if net.isV4 then .v4 net.network else .v6 net.network (networkScope value net)

/-- The address and the ClientID that are evaluated for an identifier. -/
def evaluatedAs (i : Identifier) : Option (Option Str × Option Str) :=
  match i.kind with
  | .ipv4 | .ipv6 => some (some i.value, none)
  | .ipv4Cidr | .ipv6Cidr => (networkAddress i.value).map fun address => (some address.str, none)
  | .clientid => some (none, some i.value)

/-- One round of the loop of `effective_access_for_client`. -/
def identifierAccess (client : ClientInfo) (rules : List AccessRule)
    (clientsById : ℕ → Option ClientInfo) (defaultPolicy : AllowDeny) (i : Identifier) :
    Option (Identifier × AccessDecision) :=
  (evaluatedAs i).map fun (ip, cid) =>
    (i, if client.enabled then evaluateAccess ip cid rules clientsById defaultPolicy
      else ⟨false, "client disabled".toList⟩)

/-- `effective_access_for_client`; `none` when a network is not one. -/
def effectiveAccessForClient (client : ClientInfo) (rules : List AccessRule)
    (clientsById : ℕ → Option ClientInfo) (defaultPolicy : AllowDeny) :
    Option (List (Identifier × AccessDecision)) :=
  client.identifiers.mapM (identifierAccess client rules clientsById defaultPolicy)

/-! ## What is enforced -/

/-- `127.0.0.1` and `::1`, with any scope id. -/
def IsLoopback (address : IpAddress) : Prop :=
  address = .v4 2130706433 ∨ ∃ scope, address = .v6 1 scope

/-- The rule matches the query, whatever the scope id. -/
def EffectiveRule.Names (address : IpAddress) (id : Option Str) (rule : EffectiveRule) : Prop :=
  rule.isMatch (some address) id = true ∨ rule.otherScope address

/-- The queries that an identifier stands for, by address and ClientID. -/
def Covers (expanded : List EffectiveRule) (i : Identifier) (address : IpAddress)
    (id : Option Str) : Prop :=
  match i.kind with
  | .ipv4 | .ipv6 => ipAddress i.value = some address ∧ id = none
  | .ipv4Cidr | .ipv6Cidr => (∃ net, ipNetwork i.value = some net ∧ net.contains address = true)
      ∧ id = none
  | .clientid => id = some i.value ∧ ¬ IsLoopback address ∧
      ∀ rule ∈ expanded, rule.kind ≠ .clientid → ¬ rule.Names address none

/-- What the rules decide when scope ids are ignored and loopback is exempt from the default. -/
def LayerAllows (expanded : List EffectiveRule) (defaultPolicy : AllowDeny) (address : IpAddress)
    (id : Option Str) : Prop :=
  ¬ HasRule expanded .deny (·.Names address id) ∧
    (defaultPolicy = .allow ∨ IsLoopback address ∨ HasRule expanded .allow (·.Names address id))

/-- **What the compiled layer does, in terms of the rules.** -/
theorem refuses_iff_not_layerAllows {maskMatches : Str → IpAddress → Bool}
    (hmask : ReadsCidr maskMatches) {rules : List AccessRule}
    {clientsById : ℕ → Option ClientInfo} (hcanon : AllCanonical (expandRules rules clientsById))
    {defaultPolicy : AllowDeny} {dohBasePath : Str} {id : Option Str}
    (hid : ∀ c ∈ id, IsClientid c) {q : DnsQuery} (hq : Presents dohBasePath id q)
    {data : AccessData}
    (hdata : renderAccessData rules clientsById defaultPolicy dohBasePath = some data) :
    refuses maskMatches data q = false
      ↔ LayerAllows (expandRules rules clientsById) defaultPolicy q.remote id := by
  have hnames : ∀ action, HasRule (expandRules rules clientsById) action (·.Names q.remote id) ↔
      HasRule (expandRules rules clientsById) action (·.isMatch (some q.remote) id = true) ∨
        HasRule (expandRules rules clientsById) action (·.otherScope q.remote) :=
    fun action => hasRule_or
  have hpolicy : defaultPolicy = .deny ↔ ¬ defaultPolicy = .allow := by
    cases defaultPolicy <;> simp
  rw [← Bool.not_eq_true, refuses_rendered hmask hcanon hid hq hdata, LayerAllows, hnames, hnames,
    hpolicy, ← Bool.not_eq_true (isExempt maskMatches q), isExempt_iff hmask, ← IsLoopback]
  tauto

/-- What `evaluate_access` decides by the rules. -/
def RulesAllow (expanded : List EffectiveRule) (defaultPolicy : AllowDeny)
    (address : Option IpAddress) (id : Option Str) : Prop :=
  ¬ HasRule expanded .deny (·.isMatch address id = true) ∧
    (defaultPolicy = .allow ∨ HasRule expanded .allow (·.isMatch address id = true))

/-- **What is shown for an identifier.** -/
theorem shown_iff {client : ClientInfo} {rules : List AccessRule}
    {clientsById : ℕ → Option ClientInfo} {defaultPolicy : AllowDeny} {i : Identifier}
    {ip cid : Option Str} (h : evaluatedAs i = some (ip, cid)) :
    ∃ decision, identifierAccess client rules clientsById defaultPolicy i = some (i, decision) ∧
      (decision.allowed = true ↔ client.enabled = true ∧
        RulesAllow (expandRules rules clientsById) defaultPolicy (ip.bind ipAddress) cid) := by
  rw [identifierAccess, h, Option.map_some]
  refine ⟨_, rfl, ?_⟩
  split_ifs with henabled
  · rw [evaluateAccess_allowed, ← RulesAllow, and_iff_right henabled]
  · exact iff_of_false not_false fun h => henabled h.1

/-! ## When they agree -/

/-- The query is refused. -/
def LayerRefuses (expanded : List EffectiveRule) (defaultPolicy : AllowDeny) (address : IpAddress)
    (id : Option Str) : Prop :=
  HasRule expanded .deny (·.Names address id) ∨
    defaultPolicy = .deny ∧ ¬ IsLoopback address ∧ ¬ HasRule expanded .allow (·.Names address id)

/-- No scope id and no exemption changes the decision on an address. -/
structure AddressExact (expanded : List EffectiveRule) (defaultPolicy : AllowDeny)
    (address : IpAddress) : Prop where
  denied : HasRule expanded .deny (·.otherScope address) →
    HasRule expanded .deny (·.isMatch (some address) none = true) ∨
      defaultPolicy = .deny ∧
        ¬ HasRule expanded .allow (·.isMatch (some address) none = true)
  allowed : defaultPolicy = .deny →
    HasRule expanded .allow (·.otherScope address) ∨ IsLoopback address →
    HasRule expanded .deny (·.Names address none) ∨
      HasRule expanded .allow (·.isMatch (some address) none = true)

/-- The rules treat the whole network as its network address. -/
structure NetworkExact (expanded : List EffectiveRule) (defaultPolicy : AllowDeny)
    (net : IpNetwork) (address : IpAddress) : Prop where
  denied : HasRule expanded .deny (·.isMatch (some address) none = true) ∨
      defaultPolicy = .deny ∧ ¬ HasRule expanded .allow (·.isMatch (some address) none = true) →
    ∀ a, net.contains a = true → LayerRefuses expanded defaultPolicy a none
  allowed : ¬ HasRule expanded .deny (·.isMatch (some address) none = true) →
    defaultPolicy = .allow ∨ HasRule expanded .allow (·.isMatch (some address) none = true) →
    ∀ a, net.contains a = true → LayerAllows expanded defaultPolicy a none

/-- When the decision shown for an identifier is the one that is enforced: of a disabled client all
queries are refused, an address has no scope id that matters, and a network is treated as one. -/
def IdentifierExact (enabled : Bool) (expanded : List EffectiveRule) (defaultPolicy : AllowDeny)
    (i : Identifier) : Prop :=
  if enabled then
    match i.kind with
    | .ipv4 | .ipv6 => ∀ address, ipAddress i.value = some address →
        AddressExact expanded defaultPolicy address
    | .ipv4Cidr | .ipv6Cidr => ∀ net address, ipNetwork i.value = some net →
        (networkAddress i.value).bind (ipAddress ·.str) = some address →
        NetworkExact expanded defaultPolicy net address
    | .clientid => True
  else ∀ address id, Covers expanded i address id → LayerRefuses expanded defaultPolicy address id

theorem layerAllows_iff {expanded : List EffectiveRule} {defaultPolicy : AllowDeny}
    {address : IpAddress} {id : Option Str} :
    LayerAllows expanded defaultPolicy address id
      ↔ ¬ LayerRefuses expanded defaultPolicy address id := by
  have hpolicy : defaultPolicy = .deny ↔ ¬ defaultPolicy = .allow := by
    cases defaultPolicy <;> simp
  rw [LayerRefuses, LayerAllows, hpolicy, not_or, not_and, not_and, not_not]
  exact and_congr_right fun _ => or_iff_not_imp_left.trans (imp_congr_right fun _ =>
    or_iff_not_imp_left)

theorem not_rulesAllow_iff {expanded : List EffectiveRule} {defaultPolicy : AllowDeny}
    {address : Option IpAddress} {id : Option Str} :
    ¬ RulesAllow expanded defaultPolicy address id ↔
      HasRule expanded .deny (·.isMatch address id = true) ∨
        defaultPolicy = .deny ∧ ¬ HasRule expanded .allow (·.isMatch address id = true) := by
  have hpolicy : defaultPolicy = .deny ↔ ¬ defaultPolicy = .allow := by
    cases defaultPolicy <;> simp
  rw [RulesAllow, hpolicy, not_and_or, not_not, not_or]

/-- **An address without exceptions is shown as it is treated.** -/
theorem addressExact_iff {expanded : List EffectiveRule} {defaultPolicy : AllowDeny}
    {address : IpAddress} :
    AddressExact expanded defaultPolicy address ↔
      (RulesAllow expanded defaultPolicy (some address) none
        ↔ LayerAllows expanded defaultPolicy address none) := by
  have hnames : ∀ action, HasRule expanded action (·.Names address none) ↔
      HasRule expanded action (·.isMatch (some address) none = true) ∨
        HasRule expanded action (·.otherScope address) := fun action => hasRule_or
  have hpolicy : defaultPolicy = .deny ↔ ¬ defaultPolicy = .allow := by
    cases defaultPolicy <;> simp
  rw [layerAllows_iff, RulesAllow, LayerRefuses, hnames, hnames, hpolicy, layer_agrees_iff,
    ← hpolicy, ← hnames]
  exact ⟨fun h => ⟨h.denied, h.allowed⟩, fun h => ⟨h.1, h.2⟩⟩

/-- **A network that is treated as one is shown as it is treated.** -/
theorem networkExact_iff {expanded : List EffectiveRule} {defaultPolicy : AllowDeny}
    {net : IpNetwork} {address : IpAddress} :
    NetworkExact expanded defaultPolicy net address ↔
      ∀ a, net.contains a = true → (RulesAllow expanded defaultPolicy (some address) none
        ↔ LayerAllows expanded defaultPolicy a none) := by
  constructor
  · intro h a ha
    constructor
    · intro hrules
      exact h.allowed hrules.1 hrules.2 a ha
    · intro hlayer
      by_contra hrules
      exact layerAllows_iff.mp hlayer (h.denied (not_rulesAllow_iff.mp hrules) a ha)
  · intro h
    constructor
    · intro hdenied a ha
      by_contra hlayer
      exact not_rulesAllow_iff.mpr hdenied ((h a ha).mpr (layerAllows_iff.mpr hlayer))
    · intro hdeny hallow a ha
      exact (h a ha).mp ⟨hdeny, hallow⟩

/-- A ClientID from an address that no rule names is decided by the ClientID. -/
theorem rulesAllow_clientid {expanded : List EffectiveRule} {defaultPolicy : AllowDeny}
    {address : IpAddress} {id : Option Str} (hloopback : ¬ IsLoopback address)
    (hnames : ∀ rule ∈ expanded, rule.kind ≠ .clientid → ¬ rule.Names address none) :
    RulesAllow expanded defaultPolicy none id ↔ LayerAllows expanded defaultPolicy address id := by
  have hrule : ∀ rule ∈ expanded, rule.isMatch none id = true ↔ rule.Names address id := by
    intro rule hrule
    by_cases hkind : rule.kind = .clientid
    · have hscope : ¬ rule.otherScope address := by
        rintro ⟨hipv6, -⟩
        rw [hkind] at hipv6
        cases hipv6
      rw [EffectiveRule.Names, or_iff_left hscope, EffectiveRule.isMatch, EffectiveRule.isMatch,
        if_pos hkind, if_pos hkind]
    · have hnot := hnames rule hrule hkind
      rw [EffectiveRule.Names, not_or] at hnot
      have hmatch : ¬ rule.isMatch (some address) id = true := by
        have := hnot.1
        rwa [EffectiveRule.isMatch, if_neg hkind] at this ⊢
      refine iff_of_false ?_ (not_or.mpr ⟨hmatch, hnot.2⟩)
      rw [EffectiveRule.isMatch, if_neg hkind]
      exact Bool.false_ne_true
  have hhas : ∀ action, HasRule expanded action (·.isMatch none id = true)
      ↔ HasRule expanded action (·.Names address id) := fun action =>
    exists_congr fun rule => and_congr_right fun hmem => and_congr_right fun _ => hrule rule hmem
  rw [RulesAllow, LayerAllows, hhas, hhas, or_iff_right hloopback]

/-- What is evaluated for a stored identifier can be read. -/
theorem exists_evaluatedAs {i : Identifier} (h : IsValue i.kind i.value) :
    ∃ ip cid, evaluatedAs i = some (ip, cid) := by
  rw [evaluatedAs]
  cases hkind : i.kind with
  | ipv4 => exact ⟨_, _, rfl⟩
  | ipv6 => exact ⟨_, _, rfl⟩
  | clientid => exact ⟨_, _, rfl⟩
  | ipv4Cidr =>
      rw [hkind] at h
      obtain ⟨net, hnet, -⟩ := h
      exact ⟨_, _, by rw [networkAddress, hnet]; rfl⟩
  | ipv6Cidr =>
      rw [hkind] at h
      obtain ⟨net, hnet, -⟩ := h
      exact ⟨_, _, by rw [networkAddress, hnet]; rfl⟩

/-- The text of a network address is an address. -/
theorem exists_ipAddress_networkAddress {value : Str} {address : IpAddress}
    (h : networkAddress value = some address) : ∃ a, ipAddress address.str = some a := by
  obtain ⟨net, -, rfl⟩ := Option.map_eq_some_iff.mp h
  cases net.isV4 with
  | true => exact ⟨_, ipAddress_v4Str _⟩
  | false => exact ⟨_, ipAddress_v6Str _ fun z hz => isScope_networkScope hz⟩

theorem covers_network_iff {expanded : List EffectiveRule} {i : Identifier} {net : IpNetwork}
    (hkind : i.kind = .ipv4Cidr ∨ i.kind = .ipv6Cidr) (hnet : ipNetwork i.value = some net)
    {address : IpAddress} {id : Option Str} :
    Covers expanded i address id ↔ net.contains address = true ∧ id = none := by
  have hcovers : Covers expanded i address id ↔
      (∃ net, ipNetwork i.value = some net ∧ net.contains address = true) ∧ id = none := by
    rcases hkind with hkind | hkind <;> rw [Covers, hkind]
  rw [hcovers, hnet]
  simp

section Identifier

variable {expanded : List EffectiveRule} {defaultPolicy : AllowDeny} {i : Identifier}
  {ip cid : Option Str}

/-- An address is shown as the decision on it. -/
theorem shownExactly_address (hkind : i.kind = .ipv4 ∨ i.kind = .ipv6)
    (h : evaluatedAs i = some (ip, cid)) :
    (∀ address id, Covers expanded i address id →
      (RulesAllow expanded defaultPolicy (ip.bind ipAddress) cid
        ↔ LayerAllows expanded defaultPolicy address id)) ↔
      ∀ address, ipAddress i.value = some address →
        AddressExact expanded defaultPolicy address := by
  have heval : evaluatedAs i = some (some i.value, none) := by
    rcases hkind with hkind | hkind <;> rw [evaluatedAs, hkind]
  have hcovers : ∀ address id, Covers expanded i address id ↔
      ipAddress i.value = some address ∧ id = none := by
    intro address id
    rcases hkind with hkind | hkind <;> rw [Covers, hkind]
  rw [h] at heval
  cases heval
  simp only [hcovers, Option.bind_some, addressExact_iff]
  constructor
  · intro hall address haddress
    have hnone := hall address none ⟨haddress, rfl⟩
    rwa [haddress] at hnone
  · rintro hall address _ ⟨haddress, rfl⟩
    rw [haddress]
    exact hall address haddress

/-- A network is shown as the decision on its network address. -/
theorem shownExactly_network (hkind : i.kind = .ipv4Cidr ∨ i.kind = .ipv6Cidr) {net : IpNetwork}
    (hnet : ipNetwork i.value = some net) (h : evaluatedAs i = some (ip, cid)) :
    (∀ address id, Covers expanded i address id →
      (RulesAllow expanded defaultPolicy (ip.bind ipAddress) cid
        ↔ LayerAllows expanded defaultPolicy address id)) ↔
      ∀ net address, ipNetwork i.value = some net →
        (networkAddress i.value).bind (ipAddress ·.str) = some address →
        NetworkExact expanded defaultPolicy net address := by
  obtain ⟨first, hfirst⟩ : ∃ first, networkAddress i.value = some first :=
    ⟨_, by rw [networkAddress, hnet]; rfl⟩
  obtain ⟨read, hread⟩ := exists_ipAddress_networkAddress hfirst
  have heval : evaluatedAs i = some (some first.str, none) := by
    rcases hkind with hkind | hkind <;> rw [evaluatedAs, hkind, hfirst] <;> rfl
  rw [h] at heval
  cases heval
  simp only [covers_network_iff hkind hnet, Option.bind_some, hnet, hfirst, hread,
    Option.some.injEq, networkExact_iff]
  constructor
  · rintro hall _ _ rfl rfl a ha
    exact hall a none ⟨ha, rfl⟩
  · rintro hall a _ ⟨ha, rfl⟩
    exact hall net read rfl rfl a ha

/-- **When the decision shown for one identifier is the one that is enforced.** -/
theorem identifierExact_iff (hvalue : IsValue i.kind i.value)
    (h : evaluatedAs i = some (ip, cid)) (enabled : Bool) :
    (∀ address id, Covers expanded i address id →
      ((enabled = true ∧ RulesAllow expanded defaultPolicy (ip.bind ipAddress) cid)
        ↔ LayerAllows expanded defaultPolicy address id)) ↔
      IdentifierExact enabled expanded defaultPolicy i := by
  cases enabled with
  | false =>
      rw [IdentifierExact, if_neg Bool.false_ne_true]
      refine forall₃_congr fun address id _ => ?_
      rw [layerAllows_iff]
      simp
  | true =>
      simp only [true_and]
      rw [IdentifierExact, if_pos rfl]
      cases hkind : i.kind with
      | ipv4 => exact shownExactly_address (.inl hkind) h
      | ipv6 => exact shownExactly_address (.inr hkind) h
      | ipv4Cidr =>
          rw [hkind] at hvalue
          obtain ⟨net, hnet, -⟩ := hvalue
          exact shownExactly_network (.inl hkind) hnet h
      | ipv6Cidr =>
          rw [hkind] at hvalue
          obtain ⟨net, hnet, -⟩ := hvalue
          exact shownExactly_network (.inr hkind) hnet h
      | clientid =>
          refine iff_of_true (fun address id hcovers => ?_) trivial
          rw [evaluatedAs, hkind] at h
          cases h
          rw [Covers, hkind] at hcovers
          obtain ⟨rfl, hloopback, hnames⟩ := hcovers
          exact rulesAllow_clientid hloopback hnames

end Identifier

/-! ## The whole page -/

/-- The files are written, and every decision shown for a client is the one that is enforced on the
queries of its identifier. -/
def ShownAsEnforced (maskMatches : Str → IpAddress → Bool) (client : ClientInfo)
    (rules : List AccessRule) (clientsById : ℕ → Option ClientInfo) (defaultPolicy : AllowDeny)
    (dohBasePath : Str) : Prop :=
  ∃ data shown, renderAccessData rules clientsById defaultPolicy dohBasePath = some data ∧
    effectiveAccessForClient client rules clientsById defaultPolicy = some shown ∧
    ∀ entry ∈ shown, ∀ id q, Presents dohBasePath id q →
      Covers (expandRules rules clientsById) entry.1 q.remote id →
      (entry.2.allowed = true ↔ refuses maskMatches data q = false)

/-- When it is: the files can be written, and every identifier is shown exactly. -/
structure DisplayExact (client : ClientInfo) (expanded : List EffectiveRule)
    (defaultPolicy : AllowDeny) (dohBasePath : Str) : Prop where
  values_safe : ∀ rule ∈ expanded, ∀ value ∈ rule.value, isLineSafe value = true
  base_safe : (∃ rule ∈ expanded, rule.kind = .clientid) → isLineSafe dohBasePath = true
  identifiers : ∀ i ∈ client.identifiers,
    IdentifierExact client.enabled expanded defaultPolicy i

theorem isClientid_of_covers {expanded : List EffectiveRule} {i : Identifier}
    (hvalue : IsValue i.kind i.value) {address : IpAddress} {id : Option Str}
    (h : Covers expanded i address id) : ∀ c ∈ id, IsClientid c := by
  intro c hc
  cases hkind : i.kind with
  | clientid =>
      rw [Covers, hkind] at h
      rw [hkind] at hvalue
      obtain ⟨rfl, -⟩ := h
      cases hc
      exact hvalue
  | _ =>
      rw [Covers, hkind] at h
      obtain ⟨-, rfl⟩ := h
      cases hc

/-- Every address can carry no ClientID, or one of them. -/
theorem exists_presents (dohBasePath : Str) (address : IpAddress) {id : Option Str}
    (hid : ∀ c ∈ id, IsClientid c) : ∃ q, Presents dohBasePath id q ∧ q.remote = address := by
  cases id with
  | none => exact ⟨⟨address, none, none⟩, .none (by simp) (by simp), rfl⟩
  | some c =>
      obtain ⟨host, hhost⟩ := exists_sniHostname (hid c rfl)
      exact ⟨⟨address, some host, none⟩, .sni hhost, rfl⟩

/-- **The identifiers that are shown as they are treated**, for written files. -/
theorem shown_exact {maskMatches : Str → IpAddress → Bool} (hmask : ReadsCidr maskMatches)
    {rules : List AccessRule} {clientsById : ℕ → Option ClientInfo}
    (hcanon : AllCanonical (expandRules rules clientsById)) {client : ClientInfo}
    (hclient : ∀ i ∈ client.identifiers, IsValue i.kind i.value) (defaultPolicy : AllowDeny)
    (dohBasePath : Str) :
    ∃ shown, effectiveAccessForClient client rules clientsById defaultPolicy = some shown ∧
      ∀ data, renderAccessData rules clientsById defaultPolicy dohBasePath = some data →
        ((∀ entry ∈ shown, ∀ id q, Presents dohBasePath id q →
            Covers (expandRules rules clientsById) entry.1 q.remote id →
            (entry.2.allowed = true ↔ refuses maskMatches data q = false)) ↔
          ∀ i ∈ client.identifiers,
            IdentifierExact client.enabled (expandRules rules clientsById) defaultPolicy i) := by
  have hround : ∀ i ∈ client.identifiers, ∃ entry,
      identifierAccess client rules clientsById defaultPolicy i = some entry := by
    intro i hi
    obtain ⟨ip, cid, heval⟩ := exists_evaluatedAs (hclient i hi)
    obtain ⟨decision, hdecision, -⟩ := shown_iff heval
    exact ⟨_, hdecision⟩
  obtain ⟨shown, hshown, hmem⟩ := exists_mapM hround
  refine ⟨shown, hshown, fun data hdata => ?_⟩
  have hentry : ∀ i ∈ client.identifiers, ∀ entry,
      identifierAccess client rules clientsById defaultPolicy i = some entry →
      ((∀ id q, Presents dohBasePath id q →
          Covers (expandRules rules clientsById) entry.1 q.remote id →
          (entry.2.allowed = true ↔ refuses maskMatches data q = false)) ↔
        IdentifierExact client.enabled (expandRules rules clientsById) defaultPolicy i) := by
    intro i hi entry hround
    obtain ⟨ip, cid, heval⟩ := exists_evaluatedAs (hclient i hi)
    obtain ⟨decision, hdecision, hallowed⟩ := shown_iff heval
    rw [hround] at hdecision
    cases hdecision
    rw [← identifierExact_iff (hclient i hi) heval client.enabled, ← hallowed]
    constructor
    · intro h address id hcovers
      have hid := isClientid_of_covers (hclient i hi) hcovers
      obtain ⟨q, hq, rfl⟩ := exists_presents dohBasePath address hid
      rw [h id q hq hcovers, refuses_iff_not_layerAllows hmask hcanon hid hq hdata]
    · intro h id q hq hcovers
      have hid := isClientid_of_covers (hclient i hi) hcovers
      rw [h q.remote id hcovers, refuses_iff_not_layerAllows hmask hcanon hid hq hdata]
  constructor
  · intro h i hi
    obtain ⟨entry, hround⟩ := hround i hi
    exact (hentry i hi entry hround).mp (h entry ((hmem entry).mpr ⟨i, hi, hround⟩))
  · intro h entry hmementry
    obtain ⟨i, hi, hround⟩ := (hmem entry).mp hmementry
    exact (hentry i hi entry hround).mpr (h i hi)

/-- **When every decision shown is the one that is enforced.** -/
theorem effectiveAccess_iff {maskMatches : Str → IpAddress → Bool} (hmask : ReadsCidr maskMatches)
    {rules : List AccessRule} {clientsById : ℕ → Option ClientInfo}
    (hstored : StoredValues rules clientsById) {id : ℕ} {client : ClientInfo}
    (hclient : clientsById id = some client) (defaultPolicy : AllowDeny) (dohBasePath : Str) :
    ShownAsEnforced maskMatches client rules clientsById defaultPolicy dohBasePath ↔
      DisplayExact client (expandRules rules clientsById) defaultPolicy dohBasePath := by
  have hcanon := hstored.canonical
  have hvalues : ∀ i ∈ client.identifiers, IsValue i.kind i.value := fun i hi =>
    isValue_of_isStored (hstored.identifiers id client hclient i hi)
  obtain ⟨entries, hentries, -, hsafe, -⟩ := @dataEntries_canonical dohBasePath _ hcanon
  obtain ⟨shown, hshown, hexact⟩ := shown_exact hmask hcanon hvalues defaultPolicy dohBasePath
  constructor
  · rintro ⟨data, shown', hdata, hshown', h⟩
    rw [hshown] at hshown'
    cases hshown'
    obtain ⟨hline, hbase⟩ := hsafe.mp ((exists_render_iff hentries).mp ⟨data, hdata⟩)
    exact ⟨hline, hbase, (hexact data hdata).mp h⟩
  · rintro ⟨hline, hbase, hidentifiers⟩
    obtain ⟨data, hdata⟩ := (exists_render_iff hentries).mpr (hsafe.mpr ⟨hline, hbase⟩)
    exact ⟨data, shown, hdata, hshown, (hexact data hdata).mpr hidentifiers⟩

/-! ### A network that is not treated as one, and a disabled client -/

def hostText : Str := "10.0.0.5".toList

def lanText : Str := "10.0.0.0/24".toList

/-- How the two texts are stored and read. -/
theorem lan_read :
    normalizeIdentifier ⟨fun s => s, some⟩ hostText = some (.ipv4, hostText) ∧
    normalizeIdentifier ⟨fun s => s, some⟩ lanText = some (.ipv4Cidr, lanText) ∧
    ipAddress hostText = some (.v4 167772165) ∧
    ipNetwork lanText = some ⟨true, 167772160, 24⟩ ∧
    (networkAddress lanText).bind (ipAddress ·.str) = some (.v4 167772160) := by
  decide +kernel

def lanClient (enabled : Bool) : ClientInfo where
  name := "LAN".toList
  enabled := enabled
  identifiers := [⟨1, 1, .ipv4Cidr, lanText⟩]

/-- The only client has id 1. -/
def onlyClient (client : ClientInfo) (id : ℕ) : Option ClientInfo :=
  if id = 1 then some client else none

theorem storedValues_lan (enabled : Bool) {rules : List AccessRule}
    (hrules : ∀ rule ∈ rules, rule = addressRule .deny .ipv4 hostText) :
    StoredValues rules (onlyClient (lanClient enabled)) where
  rules := by
    intro rule hrule kind hkind
    rw [hrules rule hrule] at hkind ⊢
    cases hkind
    exact ⟨hostText, rfl, .inl ⟨⟨fun s => s, some⟩, hostText, lan_read.1⟩⟩
  identifiers := by
    intro id client hclient i hi
    rw [onlyClient] at hclient
    split_ifs at hclient
    cases hclient
    rw [List.mem_singleton.mp hi]
    exact .inl ⟨⟨fun s => s, some⟩, lanText, lan_read.2.1⟩

/-- Of the network, one address is refused although the network is shown as allowed; and a disabled
client is shown as denied although nothing refuses it. -/
theorem network_not_as_shown :
    (StoredValues [addressRule .deny .ipv4 hostText] (onlyClient (lanClient true)) ∧
      ¬ ShownAsEnforced cidrMatches (lanClient true) [addressRule .deny .ipv4 hostText]
        (onlyClient (lanClient true)) .allow []) ∧
    StoredValues [] (onlyClient (lanClient false)) ∧
      ¬ ShownAsEnforced cidrMatches (lanClient false) [] (onlyClient (lanClient false)) .allow [] := by
  obtain ⟨-, -, hhost, hlan, hfirst⟩ := lan_read
  have hcovers : (⟨true, 167772160, 24⟩ : IpNetwork).contains (.v4 167772165) = true := by decide
  have hvalues : ∀ enabled, ∀ i ∈ (lanClient enabled).identifiers, IsValue i.kind i.value := by
    intro enabled i hi
    rw [List.mem_singleton.mp hi]
    exact ⟨_, hlan, rfl⟩
  have henabled : StoredValues [addressRule .deny .ipv4 hostText] (onlyClient (lanClient true)) :=
    storedValues_lan true (by simp)
  have hdisabled : StoredValues [] (onlyClient (lanClient false)) :=
    storedValues_lan false (by simp)
  refine ⟨⟨henabled, ?_⟩, hdisabled, ?_⟩
  · rintro ⟨data, shown, hdata, hshown, h⟩
    obtain ⟨shown', hshown', hexact⟩ := shown_exact readsCidr_cidrMatches
      henabled.canonical (hvalues true) .allow []
    rw [hshown] at hshown'
    cases hshown'
    have hnetwork : NetworkExact _ .allow _ _ :=
      (hexact data hdata).mp h _ List.mem_cons_self _ _ hlan hfirst
    have hexpand : expandRules [addressRule .deny .ipv4 hostText] (onlyClient (lanClient true))
        = [⟨.deny, .ipv4, some hostText, "rule:".toList ++ "ipv4".toList⟩] := rfl
    rw [hexpand] at hnetwork
    refine (hnetwork.allowed ?_ (.inl rfl) _ hcovers).1 ?_
    · rintro ⟨rule, hrule, -, hmatch⟩
      rw [List.mem_singleton.mp hrule, isMatch_address rfl (by simp), ruleMatchesIp, hhost] at hmatch
      exact absurd (of_decide_eq_true hmatch) (by simp)
    · refine ⟨_, List.mem_singleton_self _, rfl, .inl ?_⟩
      rw [isMatch_address rfl (by simp), ruleMatchesIp, hhost]
      exact decide_eq_true rfl
  · rintro ⟨data, shown, hdata, hshown, h⟩
    obtain ⟨shown', hshown', hexact⟩ := shown_exact readsCidr_cidrMatches
      hdisabled.canonical (hvalues false) .allow []
    rw [hshown] at hshown'
    cases hshown'
    have hrefused : ∀ address id, Covers [] ⟨1, 1, .ipv4Cidr, lanText⟩ address id →
        LayerRefuses [] .allow address id := (hexact data hdata).mp h _ List.mem_cons_self
    rcases hrefused (.v4 167772165) none ⟨⟨_, hlan, hcovers⟩, rfl⟩ with ⟨rule, hrule, -⟩ | ⟨h, -⟩
    · cases hrule
    · cases h

/-- A disabled client under default deny is shown as it is treated. -/
theorem effectiveAccess_iff_disabled :
    ShownAsEnforced cidrMatches (lanClient false) [addressRule .deny .ipv4 hostText]
      (onlyClient (lanClient false)) .deny [] := by
  have hexpand : expandRules [addressRule .deny .ipv4 hostText] (onlyClient (lanClient false))
      = [⟨.deny, .ipv4, some hostText, "rule:".toList ++ "ipv4".toList⟩] := rfl
  have hclient : onlyClient (lanClient false) 1 = some (lanClient false) := rfl
  refine (effectiveAccess_iff readsCidr_cidrMatches (storedValues_lan false (by simp)) hclient _
    _).mpr
    ⟨?_, ?_, ?_⟩
  · intro rule hrule value hvalue
    rw [hexpand, List.mem_singleton] at hrule
    subst hrule
    cases hvalue
    decide
  · intro _
    rfl
  · intro i hi
    rw [List.mem_singleton.mp hi, hexpand]
    rintro address id ⟨⟨net, hnet, hcontains⟩, rfl⟩
    refine .inr ⟨rfl, ?_, ?_⟩
    · rw [lan_read.2.2.2.1] at hnet
      cases hnet
      rintro (rfl | ⟨scope, rfl⟩)
      · exact absurd hcontains (by decide)
      · cases hcontains
    · rintro ⟨rule, hrule, haction, -⟩
      rw [List.mem_singleton.mp hrule] at haction
      cases haction

end AlderpointDNS
