import AlderpointDNS.Clients.Tables
import AlderpointDNS.Lib.Ipaddress
import Mathlib.Data.Char
import Mathlib.Data.List.Lex
import Mathlib.Data.Prod.Lex
import Mathlib.Order.WithBot

/-!
# The access decision

`evaluateAccess` decides whether a query from an address, with an optional ClientID, is allowed:
client rules are expanded to the identifiers of their client, the first matching deny rule wins
over the first matching allow rule, and that over the default policy.

* `decideExpanded_filter` — rules that cannot match make no difference.
* `allowed_iff` — which queries are allowed.
-/

namespace AlderpointDNS

open Text Ipaddress

def AllowDeny.text : AllowDeny → Str
  | .allow => "allow".toList
  | .deny => "deny".toList

def IdentifierKind.text : IdentifierKind → Str
  | .ipv4 => "ipv4".toList
  | .ipv4Cidr => "ipv4_cidr".toList
  | .ipv6 => "ipv6".toList
  | .ipv6Cidr => "ipv6_cidr".toList
  | .clientid => "clientid".toList

def RuleKind.text : RuleKind → Str
  | .identifier kind => kind.text
  | .client => "client".toList

/-! ## What is evaluated -/

/-- A value of `clients_by_id`. -/
structure ClientInfo where
  name : Str
  enabled : Bool
  identifiers : List Identifier

/-- An entry of `_expand_rules`. -/
structure EffectiveRule where
  action : AllowDeny
  kind : IdentifierKind
  value : Option Str
  source : Str
  deriving DecidableEq

/-- `AccessDecision`. -/
structure AccessDecision where
  allowed : Bool
  reason : Str
  deriving DecidableEq

/-- `_rule_matches_ip`. -/
def ruleMatchesIp (kind : IdentifierKind) (value : Str) (address : IpAddress) : Bool :=
  match kind with
  | .ipv4 | .ipv6 => ipAddress value = some address
  | .ipv4Cidr | .ipv6Cidr => (ipNetwork value).any (·.contains address)
  | .clientid => false

/-- One rule of `_expand_rules`. -/
def expandRule (clientsById : ℕ → Option ClientInfo) (rule : AccessRule) : List EffectiveRule :=
  match rule.kind with
  | .client =>
      match rule.clientId.bind clientsById with
      | none => []
      | some client =>
          if client.enabled then client.identifiers.map fun i =>
            ⟨rule.action, i.kind, some i.value, "client:".toList ++ client.name⟩
          else []
  | .identifier kind => [⟨rule.action, kind, rule.value, "rule:".toList ++ kind.text⟩]

/-- `_expand_rules`. -/
def expandRules (rules : List AccessRule) (clientsById : ℕ → Option ClientInfo) :
    List EffectiveRule :=
  rules.flatMap (expandRule clientsById)

/-- `matched`. -/
def EffectiveRule.isMatch (address : Option IpAddress) (clientid : Option Str)
    (rule : EffectiveRule) : Bool :=
  if rule.kind = .clientid then clientid.any fun id => id ≠ [] && rule.value = some id
  else address.any fun a => rule.value.any (ruleMatchesIp rule.kind · a)

/-- The reason that names a rule. -/
def EffectiveRule.reason (verdict : Str) (rule : EffectiveRule) : Str :=
  verdict ++ " by ".toList ++ rule.source ++ " (".toList ++ rule.kind.text ++ ['=']
    ++ rule.value.getD "None".toList ++ [')']

/-- The decision of the expanded rules. -/
def decideExpanded (address : Option IpAddress) (clientid : Option Str)
    (expanded : List EffectiveRule) (defaultPolicy : AllowDeny) : AccessDecision :=
  let matched := expanded.filter (·.isMatch address clientid)
  match matched.find? (·.action = .deny) with
  | some rule => ⟨false, rule.reason "denied".toList⟩
  | none =>
      match matched.find? (·.action = .allow) with
      | some rule => ⟨true, rule.reason "allowed".toList⟩
      | none =>
          ⟨defaultPolicy = .allow, "default policy (".toList ++ defaultPolicy.text ++ [')']⟩

/-- `evaluate_access`. -/
def evaluateAccess (remoteIp clientid : Option Str) (rules : List AccessRule)
    (clientsById : ℕ → Option ClientInfo) (defaultPolicy : AllowDeny) : AccessDecision :=
  decideExpanded (remoteIp.bind ipAddress) clientid (expandRules rules clientsById) defaultPolicy

/-! ## What is stored -/

/-- `ORDER BY action, kind, value`.  The rows come through the index of
`UNIQUE(action, kind, value, client_id)`, so ties are in the order of the client and row ids. -/
def AccessRule.sortKey (rule : AccessRule) :
    (Str ×ₗ Str ×ₗ WithBot Str) ×ₗ (WithBot ℕ ×ₗ ℕ) :=
  toLex (toLex (rule.action.text, toLex (rule.kind.text, rule.value)),
    toLex (rule.clientId, rule.id))

/-- `list_access_rules`. -/
def listAccessRules (rules : RuleRows) : List AccessRule := sortBy AccessRule.sortKey rules.1

/-- `ORDER BY kind, value`. -/
def Identifier.sortKey (i : Identifier) : Str ×ₗ Str := toLex (i.kind.text, i.value)

/-- The dictionary of `list_clients`, by id. -/
def clientsById (clients : ClientRows) (identifiers : IdentifierRows) (id : ℕ) :
    Option ClientInfo :=
  (clients.1.find? (·.id = id)).map fun client =>
    { name := client.name
      enabled := client.enabled
      identifiers := sortBy Identifier.sortKey (identifiersOf identifiers client.id) }

/-- The stored clients, rules and default policy. -/
structure AccessStore extends ClientTables where
  defaultPolicy : AllowDeny

/-- The decision over the stored tables. -/
def AccessStore.decision (s : AccessStore) (remoteIp clientid : Option Str) : AccessDecision :=
  evaluateAccess remoteIp clientid (listAccessRules s.accessRules)
    (clientsById s.clients s.identifiers) s.defaultPolicy

/-! ## Rules that can match -/

/-- A rule without a value matches nothing, nor does one with an empty value. -/
def EffectiveRule.canMatch (rule : EffectiveRule) : Bool := rule.value.any (· ≠ [])

theorem ruleMatchesIp_nil (kind : IdentifierKind) (address : IpAddress) :
    ruleMatchesIp kind [] address = false := by
  have haddress : ipAddress [] = none := by decide
  have hnetwork : ipNetwork [] = none := by decide +kernel
  cases kind <;> simp [ruleMatchesIp, haddress, hnetwork]

theorem canMatch_of_isMatch {address : Option IpAddress} {clientid : Option Str}
    {rule : EffectiveRule} (h : rule.isMatch address clientid = true) : rule.canMatch = true := by
  unfold EffectiveRule.isMatch at h
  unfold EffectiveRule.canMatch
  split_ifs at h
  · obtain ⟨id, -, hid⟩ := (Option.any_eq_true _ _).mp h
    rw [Bool.and_eq_true, decide_eq_true_eq, decide_eq_true_eq] at hid
    rw [hid.2]
    simpa using hid.1
  · obtain ⟨a, -, ha⟩ := (Option.any_eq_true _ _).mp h
    obtain ⟨value, hvalue, hm⟩ := (Option.any_eq_true _ _).mp ha
    rw [hvalue, Option.any_some, decide_eq_true_eq]
    rintro rfl
    rw [ruleMatchesIp_nil] at hm
    cases hm

/-- **Rules that cannot match make no difference.** -/
theorem decideExpanded_filter (address : Option IpAddress) (clientid : Option Str)
    (expanded : List EffectiveRule) (defaultPolicy : AllowDeny) :
    decideExpanded address clientid (expanded.filter (·.canMatch)) defaultPolicy
      = decideExpanded address clientid expanded defaultPolicy := by
  have hfilter : (expanded.filter (·.canMatch)).filter (·.isMatch address clientid)
      = expanded.filter (·.isMatch address clientid) := by
    rw [List.filter_filter]
    refine List.filter_congr fun rule _ => ?_
    cases hm : rule.isMatch address clientid with
    | false => rfl
    | true => rw [canMatch_of_isMatch hm]; rfl
  simp only [decideExpanded, hfilter]

/-- **Which queries are allowed**: no deny rule matches, and an allow rule does or the default
policy allows. -/
theorem allowed_iff (address : Option IpAddress) (clientid : Option Str)
    (expanded : List EffectiveRule) (defaultPolicy : AllowDeny) :
    (decideExpanded address clientid expanded defaultPolicy).allowed = true ↔
      (∀ rule ∈ expanded, rule.isMatch address clientid = true → rule.action ≠ .deny) ∧
      (defaultPolicy = .allow ∨
        ∃ rule ∈ expanded, rule.isMatch address clientid = true ∧ rule.action = .allow) := by
  have hfind : ∀ action, ((expanded.filter (·.isMatch address clientid)).find?
      (·.action = action) = none ↔
      ∀ rule ∈ expanded, rule.isMatch address clientid = true → rule.action ≠ action) := by
    intro action
    simp only [List.find?_eq_none, List.mem_filter, decide_eq_true_eq, and_imp, ne_eq]
  unfold decideExpanded
  dsimp only
  split
  · rename_i rule hrule
    simp only [Bool.false_eq_true, false_iff, not_and]
    intro hnone
    rw [(hfind .deny).mpr hnone] at hrule
    cases hrule
  · rename_i hdeny
    rw [and_iff_right ((hfind .deny).mp hdeny)]
    split
    · rename_i rule hrule
      have hmem := List.mem_filter.mp (List.mem_of_find?_eq_some hrule)
      have haction := List.find?_some hrule
      simp only [true_iff]
      exact Or.inr ⟨rule, hmem.1, hmem.2, by simpa using haction⟩
    · rename_i hallow
      have hno := (hfind .allow).mp hallow
      rw [decide_eq_true_eq]
      refine ⟨Or.inl, fun h => h.resolve_right ?_⟩
      rintro ⟨rule, hrule, hm, haction⟩
      exact hno rule hrule hm haction

end AlderpointDNS
