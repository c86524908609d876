import AlderpointDNS.Domains

/-!
# Custom filtering rules

`ParsedRule` is the dataclass the parser fills and `StoredRule` a row of `custom_filter_rules`.
The table is a list of rows in rowid order, which is the order a scan of it returns.

`ParsedRule.wellFormed` says which columns go together: a valid block or allow rule has a
domain that passed `normalize_domain`, a valid rewrite also has an address, a valid regex rule
has a pattern, and anything that is not valid has neither type nor action.  A `StoredRule` carries
it as a field, so a row that could make the compiler look up a missing domain cannot be built.

Not modelled: timestamps, the import job id and `qtype_restriction`, which no rule ever sets.
-/

namespace AlderpointDNS

open Text

/-- `rule_type`. -/
inductive RuleType where
  | block
  | allow
  | rewrite
  | regexBlock
  | regexAllow
  | comment
  | unsupported
  deriving DecidableEq

/-- `action`. -/
inductive RuleAction where
  | block
  | allow
  | rewrite
  | none
  deriving DecidableEq

/-- `validation_state`. -/
inductive ValidationState where
  | valid
  | unsupported
  | invalid
  deriving DecidableEq

/-- `address_family`. -/
inductive AddressFamily where
  | ipv4
  | ipv6
  deriving DecidableEq

/-- The `ParsedRule` dataclass, with its defaults. -/
structure ParsedRule where
  ruleText : Str
  normalized : Str := []
  ruleType : RuleType := .unsupported
  action : RuleAction := .none
  domain : Option Str := none
  matchSubdomains : Bool := false
  pattern : Option Str := none
  rewriteAddress : Option Str := none
  addressFamily : Option AddressFamily := none
  priority : ℕ := 0
  validationState : ValidationState := .valid
  unsupportedReason : Str := []
  comment : Str := []
  deriving DecidableEq

/-- `IMPORTANT_PRIORITY`. -/
def importantPriority : ℕ := 100

/-- Which columns go together. -/
def ParsedRule.wellFormed (r : ParsedRule) : Bool :=
  if r.validationState = .valid then
    match r.ruleType with
    | .block => r.action = .block && r.domain.any matchesDomainRe
    | .allow => r.action = .allow && r.domain.any matchesDomainRe
    | .rewrite => r.action = .rewrite && r.domain.any matchesDomainRe
        && r.rewriteAddress.any (· ≠ []) && r.addressFamily.isSome
    | .regexBlock => r.action = .block && r.pattern.any (· ≠ [])
    | .regexAllow => r.action = .allow && r.pattern.any (· ≠ [])
    | .comment => r.action = .none
    | .unsupported => false
  else r.ruleType = .unsupported && r.action = .none

/-- A row of `custom_filter_rules`. -/
structure StoredRule extends ParsedRule where
  id : ℕ
  enabled : Bool
  sourceSystem : Str
  wf : toParsedRule.wellFormed = true
  deriving DecidableEq

/-- `enabled=1 AND validation_state='valid'`. -/
def StoredRule.isActive (r : StoredRule) : Bool := r.enabled && r.validationState = .valid

/-- The enabled valid rules of a table, in rowid order. -/
def activeRules (rows : List StoredRule) : List ParsedRule :=
  (rows.filter (·.isActive)).map (·.toParsedRule)

theorem activeRules_wellFormed {rows : List StoredRule} {r : ParsedRule}
    (h : r ∈ activeRules rows) : r.wellFormed = true ∧ r.validationState = .valid := by
  obtain ⟨row, hrow, rfl⟩ := List.mem_map.mp h
  have := (List.mem_filter.mp hrow).2
  simp only [StoredRule.isActive, Bool.and_eq_true, decide_eq_true_eq] at this
  exact ⟨row.wf, this.2⟩

/-! ## Reading a well-formed rule -/

/-- The three rule types that name a domain. -/
def RuleType.isDomainType : RuleType → Bool
  | .block | .allow | .rewrite => true
  | _ => false

theorem ParsedRule.domain_matches {r : ParsedRule} (hwf : r.wellFormed = true)
    (hv : r.validationState = .valid) (ht : r.ruleType.isDomainType = true) :
    ∃ d, r.domain = some d ∧ matchesDomainRe d = true := by
  have hd : r.domain.any matchesDomainRe = true := by
    unfold wellFormed at hwf
    rw [if_pos hv] at hwf
    cases h : r.ruleType <;> rw [h] at hwf ht <;> simp only [Bool.and_eq_true] at hwf
    · exact hwf.2
    · exact hwf.2
    · exact hwf.1.1.2
    all_goals cases ht
  exact Option.any_eq_true _ _ |>.mp hd

theorem ParsedRule.rewrite_address {r : ParsedRule} (hwf : r.wellFormed = true)
    (hv : r.validationState = .valid) (ht : r.ruleType = .rewrite) :
    ∃ a, r.rewriteAddress = some a ∧ a ≠ [] := by
  unfold wellFormed at hwf
  rw [if_pos hv, ht] at hwf
  simp only [Bool.and_eq_true, Option.any_eq_true, decide_eq_true_eq] at hwf
  exact hwf.1.2

theorem ParsedRule.pattern_ne_nil {r : ParsedRule} (hwf : r.wellFormed = true)
    (hv : r.validationState = .valid) (ht : r.ruleType = .regexBlock ∨ r.ruleType = .regexAllow) :
    ∃ p, r.pattern = some p ∧ p ≠ [] := by
  unfold wellFormed at hwf
  rw [if_pos hv] at hwf
  rcases ht with ht | ht <;> rw [ht] at hwf <;>
    · simp only [Bool.and_eq_true, Option.any_eq_true, decide_eq_true_eq] at hwf
      exact hwf.2

end AlderpointDNS
