import AlderpointDNS.CustomRules.Rpz
import Mathlib.Data.Prod.Lex
import Mathlib.Data.List.MinMax

/-!
# The "test a domain" panel

`evaluateDomain` is `custom_rules.evaluate_domain`: for a name outside the local zones it
collects the enabled rules matching the name, keeps those of the most specific owner, and
decides among them by type and priority; without a matching rule it falls through to the regex
rules and then to the compiled zone.

Rules are given as the rows of `custom_filter_rules` after `init_db`, in rowid order, and the
regex engine is a parameter: `rx pattern qname` says whether the *deployed* pattern matches.

* **`bestMatches_spec`** — the rows kept are all the rules of the name itself, or else the
  subdomain rules of the nearest parent that has one.
* **`evaluateName_outcome`** — the verdict, as a function of those rows.
-/

namespace AlderpointDNS

open Text

/-! ## Local zones -/

/-- `record_type` of `local_dns_records`. -/
inductive LocalRecordType where
  | a
  | aaaa
  | ptr
  | cname
  deriving DecidableEq

structure LocalDnsRecord where
  fqdn : Str
  recordType : LocalRecordType
  enabled : Bool

/-- `local_dns_settings['internal_domain']` and `local_dns_records`. -/
structure LocalDnsTables where
  internalDomain : Option Str
  records : List LocalDnsRecord

/-- `local_dns.DEFAULT_DOMAIN`. -/
def defaultDomain : Str := "home.arpa".toList

/-- `qname == zone or qname.endswith("." + zone)`. -/
def inZone (qname zone : Str) : Bool := qname = zone || endsWith qname ('.' :: zone)

/-- `local_dns.forward_zone_for_fqdn`. -/
def forwardZoneForFqdn (fqdn internal : Str) : Str :=
  if inZone fqdn internal then internal
  else if (split '.' fqdn).length < 3 then fqdn
  else join ['.'] ((split '.' fqdn).drop 1)

/-- The zone an enabled record adds. -/
def recordZone (internal : Str) (r : LocalDnsRecord) : Str :=
  if r.recordType = .ptr then join ['.'] ((split '.' r.fqdn).drop 1)
  else forwardZoneForFqdn r.fqdn internal

/-- `_local_zone_names`; `none` when the tables do not exist. -/
def localZoneNames (tables : Option LocalDnsTables) : List Str :=
  match tables with
  | none => []
  | some t =>
      let internal := t.internalDomain.getD defaultDomain
      sortedSet (insert internal
        ((t.records.filter (·.enabled)).map (recordZone internal)).toFinset)

/-! ## The result -/

inductive FinalAction where
  | resolve
  | localZone
  | rewrite
  | block
  | allow
  deriving DecidableEq

/-- The dictionary `rule_summary` returns. -/
structure RuleSummary where
  id : ℕ
  ruleText : Str
  ruleType : RuleType
  action : RuleAction
  priority : ℕ
  deriving DecidableEq

def ruleSummary (row : StoredRule) : RuleSummary :=
  ⟨row.id, row.ruleText, row.ruleType, row.action, row.priority⟩

/-- The dictionary `evaluate_domain` returns for a name it accepts. -/
structure EvalResult where
  domain : Str
  finalAction : FinalAction := .resolve
  matchedRules : List RuleSummary := []
  localZone : Option Str := none
  rpz : RpzStatus
  response : Str := "resolves normally through the upstream path".toList

/-- The dictionary for a name `normalize_domain` refuses. -/
structure EvalError where
  domain : Str
  error : Str

/-! ## Matching rules -/

/-- `_regex_matches`. -/
def regexMatches (rx : Str → Str → Bool) (pattern qname : Str) : Bool :=
  rx (deployedPattern pattern) qname

/-- The first two parts of a `domain_matches` tuple, if the row matches. -/
def matchKey (qname : Str) (r : ParsedRule) : Option (ℕ ×ₗ ℕ) :=
  match r.domain with
  | none => none
  | some d =>
      if r.ruleType.isDomainType && d ≠ [] then
        if qname = d then some (toLex (1, labelCount d))
        else if r.matchSubdomains && endsWith qname ('.' :: d) then some (toLex (0, labelCount d))
        else none
      else none

/-- `domain_matches`. -/
def domainMatches (rows : List StoredRule) (qname : Str) : List ((ℕ ×ₗ ℕ) × StoredRule) :=
  rows.filterMap fun row => (matchKey qname row.toParsedRule).map fun k => (k, row)

/-- `best`: the rows whose key is the greatest. -/
def bestMatches (ms : List ((ℕ ×ₗ ℕ) × StoredRule)) : List StoredRule :=
  match (ms.map (·.1)).max? with
  | none => []
  | some bestKey => (ms.filter (·.1 = bestKey)).map (·.2)

/-- The rows of one regex type that match. -/
def regexHits (rx : Str → Str → Bool) (t : RuleType) (rows : List StoredRule) (qname : Str) :
    List StoredRule :=
  rows.filter fun row => row.ruleType = t && row.pattern.any (regexMatches rx · qname)

/-- `max(row["priority"] for row in rows)`. -/
def maxPriority (rs : List ParsedRule) : ℕ := (rs.map (·.priority)).foldl max 0

/-- The verdict among the rows of the best key. -/
def bestVerdict (best : List StoredRule) (result : EvalResult) : EvalResult :=
  let rewrites := best.filter (·.ruleType = .rewrite)
  let allows := best.filter (·.ruleType = .allow)
  let blocks := best.filter (·.ruleType = .block)
  if rewrites ≠ [] then
    { result with
      finalAction := .rewrite
      matchedRules := rewrites.map ruleSummary
      response := "answers with ".toList
        ++ join ", ".toList (rewrites.map fun row => row.rewriteAddress.getD []) }
  else if allows ≠ [] && blocks ≠ []
      && maxPriority (allows.map (·.toParsedRule)) < maxPriority (blocks.map (·.toParsedRule)) then
    { result with
      finalAction := .block
      matchedRules := blocks.map ruleSummary
      response := "blocked (an important block rule outranks the allow rule)".toList }
  else if allows ≠ [] then
    { result with
      finalAction := .allow
      matchedRules := allows.map ruleSummary
      response := "allowed (rpz-passthru overrides block rules and blocklists)".toList }
  else
    { result with
      finalAction := .block
      matchedRules := blocks.map ruleSummary
      response := "blocked (RPZ CNAME ., answers NXDOMAIN)".toList }

/-- The name and the kind of entry in the last response text. -/
def blocklistResponse (rpz : RpzStatus) : Str :=
  "blocked by the compiled blocklist RPZ (".toList
    ++ (match rpz.exactMatch with
      | some true => "exact".toList
      | some false => "wildcard".toList
      | none => "None".toList)
    ++ " entry ".toList ++ (rpz.entry.map Owner.text).getD "None".toList ++ ")".toList

/-- `evaluate_domain` after `_normalize_domain`. -/
def evaluateName (rx : Str → Str → Bool) (zones : List Str) (table : List StoredRule)
    (zone : Option (List RpzLine)) (qname : Str) : EvalResult :=
  let rpz := rpzStatus zone qname
  let result : EvalResult := { domain := qname, rpz := rpz }
  match zones.find? (inZone qname) with
  | some z =>
      { result with
        finalAction := .localZone
        localZone := some z
        response := "answered from local authoritative zone ".toList ++ z
          ++ " (always wins)".toList }
  | none =>
      let rows := table.filter (·.isActive)
      let best := bestMatches (domainMatches rows qname)
      let allowHits := regexHits rx .regexAllow rows qname
      let blockHits := regexHits rx .regexBlock rows qname
      if best ≠ [] then bestVerdict best result
      else if allowHits ≠ [] then
        let result := { result with matchedRules := (allowHits.take 1).map ruleSummary }
        if rpz.blocked then
          { result with
            finalAction := .block
            response := ("the regex allow rule bypasses regex blocks, but the external blocklist "
              ++ "RPZ entry still blocks this name").toList }
        else
          { result with
            finalAction := .allow
            response :=
              "allowed (regex allow passes the query to BIND before regex blocks)".toList }
      else if blockHits ≠ [] then
        { result with
          finalAction := .block
          matchedRules := (blockHits.take 1).map ruleSummary
          response := "blocked at the dnsdist layer (NXDOMAIN, no RPZ SOA in the response)".toList }
      else if rpz.blocked then
        { result with finalAction := .block, response := blocklistResponse rpz }
      else result

/-- `evaluate_domain`. -/
def evaluateDomain (u : UnicodeData) (rx : Str → Str → Bool) (zones : List Str)
    (table : List StoredRule) (zone : Option (List RpzLine)) (domain : Str) :
    Except EvalError EvalResult :=
  match normalizeDomain u domain with
  | none => .error { domain := strip domain, error := "not a valid domain name".toList }
  | some qname => .ok (evaluateName rx zones table zone qname)

/-! ## Which rows are kept -/

/-- The domain rules of the name `x`. -/
def domainRules (rules : List ParsedRule) (x : Str) : List ParsedRule :=
  rules.filter fun r => r.ruleType.isDomainType && r.domain = some x

/-- The domain rules of `x` that reach its subdomains. -/
def coveringRules (rules : List ParsedRule) (x : Str) : List ParsedRule :=
  (domainRules rules x).filter (·.matchSubdomains)

/-- The nearest parent of `q` with a rule that reaches its subdomains. -/
def coveringName (rules : List ParsedRule) (q : Str) : Option Str :=
  (parents q).find? fun x => coveringRules rules x ≠ []

/-- The rules that decide about `q`: those of `q`, else the covering ones of the nearest parent. -/
def decidingRules (rules : List ParsedRule) (q : Str) : List ParsedRule :=
  if domainRules rules q ≠ [] then domainRules rules q
  else match coveringName rules q with
    | none => []
    | some x => coveringRules rules x

theorem mem_domainRules {rules : List ParsedRule} {x : Str} {r : ParsedRule} :
    r ∈ domainRules rules x ↔
      r ∈ rules ∧ r.ruleType.isDomainType = true ∧ r.domain = some x := by
  simp [domainRules]

theorem mem_coveringRules {rules : List ParsedRule} {x : Str} {r : ParsedRule} :
    r ∈ coveringRules rules x ↔ r ∈ rules ∧ r.ruleType.isDomainType = true ∧ r.domain = some x
      ∧ r.matchSubdomains = true := by
  simp only [coveringRules, List.mem_filter, mem_domainRules, and_assoc]

/-- A rule matches `q` by naming it, or by covering one of its parents. -/
theorem matchKey_eq_some {r : ParsedRule} (hwf : r.wellFormed = true)
    (hv : r.validationState = .valid) (q : Str) (k : ℕ ×ₗ ℕ) :
    matchKey q r = some k ↔ r.ruleType.isDomainType = true ∧
      ((r.domain = some q ∧ k = toLex (1, labelCount q)) ∨
        ∃ d ∈ parents q, r.domain = some d ∧ r.matchSubdomains = true
          ∧ k = toLex (0, labelCount d)) := by
  by_cases ht : r.ruleType.isDomainType = true
  · obtain ⟨d, hd, hm⟩ := ParsedRule.domain_matches hwf hv ht
    have hne := matchesDomainRe_ne_nil hm
    by_cases hq : q = d
    · subst hq
      have hnot : ∀ d ∈ parents q, q ≠ d := fun d hd => (ne_of_mem_parents hd).symm
      simp only [matchKey, hd, ht, hne, ne_eq, not_false_eq_true, decide_true, Bool.and_self,
        if_true, Option.some.injEq, true_and]
      constructor
      · exact fun h => Or.inl h.symm
      · rintro (h | ⟨d, hp, h, -⟩)
        · exact h.symm
        · exact absurd h (hnot d hp)
    · simp only [matchKey, hd, ht, hne, ne_eq, not_false_eq_true, decide_true, Bool.and_self,
        if_true, hq, if_false, Option.some.injEq, true_and, Ne.symm hq, false_and, false_or,
        ← mem_parents_iff_endsWith, Bool.and_eq_true]
      constructor
      · intro h
        split_ifs at h with hc
        exact ⟨d, hc.2, rfl, hc.1, (Option.some.inj h).symm⟩
      · rintro ⟨d', hp, rfl, hs, rfl⟩
        rw [if_pos ⟨hs, hp⟩]
  · simp only [ht, Bool.false_eq_true, false_and, iff_false]
    unfold matchKey
    cases r.domain <;> simp [ht]

/-- The rows of one key. -/
theorem domainMatches_filter (rows : List StoredRule) (q : Str) (k : ℕ ×ₗ ℕ) :
    (((domainMatches rows q).filter (·.1 = k)).map (·.2)).map (·.toParsedRule)
      = (rows.map (·.toParsedRule)).filter fun r => matchKey q r = some k := by
  induction rows with
  | nil => rfl
  | cons row rows ih =>
      cases hk : matchKey q row.toParsedRule with
      | none => simpa [domainMatches, hk] using ih
      | some k' =>
          by_cases h : k' = k
          · simpa [domainMatches, hk, h] using ih
          · simpa [domainMatches, hk, h] using ih

theorem mem_domainMatches_keys {rows : List StoredRule} {q : Str} {k : ℕ ×ₗ ℕ} :
    k ∈ (domainMatches rows q).map (·.1) ↔
      ∃ r ∈ rows.map (·.toParsedRule), matchKey q r = some k := by
  simp only [domainMatches, List.mem_map, List.mem_filterMap, Option.map_eq_some_iff]
  constructor
  · rintro ⟨_, ⟨row, hrow, k', hk', rfl⟩, rfl⟩
    exact ⟨_, ⟨row, hrow, rfl⟩, hk'⟩
  · rintro ⟨_, ⟨row, hrow, rfl⟩, hk⟩
    exact ⟨(k, row), ⟨row, hrow, k, hk, rfl⟩, rfl⟩

/-- Among the parents of `q`, the number of labels tells them apart. -/
theorem eq_of_labelCount_eq {q a b : Str} (ha : a ∈ parents q) (hb : b ∈ parents q)
    (h : labelCount a = labelCount b) : a = b := by
  rcases parents_total ha hb with h' | h' | h'
  · exact h'
  · exact absurd (labelCount_lt_of_mem_parents h') (by omega)
  · exact absurd (labelCount_lt_of_mem_parents h') (by omega)

section

variable {rules : List ParsedRule}
  (hwf : ∀ r ∈ rules, r.wellFormed = true ∧ r.validationState = .valid)

include hwf

/-- The rules of the exact key are those that name `q`. -/
theorem filter_exactKey (q : Str) :
    rules.filter (fun r => matchKey q r = some (toLex (1, labelCount q))) = domainRules rules q := by
  refine List.filter_congr fun r hr => ?_
  rw [Bool.eq_iff_iff]
  simp only [decide_eq_true_eq, Bool.and_eq_true, matchKey_eq_some (hwf r hr).1 (hwf r hr).2]
  simp

/-- The rules of a parent's key are those that cover it. -/
theorem filter_parentKey {q x : Str} (hx : x ∈ parents q) :
    rules.filter (fun r => matchKey q r = some (toLex (0, labelCount x)))
      = coveringRules rules x := by
  rw [coveringRules, domainRules, List.filter_filter]
  refine List.filter_congr fun r hr => ?_
  rw [Bool.eq_iff_iff]
  simp only [decide_eq_true_eq, Bool.and_eq_true, matchKey_eq_some (hwf r hr).1 (hwf r hr).2]
  constructor
  · rintro ⟨ht, ⟨-, hk⟩ | ⟨d, hd, hdom, hs, hk⟩⟩
    · simp at hk
    · have : labelCount x = labelCount d := by simpa using hk
      rw [eq_of_labelCount_eq hx hd this]
      exact ⟨hs, ht, hdom⟩
  · rintro ⟨hs, ht, hdom⟩
    exact ⟨ht, Or.inr ⟨x, hx, hdom, hs, rfl⟩⟩

/-- The exact key is the greatest when a rule names `q`. -/
theorem key_le_exact {q : Str} {r : ParsedRule} (hr : r ∈ rules) {k : ℕ ×ₗ ℕ}
    (hk : matchKey q r = some k) : k ≤ toLex (1, labelCount q) := by
  rw [matchKey_eq_some (hwf r hr).1 (hwf r hr).2] at hk
  rcases hk.2 with ⟨-, rfl⟩ | ⟨d, -, -, -, rfl⟩
  · exact le_rfl
  · simp [Prod.Lex.toLex_le_toLex]

/-- Otherwise the key of the nearest covered parent is. -/
theorem key_le_parent {q x : Str} (hq : domainRules rules q = [])
    (hx : coveringName rules q = some x) {r : ParsedRule} (hr : r ∈ rules) {k : ℕ ×ₗ ℕ}
    (hk : matchKey q r = some k) : k ≤ toLex (0, labelCount x) := by
  rw [matchKey_eq_some (hwf r hr).1 (hwf r hr).2] at hk
  obtain ⟨ht, ⟨hdom, -⟩ | ⟨d, hd, hdom, hs, rfl⟩⟩ := hk
  · have : r ∈ domainRules rules q := mem_domainRules.mpr ⟨hr, ht, hdom⟩
    rw [hq] at this
    cases this
  · have hcov : coveringRules rules d ≠ [] :=
      List.ne_nil_of_mem (mem_coveringRules.mpr ⟨hr, ht, hdom, hs⟩)
    obtain ⟨-, nearer, farther, hsplit, hnear⟩ := List.find?_eq_some_iff_append.mp hx
    have hpw := labelCount_lt_of_parents q
    rw [hsplit, List.pairwise_append, List.pairwise_cons] at hpw
    have hle : labelCount d ≤ labelCount x := by
      rw [hsplit, List.mem_append, List.mem_cons] at hd
      rcases hd with hd | rfl | hd
      · exact absurd hcov (by simpa using hnear d hd)
      · exact le_rfl
      · exact (hpw.2.1.1 d hd).le
    simpa [Prod.Lex.toLex_le_toLex] using hle

end

/-- **The rows kept** are the deciding rules. -/
theorem bestMatches_spec (rows : List StoredRule) (q : Str)
    (hwf : ∀ r ∈ rows.map (·.toParsedRule), r.wellFormed = true ∧ r.validationState = .valid) :
    (bestMatches (domainMatches rows q)).map (·.toParsedRule)
      = decidingRules (rows.map (·.toParsedRule)) q := by
  have hbest : ∀ k, (∃ r ∈ rows.map (·.toParsedRule), matchKey q r = some k) →
      (∀ r ∈ rows.map (·.toParsedRule), ∀ k', matchKey q r = some k' → k' ≤ k) →
      (bestMatches (domainMatches rows q)).map (·.toParsedRule)
        = (rows.map (·.toParsedRule)).filter fun r => matchKey q r = some k := by
    intro k hmem hle
    have hmax : ((domainMatches rows q).map (·.1)).max? = some k := by
      rw [List.max?_eq_some_iff]
      refine ⟨mem_domainMatches_keys.mpr hmem, fun b hb => ?_⟩
      obtain ⟨r, hr, hk⟩ := mem_domainMatches_keys.mp hb
      exact hle r hr b hk
    rw [bestMatches, hmax]
    exact domainMatches_filter rows q k
  unfold decidingRules
  split_ifs with hq
  · obtain ⟨r, hr⟩ := List.exists_mem_of_ne_nil _ hq
    rw [← filter_exactKey hwf, List.mem_filter, decide_eq_true_eq] at hr
    rw [hbest _ ⟨r, hr⟩ fun r' hr' k' hk' => key_le_exact hwf hr' hk', filter_exactKey hwf]
  · rw [not_not] at hq
    cases hx : coveringName (rows.map (·.toParsedRule)) q with
    | some x =>
        obtain ⟨hcov, hp⟩ : coveringRules (rows.map (·.toParsedRule)) x ≠ [] ∧ x ∈ parents q :=
          ⟨by simpa using List.find?_some hx, List.mem_of_find?_eq_some hx⟩
        obtain ⟨r, hr⟩ := List.exists_mem_of_ne_nil _ hcov
        rw [← filter_parentKey hwf hp, List.mem_filter, decide_eq_true_eq] at hr
        rw [hbest _ ⟨r, hr⟩ fun r' hr' k' hk' => key_le_parent hwf hq hx hr' hk',
          filter_parentKey hwf hp]
    | none =>
        have hnone : (domainMatches rows q).map (·.1) = [] := by
          rw [List.eq_nil_iff_forall_not_mem]
          intro k hk
          obtain ⟨r, hr, hk⟩ := mem_domainMatches_keys.mp hk
          rw [matchKey_eq_some (hwf r hr).1 (hwf r hr).2] at hk
          obtain ⟨ht, ⟨hdom, -⟩ | ⟨d, hd, hdom, hs, -⟩⟩ := hk
          · have : r ∈ domainRules _ q := mem_domainRules.mpr ⟨hr, ht, hdom⟩
            rw [hq] at this
            cases this
          · refine absurd (List.find?_eq_none.mp hx d hd) ?_
            simpa using List.ne_nil_of_mem (mem_coveringRules.mpr ⟨hr, ht, hdom, hs⟩)
        rw [bestMatches, hnone]
        rfl

/-! ## The verdict -/

/-- What a query gets, as far as filtering is concerned. -/
inductive Outcome where
  | block
  | rewrite
  | unfiltered
  deriving DecidableEq

/-- A final action as an outcome; a local answer is not filtered. -/
def FinalAction.outcome : FinalAction → Outcome
  | .block => .block
  | .rewrite => .rewrite
  | .resolve | .allow | .localZone => .unfiltered

def hasType (t : RuleType) (rs : List ParsedRule) : Bool := rs.any (·.ruleType = t)

/-- Whether the blocks among `rs` outrank the allows. -/
def blockOutranks (rs : List ParsedRule) : Bool :=
  maxPriority (rs.filter (·.ruleType = .allow)) < maxPriority (rs.filter (·.ruleType = .block))

/-- The verdict of rules that apply to one name: rewrite, then allow unless outranked, then
block. -/
def rulesVerdict (rs : List ParsedRule) : Option Outcome :=
  if hasType .rewrite rs then some .rewrite
  else if hasType .allow rs then some (if blockOutranks rs then .block else .unfiltered)
  else if hasType .block rs then some .block
  else none

/-- Some rule of the regex type `t` matches `q`. -/
def regexHit (rx : Str → Str → Bool) (t : RuleType) (rules : List ParsedRule) (q : Str) : Bool :=
  rules.any fun r => r.ruleType = t && r.pattern.any (regexMatches rx · q)

theorem hasType_of_mem {rs : List ParsedRule} {r : ParsedRule} (hr : r ∈ rs) :
    hasType r.ruleType rs = true :=
  List.any_eq_true.mpr ⟨r, hr, by simp⟩

theorem not_blockOutranks {rs : List ParsedRule} (h : hasType .block rs = false) :
    blockOutranks rs = false := by
  have hnil : rs.filter (·.ruleType = .block) = [] := by
    rw [List.filter_eq_nil_iff]
    exact fun r hr => by simpa using List.any_eq_false.mp h r hr
  simp [blockOutranks, hnil, maxPriority]

/-- Rules of domain types always have a verdict. -/
theorem rulesVerdict_eq_none {rs : List ParsedRule}
    (hd : ∀ r ∈ rs, r.ruleType.isDomainType = true) : rulesVerdict rs = none ↔ rs = [] := by
  constructor
  · intro h
    by_contra hne
    obtain ⟨r, hr⟩ := List.exists_mem_of_ne_nil _ hne
    have ht := hasType_of_mem hr
    have hdr := hd r hr
    unfold rulesVerdict at h
    split_ifs at h with h1 h2 h3
    cases hrt : r.ruleType <;> rw [hrt] at ht hdr
    · exact h3 ht
    · exact h2 ht
    · exact h1 ht
    all_goals cases hdr
  · rintro rfl
    rfl

theorem filter_type_ne_nil (t : RuleType) (best : List StoredRule) :
    best.filter (·.ruleType = t) ≠ [] ↔ hasType t (best.map (·.toParsedRule)) = true := by
  simp [hasType, List.filter_eq_nil_iff]

theorem map_filter_type (t : RuleType) (best : List StoredRule) :
    (best.filter (·.ruleType = t)).map (·.toParsedRule)
      = (best.map (·.toParsedRule)).filter (·.ruleType = t) := by
  rw [List.filter_map]
  rfl

theorem bestVerdict_outcome {best : List StoredRule} (result : EvalResult) (hne : best ≠ [])
    (hd : ∀ r ∈ best, r.ruleType.isDomainType = true) :
    rulesVerdict (best.map (·.toParsedRule))
      = some (bestVerdict best result).finalAction.outcome := by
  have hsome : rulesVerdict (best.map (·.toParsedRule)) ≠ none := by
    rw [Ne, rulesVerdict_eq_none, List.map_eq_nil_iff]
    · exact hne
    · simpa using hd
  have hprio : ∀ t, maxPriority ((best.filter (·.ruleType = t)).map (·.toParsedRule))
      = maxPriority ((best.map (·.toParsedRule)).filter (·.ruleType = t)) := by
    intro t
    rw [map_filter_type]
  unfold bestVerdict
  unfold rulesVerdict at hsome ⊢
  simp only [filter_type_ne_nil, hprio, Bool.and_eq_true, decide_eq_true_eq]
  generalize best.map (·.toParsedRule) = rs at hsome ⊢
  by_cases hr : hasType .rewrite rs = true
  · simp [hr, FinalAction.outcome]
  · by_cases ha : hasType .allow rs = true
    · cases hb : hasType .block rs with
      | false => simp [hr, ha, not_blockOutranks hb, FinalAction.outcome]
      | true =>
          by_cases hp : maxPriority (rs.filter (·.ruleType = .allow))
              < maxPriority (rs.filter (·.ruleType = .block)) <;>
            simp [hr, ha, hp, blockOutranks, FinalAction.outcome]
    · by_cases hb : hasType .block rs = true
      · simp [hr, ha, hb, FinalAction.outcome]
      · simp [hr, ha, hb] at hsome

theorem regexHits_ne_nil (rx : Str → Str → Bool) (t : RuleType) (rows : List StoredRule)
    (q : Str) : regexHits rx t rows q ≠ [] ↔ regexHit rx t (rows.map (·.toParsedRule)) q = true := by
  simp [regexHits, regexHit, List.filter_eq_nil_iff]

theorem decidingRules_isDomainType {rules : List ParsedRule} {q : Str} {r : ParsedRule}
    (hr : r ∈ decidingRules rules q) : r.ruleType.isDomainType = true := by
  unfold decidingRules at hr
  split_ifs at hr with hq
  · exact (mem_domainRules.mp hr).2.1
  · split at hr
    · cases hr
    · exact (mem_coveringRules.mp hr).2.1

/-- The final action outside the local zones, branch by branch. -/
theorem evaluateName_finalAction {rx : Str → Str → Bool} {zones : List Str}
    {table : List StoredRule} {zone : Option (List RpzLine)} {q : Str}
    (hz : zones.find? (inZone q) = none)
    (hbest : bestMatches (domainMatches (table.filter (·.isActive)) q) = []) :
    (evaluateName rx zones table zone q).finalAction =
      if regexHits rx .regexAllow (table.filter (·.isActive)) q ≠ [] then
        if (rpzStatus zone q).blocked then .block else .allow
      else if regexHits rx .regexBlock (table.filter (·.isActive)) q ≠ [] then .block
      else if (rpzStatus zone q).blocked then .block else .resolve := by
  unfold evaluateName
  rw [hz]
  dsimp only
  rw [if_neg (not_not_intro hbest), apply_ite EvalResult.finalAction]
  refine ite_congr rfl (fun _ => apply_ite EvalResult.finalAction _ _ _) fun _ => ?_
  rw [apply_ite EvalResult.finalAction]
  exact ite_congr rfl (fun _ => rfl) fun _ => apply_ite EvalResult.finalAction _ _ _

/-- **The panel's verdict** outside the local zones. -/
theorem evaluateName_outcome {rx : Str → Str → Bool} {zones : List Str} {table : List StoredRule}
    {zone : Option (List RpzLine)} {q : Str} (hz : zones.find? (inZone q) = none) :
    (evaluateName rx zones table zone q).finalAction.outcome =
      (rulesVerdict (decidingRules (activeRules table) q)).getD
        (if regexHit rx .regexBlock (activeRules table) q
            && !regexHit rx .regexAllow (activeRules table) q || (rpzStatus zone q).blocked
          then .block else .unfiltered) := by
  have hbest : (bestMatches (domainMatches (table.filter (·.isActive)) q)).map (·.toParsedRule)
      = decidingRules (activeRules table) q :=
    bestMatches_spec _ q fun r hr => activeRules_wellFormed hr
  have hrows : (table.filter (·.isActive)).map (·.toParsedRule) = activeRules table := rfl
  by_cases hne : bestMatches (domainMatches (table.filter (·.isActive)) q) = []
  · have hnone : rulesVerdict (decidingRules (activeRules table) q) = none := by
      rw [← hbest, hne]
      rfl
    rw [evaluateName_finalAction hz hne, hnone, Option.getD_none]
    simp only [regexHits_ne_nil, hrows]
    cases regexHit rx .regexAllow (activeRules table) q <;>
      cases regexHit rx .regexBlock (activeRules table) q <;>
      cases (rpzStatus zone q).blocked <;> rfl
  · unfold evaluateName
    rw [hz]
    dsimp only
    rw [if_pos hne, ← hbest, bestVerdict_outcome _ hne, Option.getD_some]
    intro r hr
    exact decidingRules_isDomainType (hbest ▸ List.mem_map_of_mem hr)

end AlderpointDNS
