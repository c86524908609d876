import AlderpointDNS.CustomRules.Rule
import AlderpointDNS.CustomRules.Regex

/-!
# The rule parser

`parseRule` classifies one rule line (`custom_rules.parse_rule`): comments, regex rules, hosts
lines and AdGuard-style domain rules with modifiers.  What depends on Python's Unicode tables or
on its regex compiler is collected in `ParserData`.

* **`parseRule_parsed`** — every rule it returns is either kept inactive, or its normalized text
  is the one `NormalForm` gives for its action and effect; so it can be stored
  (`ParsedRule.Parsed.wellFormed`).
* **`NormalForm.unique`** — conversely the normalized text and the action determine the effect.
-/

namespace AlderpointDNS

open Text Ipaddress

/-- What the parser takes from Python. -/
structure ParserData extends UnicodeData where
  /-- `str.upper`, for text that is not ASCII. -/
  upper : Str → Str
  /-- `str.isalnum` of a character that is not ASCII. -/
  isAlnum : Char → Bool
  /-- The message of the `re.error` that `re.compile` raises. -/
  compileError : Str → Option Str

def ParserData.toUpper (d : ParserData) (s : Str) : Str :=
  if isAscii s then s.map Char.toUpper else d.upper s

def ParserData.alnum (d : ParserData) (c : Char) : Bool :=
  if c.toNat < 128 then c.isAlphanum else d.isAlnum c

/-! ## Rules that are kept inactive -/

/-- `_invalid`. -/
def invalid (text reason : Str) : ParsedRule where
  ruleText := text
  normalized := text
  validationState := .invalid
  unsupportedReason := reason

/-- `_unsupported`. -/
def unsupported (rule : ParsedRule) (reason : Str) : ParsedRule :=
  { rule with
    ruleType := .unsupported
    action := .none
    validationState := .unsupported
    unsupportedReason := reason }

/-- `UNSUPPORTED_MODIFIER_REASONS.get(name, ...)`. -/
def unsupportedModifierReason (name : Str) : Str :=
  if name = "client".toList then
    ("modifier $client cannot be preserved: Alderpoint DNS has no per-client rule "
      ++ "enforcement").toList
  else if name = "ctag".toList then
    "modifier $ctag cannot be preserved: Alderpoint DNS has no client tags".toList
  else if name = "denyallow".toList then
    ("modifier $denyallow cannot be preserved: per-rule domain exclusions are not "
      ++ "supported").toList
  else if name = "dnstype".toList then
    ("modifier $dnstype cannot be preserved: query-type restricted rules are not "
      ++ "supported").toList
  else if name = "badfilter".toList then
    ("modifier $badfilter cannot be preserved: rule-cancellation rules are not "
      ++ "supported").toList
  else "modifier $".toList ++ name
    ++ (" is not supported; the rule was kept inactive instead of activating a broadened "
      ++ "rule").toList

/-! ## Modifiers -/

/-- `isinstance(ip, IPv4Address)` as an address family. -/
def familyOf (ip : IpAddress) : AddressFamily := if ip.isV4 then .ipv4 else .ipv6

/-- `_parse_dnsrewrite`. -/
def parseDnsrewrite (d : ParserData) (value : Str) : Except Str IpAddress :=
  let failed (why : String) : Except Str IpAddress :=
    .error ("modifier $dnsrewrite=".toList ++ value ++ " cannot be preserved: ".toList
      ++ why.toList)
  let address (candidate : Str) : Except Str IpAddress :=
    match ipAddress candidate with
    | none => failed "the rewrite target is not an IP address"
    | some ip => .ok ip
  match split ';' value with
  | [only] => address (strip only)
  | [rcode, rtype, target] =>
      let rtype := d.toUpper (strip rtype)
      if d.toUpper (strip rcode) = "NOERROR".toList && (rtype = "A".toList || rtype = "AAAA".toList)
      then match address (strip target) with
        | .error reason => .error reason
        | .ok ip =>
            if rtype ≠ (if ip.isV4 then "A".toList else "AAAA".toList) then
              failed "record type does not match the address family"
            else .ok ip
      else failed "only plain A/AAAA address rewrites are supported"
  | _ => failed "only plain A/AAAA address rewrites are supported"

/-- The loop of `_parse_modifiers` over the comma-separated parts. -/
def parseModifierParts (d : ParserData) (rule : ParsedRule) : List Str → ParsedRule
  | [] => rule
  | part :: parts =>
      let raw := strip part
      if raw = [] then parseModifierParts d rule parts
      else
        let name := d.toLower (strip (partition '=' raw).1)
        if name = "important".toList then
          parseModifierParts d { rule with priority := importantPriority } parts
        else if name = "dnsrewrite".toList then
          if rule.action = .allow then
            unsupported rule
              "modifier $dnsrewrite cannot be preserved on an exception rule".toList
          else match parseDnsrewrite d (partition '=' raw).2 with
            | .error reason => unsupported rule reason
            | .ok ip =>
                parseModifierParts d
                  { rule with
                    ruleType := .rewrite
                    action := .rewrite
                    rewriteAddress := some ip.str
                    addressFamily := some (familyOf ip) } parts
        else unsupported rule (unsupportedModifierReason name)

/-- `_parse_modifiers`. -/
def parseModifiers (d : ParserData) (rule : ParsedRule) (modifierText : Str) : ParsedRule :=
  parseModifierParts d rule (split ',' modifierText)

/-! ## Regex rules -/

def isControl (c : Char) : Bool := c.toNat < 32 || c.toNat = 127

/-- `_validate_regex`. -/
def validateRegex (d : ParserData) (rule : ParsedRule) : ParsedRule :=
  let pattern := rule.pattern.getD []
  if maxRegexLength < pattern.length then
    unsupported rule "regex exceeds the 512 character limit".toList
  else if pattern.any isControl then
    unsupported rule "regex contains control characters or newlines".toList
  else match d.compileError pattern with
    | some exc => unsupported rule ("regex does not compile: ".toList ++ exc)
    | none =>
        match posixEreIncompatibility d.alnum pattern with
        | some reason => unsupported rule reason
        | none =>
            match nestedQuantifierRisk pattern with
            | some reason => unsupported rule reason
            | none => rule

/-- The pattern with its slashes, and the modifier text. -/
def splitRegexModifiers (body : Str) : Str × Str :=
  if endsWith body ['/'] then (body, [])
  else match rfind "/$".toList body with
    | none => (body, [])
    | some idx => if 0 < idx then (body.take (idx + 1), body.drop (idx + 2)) else (body, [])

/-- `_parse_regex_rule`. -/
def parseRegexRule (d : ParserData) (raw : Str) : ParsedRule :=
  let isAllow := startsWith raw "@@".toList
  let (body, modifierText) := splitRegexModifiers (if isAllow then raw.drop 2 else raw)
  if body.length < 3 || !startsWith body ['/'] || !endsWith body ['/'] then
    invalid raw "regex rules must be enclosed in / /".toList
  else
    let pattern := (body.drop 1).dropLast
    let rule := validateRegex d
      { ruleText := raw
        normalized := (if isAllow then "@@".toList else []) ++ '/' :: pattern ++ ['/']
        ruleType := if isAllow then .regexAllow else .regexBlock
        action := if isAllow then .allow else .block
        pattern := some pattern }
    if rule.validationState = .valid && modifierText ≠ [] then
      let rule := parseModifiers d rule modifierText
      if rule.ruleType = .rewrite then
        unsupported rule "modifier $dnsrewrite cannot be preserved on a regex rule".toList
      else rule
    else rule

/-! ## Hosts lines -/

/-- `BLOCKING_SENTINELS`. -/
def blockingSentinels : List Str := ["0.0.0.0".toList, "::".toList]

/-- One host of `_parse_hosts_line`; `word` is the address as written. -/
def parseHost (d : ParserData) (ip : IpAddress) (word inlineComment host : Str) : ParsedRule :=
  let text := word ++ ' ' :: host
  match normalizeDomain d.toUnicodeData host with
  | none => invalid text ('\'' :: host ++ "' is not a valid hostname".toList)
  | some domain =>
      if ip.str ∈ blockingSentinels then
        { ruleText := text
          normalized := '|' :: domain ++ ['^']
          ruleType := .block
          action := .block
          domain := some domain
          comment := inlineComment }
      else
        { ruleText := text
          normalized := ip.str ++ ' ' :: domain
          ruleType := .rewrite
          action := .rewrite
          domain := some domain
          rewriteAddress := some ip.str
          addressFamily := some (familyOf ip)
          comment := inlineComment }

/-- `_parse_hosts_line`; empty when the line does not start with an address. -/
def parseHostsLine (d : ParserData) (raw : Str) : List ParsedRule :=
  let (body, inline) := partition '#' raw
  match words body with
  | [] => []
  | word :: hosts =>
      match ipAddress word with
      | none => []
      | some ip =>
          if hosts = [] then [invalid raw "hosts entry has no hostname".toList]
          else hosts.map (parseHost d ip word (strip inline))

/-! ## Domain rules -/

/-- `||` or `|`. -/
def anchor (matchSubdomains : Bool) : Str := if matchSubdomains then "||".toList else ['|']

/-- `_normalized_form`. -/
def normalizedForm (rule : ParsedRule) : Str :=
  let domain := rule.domain.getD []
  if rule.ruleType = .rewrite then
    anchor rule.matchSubdomains ++ domain ++ '^' :: "$dnsrewrite=".toList
      ++ rule.rewriteAddress.getD []
  else (if rule.action = .allow then "@@".toList else [])
    ++ anchor rule.matchSubdomains ++ domain ++ ['^']

/-- One round of the terminator loop; `none` when something follows the terminator. -/
def cutTerminator (terminator : Char) (candidate : Str) : Option Str :=
  if candidate.contains terminator then
    if (partition terminator candidate).2 = [] then some (partition terminator candidate).1
    else none
  else some candidate

/-- The part of `parse_rule` after the special forms. -/
def parseDomainRule (d : ParserData) (plainDomainSubdomains : Bool) (raw : Str) : ParsedRule :=
  let isAllow := startsWith raw "@@".toList
  let body := if isAllow then raw.drop 2 else raw
  let (base, modifierText) := partition '$' body
  let base := strip base
  let (matchSubdomains, candidate) :=
    if startsWith base "||".toList then (true, base.drop 2)
    else if startsWith base ['|'] then (false, base.drop 1)
    else (plainDomainSubdomains, base)
  let rule : ParsedRule :=
    { ruleText := raw
      normalized := raw
      ruleType := if isAllow then .allow else .block
      action := if isAllow then .allow else .block
      matchSubdomains := matchSubdomains }
  match (cutTerminator '^' candidate).bind (cutTerminator '|') with
  | none =>
      unsupported rule
        "rules with a path or anchor after the domain are not supported for DNS filtering".toList
  | some candidate =>
      match normalizeDomain d.toUnicodeData candidate with
      | none => invalid raw ('\'' :: candidate ++ "' is not a valid domain name".toList)
      | some domain =>
          let rule := { rule with domain := some domain }
          let rule := if modifierText = [] then rule else parseModifiers d rule modifierText
          if rule.validationState ≠ .valid then rule
          else { rule with normalized := normalizedForm rule }

/-- The markers of cosmetic and scriptlet rules. -/
def cosmeticMarkers : List Str := ["##".toList, "#@#".toList, "#%#".toList, "#$#".toList]

/-- `parse_rule`. -/
def parseRule (d : ParserData) (plainDomainSubdomains : Bool) (text : Str) : List ParsedRule :=
  let raw := strip text
  if raw = [] then []
  else if raw.contains '\n' || raw.contains '\r' then
    [invalid (((splitlines raw).head?.getD []).take 120) "a rule must be a single line".toList]
  else if raw.any fun c => isControl c && c ≠ '\t' then
    [invalid raw "rule contains control characters".toList]
  else if startsWith raw ['!'] || startsWith raw ['#'] then
    [{ ruleText := raw
       normalized := raw
       ruleType := .comment
       comment := strip (raw.dropWhile fun c => c = '!' || c = '#') }]
  else if startsWith raw ['/'] || startsWith raw "@@/".toList then [parseRegexRule d raw]
  else if parseHostsLine d raw ≠ [] then parseHostsLine d raw
  else if cosmeticMarkers.any (isSubstring · raw) then
    [unsupported { ruleText := raw, normalized := raw }
      "cosmetic and scriptlet rules have no DNS effect and are not supported".toList]
  else [parseDomainRule d plainDomainSubdomains raw]

/-- Text that is not blank is parsed to something. -/
theorem parseRule_ne_nil (d : ParserData) (plainDomainSubdomains : Bool) {text : Str}
    (h : strip text ≠ []) : parseRule d plainDomainSubdomains text ≠ [] := by
  unfold parseRule
  simp only [h, if_false]
  split_ifs with _ _ _ _ hhosts
  · exact List.cons_ne_nil _ _
  · exact List.cons_ne_nil _ _
  · exact List.cons_ne_nil _ _
  · exact List.cons_ne_nil _ _
  · exact hhosts
  · exact List.cons_ne_nil _ _
  · exact List.cons_ne_nil _ _

/-! ## The effect of a rule and its normalized text -/

/-- What a rule does, its priority apart. -/
structure RuleEffect where
  ruleType : RuleType
  domain : Option Str
  matchSubdomains : Bool
  pattern : Option Str
  rewriteAddress : Option Str
  addressFamily : Option AddressFamily
  deriving DecidableEq

def ParsedRule.effect (r : ParsedRule) : RuleEffect :=
  ⟨r.ruleType, r.domain, r.matchSubdomains, r.pattern, r.rewriteAddress, r.addressFamily⟩

/-- The normalized text of a valid rule, by action and effect. -/
inductive NormalForm : RuleAction → RuleEffect → Str → Prop
  | block {dom : Str} (sub : Bool) (h : matchesDomainRe dom = true) :
      NormalForm .block ⟨.block, some dom, sub, none, none, none⟩ (anchor sub ++ dom ++ ['^'])
  | allow {dom : Str} (sub : Bool) (h : matchesDomainRe dom = true) :
      NormalForm .allow ⟨.allow, some dom, sub, none, none, none⟩
        ("@@".toList ++ anchor sub ++ dom ++ ['^'])
  | rewrite {dom : Str} (sub : Bool) (ip : IpAddress) (h : matchesDomainRe dom = true) :
      NormalForm .rewrite ⟨.rewrite, some dom, sub, none, some ip.str, some (familyOf ip)⟩
        (anchor sub ++ dom ++ '^' :: "$dnsrewrite=".toList ++ ip.str)
  | hosts {dom : Str} (ip : IpAddress) (h : matchesDomainRe dom = true) :
      NormalForm .rewrite ⟨.rewrite, some dom, false, none, some ip.str, some (familyOf ip)⟩
        (ip.str ++ ' ' :: dom)
  | regexBlock {pattern : Str} (h : pattern ≠ []) :
      NormalForm .block ⟨.regexBlock, none, false, some pattern, none, none⟩
        ('/' :: pattern ++ ['/'])
  | regexAllow {pattern : Str} (h : pattern ≠ []) :
      NormalForm .allow ⟨.regexAllow, none, false, some pattern, none, none⟩
        ("@@".toList ++ '/' :: pattern ++ ['/'])
  | comment (text : Str) : NormalForm .none ⟨.comment, none, false, none, none, none⟩ text

/-- A rule kept inactive, or a valid rule in normal form. -/
inductive ParsedRule.Parsed (r : ParsedRule) : Prop
  | inactive (hv : r.validationState ≠ .valid) (ht : r.ruleType = .unsupported)
      (ha : r.action = .none)
  | valid (hv : r.validationState = .valid) (h : NormalForm r.action r.effect r.normalized)

theorem ParsedRule.Parsed.wellFormed {r : ParsedRule} (h : r.Parsed) : r.wellFormed = true := by
  cases h with
  | inactive hv ht ha => simp [ParsedRule.wellFormed, hv, ht, ha]
  | valid hv h =>
      generalize haction : r.action = a at h
      generalize heffect : r.effect = e at h
      generalize r.normalized = text at h
      simp only [effect] at heffect
      rw [ParsedRule.wellFormed, if_pos hv]
      cases h <;> simp only [RuleEffect.mk.injEq] at heffect <;>
        obtain ⟨h1, h2, h3, h4, h5, h6⟩ := heffect <;>
        simp_all [str_ne_nil]

/-! ### What the parser returns -/

theorem parsed_invalid (text reason : Str) : (invalid text reason).Parsed :=
  .inactive (fun h => nomatch h) rfl rfl

theorem parsed_unsupported (rule : ParsedRule) (reason : Str) : (unsupported rule reason).Parsed :=
  .inactive (fun h => nomatch h) rfl rfl

/-- What modifiers do to a rule: reject it, set its priority, or make it a rewrite. -/
inductive Modified (rule : ParsedRule) : ParsedRule → Prop
  | rejected (r : ParsedRule) (reason : Str) : Modified rule (unsupported r reason)
  | priority (n : ℕ) : Modified rule { rule with priority := n }
  | rewrite (n : ℕ) (ip : IpAddress) (h : rule.action ≠ .allow) :
      Modified rule { rule with
        priority := n
        ruleType := .rewrite
        action := .rewrite
        rewriteAddress := some ip.str
        addressFamily := some (familyOf ip) }

theorem modified_parseModifierParts (d : ParserData) (parts : List Str) (rule : ParsedRule) :
    Modified rule (parseModifierParts d rule parts) := by
  induction parts generalizing rule with
  | nil => exact .priority rule.priority
  | cons part parts ih =>
      unfold parseModifierParts
      dsimp only
      split_ifs with h1 h2 h3 h4
      · exact ih rule
      · generalize hr : parseModifierParts d _ parts = r
        have := ih { rule with priority := importantPriority }
        rw [hr] at this
        cases this with
        | rejected r reason => exact .rejected r reason
        | priority n => exact .priority n
        | rewrite n ip h => exact .rewrite n ip h
      · exact .rejected _ _
      · split
        · exact .rejected _ _
        · rename_i ip _
          generalize hr : parseModifierParts d _ parts = r
          have := ih { rule with
            ruleType := .rewrite
            action := .rewrite
            rewriteAddress := some ip.str
            addressFamily := some (familyOf ip) }
          rw [hr] at this
          cases this with
          | rejected r reason => exact .rejected r reason
          | priority n => exact .rewrite n ip h4
          | rewrite n ip' _ => exact .rewrite n ip' h4
      · exact .rejected _ _

theorem validateRegex_cases (d : ParserData) (rule : ParsedRule) :
    validateRegex d rule = rule ∨ ∃ reason, validateRegex d rule = unsupported rule reason := by
  unfold validateRegex
  dsimp only
  split_ifs
  · exact Or.inr ⟨_, rfl⟩
  · exact Or.inr ⟨_, rfl⟩
  · split
    · exact Or.inr ⟨_, rfl⟩
    · split
      · exact Or.inr ⟨_, rfl⟩
      · split
        · exact Or.inr ⟨_, rfl⟩
        · exact Or.inl rfl

theorem parsed_regexRule (d : ParserData) (raw : Str) : (parseRegexRule d raw).Parsed := by
  unfold parseRegexRule
  dsimp only
  generalize startsWith raw "@@".toList = isAllow
  generalize splitRegexModifiers _ = parts
  obtain ⟨body, modifierText⟩ := parts
  dsimp only
  by_cases hbody : (body.length < 3 || !startsWith body ['/'] || !endsWith body ['/']) = true
  · rw [if_pos hbody]
    exact parsed_invalid _ _
  · rw [if_neg hbody]
    have hne : (body.drop 1).dropLast ≠ [] := by
      simp only [Bool.or_eq_true, decide_eq_true_eq, not_or] at hbody
      intro h
      have := congrArg List.length h
      simp only [List.length_dropLast, List.length_drop, List.length_nil] at this
      omega
    generalize (body.drop 1).dropLast = pattern at hne
    generalize hrule : ParsedRule.mk raw _ _ _ _ _ _ _ _ _ _ _ _ = rule
    have hform : NormalForm rule.action rule.effect rule.normalized := by
      subst hrule
      cases isAllow
      · exact .regexBlock hne
      · exact .regexAllow hne
    have hv : rule.validationState = .valid := by rw [← hrule]
    rcases validateRegex_cases d rule with hval | ⟨reason, hval⟩
    · rw [hval]
      split_ifs with hmod hrw
      · exact parsed_unsupported _ _
      · have hm := modified_parseModifierParts d (split ',' modifierText) rule
        unfold parseModifiers at hrw ⊢
        generalize parseModifierParts d rule (split ',' modifierText) = r at hm hrw
        cases hm with
        | rejected r reason => exact parsed_unsupported _ _
        | priority n => exact .valid hv hform
        | rewrite n ip _ => exact absurd rfl hrw
      · exact .valid hv hform
    · rw [hval, if_neg (by simp [unsupported])]
      exact parsed_unsupported _ _

theorem parsed_host (d : ParserData) (ip : IpAddress) (word inline host : Str) :
    (parseHost d ip word inline host).Parsed := by
  unfold parseHost
  cases hd : normalizeDomain d.toUnicodeData host with
  | none => exact parsed_invalid _ _
  | some dom =>
      have hm := normalizeDomain_matches hd
      dsimp only
      split_ifs
      · exact .valid rfl (.block false hm)
      · exact .valid rfl (.hosts ip hm)

theorem parsed_hostsLine (d : ParserData) (raw : Str) : ∀ r ∈ parseHostsLine d raw, r.Parsed := by
  unfold parseHostsLine
  intro r hr
  dsimp only at hr
  split at hr
  · cases hr
  · split at hr
    · cases hr
    · split_ifs at hr
      · rw [List.mem_singleton.mp hr]
        exact parsed_invalid _ _
      · obtain ⟨host, -, rfl⟩ := List.mem_map.mp hr
        exact parsed_host _ _ _ _ _

/-- A domain rule gets the normalized text of its final type. -/
theorem normalForm_normalizedForm {rule r : ParsedRule} {dom : Str} (isAllow : Bool)
    (hm : matchesDomainRe dom = true) (hd : rule.domain = some dom)
    (ht : rule.ruleType = if isAllow then .allow else .block)
    (ha : rule.action = if isAllow then .allow else .block) (hp : rule.pattern = none)
    (haddr : rule.rewriteAddress = none) (hfam : rule.addressFamily = none)
    (hv : rule.validationState = .valid) (hmod : Modified rule r) :
    (if r.validationState ≠ .valid then r else { r with normalized := normalizedForm r }).Parsed := by
  have hbase : ∀ n, { rule with priority := n, normalized := normalizedForm rule }.Parsed := by
    intro n
    refine .valid hv ?_
    cases isAllow
    · have : NormalForm .block ⟨.block, some dom, rule.matchSubdomains, none, none, none⟩
          (anchor rule.matchSubdomains ++ dom ++ ['^']) := .block _ hm
      simpa [ParsedRule.effect, normalizedForm, hd, ht, ha, hp, haddr, hfam] using this
    · have : NormalForm .allow ⟨.allow, some dom, rule.matchSubdomains, none, none, none⟩
          ("@@".toList ++ anchor rule.matchSubdomains ++ dom ++ ['^']) := .allow _ hm
      simpa [ParsedRule.effect, normalizedForm, hd, ht, ha, hp, haddr, hfam] using this
  cases hmod with
  | rejected r reason =>
      rw [if_pos (by simp [unsupported])]
      exact parsed_unsupported _ _
  | priority n =>
      rw [if_neg (by simp [hv])]
      exact hbase n
  | rewrite n ip hne =>
      rw [if_neg (by simp [hv])]
      refine .valid hv ?_
      have : NormalForm .rewrite ⟨.rewrite, some dom, rule.matchSubdomains, none, some ip.str,
          some (familyOf ip)⟩ (anchor rule.matchSubdomains ++ dom ++ '^' :: "$dnsrewrite=".toList
            ++ ip.str) := .rewrite _ ip hm
      simpa [ParsedRule.effect, normalizedForm, hd, hp] using this

theorem parsed_domainRule (d : ParserData) (plain : Bool) (raw : Str) :
    (parseDomainRule d plain raw).Parsed := by
  unfold parseDomainRule
  dsimp only
  generalize startsWith raw "@@".toList = isAllow
  generalize partition '$' _ = parts
  obtain ⟨base, modifierText⟩ := parts
  dsimp only
  generalize (if startsWith (strip base) "||".toList then (true, (strip base).drop 2)
    else if startsWith (strip base) ['|'] then (false, (strip base).drop 1)
    else (plain, strip base)) = scope
  obtain ⟨sub, candidate⟩ := scope
  dsimp only
  split
  · exact parsed_unsupported _ _
  · split
    · exact parsed_invalid _ _
    · rename_i dom hdom
      generalize hrule : ParsedRule.mk raw _ _ _ (some dom) _ _ _ _ _ _ _ _ = rule
      have hmod : Modified rule
          (if modifierText = [] then rule else parseModifiers d rule modifierText) := by
        split_ifs
        · exact .priority rule.priority
        · exact modified_parseModifierParts d _ _
      exact normalForm_normalizedForm isAllow (normalizeDomain_matches hdom) (by rw [← hrule])
        (by rw [← hrule]) (by rw [← hrule]) (by rw [← hrule]) (by rw [← hrule]) (by rw [← hrule])
        (by rw [← hrule]) hmod

/-- **Every rule the parser returns is inactive or in normal form.** -/
theorem parseRule_parsed (d : ParserData) (plain : Bool) (text : Str) :
    ∀ r ∈ parseRule d plain text, r.Parsed := by
  unfold parseRule
  dsimp only
  split_ifs
  · simp
  · simp only [List.mem_singleton, forall_eq]
    exact parsed_invalid _ _
  · simp only [List.mem_singleton, forall_eq]
    exact parsed_invalid _ _
  · simp only [List.mem_singleton, forall_eq]
    exact .valid rfl (.comment _)
  · simp only [List.mem_singleton, forall_eq]
    exact parsed_regexRule d _
  · exact parsed_hostsLine d _
  · simp only [List.mem_singleton, forall_eq]
    exact parsed_unsupported _ _
  · simp only [List.mem_singleton, forall_eq]
    exact parsed_domainRule d _ _

/-! ### The normalized text determines the effect -/

theorem notMem_of_isDomainChar {dom : Str} (h : matchesDomainRe dom = true) {c : Char}
    (hc : isDomainChar c = false) : c ∉ dom := by
  intro hmem
  rw [isDomainChar_of_mem h hmem] at hc
  cases hc

/-- The anchor can be read off the text before a domain. -/
theorem anchor_append_inj {sub sub' : Bool} {dom dom' s t : Str}
    (h : matchesDomainRe dom = true) (h' : matchesDomainRe dom' = true)
    (heq : anchor sub ++ dom ++ s = anchor sub' ++ dom' ++ t) :
    sub = sub' ∧ dom ++ s = dom' ++ t := by
  have hpipe : ∀ {x y u : Str}, matchesDomainRe y = true → '|' :: x ≠ y ++ u := by
    intro x y u hy hxy
    obtain ⟨c, cs, rfl⟩ := List.exists_cons_of_ne_nil (matchesDomainRe_ne_nil hy)
    obtain ⟨rfl, -⟩ := List.cons.inj hxy
    exact notMem_of_isDomainChar hy (by decide) List.mem_cons_self
  simp only [List.append_assoc] at heq
  cases sub <;> cases sub'
  · exact ⟨rfl, List.append_cancel_left heq⟩
  · have hdom : dom ++ s = '|' :: (dom' ++ t) := (List.cons.inj heq).2
    exact absurd hdom.symm (hpipe h)
  · have hdom : '|' :: (dom ++ s) = dom' ++ t := (List.cons.inj heq).2
    exact absurd hdom (hpipe h')
  · exact ⟨rfl, List.append_cancel_left heq⟩

theorem head_anchor (sub : Bool) (s : Str) : (anchor sub ++ s).head? = some '|' := by
  cases sub <;> rfl

/-- Two texts that start with different characters are different. -/
theorem ne_of_head?_ne {s t : Str} (h : s.head? ≠ t.head?) : s ≠ t := fun e => h (congrArg _ e)

/-- A domain rule's text determines scope and domain. -/
theorem anchor_caret_inj {sub sub' : Bool} {dom dom' s t : Str}
    (h : matchesDomainRe dom = true) (h' : matchesDomainRe dom' = true)
    (heq : anchor sub ++ dom ++ '^' :: s = anchor sub' ++ dom' ++ '^' :: t) :
    sub = sub' ∧ dom = dom' ∧ s = t := by
  obtain ⟨hsub, hdom⟩ := anchor_append_inj h h' heq
  exact ⟨hsub, append_cons_inj (notMem_of_isDomainChar h (by decide))
    (notMem_of_isDomainChar h' (by decide)) hdom⟩

/-- A hosts line does not start like a domain rule. -/
theorem hosts_ne_anchor (ip : IpAddress) (dom : Str) (sub : Bool) (s : Str) :
    ip.str ++ ' ' :: dom ≠ anchor sub ++ s := by
  refine ne_of_head?_ne ?_
  obtain ⟨c, hc, hstart⟩ := str_head ip
  obtain ⟨cs, hcs⟩ := List.head?_eq_some_iff.mp hc
  rw [head_anchor, hcs]
  rintro h
  cases h
  exact absurd hstart (by decide)

theorem familyOf_eq {a b : IpAddress} (h : a.str = b.str) : familyOf a = familyOf b := by
  rw [familyOf, familyOf, isV4_eq_of_str_eq h]

/-- **The action and the normalized text determine the effect.** -/
theorem NormalForm.unique {a : RuleAction} {e e' : RuleEffect} {text text' : Str}
    (h : NormalForm a e text) (h' : NormalForm a e' text') (heq : text = text') : e = e' := by
  cases h with
  | comment =>
      cases h'
      rfl
  | @block dom sub hd =>
      cases h' with
      | @block dom' sub' hd' =>
          obtain ⟨rfl, rfl, -⟩ := anchor_caret_inj hd hd' heq
          rfl
      | @regexBlock pattern _ =>
          rw [List.append_assoc] at heq
          exact absurd heq (ne_of_head?_ne (by rw [head_anchor]; simp))
  | @regexBlock pattern _ =>
      cases h' with
      | @block dom' sub' hd' =>
          rw [List.append_assoc] at heq
          exact absurd heq.symm (ne_of_head?_ne (by rw [head_anchor]; simp))
      | @regexBlock pattern' _ =>
          have : pattern = pattern' := by simpa using heq
          rw [this]
  | @allow dom sub hd =>
      cases h' with
      | @allow dom' sub' hd' =>
          simp only [List.append_assoc] at heq
          have := List.append_cancel_left heq
          simp only [← List.append_assoc] at this
          obtain ⟨rfl, rfl, -⟩ := anchor_caret_inj hd hd' this
          rfl
      | @regexAllow pattern _ =>
          simp only [List.append_assoc] at heq
          exact absurd (List.append_cancel_left heq) (ne_of_head?_ne (by rw [head_anchor]; simp))
  | @regexAllow pattern _ =>
      cases h' with
      | @allow dom' sub' hd' =>
          simp only [List.append_assoc] at heq
          exact absurd (List.append_cancel_left heq).symm
            (ne_of_head?_ne (by rw [head_anchor]; simp))
      | @regexAllow pattern' _ =>
          have : pattern = pattern' := by simpa using heq
          rw [this]
  | @rewrite dom sub ip hd =>
      cases h' with
      | @rewrite dom' sub' ip' hd' =>
          simp only [List.append_assoc, List.cons_append] at heq
          simp only [← List.append_assoc] at heq
          obtain ⟨rfl, rfl, hrest⟩ := anchor_caret_inj hd hd' heq
          have hip : ip.str = ip'.str := List.append_cancel_left hrest
          rw [hip, familyOf_eq hip]
      | @hosts dom' ip' hd' =>
          simp only [List.append_assoc] at heq
          exact absurd heq.symm (hosts_ne_anchor _ _ _ _)
  | @hosts dom ip hd =>
      cases h' with
      | @rewrite dom' sub' ip' hd' =>
          simp only [List.append_assoc] at heq
          exact absurd heq (hosts_ne_anchor _ _ _ _)
      | @hosts dom' ip' hd' =>
          obtain ⟨hip, rfl⟩ := append_cons_inj_last (notMem_of_isDomainChar hd (by decide))
            (notMem_of_isDomainChar hd' (by decide)) heq
          rw [hip, familyOf_eq hip]

end AlderpointDNS
