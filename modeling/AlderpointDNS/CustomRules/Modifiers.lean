import AlderpointDNS.CustomRules.Duplicates

/-!
# Modifiers that keep a rule inactive

A rule whose modifiers cannot all be kept must not become active without them.  `BadModifier` says
when a part of the modifier text cannot be kept, and `RewriteTarget` which texts of a
`dnsrewrite` name one address; both are stated without the parser.

* `parseModifierParts_valid_iff` — the loop over the parts leaves a rule valid exactly when it
  accepts every part, in whatever order they stand;
* **`parseRule_badModifier_iff`** — a text with a bad part gives no valid rule, unless all that is
  wrong with it is the scope id of a rewrite address (`ScopedRewrite`).
-/

namespace AlderpointDNS

open Text Ipaddress

/-! ## The modifier text of a rule -/

/-- The syntaxes of a rule. -/
inductive RuleSyntax where
  | comment | regex | hosts | domain
  deriving DecidableEq, Repr

/-- The syntax of a stripped text: a hosts line starts with an address. -/
def ruleSyntax (raw : Str) : RuleSyntax :=
  if startsWith raw ['!'] || startsWith raw ['#'] then .comment
  else if startsWith raw ['/'] || startsWith raw "@@/".toList then .regex
  else if ((words (partition '#' raw).1).head?.bind ipAddress).isSome then .hosts
  else .domain

/-- The text without the mark of an exception. -/
def ruleBody (raw : Str) : Str := if startsWith raw "@@".toList then raw.drop 2 else raw

/-- The modifier text: what follows the first dollar sign of a domain rule, or the last slash with
a dollar sign of a regex rule that does not end with a slash. -/
def modifierText (raw : Str) : Str :=
  match ruleSyntax raw with
  | .domain => (partition '$' (ruleBody raw)).2
  | .regex =>
      if endsWith (ruleBody raw) ['/'] then []
      else match rfind "/$".toList (ruleBody raw) with
        | none => []
        | some idx => (ruleBody raw).drop (idx + 2)
  | .comment | .hosts => []

/-- The comma-separated parts of the modifier text. -/
def modifierParts (raw : Str) : List Str := split ',' (modifierText raw)

/-- The name of a modifier, in lower case. -/
def modifierName (d : ParserData) (part : Str) : Str :=
  d.toLower (strip (partition '=' (strip part)).1)

/-- What stands behind the equals sign. -/
def modifierValue (part : Str) : Str := (partition '=' (strip part)).2

/-! ## The parts that can be kept -/

/-- The record type of an address. -/
def recordTypeOf (ip : IpAddress) : Str := if ip.isV4 then "A".toList else "AAAA".toList

/-- The value of a `dnsrewrite` names one address: alone, or as `NOERROR`, the record type of the
address and the address. -/
inductive RewriteTarget (d : ParserData) : Str → IpAddress → Prop
  | plain {value only : Str} {ip : IpAddress} (h : split ';' value = [only])
      (hip : ipAddress (strip only) = some ip) : RewriteTarget d value ip
  | typed {value rcode rtype target : Str} {ip : IpAddress}
      (h : split ';' value = [rcode, rtype, target])
      (hrcode : d.toUpper (strip rcode) = "NOERROR".toList)
      (hrtype : d.toUpper (strip rtype) = recordTypeOf ip)
      (hip : ipAddress (strip target) = some ip) : RewriteTarget d value ip

/-- An address that a record can hold: it has no scope id. -/
def Unscoped : IpAddress → Prop
  | .v4 _ => True
  | .v6 _ scope => scope = none

/-- A part that cannot be kept: it is not blank, it is not `important`, and it is not a
`dnsrewrite` to one address of an A or AAAA record. -/
structure BadModifier (d : ParserData) (part : Str) : Prop where
  notBlank : strip part ≠ []
  notImportant : modifierName d part ≠ "important".toList
  notRewrite : modifierName d part = "dnsrewrite".toList →
    ∀ ip, RewriteTarget d (modifierValue part) ip → ¬ Unscoped ip

/-- A part that the parser accepts, on an exception or on another rule. -/
def Accepted (d : ParserData) (isAllow : Bool) (part : Str) : Prop :=
  strip part = [] ∨ modifierName d part = "important".toList ∨
    modifierName d part = "dnsrewrite".toList ∧ isAllow = false ∧
      ∃ ip, RewriteTarget d (modifierValue part) ip

theorem recordTypeOf_cases (ip : IpAddress) :
    recordTypeOf ip = "A".toList ∨ recordTypeOf ip = "AAAA".toList := by
  unfold recordTypeOf
  split_ifs
  · exact .inl rfl
  · exact .inr rfl

/-- A value with three parts is read as a typed rewrite. -/
theorem parseDnsrewrite_typed {d : ParserData} {value rcode rtype target : Str} {ip : IpAddress}
    (hsplit : split ';' value = [rcode, rtype, target]) :
    parseDnsrewrite d value = .ok ip ↔ d.toUpper (strip rcode) = "NOERROR".toList ∧
      d.toUpper (strip rtype) = recordTypeOf ip ∧ ipAddress (strip target) = some ip := by
  have htypes := recordTypeOf_cases ip
  simp only [parseDnsrewrite, hsplit]
  generalize d.toUpper (strip rtype) = rt
  by_cases hrcode : d.toUpper (strip rcode) = "NOERROR".toList
  · by_cases hrt : rt = "A".toList ∨ rt = "AAAA".toList
    · have hcond : (decide (rt = "A".toList) || decide (rt = "AAAA".toList)) = true := by
        simpa using hrt
      simp only [hrcode, hcond, decide_true, Bool.true_and, if_true, true_and]
      cases ipAddress (strip target) with
      | none =>
          dsimp only
          exact iff_of_false (fun h => by cases h) fun h => by cases h.2
      | some ip' =>
          have hfold : (if ip'.isV4 then "A".toList else "AAAA".toList) = recordTypeOf ip' := rfl
          by_cases hmatch : rt = recordTypeOf ip'
          · simp only [hfold, hmatch, ne_eq, not_true, if_false]
            constructor
            · rintro ⟨rfl⟩
              exact ⟨rfl, rfl⟩
            · rintro ⟨-, ⟨rfl⟩⟩
              rfl
          · simp only [hfold, hmatch, ne_eq, not_false_iff, if_true]
            constructor
            · intro h
              cases h
            · rintro ⟨h, ⟨rfl⟩⟩
              exact absurd h hmatch
    · have hcond : (decide (rt = "A".toList) || decide (rt = "AAAA".toList)) = false := by
        simpa using hrt
      simp only [hcond, Bool.and_false, Bool.false_eq_true, if_false]
      constructor
      · intro h
        cases h
      · rintro ⟨-, rfl, -⟩
        exact absurd htypes hrt
  · simp only [hrcode, decide_false, Bool.false_and, Bool.false_eq_true, if_false, false_and,
      iff_false]
    intro h
    cases h

/-- A value with one part is read as an address. -/
theorem parseDnsrewrite_plain {d : ParserData} {value only : Str} {ip : IpAddress}
    (hsplit : split ';' value = [only]) :
    parseDnsrewrite d value = .ok ip ↔ ipAddress (strip only) = some ip := by
  rw [parseDnsrewrite]
  simp only [hsplit]
  cases ipAddress (strip only) with
  | none =>
      dsimp only
      exact iff_of_false (fun h => by cases h) fun h => by cases h
  | some ip' =>
      dsimp only
      rw [Except.ok.injEq, Option.some.injEq]

/-- Any other number of parts is rejected. -/
theorem parseDnsrewrite_other {d : ParserData} {value : Str}
    (hone : ∀ only, split ';' value ≠ [only])
    (hthree : ∀ rcode rtype target, split ';' value ≠ [rcode, rtype, target]) (ip : IpAddress) :
    parseDnsrewrite d value ≠ .ok ip := by
  rw [parseDnsrewrite]
  dsimp only
  split
  · exact absurd ‹_› (hone _)
  · exact absurd ‹_› (hthree _ _ _)
  · intro h
    cases h

/-- **`_parse_dnsrewrite` returns the address that the value names.** -/
theorem parseDnsrewrite_eq_ok_iff {d : ParserData} {value : Str} {ip : IpAddress} :
    parseDnsrewrite d value = .ok ip ↔ RewriteTarget d value ip := by
  constructor
  · intro h
    by_cases hone : ∃ only, split ';' value = [only]
    · obtain ⟨only, hsplit⟩ := hone
      exact .plain hsplit ((parseDnsrewrite_plain hsplit).mp h)
    by_cases hthree : ∃ rcode rtype target, split ';' value = [rcode, rtype, target]
    · obtain ⟨rcode, rtype, target, hsplit⟩ := hthree
      obtain ⟨hrcode, hrtype, hip⟩ := (parseDnsrewrite_typed hsplit).mp h
      exact .typed hsplit hrcode hrtype hip
    exact absurd h (parseDnsrewrite_other (fun only heq => hone ⟨only, heq⟩)
      (fun rcode rtype target heq => hthree ⟨rcode, rtype, target, heq⟩) ip)
  · rintro (⟨hsplit, hip⟩ | ⟨hsplit, hrcode, hrtype, hip⟩)
    · exact (parseDnsrewrite_plain hsplit).mpr hip
    · exact (parseDnsrewrite_typed hsplit).mpr ⟨hrcode, hrtype, hip⟩

theorem unsupported_ne_valid (rule : ParsedRule) (reason : Str) :
    (unsupported rule reason).validationState ≠ .valid := by simp [unsupported]

/-- **The loop over the parts leaves a rule valid exactly when it accepts every part.** -/
theorem parseModifierParts_valid_iff {d : ParserData} {rule : ParsedRule} (parts : List Str)
    (hv : rule.validationState = .valid) :
    (parseModifierParts d rule parts).validationState = .valid ↔
      ∀ part ∈ parts, Accepted d (rule.action = .allow) part := by
  induction parts generalizing rule with
  | nil => simp [parseModifierParts, hv]
  | cons part parts ih =>
      rw [parseModifierParts, List.forall_mem_cons]
      dsimp only
      rw [← modifierName, ← modifierValue]
      by_cases hblank : strip part = []
      · have haccepted : Accepted d (rule.action = .allow) part := .inl hblank
        rw [if_pos hblank, ih hv]
        exact (and_iff_right haccepted).symm
      rw [if_neg hblank]
      by_cases himportant : modifierName d part = "important".toList
      · have haccepted : Accepted d (rule.action = .allow) part := .inr (.inl himportant)
        rw [if_pos himportant]
        refine Iff.trans (ih ?_) (and_iff_right haccepted).symm
        exact hv
      rw [if_neg himportant]
      by_cases hrewrite : modifierName d part = "dnsrewrite".toList
      · rw [if_pos hrewrite]
        by_cases hallow : rule.action = .allow
        · have haccepted : ¬ Accepted d (rule.action = .allow) part := by
            rintro (h | h | ⟨-, h, -⟩)
            · exact hblank h
            · exact himportant h
            · exact of_decide_eq_false h hallow
          rw [if_pos hallow]
          exact iff_of_false (unsupported_ne_valid _ _) fun h => haccepted h.1
        · rw [if_neg hallow]
          cases hparse : parseDnsrewrite d (modifierValue part) with
          | error reason =>
              have haccepted : ¬ Accepted d (rule.action = .allow) part := by
                rintro (h | h | ⟨-, -, ip, hip⟩)
                · exact hblank h
                · exact himportant h
                · rw [parseDnsrewrite_eq_ok_iff.mpr hip] at hparse
                  cases hparse
              exact iff_of_false (unsupported_ne_valid _ _) fun h => haccepted h.1
          | ok ip =>
              have hnot : decide (rule.action = .allow) = false := decide_eq_false hallow
              have haccepted : Accepted d (rule.action = .allow) part :=
                .inr (.inr ⟨hrewrite, hnot, ip, parseDnsrewrite_eq_ok_iff.mp hparse⟩)
              refine Iff.trans (ih ?_) ?_
              · exact hv
              · rw [hnot] at haccepted ⊢
                exact (and_iff_right haccepted).symm
      · have haccepted : ¬ Accepted d (rule.action = .allow) part := by
          rintro (h | h | ⟨h, -⟩)
          · exact hblank h
          · exact himportant h
          · exact hrewrite h
        rw [if_neg hrewrite]
        exact iff_of_false (unsupported_ne_valid _ _) fun h => haccepted h.1

/-- A rewrite among the parts of a rule that stays valid makes it a rewrite. -/
theorem ruleType_parseModifierParts {d : ParserData} {rule : ParsedRule} (parts : List Str)
    (hvalid : (parseModifierParts d rule parts).validationState = .valid)
    (h : rule.ruleType = .rewrite ∨
      ∃ part ∈ parts, strip part ≠ [] ∧ modifierName d part = "dnsrewrite".toList) :
    (parseModifierParts d rule parts).ruleType = .rewrite := by
  have hnames : "dnsrewrite".toList ≠ "important".toList := by decide
  induction parts generalizing rule with
  | nil => simpa [parseModifierParts] using h
  | cons part parts ih =>
      rw [parseModifierParts] at hvalid ⊢
      dsimp only at hvalid ⊢
      rw [← modifierName, ← modifierValue] at hvalid ⊢
      split_ifs at hvalid ⊢ with hblank himportant hrewrite hallow
      · refine ih hvalid (h.imp_right ?_)
        rintro ⟨other, hmem, hne, hname⟩
        rcases List.mem_cons.mp hmem with rfl | hmem
        · exact absurd hblank hne
        · exact ⟨other, hmem, hne, hname⟩
      · refine ih hvalid (h.imp_right ?_)
        rintro ⟨other, hmem, hne, hname⟩
        rcases List.mem_cons.mp hmem with rfl | hmem
        · exact absurd (hname.symm.trans himportant) hnames
        · exact ⟨other, hmem, hne, hname⟩
      · exact absurd hvalid (unsupported_ne_valid _ _)
      · cases hparse : parseDnsrewrite d (modifierValue part) with
        | error reason =>
            rw [hparse] at hvalid
            exact absurd hvalid (unsupported_ne_valid _ _)
        | ok ip =>
            rw [hparse] at hvalid
            exact ih hvalid (.inl rfl)
      · exact absurd hvalid (unsupported_ne_valid _ _)

/-! ## Whole rules -/

/-- The domain of a domain rule: without its anchor and terminator it has to be a host name. -/
def ruleDomain (d : ParserData) (raw : Str) : Option Str :=
  let base := strip (partition '$' (ruleBody raw)).1
  let candidate :=
    if startsWith base "||".toList then base.drop 2
    else if startsWith base ['|'] then base.drop 1
    else base
  ((cutTerminator '^' candidate).bind (cutTerminator '|')).bind (normalizeDomain d.toUnicodeData)

theorem split_nil : split ',' [] = [[]] := by simp [split]

theorem strip_nil : strip [] = [] := rfl

/-- An empty modifier text changes nothing. -/
theorem parseModifierParts_split_nil (d : ParserData) (rule : ParsedRule) :
    parseModifierParts d rule (split ',' []) = rule := by
  rw [split_nil, parseModifierParts]
  dsimp only
  rw [if_pos strip_nil, parseModifierParts]

theorem not_badModifier_nil (d : ParserData) : ¬ ∃ part ∈ split ',' [], BadModifier d part := by
  rintro ⟨part, hmem, hbad⟩
  rw [split_nil, List.mem_singleton] at hmem
  subst hmem
  exact hbad.notBlank strip_nil

/-- A bad part that is accepted is a rewrite, to an address with a scope id. -/
theorem scoped_of_accepted {d : ParserData} {isAllow : Bool} {part : Str}
    (hbad : BadModifier d part) (h : Accepted d isAllow part) :
    isAllow = false ∧ modifierName d part = "dnsrewrite".toList ∧
      ∃ n scope, RewriteTarget d (modifierValue part) (.v6 n (some scope)) := by
  rcases h with h | h | ⟨hname, hallow, ip, hip⟩
  · exact absurd h hbad.notBlank
  · exact absurd h hbad.notImportant
  · refine ⟨hallow, hname, ?_⟩
    have hscope := hbad.notRewrite hname ip hip
    cases ip with
    | v4 n => exact absurd trivial hscope
    | v6 n scope =>
        cases scope with
        | none => exact absurd rfl hscope
        | some scope => exact ⟨n, scope, hip⟩

theorem parseDomainRule_valid_iff {d : ParserData} {plain : Bool} {raw : Str} :
    (parseDomainRule d plain raw).validationState = .valid ↔
      (ruleDomain d raw).isSome = true ∧
        ∀ part ∈ split ',' (partition '$' (ruleBody raw)).2,
          Accepted d (startsWith raw "@@".toList) part := by
  unfold parseDomainRule ruleDomain
  dsimp only
  rw [← ruleBody]
  generalize hallow : startsWith raw "@@".toList = isAllow
  generalize partition '$' (ruleBody raw) = parts
  obtain ⟨base, modifiers⟩ := parts
  dsimp only
  generalize hscope : (if startsWith (strip base) "||".toList then (true, (strip base).drop 2)
    else if startsWith (strip base) ['|'] then (false, (strip base).drop 1)
    else (plain, strip base)) = scope
  obtain ⟨sub, candidate⟩ := scope
  have hcandidate : (if startsWith (strip base) "||".toList then (strip base).drop 2
      else if startsWith (strip base) ['|'] then (strip base).drop 1 else strip base)
      = candidate := by
    have := congrArg Prod.snd hscope
    rw [apply_ite Prod.snd, apply_ite Prod.snd] at this
    exact this
  rw [hcandidate]
  dsimp only
  cases (cutTerminator '^' candidate).bind (cutTerminator '|') with
  | none =>
      rw [Option.bind_none]
      exact iff_of_false (unsupported_ne_valid _ _) fun h => Bool.noConfusion h.1
  | some name =>
      dsimp only
      rw [Option.bind_some]
      cases normalizeDomain d.toUnicodeData name with
      | none =>
          dsimp only
          exact iff_of_false (by simp [invalid]) fun h => Bool.noConfusion h.1
      | some dom =>
          dsimp only
          generalize hrule : ParsedRule.mk raw _ _ _ (some dom) _ _ _ _ _ _ _ _ = rule
          have hstate : rule.validationState = .valid := by rw [← hrule]
          have haction : decide (rule.action = .allow) = isAllow := by
            rw [← hrule]
            cases isAllow <;> rfl
          have hfinal : ∀ r : ParsedRule,
              (if r.validationState ≠ .valid then r
                else { r with normalized := normalizedForm r }).validationState
                = r.validationState := by
            intro r
            split_ifs <;> rfl
          rw [hfinal]
          have hmod : (if modifiers = [] then rule else parseModifiers d rule modifiers)
              = parseModifierParts d rule (split ',' modifiers) := by
            split_ifs with hempty
            · rw [hempty, parseModifierParts_split_nil]
            · rfl
          rw [hmod, parseModifierParts_valid_iff _ hstate, haction]
          exact (and_iff_right rfl).symm

theorem parseRegexRule_badModifier {d : ParserData} {raw : Str}
    (h : ∃ part ∈ split ',' (splitRegexModifiers (ruleBody raw)).2, BadModifier d part) :
    (parseRegexRule d raw).validationState ≠ .valid := by
  intro hvalid
  obtain ⟨part, hmem, hbad⟩ := h
  unfold parseRegexRule at hvalid
  dsimp only at hvalid
  rw [← ruleBody] at hvalid
  generalize startsWith raw "@@".toList = isAllow at hvalid
  generalize splitRegexModifiers (ruleBody raw) = parts at hmem hvalid
  obtain ⟨body, modifiers⟩ := parts
  dsimp only at hmem hvalid
  by_cases hbody : (body.length < 3 || !startsWith body ['/'] || !endsWith body ['/']) = true
  · rw [if_pos hbody] at hvalid
    cases hvalid
  rw [if_neg hbody] at hvalid
  generalize ParsedRule.mk raw _ _ _ _ _ _ _ _ _ _ _ _ = rule at hvalid
  generalize validateRegex d rule = rule' at hvalid
  have hmodifiers : modifiers ≠ [] := by
    rintro rfl
    exact not_badModifier_nil d ⟨part, hmem, hbad⟩
  by_cases hstate : rule'.validationState = .valid
  · have hcond : (decide (rule'.validationState = .valid) && decide (modifiers ≠ [])) = true := by
      rw [decide_eq_true hstate, decide_eq_true hmodifiers, Bool.true_and]
    rw [if_pos hcond] at hvalid
    split_ifs at hvalid with hrewrite
    · exact unsupported_ne_valid _ _ hvalid
    · have haccepted := (parseModifierParts_valid_iff _ hstate).mp hvalid part hmem
      have hname := (scoped_of_accepted hbad haccepted).2.1
      exact hrewrite (ruleType_parseModifierParts _ hvalid
        (.inr ⟨part, hmem, hbad.notBlank, hname⟩))
  · have hcond : (decide (rule'.validationState = .valid) && decide (modifiers ≠ [])) ≠ true := by
      rw [decide_eq_false hstate, Bool.false_and]
      exact Bool.false_ne_true
    rw [if_neg hcond] at hvalid
    exact hstate hvalid

/-- `_parse_hosts_line` reads the lines that start with an address. -/
theorem parseHostsLine_ne_nil_iff {d : ParserData} {raw : Str} :
    parseHostsLine d raw ≠ [] ↔
      ((words (partition '#' raw).1).head?.bind ipAddress).isSome = true := by
  unfold parseHostsLine
  dsimp only
  cases words (partition '#' raw).1 with
  | nil => simp
  | cons word hosts =>
      cases hip : ipAddress word with
      | none => simp [hip]
      | some ip =>
          have hne : (if hosts = [] then [invalid raw "hosts entry has no hostname".toList]
              else hosts.map (parseHost d ip word (strip (partition '#' raw).2))) ≠ [] := by
            split_ifs with hhosts
            · exact List.cons_ne_nil _ _
            · simpa using hhosts
          rw [List.head?_cons, Option.bind_some]
          dsimp only
          rw [hip]
          exact iff_of_true hne rfl

/-- A part rewrites to an address with a scope id. -/
def ScopedPart (d : ParserData) (part : Str) : Prop :=
  strip part ≠ [] ∧ modifierName d part = "dnsrewrite".toList ∧
    ∃ n scope, RewriteTarget d (modifierValue part) (.v6 n (some scope))

theorem rewriteTarget_unique {d : ParserData} {value : Str} {ip ip' : IpAddress}
    (h : RewriteTarget d value ip) (h' : RewriteTarget d value ip') : ip = ip' := by
  have heq := (parseDnsrewrite_eq_ok_iff.mpr h).symm.trans (parseDnsrewrite_eq_ok_iff.mpr h')
  cases heq
  rfl

theorem ScopedPart.badModifier {d : ParserData} {part : Str} (h : ScopedPart d part) :
    BadModifier d part := by
  obtain ⟨hblank, hname, n, scope, htarget⟩ := h
  refine ⟨hblank, ?_, fun _ ip hip hscope => ?_⟩
  · rw [hname]
    decide
  · rw [rewriteTarget_unique hip htarget] at hscope
    cases hscope

/-- All that is wrong with a text is the scope id of a rewrite address: it is a domain rule on one
line, not an exception, with a good domain and no part that the parser rejects. -/
structure ScopedRewrite (d : ParserData) (raw : Str) : Prop where
  kind : ruleSyntax raw = .domain
  oneLine : ¬ (raw.contains '\n' || raw.contains '\r') = true
  printable : ¬ (raw.any fun c => isControl c && c ≠ '\t') = true
  notCosmetic : ¬ cosmeticMarkers.any (isSubstring · raw) = true
  blocks : startsWith raw "@@".toList = false
  domain : (ruleDomain d raw).isSome = true
  accepted : ∀ part ∈ modifierParts raw, Accepted d false part
  hasScope : ∃ part ∈ modifierParts raw, ScopedPart d part

/-- The parser cuts off the modifier text of a regex rule, or rejects the rule. -/
theorem splitRegexModifiers_or_invalid (d : ParserData) {raw : Str}
    (h : ruleSyntax raw = .regex) :
    (splitRegexModifiers (ruleBody raw)).2 = modifierText raw ∨
      (parseRegexRule d raw).validationState ≠ .valid := by
  by_cases hend : endsWith (ruleBody raw) ['/'] = true
  · refine .inl ?_
    rw [modifierText, h, splitRegexModifiers]
    dsimp only
    rw [if_pos hend, if_pos hend]
  cases hfind : rfind "/$".toList (ruleBody raw) with
  | none =>
      refine .inl ?_
      rw [modifierText, h, splitRegexModifiers]
      dsimp only
      rw [if_neg hend, if_neg hend, hfind]
  | some idx =>
      by_cases hidx : 0 < idx
      · refine .inl ?_
        rw [modifierText, h, splitRegexModifiers]
        dsimp only
        rw [if_neg hend, if_neg hend, hfind]
        dsimp only
        rw [if_pos hidx]
      · -- the text starts with the slash and the dollar sign, so no slash closes the pattern
        refine .inr ?_
        have hsplit : splitRegexModifiers (ruleBody raw) = (ruleBody raw, []) := by
          rw [splitRegexModifiers, if_neg hend, hfind]
          exact if_neg hidx
        rw [parseRegexRule]
        dsimp only
        rw [← ruleBody, hsplit]
        dsimp only
        rw [if_pos (by simp [Bool.eq_false_of_not_eq_true hend])]
        simp [invalid]

/-- What the parser does with a text on one line, by its syntax. -/
theorem parseRule_of_kind {d : ParserData} {plain : Bool} {text raw : Str}
    (htext : strip text = raw) (hraw : raw ≠ [])
    (hline : ¬ (raw.contains '\n' || raw.contains '\r') = true)
    (hprint : ¬ (raw.any fun c => isControl c && c ≠ '\t') = true) :
    parseRule d plain text = match ruleSyntax raw with
      | .comment =>
          [{ ruleText := raw
             normalized := raw
             ruleType := .comment
             comment := strip (raw.dropWhile fun c => c = '!' || c = '#') }]
      | .regex => [parseRegexRule d raw]
      | .hosts => parseHostsLine d raw
      | .domain =>
          if cosmeticMarkers.any (isSubstring · raw) then
            [unsupported { ruleText := raw, normalized := raw }
              "cosmetic and scriptlet rules have no DNS effect and are not supported".toList]
          else [parseDomainRule d plain raw] := by
  unfold parseRule ruleSyntax
  rw [htext]
  dsimp only
  rw [if_neg hraw, if_neg hline, if_neg hprint]
  by_cases hcomment : (startsWith raw ['!'] || startsWith raw ['#']) = true
  · rw [if_pos hcomment, if_pos hcomment]
  rw [if_neg hcomment, if_neg hcomment]
  by_cases hregex : (startsWith raw ['/'] || startsWith raw "@@/".toList) = true
  · rw [if_pos hregex, if_pos hregex]
  rw [if_neg hregex, if_neg hregex]
  by_cases hhosts : parseHostsLine d raw ≠ []
  · rw [if_pos hhosts, if_pos (parseHostsLine_ne_nil_iff.mp hhosts)]
  · rw [if_neg hhosts, if_neg fun h => hhosts (parseHostsLine_ne_nil_iff.mpr h)]


/-- Where the parser returns a valid rule, the text is on one line and not empty. -/
theorem line_of_valid {d : ParserData} {plain : Bool} {text : Str} {r : ParsedRule}
    (hr : r ∈ parseRule d plain text) (hvalid : r.validationState = .valid) :
    strip text ≠ [] ∧ ¬ ((strip text).contains '\n' || (strip text).contains '\r') = true ∧
      ¬ ((strip text).any fun c => isControl c && c ≠ '\t') = true := by
  unfold parseRule at hr
  dsimp only at hr
  by_cases hraw : strip text = []
  · rw [if_pos hraw] at hr
    cases hr
  rw [if_neg hraw] at hr
  by_cases hline : ((strip text).contains '\n' || (strip text).contains '\r') = true
  · rw [if_pos hline, List.mem_singleton] at hr
    rw [hr] at hvalid
    cases hvalid
  rw [if_neg hline] at hr
  by_cases hprint : ((strip text).any fun c => isControl c && c ≠ '\t') = true
  · rw [if_pos hprint, List.mem_singleton] at hr
    rw [hr] at hvalid
    cases hvalid
  exact ⟨hraw, hline, hprint⟩

/-- A valid rule from a text with a bad part. -/
theorem scopedRewrite_of_valid {d : ParserData} {plain : Bool} {text : Str}
    (hbad : ∃ part ∈ modifierParts (strip text), BadModifier d part) {r : ParsedRule}
    (hr : r ∈ parseRule d plain text) (hvalid : r.validationState = .valid) :
    ScopedRewrite d (strip text) := by
  obtain ⟨hraw, hline, hprint⟩ := line_of_valid hr hvalid
  rw [parseRule_of_kind rfl hraw hline hprint] at hr
  generalize strip text = raw at *
  cases hkind : ruleSyntax raw with
  | comment =>
      rw [modifierParts, modifierText, hkind] at hbad
      exact absurd hbad (not_badModifier_nil d)
  | hosts =>
      rw [modifierParts, modifierText, hkind] at hbad
      exact absurd hbad (not_badModifier_nil d)
  | regex =>
      rw [hkind] at hr
      dsimp only at hr
      rw [List.mem_singleton] at hr
      subst hr
      rcases splitRegexModifiers_or_invalid d hkind with hmod | hinvalid
      · rw [modifierParts, ← hmod] at hbad
        exact absurd hvalid (parseRegexRule_badModifier hbad)
      · exact absurd hvalid hinvalid
  | domain =>
      rw [hkind] at hr
      dsimp only at hr
      by_cases hcosmetic : cosmeticMarkers.any (isSubstring · raw) = true
      · rw [if_pos hcosmetic, List.mem_singleton] at hr
        rw [hr] at hvalid
        exact absurd hvalid (unsupported_ne_valid _ _)
      rw [if_neg hcosmetic, List.mem_singleton] at hr
      subst hr
      have hparts : modifierParts raw = split ',' (partition '$' (ruleBody raw)).2 := by
        rw [modifierParts, modifierText, hkind]
      obtain ⟨hdomain, haccepted⟩ := parseDomainRule_valid_iff.mp hvalid
      rw [← hparts] at haccepted
      obtain ⟨part, hmem, hpart⟩ := hbad
      obtain ⟨hblock, hname, hscope⟩ := scoped_of_accepted hpart (haccepted part hmem)
      rw [hblock] at haccepted
      exact
        { kind := hkind
          oneLine := hline
          printable := hprint
          notCosmetic := hcosmetic
          blocks := hblock
          domain := hdomain
          accepted := haccepted
          hasScope := ⟨part, hmem, hpart.notBlank, hname, hscope⟩ }

/-- **A text with a part that cannot be kept gives no valid rule, unless all that is wrong with it
is the scope id of a rewrite address.** -/
theorem parseRule_badModifier_iff (d : ParserData) (plain : Bool) (text : Str) :
    ((∃ part ∈ modifierParts (strip text), BadModifier d part) →
        ∀ r ∈ parseRule d plain text, r.validationState ≠ .valid) ↔
      ¬ ScopedRewrite d (strip text) := by
  constructor
  · intro h hscoped
    obtain ⟨part, hmem, hpart⟩ := hscoped.hasScope
    have hraw : strip text ≠ [] := by
      intro hempty
      rw [hempty, show modifierParts [] = [[]] from rfl, List.mem_singleton] at hmem
      exact hpart.1 (by rw [hmem, strip_nil])
    have hparts : modifierParts (strip text)
        = split ',' (partition '$' (ruleBody (strip text))).2 := by
      rw [modifierParts, modifierText, hscoped.kind]
    have hrule : parseRule d plain text = [parseDomainRule d plain (strip text)] := by
      rw [parseRule_of_kind rfl hraw hscoped.oneLine hscoped.printable, hscoped.kind]
      exact if_neg hscoped.notCosmetic
    refine h ⟨part, hmem, hpart.badModifier⟩ (parseDomainRule d plain (strip text)) ?_ ?_
    · rw [hrule]
      exact List.mem_singleton_self _
    · refine parseDomainRule_valid_iff.mpr ⟨hscoped.domain, ?_⟩
      rw [← hparts, hscoped.blocks]
      exact hscoped.accepted
  · intro h hbad r hr hvalid
    exact h (scopedRewrite_of_valid hbad hr hvalid)

/-! ### A rewrite to a link-local address with its zone -/

def scopedAddress : Str := "fe80::1%eth0".toList

def scopedModifier : Str := "dnsrewrite=".toList ++ scopedAddress

def scopedRewriteRule : Str := "||x.com^$important,".toList ++ scopedModifier

/-- How the rule and its modifier are read. -/
theorem scopedRewriteRule_read :
    ((parseRule asciiParserData true scopedRewriteRule).any
      fun r => decide (r.validationState = .valid)) = true ∧
    scopedModifier ∈ modifierParts (strip scopedRewriteRule) ∧
    strip scopedModifier ≠ [] ∧
    modifierName asciiParserData scopedModifier = "dnsrewrite".toList ∧
    split ';' (modifierValue scopedModifier) = [scopedAddress] ∧
    ipAddress (strip scopedAddress)
      = some (.v6 338288524927261089654018896841347694593 (some "eth0".toList)) := by
  decide +kernel

/-- The address with its scope id fits no record, and the rule is valid. -/
theorem scopedRewriteRule_valid :
    ¬ ∀ (d : ParserData) (plain : Bool) (text : Str),
      (∃ part ∈ modifierParts (strip text), BadModifier d part) →
        ∀ r ∈ parseRule d plain text, r.validationState ≠ .valid := by
  intro h
  obtain ⟨hvalid, hmem, hblank, hname, hsplit, hip⟩ := scopedRewriteRule_read
  obtain ⟨r, hr, hrvalid⟩ := List.any_eq_true.mp hvalid
  have hpart : ScopedPart asciiParserData scopedModifier :=
    ⟨hblank, hname, _, _, .plain hsplit hip⟩
  exact h asciiParserData true scopedRewriteRule ⟨_, hmem, hpart.badModifier⟩ r hr
    (of_decide_eq_true hrvalid)

end AlderpointDNS
