import AlderpointDNS.CustomRules.Duplicates
import AlderpointDNS.Deploy.Sources
import AlderpointDNS.Lib.Encodings
import AlderpointDNS.Lib.IpText

/-!
# The lines of a source

`lineResults` is `parse_source_line` with every result it returns, the counted ones included.  Most
lines of a list are `||name^` or a bare name, and `_fast_common_source_rule` reads these without the
parser of the custom rules.

* `fastCommonSourceRule_eq_some_iff` — the texts that the fast path reads (`commonText`);
* `parseDomainRule_commonText` — what the parser makes of them;
* **`lineResults_eq_iff`** — the lines on which the two paths agree: the parser's results go through
  the test for the names of the local machine, those of the fast path do not;
* `lineResults_listed` — the names of the results are what `parseSourceLine` lists.
-/

namespace AlderpointDNS

open Text Ipaddress Encodings

/-! ## `parse_source_line` -/

/-- The kinds of results; a rule has its `action`. -/
inductive LineKind where
  | skip
  | invalid
  | unsupported
  | rule (action : RuleAction)
  deriving DecidableEq

/-- A `(kind, domain, reason)`. -/
structure LineResult where
  kind : LineKind
  domain : Option Str := none
  reason : Str := []
  deriving DecidableEq

/-- `[("allow" if is_allow else "block", domain, "")]`. -/
def ListedDomain.result (l : ListedDomain) : LineResult :=
  { kind := .rule (if l.allow then .allow else .block), domain := some l.name }

/-- A host name of a line in the hosts format. -/
def hostResult (u : UnicodeData) (host : Str) : LineResult :=
  if u.toLower (stripBy (· = '.') host) ∈ localhostAliases then { kind := .skip }
  else match normalizeDomain u host with
    | none =>
        { kind := .invalid
          reason := '\'' :: host ++ "' is not a valid hostname".toList }
    | some domain =>
        if domain ∈ localhostAliases then { kind := .skip }
        else { kind := .rule .block, domain := some domain }

/-- A rule of `parse_rule`; a comment has no result. -/
def ruleResult (rule : ParsedRule) : Option LineResult :=
  if rule.ruleType = .comment then none
  else if rule.validationState = .invalid then
    some { kind := .invalid, reason := rule.unsupportedReason }
  else if rule.validationState = .unsupported then
    some { kind := .unsupported, reason := rule.unsupportedReason }
  else if rule.ruleType = .regexBlock ∨ rule.ruleType = .regexAllow then
    some { kind := .unsupported
           reason := "regex rules are not supported for blocklist sources".toList }
  else if rule.ruleType = .rewrite then
    some { kind := .unsupported
           reason := ("modifier $dnsrewrite to an IP address is not supported for blocklist "
             ++ "sources").toList }
  else if rule.domain.any (· ∈ localhostAliases) then some { kind := .skip }
  else some { kind := .rule rule.action, domain := rule.domain }

/-- The results of `custom_rules.parse_rule`. -/
def parserResults (d : ParserData) (text : Str) : List LineResult :=
  (parseRule d true text).filterMap ruleResult

/-- `parse_source_line` with a fast path. -/
def lineResultsWith (fast : Str → Option ListedDomain) (d : ParserData) (raw : Str) :
    List LineResult :=
  if isHostsLine ((words raw).head?.getD []) then
    let parts := words (partition '#' raw).1
    if parts.length < 2 then
      [{ kind := .invalid, reason := "hosts entry has no hostname".toList }]
    else parts.tail.map (hostResult d.toUnicodeData)
  else
    let normalized := adguardBlockpageNormalize raw
    match fast normalized with
    | some listed => [listed.result]
    | none => parserResults d normalized

/-- `parse_source_line`. -/
def lineResults (d : ParserData) (raw : Str) : List LineResult :=
  lineResultsWith (fastCommonSourceRule d.toUnicodeData) d raw

/-! ## The characters of the common lines -/

/-- A character of `commonText`. -/
def isCommonChar (c : Char) : Bool := isFastDomainChar c || c = '@' || c = '|' || c = '^'

theorem isFastDomainChar_iff (c : Char) : isFastDomainChar c = true ↔
    (97 ≤ c.toNat ∧ c.toNat ≤ 122) ∨ (65 ≤ c.toNat ∧ c.toNat ≤ 90)
      ∨ (48 ≤ c.toNat ∧ c.toNat ≤ 57) ∨ c = '.' ∨ c = '_' ∨ c = '-' := by
  simp only [isFastDomainChar, Bool.or_eq_true, Bool.and_eq_true, decide_eq_true_eq,
    isDecDigit_iff, or_assoc]
  exact Iff.rfl

theorem toNat_of_isCommonChar {c : Char} (h : isCommonChar c = true) :
    33 ≤ c.toNat ∧ c.toNat < 127 := by
  simp only [isCommonChar, Bool.or_eq_true, isFastDomainChar_iff, decide_eq_true_eq] at h
  rcases h with (((h | h | h | rfl | rfl | rfl) | rfl) | rfl) | rfl
  all_goals first | omega | decide

theorem isSpace_of_isCommonChar {c : Char} (h : isCommonChar c = true) : isSpace c = false := by
  obtain ⟨hlow, hhigh⟩ := toNat_of_isCommonChar h
  simp only [isSpace, Bool.or_eq_false_iff, Bool.and_eq_false_iff, decide_eq_false_iff_not]
  omega

theorem isControl_of_isCommonChar {c : Char} (h : isCommonChar c = true) :
    isControl c = false := by
  obtain ⟨hlow, hhigh⟩ := toNat_of_isCommonChar h
  simp only [isControl, Bool.or_eq_false_iff, decide_eq_false_iff_not]
  omega

/-- What is not a common character does not stand in a common text. -/
theorem notMem_of_common {s : Str} (hs : ∀ c ∈ s, isCommonChar c = true) {c : Char}
    (hc : isCommonChar c = false) : c ∉ s := by
  intro hmem
  rw [hs c hmem] at hc
  exact Bool.noConfusion hc

/-! ## The common lines -/

/-- `||candidate^`, `|candidate^` or `candidate`, and each as an exception. -/
def commonText (isAllow : Bool) (anchored : Option Bool) (candidate : Str) : Str :=
  (if isAllow then "@@".toList else []) ++
    match anchored with
    | none => candidate
    | some matchSubdomains => anchor matchSubdomains ++ candidate ++ ['^']

/-- What is between the markers of a common line. -/
structure FastCandidate (candidate : Str) : Prop where
  ne_nil : candidate ≠ []
  chars : ∀ c ∈ candidate, isFastDomainChar c = true

theorem FastCandidate.common {candidate : Str} (h : FastCandidate candidate) :
    ∀ c ∈ candidate, isCommonChar c = true := fun c hc => by
  simp [isCommonChar, h.chars c hc]

theorem FastCandidate.notMem {candidate : Str} (h : FastCandidate candidate) {c : Char}
    (hc : isFastDomainChar c = false) : c ∉ candidate := by
  intro hmem
  rw [h.chars c hmem] at hc
  exact Bool.noConfusion hc

theorem FastCandidate.head {candidate : Str} (h : FastCandidate candidate) :
    ∃ c cs, candidate = c :: cs ∧ isFastDomainChar c = true := by
  obtain ⟨c, cs, rfl⟩ := List.exists_cons_of_ne_nil h.ne_nil
  exact ⟨c, cs, rfl, h.chars c List.mem_cons_self⟩

theorem commonText_common {isAllow : Bool} {anchored : Option Bool} {candidate : Str}
    (h : FastCandidate candidate) :
    ∀ c ∈ commonText isAllow anchored candidate, isCommonChar c = true := by
  have hmark : ∀ c : Char, c = '@' ∨ c = '|' ∨ c = '^' → isCommonChar c = true := by
    rintro c (rfl | rfl | rfl) <;> rfl
  intro c hc
  unfold commonText at hc
  rcases List.mem_append.mp hc with hc | hc
  · cases isAllow with
    | false => cases hc
    | true => exact hmark c (Or.inl (by simpa using hc))
  · cases anchored with
    | none => exact h.common c hc
    | some matchSubdomains =>
        rcases List.mem_append.mp hc with hc | hc
        · rcases List.mem_append.mp hc with hc | hc
          · refine hmark c (Or.inr (Or.inl ?_))
            cases matchSubdomains <;> simpa [anchor] using hc
          · exact h.common c hc
        · exact hmark c (Or.inr (Or.inr (List.mem_singleton.mp hc)))

/-- The markers at the start of a text without `@@`. -/
theorem startsWith_commonText (anchored : Option Bool) {candidate : Str}
    (h : FastCandidate candidate) :
    startsWith (commonText false anchored candidate) "@@".toList = false ∧
      startsWith (commonText false anchored candidate) "||".toList = (anchored == some true) ∧
      startsWith (commonText false anchored candidate) ['|'] = anchored.isSome := by
  obtain ⟨c, cs, rfl, hc⟩ := h.head
  have hat : c ≠ '@' := fun heq => by
    rw [heq] at hc
    exact absurd hc (by decide)
  have hbar : c ≠ '|' := fun heq => by
    rw [heq] at hc
    exact absurd hc (by decide)
  rcases anchored with _ | _ | _ <;>
    simp [commonText, anchor, startsWith, List.isPrefixOf, Ne.symm hat, Ne.symm hbar]

/-- What stands behind the sign of an allow rule. -/
theorem commonText_body (isAllow : Bool) (anchored : Option Bool) {candidate : Str}
    (h : FastCandidate candidate) :
    startsWith (commonText isAllow anchored candidate) "@@".toList = isAllow ∧
      (if isAllow then (commonText isAllow anchored candidate).drop 2
        else commonText isAllow anchored candidate) = commonText false anchored candidate := by
  cases isAllow with
  | false => exact ⟨(startsWith_commonText anchored h).1, rfl⟩
  | true => exact ⟨rfl, rfl⟩

theorem fastCommonSourceRule_commonText (u : UnicodeData) (isAllow : Bool)
    (anchored : Option Bool) {candidate : Str} (h : FastCandidate candidate) :
    fastCommonSourceRule u (commonText isAllow anchored candidate)
      = listedDomain u isAllow candidate := by
  obtain ⟨-, hbars, hbar⟩ := startsWith_commonText anchored h
  obtain ⟨hallow, hbody⟩ := commonText_body isAllow anchored h
  have hcount : (commonText false anchored candidate).count '^'
      = if anchored.isSome then 1 else 0 := by
    have hzero : candidate.count '^' = 0 := List.count_eq_zero.mpr (h.notMem (by decide))
    rcases anchored with _ | _ | _ <;> simp [commonText, anchor, hzero]
  have hcaret (sub : Bool) : endsWith (commonText false (some sub) candidate) ['^'] = true := by
    rw [endsWith, List.isSuffixOf_iff_suffix]
    exact List.suffix_append _ _
  have hall : candidate.all isFastDomainChar = true := List.all_eq_true.mpr h.chars
  unfold fastCommonSourceRule
  simp only [hallow, hbody, hbars, hbar, hcount]
  rcases anchored with _ | _ | _
  · simp [commonText, h.ne_nil, hall]
  · have hdrop : (commonText false (some false) candidate).tail.dropLast = candidate := by
      simp [commonText, anchor]
    simp [hcaret, hdrop, h.ne_nil, hall]
  · have hdrop : ((commonText false (some true) candidate).drop 2).dropLast = candidate := by
      simp [commonText, anchor]
    simp [hcaret, hdrop, h.ne_nil, hall]

/-- A text with both markers is what is between them. -/
theorem eq_anchor_append {mark body candidate : Str} (hmark : '^' ∉ mark)
    (hstart : startsWith body mark = true)
    (hend : (endsWith body ['^'] && decide (body.count '^' = 1)) = true)
    (hcandidate : (body.drop mark.length).dropLast = candidate) :
    body = mark ++ candidate ++ ['^'] := by
  rw [Bool.and_eq_true, endsWith_iff] at hend
  obtain ⟨rest, rfl⟩ := (startsWith_iff _ _).mp hstart
  obtain ⟨front, hfront⟩ := hend.1
  rw [List.drop_left] at hcandidate
  rcases List.eq_nil_or_concat rest with rfl | ⟨front', c, rfl⟩
  · rw [List.append_nil] at hfront
    exact absurd (hfront ▸ List.mem_append_right _ (List.mem_singleton_self _)) hmark
  · rw [List.concat_eq_append] at hfront hcandidate ⊢
    rw [← List.append_assoc] at hfront
    obtain ⟨-, hc⟩ := List.append_inj' hfront rfl
    rw [List.dropLast_concat] at hcandidate
    rw [← hcandidate, ← hc, List.append_assoc]

/-- **What the fast path reads.** -/
theorem fastCommonSourceRule_eq_some_iff {u : UnicodeData} {text : Str} {l : ListedDomain} :
    fastCommonSourceRule u text = some l ↔ ∃ isAllow anchored candidate,
      text = commonText isAllow anchored candidate ∧ FastCandidate candidate ∧
        listedDomain u isAllow candidate = some l := by
  constructor
  · intro h
    have hsplit : ∃ body, text = (if startsWith text "@@".toList then "@@".toList else []) ++ body ∧
        (if startsWith text "@@".toList then text.drop 2 else text) = body := by
      cases hat : startsWith text "@@".toList with
      | false => exact ⟨text, rfl, rfl⟩
      | true =>
          obtain ⟨rest, rfl⟩ := (startsWith_iff _ _).mp hat
          exact ⟨rest, rfl, rfl⟩
    obtain ⟨body, htext, hbody⟩ := hsplit
    unfold fastCommonSourceRule at h
    simp only [hbody] at h
    generalize startsWith text "@@".toList = isAllow at h htext
    subst htext
    generalize hcandidate : (if (startsWith body "||".toList && (endsWith body ['^']
        && decide (body.count '^' = 1))) = true then (body.drop 2).dropLast
      else if (startsWith body ['|'] && (endsWith body ['^']
        && decide (body.count '^' = 1))) = true then (body.drop 1).dropLast
      else body) = candidate at h
    have hform : ∃ anchored, body = commonText false anchored candidate := by
      split_ifs at hcandidate with hbars hbar
      · obtain ⟨hstart, hend⟩ := Bool.and_eq_true _ _ |>.mp hbars
        exact ⟨some true, eq_anchor_append (by decide) hstart hend hcandidate⟩
      · obtain ⟨hstart, hend⟩ := Bool.and_eq_true _ _ |>.mp hbar
        exact ⟨some false, eq_anchor_append (by decide) hstart hend hcandidate⟩
      · exact ⟨none, hcandidate⟩
    obtain ⟨anchored, rfl⟩ := hform
    split_ifs at h with hbad
    simp only [Bool.or_eq_true, decide_eq_true_eq, not_or, Bool.not_eq_true',
      Bool.not_eq_false] at hbad
    exact ⟨isAllow, anchored, candidate, rfl, ⟨hbad.1, List.all_eq_true.mp hbad.2⟩, h⟩
  · rintro ⟨isAllow, anchored, candidate, rfl, hfast, hl⟩
    rw [fastCommonSourceRule_commonText u isAllow anchored hfast, hl]

/-! ## The parser on the common lines -/

theorem toLower_eq_self {c : Char} (h : ¬ (65 ≤ c.toNat ∧ c.toNat ≤ 90)) : c.toLower = c :=
  dif_neg h

theorem toLower_lt {c : Char} (h : c.toNat < 127) : c.toLower.toNat < 128 := by
  have key : ∀ k : Fin 127, (Char.ofNat k).toLower.toNat < 128 := by decide
  simpa using key ⟨c.toNat, h⟩

theorem isFastDomainChar_of_toLower {c : Char} (h : isFastDomainChar c.toLower = true) :
    isFastDomainChar c = true := by
  by_cases hupper : 65 ≤ c.toNat ∧ c.toNat ≤ 90
  · exact (isFastDomainChar_iff c).mpr (Or.inr (Or.inl hupper))
  · rwa [toLower_eq_self hupper] at h

/-- The parts of an IPv4 address. -/
theorem parseV4_parts {s : Str} {n : ℕ} (h : parseV4 s = some n) :
    ∀ w ∈ split '.' s, w ≠ [] ∧ ∀ c ∈ w, isDecDigit c = true := by
  have hoctets : none ∉ (split '.' s).map parseOctet := by
    rw [parseV4] at h
    split at h
    · rename_i heq
      rw [heq]
      simp
    · cases h
  intro w hw
  by_contra hbad
  refine hoctets (List.mem_map.mpr ⟨w, hw, ?_⟩)
  rw [parseOctet, if_pos]
  by_cases hnil : w = []
  · simp [hnil]
  · have hall : w.all isDecDigit = false := by
      rw [← Bool.not_eq_true, List.all_eq_true]
      exact fun hdigits => hbad ⟨hnil, hdigits⟩
    simp [hall]

/-- An address without a colon is digits and dots, with a digit at both ends. -/
theorem parseV4_of_colon_notMem {s : Str} {a : IpAddress} (hcolon : ':' ∉ s)
    (h : ipAddress s = some a) : ∃ n, parseV4 s = some n := by
  cases a with
  | v4 n => exact ⟨n, parseV4_of_ipAddress h⟩
  | v6 n scope =>
      have hnone : ∀ t : Str, ':' ∉ t → parseV6 t = none := fun t ht => by
        rw [parseV6, split_of_not_mem ht]
        simp
      have hscoped := (parseV6Scoped_of_ipAddress h).2
      rw [parseV6Scoped] at hscoped
      dsimp only at hscoped
      rw [hnone _ hcolon, hnone _ fun hmem => hcolon ((List.takeWhile_prefix _).subset hmem)]
        at hscoped
      split_ifs at hscoped <;> cases hscoped

/-- No IPv4 address passes `normalize_domain`. -/
theorem normalizeDomain_of_parseV4 (u : UnicodeData) {s : Str} {n : ℕ} (h : parseV4 s = some n) :
    normalizeDomain u s = none := by
  have hparts := parseV4_parts h
  have hchars : ∀ c ∈ s, c = '.' ∨ isDecDigit c = true := by
    intro c hc
    by_cases hdot : c = '.'
    · exact Or.inl hdot
    · obtain ⟨w, hw, hcw⟩ := mem_of_split hdot hc
      exact Or.inr ((hparts w hw).2 c hcw)
  have hnat : ∀ c ∈ s, 46 ≤ c.toNat ∧ c.toNat ≤ 57 := by
    intro c hc
    rcases hchars c hc with rfl | hdigit
    · decide
    · rw [isDecDigit_iff] at hdigit
      omega
  have hstrip : strip s = s := stripBy_eq_self fun c hc => by
    obtain ⟨hlow, hhigh⟩ := hnat c hc
    simp only [isSpace, Bool.or_eq_false_iff, Bool.and_eq_false_iff, decide_eq_false_iff_not]
    omega
  have hdots : stripBy (· = '.') s = s := by
    refine stripBy_eq_self_of_ends (fun c hc => ?_) fun c hc => ?_
    · obtain ⟨cs, rfl⟩ := List.head?_eq_some_iff.mp hc
      refine decide_eq_false fun heq => ?_
      subst heq
      exact (hparts [] (by rw [split_cons_sep]; exact List.mem_cons_self)).1 rfl
    · obtain ⟨cs, rfl⟩ := List.getLast?_eq_some_iff.mp hc
      refine decide_eq_false fun heq => ?_
      subst heq
      refine (hparts [] ?_).1 rfl
      rw [split_append_sep]
      exact List.mem_append_right _ (List.mem_singleton_self _)
  obtain ⟨hascii, hlower⟩ : isAscii s = true ∧ u.toLower s = s := by
    refine u.toLower_eq_self fun c hc => ?_
    have hlt := hnat c hc
    exact ⟨by omega, toLower_eq_self (by omega)⟩
  have hdot : '.' ∈ s := by
    by_contra hdot
    rw [parseV4, split_of_not_mem hdot, List.map_singleton] at h
    cases hoctet : parseOctet s <;> rw [hoctet] at h <;> cases h
  have hliteral : looksLikeIpLiteral s = true := by
    have hall : (split '.' s).all (fun part => part = [] || part.all isDecDigit) = true := by
      rw [List.all_eq_true]
      exact fun w hw => by simp [List.all_eq_true.mpr (hparts w hw).2]
    rw [looksLikeIpLiteral, hall]
    simp [hdot]
  have haddress : ipAddress s = some (.v4 n) := by
    have hslash : '/' ∉ s := fun hmem => by
      have := hchars _ hmem
      revert this
      decide
    rw [ipAddress, if_neg (by simpa using hslash), h]
  have hcheck : checkDomain s = none := by
    rw [checkDomain, hliteral, haddress]
    simp
  unfold normalizeDomain
  simp only [hstrip, hdots, hlower, hascii, if_true, hcheck, ite_self]

theorem ipAddress_commonText {u : UnicodeData} {isAllow : Bool} {anchored : Option Bool}
    {candidate name : Str} (h : FastCandidate candidate)
    (hname : normalizeDomain u candidate = some name) :
    ipAddress (commonText isAllow anchored candidate) = none := by
  cases hip : ipAddress (commonText isAllow anchored candidate) with
  | none => rfl
  | some a =>
      exfalso
      have hcolon : ':' ∉ commonText isAllow anchored candidate :=
        notMem_of_common (commonText_common h) (by decide)
      obtain ⟨n, hn⟩ := parseV4_of_colon_notMem hcolon hip
      have hdigits : ∀ c ∈ commonText isAllow anchored candidate,
          c = '.' ∨ isDecDigit c = true := by
        intro c hc
        by_cases hdot : c = '.'
        · exact Or.inl hdot
        · obtain ⟨w, hw, hcw⟩ := mem_of_split hdot hc
          exact Or.inr ((parseV4_parts hn w hw).2 c hcw)
      have hmark : '@' ∉ commonText isAllow anchored candidate
          ∧ '^' ∉ commonText isAllow anchored candidate := by
        constructor <;> exact fun hmem => absurd (hdigits _ hmem) (by decide)
      cases isAllow with
      | true => exact hmark.1 (List.mem_append_left _ List.mem_cons_self)
      | false =>
          cases anchored with
          | some sub =>
              exact hmark.2 (List.mem_append_right _ (List.mem_append_right _
                (List.mem_singleton_self _)))
          | none =>
              rw [show commonText false none candidate = candidate from rfl] at hn
              rw [normalizeDomain_of_parseV4 u hn] at hname
              cases hname

/-- Text of common characters reaches the last branch of the parser. -/
theorem parseRule_of_common (d : ParserData) (plain : Bool) {text : Str} (hne : text ≠ [])
    (hcommon : ∀ c ∈ text, isCommonChar c = true) (hip : ipAddress text = none) :
    parseRule d plain text = [parseDomainRule d plain text] := by
  have hspace : ∀ c ∈ text, isSpace c = false := fun c hc => isSpace_of_isCommonChar (hcommon c hc)
  have hnot : ∀ c : Char, isCommonChar c = false → c ∉ text := fun c => notMem_of_common hcommon
  have hstart : ∀ (mark : Str) (c : Char), c ∈ mark → isCommonChar c = false →
      startsWith text mark = false := by
    intro mark c hmem hc
    rw [← Bool.not_eq_true, startsWith_iff]
    exact fun hsub => hnot c hc (hsub.subset hmem)
  have hstrip : strip text = text := stripBy_eq_self hspace
  have hlines : (text.contains '\n' || text.contains '\r') = false := by
    simp [hnot '\n' (by decide), hnot '\r' (by decide)]
  have hcontrol : (text.any fun c => isControl c && c ≠ '\t') = false := by
    rw [List.any_eq_false]
    exact fun c hc => by simp [isControl_of_isCommonChar (hcommon c hc)]
  have hcomment : (startsWith text ['!'] || startsWith text ['#']) = false := by
    rw [hstart ['!'] '!' (by decide) (by decide), hstart ['#'] '#' (by decide) (by decide)]
    rfl
  have hregex : (startsWith text ['/'] || startsWith text "@@/".toList) = false := by
    rw [hstart ['/'] '/' (by decide) (by decide), hstart _ '/' (by decide) (by decide)]
    rfl
  have hhosts : parseHostsLine d text = [] := by
    rw [parseHostsLine, partition_of_notMem (hnot '#' (by decide))]
    dsimp only
    rw [words_eq_singleton hne hspace]
    simp [hip]
  have hcosmetic : cosmeticMarkers.any (isSubstring · text) = false := by
    rw [List.any_eq_false]
    intro marker hmarker
    rw [isSubstring_iff]
    have hhash : '#' ∈ marker := by
      revert marker
      decide
    exact fun hsub => hnot '#' (by decide) (hsub.subset hhash)
  unfold parseRule
  simp only [hstrip, hne, hlines, hcontrol, hcomment, hregex, hhosts, hcosmetic, if_false,
    Bool.false_eq_true, not_true_eq_false, ne_eq]

theorem cutTerminator_of_notMem {c : Char} {s : Str} (h : c ∉ s) :
    cutTerminator c s = some s := by
  rw [cutTerminator, if_neg (by simpa using h)]

/-- A terminator at the end. -/
theorem cutTerminator_append {c : Char} {s : Str} (h : c ∉ s) :
    cutTerminator c (s ++ [c]) = some s := by
  have hkeep : ∀ x ∈ s, decide (x ≠ c) = true := fun x hx =>
    decide_eq_true fun heq => h (heq ▸ hx)
  have hpartition : partition c (s ++ [c]) = (s, []) := by
    rw [partition, List.takeWhile_append_of_pos hkeep, List.dropWhile_append_of_pos hkeep]
    simp
  rw [cutTerminator, if_pos (by simp), hpartition]
  rfl

/-- The rule of a common line. -/
theorem parseDomainRule_commonText (d : ParserData) (isAllow : Bool) (anchored : Option Bool)
    {candidate name : Str} (h : FastCandidate candidate)
    (hname : normalizeDomain d.toUnicodeData candidate = some name) :
    let rule := parseDomainRule d true (commonText isAllow anchored candidate)
    rule.validationState = .valid ∧ rule.ruleType = (if isAllow then .allow else .block) ∧
      rule.action = (if isAllow then .allow else .block) ∧ rule.domain = some name := by
  obtain ⟨-, hbars, hbar⟩ := startsWith_commonText anchored h
  obtain ⟨hallow, hbody⟩ := commonText_body isAllow anchored h
  have hcommon : ∀ c ∈ commonText false anchored candidate, isCommonChar c = true :=
    commonText_common h
  have hpartition : partition '$' (commonText false anchored candidate)
      = (commonText false anchored candidate, []) :=
    partition_of_notMem (notMem_of_common hcommon (by decide))
  have hstrip : strip (commonText false anchored candidate) = commonText false anchored candidate :=
    stripBy_eq_self fun c hc => isSpace_of_isCommonChar (hcommon c hc)
  have hcut (t : Str) (ht : t = candidate ∨ t = candidate ++ ['^']) :
      (cutTerminator '^' t).bind (cutTerminator '|') = some candidate := by
    rcases ht with rfl | rfl
    · rw [cutTerminator_of_notMem (h.notMem (by decide)), Option.bind_some,
        cutTerminator_of_notMem (h.notMem (by decide))]
    · rw [cutTerminator_append (h.notMem (by decide)), Option.bind_some,
        cutTerminator_of_notMem (h.notMem (by decide))]
  unfold parseDomainRule
  simp only [hallow, hbody, hpartition, hstrip, hbars, hbar]
  rcases anchored with _ | _ | _
  · simp [commonText, hcut, hname]
  · simp [commonText, anchor, hcut, hname]
  · simp [commonText, anchor, hcut, hname]

theorem listedDomain_eq_some {u : UnicodeData} {isAllow : Bool} {raw : Str} {l : ListedDomain}
    (h : listedDomain u isAllow raw = some l) :
    normalizeDomain u raw = some l.name ∧ l.allow = isAllow := by
  unfold listedDomain at h
  split at h
  · rename_i heq
    cases h
    exact ⟨heq, rfl⟩
  · cases h

/-- **The parser reads a common line as the fast path does, and tests the name.** -/
theorem parserResults_of_fast {d : ParserData} {text : Str} {l : ListedDomain}
    (h : fastCommonSourceRule d.toUnicodeData text = some l) :
    parserResults d text = [if l.name ∈ localhostAliases then { kind := .skip } else l.result] := by
  obtain ⟨isAllow, anchored, candidate, rfl, hfast, hl⟩ := fastCommonSourceRule_eq_some_iff.mp h
  obtain ⟨hname, hallow⟩ := listedDomain_eq_some hl
  have hne : commonText isAllow anchored candidate ≠ [] := by
    obtain ⟨c, cs, rfl, -⟩ := hfast.head
    cases isAllow <;> rcases anchored with _ | _ | _ <;> simp [commonText, anchor]
  obtain ⟨hvalid, htype, haction, hdomain⟩ :=
    parseDomainRule_commonText d isAllow anchored hfast hname
  rw [parserResults, parseRule_of_common d true hne (commonText_common hfast)
    (ipAddress_commonText hfast hname)]
  generalize parseDomainRule d true _ = rule at hvalid htype haction hdomain
  simp only [List.filterMap_cons, List.filterMap_nil, ruleResult, hvalid, htype, haction, hdomain,
    ListedDomain.result, hallow]
  cases isAllow <;> simp <;> split_ifs <;> rfl

/-! ## The lines on which the paths agree -/

/-- The alias of the local machine that `normalize_domain` lets through. -/
def localdomainAlias : Str := "localhost.localdomain".toList

theorem alias_matches : matchesDomainRe localdomainAlias = true
    ∧ ∀ name ∈ localhostAliases, matchesDomainRe name = true → name = localdomainAlias := by
  decide +kernel

/-- A common line with that name, in any case and with dots around it. -/
def ReadsAlias (text : Str) : Prop :=
  ∃ isAllow anchored candidate, text = commonText isAllow anchored candidate ∧
    (stripBy (· = '.') candidate).map Char.toLower = localdomainAlias

theorem alias_chars : localdomainAlias ≠ [] ∧ localdomainAlias.length ≤ 253 ∧
    localdomainAlias.all isFastDomainChar = true ∧
    checkDomain localdomainAlias = some localdomainAlias := by
  decide +kernel

theorem FastCandidate.strip {candidate : Str} (h : FastCandidate candidate) :
    strip candidate = candidate :=
  stripBy_eq_self fun c hc => isSpace_of_isCommonChar (h.common c hc)

theorem isAscii_of_fast {s : Str} (h : ∀ c ∈ s, isFastDomainChar c = true) : isAscii s = true := by
  refine List.all_eq_true.mpr fun c hc => decide_eq_true ?_
  have hlt := (toNat_of_isCommonChar (c := c) (by simp [isCommonChar, h c hc])).2
  omega

theorem FastCandidate.toLower {u : UnicodeData} {candidate : Str} (h : FastCandidate candidate) :
    u.toLower (stripBy (· = '.') candidate) = (stripBy (· = '.') candidate).map Char.toLower := by
  rw [UnicodeData.toLower, if_pos]
  exact isAscii_of_fast fun c hc =>
    h.chars c ((List.dropWhile_suffix _).subset ((List.rdropWhile_prefix _ _).subset hc))

/-- Only that name is read as the alias. -/
theorem normalizeDomain_eq_alias_iff {u : UnicodeData} {candidate : Str}
    (h : FastCandidate candidate) : normalizeDomain u candidate = some localdomainAlias ↔
      (stripBy (· = '.') candidate).map Char.toLower = localdomainAlias := by
  obtain ⟨hne, hlength, hall, hcheck⟩ := alias_chars
  have hchars := List.all_eq_true.mp hall
  unfold normalizeDomain
  simp only [h.strip, h.toLower]
  constructor
  · have hascii : isAscii ((stripBy (· = '.') candidate).map Char.toLower) = true := by
      rw [isAscii, List.all_map, List.all_eq_true]
      exact fun c hc => decide_eq_true (toLower_lt (toNat_of_isCommonChar (h.common c
        ((List.dropWhile_suffix _).subset ((List.rdropWhile_prefix _ _).subset hc)))).2)
    generalize (stripBy (· = '.') candidate).map Char.toLower = value at hascii
    intro hname
    rw [if_pos hascii, checkDomain] at hname
    split_ifs at hname
    exact Option.some.inj hname
  · intro hvalue
    have hnot : ∀ c : Char, isFastDomainChar c = false → localdomainAlias.contains c = false := by
      intro c hc
      rw [← Bool.not_eq_true, List.contains_iff_mem]
      intro hmem
      rw [hchars c hmem] at hc
      exact Bool.noConfusion hc
    rw [hvalue, if_neg (by simpa [hne] using hlength), if_neg, if_pos (isAscii_of_fast hchars),
      hcheck]
    simp only [hnot '/' rfl, hnot ':' rfl, hnot '@' rfl, Bool.or_false, Bool.false_eq_true,
      not_false_eq_true]

/-- **The fast path reads the alias on these lines.** -/
theorem readsAlias_iff {u : UnicodeData} {text : Str} : ReadsAlias text ↔
    ∃ l, fastCommonSourceRule u text = some l ∧ l.name = localdomainAlias := by
  obtain ⟨hne, hlength, hall, hcheck⟩ := alias_chars
  have hchars := List.all_eq_true.mp hall
  constructor
  · rintro ⟨isAllow, anchored, candidate, rfl, hlower⟩
    have hfast : FastCandidate candidate := by
      constructor
      · rintro rfl
        exact hne hlower.symm
      · intro c hc
        by_cases hdot : c = '.'
        · subst hdot
          rfl
        · refine isFastDomainChar_of_toLower (hchars _ ?_)
          rw [← hlower]
          exact List.mem_map_of_mem (mem_stripBy hc (by simpa using hdot))
    have hname := (normalizeDomain_eq_alias_iff (u := u) hfast).mpr hlower
    have hl : listedDomain u isAllow candidate
        = some ⟨isAllow, localdomainAlias, normalizeDomain_matches hname⟩ := by
      unfold listedDomain
      split
      · rename_i name heq
        simp only [hname, Option.some.injEq] at heq
        simp only [heq]
      · rename_i heq
        rw [hname] at heq
        cases heq
    exact ⟨_, fastCommonSourceRule_eq_some_iff.mpr ⟨isAllow, anchored, candidate, rfl, hfast, hl⟩,
      rfl⟩
  · rintro ⟨l, hl, hlname⟩
    obtain ⟨isAllow, anchored, candidate, rfl, hfast, hl⟩ := fastCommonSourceRule_eq_some_iff.mp hl
    refine ⟨isAllow, anchored, candidate, rfl, (normalizeDomain_eq_alias_iff (u := u) hfast).mp ?_⟩
    rw [← hlname]
    exact (listedDomain_eq_some hl).1

/-- **The lines on which the two paths agree.** -/
theorem lineResults_eq_iff (d : ParserData) (raw : Str) :
    lineResults d raw = lineResultsWith (fun _ => none) d raw ↔
      isHostsLine ((words raw).head?.getD []) = true
        ∨ ¬ReadsAlias (adguardBlockpageNormalize raw) := by
  rw [readsAlias_iff (u := d.toUnicodeData)]
  unfold lineResults lineResultsWith
  by_cases hhosts : isHostsLine ((words raw).head?.getD []) = true
  · simp only [hhosts, if_true, true_or]
  · simp only [hhosts, Bool.false_eq_true, if_false, false_or]
    cases hfast : fastCommonSourceRule d.toUnicodeData (adguardBlockpageNormalize raw) with
    | none => simp
    | some l =>
        have hiff : l.name ∈ localhostAliases ↔ l.name = localdomainAlias :=
          ⟨fun hmem => alias_matches.2 l.name hmem l.normalized, fun heq => by
            rw [heq]
            decide +kernel⟩
        rw [parserResults_of_fast hfast]
        simp only [Option.some.injEq, exists_eq_left', ← hiff]
        by_cases hname : l.name ∈ localhostAliases
        · simp [hname, ListedDomain.result]
        · simp [hname]

/-- A source that lists the machine itself as a blocked name. -/
theorem localhost_not_skipped : ¬∀ (d : ParserData) (raw : Str), strip raw = raw → raw ≠ [] →
    lineResults d raw = lineResultsWith (fun _ => none) d raw := by
  intro h
  have hline := h asciiParserData "||localhost.localdomain^".toList (by decide +kernel)
    (by decide +kernel)
  revert hline
  decide +kernel

/-! ## The results and the listed names -/

/-- The part of a result that `parseSourceLine` keeps. -/
def LineResult.listed (r : LineResult) : Option (Bool × Str) :=
  match r.kind, r.domain with
  | .rule action, some name => some (action = .allow, name)
  | _, _ => none

theorem ListedDomain.result_listed (l : ListedDomain) : l.result.listed = some (l.allow, l.name) := by
  cases hallow : l.allow <;> simp [result, LineResult.listed, hallow]

theorem hostResult_listed (u : UnicodeData) (host : Str) :
    (hostResult u host).listed = (parseSourceHost u host).map fun l => (l.allow, l.name) := by
  unfold hostResult parseSourceHost
  split_ifs with halias
  · rfl
  · have hlisted : (listedDomain u false host).map (fun l => (l.allow, l.name))
        = (normalizeDomain u host).map (fun name => (false, name)) := by
      unfold listedDomain
      split
      · rename_i name heq
        simp [heq]
      · rename_i heq
        simp [heq]
    cases hname : normalizeDomain u host with
    | none =>
        rw [hname, Option.map_none, Option.map_eq_none_iff] at hlisted
        rw [hlisted]
        rfl
    | some name =>
        rw [hname, Option.map_some, Option.map_eq_some_iff] at hlisted
        obtain ⟨l, hl, hpair⟩ := hlisted
        obtain ⟨hallow, rfl⟩ := Prod.mk.inj hpair
        rw [hl]
        by_cases hmem : l.name ∈ localhostAliases
        · simp [hmem, LineResult.listed]
        · simp [hmem, LineResult.listed, hallow]

theorem ruleResult_listed {d : ParserData} {plain : Bool} {text : Str} {rule : ParsedRule}
    (h : rule ∈ parseRule d plain text) : (ruleResult rule).bind LineResult.listed
      = (listedRule rule).map fun l => (l.allow, l.name) := by
  have hwf := (parseRule_parsed d plain text rule h).wellFormed
  have hnone (hno : rule.validationState ≠ .valid ∨
      ¬(rule.ruleType = .block ∨ rule.ruleType = .allow)) : listedRule rule = none := by
    unfold listedRule
    split
    · rfl
    · rw [dif_neg]
      rintro ⟨hvalid, htype, -⟩
      exact hno.elim (fun h => h hvalid) fun h => h htype
  have hrejected : ∀ kind reason, kind = .skip ∨ kind = .invalid ∨ kind = .unsupported →
      LineResult.listed ⟨kind, none, reason⟩ = none := by
    rintro kind reason (rfl | rfl | rfl) <;> rfl
  unfold ruleResult
  split_ifs with hcomment hinvalid hunsupported hregex hrewrite halias
  · rw [hnone (Or.inr (by simp [hcomment]))]
    rfl
  · rw [hnone (Or.inl (by simp [hinvalid]))]
    rfl
  · rw [hnone (Or.inl (by simp [hunsupported]))]
    rfl
  · rw [hnone (Or.inr (by rcases hregex with h | h <;> simp [h]))]
    rfl
  · rw [hnone (Or.inr (by simp [hrewrite]))]
    rfl
  · obtain ⟨name, hname, hmem⟩ := Option.any_eq_true _ _ |>.mp halias
    have hlisted : listedRule rule = none := by
      simp only [listedRule, hname]
      exact dif_neg fun h => h.2.2.1 (of_decide_eq_true hmem)
    rw [hlisted]
    rfl
  · have hvalid : rule.validationState = .valid := by
      cases hstate : rule.validationState with
      | valid => rfl
      | invalid => exact absurd hstate hinvalid
      | unsupported => exact absurd hstate hunsupported
    have htype : rule.ruleType = .block ∨ rule.ruleType = .allow := by
      rw [ParsedRule.wellFormed, if_pos hvalid] at hwf
      cases htype : rule.ruleType <;> rw [htype] at hwf hcomment hregex hrewrite <;> simp_all
    obtain ⟨name, hname, hmatches⟩ := ParsedRule.domain_matches hwf hvalid
      (by rcases htype with h | h <;> rw [h] <;> rfl)
    rw [hname, Option.any_some, decide_eq_true_eq] at halias
    simp [listedRule, LineResult.listed, hname, hvalid, htype, halias, hmatches]

/-- **`parseSourceLine` lists the names of the results.** -/
theorem lineResults_listed (d : ParserData) (raw : Str) :
    (lineResults d raw).filterMap LineResult.listed
      = (parseSourceLine d raw).map fun l => (l.allow, l.name) := by
  unfold lineResults lineResultsWith parseSourceLine
  by_cases hhosts : isHostsLine ((words raw).head?.getD []) = true
  · rw [if_pos hhosts, if_pos hhosts]
    dsimp only
    generalize words (partition '#' raw).1 = parts
    rw [List.map_filterMap]
    split_ifs with hlength
    · have htail : parts.tail = [] := by
        rw [← List.length_eq_zero_iff, List.length_tail]
        omega
      rw [htail]
      rfl
    · rw [List.filterMap_map]
      exact List.filterMap_congr fun host _ => hostResult_listed d.toUnicodeData host
  · rw [if_neg hhosts, if_neg hhosts]
    dsimp only
    cases fastCommonSourceRule d.toUnicodeData (adguardBlockpageNormalize raw) with
    | some l => simp [ListedDomain.result_listed]
    | none =>
        simp only [parserResults, List.filterMap_filterMap, List.map_filterMap]
        exact List.filterMap_congr fun rule hrule => ruleResult_listed hrule

end AlderpointDNS
