import AlderpointDNS.CustomRules.Parser
import AlderpointDNS.CustomRules.Rpz

/-!
# The sources of a deployment

`parse_rule_lines` reads a downloaded list line by line; a line is in the format of a hosts file, or
goes to the parser of the custom rules.  `collect_rules` unites what the enabled sources list.

A name comes out of either of the two parsers with the check of `normalize_domain` behind it, which
`ListedDomain` keeps as a field.

* `collectRules_congr` — what `collect_rules` returns depends on the files of the enabled sources.

The counters and samples of `ParseStats`, and `source_parse_cache`, come on top of this in the
modules on the statistics and on the cache of the sources.
-/

namespace AlderpointDNS

open Text Ipaddress

/-! ## `parse_source_line` -/

/-- A `block` or `allow` result of `parse_source_line`; the other kinds are only counted. -/
structure ListedDomain where
  allow : Bool
  name : Str
  normalized : matchesDomainRe name = true

/-- `LOCALHOST_ALIASES`. -/
def localhostAliases : List Str :=
  ["localhost".toList, "localhost.localdomain".toList, "ip6-localhost".toList,
    "ip6-loopback".toList]

/-- `_could_be_ip_literal`; no address starts with a digit that is not ASCII. -/
def couldBeIpLiteral (value : Str) : Bool := value.head?.any isDecDigit || value.contains ':'

/-- `_is_hosts_line`. -/
def isHostsLine (firstToken : Str) : Bool :=
  couldBeIpLiteral firstToken && (ipAddress firstToken).isSome

/-- `normalize_domain`, with what it has checked. -/
def listedDomain (u : UnicodeData) (allow : Bool) (raw : Str) : Option ListedDomain :=
  match h : normalizeDomain u raw with
  | some name => some { allow := allow, name := name, normalized := normalizeDomain_matches h }
  | none => none

/-- A host name of a line in the hosts format. -/
def parseSourceHost (u : UnicodeData) (host : Str) : Option ListedDomain :=
  if u.toLower (stripBy (· = '.') host) ∈ localhostAliases then none
  else (listedDomain u false host).filter fun d => d.name ∉ localhostAliases

/-- `_adguard_blockpage_normalize`. -/
def adguardBlockpageNormalize (text : Str) : Str :=
  if isSubstring "$dnsrewrite=".toList text then
    let (head, modifiers) := partition '$' text
    if strip modifiers = "dnsrewrite=ad-block.dns.adguard.com".toList then strip head else text
  else text

/-- `_FAST_DOMAIN_CHARS`. -/
def isFastDomainChar (c : Char) : Bool :=
  ('a' ≤ c && c ≤ 'z') || ('A' ≤ c && c ≤ 'Z') || isDecDigit c || c = '.' || c = '_' || c = '-'

/-- `_fast_common_source_rule`; `none` for what is left to `parse_rule`. -/
def fastCommonSourceRule (u : UnicodeData) (raw : Str) : Option ListedDomain :=
  let isAllow := startsWith raw "@@".toList
  let body := if isAllow then raw.drop 2 else raw
  let anchored := endsWith body ['^'] && body.count '^' = 1
  let candidate :=
    if startsWith body "||".toList && anchored then (body.drop 2).dropLast
    else if startsWith body ['|'] && anchored then (body.drop 1).dropLast
    else body
  if candidate = [] || !candidate.all isFastDomainChar then none
  else listedDomain u isAllow candidate

/-- A rule of `parse_rule` in a list. -/
def listedRule (rule : ParsedRule) : Option ListedDomain :=
  match rule.domain with
  | none => none
  | some name =>
      if h : rule.validationState = .valid ∧ (rule.ruleType = .block ∨ rule.ruleType = .allow) ∧
          name ∉ localhostAliases ∧ matchesDomainRe name = true then
        some { allow := rule.action = .allow, name := name, normalized := h.2.2.2 }
      else none

/-- `parse_source_line`, without the results that are only counted. -/
def parseSourceLine (d : ParserData) (raw : Str) : List ListedDomain :=
  if isHostsLine ((words raw).head?.getD []) then
    (words (partition '#' raw).1).tail.filterMap (parseSourceHost d.toUnicodeData)
  else
    let normalized := adguardBlockpageNormalize raw
    match fastCommonSourceRule d.toUnicodeData normalized with
    | some listed => [listed]
    | none => (parseRule d true normalized).filterMap listedRule

/-! ## `parse_rule_lines` -/

/-- The lines of a file opened as text, whatever ends them. -/
def fileLines (content : Str) : List Str := split '\n' (universalNewlines content)
where
  universalNewlines : Str → Str
    | '\r' :: '\n' :: cs => '\n' :: universalNewlines cs
    | '\r' :: cs => '\n' :: universalNewlines cs
    | c :: cs => c :: universalNewlines cs
    | [] => []

/-- A line of `parse_rule_lines`. -/
def parseListLine (d : ParserData) (line : Str) : List ListedDomain :=
  let raw := strip line
  if raw = [] || startsWith raw ['#'] || startsWith raw ['!'] || startsWith raw "//".toList then []
  else if startsWith raw ['['] && endsWith raw [']'] then []
  else parseSourceLine d raw

/-- `parse_rule_lines` on the lines of a file. -/
def parseRuleLines (d : ParserData) (content : Str) : List ListedDomain :=
  (fileLines content).flatMap (parseListLine d)

/-- The names of one kind. -/
def namesOf (allow : Bool) (listed : List ListedDomain) : Finset Str :=
  ((listed.filter (·.allow = allow)).map (·.name)).toFinset

theorem matches_of_mem_namesOf {allow : Bool} {listed : List ListedDomain} {name : Str}
    (h : name ∈ namesOf allow listed) : matchesDomainRe name = true := by
  simp only [namesOf, List.mem_toFinset, List.mem_map] at h
  obtain ⟨d, -, rfl⟩ := h
  exact d.normalized

/-! ## `collect_rules` -/

/-- The columns of `sources` that a deployment reads. -/
structure BlocklistSource where
  id : ℕ
  name : Str
  url : Str
  enabled : Bool
  category : Str
  deriving DecidableEq

/-- `enabled_sources`. -/
def enabledSources (sources : List BlocklistSource) : List BlocklistSource :=
  sources.filter (·.enabled)

/-- The files of `source_paths`, by the two columns in their names. -/
abbrev SourceFiles := ℕ → Str → Option Str

def sourceFile (files : SourceFiles) (source : BlocklistSource) : Option Str :=
  files source.id source.name

/-- `collect_rules` after the downloads: `all_blocks - all_allows`. -/
def collectRules (d : ParserData) (files : SourceFiles) (sources : List BlocklistSource) :
    BlockSet where
  names :=
    let listed := sources.flatMap fun source =>
      ((sourceFile files source).map (parseRuleLines d)).getD []
    namesOf false listed \ namesOf true listed
  normalized _ h := matches_of_mem_namesOf (Finset.mem_sdiff.mp h).1

/-- What `collect_rules` returns depends on the files of the sources it is given. -/
theorem collectRules_congr {d : ParserData} {files files' : SourceFiles}
    {sources : List BlocklistSource}
    (h : ∀ source ∈ sources, sourceFile files source = sourceFile files' source) :
    collectRules d files sources = collectRules d files' sources := by
  have hlisted : (sources.flatMap fun source =>
      ((sourceFile files source).map (parseRuleLines d)).getD []) =
      sources.flatMap fun source =>
        ((sourceFile files' source).map (parseRuleLines d)).getD [] :=
    List.flatMap_congr fun source hsource => by rw [h source hsource]
  unfold collectRules
  simp only [hlisted]

end AlderpointDNS
