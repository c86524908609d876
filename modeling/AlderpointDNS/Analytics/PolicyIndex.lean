import AlderpointDNS.CustomRules.Precedence
import AlderpointDNS.CustomRules.Duplicates
import AlderpointDNS.Deploy.Sources
import AlderpointDNS.Replication.Tables
import Mathlib.Data.Finset.Lattice.Lemmas

/-!
# Blocked queries in the statistics

dnsdist reports answers, and not why it gave them.  The statistics look the name of a query up in
an index of their own: `load_policy_index` reads the legacy table `custom_rules` and the downloaded
lists, and `policy_match` looks for the name and its parents.  `event_from_message` flags the query
when a name is found and the response code is one of three.

* **`isSome_loadPolicyIndex`** — the names of the index;
* `decider`, `policyOutcome_eq` — what decides a name in the compiled policy;
* **`event_blocked_iff`** — when the flag says what the compiled policy does;
* `agrees_of_lists` — it does where there are only lists;
* `custom_block_not_counted` — a custom rule that blocks, and is not counted.

The rules are those after `init_db`, with which both sides begin.  Not modelled: the time, the
client and the latency of an event.
-/

namespace AlderpointDNS.Analytics

open Text

/-! ## The index -/

/-- What the policy and the index are made of. -/
structure PolicyState where
  rules : List StoredRule
  legacy : List LegacyRow
  sources : List BlocklistSource
  files : SourceFiles

/-- The source and the category of each blocked name. -/
abbrev PolicyIndex := Dict Str (Str × Str)

/-- `parse_rules` of what `read_text` returns. -/
def parseRules (d : ParserData) (content : Str) : List ListedDomain :=
  (splitlines (fileLines.universalNewlines content)).flatMap (parseListLine d)

/-- The domains of the enabled legacy rows with an action. -/
def legacyDomains (action : AllowBlock) (rows : List LegacyRow) : List Str :=
  (rows.filter fun row => row.enabled && row.action = action).map (·.domain)

/-- `allows` and `policy`. -/
structure IndexState where
  allows : Finset Str
  policy : PolicyIndex

/-- One round of the loop over `blocks`. -/
def indexDomain (label : Str × Str) (s : IndexState) (domain : Str) : IndexState :=
  if domain ∉ s.allows ∧ s.policy.lookup domain = none then
    { s with policy := s.policy.insert domain label }
  else s

/-- One round of the loop over the sources; the order within the set `blocks` does not matter. -/
def indexSource (d : ParserData) (files : SourceFiles) (s : IndexState)
    (source : BlocklistSource) : IndexState :=
  match sourceFile files source with
  -- `read_text` raises
  | none => s
  | some content =>
      let listed := parseRules d content
      (sortedSet (namesOf false listed)).foldl (indexDomain (source.name, source.category))
        { s with allows := s.allows ∪ namesOf true listed }

/-- The names of the legacy table, before the sources. -/
def indexLegacy (legacy : List LegacyRow) : IndexState :=
  let allows := (legacyDomains .allow legacy).toFinset
  { allows := allows
    policy := (legacyDomains .block legacy).foldl (fun policy domain =>
      if domain ∈ allows then policy
      else policy.insert domain ("Custom rule".toList, "custom".toList)) ∅ }

/-- `load_policy_index`. -/
def loadPolicyIndex (d : ParserData) (s : PolicyState) : PolicyIndex :=
  let indexed := (enabledSources s.sources).foldl (indexSource d s.files) (indexLegacy s.legacy)
  (sortedSet indexed.allows).foldl (fun policy allowed => policy.erase allowed) indexed.policy

/-! ## Events -/

/-- `normalize_query_domain`. -/
def normalizeQueryDomain (u : UnicodeData) (value : Str) : Str :=
  match normalizeDomain u value with
  | some domain => domain
  | none =>
      let domain := u.toLower (stripBy (· = '.') (strip value))
      if domain = [] then "unknown".toList else domain

/-- The candidates of `policy_match`. -/
def candidates (domain : Str) : List Str :=
  (List.range (split '.' domain).length).map fun i => join ['.'] ((split '.' domain).drop i)

/-- `policy_match`. -/
def policyMatch (domain : Str) (policy : PolicyIndex) : Option (Str × Str × Str) :=
  (candidates domain).findSome? fun candidate =>
    (policy.lookup candidate).map fun label => (candidate, label.1, label.2)

/-- The fields of a decoded message; an empty text is missing. -/
structure Message where
  domain : Str
  qtype : Str
  protocol : Str
  rcode : Str

/-- `QueryEvent`. -/
structure QueryEvent where
  domain : Str
  qtype : Str
  protocol : Str
  rcode : Str
  blocked : Bool
  blockedDomain : Option Str
  blockSource : Option Str
  blockCategory : Option Str

/-- `str(message.get(key) or default)`. -/
def orDefault (value fallback : Str) : Str := if value = [] then fallback else value

/-- The response codes with which a matched name counts as blocked. -/
def blockedCodes : List Str := ["NXDOMAIN".toList, "NOERROR".toList, "REFUSED".toList]

/-- The domain of an event. -/
def queryDomain (u : UnicodeData) (domain : Str) : Str :=
  normalizeQueryDomain u (orDefault domain "unknown".toList)

/-- `event_from_message`. -/
def eventFromMessage (u : UnicodeData) (aggregateOnly : Bool) (policy : PolicyIndex)
    (message : Message) : QueryEvent :=
  let domain := queryDomain u message.domain
  let found := policyMatch domain policy
  let rcode := orDefault message.rcode "UNKNOWN".toList
  { domain := if aggregateOnly then [] else domain
    qtype := orDefault message.qtype "UNKNOWN".toList
    protocol := orDefault message.protocol "UNKNOWN".toList
    rcode := rcode
    blocked := found.isSome && blockedCodes.contains rcode
    blockedDomain := found.map (·.1)
    blockSource := found.map (·.2.1)
    blockCategory := found.map (·.2.2) }

/-! ## The names of the index -/

/-- What `parse_rules` finds in the file of a source. -/
def listedBy (d : ParserData) (files : SourceFiles) (source : BlocklistSource) :
    List ListedDomain :=
  ((sourceFile files source).map (parseRules d)).getD []

/-- The names that the legacy table or an enabled list blocks. -/
def blockNames (d : ParserData) (s : PolicyState) : Finset Str :=
  (legacyDomains .block s.legacy).toFinset ∪
    namesOf false ((enabledSources s.sources).flatMap (listedBy d s.files))

/-- The names that the legacy table or an enabled list allows. -/
def allowNames (d : ParserData) (s : PolicyState) : Finset Str :=
  (legacyDomains .allow s.legacy).toFinset ∪
    namesOf true ((enabledSources s.sources).flatMap (listedBy d s.files))

/-- The index has blocked names only, and those that are not allowed. -/
structure Indexes (blocks : Finset Str) (s : IndexState) : Prop where
  sound : ∀ x, (s.policy.lookup x).isSome = true → x ∈ blocks
  complete : ∀ x ∈ blocks, x ∉ s.allows → (s.policy.lookup x).isSome = true

theorem Indexes.domain {blocks : Finset Str} {s : IndexState} (h : Indexes blocks s)
    (label : Str × Str) (domain : Str) :
    Indexes (insert domain blocks) (indexDomain label s domain) ∧
      (indexDomain label s domain).allows = s.allows := by
  unfold indexDomain
  split_ifs with hnew
  · refine ⟨⟨fun x hx => ?_, fun x hx hallow => ?_⟩, rfl⟩
    · rw [Dict.lookup_insert'] at hx
      split_ifs at hx with hdomain
      · exact hdomain ▸ Finset.mem_insert_self _ _
      · exact Finset.mem_insert_of_mem (h.sound x hx)
    · rw [Dict.lookup_insert']
      split_ifs with hdomain
      · rfl
      · exact h.complete x (Finset.mem_of_mem_insert_of_ne hx (Ne.symm hdomain)) hallow
  · refine ⟨⟨fun x hx => Finset.mem_insert_of_mem (h.sound x hx), fun x hx hallow => ?_⟩, rfl⟩
    rcases Finset.mem_insert.mp hx with rfl | hx
    · rw [not_and] at hnew
      exact Option.isSome_iff_ne_none.mpr (hnew hallow)
    · exact h.complete x hx hallow

theorem Indexes.domains {blocks : Finset Str} {s : IndexState} (h : Indexes blocks s)
    (label : Str × Str) (domains : List Str) :
    Indexes (blocks ∪ domains.toFinset) (domains.foldl (indexDomain label) s) ∧
      (domains.foldl (indexDomain label) s).allows = s.allows := by
  induction domains generalizing blocks s with
  | nil => simpa using h
  | cons domain domains ih =>
      obtain ⟨hone, hallows⟩ := h.domain label domain
      obtain ⟨hrest, hallows'⟩ := ih hone
      rw [List.foldl_cons, List.toFinset_cons, Finset.union_insert, ← Finset.insert_union]
      exact ⟨hrest, hallows'.trans hallows⟩

/-- More allowed names. -/
theorem Indexes.allow {blocks : Finset Str} {s : IndexState} (h : Indexes blocks s)
    (allows : Finset Str) : Indexes blocks { s with allows := s.allows ∪ allows } where
  sound := h.sound
  complete x hx hallow := h.complete x hx fun hmem => hallow (Finset.mem_union_left _ hmem)

theorem mem_namesOf {allow : Bool} {listed : List ListedDomain} {x : Str} :
    x ∈ namesOf allow listed ↔ ∃ d ∈ listed, d.allow = allow ∧ d.name = x := by
  simp [namesOf, and_assoc]

theorem namesOf_append (allow : Bool) (listed listed' : List ListedDomain) :
    namesOf allow (listed ++ listed') = namesOf allow listed ∪ namesOf allow listed' := by
  ext x
  simp only [Finset.mem_union, mem_namesOf, List.mem_append, or_and_right, exists_or]

/-- One more source. -/
theorem Indexes.source {blocks : Finset Str} {s : IndexState} (h : Indexes blocks s)
    (d : ParserData) (files : SourceFiles) (source : BlocklistSource) :
    Indexes (blocks ∪ namesOf false (listedBy d files source)) (indexSource d files s source) ∧
      (indexSource d files s source).allows
        = s.allows ∪ namesOf true (listedBy d files source) := by
  unfold indexSource listedBy
  cases sourceFile files source with
  | none => simpa [namesOf] using h
  | some content =>
      have hlisted := (h.allow (namesOf true (parseRules d content))).domains
        (source.name, source.category) (sortedSet (namesOf false (parseRules d content)))
      have hset : (sortedSet (namesOf false (parseRules d content))).toFinset
          = namesOf false (parseRules d content) := by
        ext x
        rw [List.mem_toFinset, mem_sortedSet]
      rw [hset] at hlisted
      exact hlisted

theorem Indexes.sources {blocks : Finset Str} {s : IndexState} (h : Indexes blocks s)
    (d : ParserData) (files : SourceFiles) (sources : List BlocklistSource) :
    Indexes (blocks ∪ namesOf false (sources.flatMap (listedBy d files)))
        (sources.foldl (indexSource d files) s) ∧
      (sources.foldl (indexSource d files) s).allows
        = s.allows ∪ namesOf true (sources.flatMap (listedBy d files)) := by
  induction sources generalizing blocks s with
  | nil => simpa [namesOf] using h
  | cons source sources ih =>
      obtain ⟨hone, hallows⟩ := h.source d files source
      obtain ⟨hrest, hallows'⟩ := ih hone
      rw [List.foldl_cons, List.flatMap_cons, namesOf_append, namesOf_append,
        ← Finset.union_assoc, ← Finset.union_assoc, ← hallows]
      exact ⟨hrest, hallows'⟩

theorem isSome_foldl_insert (allows : Finset Str) (label : Str × Str) (domains : List Str)
    (policy : PolicyIndex) (x : Str) :
    ((domains.foldl (fun policy domain =>
        if domain ∈ allows then policy else policy.insert domain label) policy).lookup x).isSome
        = true ↔
      (policy.lookup x).isSome = true ∨ x ∈ domains ∧ x ∉ allows := by
  induction domains generalizing policy with
  | nil => simp
  | cons domain domains ih =>
      rw [List.foldl_cons, ih]
      split_ifs with hallow
      · by_cases hx : x = domain
        · simp [hx, hallow]
        · simp [hx]
      · rw [Dict.lookup_insert']
        by_cases hx : domain = x
        · simp [← hx, hallow]
        · simp [hx, Ne.symm hx]

theorem indexes_legacy (legacy : List LegacyRow) :
    Indexes (legacyDomains .block legacy).toFinset (indexLegacy legacy) := by
  have hfold (x : Str) := isSome_foldl_insert (legacyDomains .allow legacy).toFinset
    ("Custom rule".toList, "custom".toList) (legacyDomains .block legacy) ∅ x
  constructor
  · intro x hx
    have hfound := (hfold x).mp hx
    rw [AList.lookup_empty, Option.isSome_none] at hfound
    exact List.mem_toFinset.mpr (hfound.resolve_left Bool.false_ne_true).1
  · intro x hx hallow
    exact (hfold x).mpr (.inr ⟨List.mem_toFinset.mp hx, hallow⟩)

/-- **The names of the index: those that are blocked somewhere and allowed nowhere.** -/
theorem isSome_loadPolicyIndex (d : ParserData) (s : PolicyState) (x : Str) :
    ((loadPolicyIndex d s).lookup x).isSome = true ↔
      x ∈ blockNames d s ∧ x ∉ allowNames d s := by
  obtain ⟨hindexes, hallows⟩ :=
    (indexes_legacy s.legacy).sources d s.files (enabledSources s.sources)
  unfold loadPolicyIndex
  dsimp only
  rw [Dict.isSome_lookup_foldl_erase, mem_sortedSet, hallows]
  refine and_congr_left fun hallow => ⟨hindexes.sound x, fun hx => ?_⟩
  exact hindexes.complete x hx (hallows ▸ hallow)

/-! ## The lookup -/

theorem candidates_eq (domain : Str) : candidates domain = domain :: parents domain := by
  have hsuffixes := joinedSuffixes_eq_parents domain
  obtain ⟨n, hn⟩ : ∃ n, (split '.' domain).length = n + 1 :=
    Nat.exists_eq_succ_of_ne_zero (by simp [split_ne_nil])
  unfold joinedSuffixes at hsuffixes
  unfold candidates
  rw [hn, Nat.add_sub_cancel] at hsuffixes
  rw [hn, List.range_succ_eq_map, List.map_cons, List.map_map, List.drop_zero, join_split,
    ← hsuffixes]
  rfl

/-- A name on the way up from the domain is in the index. -/
def Indexed (d : ParserData) (s : PolicyState) (domain : Str) : Prop :=
  ∃ x ∈ domain :: parents domain, x ∈ blockNames d s ∧ x ∉ allowNames d s

instance (d : ParserData) (s : PolicyState) (domain : Str) : Decidable (Indexed d s domain) :=
  inferInstanceAs (Decidable (∃ _ ∈ _, _))

theorem isSome_policyMatch (d : ParserData) (s : PolicyState) (domain : Str) :
    (policyMatch domain (loadPolicyIndex d s)).isSome = true ↔ Indexed d s domain := by
  unfold policyMatch Indexed
  rw [candidates_eq, List.findSome?_isSome_iff]
  simp only [Option.isSome_map, isSome_loadPolicyIndex]

/-! ## What decides a name -/

/-- What the compiled policy goes by. -/
inductive Decider where
  /-- a regex rule that blocks -/
  | regex
  /-- the custom rules of a name -/
  | rule (verdict : Outcome)
  /-- a name of a list -/
  | list
  | nothing
deriving DecidableEq

/-- What comes of it. -/
def Decider.outcome : Decider → Outcome
  | .regex => .block
  | .rule verdict => verdict
  | .list => .block
  | .nothing => .unfiltered

section Decider

variable (rx : Str → Str → Bool) (rules : List ParsedRule) (external : BlockSet)

/-- What decides at a name: its rules, else the lists. -/
def decidesAt (verdict : List ParsedRule → Option Outcome) (x : Str) : Option Decider :=
  ((verdict (domainRules rules x)).map .rule).or
    (if stands rules external x then some .list else none)

/-- What decides a queried name: a regex rule that no other rule overrides, else the nearest name
on the way up at which there is something. -/
def decider (q : Str) : Decider :=
  if regexHit rx .regexBlock rules q && !regexHit rx .regexAllow rules q && !passes rules q then
    .regex
  else
    ((decidesAt rules external rulesVerdict q).or
      ((parents q).findSome? (decidesAt rules external wildcardVerdict))).getD .nothing

theorem map_outcome_decidesAt (verdict : List ParsedRule → Option Outcome) (x : Str) :
    (decidesAt rules external verdict x).map Decider.outcome
      = (verdict (domainRules rules x)).or
          (if stands rules external x then some .block else none) := by
  unfold decidesAt
  cases verdict (domainRules rules x) with
  | some o => rfl
  | none => split_ifs <;> rfl

theorem policyOutcome_eq (q : Str) :
    policyOutcome rx rules external q = (decider rx rules external q).outcome := by
  unfold policyOutcome decider
  split_ifs
  · rfl
  · have hname := map_outcome_decidesAt rules external rulesVerdict q
    have hparents : ((parents q).findSome? (decidesAt rules external wildcardVerdict)).map
        Decider.outcome = (parents q).findSome? (wildcardAnswer rules external) := by
      rw [List.map_findSome?]
      exact congrArg (List.findSome? · (parents q))
        (funext fun x => map_outcome_decidesAt rules external wildcardVerdict x)
    unfold zoneAnswer nameAnswer
    rw [← hname, ← hparents, ← Option.map_or]
    cases (decidesAt rules external rulesVerdict q).or
      ((parents q).findSome? (decidesAt rules external wildcardVerdict)) <;> rfl

end Decider

/-! ## The flag and the policy -/

/-- The response code of an answer of the policy; a name that is not filtered is resolved. -/
def answerCode (resolved : Str) : Outcome → Str
  | .block => "NXDOMAIN".toList
  | .rewrite => "NOERROR".toList
  | .unfiltered => resolved

/-- The flag is right about a name, given what decides it and whether the index has a name for it.
An unfiltered name is flagged only with one of the three response codes. -/
def Agrees (indexed : Prop) (resolved : Str) : Decider → Prop
  | .regex => indexed
  | .rule .block => indexed
  | .list => indexed
  | .rule .rewrite => ¬indexed
  | .rule .unfiltered => ¬(indexed ∧ resolved ∈ blockedCodes)
  | .nothing => ¬(indexed ∧ resolved ∈ blockedCodes)

theorem agrees_iff (indexed : Prop) (resolved : Str) (decider : Decider) :
    (indexed ∧ answerCode resolved decider.outcome ∈ blockedCodes ↔ decider.outcome = .block) ↔
      Agrees indexed resolved decider := by
  have hblock : answerCode resolved .block ∈ blockedCodes := by
    change "NXDOMAIN".toList ∈ blockedCodes
    decide
  have hrewrite : answerCode resolved .rewrite ∈ blockedCodes := by
    change "NOERROR".toList ∈ blockedCodes
    decide
  have hblocked : (indexed ∧ answerCode resolved .block ∈ blockedCodes ↔
      Outcome.block = .block) ↔ indexed := by
    rw [and_iff_left hblock, iff_true_right rfl]
  have hrewritten : (indexed ∧ answerCode resolved .rewrite ∈ blockedCodes ↔
      Outcome.rewrite = .block) ↔ ¬indexed := by
    rw [and_iff_left hrewrite]
    exact iff_false_right (by decide)
  have hunfiltered : (indexed ∧ resolved ∈ blockedCodes ↔ Outcome.unfiltered = .block) ↔
      ¬(indexed ∧ resolved ∈ blockedCodes) := iff_false_right (by decide)
  cases decider with
  | regex => exact hblocked
  | list => exact hblocked
  | nothing => exact hunfiltered
  | rule verdict =>
      cases verdict with
      | block => exact hblocked
      | rewrite => exact hrewritten
      | unfiltered => exact hunfiltered

theorem normalizeQueryDomain_ne_nil (u : UnicodeData) (value : Str) :
    normalizeQueryDomain u value ≠ [] := by
  unfold normalizeQueryDomain
  cases hdomain : normalizeDomain u value with
  | some domain => exact matchesDomainRe_ne_nil (normalizeDomain_matches hdomain)
  | none =>
      dsimp only
      split_ifs with hnil
      · decide
      · exact hnil

/-- When an event is flagged. -/
theorem eventFromMessage_blocked (d : ParserData) (s : PolicyState) (aggregateOnly : Bool)
    (message : Message) :
    (eventFromMessage d.toUnicodeData aggregateOnly (loadPolicyIndex d s) message).blocked = true ↔
      Indexed d s (queryDomain d.toUnicodeData message.domain) ∧
        message.rcode ∈ blockedCodes := by
  have hcode : orDefault message.rcode "UNKNOWN".toList ∈ blockedCodes ↔
      message.rcode ∈ blockedCodes := by
    unfold orDefault
    split_ifs with hnil
    · rw [hnil]
      decide
    · rfl
  unfold eventFromMessage
  dsimp only
  rw [Bool.and_eq_true, isSome_policyMatch, List.contains_iff_mem, hcode]

/-- **The flag says what the compiled policy does exactly when the index agrees with what decides
the name.** -/
theorem event_blocked_iff {d : ParserData} {s : PolicyState} {zones : List Str}
    {policy : CompiledPolicy}
    (h : compilePolicy s.rules (collectRules d s.files (enabledSources s.sources)) zones
      = some policy) (rx : Str → Str → Bool) (aggregateOnly : Bool)
    (domain qtype protocol resolved : Str)
    (hzones : ∀ z ∈ zones, inZone (queryDomain d.toUnicodeData domain) z = false) :
    let q := queryDomain d.toUnicodeData domain
    let answer := compiledOutcome rx policy q
    ((eventFromMessage d.toUnicodeData aggregateOnly (loadPolicyIndex d s)
        ⟨domain, qtype, protocol, answerCode resolved answer⟩).blocked = true ↔
      answer = .block) ↔
      Agrees (Indexed d s q) resolved (decider rx (activeRules s.rules)
        (collectRules d s.files (enabledSources s.sources)) q) := by
  intro q answer
  have hanswer : answer = (decider rx (activeRules s.rules)
      (collectRules d s.files (enabledSources s.sources)) q).outcome := by
    rw [← policyOutcome_eq]
    exact compiledOutcome_spec h rx (normalizeQueryDomain_ne_nil _ _) hzones
  rw [eventFromMessage_blocked]
  dsimp only
  rw [hanswer]
  exact agrees_iff _ resolved _

/-! ### Lists -/

section Lists

variable {d : ParserData} {s : PolicyState}

/-- The lists of the index are those of the policy where both break the files into the same
lines. -/
theorem mem_external_iff (hlegacy : s.legacy = [])
    (hlines : ∀ source ∈ enabledSources s.sources, ∀ content,
      sourceFile s.files source = some content → parseRules d content = parseRuleLines d content)
    (x : Str) : x ∈ collectRules d s.files (enabledSources s.sources) ↔
      x ∈ blockNames d s ∧ x ∉ allowNames d s := by
  have hlisted : (enabledSources s.sources).flatMap (listedBy d s.files)
      = (enabledSources s.sources).flatMap fun source =>
        ((sourceFile s.files source).map (parseRuleLines d)).getD [] := by
    refine List.flatMap_congr fun source hsource => ?_
    unfold listedBy
    cases hfile : sourceFile s.files source with
    | none => rfl
    | some content => exact hlines source hsource content hfile
  unfold blockNames allowNames
  rw [hlisted, hlegacy]
  rw [show legacyDomains .block [] = [] from rfl, show legacyDomains .allow [] = [] from rfl,
    List.toFinset_nil, Finset.empty_union, Finset.empty_union, ← Finset.mem_sdiff]
  rfl

theorem stands_nil (external : BlockSet) (x : Str) :
    stands [] external x = decide (x ∈ external) := by
  rw [stands, survives_nil, Bool.and_true]

/-- Without custom rules the lists decide. -/
theorem decider_nil (rx : Str → Str → Bool) (external : BlockSet) (q : Str) :
    decider rx [] external q =
      if ∃ x ∈ q :: parents q, x ∈ external then .list else .nothing := by
  have hat (verdict : List ParsedRule → Option Outcome) (hverdict : verdict [] = none) :
      decidesAt [] external verdict = fun x => if x ∈ external then some .list else none := by
    funext x
    unfold decidesAt
    rw [show domainRules [] x = [] from rfl, hverdict, stands_nil]
    simp
  have hfind (names : List Str) : (names.findSome? fun x =>
      if x ∈ external then some Decider.list else none).getD .nothing
        = if ∃ x ∈ names, x ∈ external then .list else .nothing := by
    induction names with
    | nil => simp
    | cons x names ih =>
        rw [List.findSome?_cons]
        by_cases hx : x ∈ external
        · simp [hx]
        · simpa [hx] using ih
  rw [← hfind, decider, hat rulesVerdict rfl, hat wildcardVerdict rfl, List.findSome?_cons]
  simp only [regexHit, List.any_nil, Bool.false_and, Bool.false_eq_true, if_false]
  split_ifs <;> rfl

/-- **The flag is right where there are only lists**, in the lines of which both sides agree. -/
theorem agrees_of_lists (hrules : activeRules s.rules = []) (hlegacy : s.legacy = [])
    (hlines : ∀ source ∈ enabledSources s.sources, ∀ content,
      sourceFile s.files source = some content → parseRules d content = parseRuleLines d content)
    (rx : Str → Str → Bool) (resolved q : Str) :
    Agrees (Indexed d s q) resolved (decider rx (activeRules s.rules)
      (collectRules d s.files (enabledSources s.sources)) q) := by
  have hindexed : (∃ x ∈ q :: parents q,
      x ∈ collectRules d s.files (enabledSources s.sources)) ↔ Indexed d s q := by
    simp only [mem_external_iff hlegacy hlines]
    rfl
  rw [hrules, decider_nil]
  split_ifs with hfound
  · exact hindexed.mp hfound
  · exact fun h => hfound (hindexed.mpr h.1)

end Lists

/-! ### A custom rule

A rule that an administrator adds is in `custom_filter_rules` only. -/

def blockAds : StoredRule where
  ruleText := "||ads.com^".toList
  normalized := "||ads.com^".toList
  ruleType := .block
  action := .block
  domain := some "ads.com".toList
  matchSubdomains := true
  id := 1
  enabled := true
  sourceSystem := "manual".toList
  wf := by decide +kernel

/-- One custom rule and no lists. -/
def customState : PolicyState where
  rules := [blockAds]
  legacy := []
  sources := []
  files _ _ := none

/-- The same name on a list. -/
def listState : PolicyState where
  rules := []
  legacy := []
  sources := [{ id := 1, name := "ads".toList, url := [], enabled := true, category := [] }]
  files _ _ := some "||ads.com^".toList

/-- The name of the list is flagged. -/
theorem event_blocked_iff_ads : ∃ policy,
    compilePolicy listState.rules (collectRules asciiParserData listState.files
      (enabledSources listState.sources)) [] = some policy ∧
    ((eventFromMessage asciiParserData.toUnicodeData false
        (loadPolicyIndex asciiParserData listState) ⟨"x.ads.com".toList, "A".toList, "UDP".toList,
          answerCode [] (compiledOutcome (fun _ _ => false) policy
            (queryDomain asciiParserData.toUnicodeData "x.ads.com".toList))⟩).blocked = true ↔
      compiledOutcome (fun _ _ => false) policy
        (queryDomain asciiParserData.toUnicodeData "x.ads.com".toList) = .block) := by
  obtain ⟨policy, hpolicy⟩ : ∃ policy, compilePolicy listState.rules (collectRules asciiParserData
      listState.files (enabledSources listState.sources)) [] = some policy :=
    Option.isSome_iff_exists.mp (by decide +kernel)
  have hindexed : Indexed asciiParserData listState
      (queryDomain asciiParserData.toUnicodeData "x.ads.com".toList) := by
    decide +kernel
  have hdecider : decider (fun _ _ => false) (activeRules listState.rules)
      (collectRules asciiParserData listState.files (enabledSources listState.sources))
      (queryDomain asciiParserData.toUnicodeData "x.ads.com".toList) = .list := by
    decide +kernel
  refine ⟨policy, hpolicy, (event_blocked_iff hpolicy _ false _ _ _ _ nofun).mpr ?_⟩
  rw [hdecider]
  exact hindexed

/-- The policy blocks the name of the custom rule, and the query is not flagged. -/
theorem custom_block_not_counted : ¬∀ (d : ParserData) (s : PolicyState) (zones : List Str)
    (policy : CompiledPolicy) (rx : Str → Str → Bool) (domain : Str),
    compilePolicy s.rules (collectRules d s.files (enabledSources s.sources)) zones
      = some policy →
    (∀ z ∈ zones, inZone (queryDomain d.toUnicodeData domain) z = false) →
    ((eventFromMessage d.toUnicodeData false (loadPolicyIndex d s)
        ⟨domain, "A".toList, "UDP".toList, answerCode "NOERROR".toList
          (compiledOutcome rx policy (queryDomain d.toUnicodeData domain))⟩).blocked = true ↔
      compiledOutcome rx policy (queryDomain d.toUnicodeData domain) = .block) := by
  intro h
  obtain ⟨policy, hpolicy⟩ : ∃ policy, compilePolicy customState.rules (collectRules
      asciiParserData customState.files (enabledSources customState.sources)) [] = some policy :=
    Option.isSome_iff_exists.mp (by decide +kernel)
  have hiff := h asciiParserData customState [] policy (fun _ _ => false) "ads.com".toList hpolicy
    nofun
  have hcounted : (compilePolicy customState.rules (collectRules asciiParserData customState.files
      (enabledSources customState.sources)) []).map (fun policy =>
        ((eventFromMessage asciiParserData.toUnicodeData false
            (loadPolicyIndex asciiParserData customState)
            ⟨"ads.com".toList, "A".toList, "UDP".toList, answerCode "NOERROR".toList
              (compiledOutcome (fun _ _ => false) policy
                (queryDomain asciiParserData.toUnicodeData "ads.com".toList))⟩).blocked,
          compiledOutcome (fun _ _ => false) policy
            (queryDomain asciiParserData.toUnicodeData "ads.com".toList)))
      = some (false, .block) := by
    decide +kernel
  rw [hpolicy, Option.map_some, Option.some.injEq, Prod.mk.injEq] at hcounted
  rw [hcounted.1, hcounted.2] at hiff
  exact Bool.false_ne_true (hiff.mpr rfl)

end AlderpointDNS.Analytics
