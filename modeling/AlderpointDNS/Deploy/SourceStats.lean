import AlderpointDNS.Deploy.SourceLines
import Mathlib.Data.Finset.Card

/-!
# The statistics of a source

`parseSource` is `parse_rule_lines` with its `ParseStats`: one loop over the lines and, for a line,
over its results.

* `countInv_countLines` — what the counters of a source add up to (`CountInv`);
* `parseSource_names` — the two sets are those of `parseRuleLines`.
-/

namespace AlderpointDNS

open Text

/-! ## `parse_rule_lines` -/

/-- An entry of `rejected_samples`. -/
structure RejectedSample where
  line : ℕ
  kind : Str
  reason : Str
  excerpt : Str
  deriving DecidableEq

/-- The `ParseStats` dataclass, with its defaults. -/
structure ParseStats where
  downloadedEntries : ℤ := 0
  parsedRules : ℤ := 0
  acceptedDomains : ℤ := 0
  duplicateDomains : ℤ := 0
  invalidRules : ℤ := 0
  unsupportedRules : ℤ := 0
  uniqueActiveDomains : ℤ := 0
  exceptions : ℤ := 0
  rejectedSamples : List RejectedSample := []
  deriving DecidableEq

/-- The `(blocks, allows, stats)` of a source. -/
structure ParsedSource where
  blocks : Finset Str := ∅
  allows : Finset Str := ∅
  stats : ParseStats := {}
  deriving DecidableEq

/-- The most samples that are kept. -/
def maxSamples : ℕ := 20

/-- The entry for a rejected line. -/
def rejectedSample (line : ℕ) (kind reason raw : Str) : RejectedSample where
  line := line
  kind := kind
  reason := if reason = [] then kind ++ " entry".toList else reason
  excerpt := raw.take 120

/-- `rejected_samples.append`, below the cap. -/
def ParseStats.sample (stats : ParseStats) (line : ℕ) (kind reason raw : Str) : ParseStats :=
  if stats.rejectedSamples.length < maxSamples then
    { stats with
      rejectedSamples := stats.rejectedSamples ++ [rejectedSample line kind reason raw] }
  else stats

/-- A rule for `domain`: counted, and new in its set or not. -/
def ParsedSource.addRule (s : ParsedSource) (action : RuleAction) (domain : Str) : ParsedSource :=
  let stats := { s.stats with parsedRules := s.stats.parsedRules + 1 }
  let accepted := { stats with acceptedDomains := stats.acceptedDomains + 1 }
  if action = .allow then
    if domain ∈ s.allows then { s with stats := stats }
    else
      { s with
        allows := insert domain s.allows
        stats := { accepted with exceptions := accepted.exceptions + 1 } }
  else if domain ∈ s.blocks then { s with stats := stats }
  else { s with blocks := insert domain s.blocks, stats := accepted }

/-- One result of a line; a rule always has a domain. -/
def countResult (line : ℕ) (raw : Str) (s : ParsedSource) (r : LineResult) : ParsedSource :=
  match r.kind, r.domain with
  | .invalid, _ =>
      { s with
        stats := { s.stats with invalidRules := s.stats.invalidRules + 1 }.sample line
          "invalid".toList r.reason raw }
  | .unsupported, _ =>
      { s with
        stats := { s.stats with unsupportedRules := s.stats.unsupportedRules + 1 }.sample line
          "unsupported".toList r.reason raw }
  | .rule action, some domain => s.addRule action domain
  | _, _ => s

/-- The comments and section headers that the loop passes over. -/
def isIgnoredLine (raw : Str) : Bool :=
  raw = [] || startsWith raw ['#'] || startsWith raw ['!'] || startsWith raw "//".toList
    || (startsWith raw ['['] && endsWith raw [']'])

/-- One line, with its number. -/
def countLine (d : ParserData) (s : ParsedSource) (line : Str × ℕ) : ParsedSource :=
  let raw := strip line.1
  if isIgnoredLine raw then s
  else
    let stats := { s.stats with downloadedEntries := s.stats.downloadedEntries + 1 }
    (lineResults d raw).foldl (countResult line.2 raw) { s with stats := stats }

/-- The loop over the lines. -/
def countLines (d : ParserData) (content : Str) : ParsedSource :=
  ((fileLines content).zipIdx 1).foldl (countLine d) {}

/-- `parse_rule_lines` on the lines of a file. -/
def parseSource (d : ParserData) (content : Str) : ParsedSource :=
  let s := countLines d content
  { s with
    stats := { s.stats with
      uniqueActiveDomains := s.blocks.card
      duplicateDomains := s.stats.parsedRules - s.stats.acceptedDomains } }

/-! ## What the counters add up to -/

/-- The counters against the sets. -/
structure CountInv (s : ParsedSource) : Prop where
  accepted : s.stats.acceptedDomains = s.blocks.card + s.stats.exceptions
  exceptions : s.stats.exceptions = s.allows.card
  parsed : s.stats.acceptedDomains ≤ s.stats.parsedRules
  downloaded : 0 ≤ s.stats.downloadedEntries
  invalid : 0 ≤ s.stats.invalidRules
  unsupported : 0 ≤ s.stats.unsupportedRules
  samples : s.stats.rejectedSamples.length ≤ maxSamples
  names : ∀ name, name ∈ s.blocks ∨ name ∈ s.allows → matchesDomainRe name = true

theorem countInv_empty : CountInv {} where
  accepted := rfl
  exceptions := rfl
  parsed := le_rfl
  downloaded := le_rfl
  invalid := le_rfl
  unsupported := le_rfl
  samples := Nat.zero_le _
  names := by simp

/-- A sample changes no counter. -/
theorem exists_sample (stats : ParseStats) (h : stats.rejectedSamples.length ≤ maxSamples)
    (line : ℕ) (kind reason raw : Str) : ∃ samples : List RejectedSample,
      samples.length ≤ maxSamples ∧
        stats.sample line kind reason raw = { stats with rejectedSamples := samples } := by
  unfold ParseStats.sample
  split_ifs with hlt
  · refine ⟨_, ?_, rfl⟩
    rw [List.length_append, List.length_singleton]
    exact hlt
  · exact ⟨stats.rejectedSamples, h, rfl⟩

theorem CountInv.addRule {s : ParsedSource} (h : CountInv s) (action : RuleAction) {domain : Str}
    (hdomain : matchesDomainRe domain = true) : CountInv (s.addRule action domain) := by
  have haccepted := h.accepted
  have hexceptions := h.exceptions
  have hparsed := h.parsed
  have hnames : ∀ name, name = domain ∨ name ∈ s.blocks ∨ name ∈ s.allows →
      matchesDomainRe name = true := by
    rintro name (rfl | hname)
    · exact hdomain
    · exact h.names name hname
  unfold ParsedSource.addRule
  dsimp only
  split_ifs with haction hmem hmem
  · exact { h with parsed := by dsimp only; omega }
  · refine { h with accepted := ?_, exceptions := ?_, parsed := ?_, names := ?_ }
    · dsimp only
      omega
    · simp only [Finset.card_insert_of_notMem hmem, hexceptions]
      push_cast
      rfl
    · dsimp only
      omega
    · intro name hname
      rw [Finset.mem_insert] at hname
      exact hnames name (by tauto)
  · exact { h with parsed := by dsimp only; omega }
  · refine { h with accepted := ?_, parsed := ?_, names := ?_ }
    · simp only [Finset.card_insert_of_notMem hmem]
      push_cast
      omega
    · dsimp only
      omega
    · intro name hname
      rw [Finset.mem_insert] at hname
      exact hnames name (by tauto)

/-- A result that lists a name lists a domain name. -/
def LineResult.Proper (r : LineResult) : Prop :=
  ∀ a name, r.listed = some (a, name) → matchesDomainRe name = true

theorem lineResults_proper (d : ParserData) (raw : Str) : ∀ r ∈ lineResults d raw, r.Proper := by
  intro r hr a name hlisted
  have hmem : (a, name) ∈ (lineResults d raw).filterMap LineResult.listed :=
    List.mem_filterMap.mpr ⟨r, hr, hlisted⟩
  rw [lineResults_listed] at hmem
  obtain ⟨l, -, hl⟩ := List.mem_map.mp hmem
  obtain ⟨-, rfl⟩ := Prod.mk.inj hl
  exact l.normalized

theorem CountInv.countResult {s : ParsedSource} (h : CountInv s) (line : ℕ) (raw : Str)
    {r : LineResult} (hr : r.Proper) : CountInv (countResult line raw s r) := by
  unfold AlderpointDNS.countResult
  split
  · obtain ⟨samples, hlength, hsample⟩ := exists_sample
      { s.stats with invalidRules := s.stats.invalidRules + 1 } h.samples line
      "invalid".toList r.reason raw
    have hinvalid := h.invalid
    rw [hsample]
    exact { h with invalid := by dsimp only; omega, samples := hlength }
  · obtain ⟨samples, hlength, hsample⟩ := exists_sample
      { s.stats with unsupportedRules := s.stats.unsupportedRules + 1 } h.samples line
      "unsupported".toList r.reason raw
    have hunsupported := h.unsupported
    rw [hsample]
    exact { h with unsupported := by dsimp only; omega, samples := hlength }
  · rename_i action domain hkind hdomain
    exact h.addRule action (hr (action = .allow) domain (by rw [LineResult.listed, hkind, hdomain]))
  · exact h

theorem CountInv.foldl {s : ParsedSource} (h : CountInv s) (line : ℕ) (raw : Str)
    {results : List LineResult} (hresults : ∀ r ∈ results, r.Proper) :
    CountInv (results.foldl (AlderpointDNS.countResult line raw) s) := by
  induction results generalizing s with
  | nil => exact h
  | cons r results ih =>
      exact ih (h.countResult line raw (hresults r List.mem_cons_self)) fun r' hr' =>
        hresults r' (List.mem_cons_of_mem _ hr')

theorem CountInv.countLine {s : ParsedSource} (h : CountInv s) (d : ParserData)
    (line : Str × ℕ) : CountInv (countLine d s line) := by
  unfold AlderpointDNS.countLine
  dsimp only
  split_ifs
  · exact h
  · refine CountInv.foldl ?_ _ _ (lineResults_proper d _)
    exact { h with downloaded := by have := h.downloaded; dsimp only; omega }

/-- **The counters of a source, when the loop is over.** -/
theorem countInv_countLines (d : ParserData) (content : Str) : CountInv (countLines d content) := by
  unfold countLines
  generalize (fileLines content).zipIdx 1 = lines
  suffices h : ∀ s, CountInv s → CountInv (lines.foldl (countLine d) s) from h _ countInv_empty
  induction lines with
  | nil => exact fun _ h => h
  | cons line lines ih => exact fun s h => ih _ (h.countLine d line)

theorem parseSource_samples (d : ParserData) (content : Str) :
    (parseSource d content).stats.rejectedSamples.length ≤ maxSamples :=
  (countInv_countLines d content).samples

theorem parseSource_matches (d : ParserData) (content : Str) : ∀ name,
    name ∈ (parseSource d content).blocks ∨ name ∈ (parseSource d content).allows →
      matchesDomainRe name = true :=
  (countInv_countLines d content).names

/-! ## The two sets -/

/-- The set of one kind. -/
def ParsedSource.names (s : ParsedSource) (allow : Bool) : Finset Str :=
  if allow then s.allows else s.blocks

theorem mem_names_addRule (s : ParsedSource) (action : RuleAction) (domain : Str) (allow : Bool)
    (x : Str) : x ∈ (s.addRule action domain).names allow ↔
      x ∈ s.names allow ∨ (decide (action = .allow) = allow ∧ domain = x) := by
  unfold ParsedSource.addRule ParsedSource.names
  by_cases haction : action = .allow
  · by_cases hmem : domain ∈ s.allows
    · cases allow <;> simp [haction, hmem]
      rintro rfl
      exact hmem
    · cases allow <;> simp [haction, hmem, eq_comm, or_comm]
  · by_cases hmem : domain ∈ s.blocks
    · cases allow <;> simp [haction, hmem]
      rintro rfl
      exact hmem
    · cases allow <;> simp [haction, hmem, eq_comm, or_comm]

theorem mem_names_countResult (line : ℕ) (raw : Str) (s : ParsedSource) (r : LineResult)
    (allow : Bool) (x : Str) : x ∈ (countResult line raw s r).names allow ↔
      x ∈ s.names allow ∨ r.listed = some (allow, x) := by
  obtain ⟨kind, domain, reason⟩ := r
  cases kind with
  | skip => simp [countResult, LineResult.listed]
  | invalid => simp [countResult, LineResult.listed, ParsedSource.names]
  | unsupported => simp [countResult, LineResult.listed, ParsedSource.names]
  | rule action =>
      cases domain with
      | none => simp [countResult, LineResult.listed]
      | some domain => simp [countResult, LineResult.listed, mem_names_addRule]

theorem mem_names_foldl (line : ℕ) (raw : Str) (results : List LineResult) (allow : Bool) (x : Str)
    (s : ParsedSource) : x ∈ (results.foldl (countResult line raw) s).names allow ↔
      x ∈ s.names allow ∨ (allow, x) ∈ results.filterMap LineResult.listed := by
  induction results generalizing s with
  | nil => simp
  | cons r results ih =>
      rw [List.foldl_cons, ih, mem_names_countResult, or_assoc, List.mem_filterMap,
        List.mem_filterMap]
      simp

theorem parseListLine_eq (d : ParserData) (line : Str) : parseListLine d line
    = if isIgnoredLine (strip line) then [] else parseSourceLine d (strip line) := by
  unfold parseListLine isIgnoredLine
  dsimp only
  generalize strip line = raw
  by_cases hcomment : (decide (raw = []) || startsWith raw ['#'] || startsWith raw ['!']
      || startsWith raw "//".toList) = true
  · rw [if_pos hcomment, hcomment]
    rfl
  · rw [if_neg hcomment]
    rw [Bool.not_eq_true] at hcomment
    rw [hcomment, Bool.false_or]

theorem mem_names_countLine (d : ParserData) (s : ParsedSource) (line : Str × ℕ) (allow : Bool)
    (x : Str) : x ∈ (countLine d s line).names allow ↔
      x ∈ s.names allow ∨ ∃ l ∈ parseListLine d line.1, l.allow = allow ∧ l.name = x := by
  rw [parseListLine_eq]
  unfold countLine
  dsimp only
  split_ifs with hignored
  · simp
  · rw [mem_names_foldl, lineResults_listed, List.mem_map]
    simp only [Prod.mk.injEq]
    rfl

/-- **The sets are the names of `parseRuleLines`.** -/
theorem parseSource_names (d : ParserData) (content : Str) (allow : Bool) :
    (parseSource d content).names allow = namesOf allow (parseRuleLines d content) := by
  have hfold (x : Str) : ∀ (lines : List Str) (start : ℕ) (s : ParsedSource),
      x ∈ ((lines.zipIdx start).foldl (countLine d) s).names allow ↔
        x ∈ s.names allow ∨
          ∃ l ∈ lines.flatMap (parseListLine d), l.allow = allow ∧ l.name = x := by
    intro lines
    induction lines with
    | nil => simp
    | cons line lines ih =>
        intro start s
        rw [List.zipIdx_cons, List.foldl_cons, ih, mem_names_countLine, or_assoc,
          List.flatMap_cons]
        simp only [List.mem_append, or_and_right, exists_or]
  ext x
  have hlines := hfold x (fileLines content) 1 {}
  simp only [namesOf, List.mem_toFinset, List.mem_map, List.mem_filter, decide_eq_true_eq,
    parseRuleLines, and_assoc]
  have hempty : x ∉ ParsedSource.names {} allow := by
    cases allow <;> exact Finset.notMem_empty x
  have hsame : (parseSource d content).names allow = (countLines d content).names allow := by
    cases allow <;> rfl
  rw [hsame]
  exact hlines.trans (or_iff_right hempty)

end AlderpointDNS
