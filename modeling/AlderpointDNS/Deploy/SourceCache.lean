import AlderpointDNS.Deploy.SourceStats
import AlderpointDNS.Lib.Json

/-!
# The parse cache of the sources

`parse_source_file` keeps what it has parsed: a row of `source_parse_cache` for each source, with
the hash of the content, the paths of two lists of names and the statistics as JSON.

* `readDomainArtifact_write`, `statsFromJson_toJson` — both encodings are read back;
* `CacheInv` — a row of the current version is what was parsed from a content with its hash;
* **`parseSourceFile_eq`** — a call returns what it would parse from the file.

The content of a file is a parameter with its decoding and its SHA-256; a hexadecimal digest has no
dot, so `with_suffix` only appends.
-/

namespace AlderpointDNS

open Text

/-! ## The lists of names -/

/-- The text of `_write_domain_artifact`. -/
def domainArtifact (domains : Finset Str) : Str := (sortedSet domains).flatMap (· ++ ['\n'])

/-- `_read_domain_artifact`, on the text of the file. -/
def readDomainArtifact (text : Str) : Finset Str :=
  (((splitlines text).map strip).filter (· ≠ [])).toFinset

/-- The characters of a domain name are no white space and end no line. -/
theorem isDomainChar_visible {c : Char} (h : isDomainChar c = true) :
    isSpace c = false ∧ isLineBreak c = false := by
  have hfast : isCommonChar c = true := by
    simp only [isDomainChar, isLabelEdge, Bool.or_eq_true] at h
    simp only [isCommonChar, isFastDomainChar, Bool.or_eq_true]
    tauto
  obtain ⟨hlow, hhigh⟩ := toNat_of_isCommonChar hfast
  refine ⟨isSpace_of_isCommonChar hfast, ?_⟩
  simp only [isLineBreak, Bool.or_eq_false_iff, Bool.and_eq_false_iff, decide_eq_false_iff_not]
  omega

/-- **A list of names is read back.** -/
theorem readDomainArtifact_write {domains : Finset Str}
    (h : ∀ name ∈ domains, matchesDomainRe name = true) :
    readDomainArtifact (domainArtifact domains) = domains := by
  have hlines : ∀ names : List Str, (∀ name ∈ names, matchesDomainRe name = true) →
      splitlines (names.flatMap (· ++ ['\n'])) = names := by
    intro names
    induction names with
    | nil => exact fun _ => rfl
    | cons name names ih =>
        intro hnames
        rw [List.flatMap_cons, List.append_assoc, List.singleton_append,
          splitlines_append fun c hc => (isDomainChar_visible
            (isDomainChar_of_mem (hnames name List.mem_cons_self) hc)).2,
          ih fun x hx => hnames x (List.mem_cons_of_mem _ hx)]
  have hsorted : ∀ name ∈ sortedSet domains, matchesDomainRe name = true := fun name hname =>
    h name (mem_sortedSet.mp hname)
  have hstrip : (sortedSet domains).map strip = sortedSet domains := by
    refine (List.map_congr_left fun name hname => ?_).trans (List.map_id _)
    exact stripBy_eq_self fun c hc =>
      (isDomainChar_visible (isDomainChar_of_mem (hsorted name hname) hc)).1
  ext name
  simp only [readDomainArtifact, domainArtifact, hlines _ hsorted, hstrip, List.mem_toFinset,
    List.mem_filter, mem_sortedSet, decide_eq_true_eq, and_iff_left_iff_imp]
  exact fun hname => matchesDomainRe_ne_nil (h name hname)

/-! ## The statistics -/

/-- The keys of both dictionaries. -/
inductive StatsKey where
  | acceptedDomains
  | downloadedEntries
  | duplicateDomains
  | exceptions
  | invalidRules
  | parsedRules
  | rejectedSamples
  | uniqueActiveDomains
  | unsupportedRules
  | excerpt
  | kind
  | line
  | reason
  deriving DecidableEq

def StatsKey.text : StatsKey → Str
  | .acceptedDomains => "accepted_domains".toList
  | .downloadedEntries => "downloaded_entries".toList
  | .duplicateDomains => "duplicate_domains".toList
  | .exceptions => "exceptions".toList
  | .invalidRules => "invalid_rules".toList
  | .parsedRules => "parsed_rules".toList
  | .rejectedSamples => "rejected_samples".toList
  | .uniqueActiveDomains => "unique_active_domains".toList
  | .unsupportedRules => "unsupported_rules".toList
  | .excerpt => "excerpt".toList
  | .kind => "kind".toList
  | .line => "line".toList
  | .reason => "reason".toList

def StatsKey.all : List StatsKey :=
  [.acceptedDomains, .downloadedEntries, .duplicateDomains, .exceptions, .invalidRules,
    .parsedRules, .rejectedSamples, .uniqueActiveDomains, .unsupportedRules, .excerpt, .kind, .line,
    .reason]

theorem StatsKey.text_nodup : (StatsKey.all.map StatsKey.text).Nodup := by
  have hnames : StatsKey.all.map StatsKey.text
      = ["accepted_domains", "downloaded_entries", "duplicate_domains", "exceptions",
          "invalid_rules", "parsed_rules", "rejected_samples", "unique_active_domains",
          "unsupported_rules", "excerpt", "kind", "line", "reason"].map String.toList := rfl
  rw [hnames, List.nodup_map_iff fun _ _ => String.toList_injective]
  simp

theorem StatsKey.text_injective : Function.Injective StatsKey.text := by
  have hall : ∀ k, k ∈ StatsKey.all := by rintro (_ | _ | _) <;> decide
  exact fun k k' h => List.inj_on_of_nodup_map StatsKey.text_nodup (hall k) (hall k') h

/-- A dictionary with these keys. -/
def statsDict (entries : List (StatsKey × Json.Value)) : Json.Value :=
  .dict (entries.map fun e => (e.1.text, e.2))

/-- An entry of `rejected_samples`, as the dictionary that it is. -/
def RejectedSample.toJson (sample : RejectedSample) : Json.Value :=
  statsDict [(.excerpt, .str sample.excerpt), (.kind, .str sample.kind), (.line, .int sample.line),
    (.reason, .str sample.reason)]

/-- The dictionary of `_stats_to_json`, in the order of its keys. -/
def statsEntries (stats : ParseStats) : List (StatsKey × Json.Value) :=
  [(.acceptedDomains, .int stats.acceptedDomains),
    (.downloadedEntries, .int stats.downloadedEntries),
    (.duplicateDomains, .int stats.duplicateDomains),
    (.exceptions, .int stats.exceptions),
    (.invalidRules, .int stats.invalidRules),
    (.parsedRules, .int stats.parsedRules),
    (.rejectedSamples, .list ((stats.rejectedSamples.take maxSamples).map (·.toJson))),
    (.uniqueActiveDomains, .int stats.uniqueActiveDomains),
    (.unsupportedRules, .int stats.unsupportedRules)]

/-- `_stats_to_json`. -/
def statsToJson (stats : ParseStats) : Str := Json.dumps (statsDict (statsEntries stats))

/-- `data.get(key)`. -/
def getKey (data : List (Str × Json.Value)) (key : StatsKey) : Option Json.Value :=
  data.lookup key.text

/-- `int(data.get(key, 0))`; what is written there is an integer. -/
def getInt (data : List (Str × Json.Value)) (key : StatsKey) : Option ℤ :=
  match getKey data key with
  | none => some 0
  | some (.int n) => some n
  | some _ => none

def getStr (data : List (Str × Json.Value)) (key : StatsKey) : Option Str :=
  match getKey data key with
  | some (.str s) => some s
  | _ => none

def RejectedSample.ofJson : Json.Value → Option RejectedSample
  | .dict data => do
      pure { line := (← getInt data .line).toNat
             kind := ← getStr data .kind
             reason := ← getStr data .reason
             excerpt := ← getStr data .excerpt }
  | _ => none

/-- `list(data.get("rejected_samples", []))[:20]`. -/
def getSamples (data : List (Str × Json.Value)) : Option (List RejectedSample) :=
  match getKey data .rejectedSamples with
  | none => some []
  | some (.list items) => (items.take maxSamples).mapM RejectedSample.ofJson
  | some _ => none

/-- `_stats_from_json`; `none` for the exceptions that `parse_source_file` catches. -/
def statsFromJson (text : Str) : Option ParseStats :=
  match Json.loads text with
  | some (.dict data) => do
      pure { downloadedEntries := ← getInt data .downloadedEntries
             parsedRules := ← getInt data .parsedRules
             acceptedDomains := ← getInt data .acceptedDomains
             duplicateDomains := ← getInt data .duplicateDomains
             invalidRules := ← getInt data .invalidRules
             unsupportedRules := ← getInt data .unsupportedRules
             uniqueActiveDomains := ← getInt data .uniqueActiveDomains
             exceptions := ← getInt data .exceptions
             rejectedSamples := ← getSamples data }
  | _ => none

theorem getKey_map (entries : List (StatsKey × Json.Value)) (key : StatsKey) :
    getKey (entries.map fun e => (e.1.text, e.2)) key = entries.lookup key := by
  unfold getKey
  induction entries with
  | nil => rfl
  | cons e entries ih =>
      rw [List.map_cons, List.lookup_cons, List.lookup_cons, ih]
      have hkey : (key.text == e.1.text) = (key == e.1) := by
        rw [Bool.eq_iff_iff, beq_iff_eq, beq_iff_eq]
        exact ⟨fun h => StatsKey.text_injective h, fun h => congrArg StatsKey.text h⟩
      rw [hkey]

theorem RejectedSample.ofJson_toJson (sample : RejectedSample) :
    RejectedSample.ofJson sample.toJson = some sample := by
  simp only [toJson, statsDict, ofJson, getInt, getStr, getKey_map]
  rfl

theorem mapM_ofJson (samples : List RejectedSample) :
    (samples.map RejectedSample.toJson).mapM RejectedSample.ofJson = some samples := by
  induction samples with
  | nil => rfl
  | cons sample samples ih =>
      rw [List.map_cons, List.mapM_cons, RejectedSample.ofJson_toJson, ih]
      rfl

/-- **The statistics are read back.** -/
theorem statsFromJson_toJson {stats : ParseStats}
    (h : stats.rejectedSamples.length ≤ maxSamples) :
    statsFromJson (statsToJson stats) = some stats := by
  have hint (key : StatsKey) {n : ℤ} (hlookup : (statsEntries stats).lookup key = some (.int n)) :
      getInt ((statsEntries stats).map fun e => (e.1.text, e.2)) key = some n := by
    rw [getInt, getKey_map, hlookup]
  have hsamples : getSamples ((statsEntries stats).map fun e => (e.1.text, e.2))
      = some stats.rejectedSamples := by
    have hlookup : (statsEntries stats).lookup .rejectedSamples
        = some (.list ((stats.rejectedSamples.take maxSamples).map (·.toJson))) := rfl
    rw [getSamples, getKey_map, hlookup]
    dsimp only
    rw [List.take_of_length_le h, List.take_of_length_le (by rwa [List.length_map]), mapM_ofJson]
  rw [statsFromJson, statsToJson, Json.loads_dumps, statsDict]
  dsimp only
  rw [hsamples, hint .downloadedEntries rfl, hint .parsedRules rfl, hint .acceptedDomains rfl,
    hint .duplicateDomains rfl, hint .invalidRules rfl, hint .unsupportedRules rfl,
    hint .uniqueActiveDomains rfl, hint .exceptions rfl]
  rfl

/-! ## `parse_source_file` -/

/-- `PARSER_CACHE_VERSION`. -/
def parserCacheVersion : Str := "2026-08-09-v1-parser-fastpath".toList

/-- A row of `source_parse_cache`. -/
structure CacheRow where
  contentSha256 : Str
  parserVersion : Str
  blocksPath : Str
  allowsPath : Str
  statsJson : Str

/-- The table, by its primary key, and the files under the cache directory. -/
structure ParseCache where
  rows : Dict ℕ CacheRow
  files : Str → Option Str

def ParseCache.empty : ParseCache where
  rows := ∅
  files _ := none

/-- What reading a file takes from outside: the parser, `open(errors="replace")`, SHA-256 and the
directory. -/
structure SourceReader (Content : Type) where
  parser : ParserData
  decode : Content → Str
  sha256 : Content → Str
  cacheDir : Str

section

variable {Content : Type} (r : SourceReader Content)

/-- What `parse_rule_lines` makes of a file. -/
def SourceReader.parse (content : Content) : ParsedSource := parseSource r.parser (r.decode content)

/-- `cache_dir / f"{source_id}-{content_hash}"` with a suffix. -/
def SourceReader.artifactPath (sourceId : ℕ) (contentHash suffix : Str) : Str :=
  r.cacheDir ++ '/' :: Nat.toDigits 10 sourceId ++ '-' :: contentHash ++ suffix

def SourceReader.blocksPath (sourceId : ℕ) (contentHash : Str) : Str :=
  r.artifactPath sourceId contentHash ".blocks".toList

def SourceReader.allowsPath (sourceId : ℕ) (contentHash : Str) : Str :=
  r.artifactPath sourceId contentHash ".allows".toList

/-- The part of `parse_source_file` that reads the cache. -/
def ParseCache.read (cache : ParseCache) (sourceId : ℕ) (contentHash : Str) :
    Option ParsedSource :=
  match cache.rows.lookup sourceId with
  | none => none
  | some row =>
      if row.contentSha256 = contentHash ∧ row.parserVersion = parserCacheVersion then do
        let blocks ← cache.files row.blocksPath
        let allows ← cache.files row.allowsPath
        let stats ← statsFromJson row.statsJson
        pure { blocks := readDomainArtifact blocks
               allows := readDomainArtifact allows
               stats := stats }
      else none

/-- The part that fills it: both artifacts, then the row. -/
def SourceReader.store (cache : ParseCache) (sourceId : ℕ) (contentHash : Str)
    (parsed : ParsedSource) : ParseCache where
  rows := cache.rows.insert sourceId
    { contentSha256 := contentHash
      parserVersion := parserCacheVersion
      blocksPath := r.blocksPath sourceId contentHash
      allowsPath := r.allowsPath sourceId contentHash
      statsJson := statsToJson parsed.stats }
  files :=
    let files := Function.update cache.files (r.blocksPath sourceId contentHash)
      (some (domainArtifact parsed.blocks))
    Function.update files (r.allowsPath sourceId contentHash) (some (domainArtifact parsed.allows))

/-- `parse_source_file`. -/
def SourceReader.parseSourceFile (cache : ParseCache) (sourceId : ℕ) (content : Content) :
    ParsedSource × ParseCache :=
  match cache.read sourceId (r.sha256 content) with
  | some parsed => (parsed, cache)
  | none =>
      let parsed := r.parse content
      (parsed, r.store cache sourceId (r.sha256 content) parsed)

/-- The cache after a history of calls. -/
def SourceReader.runCalls (calls : List (ℕ × Content)) : ParseCache :=
  calls.foldl (fun cache call => (r.parseSourceFile cache call.1 call.2).2) .empty

/-! ## The rows and the artifacts -/

/-- The row of a source is what was parsed from a content with its hash. -/
structure RowOf (cache : ParseCache) (sourceId : ℕ) (row : CacheRow) (content : Content) : Prop where
  hash : row.contentSha256 = r.sha256 content
  blocksPath : row.blocksPath = r.blocksPath sourceId row.contentSha256
  allowsPath : row.allowsPath = r.allowsPath sourceId row.contentSha256
  blocks : cache.files row.blocksPath = some (domainArtifact (r.parse content).blocks)
  allows : cache.files row.allowsPath = some (domainArtifact (r.parse content).allows)
  stats : row.statsJson = statsToJson (r.parse content).stats

/-- Every row is that of some content. -/
def CacheInv (cache : ParseCache) : Prop :=
  ∀ sourceId row, cache.rows.lookup sourceId = some row → ∃ content, RowOf r cache sourceId row content

variable {r} {cache : ParseCache}

/-- Two paths for different sources are different. -/
theorem artifactPath_ne {id id' : ℕ} (h : id ≠ id') (hash hash' suffix suffix' : Str) :
    r.artifactPath id hash suffix ≠ r.artifactPath id' hash' suffix' := by
  have hdash : ∀ n : ℕ, '-' ∉ Nat.toDigits 10 n := fun n hmem => by
    have := Nat.isDigit_of_mem_toDigits (by decide) (by decide) hmem
    cases this
  intro heq
  unfold SourceReader.artifactPath at heq
  simp only [List.append_assoc, List.cons_append] at heq
  have htail := List.cons.inj (List.append_cancel_left heq) |>.2
  obtain ⟨hdigits, -⟩ := append_cons_inj (hdash id) (hdash id') htail
  have hvalue := congrArg (fun ds => Nat.ofDigitChars 10 ds 0) hdigits
  simp only [Nat.ofDigitChars_ten_toDigits] at hvalue
  exact h hvalue

theorem blocksPath_ne_allowsPath (id : ℕ) (hash : Str) :
    r.blocksPath id hash ≠ r.allowsPath id hash := by
  intro heq
  have hsuffix : ".blocks".toList = ".allows".toList := List.append_cancel_left heq
  revert hsuffix
  decide

theorem store_files (id : ℕ) (hash : Str) (parsed : ParsedSource) :
    (r.store cache id hash parsed).files = Function.update
      (Function.update cache.files (r.blocksPath id hash) (some (domainArtifact parsed.blocks)))
      (r.allowsPath id hash) (some (domainArtifact parsed.allows)) := rfl

/-- The files of another source are left alone. -/
theorem store_files_of_ne {id id' : ℕ} (h : id ≠ id') (hash hash' suffix : Str)
    (parsed : ParsedSource) : (r.store cache id' hash' parsed).files (r.artifactPath id hash suffix)
      = cache.files (r.artifactPath id hash suffix) := by
  rw [store_files, SourceReader.allowsPath, SourceReader.blocksPath,
    Function.update_of_ne (artifactPath_ne h _ _ _ _),
    Function.update_of_ne (artifactPath_ne h _ _ _ _)]

theorem CacheInv.store (h : CacheInv r cache) (sourceId : ℕ) (content : Content) :
    CacheInv r (r.store cache sourceId (r.sha256 content) (r.parse content)) := by
  intro id row hrow
  rw [SourceReader.store, Dict.lookup_insert'] at hrow
  split_ifs at hrow with hid
  · subst hid
    cases hrow
    refine ⟨content, rfl, rfl, rfl, ?_, ?_, rfl⟩
    · rw [store_files, Function.update_of_ne (blocksPath_ne_allowsPath _ _), Function.update_self]
    · rw [store_files, Function.update_self]
  · obtain ⟨content', hrowof⟩ := h id row hrow
    refine ⟨content', hrowof.hash, hrowof.blocksPath, hrowof.allowsPath, ?_, ?_, hrowof.stats⟩
    · have hblocks := hrowof.blocks
      rw [hrowof.blocksPath] at hblocks ⊢
      rw [SourceReader.blocksPath, store_files_of_ne (Ne.symm hid)]
      exact hblocks
    · have hallows := hrowof.allows
      rw [hrowof.allowsPath] at hallows ⊢
      rw [SourceReader.allowsPath, store_files_of_ne (Ne.symm hid)]
      exact hallows

theorem CacheInv.parseSourceFile (h : CacheInv r cache) (sourceId : ℕ) (content : Content) :
    CacheInv r (r.parseSourceFile cache sourceId content).2 := by
  unfold SourceReader.parseSourceFile
  split
  · exact h
  · exact h.store sourceId content

/-- **Every history keeps the rows and the artifacts together.** -/
theorem cacheInv_runCalls (calls : List (ℕ × Content)) : CacheInv r (r.runCalls calls) := by
  unfold SourceReader.runCalls
  suffices h : ∀ cache, CacheInv r cache →
      CacheInv r
        (calls.foldl (fun cache call => (r.parseSourceFile cache call.1 call.2).2) cache) by
    exact h _ fun id row hrow => by cases hrow
  induction calls with
  | nil => exact fun _ h => h
  | cons call calls ih => exact fun cache h => ih _ (h.parseSourceFile call.1 call.2)

/-- What is read from the cache was parsed from a content with that hash. -/
theorem CacheInv.read (h : CacheInv r cache) {sourceId : ℕ} {contentHash : Str}
    {parsed : ParsedSource} (hread : cache.read sourceId contentHash = some parsed) :
    ∃ content, r.sha256 content = contentHash ∧ r.parse content = parsed := by
  unfold ParseCache.read at hread
  split at hread
  · cases hread
  · rename_i row hrow
    split_ifs at hread with hkey
    obtain ⟨content, hrowof⟩ := h sourceId row hrow
    refine ⟨content, hrowof.hash.symm.trans hkey.1, ?_⟩
    have hnames : ∀ name, name ∈ (r.parse content).blocks ∨ name ∈ (r.parse content).allows →
        matchesDomainRe name = true := parseSource_matches r.parser (r.decode content)
    have hsamples : (r.parse content).stats.rejectedSamples.length ≤ maxSamples :=
      parseSource_samples r.parser (r.decode content)
    rw [hrowof.blocks, hrowof.allows, hrowof.stats, statsFromJson_toJson hsamples] at hread
    cases hread
    rw [readDomainArtifact_write fun name hname => hnames name (Or.inl hname),
      readDomainArtifact_write fun name hname => hnames name (Or.inr hname)]

/-- A call returns what `parse_rule_lines` made of a content with the same hash. -/
theorem CacheInv.parseSourceFile_fst (h : CacheInv r cache) (sourceId : ℕ) (content : Content) :
    ∃ content', r.sha256 content' = r.sha256 content ∧
      (r.parseSourceFile cache sourceId content).1 = r.parse content' := by
  unfold SourceReader.parseSourceFile
  split
  · rename_i parsed hread
    obtain ⟨content', hhash, hparsed⟩ := h.read hread
    exact ⟨content', hhash, hparsed.symm⟩
  · exact ⟨content, rfl, rfl⟩

end

/-- **A call returns what it would parse from the file.** -/
theorem parseSourceFile_eq {Content : Type} (r : SourceReader Content)
    (hsha : Function.Injective r.sha256) (calls : List (ℕ × Content)) (sourceId : ℕ)
    (content : Content) :
    (r.parseSourceFile (r.runCalls calls) sourceId content).1 = r.parse content := by
  obtain ⟨content', hhash, hparsed⟩ :=
    (cacheInv_runCalls calls).parseSourceFile_fst sourceId content
  rw [hparsed, hsha hhash]

/-- A reader of files that are their own digests. -/
def plainReader : SourceReader Str where
  parser := asciiParserData
  decode := id
  sha256 := id
  cacheDir := "parse-cache".toList

/-- The second call for one file. -/
theorem parseSourceFile_eq_again :
    (plainReader.parseSourceFile (plainReader.runCalls [(1, "||ads.com^".toList)]) 1
      "||ads.com^".toList).1 = plainReader.parse "||ads.com^".toList :=
  parseSourceFile_eq plainReader Function.injective_id _ 1 _

end AlderpointDNS
