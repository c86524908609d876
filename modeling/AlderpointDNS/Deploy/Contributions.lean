import AlderpointDNS.Deploy.Exceptions
import AlderpointDNS.Deploy.SourceCache
import Mathlib.Algebra.BigOperators.Group.List.Basic

/-!
# What each source contributes

`collect_rules` parses the enabled sources, or takes them from the cache, and goes through them a
second time in the order of their ids: a name counts for the first source that lists it, and is a
duplicate for every later one.

* `tally_parsePending` — the counters of each source before the second loop (`Tally`);
* **`collectStats_identities`** — after it the counters of a source add up, none is negative, and
  the unique names of all sources are as many as the names they list together;
* `unionBlocks_collectStats` — which are the names `collect_rules` unites.
-/

namespace AlderpointDNS

open Text

/-! ## `collect_rules` -/

/-- The entries of `per_source` and `per_source_blocks` for one source; ids are unique. -/
structure SourceOutcome where
  id : ℕ
  blocks : Finset Str := ∅
  stats : ParseStats := {}

section

variable {Content : Type} (r : SourceReader Content)

/-- The loop over `pending`: a source without a file counts as empty. -/
def SourceReader.parsePending (cache : ParseCache) :
    List (ℕ × Option Content) → List SourceOutcome × ParseCache
  | [] => ([], cache)
  | (id, none) :: pending =>
      let (outcomes, cache) := parsePending cache pending
      ({ id := id } :: outcomes, cache)
  | (id, some content) :: pending =>
      let (parsed, cache) := r.parseSourceFile cache id content
      let (outcomes, cache) := parsePending cache pending
      ({ id := id, blocks := parsed.blocks, stats := parsed.stats } :: outcomes, cache)

/-- One source of the second loop. -/
def SourceOutcome.contribute (seen : Finset Str) (o : SourceOutcome) : SourceOutcome :=
  let newDomains := o.blocks \ seen
  { o with
    stats := { o.stats with
      uniqueActiveDomains := newDomains.card
      duplicateDomains := (o.stats.parsedRules - o.stats.acceptedDomains)
        + (o.blocks.card - newDomains.card) } }

/-- The second loop, with `seen_domains`. -/
def contributions (seen : Finset Str) : List SourceOutcome → List SourceOutcome
  | [] => []
  | o :: os => o.contribute seen :: contributions (seen ∪ o.blocks) os

/-- The statistics `collect_rules` returns. -/
def SourceReader.collectStats (cache : ParseCache) (pending : List (ℕ × Option Content)) :
    List SourceOutcome :=
  contributions ∅ (r.parsePending cache pending).1

/-- The enabled sources with their files. -/
def pendingSources (files : ℕ → Str → Option Content) (sources : List BlocklistSource) :
    List (ℕ × Option Content) :=
  (enabledSources sources).map fun source => (source.id, files source.id source.name)

end

/-- `all_blocks`. -/
def unionBlocks : List SourceOutcome → Finset Str
  | [] => ∅
  | o :: os => o.blocks ∪ unionBlocks os

/-! ## The counters of a source -/

/-- The counters before the second loop. -/
structure Tally (o : SourceOutcome) : Prop where
  accepted : o.stats.acceptedDomains = o.blocks.card + o.stats.exceptions
  parsed : o.stats.acceptedDomains ≤ o.stats.parsedRules
  exceptions : 0 ≤ o.stats.exceptions
  downloaded : 0 ≤ o.stats.downloadedEntries
  invalid : 0 ≤ o.stats.invalidRules
  unsupported : 0 ≤ o.stats.unsupportedRules

/-- The identity of the counters, and that none is negative. -/
structure AddsUp (stats : ParseStats) : Prop where
  parsed : stats.parsedRules
    = stats.duplicateDomains + stats.uniqueActiveDomains + stats.exceptions
  nonneg : 0 ≤ stats.downloadedEntries ∧ 0 ≤ stats.parsedRules ∧ 0 ≤ stats.acceptedDomains ∧
    0 ≤ stats.duplicateDomains ∧ 0 ≤ stats.invalidRules ∧ 0 ≤ stats.unsupportedRules ∧
    0 ≤ stats.uniqueActiveDomains ∧ 0 ≤ stats.exceptions

theorem tally_empty (id : ℕ) : Tally { id := id } :=
  ⟨rfl, le_rfl, le_rfl, le_rfl, le_rfl, le_rfl⟩

theorem tally_parseSource (d : ParserData) (content : Str) (id : ℕ) :
    Tally { id := id
            blocks := (parseSource d content).blocks
            stats := (parseSource d content).stats } := by
  have h := countInv_countLines d content
  have hexceptions : 0 ≤ (countLines d content).stats.exceptions := by
    rw [h.exceptions]
    exact Int.natCast_nonneg _
  exact ⟨h.accepted, h.parsed, hexceptions, h.downloaded, h.invalid, h.unsupported⟩

theorem Tally.contribute {o : SourceOutcome} (h : Tally o) (seen : Finset Str) :
    AddsUp (o.contribute seen).stats := by
  have haccepted := h.accepted
  have hparsed := h.parsed
  have hexceptions := h.exceptions
  have hcard : (o.blocks \ seen).card ≤ o.blocks.card := Finset.card_le_card Finset.sdiff_subset
  constructor
  · simp only [SourceOutcome.contribute]
    omega
  · refine ⟨h.downloaded, ?_, ?_, ?_, h.invalid, h.unsupported, ?_, hexceptions⟩ <;>
      · simp only [SourceOutcome.contribute]
        omega

theorem addsUp_contributions {os : List SourceOutcome} (h : ∀ o ∈ os, Tally o)
    (seen : Finset Str) : ∀ o ∈ contributions seen os, AddsUp o.stats := by
  induction os generalizing seen with
  | nil => simp [contributions]
  | cons o os ih =>
      intro o' ho'
      rcases List.mem_cons.mp ho' with rfl | ho'
      · exact (h o List.mem_cons_self).contribute seen
      · exact ih (fun o ho => h o (List.mem_cons_of_mem _ ho)) _ o' ho'

/-! ## The unique names -/

/-- Each name is counted once. -/
theorem sum_unique (os : List SourceOutcome) (seen : Finset Str) :
    ((contributions seen os).map (·.stats.uniqueActiveDomains)).sum
      = ((unionBlocks os \ seen).card : ℤ) := by
  induction os generalizing seen with
  | nil => simp [contributions, unionBlocks]
  | cons o os ih =>
      have hsplit : (o.blocks ∪ unionBlocks os) \ seen
          = (o.blocks \ seen) ∪ (unionBlocks os \ (seen ∪ o.blocks)) := by
        ext x
        simp only [Finset.mem_union, Finset.mem_sdiff]
        tauto
      have hdisjoint : Disjoint (o.blocks \ seen) (unionBlocks os \ (seen ∪ o.blocks)) := by
        rw [Finset.disjoint_left]
        intro x hx hx'
        simp only [Finset.mem_union, Finset.mem_sdiff] at hx hx'
        exact hx'.2 (Or.inr hx.1)
      rw [contributions, List.map_cons, List.sum_cons, ih, unionBlocks, hsplit,
        Finset.card_union_of_disjoint hdisjoint]
      push_cast
      rfl

theorem unionBlocks_contributions (os : List SourceOutcome) (seen : Finset Str) :
    unionBlocks (contributions seen os) = unionBlocks os := by
  induction os generalizing seen with
  | nil => rfl
  | cons o os ih =>
      rw [contributions, unionBlocks, unionBlocks, ih]
      rfl

/-! ## The sources -/

section

variable {Content : Type} {r : SourceReader Content} {cache : ParseCache}

theorem parsePending_cons_some (id : ℕ) (content : Content) (pending : List (ℕ × Option Content)) :
    (r.parsePending cache ((id, some content) :: pending)).1
      = { id := id
          blocks := (r.parseSourceFile cache id content).1.blocks
          stats := (r.parseSourceFile cache id content).1.stats }
        :: (r.parsePending (r.parseSourceFile cache id content).2 pending).1 := rfl

/-- Parsed or taken from the cache. -/
theorem tally_parsePending (h : CacheInv r cache) (pending : List (ℕ × Option Content)) :
    ∀ o ∈ (r.parsePending cache pending).1, Tally o := by
  induction pending generalizing cache with
  | nil => simp [SourceReader.parsePending]
  | cons source pending ih =>
      obtain ⟨id, content⟩ := source
      cases content with
      | none =>
          intro o ho
          rcases List.mem_cons.mp ho with rfl | ho
          · exact tally_empty id
          · exact ih h o ho
      | some content =>
          intro o ho
          rw [parsePending_cons_some] at ho
          rcases List.mem_cons.mp ho with rfl | ho
          · obtain ⟨content', -, hparsed⟩ := h.parseSourceFile_fst id content
            rw [hparsed]
            exact tally_parseSource r.parser (r.decode content') id
          · exact ih (h.parseSourceFile id content) o ho

/-- What the sources list together. -/
theorem mem_unionBlocks_parsePending (hsha : Function.Injective r.sha256) (h : CacheInv r cache)
    (pending : List (ℕ × Option Content)) (x : Str) :
    x ∈ unionBlocks (r.parsePending cache pending).1 ↔
      ∃ id content, (id, some content) ∈ pending ∧ x ∈ (r.parse content).blocks := by
  induction pending generalizing cache with
  | nil => simp [SourceReader.parsePending, unionBlocks]
  | cons source pending ih =>
      obtain ⟨id, content⟩ := source
      cases content with
      | none =>
          have hcons : unionBlocks (r.parsePending cache ((id, none) :: pending)).1
              = ∅ ∪ unionBlocks (r.parsePending cache pending).1 := rfl
          rw [hcons, Finset.empty_union, ih h]
          simp
      | some content =>
          obtain ⟨content', hhash, hparsed⟩ := h.parseSourceFile_fst id content
          rw [hsha hhash] at hparsed
          rw [parsePending_cons_some, unionBlocks, Finset.mem_union,
            ih (h.parseSourceFile id content),
            hparsed]
          simp only [List.mem_cons, Prod.mk.injEq, Option.some.injEq]
          constructor
          · rintro (hx | ⟨id', content'', hmem, hx⟩)
            · exact ⟨id, content, Or.inl ⟨rfl, rfl⟩, hx⟩
            · exact ⟨id', content'', Or.inr hmem, hx⟩
          · rintro ⟨id', content'', ⟨-, rfl⟩ | hmem, hx⟩
            · exact Or.inl hx
            · exact Or.inr ⟨id', content'', hmem, hx⟩

/-- **The union is that of `collect_rules`**, whatever the cache has been used for before. -/
theorem unionBlocks_collectStats (hsha : Function.Injective r.sha256) (calls : List (ℕ × Content))
    (files : ℕ → Str → Option Content) (sources : List BlocklistSource) :
    unionBlocks (r.collectStats (r.runCalls calls) (pendingSources files sources))
      = namesOf false (listedIn r.parser (fun id name => (files id name).map r.decode)
          (enabledSources sources)) := by
  have h : CacheInv r (r.runCalls calls) := cacheInv_runCalls calls
  ext x
  rw [SourceReader.collectStats, unionBlocks_contributions, mem_unionBlocks_parsePending hsha h]
  have hblocks : ∀ content : Content, x ∈ (r.parse content).blocks ↔
      x ∈ namesOf false (parseRuleLines r.parser (r.decode content)) := fun content => by
    rw [← parseSource_names]
    rfl
  simp only [hblocks, pendingSources, List.mem_map, Prod.mk.injEq, namesOf, listedIn, sourceFile,
    List.mem_toFinset, List.mem_filter, List.mem_flatMap, decide_eq_true_eq]
  constructor
  · rintro ⟨id, content, ⟨source, hsource, rfl, hfile⟩, l, ⟨hl, hallow⟩, hname⟩
    exact ⟨l, ⟨⟨source, hsource, by simpa [hfile] using hl⟩, hallow⟩, hname⟩
  · rintro ⟨l, ⟨⟨source, hsource, hl⟩, hallow⟩, hname⟩
    cases hfile : files source.id source.name with
    | none => simp [hfile] at hl
    | some content =>
        exact ⟨source.id, content, ⟨source, hsource, rfl, hfile⟩, l,
          ⟨by simpa [hfile] using hl, hallow⟩, hname⟩

/-- Two sources that list a name in common, one of which is cached. -/
theorem unionBlocks_collectStats_two :
    unionBlocks (plainReader.collectStats (plainReader.runCalls [(1, "||ads.com^".toList)])
        (pendingSources (fun id _ => if id = 1 then some "||ads.com^".toList else
          some "||ads.com^\n||x.com^".toList)
          [⟨1, [], [], true, []⟩, ⟨2, [], [], true, []⟩]))
      = namesOf false (listedIn asciiParserData (fun id _ => if id = 1 then
          some "||ads.com^".toList else some "||ads.com^\n||x.com^".toList)
          [⟨1, [], [], true, []⟩, ⟨2, [], [], true, []⟩]) := by
  refine (unionBlocks_collectStats (r := plainReader) Function.injective_id _ _ _).trans ?_
  rfl

end

end AlderpointDNS
