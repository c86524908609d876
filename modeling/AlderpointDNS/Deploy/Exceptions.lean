import AlderpointDNS.CustomRules.Duplicates
import AlderpointDNS.CustomRules.External
import AlderpointDNS.Deploy.Sources

/-!
# The exceptions of the lists

An exception `@@||good.ads.com^` of a list takes its name out of the merged set, and that is all: a
listed `ads.com` stays there with its wildcard, and an exception has no record of its own that would
be nearer.

* `mem_collectRules` — a name is in the merged set if it is listed and not an exception;
* **`exception_unblocked_iff`** — the exceptions that hold in the compiled zone: `ExceptionHolds`;
* `exceptionHolds_nil` — without custom rules, those with no listed name above them that is not an
  exception too.
-/

namespace AlderpointDNS

open Text

section

variable (d : ParserData) (files : SourceFiles) (sources : List BlocklistSource)

/-- What the files of the sources list. -/
def listedIn : List ListedDomain :=
  sources.flatMap fun source => ((sourceFile files source).map (parseRuleLines d)).getD []

/-- The second result of `collect_rules`: `all_allows`. -/
def collectAllows : Finset Str := namesOf true (listedIn d files sources)

theorem mem_collectRules (x : Str) : x ∈ collectRules d files sources ↔
    x ∈ namesOf false (listedIn d files sources) ∧ x ∉ collectAllows d files sources :=
  Finset.mem_sdiff

end

/-- An exception holds: a custom rule names it, or no listed name above it gets through.  One that
does is not an exception itself, is not removed by a custom allow, and no custom wildcard is
nearer. -/
def ExceptionHolds (rules : List ParsedRule) (listed : List ListedDomain) (a : Str) : Prop :=
  domainRules rules a ≠ [] ∨
    ∀ e ∈ parents a, e ∈ namesOf false listed →
      e ∈ namesOf true listed ∨ survives rules e = false ∨
        ∃ z ∈ parents a, (z = e ∨ e ∈ parents z) ∧ wildcardVerdict (domainRules rules z) ≠ none

/-- **The exceptions that hold in the compiled zone.** -/
theorem exception_unblocked_iff (d : ParserData) (files : SourceFiles)
    (sources : List BlocklistSource) (table : List StoredRule) {a : Str}
    (ha : a ∈ collectAllows d files sources) :
    blockedByExternal (subtractAllowed (collectRules d files sources) (collectActive table))
        (collectActive table) a = false ↔
      ExceptionHolds (activeRules table) (listedIn d files sources) a := by
  have hself : a ∉ subtractAllowed (collectRules d files sources) (collectActive table) := by
    rw [mem_subtractAllowed, mem_collectRules]
    rintro ⟨⟨-, hnot⟩, -⟩
    exact hnot ha
  rw [Bool.eq_false_iff, Ne, blockedByExternal_iff, ExceptionHolds]
  constructor
  · intro hfree
    by_cases hrules : domainRules (activeRules table) a = []
    · refine Or.inr fun e he hlisted => ?_
      by_cases hallow : e ∈ namesOf true (listedIn d files sources)
      · exact Or.inl hallow
      cases hsurvives : survives (activeRules table) e with
      | false => exact Or.inr (Or.inl rfl)
      | true =>
          by_contra hno
          simp only [hallow, Bool.true_eq_false, false_or, not_exists, not_and, not_not] at hno
          refine hfree ⟨hrules, e, List.mem_cons_of_mem _ he, ?_, hno⟩
          rw [mem_subtractAllowed, mem_collectRules]
          exact ⟨⟨hlisted, hallow⟩, hsurvives⟩
    · exact Or.inl hrules
  · rintro hholds ⟨hrules, e, he, hexternal, hnone⟩
    have he' : e ∈ parents a := (List.mem_cons.mp he).resolve_left fun h => hself (h ▸ hexternal)
    rw [mem_subtractAllowed, mem_collectRules] at hexternal
    obtain ⟨⟨hlisted, hallow⟩, hsurvives⟩ := hexternal
    rcases hholds.resolve_left (not_not_intro hrules) e he' hlisted with h | h | ⟨z, hz, hnear, hv⟩
    · exact hallow h
    · exact Bool.noConfusion (hsurvives.symm.trans h)
    · exact hv (hnone z hz hnear)

/-- Without custom rules. -/
theorem exceptionHolds_nil (listed : List ListedDomain) (a : Str) :
    ExceptionHolds [] listed a ↔
      ∀ e ∈ parents a, e ∈ namesOf false listed → e ∈ namesOf true listed := by
  simp [ExceptionHolds, survives_nil, domainRules, wildcardVerdict, coversType]

/-! ### An exception under a listed name -/

/-- One enabled source. -/
def exceptionSource : BlocklistSource where
  id := 1
  name := "list".toList
  url := []
  enabled := true
  category := []

/-- An exception next to a name that is not above it. -/
theorem exception_unblocked_beside :
    blockedByExternal (subtractAllowed (collectRules asciiParserData
        (fun _ _ => some "||ads.com^\n@@||good.com^".toList) [exceptionSource]) (collectActive []))
      (collectActive []) "good.com".toList = false := by
  refine (exception_unblocked_iff asciiParserData _ _ [] (by decide +kernel)).mpr ?_
  rw [show activeRules [] = [] from rfl, exceptionHolds_nil]
  decide +kernel

/-- `*.ads.com` blocks the exception `good.ads.com`. -/
theorem exception_under_listed : ¬∀ (d : ParserData) (files : SourceFiles)
    (sources : List BlocklistSource) (table : List StoredRule) (a : Str),
    a ∈ collectAllows d files sources →
    blockedByExternal (subtractAllowed (collectRules d files sources) (collectActive table))
      (collectActive table) a = false := by
  intro h
  have hfree := h asciiParserData (fun _ _ => some "||ads.com^\n@@||good.ads.com^".toList)
    [exceptionSource] [] "good.ads.com".toList (by decide +kernel)
  have hblocked : blockedByExternal (subtractAllowed (collectRules asciiParserData
        (fun _ _ => some "||ads.com^\n@@||good.ads.com^".toList) [exceptionSource])
        (collectActive [])) (collectActive []) "good.ads.com".toList = true := by
    decide +kernel
  exact Bool.noConfusion (hblocked.symm.trans hfree)

end AlderpointDNS
