import AlderpointDNS.CustomRules.Policy

/-!
# When the panel reports what the policy does

The panel walks the stored rows for one query; the compiler aggregates them by name.  Both are
now functions of the rules: `panelOutcome` (`evaluateName_panel`) and `policyOutcome`
(`compiledOutcome_spec`).  They are compared by the name that decides the query.

* A rule that names the query itself, or no rule at all: the two always agree.
* Otherwise the nearest parent `x` with a rule for its subdomains decides.  The panel looks at
  the covering rules of `x` only and stops there.  The compiler ranks *all* the rules of `x`
  against each other, so an `$important` rule for the name alone can decide about the
  subdomains, and a surviving blocklist name between the query and `x` is the longer match.

`panelAgrees` spells out what has to hold in the second case.

* **`panelOutcome_eq_policyOutcome_iff`** — the two agree exactly under `panelAgrees`.
-/

namespace AlderpointDNS

open Text

/-! ## The two outcomes -/

/-- What the panel reports. -/
def panelOutcome (rx : Str → Str → Bool) (rules : List ParsedRule) (external : BlockSet)
    (q : Str) : Outcome :=
  (rulesVerdict (decidingRules rules q)).getD
    (if regexHit rx .regexBlock rules q && !regexHit rx .regexAllow rules q
        || zoneAnswer rules external q = .block
      then .block else .unfiltered)

/-- What the compiled policy answers. -/
def policyOutcome (rx : Str → Str → Bool) (rules : List ParsedRule) (external : BlockSet)
    (q : Str) : Outcome :=
  if regexHit rx .regexBlock rules q && !regexHit rx .regexAllow rules q && !passes rules q
  then .block else zoneAnswer rules external q

theorem Rdata.text_eq_block (r : Rdata) : r.text = "CNAME .".toList ↔ r = .block := by
  constructor
  · intro h
    cases r with
    | block => rfl
    | passthru => exact absurd h (by decide)
    | a addr =>
        have hhead : some 'A' = some 'C' := congrArg List.head? h
        exact absurd hhead (by decide)
    | aaaa addr =>
        have hhead : some 'A' = some 'C' := congrArg List.head? h
        exact absurd hhead (by decide)
  · rintro rfl
    rfl

/-- `_rpz_status` calls a name blocked when BIND would block it. -/
theorem rpzStatus_blocked (zone : List RpzLine) (q : Str) :
    (rpzStatus (some zone) q).blocked = decide (bindOutcome zone q = .block) := by
  rw [Bool.eq_iff_iff, decide_eq_true_eq]
  simp only [rpzStatus, bindOutcome]
  cases bestOwner zone q with
  | none => simp
  | some best =>
      simp only [Rdata.text_eq_block, Outcome.ofRdatas]
      split_ifs with h1 h2 <;> simpa using h1

theorem evaluateName_panel {rx : Str → Str → Bool} {zones : List Str} {table : List StoredRule}
    {external : BlockSet} {policy : CompiledPolicy}
    (hpol : compilePolicy table external zones = some policy) {q : Str}
    (hz : ∀ z ∈ zones, inZone q z = false) :
    (evaluateName rx zones table (some policy.zone) q).finalAction.outcome
      = panelOutcome rx (activeRules table) external q := by
  obtain ⟨data, -, rfl⟩ := Option.map_eq_some_iff.mp hpol
  rw [evaluateName_outcome (List.find?_eq_none.mpr (by simpa using hz)), rpzStatus_blocked,
    bindOutcome_spec]
  rfl

/-! ## The condition -/

/-- Without `x`, the policy would still filter `q`: by the first name above `x` whose rules reach
its subdomains, or else by a blocklist name or a regex. -/
def restFilters (rx : Str → Str → Bool) (rules : List ParsedRule) (external : BlockSet)
    (q x : Str) : Prop :=
  match (parents x).findSome? fun y => wildcardVerdict (domainRules rules y) with
  | some .unfiltered => False
  | some _ => True
  | none => (∃ e ∈ q :: parents q, stands rules external e = true)
      ∨ (regexHit rx .regexBlock rules q = true ∧ regexHit rx .regexAllow rules q = false)

/-- The panel reports what the policy does for `q`. -/
def panelAgrees (rx : Str → Str → Bool) (rules : List ParsedRule) (external : BlockSet)
    (q : Str) : Prop :=
  domainRules rules q ≠ [] ∨
    match coveringName rules q with
    | none => True
    | some x =>
        if coversType .rewrite (domainRules rules x) then
          -- no blocklist name is a longer match than the rewrite
          ∀ e, stands rules external e = true → ¬(e = q ∨ e ∈ parents q ∧ x ∈ parents e)
        else if coversType .allow (domainRules rules x) then
          if blockOutranks (coveringRules rules x) then
            blockOutranks (domainRules rules x) = true
          else blockOutranks (domainRules rules x) = true →
            coversType .block (domainRules rules x) = false ∧ ¬restFilters rx rules external q x
        else True

/-! ## The zone, for a name without rules of its own -/

section

variable {rx : Str → Str → Bool} {rules : List ParsedRule} {external : BlockSet}

theorem wildcardVerdict_none {x : Str} (h : coveringRules rules x = []) :
    wildcardVerdict (domainRules rules x) = none := by
  have hno : ∀ t, coversType t (domainRules rules x) = false := by
    intro t
    rw [coversType, List.any_eq_false]
    intro r hr hp
    rw [coveringRules, List.filter_eq_nil_iff] at h
    exact h r hr (Bool.and_eq_true _ _ |>.mp hp).2
  simp [wildcardVerdict, hno]

/-- A list of names without verdicts answers with its blocklist names. -/
theorem findSome_external {l : List Str}
    (h : ∀ y ∈ l, wildcardVerdict (domainRules rules y) = none) :
    l.findSome? (wildcardAnswer rules external)
      = if l.any (stands rules external) then some .block else none := by
  induction l with
  | nil => rfl
  | cons y l ih =>
      have hy : wildcardAnswer rules external y
          = if stands rules external y then some .block else none := by
        rw [wildcardAnswer, h y List.mem_cons_self, Option.none_or]
      rw [List.findSome?_cons, hy, ih fun z hz => h z (List.mem_cons_of_mem _ hz), List.any_cons]
      cases stands rules external y <;> rfl

theorem nameAnswer_of_nil {q : Str} (hq : domainRules rules q = []) :
    nameAnswer rules external q = if stands rules external q then some .block else none := by
  rw [nameAnswer, hq]
  rfl

/-- The zone's answer when `y` is the first parent with a verdict. -/
theorem zoneAnswer_split {q y : Str} {nearer farther : List Str} {o : Outcome}
    (hq : domainRules rules q = []) (hsplit : parents q = nearer ++ y :: farther)
    (hnear : ∀ z ∈ nearer, wildcardVerdict (domainRules rules z) = none)
    (hy : wildcardVerdict (domainRules rules y) = some o) :
    zoneAnswer rules external q
      = if (q :: nearer).any (stands rules external) then .block else o := by
  have hans : wildcardAnswer rules external y = some o := by
    rw [wildcardAnswer, hy, Option.some_or]
  rw [zoneAnswer, nameAnswer_of_nil hq, hsplit, List.findSome?_append, findSome_external hnear,
    List.findSome?_cons, hans, List.any_cons]
  cases stands rules external q <;> cases nearer.any (stands rules external) <;> rfl

/-- The zone's answer when no parent has a verdict. -/
theorem zoneAnswer_none {q : Str} (hq : domainRules rules q = [])
    (hnone : ∀ y ∈ parents q, wildcardVerdict (domainRules rules y) = none) :
    zoneAnswer rules external q
      = if (q :: parents q).any (stands rules external) then .block else .unfiltered := by
  rw [zoneAnswer, nameAnswer_of_nil hq, findSome_external hnone, List.any_cons]
  cases stands rules external q <;> cases (parents q).any (stands rules external) <;> rfl

/-- Nothing on the blocklists stands at or under a name that allows its subdomains. -/
theorem not_stands {e y : Str} (hy : wildcardVerdict (domainRules rules y) = some .unfiltered)
    (he : y ∈ e :: parents e) : stands rules external e = false := by
  have : survives rules e = false := by
    simp only [survives, Bool.and_eq_false_iff, List.all_eq_false]
    exact Or.inr ⟨y, he, by simp [hy]⟩
  rw [stands, this, Bool.and_false]

theorem passes_of_mem {q y : Str} {o : Outcome} (hmem : y ∈ q :: parents q)
    (hy : wildcardVerdict (domainRules rules y) = some o) (ho : o ≠ .block) :
    passes rules q = true := by
  have : (q :: parents q).any (fun y => wildcardVerdict (domainRules rules y) = some .rewrite
      || wildcardVerdict (domainRules rules y) = some .unfiltered) = true := by
    refine List.any_eq_true.mpr ⟨y, hmem, ?_⟩
    cases o <;> simp_all
  rw [passes, this]
  rfl

theorem not_passes {q : Str} (hq : domainRules rules q = [])
    (hnone : ∀ y ∈ parents q, wildcardVerdict (domainRules rules y) = none) :
    passes rules q = false := by
  have hany : (q :: parents q).any (fun y => wildcardVerdict (domainRules rules y) = some .rewrite
      || wildcardVerdict (domainRules rules y) = some .unfiltered) = false := by
    rw [List.any_eq_false]
    intro y hy
    rcases List.mem_cons.mp hy with rfl | hy
    · simp [hq, wildcardVerdict, coversType]
    · simp [hnone y hy]
  have hv : rulesVerdict (domainRules rules q) = none := by
    rw [hq]
    rfl
  rw [passes, hany, hv]
  rfl

theorem policyOutcome_of_passes {q : Str} (h : passes rules q = true) :
    policyOutcome rx rules external q = zoneAnswer rules external q := by
  simp [policyOutcome, h]

/-- A block in the zone is a block of the policy. -/
theorem policyOutcome_of_block {q : Str} (h : zoneAnswer rules external q = .block) :
    policyOutcome rx rules external q = .block := by
  rw [policyOutcome, h, ite_self]

/-! ## The nearest covered parent -/

/-- `x` is the nearest parent of `q` with covering rules, and `nearer` what is between. -/
structure Covered (rules : List ParsedRule) (q x : Str) (nearer : List Str) : Prop where
  self : domainRules rules q = []
  split : parents q = nearer ++ x :: parents x
  between : ∀ z ∈ nearer, wildcardVerdict (domainRules rules z) = none
  covering : coveringRules rules x ≠ []

theorem covered_of_coveringName {q x : Str} (hq : domainRules rules q = [])
    (hx : coveringName rules q = some x) : ∃ nearer, Covered rules q x nearer := by
  obtain ⟨hcov, nearer, farther, hsplit, hnear⟩ := List.find?_eq_some_iff_append.mp hx
  obtain rfl := parents_of_append_cons hsplit
  exact ⟨nearer, hq, hsplit, fun z hz => wildcardVerdict_none (by simpa using hnear z hz),
    by simpa using hcov⟩

theorem Covered.mem {q x : Str} {nearer : List Str} (h : Covered rules q x nearer) :
    x ∈ q :: parents q := by
  rw [h.split]
  simp

/-- What is between `q` and `x` is under `x`. -/
theorem Covered.mem_nearer {q x : Str} {nearer : List Str} (h : Covered rules q x nearer)
    (e : Str) : e ∈ nearer ↔ e ∈ parents q ∧ x ∈ parents e := by
  have hpw := parents_pairwise q
  rw [h.split, List.pairwise_append] at hpw
  constructor
  · intro he
    exact ⟨by rw [h.split]; exact List.mem_append_left _ he, hpw.2.2 e he x List.mem_cons_self⟩
  · rintro ⟨he, hx⟩
    rw [h.split, List.mem_append, List.mem_cons] at he
    rcases he with he | rfl | he
    · exact he
    · exact absurd rfl (ne_of_mem_parents hx)
    · exact absurd rfl (ne_of_mem_parents (parents_trans hx he))

theorem Covered.any_stands {q x : Str} {nearer : List Str} (h : Covered rules q x nearer) :
    (q :: nearer).any (stands rules external) = false ↔
      ∀ e, stands rules external e = true → ¬(e = q ∨ e ∈ parents q ∧ x ∈ parents e) := by
  simp only [List.any_eq_false, List.mem_cons, ← h.mem_nearer]
  exact ⟨fun hno e he hmem => hno e hmem he, fun hno e hmem he => hno e he hmem⟩

/-- Nothing nearer than `x` stands when `x` allows its subdomains. -/
theorem Covered.no_stands {q x : Str} {nearer : List Str} (h : Covered rules q x nearer)
    (hx : wildcardVerdict (domainRules rules x) = some .unfiltered) :
    (q :: nearer).any (stands rules external) = false := by
  have hxq : x ∈ parents q := by
    rw [h.split]
    simp
  rw [h.any_stands]
  rintro e he (rfl | ⟨-, hxe⟩)
  · rw [not_stands hx (List.mem_cons_of_mem _ hxq)] at he
    cases he
  · rw [not_stands hx (List.mem_cons_of_mem _ hxe)] at he
    cases he

/-! ### The panel's verdict at the covered parent -/

theorem hasType_coveringRules (t : RuleType) (x : Str) :
    hasType t (coveringRules rules x) = coversType t (domainRules rules x) := by
  rw [hasType, coveringRules, List.any_filter, coversType]
  refine congrArg (List.any _) (funext fun r => ?_)
  rw [Bool.and_comm]

theorem coversType_of_covered {x : Str} (h : coveringRules rules x ≠ [])
    (hr : coversType .rewrite (domainRules rules x) = false)
    (ha : coversType .allow (domainRules rules x) = false) :
    coversType .block (domainRules rules x) = true := by
  have hd : ∀ r ∈ coveringRules rules x, r.ruleType.isDomainType = true :=
    fun r hr => (mem_coveringRules.mp hr).2.1
  have hsome := mt (rulesVerdict_eq_none hd).mp h
  rw [rulesVerdict, hasType_coveringRules, hasType_coveringRules, hasType_coveringRules, hr, ha]
    at hsome
  by_contra hb
  simp [hb] at hsome

/-- The panel's outcome at a covered parent. -/
theorem panelOutcome_covered {q x : Str} {nearer : List Str} (h : Covered rules q x nearer)
    (hx : coveringName rules q = some x) :
    panelOutcome rx rules external q =
      if coversType .rewrite (domainRules rules x) then .rewrite
      else if coversType .allow (domainRules rules x) then
        if blockOutranks (coveringRules rules x) then .block else .unfiltered
      else .block := by
  have hdec : decidingRules rules q = coveringRules rules x := by
    simp [decidingRules, h.self, hx]
  rw [panelOutcome, hdec, rulesVerdict]
  simp only [hasType_coveringRules]
  cases hr : coversType .rewrite (domainRules rules x) with
  | true => rfl
  | false =>
      cases ha : coversType .allow (domainRules rules x) with
      | true => rfl
      | false =>
          rw [coversType_of_covered h.covering hr ha]
          rfl

/-! ### The policy's outcome at the covered parent -/

/-- A verdict at `x` decides, unless a blocklist name is nearer. -/
theorem policyOutcome_covered {q x : Str} {nearer : List Str} {o : Outcome}
    (h : Covered rules q x nearer) (hv : wildcardVerdict (domainRules rules x) = some o) :
    policyOutcome rx rules external q
      = if (q :: nearer).any (stands rules external) then .block else o := by
  have hzone := @zoneAnswer_split rules external _ _ _ _ _ h.self h.split h.between hv
  by_cases ho : o = .block
  · subst ho
    rw [policyOutcome_of_block (by rw [hzone, ite_self]), ite_self]
  · rw [policyOutcome_of_passes (passes_of_mem h.mem hv ho), hzone]

/-- Without a verdict at `x`, the query is filtered when the rest of the policy filters it. -/
theorem policyOutcome_rest {q x : Str} {nearer : List Str} (h : Covered rules q x nearer)
    (hv : wildcardVerdict (domainRules rules x) = none) :
    policyOutcome rx rules external q = .unfiltered
      ↔ ¬restFilters rx rules external q x := by
  unfold restFilters
  cases hrest : (parents x).findSome? fun y => wildcardVerdict (domainRules rules y) with
  | none =>
      have hnone : ∀ y ∈ parents q, wildcardVerdict (domainRules rules y) = none := by
        intro y hy
        rw [h.split, List.mem_append, List.mem_cons] at hy
        rcases hy with hy | rfl | hy
        · exact h.between y hy
        · exact hv
        · exact List.findSome?_eq_none_iff.mp hrest y hy
      rw [policyOutcome, not_passes h.self hnone, zoneAnswer_none h.self hnone, ← List.any_eq_true]
      cases regexHit rx .regexBlock rules q <;> cases regexHit rx .regexAllow rules q <;>
        cases (q :: parents q).any (stands rules external) <;> simp
  | some o =>
      obtain ⟨above, y, farther, hsplit, hy, habove⟩ := List.findSome?_eq_some_iff.mp hrest
      have hsplitq : parents q = (nearer ++ x :: above) ++ y :: farther := by
        rw [h.split, hsplit]
        simp
      have hbetween : ∀ z ∈ nearer ++ x :: above, wildcardVerdict (domainRules rules z) = none := by
        intro z hz
        rw [List.mem_append, List.mem_cons] at hz
        rcases hz with hz | rfl | hz
        · exact h.between z hz
        · exact hv
        · exact habove z hz
      have hzone := @zoneAnswer_split rules external _ _ _ _ _ h.self hsplitq hbetween hy
      have hmem : y ∈ q :: parents q := by
        rw [hsplitq]
        simp
      cases o with
      | block =>
          rw [policyOutcome_of_block (by rw [hzone, ite_self])]
          simp
      | rewrite =>
          rw [policyOutcome_of_passes (passes_of_mem hmem hy (by simp)), hzone]
          split_ifs <;> simp
      | unfiltered =>
          rw [policyOutcome_of_passes (passes_of_mem hmem hy (by simp)), hzone]
          have hnone : (q :: (nearer ++ x :: above)).any (stands rules external) = false := by
            rw [List.any_eq_false]
            intro e he hs
            rw [not_stands hy] at hs
            · cases hs
            · have hpw := parents_pairwise q
              rw [hsplitq, List.pairwise_append] at hpw
              rcases List.mem_cons.mp he with rfl | he
              · exact hmem
              · exact List.mem_cons_of_mem _ (hpw.2.2 e he y List.mem_cons_self)
          simp [hnone]

/-! ## The comparison -/

/-- A rule that names the query decides it on both sides. -/
theorem panelOutcome_named {q : Str} (hq : domainRules rules q ≠ []) :
    panelOutcome rx rules external q = policyOutcome rx rules external q := by
  have hd : ∀ r ∈ domainRules rules q, r.ruleType.isDomainType = true :=
    fun r hr => (mem_domainRules.mp hr).2.1
  obtain ⟨o, ho⟩ := Option.ne_none_iff_exists'.mp (mt (rulesVerdict_eq_none hd).mp hq)
  have hpanel : panelOutcome rx rules external q = o := by
    simp [panelOutcome, decidingRules, hq, ho]
  have hzone : zoneAnswer rules external q = o := by
    simp [zoneAnswer, nameAnswer, ho]
  rw [hpanel]
  by_cases hblock : o = .block
  · rw [policyOutcome_of_block (hzone.trans hblock), hblock]
  · have hpass : passes rules q = true := by
      cases o <;> simp_all [passes]
    rw [policyOutcome_of_passes hpass, hzone]

/-- At a covered parent the two agree as `panelAgrees` says. -/
theorem covered_agrees_iff {q x : Str} {nearer : List Str} (h : Covered rules q x nearer) :
    ((if coversType .rewrite (domainRules rules x) then .rewrite
      else if coversType .allow (domainRules rules x) then
        if blockOutranks (coveringRules rules x) then .block else .unfiltered
      else .block) = policyOutcome rx rules external q) ↔
    if coversType .rewrite (domainRules rules x) then
      ∀ e, stands rules external e = true → ¬(e = q ∨ e ∈ parents q ∧ x ∈ parents e)
    else if coversType .allow (domainRules rules x) then
      if blockOutranks (coveringRules rules x) then
        blockOutranks (domainRules rules x) = true
      else blockOutranks (domainRules rules x) = true →
        coversType .block (domainRules rules x) = false ∧ ¬restFilters rx rules external q x
    else True := by
  cases hr : coversType .rewrite (domainRules rules x) with
  | true =>
      have hv : wildcardVerdict (domainRules rules x) = some .rewrite := by simp [wildcardVerdict, hr]
      rw [policyOutcome_covered h hv, if_pos rfl, if_pos rfl, ← h.any_stands]
      cases (q :: nearer).any (stands rules external) <;> simp
  | false =>
      rw [if_neg Bool.false_ne_true, if_neg Bool.false_ne_true]
      cases ha : coversType .allow (domainRules rules x) with
      | false =>
          have hb := coversType_of_covered h.covering hr ha
          have hv : wildcardVerdict (domainRules rules x) = some .block := by
            simp [wildcardVerdict, hr, ha, hb]
          rw [policyOutcome_covered h hv]
          simp
      | true =>
          rw [if_pos rfl, if_pos rfl]
          cases hall : blockOutranks (domainRules rules x) with
          | false =>
              have hv : wildcardVerdict (domainRules rules x) = some .unfiltered := by
                simp [wildcardVerdict, hr, ha, hall]
              rw [policyOutcome_covered h hv, h.no_stands hv]
              cases blockOutranks (coveringRules rules x) <;> simp
          | true =>
              cases hb : coversType .block (domainRules rules x) with
              | true =>
                  have hv : wildcardVerdict (domainRules rules x) = some .block := by
                    simp [wildcardVerdict, hr, ha, hall, hb]
                  rw [policyOutcome_covered h hv]
                  cases blockOutranks (coveringRules rules x) <;> simp
              | false =>
                  have hv : wildcardVerdict (domainRules rules x) = none := by
                    simp [wildcardVerdict, hr, hall, hb]
                  have hno : blockOutranks (coveringRules rules x) = false :=
                    not_blockOutranks ((hasType_coveringRules _ x).trans hb)
                  rw [hno, if_neg Bool.false_ne_true, if_neg Bool.false_ne_true, eq_comm,
                    policyOutcome_rest h hv]
                  simp

/-- **The panel reports what the policy does exactly under `panelAgrees`.** -/
theorem panelOutcome_eq_policyOutcome_iff (q : Str) :
    panelOutcome rx rules external q = policyOutcome rx rules external q
      ↔ panelAgrees rx rules external q := by
  unfold panelAgrees
  by_cases hq : domainRules rules q = []
  · simp only [ne_eq, hq, not_true_eq_false, false_or]
    cases hx : coveringName rules q with
    | none =>
        have hnone : ∀ y ∈ parents q, wildcardVerdict (domainRules rules y) = none :=
          fun y hy => wildcardVerdict_none (by simpa using List.find?_eq_none.mp hx y hy)
        have hdec : rulesVerdict (decidingRules rules q) = none := by
          simp [decidingRules, hq, hx, rulesVerdict, hasType]
        rw [panelOutcome, policyOutcome, hdec, not_passes hq hnone, zoneAnswer_none hq hnone]
        cases regexHit rx .regexBlock rules q <;> cases regexHit rx .regexAllow rules q <;>
          cases (q :: parents q).any (stands rules external) <;> simp
    | some x =>
        obtain ⟨nearer, hcov⟩ := covered_of_coveringName hq hx
        rw [panelOutcome_covered hcov hx]
        exact covered_agrees_iff hcov
  · simp only [ne_eq, hq, not_false_eq_true, true_or, iff_true]
    exact panelOutcome_named hq

end

/-! ## The claim about the two programs -/

/-- **"Test a domain" against the compiled policy**, for any stored rules, external set and
normalized name outside the local zones. -/
theorem evaluateDomain_agrees_iff (u : UnicodeData) (rx : Str → Str → Bool)
    (localDns : Option LocalDnsTables) (table : List StoredRule) (external : BlockSet)
    (policy : CompiledPolicy) (domain q : Str)
    (hpol : compilePolicy table external (localZoneNames localDns) = some policy)
    (hq : normalizeDomain u domain = some q)
    (hz : ∀ z ∈ localZoneNames localDns, inZone q z = false) :
    (∃ result, evaluateDomain u rx (localZoneNames localDns) table (some policy.zone) domain
        = .ok result ∧ result.finalAction.outcome = compiledOutcome rx policy q)
      ↔ panelAgrees rx (activeRules table) external q := by
  have hne := matchesDomainRe_ne_nil (normalizeDomain_matches hq)
  have hpanel := @evaluateName_panel rx _ _ _ _ hpol q hz
  rw [compiledOutcome_spec hpol rx hne hz, ← panelOutcome_eq_policyOutcome_iff, ← hpanel]
  simp only [evaluateDomain, hq, Except.ok.injEq, exists_eq_left']
  rfl

/-! ### A blocklist name under a rewrite

`||x.com^$dnsrewrite=1.2.3.4` with `y.x.com` on a blocklist: the panel reports the rewrite for
`y.x.com`, and the zone has `y.x.com CNAME .`, which is the more specific owner. -/

/-- The Unicode operations for a program run on ASCII names. -/
def asciiData : UnicodeData where
  lower s := s.map Char.toLower
  idna s := some s

def rewriteXCom : StoredRule where
  ruleText := "||x.com^$dnsrewrite=1.2.3.4".toList
  normalized := "||x.com^$dnsrewrite=1.2.3.4".toList
  ruleType := .rewrite
  action := .rewrite
  domain := some "x.com".toList
  matchSubdomains := true
  rewriteAddress := some "1.2.3.4".toList
  addressFamily := some .ipv4
  id := 1
  enabled := true
  sourceSystem := "manual".toList
  wf := by decide +kernel

def blocklistYXCom : BlockSet where
  names := {"y.x.com".toList}
  normalized := by decide +kernel

theorem compilePolicy_rewriteXCom :
    (compilePolicy [rewriteXCom] blocklistYXCom (localZoneNames none)).isSome = true := by
  decide +kernel

/-- `evaluateDomain_agrees_iff` at these inputs. -/
theorem evaluateDomain_agrees_iff_rewriteXCom : ∃ policy,
    compilePolicy [rewriteXCom] blocklistYXCom (localZoneNames none) = some policy ∧
    ((∃ result, evaluateDomain asciiData (fun _ _ => false) (localZoneNames none) [rewriteXCom]
        (some policy.zone) "y.x.com".toList = .ok result
        ∧ result.finalAction.outcome
          = compiledOutcome (fun _ _ => false) policy "y.x.com".toList)
      ↔ panelAgrees (fun _ _ => false) (activeRules [rewriteXCom]) blocklistYXCom
          "y.x.com".toList) := by
  obtain ⟨policy, hpol⟩ := Option.isSome_iff_exists.mp compilePolicy_rewriteXCom
  exact ⟨policy, hpol, evaluateDomain_agrees_iff asciiData _ none _ _ policy _ _ hpol
    (by decide +kernel) (by decide)⟩

/-- The panel says rewrite, the policy blocks. -/
theorem panel_rewrite_policy_block : ∃ policy,
    compilePolicy [rewriteXCom] blocklistYXCom (localZoneNames none) = some policy ∧
    compiledOutcome (fun _ _ => false) policy "y.x.com".toList = .block ∧
    ∃ result, evaluateDomain asciiData (fun _ _ => false) (localZoneNames none) [rewriteXCom]
        (some policy.zone) "y.x.com".toList = .ok result
      ∧ result.finalAction.outcome = .rewrite := by
  obtain ⟨policy, hpol⟩ := Option.isSome_iff_exists.mp compilePolicy_rewriteXCom
  have hcompiled : (compilePolicy [rewriteXCom] blocklistYXCom (localZoneNames none)).map
      (compiledOutcome (fun _ _ => false) · "y.x.com".toList) = some .block := by decide +kernel
  have hpanel : (compilePolicy [rewriteXCom] blocklistYXCom (localZoneNames none)).map
      (fun policy => (evaluateName (fun _ _ => false) (localZoneNames none) [rewriteXCom]
        (some policy.zone) "y.x.com".toList).finalAction.outcome) = some .rewrite := by
    decide +kernel
  rw [hpol, Option.map_some, Option.some.injEq] at hcompiled hpanel
  have hq : normalizeDomain asciiData "y.x.com".toList = some "y.x.com".toList := by decide +kernel
  refine ⟨policy, hpol, hcompiled, _, ?_, hpanel⟩
  rw [evaluateDomain, hq]

end AlderpointDNS
