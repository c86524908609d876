import AlderpointDNS.CustomRules.ZoneFile
import Mathlib.Data.List.Fold

/-!
# What the external set blocks

`render_rpz` adds the external set after the custom rules, at the owners that are still free, and a
query takes the record at the best owner.  This file tells for which queries that record is an
external one.

* `renderRpz_eq_append` — the lines of the two parts;
* **`blockedByExternal_iff`** — no custom rule names the query, and an external name at or above
  it is nearer than the first custom wildcard;
* **`allow_blockedByExternal_iff`** — an allow rule that is not outranked keeps the external set
  away from the queries it covers, but for those under a rewrite of the same name:
  `_resolve_conflicts` deletes the allow there.
-/

namespace AlderpointDNS

open Text

/-! ## The external lines -/

/-- The lines that `render_rpz` adds to those of the custom rules. -/
def externalLines (domains : BlockSet) (active : ActiveRuleSet) : List RpzLine :=
  (sortedSet domains.names).foldl
    (fun lines domain => emitExternal (rpzRecords active).occupied lines (rpzName domain)) []

/-- The record that the zone selects for `q` is an external one. -/
def blockedByExternal (domains : BlockSet) (active : ActiveRuleSet) (q : Str) : Bool :=
  match bestOwner (renderRpz domains active) q with
  | none => false
  | some best => hasOwner (externalLines domains active) best.owner

theorem emitExternal_append (occupied : Finset Owner) (lines : List RpzLine) (name : Str) :
    emitExternal occupied lines name = lines ++ emitExternal occupied [] name := by
  unfold emitExternal
  dsimp only
  split_ifs <;> simp

theorem renderRpz_eq_append (domains : BlockSet) (active : ActiveRuleSet) :
    renderRpz domains active = (rpzRecords active).lines ++ externalLines domains active := by
  have hfold (names : List Str) : ∀ lines added : List RpzLine,
      names.foldl (fun lines domain => emitExternal (rpzRecords active).occupied lines
        (rpzName domain)) (lines ++ added) =
      lines ++ names.foldl (fun lines domain => emitExternal (rpzRecords active).occupied lines
        (rpzName domain)) added := by
    induction names with
    | nil => exact fun _ _ => rfl
    | cons name names ih =>
        intro lines added
        rw [List.foldl_cons, List.foldl_cons, emitExternal_append, List.append_assoc,
          ← emitExternal_append, ih]
  have h := hfold (sortedSet domains.names) (rpzRecords active).lines []
  rw [List.append_nil] at h
  exact h

/-- The external records at the two owners of a name. -/
theorem rdatasAt_externalLines (domains : BlockSet) (active : ActiveRuleSet) (x : Str) :
    rdatasAt (externalLines domains active) (.name x) =
        (if x ∈ domains ∧ (active.at x).records.nameOccupied = false then [.block] else []) ∧
      rdatasAt (externalLines domains active) (.wildcard x) =
        (if x ∈ domains ∧ (active.at x).records.wildcardOccupied = false then [.block]
          else []) := by
  obtain ⟨hname, hwild⟩ := renderRpz_at domains active x
  rw [renderRpz_eq_append, rdatasAt_append, ← rpzRecords_at] at hname hwild
  rw [← rpzRecords_at]
  exact ⟨List.append_cancel_left hname, List.append_cancel_left hwild⟩

section

variable (table : List StoredRule) (domains : BlockSet)

theorem external_name_iff (x : Str) :
    hasOwner (externalLines domains (collectActive table)) (.name x) = true ↔
      x ∈ domains ∧ domainRules (activeRules table) x = [] := by
  obtain ⟨-, -, hocc, -⟩ := (entries_proper table x).records
  have hdomain : ∀ r ∈ domainRules (activeRules table) x, r.ruleType.isDomainType = true :=
    fun r hr => (mem_domainRules.mp hr).2.1
  rw [hasOwner, (rdatasAt_externalLines domains _ x).1, active_at, hocc,
    (entriesOf_verdicts (activeRules table) x).1, ← rulesVerdict_eq_none hdomain]
  cases rulesVerdict (domainRules (activeRules table) x) <;> simp

theorem external_wildcard_iff (x : Str) :
    hasOwner (externalLines domains (collectActive table)) (.wildcard x) = true ↔
      x ∈ domains ∧ wildcardVerdict (domainRules (activeRules table) x) = none := by
  obtain ⟨-, -, -, hocc⟩ := (entries_proper table x).records
  rw [hasOwner, (rdatasAt_externalLines domains _ x).2, active_at, hocc,
    (entriesOf_verdicts (activeRules table) x).2.1]
  cases wildcardVerdict (domainRules (activeRules table) x) <;> simp

/-! ## The record that is selected -/

/-- A name that the zone has decides for itself. -/
theorem blockedByExternal_of_name {q : Str}
    (h : q ∈ domains ∨ domainRules (activeRules table) q ≠ []) :
    blockedByExternal domains (collectActive table) q =
      hasOwner (externalLines domains (collectActive table)) (.name q) := by
  have howner : hasOwner (renderRpz domains (collectActive table)) (.name q) = true :=
    decide_eq_true ((name_emitted_iff table domains q).mpr h)
  rw [blockedByExternal, bestOwner_spec, if_pos howner]

/-- For any other name the first wildcard above it decides. -/
theorem blockedByExternal_of_not_name {q : Str}
    (h : ¬(q ∈ domains ∨ domainRules (activeRules table) q ≠ [])) :
    blockedByExternal domains (collectActive table) q =
      (wildcardParent (renderRpz domains (collectActive table)) q).any
        fun y => hasOwner (externalLines domains (collectActive table)) (.wildcard y) := by
  have howner : ¬hasOwner (renderRpz domains (collectActive table)) (.name q) = true :=
    fun hq => h ((name_emitted_iff table domains q).mp (of_decide_eq_true hq))
  rw [blockedByExternal, bestOwner_spec, if_neg howner]
  cases wildcardParent (renderRpz domains (collectActive table)) q <;> rfl

theorem hasOwner_wildcard_iff (y : Str) :
    hasOwner (renderRpz domains (collectActive table)) (.wildcard y) = true ↔
      y ∈ domains ∨ wildcardVerdict (domainRules (activeRules table) y) ≠ none :=
  decide_eq_true_iff.trans (wildcard_emitted_iff table domains y)

/-- **The external set blocks a query** that no custom rule names, by a name at or above it with
no custom wildcard nearer. -/
theorem blockedByExternal_iff (q : Str) :
    blockedByExternal domains (collectActive table) q = true ↔
      domainRules (activeRules table) q = [] ∧ ∃ e ∈ q :: parents q, e ∈ domains ∧
        ∀ z ∈ parents q, z = e ∨ e ∈ parents z →
          wildcardVerdict (domainRules (activeRules table) z) = none := by
  by_cases hq : q ∈ domains ∨ domainRules (activeRules table) q ≠ []
  · rw [blockedByExternal_of_name table domains hq, external_name_iff]
    constructor
    · rintro ⟨hmem, hnil⟩
      refine ⟨hnil, q, List.mem_cons_self, hmem, fun z hz hnear => ?_⟩
      -- nothing among the parents is at or below the query
      rcases hnear with rfl | hnear
      · exact absurd rfl (ne_of_mem_parents hz)
      · exact absurd rfl (ne_of_mem_parents (parents_trans hnear hz))
    · rintro ⟨hnil, -⟩
      exact ⟨hq.resolve_right (not_not_intro hnil), hnil⟩
  · obtain ⟨hmem, hnil⟩ := not_or.mp hq
    rw [not_not] at hnil
    rw [blockedByExternal_of_not_name table domains hq, wildcardParent]
    cases hfound : (parents q).find? fun y =>
        hasOwner (renderRpz domains (collectActive table)) (.wildcard y) with
    | none =>
        simp only [Option.any_none, Bool.false_eq_true, false_iff, not_and, not_exists]
        rintro - e he hdomain -
        rcases List.mem_cons.mp he with rfl | he
        · exact hmem hdomain
        · exact List.find?_eq_none.mp hfound e he
            ((hasOwner_wildcard_iff table domains e).mpr (Or.inl hdomain))
    | some y =>
        obtain ⟨hy, nearer, farther, hsplit, hnear⟩ := List.find?_eq_some_iff_append.mp hfound
        obtain rfl := parents_of_append_cons hsplit
        have hyq : y ∈ parents q := List.mem_of_find?_eq_some hfound
        have hfree : ∀ z ∈ nearer, z ∉ domains ∧
            wildcardVerdict (domainRules (activeRules table) z) = none := by
          intro z hz
          have hnone := hnear z hz
          rw [Bool.not_eq_true', Bool.eq_false_iff, Ne, hasOwner_wildcard_iff, not_or,
            not_not] at hnone
          exact hnone
        have hcases : ∀ z ∈ parents q, z ∈ nearer ∨ z = y ∨ z ∈ parents y := by
          intro z hz
          rwa [hsplit, List.mem_append, List.mem_cons] at hz
        rw [Option.any_some, external_wildcard_iff]
        constructor
        · rintro ⟨hdomain, hverdict⟩
          refine ⟨hnil, y, List.mem_cons_of_mem _ hyq, hdomain, fun z hz hbelow => ?_⟩
          rcases hbelow with rfl | hbelow
          · exact hverdict
          · rcases hcases z hz with hz | rfl | hz
            · exact (hfree z hz).2
            · exact hverdict
            · exact absurd rfl (ne_of_mem_parents (parents_trans hbelow hz))
        · rintro ⟨-, e, he, hdomain, hnone⟩
          have heq : e ∈ parents q := (List.mem_cons.mp he).resolve_left
            fun h => hmem (h ▸ hdomain)
          have hverdict : wildcardVerdict (domainRules (activeRules table) y) = none := by
            refine hnone y hyq ?_
            rcases hcases e heq with he | rfl | he
            · exact absurd hdomain (hfree e he).1
            · exact Or.inl rfl
            · exact Or.inr he
          exact ⟨((hasOwner_wildcard_iff table domains y).mp hy).resolve_right
            (not_not_intro hverdict), hverdict⟩

end

/-! ## Allow rules -/

theorem le_maxPriority {rs : List ParsedRule} {r : ParsedRule} (h : r ∈ rs) :
    r.priority ≤ maxPriority rs := by
  rw [maxPriority, List.foldl_eq_foldr]
  exact List.le_max_of_le' 0 (List.mem_map_of_mem h) le_rfl

theorem maxPriority_le {rs : List ParsedRule} {n : ℕ} (h : ∀ r ∈ rs, r.priority ≤ n) :
    maxPriority rs ≤ n := by
  rw [maxPriority]
  refine List.foldlRecOn (motive := (· ≤ n)) _ _ (Nat.zero_le n) fun m hm p hp => ?_
  obtain ⟨r, hr, rfl⟩ := List.mem_map.mp hp
  exact max_le hm (h r hr)

/-- An allow rule that no block outranks and no rewrite covers decides about the subdomains. -/
theorem wildcardVerdict_of_allow {rs : List ParsedRule} {r : ParsedRule} (hr : r ∈ rs)
    (htype : r.ruleType = .allow) (hsub : r.matchSubdomains = true)
    (hrank : ∀ b ∈ rs, b.ruleType = .block → b.priority ≤ r.priority)
    (hrewrite : coversType .rewrite rs = false) : wildcardVerdict rs = some .unfiltered := by
  have hcovers : coversType .allow rs = true :=
    List.any_eq_true.mpr ⟨r, hr, by simp [htype, hsub]⟩
  have hblocks : maxPriority (rs.filter (·.ruleType = .block)) ≤ r.priority :=
    maxPriority_le fun b hb => hrank b (List.mem_filter.mp hb).1
      (of_decide_eq_true (List.mem_filter.mp hb).2)
  have hallows : r.priority ≤ maxPriority (rs.filter (·.ruleType = .allow)) :=
    le_maxPriority (List.mem_filter.mpr ⟨hr, decide_eq_true htype⟩)
  have hrank : blockOutranks rs = false := by
    rw [blockOutranks, decide_eq_false_iff_not]
    omega
  simp [wildcardVerdict, hrewrite, hcovers, hrank]

/-- A name that blocks although `d` has a verdict is under `d`. -/
theorem mem_parents_of_nearer {rules : List ParsedRule} {d e q : Str} (hd : d ∈ parents q)
    (he : e ∈ q :: parents q) (hverdict : wildcardVerdict (domainRules rules d) ≠ none)
    (hnone : ∀ z ∈ parents q, z = e ∨ e ∈ parents z →
      wildcardVerdict (domainRules rules z) = none) : d ∈ parents e := by
  rcases List.mem_cons.mp he with rfl | he
  · exact hd
  · rcases parents_total hd he with rfl | hde | hed
    · exact absurd (hnone d hd (Or.inl rfl)) hverdict
    · exact hde
    · exact absurd (hnone d hd (Or.inr hed)) hverdict

/-- **Where an allow rule does not keep the external set away**: for a query below its name, when
a rewrite of the same name covers the subdomains too, and an external name stands between. -/
theorem allow_blockedByExternal_iff (table : List StoredRule) (external : BlockSet)
    {r : ParsedRule} {d q : Str} (hr : r ∈ activeRules table) (htype : r.ruleType = .allow)
    (hd : r.domain = some d)
    (hrank : ∀ b ∈ activeRules table, b.ruleType = .block → b.domain = some d →
      b.priority ≤ r.priority)
    (hcovers : q = d ∨ r.matchSubdomains = true ∧ endsWith q ('.' :: d) = true) :
    blockedByExternal (subtractAllowed external (collectActive table)) (collectActive table) q
        = true ↔
      q ≠ d ∧ coversType .rewrite (domainRules (activeRules table) d) = true ∧
      domainRules (activeRules table) q = [] ∧ ∃ e ∈ q :: parents q, d ∈ parents e ∧
        e ∈ subtractAllowed external (collectActive table) ∧
        ∀ z ∈ parents q, z = e ∨ e ∈ parents z →
          wildcardVerdict (domainRules (activeRules table) z) = none := by
  have hmem : r ∈ domainRules (activeRules table) d :=
    mem_domainRules.mpr ⟨hr, by rw [htype]; rfl, hd⟩
  rw [blockedByExternal_iff]
  constructor
  · rintro ⟨hnil, e, he, hexternal, hnone⟩
    have hne : q ≠ d := by
      rintro rfl
      rw [hnil] at hmem
      cases hmem
    obtain ⟨hsub, hbelow⟩ := hcovers.resolve_left hne
    have hdq : d ∈ parents q := (mem_parents_iff_endsWith d q).mpr hbelow
    have hrewrite : coversType .rewrite (domainRules (activeRules table) d) = true := by
      by_contra hno
      rw [Bool.not_eq_true] at hno
      have hverdict := wildcardVerdict_of_allow hmem htype hsub
        (fun b hb hblock => hrank b (mem_domainRules.mp hb).1 hblock (mem_domainRules.mp hb).2.2)
        hno
      -- so the allow has removed every external name at or below `d`
      have hde := mem_parents_of_nearer hdq he (by rw [hverdict]; simp) hnone
      have hsurvives := ((mem_subtractAllowed table external e).mp hexternal).2
      rw [survives, Bool.and_eq_true, List.all_eq_true] at hsurvives
      exact of_decide_eq_true (hsurvives.2 d (List.mem_cons_of_mem _ hde)) hverdict
    have hverdict : wildcardVerdict (domainRules (activeRules table) d) ≠ none := by
      simp [wildcardVerdict, hrewrite]
    exact ⟨hne, hrewrite, hnil, e, he, mem_parents_of_nearer hdq he hverdict hnone, hexternal,
      hnone⟩
  · rintro ⟨-, -, hnil, e, he, -, hexternal, hnone⟩
    exact ⟨hnil, e, he, hexternal, hnone⟩

def allowXCom : StoredRule where
  ruleText := "@@||x.com^".toList
  normalized := "@@||x.com^".toList
  ruleType := .allow
  action := .allow
  domain := some "x.com".toList
  matchSubdomains := true
  id := 2
  enabled := true
  sourceSystem := "manual".toList
  wf := by decide +kernel

theorem mem_activeRules_allowXCom (table : List StoredRule) :
    allowXCom.toParsedRule ∈ activeRules (allowXCom :: table) :=
  List.mem_map_of_mem (List.mem_filter.mpr ⟨List.mem_cons_self, rfl⟩)

/-- `@@||x.com^` keeps a listed `y.x.com` away. -/
theorem allow_blockedByExternal_xCom :
    blockedByExternal (subtractAllowed blocklistYXCom (collectActive [allowXCom]))
      (collectActive [allowXCom]) "y.x.com".toList = false := by
  rw [Bool.eq_false_iff]
  intro h
  have hrewrite := ((allow_blockedByExternal_iff [allowXCom] blocklistYXCom
    (mem_activeRules_allowXCom []) rfl rfl (by decide +kernel)
    (Or.inr ⟨rfl, by decide +kernel⟩)).mp h).2.1
  exact absurd hrewrite (by decide +kernel)

/-- Next to `||x.com^$dnsrewrite=1.2.3.4` it does not. -/
theorem allow_deleted_by_rewrite : ¬∀ (table : List StoredRule) (external : BlockSet)
    (r : ParsedRule) (d q : Str), r ∈ activeRules table → r.ruleType = .allow →
    r.domain = some d →
    (∀ b ∈ activeRules table, b.ruleType = .block → b.domain = some d →
      b.priority ≤ r.priority) →
    (q = d ∨ r.matchSubdomains = true ∧ endsWith q ('.' :: d) = true) →
    blockedByExternal (subtractAllowed external (collectActive table)) (collectActive table) q
      = false := by
  intro h
  have hfree := h [allowXCom, rewriteXCom] blocklistYXCom allowXCom.toParsedRule "x.com".toList
    "y.x.com".toList (mem_activeRules_allowXCom _) rfl rfl (by decide +kernel)
    (Or.inr ⟨rfl, by decide +kernel⟩)
  have hblocked : blockedByExternal
      (subtractAllowed blocklistYXCom (collectActive [allowXCom, rewriteXCom]))
      (collectActive [allowXCom, rewriteXCom]) "y.x.com".toList = true := by
    decide +kernel
  exact Bool.noConfusion (hblocked.symm.trans hfree)

end AlderpointDNS
