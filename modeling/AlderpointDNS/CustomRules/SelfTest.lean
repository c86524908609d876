import AlderpointDNS.CustomRules.Precedence

/-!
# The blocked-domain test after a deployment

After installing a zone, `deploy()` picks one name that ought to be blocked and rolls everything
back when it is not.  The name comes from the sets the zone was rendered from, not from the
zone: the first external name, or the first name with a custom block.

* **`blockedDomainTest_ok_iff`** — the compiled zone passes its own test exactly when the name
  picked carries no rewrite rule (and, for a custom block, no allow that is left).
-/

namespace AlderpointDNS

open Text

/-! ## The test -/

/-- `active_blocks = all_blocks - all_allows` of `collect_rules`. -/
def BlockSet.diff (blocks allows : BlockSet) : BlockSet where
  names := blocks.names \ allows.names
  normalized := fun d hd => blocks.normalized d (Finset.mem_sdiff.mp hd).1

/-- The name preferred for the test. -/
def preferredTest : Str := "cloudflare-dns.com".toList

/-- `custom_blocks`. -/
def customBlocks (active : ActiveRuleSet) : Finset Str :=
  namesWhere active.blocks fun block => block.subdomains || block.exact

/-- `blocked_test`. -/
def blockedTest (activeBlocks : BlockSet) (active : ActiveRuleSet) : Option Str :=
  if activeBlocks.names ≠ ∅ then
    if preferredTest ∈ activeBlocks then some preferredTest
    else (sortedSet activeBlocks.names).head?
  else (sortedSet (customBlocks active)).head?

/-- The check `deploy()` makes on the live zone: the name is answered `CNAME .`. -/
def blockedDomainTest (zone : List RpzLine) (test : Option Str) : Except Str Unit :=
  match test with
  | none => .ok ()
  | some name =>
      if bindOutcome zone name = .block then .ok ()
      else .error ("post-deploy blocked-domain test failed for ".toList ++ name)

/-- The compile of `deploy()` followed by the check, for the rules and lists it read. -/
def deployBlockedTest (table : List StoredRule) (blocks allows : BlockSet) : Except Str Unit :=
  let active := collectActive table
  let activeBlocks := subtractAllowed (blocks.diff allows) active
  blockedDomainTest (renderRpz activeBlocks active) (blockedTest activeBlocks active)

/-! ## The condition -/

/-- A block at the name is left after conflicts are resolved. -/
def blockStands (rs : List ParsedRule) : Bool :=
  (rs.any (fun r => r.ruleType = .block && !r.matchSubdomains) && !hasType .rewrite rs
      && (!hasType .allow rs || blockOutranks rs))
    || (coversType .block rs && !coversType .rewrite rs
      && (!coversType .allow rs || blockOutranks rs))

/-- The name the test picks is one the zone blocks. -/
def testNameBlocked (rules : List ParsedRule) (external : BlockSet) : Prop :=
  if stands rules external preferredTest then
    hasType .rewrite (domainRules rules preferredTest) = false
  else if ∃ e ∈ external.names, stands rules external e = true then
    ∀ e, IsLeast {e | stands rules external e = true} e →
      hasType .rewrite (domainRules rules e) = false
  else
    ∀ x, IsLeast {x | blockStands (domainRules rules x) = true} x →
      hasType .rewrite (domainRules rules x) = false ∧ allowStands (domainRules rules x) = false

/-! ## The names the test picks from -/

theorem flagsOf_exact (rs : List ParsedRule) (t : RuleType) :
    (flagsOf (rs.filter (·.ruleType = t))).any (·.exact)
      = rs.any fun r => r.ruleType = t && !r.matchSubdomains := by
  unfold flagsOf
  split_ifs with h
  · rw [List.filter_eq_nil_iff] at h
    symm
    rw [Option.any_none, List.any_eq_false]
    intro r hr
    simp_all
  · simp [List.any_filter]

/-- The block entry that is left still has a flag. -/
theorem NameEntries.blockLeft_any (e : NameEntries) :
    e.blockLeft.any (fun block => block.subdomains || block.exact) =
      ((e.block.any (·.exact) && !e.rewrite.isSome && (!e.allow.isSome || e.overruled))
        || (e.block.any (·.subdomains) && !e.rewrite.any (·.subdomains)
          && (!e.allow.any (·.subdomains) || e.overruled))) := by
  unfold blockLeft
  cases e.block with
  | none => rfl
  | some b =>
      generalize e.overruled = o
      simp only [Option.map_some, Option.any_some, Option.filter]
      split_ifs with h
      · rw [Option.any_some, Bool.or_comm]
      · simp only [Bool.not_eq_true] at h
        rw [h, Option.any_none]

/-- A block entry is left exactly when `blockStands`. -/
theorem blocks_any (table : List StoredRule) (x : Str) :
    ((collectActive table).blocks.lookup x).any (fun block => block.subdomains || block.exact)
      = blockStands (domainRules (activeRules table) x) := by
  have hblock : (collectActive table).blocks.lookup x
      = (entriesOf (activeRules table) x).blockLeft := by
    have := congrArg NameEntries.block (active_at table x)
    rwa [NameEntries.resolve_eq] at this
  have hover := @entriesOf_overruled (activeRules table) x
  have hcov := @hasType_of_coversType .allow (domainRules (activeRules table) x)
  rw [hblock, NameEntries.blockLeft_any, entriesOf_rewrite_isSome, entriesOf_rewrite_subdomains,
    entriesOf_allow, entriesOf_block, flagsOf_isSome, flagsOf_subdomains, flagsOf_subdomains,
    flagsOf_exact, blockStands]
  cases ha : hasType .allow (domainRules (activeRules table) x) with
  | true => rw [hover ha]
  | false =>
      have hno : coversType .allow (domainRules (activeRules table) x) = false := by
        rw [ha] at hcov
        simpa using hcov
      rw [hno]
      rfl

theorem mem_customBlocks (table : List StoredRule) (x : Str) :
    x ∈ customBlocks (collectActive table)
      ↔ blockStands (domainRules (activeRules table) x) = true := by
  rw [customBlocks, mem_namesWhere, blocks_any]

theorem mem_activeBlocks (table : List StoredRule) (external : BlockSet) (x : Str) :
    x ∈ subtractAllowed external (collectActive table)
      ↔ stands (activeRules table) external x = true := by
  rw [mem_subtractAllowed, stands, Bool.and_eq_true, decide_eq_true_eq]

/-! ## What the zone says about the name -/

/-- A verdict at the name is the zone's answer. -/
theorem zoneAnswer_of_name {rules : List ParsedRule} {external : BlockSet} {x : Str} {o : Outcome}
    (h : nameAnswer rules external x = some o) : zoneAnswer rules external x = o := by
  rw [zoneAnswer, h, Option.some_or, Option.getD_some]

theorem rulesVerdict_rewrite {rs : List ParsedRule} (h : hasType .rewrite rs = true) :
    rulesVerdict rs = some .rewrite := by
  rw [rulesVerdict, if_pos h]

/-- Without a rewrite, an allow that is left decides, then any block or allow blocks. -/
theorem rulesVerdict_not_rewrite {rs : List ParsedRule} (h : hasType .rewrite rs = false) :
    rulesVerdict rs = if allowStands rs then some .unfiltered
      else if hasType .allow rs || hasType .block rs then some .block else none := by
  have hno : coversType .rewrite rs = false := by
    by_contra hc
    rw [hasType_of_coversType (by simpa using hc)] at h
    cases h
  rw [rulesVerdict, allowStands, h, hno]
  cases hasType .allow rs <;> cases blockOutranks rs <;> cases hasType .block rs <;> rfl

/-- An external name that stands is blocked unless it is rewritten. -/
theorem zoneAnswer_stands {rules : List ParsedRule} {external : BlockSet} {e : Str}
    (h : stands rules external e = true) :
    zoneAnswer rules external e = .block ↔ hasType .rewrite (domainRules rules e) = false := by
  have hno : allowStands (domainRules rules e) = false := by
    simp only [stands, survives, Bool.and_eq_true, Bool.not_eq_true'] at h
    exact h.2.1
  cases hr : hasType .rewrite (domainRules rules e) with
  | true =>
      have hname : nameAnswer rules external e = some .rewrite := by
        rw [nameAnswer, rulesVerdict_rewrite hr, Option.some_or]
      rw [zoneAnswer_of_name hname]
      simp
  | false =>
      have hname : nameAnswer rules external e = some .block := by
        rw [nameAnswer, rulesVerdict_not_rewrite hr, hno, h]
        cases hasType .allow (domainRules rules e) || hasType .block (domainRules rules e) <;> rfl
      rw [zoneAnswer_of_name hname]
      simp

/-- A name whose block is left is blocked unless it is rewritten or allowed. -/
theorem zoneAnswer_blockStands {rules : List ParsedRule} {external : BlockSet} {x : Str}
    (h : blockStands (domainRules rules x) = true) :
    zoneAnswer rules external x = .block ↔
      hasType .rewrite (domainRules rules x) = false
        ∧ allowStands (domainRules rules x) = false := by
  have hblock : hasType .block (domainRules rules x) = true := by
    simp only [blockStands, Bool.or_eq_true, Bool.and_eq_true] at h
    rcases h with ⟨⟨h, -⟩, -⟩ | ⟨⟨h, -⟩, -⟩
    · obtain ⟨r, hr, hp⟩ := List.any_eq_true.mp h
      exact List.any_eq_true.mpr ⟨r, hr, (Bool.and_eq_true _ _ |>.mp hp).1⟩
    · exact hasType_of_coversType h
  cases hr : hasType .rewrite (domainRules rules x) with
  | true =>
      have hname : nameAnswer rules external x = some .rewrite := by
        rw [nameAnswer, rulesVerdict_rewrite hr, Option.some_or]
      rw [zoneAnswer_of_name hname]
      simp
  | false =>
      cases ha : allowStands (domainRules rules x) with
      | true =>
          have hname : nameAnswer rules external x = some .unfiltered := by
            rw [nameAnswer, rulesVerdict_not_rewrite hr, ha]
            rfl
          rw [zoneAnswer_of_name hname]
          simp
      | false =>
          have hname : nameAnswer rules external x = some .block := by
            rw [nameAnswer, rulesVerdict_not_rewrite hr, ha, hblock, Bool.or_true]
            rfl
          rw [zoneAnswer_of_name hname]
          simp

/-! ## The test against the zone -/

theorem blockedDomainTest_eq_ok {zone : List RpzLine} {test : Option Str} :
    blockedDomainTest zone test = .ok ()
      ↔ ∀ name, test = some name → bindOutcome zone name = .block := by
  cases test with
  | none => exact ⟨fun _ _ h => (nomatch h), fun _ => rfl⟩
  | some name =>
      rw [blockedDomainTest]
      split_ifs with h
      · exact ⟨fun _ _ hn => Option.some.inj hn ▸ h, fun _ => rfl⟩
      · exact ⟨fun h' => (nomatch h'), fun h' => absurd (h' name rfl) h⟩

/-- **A compiled zone passes its own blocked-domain test exactly when `testNameBlocked`.** -/
theorem blockedDomainTest_ok_iff (table : List StoredRule) (blocks allows : BlockSet) :
    deployBlockedTest table blocks allows = .ok ()
      ↔ testNameBlocked (activeRules table) (blocks.diff allows) := by
  unfold deployBlockedTest
  generalize blocks.diff allows = external
  have hmem := mem_activeBlocks table external
  have hset : ((subtractAllowed external (collectActive table)).names : Set Str)
      = {e | stands (activeRules table) external e = true} := Set.ext hmem
  have hcustom : (customBlocks (collectActive table) : Set Str)
      = {x | blockStands (domainRules (activeRules table) x) = true} :=
    Set.ext (mem_customBlocks table)
  have hempty : (subtractAllowed external (collectActive table)).names ≠ ∅
      ↔ ∃ e ∈ external.names, stands (activeRules table) external e = true := by
    rw [← Finset.nonempty_iff_ne_empty]
    constructor
    · rintro ⟨e, he⟩
      exact ⟨e, ((mem_subtractAllowed table external e).mp he).1, (hmem e).mp he⟩
    · rintro ⟨e, -, he⟩
      exact ⟨e, (hmem e).mpr he⟩
  rw [blockedDomainTest_eq_ok]
  simp only [bindOutcome_spec]
  unfold blockedTest testNameBlocked
  simp only [hempty, hmem, ← hset, ← hcustom, ← head?_sortedSet]
  by_cases hp : stands (activeRules table) external preferredTest = true
  · have hex : ∃ e ∈ external.names, stands (activeRules table) external e = true :=
      ⟨preferredTest, ((mem_subtractAllowed table external _).mp ((hmem _).mpr hp)).1, hp⟩
    rw [if_pos hex, if_pos hp, if_pos hp, ← zoneAnswer_stands hp]
    exact ⟨fun h => h _ rfl, fun h _ hn => Option.some.inj hn ▸ h⟩
  · by_cases hex : ∃ e ∈ external.names, stands (activeRules table) external e = true
    · rw [if_pos hex, if_neg hp, if_neg hp, if_pos hex]
      refine forall₂_congr fun e he => zoneAnswer_stands ?_
      exact (hmem e).mp (head?_sortedSet.mp he).1
    · rw [if_neg hex, if_neg hp, if_neg hex]
      refine forall₂_congr fun x hx => zoneAnswer_blockStands ?_
      exact (mem_customBlocks table x).mp (head?_sortedSet.mp hx).1

/-! ### A rewrite on the first blocklist name

`||x.com^$dnsrewrite=1.2.3.4` with `x.com` on a blocklist: the custom rewrite takes the owner
`x.com`, the external line is skipped, and the deployment tests that `x.com` is blocked. -/

def blocklistXCom : BlockSet where
  names := {"x.com".toList}
  normalized := by decide +kernel

def emptyBlocklist : BlockSet where
  names := ∅
  normalized := by decide

theorem rewrite_fails_own_test : deployBlockedTest [rewriteXCom] blocklistXCom emptyBlocklist
    = .error "post-deploy blocked-domain test failed for x.com".toList := by
  decide +kernel

end AlderpointDNS
