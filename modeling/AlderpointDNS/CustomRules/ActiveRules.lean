import AlderpointDNS.CustomRules.Rule
import AlderpointDNS.Lib.Dict

/-!
# The active rule set

`collectActive` aggregates the enabled valid rules by domain name and resolves the conflicts an
RPZ owner name cannot represent (`custom_rules.collect_active`, `_resolve_conflicts`).

Both are loops over dictionaries in which handling one row or one name touches the entries of
one name only.  The file ends with what the loops compute at a name:

* `collectRows_rewrites`, `collectRows_allows`, `collectRows_blocks` — the aggregated entries;
* **`resolveConflicts_spec`** — the resolved entries, as `resolveAt` of the aggregated ones.

Every later statement about the compiled policy goes through these.
-/

namespace AlderpointDNS

open Text

/-- The value of `ActiveRuleSet.rewrites[name]`. -/
structure RewriteEntry where
  a : Option Str := none
  aaaa : Option Str := none
  subdomains : Bool := false
  deriving DecidableEq

/-- The value of `ActiveRuleSet.allows[name]` and `ActiveRuleSet.blocks[name]`. -/
structure FlagEntry where
  exact : Bool := false
  subdomains : Bool := false
  priority : ℕ := 0
  deriving DecidableEq

/-- The `ActiveRuleSet` dataclass. -/
structure ActiveRuleSet where
  rewrites : Dict Str RewriteEntry := ∅
  allows : Dict Str FlagEntry := ∅
  blocks : Dict Str FlagEntry := ∅
  regexAllow : List Str := []
  regexBlock : List Str := []

/-! ## `collect_active` -/

/-- `ORDER BY priority DESC, id`: a stable sort of the rows in rowid order. -/
def byPriority (rules : List ParsedRule) : List ParsedRule :=
  rules.insertionSort fun x y => y.priority ≤ x.priority

/-- The `rewrite` branch: the first address of each family stays. -/
def RewriteEntry.add (r : ParsedRule) (e : RewriteEntry) : RewriteEntry :=
  let e := if r.addressFamily = some .ipv4 then { e with a := e.a.or r.rewriteAddress }
    else { e with aaaa := e.aaaa.or r.rewriteAddress }
  if r.matchSubdomains then { e with subdomains := true } else e

/-- The `allow` and `block` branches. -/
def FlagEntry.add (r : ParsedRule) (e : FlagEntry) : FlagEntry :=
  let e := if r.matchSubdomains then { e with subdomains := true } else { e with exact := true }
  { e with priority := max e.priority r.priority }

/-- One row of the loop.  A valid rule of a domain type always has a domain. -/
def collectRow (active : ActiveRuleSet) (r : ParsedRule) : ActiveRuleSet :=
  match r.ruleType, r.domain with
  | .rewrite, some d =>
      { active with rewrites := active.rewrites.upsert d fun e => (e.getD {}).add r }
  | .allow, some d => { active with allows := active.allows.upsert d fun e => (e.getD {}).add r }
  | .block, some d => { active with blocks := active.blocks.upsert d fun e => (e.getD {}).add r }
  | .regexAllow, _ => { active with regexAllow := active.regexAllow ++ r.pattern.toList }
  | .regexBlock, _ => { active with regexBlock := active.regexBlock ++ r.pattern.toList }
  | _, _ => active

/-- The loop of `collect_active`. -/
def collectRows (rules : List ParsedRule) : ActiveRuleSet := (byPriority rules).foldl collectRow {}

/-! ## `_resolve_conflicts` -/

/-- One name of the first loop. -/
def resolveBlock (active : ActiveRuleSet) (name : Str) : ActiveRuleSet :=
  match active.blocks.lookup name with
  | none => active
  | some blk =>
      let blk := match active.rewrites.lookup name with
        | some rewrite =>
            { blk with exact := false, subdomains := blk.subdomains && !rewrite.subdomains }
        | none => blk
      let (blk, allows) := match active.allows.lookup name with
        | none => (blk, active.allows)
        | some allow =>
            if allow.priority < blk.priority then (blk, active.allows.erase name)
            else ({ blk with exact := false, subdomains := blk.subdomains && !allow.subdomains },
              active.allows)
      let blocks := if !blk.exact && !blk.subdomains then active.blocks.erase name
        else active.blocks.insert name blk
      { active with allows := allows, blocks := blocks }

/-- One name of the second loop. -/
def resolveAllow (active : ActiveRuleSet) (name : Str) : ActiveRuleSet :=
  match active.rewrites.lookup name, active.allows.lookup name with
  | some rewrite, some allow =>
      if rewrite.subdomains || !allow.subdomains then
        { active with allows := active.allows.erase name }
      else { active with allows := active.allows.insert name { allow with exact := false } }
  | _, _ => active

/-- `_resolve_conflicts`. -/
def resolveConflicts (active : ActiveRuleSet) : ActiveRuleSet :=
  let active := active.blocks.keys.foldl resolveBlock active
  active.allows.keys.foldl resolveAllow active

/-- `collect_active` on the rows of the table. -/
def collectActive (rows : List StoredRule) : ActiveRuleSet :=
  resolveConflicts (collectRows (activeRules rows))

/-! ## What the loops compute at a name -/

/-- The rules of one type at one name. -/
def rulesAt (t : RuleType) (x : Str) (rules : List ParsedRule) : List ParsedRule :=
  rules.filter fun r => r.ruleType = t && r.domain = some x

/-- The entry `allows[x]` or `blocks[x]` for the rules of that type at `x`. -/
def flagsOf (rs : List ParsedRule) : Option FlagEntry :=
  if rs = [] then none
  else some { exact := rs.any (!·.matchSubdomains), subdomains := rs.any (·.matchSubdomains),
              priority := (rs.map (·.priority)).foldl max 0 }

/-- The first address of a family. -/
def firstAddress (v4 : Bool) (rs : List ParsedRule) : Option Str :=
  (rs.find? fun r => (r.addressFamily = some .ipv4) = v4 && r.rewriteAddress.isSome).bind
    (·.rewriteAddress)

/-- The entry `rewrites[x]` for the rewrite rules at `x`, in compile order. -/
def rewriteOf (rs : List ParsedRule) : Option RewriteEntry :=
  if rs = [] then none
  else some { a := firstAddress true rs, aaaa := firstAddress false rs,
              subdomains := rs.any (·.matchSubdomains) }

theorem flagsOf_append (rs : List ParsedRule) (r : ParsedRule) :
    flagsOf (rs ++ [r]) = some (((flagsOf rs).getD {}).add r) := by
  by_cases h : rs = []
  · subst h
    cases hs : r.matchSubdomains <;> simp [flagsOf, FlagEntry.add, hs]
  · cases hs : r.matchSubdomains <;>
      simp [flagsOf, FlagEntry.add, hs, h, List.foldl_append]

theorem rewriteOf_append (rs : List ParsedRule) (r : ParsedRule) :
    rewriteOf (rs ++ [r]) = some (((rewriteOf rs).getD {}).add r) := by
  have first : ∀ v4 : Bool, firstAddress v4 (rs ++ [r])
      = (firstAddress v4 rs).or (firstAddress v4 [r]) := by
    intro v4
    simp only [firstAddress, List.find?_append]
    cases hf : rs.find? fun r => (r.addressFamily = some .ipv4) = v4 && r.rewriteAddress.isSome with
    | none => simp
    | some q =>
        have := List.find?_some hf
        simp only [Bool.and_eq_true] at this
        obtain ⟨a, ha⟩ := Option.isSome_iff_exists.mp this.2
        simp [ha]
  have hall : rewriteOf (rs ++ [r]) = some
      { a := (firstAddress true rs).or (firstAddress true [r]),
        aaaa := (firstAddress false rs).or (firstAddress false [r]),
        subdomains := rs.any (·.matchSubdomains) || r.matchSubdomains } := by
    simp [rewriteOf, first]
  have hget : (rewriteOf rs).getD {} = (RewriteEntry.mk (firstAddress true rs)
      (firstAddress false rs) (rs.any (·.matchSubdomains))) := by
    unfold rewriteOf
    split_ifs with h
    · subst h; rfl
    · rfl
  rw [hall, hget]
  cases hs : r.matchSubdomains <;> by_cases hf : r.addressFamily = some .ipv4 <;>
    cases ha : r.rewriteAddress <;> simp [RewriteEntry.add, firstAddress, hs, hf, ha]

theorem flagsOf_perm {rs rs' : List ParsedRule} (h : rs.Perm rs') : flagsOf rs = flagsOf rs' := by
  have hnil : rs = [] ↔ rs' = [] := by
    rw [← List.length_eq_zero_iff, ← List.length_eq_zero_iff, h.length_eq]
  have hmax : (rs.map (·.priority)).foldl max 0 = (rs'.map (·.priority)).foldl max 0 :=
    (h.map _).foldl_eq 0
  simp only [flagsOf, hnil, h.any_eq, hmax]

theorem rulesAt_byPriority_perm (t : RuleType) (x : Str) (rules : List ParsedRule) :
    (rulesAt t x (byPriority rules)).Perm (rulesAt t x rules) :=
  (List.perm_insertionSort _ rules).filter _

/-- The loop of `collect_active`, seen in one of its three dictionaries at one name. -/
theorem collectRows_view {ν : Type} (t : RuleType) (view : ActiveRuleSet → Str → Option ν)
    (add : ParsedRule → Option ν → Option ν) (of : List ParsedRule → Option ν)
    (hempty : ∀ x, view {} x = of [])
    (happ : ∀ rs r, of (rs ++ [r]) = add r (of rs))
    (hrow : ∀ s r x, view (collectRow s r) x
      = if r.ruleType = t ∧ r.domain = some x then add r (view s x) else view s x)
    (rules : List ParsedRule) (x : Str) :
    view (collectRows rules) x = of (rulesAt t x (byPriority rules)) := by
  have hlocal : Local view collectRow (fun r => if r.ruleType = t then r.domain else none) add := by
    intro s r x
    rw [hrow]
    by_cases ht : r.ruleType = t <;> simp [ht]
  have hkey : ∀ l : List ParsedRule,
      (l.filter fun r => (if r.ruleType = t then r.domain else none) = some x) = rulesAt t x l := by
    intro l
    refine List.filter_congr fun r _ => ?_
    by_cases ht : r.ruleType = t <;> simp [ht]
  rw [collectRows, view_foldl hlocal, hkey, hempty]
  exact @foldl_eq_of_append ParsedRule (Option ν) of (fun v r => add r v) happ _

theorem collectRows_rewrites (rules : List ParsedRule) (x : Str) :
    (collectRows rules).rewrites.lookup x
      = rewriteOf (rulesAt .rewrite x (byPriority rules)) := by
  refine collectRows_view .rewrite (fun s x => s.rewrites.lookup x)
    (fun r v => some ((v.getD {}).add r)) rewriteOf (fun _ => rfl) rewriteOf_append ?_ rules x
  intro s r x
  cases ht : r.ruleType <;> cases hd : r.domain <;>
    simp [collectRow, ht, hd, Dict.lookup_upsert]

theorem collectRows_allows (rules : List ParsedRule) (x : Str) :
    (collectRows rules).allows.lookup x = flagsOf (rulesAt .allow x rules) := by
  rw [← flagsOf_perm (rulesAt_byPriority_perm _ x rules)]
  refine collectRows_view .allow (fun s x => s.allows.lookup x)
    (fun r v => some ((v.getD {}).add r)) flagsOf (fun _ => rfl) flagsOf_append ?_ rules x
  intro s r x
  cases ht : r.ruleType <;> cases hd : r.domain <;>
    simp [collectRow, ht, hd, Dict.lookup_upsert]

theorem collectRows_blocks (rules : List ParsedRule) (x : Str) :
    (collectRows rules).blocks.lookup x = flagsOf (rulesAt .block x rules) := by
  rw [← flagsOf_perm (rulesAt_byPriority_perm _ x rules)]
  refine collectRows_view .block (fun s x => s.blocks.lookup x)
    (fun r v => some ((v.getD {}).add r)) flagsOf (fun _ => rfl) flagsOf_append ?_ rules x
  intro s r x
  cases ht : r.ruleType <;> cases hd : r.domain <;>
    simp [collectRow, ht, hd, Dict.lookup_upsert]

/-- The entries of one name: rewrite, allow, block. -/
structure NameEntries where
  rewrite : Option RewriteEntry
  allow : Option FlagEntry
  block : Option FlagEntry

/-- The three dictionaries at `x`. -/
def ActiveRuleSet.at (active : ActiveRuleSet) (x : Str) : NameEntries :=
  ⟨active.rewrites.lookup x, active.allows.lookup x, active.blocks.lookup x⟩

/-- The first loop at one name. -/
def NameEntries.resolveBlock (e : NameEntries) : NameEntries :=
  match e.block with
  | none => e
  | some blk =>
      let blk := match e.rewrite with
        | some rewrite =>
            { blk with exact := false, subdomains := blk.subdomains && !rewrite.subdomains }
        | none => blk
      let (blk, allow) := match e.allow with
        | none => (blk, none)
        | some allow =>
            if allow.priority < blk.priority then (blk, none)
            else ({ blk with exact := false, subdomains := blk.subdomains && !allow.subdomains },
              some allow)
      { e with allow := allow, block := if !blk.exact && !blk.subdomains then none else some blk }

/-- The second loop at one name. -/
def NameEntries.resolveAllow (e : NameEntries) : NameEntries :=
  match e.rewrite, e.allow with
  | some rewrite, some allow =>
      if rewrite.subdomains || !allow.subdomains then { e with allow := none }
      else { e with allow := some { allow with exact := false } }
  | _, _ => e

set_option linter.unusedSimpArgs false in
theorem resolveBlock_local :
    Local ActiveRuleSet.at resolveBlock some (fun _ e => e.resolveBlock) := by
  intro s name x
  unfold AlderpointDNS.resolveBlock ActiveRuleSet.at
  by_cases hx : name = x
  · subst hx
    cases hb : s.blocks.lookup name with
    | none => simp [NameEntries.resolveBlock, hb]
    | some blk =>
        cases hr : s.rewrites.lookup name <;> cases ha : s.allows.lookup name <;>
          simp only [NameEntries.resolveBlock, hr, ha] <;> split_ifs <;>
          simp_all [Dict.lookup_insert', Dict.lookup_erase']
  · cases hb : s.blocks.lookup name with
    | none => simp [hx]
    | some blk =>
        cases hr : s.rewrites.lookup name <;> cases ha : s.allows.lookup name <;>
          simp only [hr, ha] <;> split_ifs <;>
          simp_all [Dict.lookup_insert', Dict.lookup_erase']

set_option linter.unusedSimpArgs false in
theorem resolveAllow_local :
    Local ActiveRuleSet.at resolveAllow some (fun _ e => e.resolveAllow) := by
  intro s name x
  unfold AlderpointDNS.resolveAllow ActiveRuleSet.at
  by_cases hx : name = x
  · subst hx
    cases hr : s.rewrites.lookup name <;> cases ha : s.allows.lookup name <;>
      simp only [NameEntries.resolveAllow, hr, ha] <;> try split_ifs
    all_goals simp_all [Dict.lookup_insert', Dict.lookup_erase']
  · cases hr : s.rewrites.lookup name <;> cases ha : s.allows.lookup name <;>
      try simp only [hr, ha]
    all_goals try split_ifs
    all_goals simp_all [Dict.lookup_insert', Dict.lookup_erase']

/-- **The resolved entries of a name** are a function of the entries of that name alone. -/
theorem resolveConflicts_spec (s : ActiveRuleSet) (x : Str) :
    (resolveConflicts s).at x = (s.at x).resolveBlock.resolveAllow := by
  have h1 : (s.blocks.keys.foldl resolveBlock s).at x = (s.at x).resolveBlock := by
    rw [view_foldl_nodup resolveBlock_local s.blocks.keys_nodup]
    split_ifs with h
    · rfl
    · have hb : (s.at x).block = none := Dict.lookup_eq_none_of_notMem h
      simp [NameEntries.resolveBlock, hb]
  rw [resolveConflicts, view_foldl_nodup resolveAllow_local (AList.keys_nodup _), h1]
  split_ifs with h
  · rfl
  · have ha : (s.at x).resolveBlock.allow = none := by
      rw [← h1]
      exact Dict.lookup_eq_none_of_notMem h
    unfold NameEntries.resolveAllow
    rw [ha]
    cases (s.at x).resolveBlock.rewrite <;> rfl

/-- What the rules at `x` say before conflicts are resolved. -/
def entriesOf (rules : List ParsedRule) (x : Str) : NameEntries :=
  ⟨rewriteOf (rulesAt .rewrite x (byPriority rules)), flagsOf (rulesAt .allow x rules),
    flagsOf (rulesAt .block x rules)⟩

/-- **The compiled entries of a name**, from the rules. -/
theorem resolveConflicts_collectRows_at (rules : List ParsedRule) (x : Str) :
    (resolveConflicts (collectRows rules)).at x
      = (entriesOf rules x).resolveBlock.resolveAllow := by
  rw [resolveConflicts_spec]
  simp only [ActiveRuleSet.at, entriesOf, collectRows_rewrites, collectRows_allows,
    collectRows_blocks]

/-! ### The regex lists -/

theorem resolveConflicts_regex (s : ActiveRuleSet) :
    (resolveConflicts s).regexAllow = s.regexAllow
      ∧ (resolveConflicts s).regexBlock = s.regexBlock := by
  have hblock : ∀ (s : ActiveRuleSet) (x : Str), (AlderpointDNS.resolveBlock s x).regexAllow
      = s.regexAllow ∧ (AlderpointDNS.resolveBlock s x).regexBlock = s.regexBlock := by
    intro s x
    unfold AlderpointDNS.resolveBlock
    cases s.blocks.lookup x <;> exact ⟨rfl, rfl⟩
  have hallow : ∀ (s : ActiveRuleSet) (x : Str), (AlderpointDNS.resolveAllow s x).regexAllow
      = s.regexAllow ∧ (AlderpointDNS.resolveAllow s x).regexBlock = s.regexBlock := by
    intro s x
    unfold AlderpointDNS.resolveAllow
    split
    · split_ifs <;> exact ⟨rfl, rfl⟩
    · exact ⟨rfl, rfl⟩
  have hfold : ∀ (f : ActiveRuleSet → Str → ActiveRuleSet),
      (∀ s x, (f s x).regexAllow = s.regexAllow ∧ (f s x).regexBlock = s.regexBlock) →
      ∀ (l : List Str) (s : ActiveRuleSet), (l.foldl f s).regexAllow = s.regexAllow
        ∧ (l.foldl f s).regexBlock = s.regexBlock := by
    intro f hf l
    induction l with
    | nil => intro s; exact ⟨rfl, rfl⟩
    | cons x l ih =>
        intro s
        rw [List.foldl_cons, (ih (f s x)).1, (ih (f s x)).2]
        exact hf s x
  have h1 := hfold _ hblock s.blocks.keys s
  have h2 := hfold _ hallow (s.blocks.keys.foldl resolveBlock s).allows.keys
    (s.blocks.keys.foldl resolveBlock s)
  exact ⟨h2.1.trans h1.1, h2.2.trans h1.2⟩

/-- The patterns of the rules of one regex type. -/
def patternsOf (t : RuleType) (rules : List ParsedRule) : List Str :=
  (rules.filter (·.ruleType = t)).flatMap (·.pattern.toList)

theorem collectRows_regexAllow (rules : List ParsedRule) :
    (collectRows rules).regexAllow = patternsOf .regexAllow (byPriority rules) := by
  have h : ∀ (l : List ParsedRule) (s : ActiveRuleSet),
      (l.foldl collectRow s).regexAllow = s.regexAllow ++ patternsOf .regexAllow l := by
    intro l
    induction l with
    | nil => intro s; simp [patternsOf]
    | cons r l ih =>
        intro s
        rw [List.foldl_cons, ih]
        cases ht : r.ruleType <;> cases hd : r.domain <;>
          simp [collectRow, patternsOf, ht, hd]
  rw [collectRows, h, List.nil_append]

theorem collectRows_regexBlock (rules : List ParsedRule) :
    (collectRows rules).regexBlock = patternsOf .regexBlock (byPriority rules) := by
  have h : ∀ (l : List ParsedRule) (s : ActiveRuleSet),
      (l.foldl collectRow s).regexBlock = s.regexBlock ++ patternsOf .regexBlock l := by
    intro l
    induction l with
    | nil => intro s; simp [patternsOf]
    | cons r l ih =>
        intro s
        rw [List.foldl_cons, ih]
        cases ht : r.ruleType <;> cases hd : r.domain <;>
          simp [collectRow, patternsOf, ht, hd]
  rw [collectRows, h, List.nil_append]

theorem mem_patternsOf {t : RuleType} {rules : List ParsedRule} {p : Str} :
    p ∈ patternsOf t rules ↔ ∃ r ∈ rules, r.ruleType = t ∧ r.pattern = some p := by
  simp [patternsOf, Option.mem_toList, and_assoc]

/-- A pattern is compiled exactly when an active regex rule has it. -/
theorem mem_regexAllow {rows : List StoredRule} {p : Str} : p ∈ (collectActive rows).regexAllow ↔
    ∃ r ∈ activeRules rows, r.ruleType = .regexAllow ∧ r.pattern = some p := by
  rw [collectActive, (resolveConflicts_regex _).1, collectRows_regexAllow, mem_patternsOf]
  simp only [byPriority, List.mem_insertionSort]

theorem mem_regexBlock {rows : List StoredRule} {p : Str} : p ∈ (collectActive rows).regexBlock ↔
    ∃ r ∈ activeRules rows, r.ruleType = .regexBlock ∧ r.pattern = some p := by
  rw [collectActive, (resolveConflicts_regex _).2, collectRows_regexBlock, mem_patternsOf]
  simp only [byPriority, List.mem_insertionSort]

end AlderpointDNS
