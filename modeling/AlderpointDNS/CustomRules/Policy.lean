import AlderpointDNS.CustomRules.Evaluate

/-!
# What the compiled policy answers

`compiledOutcome` is the path of a query through the compiled policy: the pass lists and the
regex rules of the dnsdist layer, then the zone.  This file computes it from the stored rules.

The unit is again one name.  `rulesVerdict` of all the rules at `x` is what the zone says at the
owner `x`, and `wildcardVerdict` what it says at `*.x`:

* `zone_name`, `zone_wildcard` — the record data at the two owners;
* `bindOutcome_spec` — the answer from the zone: the verdict at the name, else the first
  wildcard verdict among its parents;
* **`compiledOutcome_spec`** — the answer of the whole policy.
-/

namespace AlderpointDNS

open Text

/-! ## The path of a query -/

def Rdata.isAddress : Rdata → Bool
  | .a _ | .aaaa _ => true
  | .block | .passthru => false

/-- The answer the record data of an owner stands for. -/
def Outcome.ofRdatas (rs : List Rdata) : Outcome :=
  if rs.any (· = .block) then .block else if rs.any (·.isAddress) then .rewrite else .unfiltered

/-- BIND's answer: the record data of the best owner. -/
def bindOutcome (zone : List RpzLine) (q : Str) : Outcome :=
  match bestOwner zone q with
  | none => .unfiltered
  | some best => .ofRdatas (rdatasAt zone best.owner)

/-- The files of one compilation. -/
structure CompiledPolicy where
  zone : List RpzLine
  dnsdist : DnsdistData

/-- Compile a table and an external block set; `none` if a data file is refused. -/
def compilePolicy (table : List StoredRule) (external : BlockSet) (zones : List Str) :
    Option CompiledPolicy :=
  let active := collectActive table
  (renderDnsdistData active zones).map fun data =>
    { zone := renderRpz (subtractAllowed external active) active, dnsdist := data }

/-- A query through the rules of the Lua include, in their order. -/
def compiledOutcome (rx : Str → Str → Bool) (policy : CompiledPolicy) (q : Str) : Outcome :=
  if (luaLines policy.dnsdist.passSuffixes).any (inZone q) then bindOutcome policy.zone q
  else if (luaLines policy.dnsdist.passExact).contains q then bindOutcome policy.zone q
  else if (luaLines policy.dnsdist.regexAllow).any (rx · q) then bindOutcome policy.zone q
  else if (luaLines policy.dnsdist.regexBlock).any (rx · q) then .block
  else bindOutcome policy.zone q

/-! ## The verdicts of a name -/

/-- Some rule of type `t` reaches the subdomains. -/
def coversType (t : RuleType) (rs : List ParsedRule) : Bool :=
  rs.any fun r => r.ruleType = t && r.matchSubdomains

/-- What the rules at a name say about its subdomains. -/
def wildcardVerdict (rs : List ParsedRule) : Option Outcome :=
  if coversType .rewrite rs then some .rewrite
  else if coversType .allow rs && !blockOutranks rs then some .unfiltered
  else if coversType .block rs then some .block
  else none

/-- An allow at the name is left after conflicts are resolved. -/
def allowStands (rs : List ParsedRule) : Bool :=
  hasType .allow rs && !blockOutranks rs && !coversType .rewrite rs
    && (!hasType .rewrite rs || coversType .allow rs)

/-- The record data of an owner as a verdict; none for an owner that is not there. -/
def verdictOf (rs : List Rdata) : Option Outcome := if rs = [] then none else some (.ofRdatas rs)

/-! ### The entries of a name -/

/-- Entries as the loop over the rows leaves them: a rewrite has an address, a flag entry has
one of its flags. -/
structure NameEntries.Proper (e : NameEntries) : Prop where
  rewrite : ∀ r, e.rewrite = some r → r.rdatas ≠ []
  allow : ∀ a, e.allow = some a → (a.exact || a.subdomains) = true
  block : ∀ b, e.block = some b → (b.exact || b.subdomains) = true

/-- The allow priority is below the block priority. -/
def NameEntries.overruled (e : NameEntries) : Bool :=
  match e.allow, e.block with
  | some a, some b => a.priority < b.priority
  | _, _ => false

/-- `rulesVerdict`, on the entries. -/
def NameEntries.nameVerdict (e : NameEntries) : Option Outcome :=
  if e.rewrite.isSome then some .rewrite
  else if e.allow.isSome then some (if e.overruled then .block else .unfiltered)
  else if e.block.isSome then some .block
  else none

/-- `wildcardVerdict`, on the entries. -/
def NameEntries.wildcardVerdict (e : NameEntries) : Option Outcome :=
  if e.rewrite.any (·.subdomains) then some .rewrite
  else if e.allow.any (·.subdomains) && !e.overruled then some .unfiltered
  else if e.block.any (·.subdomains) then some .block
  else none

/-- `allowStands`, on the entries. -/
def NameEntries.allowStands (e : NameEntries) : Bool :=
  e.allow.isSome && !e.overruled && !e.rewrite.any (·.subdomains)
    && (!e.rewrite.isSome || e.allow.any (·.subdomains))

/-- The entries after `_resolve_conflicts`. -/
def NameEntries.resolve (e : NameEntries) : NameEntries := e.resolveBlock.resolveAllow

/-- The allow entry that is left. -/
def NameEntries.allowLeft (e : NameEntries) : Option FlagEntry :=
  if e.allowStands then e.allow.map fun a => { a with exact := a.exact && !e.rewrite.isSome }
  else none

/-- The block entry that is left. -/
def NameEntries.blockLeft (e : NameEntries) : Option FlagEntry :=
  (e.block.map fun b =>
    { b with
      exact := b.exact && !e.rewrite.isSome && (!e.allow.isSome || e.overruled)
      subdomains := b.subdomains && !e.rewrite.any (·.subdomains)
        && (!e.allow.any (·.subdomains) || e.overruled) }).filter fun b => b.exact || b.subdomains

/-- **What `_resolve_conflicts` leaves of a name.** -/
theorem NameEntries.resolve_eq (e : NameEntries) :
    e.resolve = ⟨e.rewrite, e.allowLeft, e.blockLeft⟩ := by
  obtain ⟨r, a, b⟩ := e
  rcases r with _ | ⟨ra, raaaa, rs⟩ <;> rcases a with _ | ⟨ae, as, ap⟩ <;>
    rcases b with _ | ⟨be, bs, bp⟩
  · rfl
  · cases be <;> cases bs <;> rfl
  · simp [resolve, resolveBlock, resolveAllow, allowLeft, blockLeft, allowStands, overruled]
  · by_cases hp : ap < bp <;> cases as <;> cases be <;> cases bs <;>
      simp [resolve, resolveBlock, resolveAllow, allowLeft, blockLeft, allowStands, overruled,
        Option.filter, hp]
  · rfl
  · cases be <;> cases bs <;> cases rs <;> rfl
  · cases rs <;> cases ae <;> cases as <;> rfl
  · by_cases hp : ap < bp <;> cases rs <;> cases as <;> cases be <;> cases bs <;>
      simp [resolve, resolveBlock, resolveAllow, allowLeft, blockLeft, allowStands, overruled,
        Option.filter, hp]

theorem RewriteEntry.rdatas_isAddress (r : RewriteEntry) : ∀ d ∈ r.rdatas, d.isAddress = true := by
  intro d hd
  rcases List.mem_append.mp hd with h | h <;>
    · rw [Option.mem_toList, Option.map_eq_some_iff] at h
      obtain ⟨_, -, rfl⟩ := h
      rfl

/-- The records of a rewrite are a rewrite. -/
theorem verdictOf_rdatas {r : RewriteEntry} (h : r.rdatas ≠ []) :
    verdictOf r.rdatas = some .rewrite := by
  have hall := r.rdatas_isAddress
  have hblock : r.rdatas.any (· = .block) = false := by
    rw [List.any_eq_false]
    intro d hd
    have := hall d hd
    cases d <;> simp_all [Rdata.isAddress]
  have hany : r.rdatas.any (·.isAddress) = true := by
    obtain ⟨d, hd⟩ := List.exists_mem_of_ne_nil _ h
    exact List.any_eq_true.mpr ⟨d, hd, hall d hd⟩
  simp [verdictOf, h, Outcome.ofRdatas, hblock, hany]

@[simp] theorem verdictOf_nil : verdictOf [] = none := rfl

@[simp] theorem verdictOf_block : verdictOf [.block] = some .block := rfl

@[simp] theorem verdictOf_passthru : verdictOf [.passthru] = some .unfiltered := rfl

/-- **The records of a name**: the verdicts of its entries, and an owner is occupied exactly when
it has a verdict. -/
theorem NameEntries.Proper.records {e : NameEntries} (he : e.Proper) :
    verdictOf e.resolve.records.name = e.nameVerdict
      ∧ verdictOf e.resolve.records.wildcard = e.wildcardVerdict
      ∧ e.resolve.records.nameOccupied = e.nameVerdict.isSome
      ∧ e.resolve.records.wildcardOccupied = e.wildcardVerdict.isSome := by
  rw [resolve_eq]
  obtain ⟨hr, ha, hb⟩ := he
  obtain ⟨r, a, b⟩ := e
  have ha' : ∀ ap, a ≠ some ⟨false, false, ap⟩ := fun ap h => by cases ha _ h
  have hb' : ∀ bp, b ≠ some ⟨false, false, bp⟩ := fun bp h => by cases hb _ h
  have hr' : ∀ r', r = some r' → verdictOf r'.rdatas = some .rewrite :=
    fun r' h => verdictOf_rdatas (hr r' h)
  clear hr ha hb
  rcases r with _ | r <;> rcases a with _ | ⟨ae, as, ap⟩ <;> rcases b with _ | ⟨be, bs, bp⟩
  · exact ⟨rfl, rfl, rfl, rfl⟩
  · cases be <;> cases bs
    · exact absurd rfl (hb' bp)
    all_goals exact ⟨rfl, rfl, rfl, rfl⟩
  · cases ae <;> cases as
    · exact absurd rfl (ha' ap)
    all_goals exact ⟨rfl, rfl, rfl, rfl⟩
  · by_cases hp : ap < bp <;> cases ae <;> cases as <;> cases be <;> cases bs <;>
      first
      | exact absurd rfl (ha' ap)
      | exact absurd rfl (hb' bp)
      | simp [NameEntries.records, NameRecords.emitRewrite, NameRecords.emitAllow,
          NameRecords.emitBlock, NameRecords.claimName, NameRecords.claimWildcard, allowLeft,
          blockLeft, allowStands, overruled, Option.filter, nameVerdict,
          NameEntries.wildcardVerdict, hp]
  · have hv := hr' r rfl
    cases hs : r.subdomains <;>
      simp [NameEntries.records, NameRecords.emitRewrite, NameRecords.emitAllow,
        NameRecords.emitBlock, allowLeft, blockLeft, nameVerdict,
        NameEntries.wildcardVerdict, hs, hv]
  · have hv := hr' r rfl
    cases hs : r.subdomains <;> cases be <;> cases bs <;>
      first
      | exact absurd rfl (hb' bp)
      | simp [NameEntries.records, NameRecords.emitRewrite, NameRecords.emitAllow,
          NameRecords.emitBlock, NameRecords.claimName, NameRecords.claimWildcard, allowLeft,
          blockLeft, Option.filter, nameVerdict, NameEntries.wildcardVerdict, hs, hv]
  · have hv := hr' r rfl
    cases hs : r.subdomains <;> cases ae <;> cases as <;>
      first
      | exact absurd rfl (ha' ap)
      | simp [NameEntries.records, NameRecords.emitRewrite, NameRecords.emitAllow,
          NameRecords.emitBlock, NameRecords.claimName, NameRecords.claimWildcard, allowLeft,
          blockLeft, allowStands, overruled, nameVerdict, NameEntries.wildcardVerdict, hs, hv]
  · have hv := hr' r rfl
    by_cases hp : ap < bp <;> cases hs : r.subdomains <;> cases ae <;> cases as <;> cases be <;>
      cases bs <;>
      first
      | exact absurd rfl (ha' ap)
      | exact absurd rfl (hb' bp)
      | simp [NameEntries.records, NameRecords.emitRewrite, NameRecords.emitAllow,
          NameRecords.emitBlock, NameRecords.claimName, NameRecords.claimWildcard, allowLeft,
          blockLeft, allowStands, overruled, Option.filter, nameVerdict,
          NameEntries.wildcardVerdict, hp, hs, hv]

/-! ### From the rules of a name to its entries -/

theorem rulesAt_eq {t : RuleType} (ht : t.isDomainType = true) (x : Str) (rules : List ParsedRule) :
    rulesAt t x rules = (domainRules rules x).filter (·.ruleType = t) := by
  rw [rulesAt, domainRules, List.filter_filter]
  refine List.filter_congr fun r _ => ?_
  by_cases h : r.ruleType = t
  · simp [h, ht]
  · simp [h]

theorem flagsOf_isSome (rs : List ParsedRule) (t : RuleType) :
    (flagsOf (rs.filter (·.ruleType = t))).isSome = hasType t rs := by
  unfold flagsOf hasType
  split_ifs with h
  · simpa [List.filter_eq_nil_iff] using h
  · obtain ⟨r, hr⟩ := List.exists_mem_of_ne_nil _ h
    rw [List.mem_filter] at hr
    simpa using ⟨r, hr.1, by simpa using hr.2⟩

theorem flagsOf_subdomains (rs : List ParsedRule) (t : RuleType) :
    (flagsOf (rs.filter (·.ruleType = t))).any (·.subdomains) = coversType t rs := by
  unfold flagsOf coversType
  split_ifs with h
  · rw [List.filter_eq_nil_iff] at h
    simp only [Option.any_none]
    symm
    rw [List.any_eq_false]
    intro r hr
    simp_all
  · simp [List.any_filter]

theorem flagsOf_proper {rs : List ParsedRule} {f : FlagEntry} (h : flagsOf rs = some f) :
    (f.exact || f.subdomains) = true := by
  unfold flagsOf at h
  split_ifs at h with hne
  cases h
  obtain ⟨r, hr⟩ := List.exists_mem_of_ne_nil _ hne
  cases hs : r.matchSubdomains
  · simpa using Or.inl ⟨r, hr, hs⟩
  · simpa using Or.inr ⟨r, hr, hs⟩

theorem flagsOf_priority {rs : List ParsedRule} {f : FlagEntry} (h : flagsOf rs = some f) :
    maxPriority rs = f.priority := by
  unfold flagsOf at h
  split_ifs at h
  cases h
  rfl

theorem entriesOf_allow (rules : List ParsedRule) (x : Str) :
    (entriesOf rules x).allow = flagsOf ((domainRules rules x).filter (·.ruleType = .allow)) := by
  rw [← rulesAt_eq rfl]
  rfl

theorem entriesOf_block (rules : List ParsedRule) (x : Str) :
    (entriesOf rules x).block = flagsOf ((domainRules rules x).filter (·.ruleType = .block)) := by
  rw [← rulesAt_eq rfl]
  rfl

theorem entriesOf_rewrite_isSome (rules : List ParsedRule) (x : Str) :
    (entriesOf rules x).rewrite.isSome = hasType .rewrite (domainRules rules x) := by
  have hperm := rulesAt_byPriority_perm .rewrite x rules
  have hnil : rulesAt .rewrite x (byPriority rules) = [] ↔ rulesAt .rewrite x rules = [] := by
    rw [← List.length_eq_zero_iff, ← List.length_eq_zero_iff, hperm.length_eq]
  rw [← flagsOf_isSome, ← rulesAt_eq rfl]
  simp only [entriesOf, rewriteOf, flagsOf, hnil]
  split_ifs <;> rfl

theorem entriesOf_rewrite_subdomains (rules : List ParsedRule) (x : Str) :
    (entriesOf rules x).rewrite.any (·.subdomains) = coversType .rewrite (domainRules rules x) := by
  have hperm := rulesAt_byPriority_perm .rewrite x rules
  have hnil : rulesAt .rewrite x (byPriority rules) = [] ↔ rulesAt .rewrite x rules = [] := by
    rw [← List.length_eq_zero_iff, ← List.length_eq_zero_iff, hperm.length_eq]
  rw [← flagsOf_subdomains, ← rulesAt_eq rfl]
  simp only [entriesOf, rewriteOf, flagsOf, hnil, hperm.any_eq]
  split_ifs <;> rfl

theorem entriesOf_overruled {rules : List ParsedRule} {x : Str}
    (ha : hasType .allow (domainRules rules x) = true) :
    (entriesOf rules x).overruled = blockOutranks (domainRules rules x) := by
  unfold NameEntries.overruled
  rw [entriesOf_allow, entriesOf_block]
  generalize domainRules rules x = rs at ha ⊢
  rw [← flagsOf_isSome] at ha
  obtain ⟨a, hfa⟩ := Option.isSome_iff_exists.mp ha
  cases hb : hasType .block rs with
  | false =>
      have hnone : flagsOf (rs.filter (·.ruleType = .block)) = none := by
        rw [← Option.isNone_iff_eq_none, ← Option.not_isSome, flagsOf_isSome, hb]
        rfl
      rw [hfa, hnone, not_blockOutranks hb]
  | true =>
      rw [← flagsOf_isSome] at hb
      obtain ⟨b, hfb⟩ := Option.isSome_iff_exists.mp hb
      rw [hfa, hfb, blockOutranks, flagsOf_priority hfa, flagsOf_priority hfb]

theorem firstAddress_of_mem {rs : List ParsedRule} {r : ParsedRule} (hr : r ∈ rs)
    (haddr : ∀ r ∈ rs, ∃ a, r.rewriteAddress = some a ∧ a ≠ []) :
    ∃ a, firstAddress (r.addressFamily = some .ipv4) rs = some a ∧ a ≠ [] := by
  have hfound : (rs.find? fun r' => (r'.addressFamily = some .ipv4)
      = (r.addressFamily = some .ipv4 : Bool) && r'.rewriteAddress.isSome).isSome = true := by
    rw [List.find?_isSome]
    obtain ⟨a, ha, -⟩ := haddr r hr
    exact ⟨r, hr, by simp [ha]⟩
  obtain ⟨r', hr'⟩ := Option.isSome_iff_exists.mp hfound
  obtain ⟨a, ha, hne⟩ := haddr r' (List.mem_of_find?_eq_some hr')
  exact ⟨a, by rw [firstAddress, hr', Option.bind_some, ha], hne⟩

theorem entriesOf_proper {rules : List ParsedRule}
    (hwf : ∀ r ∈ rules, r.wellFormed = true ∧ r.validationState = .valid) (x : Str) :
    (entriesOf rules x).Proper where
  rewrite := by
    intro e he
    have haddr : ∀ r ∈ rulesAt .rewrite x (byPriority rules),
        ∃ a, r.rewriteAddress = some a ∧ a ≠ [] := by
      intro r hr
      have hmem := (rulesAt_byPriority_perm .rewrite x rules).mem_iff.mp hr
      simp only [rulesAt, List.mem_filter, Bool.and_eq_true, decide_eq_true_eq] at hmem
      exact ParsedRule.rewrite_address (hwf r hmem.1).1 (hwf r hmem.1).2 hmem.2.1
    simp only [entriesOf, rewriteOf] at he
    split_ifs at he with hne
    cases he
    obtain ⟨r, hr⟩ := List.exists_mem_of_ne_nil _ hne
    obtain ⟨a, ha, hane⟩ := firstAddress_of_mem hr haddr
    unfold RewriteEntry.rdatas
    cases hf : decide (r.addressFamily = some .ipv4) <;> rw [hf] at ha <;> simp [ha, hane]
  allow := fun _ h => flagsOf_proper h
  block := fun _ h => flagsOf_proper h

theorem hasType_of_coversType {t : RuleType} {rs : List ParsedRule}
    (h : coversType t rs = true) : hasType t rs = true := by
  obtain ⟨r, hr, hp⟩ := List.any_eq_true.mp h
  exact List.any_eq_true.mpr ⟨r, hr, (Bool.and_eq_true _ _ |>.mp hp).1⟩

/-- The verdicts of the entries are those of the rules. -/
theorem entriesOf_verdicts (rules : List ParsedRule) (x : Str) :
    (entriesOf rules x).nameVerdict = rulesVerdict (domainRules rules x)
      ∧ (entriesOf rules x).wildcardVerdict = wildcardVerdict (domainRules rules x)
      ∧ (entriesOf rules x).allowStands = allowStands (domainRules rules x) := by
  have hr := entriesOf_rewrite_isSome rules x
  have hrs := entriesOf_rewrite_subdomains rules x
  have ha : (entriesOf rules x).allow.isSome = hasType .allow (domainRules rules x) := by
    rw [entriesOf_allow, flagsOf_isSome]
  have has : (entriesOf rules x).allow.any (·.subdomains)
      = coversType .allow (domainRules rules x) := by
    rw [entriesOf_allow, flagsOf_subdomains]
  have hb : (entriesOf rules x).block.isSome = hasType .block (domainRules rules x) := by
    rw [entriesOf_block, flagsOf_isSome]
  have hbs : (entriesOf rules x).block.any (·.subdomains)
      = coversType .block (domainRules rules x) := by
    rw [entriesOf_block, flagsOf_subdomains]
  have hover := @entriesOf_overruled rules x
  have hcov := @hasType_of_coversType .allow (domainRules rules x)
  unfold NameEntries.nameVerdict NameEntries.wildcardVerdict NameEntries.allowStands
  unfold rulesVerdict wildcardVerdict allowStands
  rw [hr, hrs, ha, has, hb, hbs]
  cases hall : hasType .allow (domainRules rules x) with
  | true => simp [hover hall]
  | false =>
      have hno : coversType .allow (domainRules rules x) = false := by
        rw [hall] at hcov
        simpa using hcov
      simp [hno]

/-! ### What is left of a name -/

theorem NameEntries.Proper.allowLeft {e : NameEntries} (he : e.Proper) :
    e.allowLeft.isSome = e.allowStands
      ∧ e.allowLeft.any (·.subdomains) = decide (e.wildcardVerdict = some .unfiltered)
      ∧ (e.allowLeft.any (fun a => a.exact && !a.subdomains) = true →
          e.nameVerdict = some .unfiltered)
      ∧ (e.nameVerdict = some .unfiltered →
          e.allowLeft.any (fun a => a.exact && !a.subdomains) = true
            ∨ e.allowLeft.any (·.subdomains) = true) := by
  obtain ⟨r, a, b⟩ := e
  have hflag := he.allow
  clear he
  cases a with
  | none =>
      have hname : nameVerdict ⟨r, none, b⟩ ≠ some .unfiltered := by
        unfold nameVerdict
        split_ifs <;> simp_all
      have hwild : NameEntries.wildcardVerdict ⟨r, none, b⟩ ≠ some .unfiltered := by
        unfold NameEntries.wildcardVerdict
        split_ifs <;> simp_all
      simp [NameEntries.allowLeft, allowStands, hname, hwild]
  | some a =>
      replace hflag := hflag a rfl
      obtain ⟨ae, as, ap⟩ := a
      rcases r with _ | ⟨ra, raaaa, rs⟩
      · cases hover : NameEntries.overruled ⟨none, some ⟨ae, as, ap⟩, b⟩ <;>
          cases hb : b.any (·.subdomains) <;> cases ae <;> cases as <;>
          simp_all [NameEntries.allowLeft, allowStands, nameVerdict, NameEntries.wildcardVerdict]
      · cases hover : NameEntries.overruled ⟨some ⟨ra, raaaa, rs⟩, some ⟨ae, as, ap⟩, b⟩ <;>
          cases hb : b.any (·.subdomains) <;> cases rs <;> cases as <;>
          simp_all [NameEntries.allowLeft, allowStands, nameVerdict, NameEntries.wildcardVerdict]

/-! ## The compiled policy at a name -/

section

variable (table : List StoredRule)

/-- The resolved entries of the compiled set. -/
theorem active_at (x : Str) :
    (collectActive table).at x = (entriesOf (activeRules table) x).resolve :=
  resolveConflicts_collectRows_at (activeRules table) x

theorem entries_proper (x : Str) : (entriesOf (activeRules table) x).Proper :=
  entriesOf_proper (fun _ hr => activeRules_wellFormed hr) x

theorem lookup_rewrites (x : Str) : (collectActive table).rewrites.lookup x
    = (entriesOf (activeRules table) x).rewrite := by
  have := congrArg NameEntries.rewrite (active_at table x)
  rwa [NameEntries.resolve_eq] at this

theorem lookup_allows (x : Str) : (collectActive table).allows.lookup x
    = (entriesOf (activeRules table) x).allowLeft := by
  have := congrArg NameEntries.allow (active_at table x)
  rwa [NameEntries.resolve_eq] at this

/-- The rules of a name leave no allow that removes the external name `e`. -/
def survives (rules : List ParsedRule) (e : Str) : Bool :=
  !allowStands (domainRules rules e)
    && (e :: parents e).all fun n => wildcardVerdict (domainRules rules n) ≠ some .unfiltered

theorem survives_nil (e : Str) : survives [] e = true := by
  simp [survives, domainRules, allowStands, wildcardVerdict, coversType, hasType]

theorem allows_isSome (x : Str) : ((collectActive table).allows.lookup x).isSome
    = allowStands (domainRules (activeRules table) x) := by
  rw [lookup_allows, (entries_proper table x).allowLeft.1, (entriesOf_verdicts _ x).2.2]

theorem allows_subdomains (x : Str) : ((collectActive table).allows.lookup x).any (·.subdomains)
    = decide (wildcardVerdict (domainRules (activeRules table) x) = some .unfiltered) := by
  rw [lookup_allows, (entries_proper table x).allowLeft.2.1, (entriesOf_verdicts _ x).2.1]

theorem rewrites_subdomains (x : Str) :
    ((collectActive table).rewrites.lookup x).any (·.subdomains)
      = decide (wildcardVerdict (domainRules (activeRules table) x) = some .rewrite) := by
  rw [lookup_rewrites, entriesOf_rewrite_subdomains, wildcardVerdict]
  split_ifs with h1 <;> simp_all

/-- A dictionary has an entry with a property, at a name of a given kind. -/
theorem any_entries {β : Type} (d : Dict Str β) (p : Str → Bool) (f : β → Bool) :
    (d.entries.any fun e => f e.2 && p e.1) = true
      ↔ ∃ n, p n = true ∧ (d.lookup n).any f = true := by
  rw [List.any_eq_true]
  constructor
  · rintro ⟨⟨n, v⟩, hmem, hp⟩
    rw [Bool.and_eq_true] at hp
    exact ⟨n, hp.2, Option.any_eq_true _ _ |>.mpr ⟨v, AList.mem_lookup_iff.mpr hmem, hp.1⟩⟩
  · rintro ⟨n, hp, hf⟩
    obtain ⟨v, hv, hfv⟩ := Option.any_eq_true _ _ |>.mp hf
    exact ⟨⟨n, v⟩, AList.mem_lookup_iff.mp hv, by rw [hfv, hp]; rfl⟩

theorem inZone_iff {q z : Str} : inZone q z = true ↔ z ∈ q :: parents q := by
  rw [inZone, Bool.or_eq_true, decide_eq_true_eq, ← mem_parents_iff_endsWith, List.mem_cons,
    eq_comm]

/-- **The external names the allows leave.** -/
theorem mem_subtractAllowed (external : BlockSet) (x : Str) :
    x ∈ subtractAllowed external (collectActive table)
      ↔ x ∈ external ∧ survives (activeRules table) x = true := by
  have hany : ((collectActive table).allows.entries.any fun e => e.2.subdomains
      && (x = e.1 || endsWith x ('.' :: e.1))) = true ↔
      ∃ n ∈ x :: parents x, wildcardVerdict (domainRules (activeRules table) n)
        = some .unfiltered := by
    have := any_entries (collectActive table).allows (inZone x) (·.subdomains)
    simp only [allows_subdomains, decide_eq_true_eq, inZone_iff] at this
    exact this
  have hiff : isAllowed (collectActive table) x = false
      ↔ survives (activeRules table) x = true := by
    rw [isAllowed, Bool.or_eq_false_iff, allows_isSome, ← Bool.not_eq_true, ← Bool.not_eq_true,
      hany]
    simp [survives]
  change x ∈ Finset.filter _ _ ↔ _
  rw [Finset.mem_filter, hiff]
  rfl

/-! ### The zone -/

/-- The external name `x` is left in the merged set. -/
def stands (rules : List ParsedRule) (external : BlockSet) (x : Str) : Bool :=
  x ∈ external && survives rules x

/-- What the zone says at the owner `x`, given the rules and the external names. -/
def nameAnswer (rules : List ParsedRule) (external : BlockSet) (x : Str) : Option Outcome :=
  (rulesVerdict (domainRules rules x)).or (if stands rules external x then some .block else none)

/-- What it says at the owner `*.x`. -/
def wildcardAnswer (rules : List ParsedRule) (external : BlockSet) (x : Str) : Option Outcome :=
  (wildcardVerdict (domainRules rules x)).or
    (if stands rules external x then some .block else none)

theorem verdictOf_eq_none {rs : List Rdata} : verdictOf rs = none ↔ rs = [] := by
  unfold verdictOf
  split_ifs with h <;> simp [h]

/-- External records only stand at owners the custom rules left free. -/
theorem verdictOf_append {rs : List Rdata} {occupied : Bool} (p : Prop) [Decidable p]
    (h : occupied = (verdictOf rs).isSome) :
    verdictOf (rs ++ if p ∧ occupied = false then [.block] else [])
      = (verdictOf rs).or (if p then some .block else none) := by
  cases hv : verdictOf rs with
  | none =>
      rw [hv] at h
      rw [verdictOf_eq_none] at hv
      subst h hv
      by_cases hp : p <;> simp [hp]
  | some o =>
      rw [hv] at h
      subst h
      simp [hv]

theorem zone_name (external : BlockSet) (x : Str) :
    verdictOf (rdatasAt (renderRpz (subtractAllowed external (collectActive table))
      (collectActive table)) (.name x)) = nameAnswer (activeRules table) external x := by
  obtain ⟨hname, -, hocc, -⟩ := (entries_proper table x).records
  rw [(renderRpz_at _ _ x).1, active_at, verdictOf_append _ (hocc.trans (by rw [hname])), hname,
    (entriesOf_verdicts _ x).1]
  simp only [mem_subtractAllowed, nameAnswer, stands, Bool.and_eq_true, decide_eq_true_eq]

theorem zone_wildcard (external : BlockSet) (x : Str) :
    verdictOf (rdatasAt (renderRpz (subtractAllowed external (collectActive table))
      (collectActive table)) (.wildcard x)) = wildcardAnswer (activeRules table) external x := by
  obtain ⟨-, hwild, -, hocc⟩ := (entries_proper table x).records
  rw [(renderRpz_at _ _ x).2, active_at, verdictOf_append _ (hocc.trans (by rw [hwild])), hwild,
    (entriesOf_verdicts _ x).2.1]
  simp only [mem_subtractAllowed, wildcardAnswer, stands, Bool.and_eq_true, decide_eq_true_eq]

end

/-- The answer of the zone: at the name, else at the first wildcard above it. -/
def zoneAnswer (rules : List ParsedRule) (external : BlockSet) (q : Str) : Outcome :=
  ((nameAnswer rules external q).or
    ((parents q).findSome? (wildcardAnswer rules external))).getD .unfiltered

theorem hasOwner_eq (zone : List RpzLine) (o : Owner) :
    hasOwner zone o = (verdictOf (rdatasAt zone o)).isSome := by
  unfold hasOwner verdictOf
  split_ifs with h <;> simp [h]

theorem verdictOf_getD {rs : List Rdata} {o : Outcome} (h : verdictOf rs = some o) :
    Outcome.ofRdatas rs = o := by
  unfold verdictOf at h
  split_ifs at h
  exact Option.some.inj h

/-- **BIND's answer.** -/
theorem bindOutcome_spec (table : List StoredRule) (external : BlockSet) (q : Str) :
    bindOutcome (renderRpz (subtractAllowed external (collectActive table)) (collectActive table)) q
      = zoneAnswer (activeRules table) external q := by
  unfold bindOutcome zoneAnswer
  rw [bestOwner_spec, hasOwner_eq, zone_name]
  cases hname : nameAnswer (activeRules table) external q with
  | some o =>
      rw [Option.isSome_some, if_pos rfl, Option.some_or, Option.getD_some]
      exact verdictOf_getD ((zone_name table external q).trans hname)
  | none =>
      rw [Option.isSome_none, if_neg Bool.false_ne_true, Option.none_or, wildcardParent]
      simp only [hasOwner_eq, zone_wildcard]
      induction parents q with
      | nil => rfl
      | cons y l ih =>
          rw [List.find?_cons, List.findSome?_cons]
          cases hy : wildcardAnswer (activeRules table) external y with
          | some o => exact verdictOf_getD ((zone_wildcard table external y).trans hy)
          | none => exact ih

/-! ## The pass lists -/

/-- The query skips the regex rules. -/
def passes (rules : List ParsedRule) (q : Str) : Bool :=
  (q :: parents q).any (fun y => wildcardVerdict (domainRules rules y) = some .rewrite
      || wildcardVerdict (domainRules rules y) = some .unfiltered)
    || rulesVerdict (domainRules rules q) = some .rewrite
    || rulesVerdict (domainRules rules q) = some .unfiltered

theorem mem_namesWhere {β : Type} {d : Dict Str β} {p : β → Bool} {y : Str} :
    y ∈ namesWhere d p ↔ (d.lookup y).any p = true := by
  simp only [namesWhere, List.mem_toFinset, List.mem_map, List.mem_filter]
  constructor
  · rintro ⟨⟨n, v⟩, ⟨hmem, hp⟩, rfl⟩
    exact Option.any_eq_true _ _ |>.mpr ⟨v, AList.mem_lookup_iff.mpr hmem, hp⟩
  · intro h
    obtain ⟨v, hv, hp⟩ := Option.any_eq_true _ _ |>.mp h
    exact ⟨⟨y, v⟩, ⟨AList.mem_lookup_iff.mp hv, hp⟩, rfl⟩

theorem mem_passSuffixes (table : List StoredRule) (zones : List Str) (y : Str) :
    y ∈ passSuffixes (collectActive table) zones ↔ y ∈ zones
      ∨ wildcardVerdict (domainRules (activeRules table) y) = some .rewrite
      ∨ wildcardVerdict (domainRules (activeRules table) y) = some .unfiltered := by
  simp only [passSuffixes, Finset.mem_union, List.mem_toFinset, mem_namesWhere,
    allows_subdomains, rewrites_subdomains, decide_eq_true_eq]
  tauto

/-- The two kinds of entry on the exact list. -/
theorem passExact_iff (table : List StoredRule) (zones : List Str) (q : Str)
    (hq : q ∉ passSuffixes (collectActive table) zones) :
    q ∈ passExact (collectActive table) zones
      ↔ rulesVerdict (domainRules (activeRules table) q) = some .rewrite
        ∨ rulesVerdict (domainRules (activeRules table) q) = some .unfiltered := by
  obtain ⟨-, hsub, hexact, hor⟩ := (entries_proper table q).allowLeft
  have hverdict := (entriesOf_verdicts (activeRules table) q).1
  rw [mem_passSuffixes, not_or, not_or, ← (entriesOf_verdicts _ q).2.1] at hq
  rw [passExact, Finset.mem_sdiff, Finset.mem_union, mem_namesWhere, mem_namesWhere, lookup_allows,
    lookup_rewrites, mem_passSuffixes, ← hverdict, ← (entriesOf_verdicts _ q).2.1]
  generalize entriesOf (activeRules table) q = e at hsub hexact hor hq
  have hrewrite : e.nameVerdict = some .rewrite ↔ e.rewrite.isSome = true := by
    unfold NameEntries.nameVerdict
    cases e.rewrite with
    | some _ => simp
    | none => simp only [Option.isSome_none, Bool.false_eq_true, if_false]; split_ifs <;> simp
  have hrsub : e.rewrite.any (!·.subdomains) = true ↔ e.rewrite.isSome = true := by
    have := hq.2.1
    unfold NameEntries.wildcardVerdict at this
    cases hr : e.rewrite with
    | none => simp
    | some r => cases hs : r.subdomains <;> simp_all
  have hasub : e.allowLeft.any (·.subdomains) ≠ true := by simp [hsub, hq.2.2]
  rw [hrewrite, hrsub]
  constructor
  · rintro ⟨h | h, -⟩
    · exact Or.inr (hexact h)
    · exact Or.inl h
  · rintro (h | h)
    · exact ⟨Or.inr h, by simp [hq]⟩
    · exact ⟨Or.inl ((hor h).resolve_right hasub), by simp [hq]⟩

theorem wildcardVerdict_ne_nil {rules : List ParsedRule}
    (hwf : ∀ r ∈ rules, r.wellFormed = true ∧ r.validationState = .valid) {y : Str} {o : Outcome}
    (h : wildcardVerdict (domainRules rules y) = some o) : y ≠ [] := by
  have hmem : domainRules rules y ≠ [] := by
    intro hnil
    rw [hnil] at h
    cases h
  obtain ⟨r, hr⟩ := List.exists_mem_of_ne_nil _ hmem
  rw [mem_domainRules] at hr
  obtain ⟨d, hd, hm⟩ := ParsedRule.domain_matches (hwf r hr.1).1 (hwf r hr.1).2 hr.2.1
  rw [hr.2.2] at hd
  cases hd
  exact matchesDomainRe_ne_nil hm

/-- The four files of a compilation that succeeds. -/
theorem renderDnsdistData_eq_some {active : ActiveRuleSet} {zones : List Str} {data : DnsdistData}
    (h : renderDnsdistData active zones = some data) :
    dataText (sortedSet (passSuffixes active zones)) = some data.passSuffixes
      ∧ dataText (sortedSet (passExact active zones)) = some data.passExact
      ∧ dataText (active.regexAllow.map deployedPattern) = some data.regexAllow
      ∧ dataText (active.regexBlock.map deployedPattern) = some data.regexBlock := by
  simp only [renderDnsdistData, Option.bind_eq_bind, Option.bind_eq_some_iff, Option.pure_def,
    Option.some.injEq] at h
  obtain ⟨s, hs, e, he, a, ha, b, hb, rfl⟩ := h
  exact ⟨hs, he, ha, hb⟩

/-- **The pass lists**, for a name outside the local zones. -/
theorem pass_iff {table : List StoredRule} {zones : List Str} {data : DnsdistData}
    (h : renderDnsdistData (collectActive table) zones = some data) {q : Str} (hne : q ≠ [])
    (hz : ∀ z ∈ zones, inZone q z = false) :
    ((luaLines data.passSuffixes).any (inZone q) || decide (q ∈ luaLines data.passExact))
      = passes (activeRules table) q := by
  obtain ⟨hs, he, -, -⟩ := renderDnsdistData_eq_some h
  rw [luaLines_dataText hs, luaLines_dataText he]
  have hwf : ∀ r ∈ activeRules table, r.wellFormed = true ∧ r.validationState = .valid :=
    fun r hr => activeRules_wellFormed hr
  have hsuffix : ((sortedSet (passSuffixes (collectActive table) zones)).filter (· ≠ [])).any
      (inZone q) = true ↔ ∃ y ∈ q :: parents q,
        wildcardVerdict (domainRules (activeRules table) y) = some .rewrite
          ∨ wildcardVerdict (domainRules (activeRules table) y) = some .unfiltered := by
    simp only [List.any_eq_true, List.mem_filter, mem_sortedSet, mem_passSuffixes, inZone_iff,
      decide_eq_true_eq]
    constructor
    · rintro ⟨y, ⟨hy | hy, -⟩, hq⟩
      · exact absurd (inZone_iff.mpr hq) (by rw [hz y hy]; decide)
      · exact ⟨y, hq, hy⟩
    · rintro ⟨y, hq, hy⟩
      refine ⟨y, ⟨Or.inr hy, ?_⟩, hq⟩
      rcases hy with hy | hy <;> exact wildcardVerdict_ne_nil hwf hy
  have hself : q ∈ passSuffixes (collectActive table) zones →
      ∃ y ∈ q :: parents q, wildcardVerdict (domainRules (activeRules table) y) = some .rewrite
          ∨ wildcardVerdict (domainRules (activeRules table) y) = some .unfiltered := by
    rw [mem_passSuffixes]
    rintro (hq | hq)
    · exact absurd (inZone_iff.mpr List.mem_cons_self) (by rw [hz q hq]; decide)
    · exact ⟨q, List.mem_cons_self, hq⟩
  rw [Bool.eq_iff_iff]
  simp only [passes, Bool.or_eq_true, hsuffix, decide_eq_true_eq, List.mem_filter, mem_sortedSet,
    List.any_eq_true]
  by_cases hq : q ∈ passSuffixes (collectActive table) zones
  · exact ⟨fun _ => Or.inl (Or.inl (hself hq)), fun _ => Or.inl (hself hq)⟩
  · rw [passExact_iff table zones q hq]
    simp only [ne_eq, hne, not_false_eq_true, and_true, or_assoc]

theorem deployedPattern_ne_nil {p : Str} (h : p ≠ []) : deployedPattern p ≠ [] := by
  unfold deployedPattern
  dsimp only
  split_ifs <;> simp [h]

theorem regexLines_any {pats : List Str} {text : Str} {t : RuleType} {rules : List ParsedRule}
    (h : dataText (pats.map deployedPattern) = some text)
    (hmem : ∀ p, p ∈ pats ↔ ∃ r ∈ rules, r.ruleType = t ∧ r.pattern = some p)
    (hne : ∀ p ∈ pats, p ≠ []) (rx : Str → Str → Bool) (q : Str) :
    (luaLines text).any (rx · q) = regexHit rx t rules q := by
  rw [luaLines_dataText h, Bool.eq_iff_iff]
  simp only [regexHit, List.any_eq_true, List.mem_filter, List.mem_map, decide_eq_true_eq,
    Bool.and_eq_true, Option.any_eq_true, regexMatches]
  constructor
  · rintro ⟨_, ⟨⟨p, hp, rfl⟩, -⟩, hrx⟩
    obtain ⟨r, hr, ht, hpat⟩ := (hmem p).mp hp
    exact ⟨r, hr, ht, p, hpat, hrx⟩
  · rintro ⟨r, hr, ht, p, hpat, hrx⟩
    have hp := (hmem p).mpr ⟨r, hr, ht, hpat⟩
    exact ⟨_, ⟨⟨p, hp, rfl⟩, deployedPattern_ne_nil (hne p hp)⟩, hrx⟩

theorem regex_iff {table : List StoredRule} {zones : List Str} {data : DnsdistData}
    (h : renderDnsdistData (collectActive table) zones = some data) (rx : Str → Str → Bool)
    (q : Str) :
    (luaLines data.regexAllow).any (rx · q) = regexHit rx .regexAllow (activeRules table) q
      ∧ (luaLines data.regexBlock).any (rx · q) = regexHit rx .regexBlock (activeRules table) q := by
  obtain ⟨-, -, ha, hb⟩ := renderDnsdistData_eq_some h
  have hne : ∀ {t : RuleType}, (t = .regexBlock ∨ t = .regexAllow) →
      ∀ p, (∃ r ∈ activeRules table, r.ruleType = t ∧ r.pattern = some p) → p ≠ [] := by
    rintro t ht p ⟨r, hr, rfl, hp⟩
    obtain ⟨hwf, hv⟩ := activeRules_wellFormed hr
    obtain ⟨p', hp', hne⟩ := ParsedRule.pattern_ne_nil hwf hv ht
    rw [hp] at hp'
    cases hp'
    exact hne
  constructor
  · exact regexLines_any ha (fun _ => mem_regexAllow)
      (fun p hp => hne (Or.inr rfl) p (mem_regexAllow.mp hp)) rx q
  · exact regexLines_any hb (fun _ => mem_regexBlock)
      (fun p hp => hne (Or.inl rfl) p (mem_regexBlock.mp hp)) rx q

/-- **The answer of the compiled policy** outside the local zones. -/
theorem compiledOutcome_spec {table : List StoredRule} {external : BlockSet} {zones : List Str}
    {policy : CompiledPolicy} (h : compilePolicy table external zones = some policy)
    (rx : Str → Str → Bool) {q : Str} (hne : q ≠ []) (hz : ∀ z ∈ zones, inZone q z = false) :
    compiledOutcome rx policy q =
      if regexHit rx .regexBlock (activeRules table) q
          && !regexHit rx .regexAllow (activeRules table) q && !passes (activeRules table) q
      then .block else zoneAnswer (activeRules table) external q := by
  obtain ⟨data, hdata, rfl⟩ := Option.map_eq_some_iff.mp h
  have hpass := pass_iff hdata hne hz
  obtain ⟨hallow, hblock⟩ := regex_iff hdata rx q
  simp only [compiledOutcome, hallow, hblock, bindOutcome_spec]
  rw [← hpass]
  cases (luaLines data.passSuffixes).any (inZone q) <;>
    by_cases he : q ∈ luaLines data.passExact <;>
    cases regexHit rx .regexAllow (activeRules table) q <;>
    cases regexHit rx .regexBlock (activeRules table) q <;> simp [he]

end AlderpointDNS
