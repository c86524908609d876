import AlderpointDNS.CustomRules.Precedence

/-!
# The zone file as a master file

What a name server asks of the text of `render_rpz` before it looks at the policy: a name with a
CNAME has nothing else, no line is repeated, and every owner is a legal name once it is completed
with the zone's origin.

* **`zoneConsistent`** — the first two always hold.
* **`owners_legal_iff`** — the names for which the third holds.  `normalize_domain` allows 253
  characters, and the origin and the `*.` of a wildcard come on top of them.
* `long_name_illegal` — a name that is accepted and too long for the zone.
-/

namespace AlderpointDNS

open Text

/-! ## Lines -/

/-- `f"{owner} {rdata}"`. -/
def RpzLine.text (l : RpzLine) : Str := l.owner.text ++ ' ' :: l.rdata.text

/-- The lines before the policy. -/
def rpzHeader (serial : ℕ) : List Str :=
  ["$TTL 2h".toList,
    "@ IN SOA localhost. hostmaster.localhost. ".toList ++ Nat.toDigits 10 serial
      ++ " 1h 15m 30d 2h".toList,
    "@ IN NS localhost.".toList,
    []]

/-- The text that `render_rpz` returns at second `serial`. -/
def renderRpzText (serial : ℕ) (domains : BlockSet) (active : ActiveRuleSet) : Str :=
  join ['\n'] (rpzHeader serial ++ (renderRpz domains active).map RpzLine.text) ++ ['\n']

/-- The record data of the policy lines that start with `owner`. -/
def rdatasOf (zone : List RpzLine) (owner : Str) : List Rdata :=
  (zone.filter (·.owner.text = owner)).map (·.rdata)

def Rdata.isCname : Rdata → Bool
  | .block | .passthru => true
  | .a _ | .aaaa _ => false

def Rdata.isA : Rdata → Bool
  | .a _ => true
  | _ => false

def Rdata.isAaaa : Rdata → Bool
  | .aaaa _ => true
  | _ => false

/-- One CNAME and nothing else, or at most one A and at most one AAAA. -/
def goTogether (rs : List Rdata) : Bool :=
  (rs.length = 1 && rs.all (·.isCname))
    || (rs.all (·.isAddress) && rs.countP (·.isA) ≤ 1 && rs.countP (·.isAaaa) ≤ 1)

/-- No conflicting owners: the records of each name go together, none stands at the apex, where
the SOA and NS records are, and no line is repeated. -/
structure ZoneConsistent (zone : List RpzLine) : Prop where
  owners : ∀ owner, goTogether (rdatasOf zone owner) = true
  apex : rdatasOf zone ['@'] = []
  lines : (zone.map RpzLine.text).Nodup

/-! ## The records of one name -/

theorem RewriteEntry.goTogether_rdatas (e : RewriteEntry) : goTogether e.rdatas = true := by
  unfold RewriteEntry.rdatas
  cases e.a.filter (· ≠ []) <;> cases e.aaaa.filter (· ≠ []) <;> rfl

theorem RewriteEntry.nodup_rdatas (e : RewriteEntry) : e.rdatas.Nodup := by
  unfold RewriteEntry.rdatas
  cases e.a.filter (· ≠ []) <;> cases e.aaaa.filter (· ≠ []) <;> simp

/-- The records of an owner go together, and an owner that is still free has none. -/
structure Tidy (rs : List Rdata) (occupied : Bool) : Prop where
  together : goTogether rs = true
  nodup : rs.Nodup
  free : occupied = false → rs = []

theorem Tidy.free' : Tidy [] false := ⟨rfl, List.nodup_nil, fun _ => rfl⟩

theorem Tidy.rewrite {rs : List Rdata} (h : Tidy rs false) (e : RewriteEntry) :
    Tidy (rs ++ e.rdatas) true := by
  rw [h.free rfl, List.nil_append]
  exact ⟨e.goTogether_rdatas, e.nodup_rdatas, fun h => by cases h⟩

/-- One claim of a CNAME. -/
theorem Tidy.claim {rs : List Rdata} {occupied : Bool} (h : Tidy rs occupied) {r : Rdata}
    (hr : r.isCname = true) :
    Tidy (if occupied then rs else rs ++ [r]) true := by
  cases occupied with
  | true => exact ⟨h.together, h.nodup, fun h => by cases h⟩
  | false =>
      rw [h.free rfl]
      refine ⟨?_, List.nodup_singleton r, fun h => by cases h⟩
      simp [goTogether, hr]

/-- Both owners of a name. -/
def NameRecords.Tidy (v : NameRecords) : Prop :=
  AlderpointDNS.Tidy v.name v.nameOccupied ∧ AlderpointDNS.Tidy v.wildcard v.wildcardOccupied

theorem NameRecords.Tidy.claimName {v : NameRecords} (h : v.Tidy) {r : Rdata}
    (hr : r.isCname = true) : (v.claimName r).Tidy := by
  have hclaim := h.1.claim hr
  unfold NameRecords.claimName
  cases hocc : v.nameOccupied with
  | true => simpa [hocc] using h
  | false =>
      rw [hocc] at hclaim
      exact ⟨hclaim, h.2⟩

theorem NameRecords.Tidy.claimWildcard {v : NameRecords} (h : v.Tidy) {r : Rdata}
    (hr : r.isCname = true) : (v.claimWildcard r).Tidy := by
  have hclaim := h.2.claim hr
  unfold NameRecords.claimWildcard
  cases hocc : v.wildcardOccupied with
  | true => simpa [hocc] using h
  | false =>
      rw [hocc] at hclaim
      exact ⟨h.1, hclaim⟩

/-- The first loop starts from a name without records. -/
theorem NameRecords.tidy_emitRewrite (e : Option RewriteEntry) :
    (NameRecords.emitRewrite e {}).Tidy := by
  cases e with
  | none => exact ⟨Tidy.free', Tidy.free'⟩
  | some e =>
      have hrewrite := Tidy.free'.rewrite e
      unfold NameRecords.emitRewrite
      dsimp only
      split_ifs
      · exact ⟨hrewrite, hrewrite⟩
      · exact ⟨hrewrite, Tidy.free'⟩

theorem NameRecords.Tidy.emitAllow {v : NameRecords} (h : v.Tidy) (e : Option FlagEntry) :
    (v.emitAllow e).Tidy := by
  cases e with
  | none => exact h
  | some allow =>
      have hname : (if allow.exact || allow.subdomains then v.claimName .passthru else v).Tidy := by
        split_ifs
        · exact h.claimName rfl
        · exact h
      unfold NameRecords.emitAllow
      by_cases hs : allow.subdomains = true
      · simp only [hs, if_true] at hname ⊢
        exact hname.claimWildcard rfl
      · simp only [hs] at hname ⊢
        exact hname

theorem NameRecords.Tidy.emitBlock {v : NameRecords} (h : v.Tidy) (e : Option FlagEntry) :
    (v.emitBlock e).Tidy := by
  cases e with
  | none => exact h
  | some block =>
      have hname : (if block.exact then v.claimName .block else v).Tidy := by
        split_ifs
        · exact h.claimName rfl
        · exact h
      unfold NameRecords.emitBlock
      by_cases hs : block.subdomains = true
      · simp only [hs, if_true]
        exact (hname.claimName rfl).claimWildcard rfl
      · simp only [hs]
        exact hname

theorem NameEntries.tidy_records (e : NameEntries) : e.records.Tidy :=
  ((NameRecords.tidy_emitRewrite e.rewrite).emitAllow e.allow).emitBlock e.block

/-- An external record is added where the owner is still free. -/
theorem Tidy.external {rs : List Rdata} {occupied : Bool} (h : Tidy rs occupied) (p : Prop)
    [Decidable p] : Tidy (rs ++ if p ∧ occupied = false then [.block] else []) true := by
  split_ifs with hfree
  · rw [h.free hfree.2]
    exact ⟨rfl, List.nodup_singleton _, fun h => by cases h⟩
  · rw [List.append_nil]
    exact ⟨h.together, h.nodup, fun h => by cases h⟩

/-- The records at an owner of the zone. -/
theorem tidy_rdatasAt (domains : BlockSet) (active : ActiveRuleSet) (o : Owner) :
    Tidy (rdatasAt (renderRpz domains active) o) true := by
  cases o with
  | name x =>
      rw [(renderRpz_at domains active x).1]
      exact (active.at x).tidy_records.1.external _
  | wildcard x =>
      rw [(renderRpz_at domains active x).2]
      exact (active.at x).tidy_records.2.external _

/-! ## The owners of the zone -/

/-- The name of `name` and of `*.name`. -/
def Owner.domain : Owner → Str
  | .name d => d
  | .wildcard d => d

section

variable (table : List StoredRule) (domains : BlockSet)

/-- A name stands in the zone if it is external or has a rule. -/
theorem name_emitted_iff (x : Str) :
    rdatasAt (renderRpz domains (collectActive table)) (.name x) ≠ []
      ↔ x ∈ domains ∨ domainRules (activeRules table) x ≠ [] := by
  obtain ⟨hname, -, hocc, -⟩ := (entries_proper table x).records
  have hverdict := (entriesOf_verdicts (activeRules table) x).1
  have hdomain : ∀ r ∈ domainRules (activeRules table) x, r.ruleType.isDomainType = true :=
    fun r hr => (mem_domainRules.mp hr).2.1
  rw [(renderRpz_at _ _ x).1, active_at, hocc, hverdict, Ne, List.append_eq_nil_iff,
    ← verdictOf_eq_none, hname, hverdict, rulesVerdict_eq_none hdomain]
  cases hv : rulesVerdict (domainRules (activeRules table) x) with
  | some o =>
      have hne : domainRules (activeRules table) x ≠ [] := by
        intro h
        rw [(rulesVerdict_eq_none hdomain).mpr h] at hv
        cases hv
      simp [hne]
  | none =>
      have hnil := (rulesVerdict_eq_none hdomain).mp hv
      simp [hnil]

/-- Its wildcard stands there if it is external or its rules say something about subdomains. -/
theorem wildcard_emitted_iff (x : Str) :
    rdatasAt (renderRpz domains (collectActive table)) (.wildcard x) ≠ []
      ↔ x ∈ domains ∨ wildcardVerdict (domainRules (activeRules table) x) ≠ none := by
  obtain ⟨-, hwild, -, hocc⟩ := (entries_proper table x).records
  have hverdict := (entriesOf_verdicts (activeRules table) x).2.1
  rw [(renderRpz_at _ _ x).2, active_at, hocc, hverdict, Ne, List.append_eq_nil_iff,
    ← verdictOf_eq_none, hwild, hverdict]
  cases wildcardVerdict (domainRules (activeRules table) x) <;> simp

/-- A name with a rule or in the external set passed `normalize_domain`. -/
theorem emitted_matches {x : Str} (h : x ∈ domains ∨ domainRules (activeRules table) x ≠ []) :
    matchesDomainRe x = true := by
  rcases h with h | h
  · exact domains.normalized x h
  · obtain ⟨r, hr⟩ := List.exists_mem_of_ne_nil _ h
    obtain ⟨hactive, htype, hx⟩ := mem_domainRules.mp hr
    obtain ⟨hwf, hvalid⟩ := activeRules_wellFormed hactive
    obtain ⟨d, hd, hmatch⟩ := ParsedRule.domain_matches hwf hvalid htype
    cases hx.symm.trans hd
    exact hmatch

theorem rdatasAt_owner_ne_nil {zone : List RpzLine} {l : RpzLine} (hl : l ∈ zone) :
    rdatasAt zone l.owner ≠ [] :=
  List.ne_nil_of_mem (List.mem_map_of_mem (f := RpzLine.rdata)
    (List.mem_filter.mpr ⟨hl, decide_eq_true rfl⟩))

theorem exists_line {zone : List RpzLine} {o : Owner} (h : rdatasAt zone o ≠ []) :
    ∃ l ∈ zone, l.owner = o := by
  obtain ⟨r, hr⟩ := List.exists_mem_of_ne_nil _ h
  obtain ⟨l, hl, -⟩ := List.mem_map.mp hr
  exact ⟨l, (List.mem_filter.mp hl).1, of_decide_eq_true (List.mem_filter.mp hl).2⟩

/-- Every owner is a domain name or the wildcard of one. -/
theorem owner_matches {l : RpzLine} (hl : l ∈ renderRpz domains (collectActive table)) :
    matchesDomainRe l.owner.domain = true := by
  have hne := rdatasAt_owner_ne_nil hl
  cases hl' : l.owner with
  | name x =>
      rw [hl'] at hne
      exact emitted_matches table domains ((name_emitted_iff table domains x).mp hne)
  | wildcard x =>
      rw [hl'] at hne
      have hrules : wildcardVerdict (domainRules (activeRules table) x) ≠ none →
          domainRules (activeRules table) x ≠ [] := by
        intro h hnil
        exact h (by rw [hnil]; rfl)
      exact emitted_matches table domains
        (((wildcard_emitted_iff table domains x).mp hne).imp_right hrules)

/-- Owners of the zone are told apart by their text. -/
theorem owner_text_inj {l m : RpzLine} (hl : l ∈ renderRpz domains (collectActive table))
    (hm : m ∈ renderRpz domains (collectActive table)) (h : l.owner.text = m.owner.text) :
    l.owner = m.owner := by
  have hl' := owner_matches table domains hl
  have hm' := owner_matches table domains hm
  cases hlo : l.owner with
  | name d =>
      rw [hlo] at h hl'
      cases hmo : m.owner with
      | name e =>
          rw [hmo] at h
          exact congrArg Owner.name h
      | wildcard e =>
          rw [hmo] at h
          exact absurd h (Owner.text_injective hl').1
  | wildcard d =>
      rw [hlo] at h hl'
      cases hmo : m.owner with
      | name e =>
          rw [hmo] at h hm'
          exact absurd h.symm (Owner.text_injective hm').1
      | wildcard e =>
          rw [hmo] at h
          exact congrArg Owner.wildcard ((Owner.text_injective hl').2 h)

/-- The lines that start with the text of an owner are its records. -/
theorem rdatasOf_eq {l : RpzLine} (hl : l ∈ renderRpz domains (collectActive table)) :
    rdatasOf (renderRpz domains (collectActive table)) l.owner.text
      = rdatasAt (renderRpz domains (collectActive table)) l.owner := by
  unfold rdatasOf rdatasAt
  congr 1
  refine List.filter_congr fun m hm => decide_eq_decide.mpr ⟨fun h => ?_, fun h => by rw [h]⟩
  exact owner_text_inj table domains hm hl h

end

/-! ## No conflicting owners -/

/-- The first two characters of record data. -/
def Rdata.tag : Rdata → Str
  | .block | .passthru => ['C', 'N']
  | .a _ => ['A', ' ']
  | .aaaa _ => ['A', 'A']

theorem Rdata.take_text (r : Rdata) : r.text.take 2 = r.tag := by cases r <;> rfl

theorem Rdata.text_injective : Function.Injective Rdata.text := by
  intro r s h
  have htag : r.tag = s.tag := by rw [← take_text, ← take_text, h]
  cases r with
  | block =>
      cases s with
      | block => rfl
      | passthru => exact absurd h (by decide)
      | a addr | aaaa addr => exact absurd htag (by simp [tag])
  | passthru =>
      cases s with
      | block => exact absurd h (by decide)
      | passthru => rfl
      | a addr | aaaa addr => exact absurd htag (by simp [tag])
  | a addr =>
      cases s with
      | a addr' => exact congrArg Rdata.a (List.append_cancel_left h)
      | block | passthru | aaaa addr' => exact absurd htag (by simp [tag])
  | aaaa addr =>
      cases s with
      | aaaa addr' => exact congrArg Rdata.aaaa (List.append_cancel_left h)
      | block | passthru | a addr' => exact absurd htag (by simp [tag])

/-- No owner has a blank, so a line determines its owner and its record data. -/
theorem RpzLine.text_inj {l m : RpzLine} (hl : matchesDomainRe l.owner.domain = true)
    (hm : matchesDomainRe m.owner.domain = true) (h : l.text = m.text) :
    l.owner.text = m.owner.text ∧ l.rdata = m.rdata := by
  have hblank : ∀ o : Owner, matchesDomainRe o.domain = true → ' ' ∉ o.text := by
    intro o ho hmem
    have hdomain : ' ' ∉ o.domain := fun hc => absurd (isDomainChar_of_mem ho hc) (by decide)
    cases o with
    | name d => exact hdomain hmem
    | wildcard d =>
        rcases List.mem_append.mp hmem with hstar | hd
        · revert hstar
          decide
        · exact hdomain hd
  obtain ⟨howner, hrdata⟩ := append_cons_inj (hblank _ hl) (hblank _ hm) h
  exact ⟨howner, Rdata.text_injective hrdata⟩

/-- **No owner of the zone has conflicting records**, none of them is the apex, and no line is
repeated. -/
theorem zoneConsistent (table : List StoredRule) (domains : BlockSet) :
    ZoneConsistent (renderRpz domains (collectActive table)) where
  owners := by
    intro owner
    by_cases hnil : (renderRpz domains (collectActive table)).filter (·.owner.text = owner) = []
    · rw [rdatasOf, hnil]
      rfl
    · obtain ⟨l, hl⟩ := List.exists_mem_of_ne_nil _ hnil
      obtain ⟨hmem, howner⟩ := List.mem_filter.mp hl
      rw [← of_decide_eq_true howner, rdatasOf_eq table domains hmem]
      exact (tidy_rdatasAt domains _ _).together
  apex := by
    rw [rdatasOf, List.map_eq_nil_iff, List.filter_eq_nil_iff]
    intro l hl hat
    have hmatch := owner_matches table domains hl
    have htext : l.owner.text = ['@'] := of_decide_eq_true hat
    cases ho : l.owner with
    | name d =>
        rw [ho] at hmatch htext
        have hd : d = ['@'] := htext
        rw [Owner.domain, hd] at hmatch
        exact absurd hmatch (by decide)
    | wildcard d =>
        rw [ho] at htext
        cases htext
  lines := by
    have hnodup : (renderRpz domains (collectActive table)).Nodup := by
      rw [List.nodup_iff_count_le_one]
      intro l
      have hcount := List.nodup_iff_count_le_one.mp
        (tidy_rdatasAt domains (collectActive table) l.owner).nodup l.rdata
      have hat : (renderRpz domains (collectActive table)).count l
          = ((renderRpz domains (collectActive table)).filter (·.owner = l.owner)).count l :=
        (List.count_filter (p := fun m : RpzLine => m.owner = l.owner) (decide_eq_true rfl)).symm
      rw [hat]
      exact le_trans List.count_le_count_map hcount
    refine hnodup.map_on fun l hl m hm h => ?_
    obtain ⟨howner, hrdata⟩ := RpzLine.text_inj (owner_matches table domains hl)
      (owner_matches table domains hm) h
    have heq := owner_text_inj table domains hl hm howner
    obtain ⟨lo, lr⟩ := l
    obtain ⟨mo, mr⟩ := m
    exact congrArg₂ RpzLine.mk heq hrdata

/-! ## Legal owners -/

/-- `RPZ_ZONE`. -/
def rpzZone : Str := "alderpointdns.rpz".toList

/-- An owner completed with the origin of the zone. -/
def Owner.absolute (o : Owner) : Str := o.text ++ '.' :: rpzZone

/-- Labels of 1 to 63 characters, at most 253 characters in all. -/
def isLegalName (name : Str) : Bool :=
  name.length ≤ 253 && (split '.' name).all fun w => w ≠ [] && w.length ≤ 63

theorem labels_legal {d : Str} (h : matchesDomainRe d = true) :
    ∀ w ∈ split '.' d, w ≠ [] ∧ w.length ≤ 63 := by
  intro w hw
  simp only [matchesDomainRe, Bool.and_eq_true, List.all_eq_true] at h
  have hlabel := h.1.2 w hw
  simp only [isLabel, Bool.and_eq_true, decide_eq_true_eq] at hlabel
  exact ⟨hlabel.1.1.1.1, hlabel.1.1.1.2⟩

/-- Only the length can be wrong. -/
theorem isLegalName_absolute {o : Owner} (h : matchesDomainRe o.domain = true) :
    isLegalName o.absolute = true ↔ o.text.length ≤ 235 := by
  have hlength : o.absolute.length = o.text.length + 18 := by
    rw [Owner.absolute, List.length_append]
    rfl
  have htext : ∀ w ∈ split '.' o.text, w ≠ [] ∧ w.length ≤ 63 := by
    cases o with
    | name d => exact labels_legal h
    | wildcard d =>
        have hsplit : split '.' (Owner.wildcard d).text = ['*'] :: split '.' d :=
          split_append_sep '.' ['*'] d
        rw [hsplit]
        intro w hw
        rcases List.mem_cons.mp hw with rfl | hw
        · decide
        · exact labels_legal h w hw
  have hlabels : ∀ w ∈ split '.' o.absolute, w ≠ [] ∧ w.length ≤ 63 := by
    rw [Owner.absolute, split_append_sep]
    intro w hw
    rcases List.mem_append.mp hw with hw | hw
    · exact htext w hw
    · exact labels_legal (d := rpzZone) (by decide +kernel) w hw
  rw [isLegalName, hlength, Bool.and_eq_true, decide_eq_true_eq]
  constructor
  · rintro ⟨hle, -⟩
    omega
  · intro hle
    refine ⟨by omega, List.all_eq_true.mpr fun w hw => ?_⟩
    simpa using hlabels w hw

/-- **The owners are legal names** exactly when every name leaves room for the origin, and for the
`*.` where it has a wildcard. -/
theorem owners_legal_iff (table : List StoredRule) (domains : BlockSet) :
    (∀ l ∈ renderRpz domains (collectActive table), isLegalName l.owner.absolute = true) ↔
      (∀ d ∈ domains, d.length ≤ 233) ∧
      ∀ x, (domainRules (activeRules table) x ≠ [] → x.length ≤ 235) ∧
        (wildcardVerdict (domainRules (activeRules table) x) ≠ none → x.length ≤ 233) := by
  have hlegal : (∀ l ∈ renderRpz domains (collectActive table),
      isLegalName l.owner.absolute = true) ↔
      ∀ o, rdatasAt (renderRpz domains (collectActive table)) o ≠ [] → o.text.length ≤ 235 := by
    constructor
    · intro h o ho
      obtain ⟨l, hl, rfl⟩ := exists_line ho
      exact (isLegalName_absolute (owner_matches table domains hl)).mp (h l hl)
    · intro h l hl
      exact (isLegalName_absolute (owner_matches table domains hl)).mpr
        (h l.owner (rdatasAt_owner_ne_nil hl))
  have hwild : ∀ x : Str, (Owner.wildcard x).text.length = x.length + 2 := fun x => by
    simp [Owner.text]
  rw [hlegal]
  constructor
  · intro h
    have hname := fun x => (name_emitted_iff table domains x).mpr
    have hwildcard := fun x => (wildcard_emitted_iff table domains x).mpr
    refine ⟨fun d hd => ?_, fun x => ⟨fun hx => h _ (hname x (Or.inr hx)), fun hx => ?_⟩⟩
    · have := h _ (hwildcard d (Or.inl hd))
      rw [hwild] at this
      omega
    · have := h _ (hwildcard x (Or.inr hx))
      rw [hwild] at this
      omega
  · rintro ⟨hexternal, hrules⟩ o ho
    cases o with
    | name x =>
        rcases (name_emitted_iff table domains x).mp ho with hx | hx
        · exact (hexternal x hx).trans (by omega)
        · exact (hrules x).1 hx
    | wildcard x =>
        rw [hwild]
        rcases (wildcard_emitted_iff table domains x).mp ho with hx | hx
        · exact Nat.add_le_add_right (hexternal x hx) 2
        · exact Nat.add_le_add_right ((hrules x).2 hx) 2

/-- Four labels, 236 characters. -/
def longName : Str :=
  List.replicate 63 'a' ++ '.' :: (List.replicate 63 'a' ++ '.' :: (List.replicate 63 'a' ++
    '.' :: List.replicate 44 'a'))

/-- `normalize_domain` accepts the name, and the zone's owner for it is too long. -/
theorem long_name_illegal : normalizeDomain asciiData longName = some longName ∧
    ∃ domains : BlockSet, longName ∈ domains ∧
      ¬ ∀ l ∈ renderRpz domains (collectActive []), isLegalName l.owner.absolute = true := by
  have hmatch : matchesDomainRe longName = true := by decide +kernel
  let domains : BlockSet := ⟨{longName}, fun d hd => by rw [Finset.mem_singleton.mp hd, hmatch]⟩
  have hmem : longName ∈ domains := Finset.mem_singleton_self longName
  refine ⟨by decide +kernel, domains, hmem, fun h => ?_⟩
  obtain ⟨l, hl, howner⟩ := exists_line ((name_emitted_iff [] domains longName).mpr (Or.inl hmem))
  have hlegal := h l hl
  rw [isLegalName_absolute (owner_matches [] domains hl), howner] at hlegal
  exact absurd hlegal (by decide +kernel)

end AlderpointDNS
