import AlderpointDNS.CustomRules.ActiveRules
import Mathlib.Data.Char
import Mathlib.Data.List.Lex

/-!
# The compiled policy: zone lines and dnsdist data files

* `rpzRecords` is `rpz_records`, three loops over sorted dictionary keys that skip owners
  already occupied; `renderRpz` appends the external block set.
* `subtractAllowed` is `subtract_allowed`.
* `rpzStatus` is `_rpz_status`, the lookup in the compiled zone.
* `renderDnsdistData` writes the four data files; `luaLines` is how the Lua include reads one.

A zone line is an owner and its record data, both still in the form the program prints
(`Owner.text`, `Rdata.text`).  The header lines, which every reader skips, are left out.

The main results say what the zone holds at a name:

* **`renderRpz_at`** — the records at `x` and at `*.x` depend on the entries of `x` alone and on
  whether `x` is in the external set;
* `bestOwner_spec` — the `best` tuple of `_rpz_status` is the name itself, else the first parent
  with a wildcard;
* `luaLines_dataText` — a data file read back line by line is the list it was written from.
-/

namespace AlderpointDNS

open Text

/-! ## Zone lines -/

/-- The owner of a zone line: `name` or `*.name`. -/
inductive Owner where
  | name (d : Str)
  | wildcard (d : Str)
  deriving DecidableEq

def Owner.text : Owner → Str
  | .name d => d
  | .wildcard d => "*.".toList ++ d

/-- The record data the compiler emits. -/
inductive Rdata where
  | block
  | passthru
  | a (addr : Str)
  | aaaa (addr : Str)
  deriving DecidableEq

def Rdata.text : Rdata → Str
  | .block => "CNAME .".toList
  | .passthru => "CNAME rpz-passthru.".toList
  | .a addr => "A ".toList ++ addr
  | .aaaa addr => "AAAA ".toList ++ addr

/-- A line of the zone, `f"{owner} {rdata}"`. -/
structure RpzLine where
  owner : Owner
  rdata : Rdata
  deriving DecidableEq

/-- Owners of domain names are told apart by their text. -/
theorem Owner.text_injective {d e : Str} (hd : matchesDomainRe d = true) :
    Owner.text (.name d) ≠ Owner.text (.wildcard e) ∧
      (Owner.text (.wildcard d) = Owner.text (.wildcard e) → d = e) := by
  refine ⟨fun h => ?_, fun h => List.append_cancel_left h⟩
  have hstar : '*' ∈ d := by
    have : d = "*.".toList ++ e := h
    rw [this]
    exact List.mem_cons_self
  exact absurd (isDomainChar_of_mem hd hstar) (by decide)

/-! ## `rpz_records` -/

/-- The `lines` and `occupied` variables of `rpz_records`. -/
structure RpzBuilder where
  lines : List RpzLine := []
  occupied : Finset Owner := ∅

/-- The addresses of a rewrite entry that are emitted, `A` before `AAAA`. -/
def RewriteEntry.rdatas (e : RewriteEntry) : List Rdata :=
  ((e.a.filter (· ≠ [])).map .a).toList ++ ((e.aaaa.filter (· ≠ [])).map .aaaa).toList

/-- One name of the first loop. -/
def emitRewrite (active : ActiveRuleSet) (s : RpzBuilder) (name : Str) : RpzBuilder :=
  match active.rewrites.lookup name with
  | none => s
  | some entry =>
      if entry.subdomains then
        { lines := s.lines ++ entry.rdatas.flatMap fun r => [⟨.name name, r⟩, ⟨.wildcard name, r⟩]
          occupied := insert (.wildcard name) (insert (.name name) s.occupied) }
      else
        { lines := s.lines ++ entry.rdatas.map fun r => ⟨.name name, r⟩
          occupied := insert (.name name) s.occupied }

/-- `if owner not in occupied: emit(owner, rdata); occupied.add(owner)`. -/
def RpzBuilder.claim (s : RpzBuilder) (owner : Owner) (rdata : Rdata) : RpzBuilder :=
  if owner ∈ s.occupied then s
  else { lines := s.lines ++ [⟨owner, rdata⟩], occupied := insert owner s.occupied }

/-- One name of the second loop. -/
def emitAllow (active : ActiveRuleSet) (s : RpzBuilder) (name : Str) : RpzBuilder :=
  match active.allows.lookup name with
  | none => s
  | some allow =>
      let s := if allow.exact || allow.subdomains then s.claim (.name name) .passthru else s
      if allow.subdomains then s.claim (.wildcard name) .passthru else s

/-- One name of the third loop. -/
def emitBlock (active : ActiveRuleSet) (s : RpzBuilder) (name : Str) : RpzBuilder :=
  match active.blocks.lookup name with
  | none => s
  | some block =>
      let s := if block.exact then s.claim (.name name) .block else s
      if block.subdomains then (s.claim (.name name) .block).claim (.wildcard name) .block else s

/-- `rpz_records`. -/
def rpzRecords (active : ActiveRuleSet) : RpzBuilder :=
  let s := (sorted active.rewrites.keys).foldl (emitRewrite active) {}
  let s := (sorted active.allows.keys).foldl (emitAllow active) s
  (sorted active.blocks.keys).foldl (emitBlock active) s

/-! ## The external block set -/

/-- A set of blocklist names: every one passed `normalize_domain`. -/
structure BlockSet where
  names : Finset Str
  normalized : ∀ d ∈ names, matchesDomainRe d = true

instance : Membership Str BlockSet where
  mem s d := d ∈ s.names

instance (d : Str) (s : BlockSet) : Decidable (d ∈ s) := inferInstanceAs (Decidable (d ∈ s.names))

/-- The test of `subtract_allowed` that drops a name. -/
def isAllowed (active : ActiveRuleSet) (domain : Str) : Bool :=
  (active.allows.lookup domain).isSome
    || active.allows.entries.any fun e => e.2.subdomains
        && (domain = e.1 || endsWith domain ('.' :: e.1))

/-- `subtract_allowed`. -/
def subtractAllowed (domains : BlockSet) (active : ActiveRuleSet) : BlockSet where
  names := domains.names.filter fun d => isAllowed active d = false
  normalized := fun d hd => domains.normalized d (Finset.mem_filter.mp hd).1

/-- `rpz_name`: `domain.rstrip(".")`. -/
def rpzName (domain : Str) : Str := domain.rdropWhile (· = '.')

/-- One name of the loop of `render_rpz`; `occupied` is what the custom rules took. -/
def emitExternal (occupied : Finset Owner) (lines : List RpzLine) (name : Str) : List RpzLine :=
  let lines := if .name name ∈ occupied then lines else lines ++ [⟨.name name, .block⟩]
  if .wildcard name ∈ occupied then lines else lines ++ [⟨.wildcard name, .block⟩]

/-- `render_rpz`. -/
def renderRpz (domains : BlockSet) (active : ActiveRuleSet) : List RpzLine :=
  let custom := rpzRecords active
  (sortedSet domains.names).foldl
    (fun lines domain => emitExternal custom.occupied lines (rpzName domain)) custom.lines

/-! ## `_rpz_status` -/

/-- The record data at an owner, in file order. -/
def rdatasAt (zone : List RpzLine) (owner : Owner) : List Rdata :=
  (zone.filter (·.owner = owner)).map (·.rdata)

/-- `owner in owners`. -/
def hasOwner (zone : List RpzLine) (owner : Owner) : Bool := rdatasAt zone owner ≠ []

/-- The `best` tuple: exact flag, label count, owner. -/
structure Candidate where
  exact : Bool
  labels : ℕ
  owner : Owner
  deriving DecidableEq

/-- `candidate > best`, the order of the tuples. -/
def Candidate.beats (c best : Candidate) : Bool :=
  if c.exact ≠ best.exact then c.exact
  else if c.labels ≠ best.labels then best.labels < c.labels
  else best.owner.text < c.owner.text

/-- One parent of the loop. -/
def considerParent (zone : List RpzLine) (best : Option Candidate) (parent : Str) :
    Option Candidate :=
  if hasOwner zone (.wildcard parent) then
    let candidate : Candidate := ⟨false, labelCount parent, .wildcard parent⟩
    match best with
    | none => some candidate
    | some b => if candidate.beats b then some candidate else best
  else best

/-- The owner `_rpz_status` settles on. -/
def bestOwner (zone : List RpzLine) (qname : Str) : Option Candidate :=
  (joinedSuffixes qname).foldl (considerParent zone)
    (if hasOwner zone (.name qname) then some ⟨true, labelCount qname, .name qname⟩ else none)

/-- The dictionary `_rpz_status` returns. -/
structure RpzStatus where
  available : Bool := false
  blocked : Bool := false
  exactMatch : Option Bool := none
  entry : Option Owner := none
  rdata : Option Str := none

/-- `_rpz_status`; `none` when the compiled file does not exist. -/
def rpzStatus (zone : Option (List RpzLine)) (qname : Str) : RpzStatus :=
  match zone with
  | none => {}
  | some zone =>
      match bestOwner zone qname with
      | none => { available := true }
      | some best =>
          let rdata := rdatasAt zone best.owner
          { available := true
            blocked := rdata.any fun r => r.text = "CNAME .".toList
            exactMatch := some best.exact
            entry := some best.owner
            rdata := some (join "; ".toList (rdata.map Rdata.text)) }

/-! ## The dnsdist data files -/

/-- `deployed_pattern`. -/
def deployedPattern (pattern : Str) : Str :=
  if endsWith pattern ['$'] then
    let body := pattern.dropLast
    let trailingBackslashes := body.length - (body.rdropWhile (· = '\\')).length
    if trailingBackslashes % 2 = 0 then body ++ "\\.?$".toList else pattern
  else pattern

/-- `_check_line_safe` passes. -/
def lineSafe (entry : Str) : Bool := entry.all fun c => 32 ≤ c.toNat && c.toNat ≠ 127

/-- The `text` helper, `none` when a line is refused. -/
def dataText (entries : List Str) : Option Str :=
  if entries.all lineSafe then
    some (join ['\n'] entries ++ if entries = [] then [] else ['\n'])
  else none

/-- The four data files. -/
structure DnsdistData where
  passSuffixes : Str
  passExact : Str
  regexAllow : Str
  regexBlock : Str

/-- The names of the entries of a dictionary that satisfy `p`. -/
def namesWhere {β : Type} (d : Dict Str β) (p : β → Bool) : Finset Str :=
  ((d.entries.filter fun e => p e.2).map (·.1)).toFinset

/-- `pass_suffixes`. -/
def passSuffixes (active : ActiveRuleSet) (localZones : List Str) : Finset Str :=
  localZones.toFinset ∪ namesWhere active.allows (·.subdomains)
    ∪ namesWhere active.rewrites (·.subdomains)

/-- `pass_exact`. -/
def passExact (active : ActiveRuleSet) (localZones : List Str) : Finset Str :=
  (namesWhere active.allows (fun e => e.exact && !e.subdomains)
    ∪ namesWhere active.rewrites (!·.subdomains)) \ passSuffixes active localZones

/-- `render_dnsdist_data`. -/
def renderDnsdistData (active : ActiveRuleSet) (localZones : List Str) : Option DnsdistData := do
  pure { passSuffixes := ← dataText (sortedSet (passSuffixes active localZones))
         passExact := ← dataText (sortedSet (passExact active localZones))
         regexAllow := ← dataText (active.regexAllow.map deployedPattern)
         regexBlock := ← dataText (active.regexBlock.map deployedPattern) }

/-- `alderpointdnsCustomLines`: the non-empty lines of a data file. -/
def luaLines (text : Str) : List Str := (split '\n' text).filter (· ≠ [])

/-! ## What the zone holds at a name -/

/-- The part of the zone that belongs to one name. -/
structure NameRecords where
  name : List Rdata := []
  wildcard : List Rdata := []
  nameOccupied : Bool := false
  wildcardOccupied : Bool := false

/-- The view of a builder at `x`. -/
def RpzBuilder.at (s : RpzBuilder) (x : Str) : NameRecords where
  name := rdatasAt s.lines (.name x)
  wildcard := rdatasAt s.lines (.wildcard x)
  nameOccupied := decide (.name x ∈ s.occupied)
  wildcardOccupied := decide (.wildcard x ∈ s.occupied)

/-- `claim` on the owner `name`. -/
def NameRecords.claimName (v : NameRecords) (r : Rdata) : NameRecords :=
  if v.nameOccupied then v else { v with name := v.name ++ [r], nameOccupied := true }

/-- `claim` on the owner `*.name`. -/
def NameRecords.claimWildcard (v : NameRecords) (r : Rdata) : NameRecords :=
  if v.wildcardOccupied then v else { v with wildcard := v.wildcard ++ [r], wildcardOccupied := true }

/-- The first loop at one name. -/
def NameRecords.emitRewrite (e : Option RewriteEntry) (v : NameRecords) : NameRecords :=
  match e with
  | none => v
  | some entry =>
      if entry.subdomains then
        { name := v.name ++ entry.rdatas, wildcard := v.wildcard ++ entry.rdatas,
          nameOccupied := true, wildcardOccupied := true }
      else { v with name := v.name ++ entry.rdatas, nameOccupied := true }

/-- The second loop at one name. -/
def NameRecords.emitAllow (e : Option FlagEntry) (v : NameRecords) : NameRecords :=
  match e with
  | none => v
  | some allow =>
      let v := if allow.exact || allow.subdomains then v.claimName .passthru else v
      if allow.subdomains then v.claimWildcard .passthru else v

/-- The third loop at one name. -/
def NameRecords.emitBlock (e : Option FlagEntry) (v : NameRecords) : NameRecords :=
  match e with
  | none => v
  | some block =>
      let v := if block.exact then v.claimName .block else v
      if block.subdomains then (v.claimName .block).claimWildcard .block else v

/-- What `rpz_records` emits for the entries of a name. -/
def NameEntries.records (e : NameEntries) : NameRecords :=
  ((NameRecords.emitRewrite e.rewrite {}).emitAllow e.allow).emitBlock e.block

theorem rdatasAt_append (l l' : List RpzLine) (o : Owner) :
    rdatasAt (l ++ l') o = rdatasAt l o ++ rdatasAt l' o := by
  simp [rdatasAt]

theorem rdatasAt_names (y : Str) (rs : List Rdata) (o : Owner) :
    rdatasAt (rs.map fun r => (⟨.name y, r⟩ : RpzLine)) o = if o = .name y then rs else [] := by
  induction rs with
  | nil => simp [rdatasAt]
  | cons r rs ih =>
      rw [List.map_cons, ← List.singleton_append, rdatasAt_append, ih]
      by_cases h : o = .name y
      · subst h; simp [rdatasAt]
      · simp [rdatasAt, Ne.symm h, h]

theorem rdatasAt_both (y : Str) (rs : List Rdata) (o : Owner) :
    rdatasAt (rs.flatMap fun r => [(⟨.name y, r⟩ : RpzLine), ⟨.wildcard y, r⟩]) o
      = if o = .name y ∨ o = .wildcard y then rs else [] := by
  induction rs with
  | nil => simp [rdatasAt]
  | cons r rs ih =>
      rw [List.flatMap_cons, rdatasAt_append, ih]
      rcases o with d | d <;> by_cases h : y = d <;> simp [rdatasAt, h, eq_comm]

/-- `claim` seen at a name: only the owner claimed changes. -/
theorem RpzBuilder.claim_name_at (s : RpzBuilder) (y x : Str) (r : Rdata) :
    (s.claim (.name y) r).at x = if y = x then (s.at x).claimName r else s.at x := by
  unfold claim NameRecords.claimName RpzBuilder.at
  by_cases hx : y = x
  · subst hx
    by_cases ho : .name y ∈ s.occupied <;> simp [ho, rdatasAt]
  · by_cases ho : .name y ∈ s.occupied <;> simp [ho, hx, rdatasAt, Ne.symm hx]

theorem RpzBuilder.claim_wildcard_at (s : RpzBuilder) (y x : Str) (r : Rdata) :
    (s.claim (.wildcard y) r).at x = if y = x then (s.at x).claimWildcard r else s.at x := by
  unfold claim NameRecords.claimWildcard RpzBuilder.at
  by_cases hx : y = x
  · subst hx
    by_cases ho : .wildcard y ∈ s.occupied <;> simp [ho, rdatasAt]
  · by_cases ho : .wildcard y ∈ s.occupied <;> simp [ho, hx, rdatasAt, Ne.symm hx]

theorem emitRewrite_local (active : ActiveRuleSet) :
    Local RpzBuilder.at (emitRewrite active) some
      fun y v => v.emitRewrite (active.rewrites.lookup y) := by
  intro s y x
  unfold emitRewrite NameRecords.emitRewrite
  cases he : active.rewrites.lookup y with
  | none => simp [he]
  | some entry =>
      by_cases hx : y = x
      · subst hx
        cases hs : entry.subdomains <;>
          simp [RpzBuilder.at, rdatasAt_append, rdatasAt_names, rdatasAt_both, he, hs]
      · cases hs : entry.subdomains <;>
          simp [RpzBuilder.at, rdatasAt_append, rdatasAt_names, rdatasAt_both, hs, hx, Ne.symm hx]

theorem emitAllow_local (active : ActiveRuleSet) :
    Local RpzBuilder.at (emitAllow active) some
      fun y v => v.emitAllow (active.allows.lookup y) := by
  intro s y x
  unfold emitAllow NameRecords.emitAllow
  cases he : active.allows.lookup y with
  | none => simp [he]
  | some allow =>
      by_cases hx : y = x
      · subst hx
        cases hs : allow.subdomains <;> cases hd : allow.exact <;>
          simp [he, hs, hd, RpzBuilder.claim_name_at, RpzBuilder.claim_wildcard_at]
      · cases hs : allow.subdomains <;> cases hd : allow.exact <;>
          simp [hs, hd, hx, RpzBuilder.claim_name_at, RpzBuilder.claim_wildcard_at]

theorem emitBlock_local (active : ActiveRuleSet) :
    Local RpzBuilder.at (emitBlock active) some
      fun y v => v.emitBlock (active.blocks.lookup y) := by
  intro s y x
  unfold emitBlock NameRecords.emitBlock
  cases he : active.blocks.lookup y with
  | none => simp [he]
  | some block =>
      by_cases hx : y = x
      · subst hx
        cases hs : block.subdomains <;> cases hd : block.exact <;>
          simp [he, hs, hd, RpzBuilder.claim_name_at, RpzBuilder.claim_wildcard_at]
      · cases hs : block.subdomains <;> cases hd : block.exact <;>
          simp [hs, hd, hx, RpzBuilder.claim_name_at, RpzBuilder.claim_wildcard_at]

/-- A loop over the sorted keys of a dictionary, seen at one name. -/
theorem loop_at {β : Type} {d : Dict Str β} {step : RpzBuilder → Str → RpzBuilder}
    {emit : Option β → NameRecords → NameRecords}
    (h : Local RpzBuilder.at step some fun y => emit (d.lookup y)) (hnone : ∀ v, emit none v = v)
    (s : RpzBuilder) (x : Str) :
    ((sorted d.keys).foldl step s).at x = emit (d.lookup x) (s.at x) := by
  rw [view_foldl_nodup h (sorted_nodup d.keys_nodup)]
  split_ifs with hx
  · rfl
  · have hx' : d.lookup x = none := Dict.lookup_eq_none_of_notMem fun hk => hx (mem_sorted.mpr hk)
    rw [hx', hnone]

/-- The custom part of the zone at `x` depends on the entries of `x` alone. -/
theorem rpzRecords_at (active : ActiveRuleSet) (x : Str) :
    (rpzRecords active).at x = (active.at x).records := by
  rw [rpzRecords, loop_at (emitBlock_local active) (fun _ => rfl),
    loop_at (emitAllow_local active) (fun _ => rfl),
    loop_at (emitRewrite_local active) (fun _ => rfl)]
  rfl

/-! ### The external names -/

theorem rpzName_eq {d : Str} (h : matchesDomainRe d = true) : rpzName d = d := by
  rw [rpzName, List.rdropWhile_eq_self_iff]
  intro hne hdot
  have hd : d = d.dropLast ++ ['.'] := by
    rw [← of_decide_eq_true hdot, List.dropLast_append_getLast]
  have hmem : [] ∈ split '.' d := by
    rw [hd]
    exact List.mem_of_mem_tail (nil_mem_tail_split_append _ _)
  simp only [matchesDomainRe, Bool.and_eq_true, List.all_eq_true] at h
  exact absurd (h.1.2 [] hmem) (by decide)

/-- The two owners of a name, in a list of lines. -/
def ownersAt (lines : List RpzLine) (x : Str) : List Rdata × List Rdata :=
  (rdatasAt lines (.name x), rdatasAt lines (.wildcard x))

theorem emitExternal_local (occupied : Finset Owner) :
    Local ownersAt (emitExternal occupied) some fun y v =>
      (v.1 ++ (if .name y ∈ occupied then [] else [.block]),
        v.2 ++ (if .wildcard y ∈ occupied then [] else [.block])) := by
  intro lines y x
  unfold emitExternal ownersAt
  by_cases hx : y = x
  · subst hx
    by_cases h1 : .name y ∈ occupied <;> by_cases h2 : .wildcard y ∈ occupied <;>
      simp [h1, h2, rdatasAt]
  · by_cases h1 : .name y ∈ occupied <;> by_cases h2 : .wildcard y ∈ occupied <;>
      simp [h1, h2, hx, rdatasAt]

/-- **The zone at a name**: what the entries of the name emit, then the external records for the
owners still free. -/
theorem renderRpz_at (domains : BlockSet) (active : ActiveRuleSet) (x : Str) :
    rdatasAt (renderRpz domains active) (.name x) = (active.at x).records.name
        ++ (if x ∈ domains ∧ (active.at x).records.nameOccupied = false then [.block] else [])
    ∧ rdatasAt (renderRpz domains active) (.wildcard x) = (active.at x).records.wildcard
        ++ (if x ∈ domains ∧ (active.at x).records.wildcardOccupied = false
            then [.block] else []) := by
  have hfold : renderRpz domains active = (sortedSet domains.names).foldl
      (emitExternal (rpzRecords active).occupied) (rpzRecords active).lines := by
    refine List.foldl_ext _ _ _ fun lines d hd => ?_
    rw [rpzName_eq (domains.normalized d (mem_sortedSet.mp hd))]
  have hview := view_foldl_nodup (emitExternal_local (rpzRecords active).occupied)
    (sortedSet_nodup domains.names) x (rpzRecords active).lines
  rw [← hfold] at hview
  rw [← rpzRecords_at]
  have hmem : x ∈ sortedSet domains.names ↔ x ∈ domains := mem_sortedSet
  by_cases hx : x ∈ domains
  · rw [if_pos (hmem.mpr hx)] at hview
    refine ⟨(congrArg Prod.fst hview).trans ?_, (congrArg Prod.snd hview).trans ?_⟩
    · by_cases ho : .name x ∈ (rpzRecords active).occupied <;>
        simp [ownersAt, RpzBuilder.at, hx, ho]
    · by_cases ho : .wildcard x ∈ (rpzRecords active).occupied <;>
        simp [ownersAt, RpzBuilder.at, hx, ho]
  · rw [if_neg (mt hmem.mp hx)] at hview
    refine ⟨(congrArg Prod.fst hview).trans ?_, (congrArg Prod.snd hview).trans ?_⟩ <;>
      simp [ownersAt, RpzBuilder.at, hx]

/-! ## The lookup -/

/-- The first parent of `qname` with a wildcard. -/
def wildcardParent (zone : List RpzLine) (qname : Str) : Option Str :=
  (parents qname).find? fun y => hasOwner zone (.wildcard y)

/-- Once a candidate is found, parents with fewer labels do not replace it. -/
theorem foldl_considerParent_some {zone : List RpzLine} {l : List Str} {c : Candidate}
    (h : ∀ y ∈ l, c.exact = true ∨ labelCount y < c.labels) :
    l.foldl (considerParent zone) (some c) = some c := by
  induction l with
  | nil => rfl
  | cons y l ih =>
      have hstep : considerParent zone (some c) y = some c := by
        unfold considerParent
        split_ifs with ho
        · have hb : Candidate.beats ⟨false, labelCount y, .wildcard y⟩ c = false := by
            rcases h y List.mem_cons_self with he | hl
            · simp [Candidate.beats, he]
            · simp only [Candidate.beats]
              split_ifs with h1 h2
              · rfl
              · simpa using hl.le
              · omega
          simp [hb]
        · rfl
      rw [List.foldl_cons, hstep]
      exact ih fun z hz => h z (List.mem_cons_of_mem _ hz)

theorem foldl_considerParent_none {zone : List RpzLine} {l : List Str}
    (h : l.Pairwise fun a b => labelCount b < labelCount a) :
    l.foldl (considerParent zone) none
      = (l.find? fun y => hasOwner zone (.wildcard y)).map
          fun y => ⟨false, labelCount y, .wildcard y⟩ := by
  induction l with
  | nil => rfl
  | cons y l ih =>
      rw [List.pairwise_cons] at h
      rw [List.foldl_cons, List.find?_cons]
      by_cases ho : hasOwner zone (.wildcard y) = true
      · simp only [considerParent, ho, if_true, Option.map_some]
        exact foldl_considerParent_some fun z hz => Or.inr (h.1 z hz)
      · simp only [Bool.not_eq_true] at ho
        simp only [considerParent, ho, Bool.false_eq_true, if_false]
        exact ih h.2

/-- **The best candidate** is the exact owner, else the nearest parent's wildcard. -/
theorem bestOwner_spec (zone : List RpzLine) (qname : Str) : bestOwner zone qname =
    if hasOwner zone (.name qname) then some ⟨true, labelCount qname, .name qname⟩
    else (wildcardParent zone qname).map fun y => ⟨false, labelCount y, .wildcard y⟩ := by
  unfold bestOwner wildcardParent
  rw [joinedSuffixes_eq_parents]
  split_ifs with h
  · exact foldl_considerParent_some fun _ _ => Or.inl rfl
  · exact foldl_considerParent_none (labelCount_lt_of_parents qname)

/-! ## Reading the data files back -/

theorem luaLines_dataText {entries : List Str} {text : Str} (h : dataText entries = some text) :
    luaLines text = entries.filter (· ≠ []) := by
  rw [dataText, Option.ite_none_right_eq_some] at h
  obtain ⟨hsafe, ht⟩ := h
  cases ht
  have hnl : ∀ e ∈ entries, '\n' ∉ e := by
    intro e he hc
    have := List.all_eq_true.mp (List.all_eq_true.mp hsafe e he) _ hc
    exact absurd this (by decide)
  by_cases hne : entries = []
  · subst hne
    decide
  · rw [if_neg hne]
    unfold luaLines
    rw [split_join_append hnl hne]
    simp

end AlderpointDNS
