import AlderpointDNS.Importer.Plan

/-!
# From things of a source to items of the plan

A translator goes over the things of its source, the lines of a text or the objects of a
configuration, and appends what it makes of each to the lists of the translation.  Here the
appends are a list of entries in their order, each with the thing that it was made of; the
translation collects them.  `build_migration_plan` then goes over the translation.

* `parseRule_ne_nil` — a rule that is not blank parses to something;
* `Kept` — the entries that get an item;
* **`accounted_iff`** — the things with an item are those of which a kept entry was made.
-/

namespace AlderpointDNS.Importer

open Text Ipaddress

/-! ## Entries -/

/-- One append to a list of the translation. -/
inductive Emitted where
  | source (source : SourceEntry)
  | rule (rule : RawRule)
  | record (record : RecordEntry)
  | resolver (resolver : ResolverEntry)
  | alias (client : AliasEntry)
  | client (client : FullClientEntry)
  | allowed (entry : AccessEntry)
  | denied (entry : AccessEntry)
  | clientScoped (finding : Str)
  /-- the displayed texts of an allowlist subscription -/
  | allowlist (shown : Str)
  | unsupportedRule (finding : Str)
  | untranslatable (finding : Str)

namespace Emitted

def source? : Emitted → Option SourceEntry
  | source x => some x
  | _ => none

def rule? : Emitted → Option RawRule
  | rule x => some x
  | _ => none

def record? : Emitted → Option RecordEntry
  | record x => some x
  | _ => none

def resolver? : Emitted → Option ResolverEntry
  | resolver x => some x
  | _ => none

def alias? : Emitted → Option AliasEntry
  | .alias x => some x
  | _ => none

def client? : Emitted → Option FullClientEntry
  | client x => some x
  | _ => none

def allowed? : Emitted → Option AccessEntry
  | allowed x => some x
  | _ => none

def denied? : Emitted → Option AccessEntry
  | denied x => some x
  | _ => none

def clientScoped? : Emitted → Option Str
  | clientScoped x => some x
  | _ => none

def allowlist? : Emitted → Option Str
  | allowlist x => some x
  | _ => none

def unsupportedRule? : Emitted → Option Str
  | unsupportedRule x => some x
  | _ => none

def untranslatable? : Emitted → Option Str
  | untranslatable x => some x
  | _ => none

end Emitted

section Collect

variable {τ : Type} (entries : List (τ × Emitted))

/-- The entries of one list of the translation, with the things that they were made of. -/
def entriesOf {α : Type} (sel : Emitted → Option α) : List (τ × α) :=
  entries.filterMap fun entry => (sel entry.2).map (entry.1, ·)

/-- The translation. -/
def collect : StoredTranslation where
  blocklistSources := (entriesOf entries Emitted.source?).map (·.2)
  customRules := (entriesOf entries Emitted.rule?).map (·.2)
  rewritesAsLocalDns := (entriesOf entries Emitted.record?).map (·.2)
  upstreamResolvers := (entriesOf entries Emitted.resolver?).map (·.2)
  clientsAsAliases := (entriesOf entries Emitted.alias?).map (·.2)
  clientsFull := (entriesOf entries Emitted.client?).map (·.2)
  accessAllowed := (entriesOf entries Emitted.allowed?).map (·.2)
  accessDenied := (entriesOf entries Emitted.denied?).map (·.2)
  clientScoped := (entriesOf entries Emitted.clientScoped?).map (·.2)
  allowlistUnsupported := (entriesOf entries Emitted.allowlist?).map (·.2)
  unsupportedRules := (entriesOf entries Emitted.unsupportedRule?).map (·.2)
  untranslatable := (entriesOf entries Emitted.untranslatable?).map (·.2)

/-- The text of a rule entry is not blank: `_rule_entries` keeps it. -/
def RawRule.IsKept (raw : RawRule) : Prop := strip (orComment raw.rule raw.text) ≠ []

instance (raw : RawRule) : Decidable raw.IsKept := inferInstanceAs (Decidable (_ ≠ _))

/-- The things that the entries of a section were made of, where the plan looks for them. -/
def provenance : Section → List τ
  | .sources => (entriesOf entries Emitted.source?).map (·.1)
  | .rules => ((entriesOf entries Emitted.rule?).filter (·.2.IsKept)).map (·.1)
  | .records => (entriesOf entries Emitted.record?).map (·.1)
  | .resolvers => (entriesOf entries Emitted.resolver?).map (·.1)
  | .aliases => (entriesOf entries Emitted.alias?).map (·.1)
  | .clients => (entriesOf entries Emitted.client?).map (·.1)
  | .accessAllowed => (entriesOf entries Emitted.allowed?).map (·.1)
  | .accessDenied => (entriesOf entries Emitted.denied?).map (·.1)
  | .clientScoped => (entriesOf entries Emitted.clientScoped?).map (·.1)
  | .allowlists => (entriesOf entries Emitted.allowlist?).map (·.1)
  | .findings =>
      (entriesOf entries Emitted.unsupportedRule?).map (·.1)
        ++ (entriesOf entries Emitted.untranslatable?).map (·.1)

/-- An item of the plan of the translation is about an entry that was made of the thing. -/
def Accounted (d : ImportData) (domain : Str) (thing : τ) : Prop :=
  ∃ key origin, Designates (plannedItems d domain (collect entries)) key origin ∧
    (provenance entries origin.1)[origin.2]? = some thing

/-- The entry gets an item in the plan. -/
def Kept : Emitted → Prop
  | .rule raw => raw.IsKept
  -- aliases are planned only where there is no persistent client
  | .alias _ => (collect entries).clientsFull = []
  | .client client => strip client.name ≠ [] ∧ client.identifiers ≠ []
  | _ => True

end Collect

/-! ## What gets an item -/

/-- A loop whose rounds give a placement to what is kept. -/
theorem planLoop_isSome {σ α : Type} {place : σ → α → Option Placement × σ} {keep : α → Prop}
    (h : ∀ seen x, (∃ p, (place seen x).1 = some p) ↔ keep x) (xs : List α) :
    ∀ (seen : σ) (i : ℕ) (x : α), xs[i]? = some x →
      ((∃ p, (planLoop place seen xs)[i]? = some (some p)) ↔ keep x) := by
  induction xs with
  | nil => simp
  | cons x xs ih =>
      intro seen i y hy
      cases i with
      | zero =>
          simp only [List.getElem?_cons_zero, Option.some.injEq] at hy
          subst hy
          simpa [planLoop] using h seen x
      | succ i =>
          simp only [List.getElem?_cons_succ] at hy
          simpa [planLoop] using ih _ i y hy

/-- The things at the places where something was placed. -/
theorem exists_placed {τ α : Type} {ps : List (Option Placement)} {xs : List (τ × α)}
    {P : τ × α → Prop}
    (h : ∀ (i : ℕ) (x : τ × α), xs[i]? = some x → ((∃ p, ps[i]? = some (some p)) ↔ P x))
    (thing : τ) :
    (∃ (i : ℕ) (p : Placement), ps[i]? = some (some p) ∧ (xs.map (·.1))[i]? = some thing) ↔
      ∃ x ∈ xs, x.1 = thing ∧ P x := by
  constructor
  · rintro ⟨i, p, hp, hthing⟩
    rw [List.getElem?_map, Option.map_eq_some_iff] at hthing
    obtain ⟨x, hx, rfl⟩ := hthing
    exact ⟨x, List.mem_of_getElem? hx, rfl, (h i x hx).mp ⟨p, hp⟩⟩
  · rintro ⟨x, hx, rfl, hkeep⟩
    obtain ⟨i, hi⟩ := List.getElem?_of_mem hx
    obtain ⟨p, hp⟩ := (h i x hi).mpr hkeep
    exact ⟨i, p, hp, by simp [hi]⟩

section Collect

variable {τ : Type} {entries : List (τ × Emitted)}

theorem mem_entriesOf {α : Type} {sel : Emitted → Option α} {x : τ × α} :
    x ∈ entriesOf entries sel ↔ ∃ e, (x.1, e) ∈ entries ∧ sel e = some x.2 := by
  obtain ⟨thing, a⟩ := x
  simp only [entriesOf, List.mem_filterMap, Option.map_eq_some_iff, Prod.mk.injEq, Prod.exists]
  constructor
  · rintro ⟨thing', e, he, a', hsel, rfl, rfl⟩
    exact ⟨e, he, hsel⟩
  · rintro ⟨e, he, hsel⟩
    exact ⟨thing, e, he, a, hsel, rfl, rfl⟩

/-- The section of an entry. -/
def Emitted.section : Emitted → Section
  | .source _ => .sources
  | .rule _ => .rules
  | .record _ => .records
  | .resolver _ => .resolvers
  | .alias _ => .aliases
  | .client _ => .clients
  | .allowed _ => .accessAllowed
  | .denied _ => .accessDenied
  | .clientScoped _ => .clientScoped
  | .allowlist _ => .allowlists
  | .unsupportedRule _ | .untranslatable _ => .findings

theorem ruleEntries_collect : (collect entries).ruleEntries =
    ((entriesOf entries Emitted.rule?).filter (·.2.IsKept)).map fun x =>
      ⟨strip (orComment x.2.rule x.2.text), x.2.plainDomainSubdomains, x.2.comment⟩ := by
  have hnil (pre : Str) : domainEntries pre [] = [] := rfl
  rw [Translation.ruleEntries, collect, hnil, hnil, List.append_nil, List.append_nil,
    List.filterMap_map, Function.comp_def]
  induction entriesOf entries Emitted.rule? with
  | nil => rfl
  | cons x xs ih =>
      by_cases hx : strip (orComment x.2.rule x.2.text) = []
      · simpa [RawRule.IsKept, hx] using ih
      · simpa [RawRule.IsKept, hx] using ih

/-- A rule that is not blank has a place. -/
theorem placeRule_isSome (d : ImportData) (seen : List (Str × RuleAction))
    (entry : CustomRuleEntry) :
    (∃ p, (placeRule d seen entry).1 = some p) ↔
      parseRule d.toParserData entry.plainDomainSubdomains entry.rule ≠ [] := by
  unfold placeRule
  dsimp only
  by_cases h : parseRule d.toParserData entry.plainDomainSubdomains entry.rule = []
  · rw [if_pos h]
    exact iff_of_false (fun ⟨_, hp⟩ => nomatch hp) (not_not.mpr h)
  · rw [if_neg h]
    exact iff_of_true ⟨_, rfl⟩ h

theorem placeRecord_isSome (d : ImportData) (domain : Str)
    (seen : List (Str × RecordType × Str)) (record : RecordEntry) :
    (∃ p, (placeRecord d domain seen record).1 = some p) ↔ True := by
  unfold placeRecord
  split
  · simp
  · split_ifs <;> simp

theorem placeResolver_isSome (seen : List Upstream.Settings) (resolver : ResolverEntry) :
    (∃ p, (placeResolver seen resolver).1 = some p) ↔ True := by
  unfold placeResolver
  split
  · simp
  · split_ifs <;> simp

theorem placeClient_isSome (client : FullClientEntry) :
    (∃ p, placeClient client = some p) ↔ strip client.name ≠ [] ∧ client.identifiers ≠ [] := by
  unfold placeClient
  split_ifs with h
  · simp only [exists_false, false_iff]
    tauto
  · simpa [not_or] using h

/-- The things with an item in a section whose entries make one list of the translation. -/
theorem exists_placed_entries {α : Type} {sel : Emitted → Option α} {ps : List (Option Placement)}
    {keep : α → Prop}
    (h : ∀ (i : ℕ) (a : α), ((entriesOf entries sel).map (·.2))[i]? = some a →
      ((∃ p, ps[i]? = some (some p)) ↔ keep a)) (thing : τ) :
    (∃ (i : ℕ) (p : Placement), ps[i]? = some (some p) ∧
        ((entriesOf entries sel).map (·.1))[i]? = some thing) ↔
      ∃ e, (thing, e) ∈ entries ∧ ∃ a, sel e = some a ∧ keep a := by
  have hplaced (i : ℕ) (x : τ × α) (hx : (entriesOf entries sel)[i]? = some x) :
      (∃ p, ps[i]? = some (some p)) ↔ keep x.2 := h i x.2 (by simp [hx])
  rw [exists_placed (P := fun x => keep x.2) hplaced]
  simp only [mem_entriesOf]
  constructor
  · rintro ⟨x, ⟨e, he, hsel⟩, rfl, hkeep⟩
    exact ⟨e, he, x.2, hsel, hkeep⟩
  · rintro ⟨e, he, a, hsel, hkeep⟩
    exact ⟨(thing, a), ⟨e, he, hsel⟩, rfl, hkeep⟩

/-- Every entry of a list is placed. -/
theorem map_some_isSome {α : Type} (xs : List α) (place : α → Placement) (i : ℕ) (a : α)
    (h : xs[i]? = some a) : (∃ p, (xs.map fun x => some (place x))[i]? = some (some p)) ↔ True := by
  simp [h]

/-- The rules: `_rule_entries` keeps what is not blank, and all of it parses to something. -/
theorem exists_placed_rules (d : ImportData) (thing : τ) :
    (∃ (i : ℕ) (p : Placement),
        (planLoop (placeRule d) []
          (((entriesOf entries Emitted.rule?).filter (·.2.IsKept)).map fun x =>
            ⟨strip (orComment x.2.rule x.2.text), x.2.plainDomainSubdomains, x.2.comment⟩))[i]? =
          some (some p) ∧
        (((entriesOf entries Emitted.rule?).filter (·.2.IsKept)).map (·.1))[i]? = some thing) ↔
      ∃ e, (thing, e) ∈ entries ∧ ∃ raw, Emitted.rule? e = some raw ∧ raw.IsKept := by
  generalize hxs : (entriesOf entries Emitted.rule?).filter (·.2.IsKept) = xs
  have hkept (x : τ × RawRule) (hx : x ∈ xs) : x.2.IsKept := by
    rw [← hxs] at hx
    simpa using (List.mem_filter.mp hx).2
  have hplaced (i : ℕ) (x : τ × RawRule) (hx : xs[i]? = some x) :
      (∃ p, (planLoop (placeRule d) [] (xs.map fun x =>
        (⟨strip (orComment x.2.rule x.2.text), x.2.plainDomainSubdomains, x.2.comment⟩ :
          CustomRuleEntry)))[i]? = some (some p)) ↔ True := by
    rw [planLoop_isSome (placeRule_isSome d) _ [] i _ (by simp only [List.getElem?_map, hx]; rfl)]
    simp only [iff_true]
    apply parseRule_ne_nil
    rw [strip, strip, stripBy_stripBy]
    exact hkept x (List.mem_of_getElem? hx)
  rw [exists_placed hplaced]
  simp only [← hxs, List.mem_filter, mem_entriesOf, and_true, decide_eq_true_eq]
  constructor
  · rintro ⟨x, ⟨⟨e, he, hsel⟩, hraw⟩, rfl⟩
    exact ⟨e, he, x.2, hsel, hraw⟩
  · rintro ⟨e, he, raw, hsel, hraw⟩
    exact ⟨(thing, raw), ⟨⟨e, he, hsel⟩, hraw⟩, rfl⟩

/-- The findings of two lists. -/
theorem exists_placed_findings (thing : τ) :
    (∃ (i : ℕ) (p : Placement),
        (((entriesOf entries Emitted.unsupportedRule?).map (·.2)
          ++ (entriesOf entries Emitted.untranslatable?).map (·.2)).map fun _ =>
            some (Placement.finding .unsupported))[i]? = some (some p) ∧
        ((entriesOf entries Emitted.unsupportedRule?).map (·.1)
          ++ (entriesOf entries Emitted.untranslatable?).map (·.1))[i]? = some thing) ↔
      ∃ e, (thing, e) ∈ entries ∧
        ((Emitted.unsupportedRule? e).isSome ∨ (Emitted.untranslatable? e).isSome) := by
  have hplaced (xs : List (τ × Str)) (i : ℕ) (x : τ × Str) (hx : xs[i]? = some x) :
      (∃ p, ((xs.map (·.2)).map fun _ => some (Placement.finding .unsupported))[i]? =
        some (some p)) ↔ True := by
    simp [hx]
  rw [← List.map_append, ← List.map_append, exists_placed (hplaced _)]
  simp only [List.mem_append, mem_entriesOf, and_true, Option.isSome_iff_exists]
  constructor
  · rintro ⟨x, ⟨e, he, hsel⟩ | ⟨e, he, hsel⟩, rfl⟩
    · exact ⟨e, he, .inl ⟨_, hsel⟩⟩
    · exact ⟨e, he, .inr ⟨_, hsel⟩⟩
  · rintro ⟨e, he, ⟨a, hsel⟩ | ⟨a, hsel⟩⟩
    · exact ⟨(thing, a), .inl ⟨e, he, hsel⟩, rfl⟩
    · exact ⟨(thing, a), .inr ⟨e, he, hsel⟩, rfl⟩

/-- The entry is no alias or client, and it is kept whatever the others are. -/
def Emitted.IsPlain : Emitted → Prop
  | .rule raw => raw.IsKept
  | .alias _ | .client _ => False
  | _ => True

theorem Emitted.IsPlain.kept {e : Emitted} (h : e.IsPlain) : Kept entries e := by
  cases e <;> first | exact h | exact h.elim

theorem clientsFull_collect_eq_nil :
    (collect entries).clientsFull = [] ↔
      ∀ thing client, (thing, Emitted.client client) ∉ entries := by
  rw [collect, List.map_eq_nil_iff, List.eq_nil_iff_forall_not_mem]
  simp only [mem_entriesOf]
  constructor
  · intro h thing client hmem
    exact h (thing, client) ⟨_, hmem, rfl⟩
  · rintro h x ⟨e, he, hsel⟩
    cases e <;> simp only [Emitted.client?, reduceCtorEq, Option.some.injEq] at hsel
    subst hsel
    exact h _ _ he

/-- The things with an item, section by section. -/
theorem exists_placed_section (d : ImportData) (domain : Str) (thing : τ) (origin : Section) :
    (∃ (i : ℕ) (p : Placement),
        (placements d domain (collect entries) origin)[i]? = some (some p) ∧
        (provenance entries origin)[i]? = some thing) ↔
      ∃ e, (thing, e) ∈ entries ∧ e.section = origin ∧ Kept entries e := by
  cases origin with
  | sources =>
      rw [placements, provenance, collect, exists_placed_entries (map_some_isSome _ _)]
      refine exists_congr fun e => and_congr_right fun _ => ?_
      cases e <;> simp [Emitted.source?, Emitted.section, Kept]
  | rules =>
      rw [placements, provenance, ruleEntries_collect, exists_placed_rules]
      refine exists_congr fun e => and_congr_right fun _ => ?_
      cases e <;> simp [Emitted.rule?, Emitted.section, Kept]
  | records =>
      rw [placements, provenance, collect, exists_placed_entries
        (planLoop_isSome (placeRecord_isSome d domain) _ [])]
      refine exists_congr fun e => and_congr_right fun _ => ?_
      cases e <;> simp [Emitted.record?, Emitted.section, Kept]
  | resolvers =>
      rw [placements, provenance, collect, exists_placed_entries
        (planLoop_isSome placeResolver_isSome _ [])]
      refine exists_congr fun e => and_congr_right fun _ => ?_
      cases e <;> simp [Emitted.resolver?, Emitted.section, Kept]
  | aliases =>
      rw [placements, provenance]
      split_ifs with hclients
      · rw [collect, exists_placed_entries (map_some_isSome _ _)]
        refine exists_congr fun e => and_congr_right fun _ => ?_
        cases e <;> simp [Emitted.alias?, Emitted.section, Kept, hclients]
      · simp only [List.getElem?_nil, reduceCtorEq, false_and, exists_false, false_iff]
        rintro ⟨e, -, hsection, hkept⟩
        cases e <;> simp_all [Emitted.section, Kept]
  | clients =>
      have hplaced (i : ℕ) (a : FullClientEntry)
          (ha : ((entriesOf entries Emitted.client?).map (·.2))[i]? = some a) :
          (∃ p, (((entriesOf entries Emitted.client?).map (·.2)).map placeClient)[i]? =
            some (some p)) ↔ strip a.name ≠ [] ∧ a.identifiers ≠ [] := by
        rw [← placeClient_isSome a, List.getElem?_map, ha]
        simp only [Option.map_some, Option.some.injEq]
      rw [placements, provenance, collect, exists_placed_entries hplaced]
      refine exists_congr fun e => and_congr_right fun _ => ?_
      cases e <;> simp [Emitted.client?, Emitted.section, Kept]
  | accessAllowed =>
      rw [placements, provenance, collect, exists_placed_entries (map_some_isSome _ _)]
      refine exists_congr fun e => and_congr_right fun _ => ?_
      cases e <;> simp [Emitted.allowed?, Emitted.section, Kept]
  | accessDenied =>
      rw [placements, provenance, collect, exists_placed_entries (map_some_isSome _ _)]
      refine exists_congr fun e => and_congr_right fun _ => ?_
      cases e <;> simp [Emitted.denied?, Emitted.section, Kept]
  | clientScoped =>
      rw [placements, provenance, collect, exists_placed_entries (map_some_isSome _ _)]
      refine exists_congr fun e => and_congr_right fun _ => ?_
      cases e <;> simp [Emitted.clientScoped?, Emitted.section, Kept]
  | allowlists =>
      rw [placements, provenance, collect, exists_placed_entries (map_some_isSome _ _)]
      refine exists_congr fun e => and_congr_right fun _ => ?_
      cases e <;> simp [Emitted.allowlist?, Emitted.section, Kept]
  | findings =>
      rw [placements, provenance, collect, exists_placed_findings]
      refine exists_congr fun e => and_congr_right fun _ => ?_
      cases e <;> simp [Emitted.unsupportedRule?, Emitted.untranslatable?, Emitted.section, Kept]

/-- The things that get an item are those of which an entry was made that the plan keeps. -/
theorem accounted_iff (d : ImportData) (domain : Str) (thing : τ) :
    Accounted entries d domain thing ↔ ∃ e, (thing, e) ∈ entries ∧ Kept entries e := by
  have hitem (origin : Section × ℕ) :
      (∃ key, Designates (plannedItems d domain (collect entries)) key origin) ↔
        ∃ p, (placements d domain (collect entries) origin.1)[origin.2]? = some (some p) := by
    constructor
    · rintro ⟨key, item, hkey, rfl⟩
      have hmem := mem_of_mem_keyedItems hkey
      rw [plannedItems, List.mem_flatMap] at hmem
      obtain ⟨σ, -, hσ⟩ := hmem
      obtain ⟨rfl, hp⟩ := mem_sectionItems.mp hσ
      exact ⟨_, hp⟩
    · rintro ⟨p, hp⟩
      have hmem : (⟨origin, p⟩ : PlannedItem) ∈ plannedItems d domain (collect entries) := by
        rw [plannedItems, List.mem_flatMap]
        refine ⟨origin.1, ?_, mem_sectionItems.mpr ⟨rfl, hp⟩⟩
        cases origin.1 <;> simp
      obtain ⟨key, hkey⟩ := exists_key hmem
      exact ⟨key, _, hkey, rfl⟩
  constructor
  · rintro ⟨key, ⟨σ, i⟩, hkey, hthing⟩
    obtain ⟨p, hp⟩ := (hitem (σ, i)).mp ⟨key, hkey⟩
    obtain ⟨e, he, -, hkept⟩ := (exists_placed_section d domain thing σ).mp ⟨i, p, hp, hthing⟩
    exact ⟨e, he, hkept⟩
  · rintro ⟨e, he, hkept⟩
    obtain ⟨i, p, hp, hthing⟩ :=
      (exists_placed_section d domain thing e.section).mpr ⟨e, he, rfl, hkept⟩
    obtain ⟨key, hkey⟩ := (hitem (e.section, i)).mpr ⟨p, hp⟩
    exact ⟨key, _, hkey, hthing⟩

end Collect

end AlderpointDNS.Importer
