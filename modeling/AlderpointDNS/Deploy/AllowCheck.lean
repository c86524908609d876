import AlderpointDNS.Deploy.Exceptions

/-!
# The allow check after a deployment

`validate_allow_domains` reads the compiled zone back as text: no allowed name may be in the block
set, and a custom allow must have its `rpz-passthru.` lines.  A rewrite next to the allow takes the
line of the bare name, so the check rests on the text of `*.name` containing the text of `name`.

* `passthru_infix` — an owner that passes has its line in the text;
* **`validateAllowDomains_ok`** — the check accepts whatever the same deployment compiled.
-/

namespace AlderpointDNS

open Text

/-! ## `validate_allow_domains` -/

structure AllowValidationResult where
  ok : Bool
  testedDomain : Option Str
  message : Str

/-- The end of a pass-through line. -/
def passthruSuffix : Str := " CNAME rpz-passthru.".toList

/-- `_custom_allow_represented`. -/
def customAllowRepresented (domain rpzText : Str) (active : ActiveRuleSet) : Bool :=
  match active.allows.lookup domain with
  | none => true
  | some allow =>
      let name := rpzName domain
      if (allow.exact || allow.subdomains) && !isSubstring (name ++ passthruSuffix) rpzText then false
      else if allow.subdomains && !isSubstring ("*.".toList ++ name ++ passthruSuffix) rpzText then
        false
      else true

/-- One name of the first loop: the result it ends the check with. -/
def allowMismatch (blocks : BlockSet) (active : ActiveRuleSet) (rpzText domain : Str) :
    Option AllowValidationResult :=
  if domain ∈ blocks then
    some ⟨false, some domain, "post-deploy allow-policy check failed: ".toList ++ domain
      ++ " is allow-listed but still present in the active block set".toList⟩
  else if customAllowRepresented domain rpzText active then none
  else
    some ⟨false, some domain,
      "post-deploy allow-policy check failed: custom allow rule for ".toList ++ domain
      ++ " is missing its rpz-passthru representation in the compiled policy".toList⟩

/-- The default of `max_live_checks`. -/
def maxLiveChecks : ℕ := 5

/-- `validate_allow_domains`; `resolvesNow` is `classify_dns`, usable and resolved. -/
def validateAllowDomains (resolvesNow : Str → Bool) (allowed : Finset Str) (blocks : BlockSet)
    (active : ActiveRuleSet) (rpzText : Str) : AllowValidationResult :=
  match (sortedSet allowed).findSome? (allowMismatch blocks active rpzText) with
  | some mismatch => mismatch
  | none =>
      match ((sortedSet allowed).take maxLiveChecks).find? resolvesNow with
      | some tested =>
          ⟨true, some tested, "allow-domain policy verified; ".toList ++ tested
            ++ " resolves normally".toList⟩
      | none =>
          ⟨true, none, ("allow-domain policy verified structurally; no live allow-domain "
            ++ "candidate could be confirmed resolving (non-fatal)").toList⟩

/-! ## The text of a zone -/

/-- Every line of the policy stands in the text. -/
theorem line_infix {serial : ℕ} {domains : BlockSet} {active : ActiveRuleSet} {l : RpzLine}
    (hl : l ∈ renderRpz domains active) : l.text <:+: renderRpzText serial domains active :=
  (infix_join (List.mem_append_right _ (List.mem_map_of_mem hl))).trans
    (List.prefix_append _ _).isInfix

/-- Record data that let a query through are a pass-through line. -/
theorem passthru_mem {rs : List Rdata} (h : verdictOf rs = some .unfiltered) :
    Rdata.passthru ∈ rs := by
  rw [verdictOf] at h
  split_ifs at h with hnil
  obtain ⟨r, hr⟩ := List.exists_mem_of_ne_nil rs hnil
  simp only [Outcome.ofRdatas, Option.some.injEq] at h
  split_ifs at h with hblock haddress
  rw [List.any_eq_true] at hblock haddress
  cases r with
  | passthru => exact hr
  | block => exact absurd ⟨_, hr, decide_eq_true rfl⟩ hblock
  | a addr => exact absurd ⟨_, hr, rfl⟩ haddress
  | aaaa addr => exact absurd ⟨_, hr, rfl⟩ haddress

theorem passthru_infix {serial : ℕ} {domains : BlockSet} {active : ActiveRuleSet} {o : Owner}
    (h : verdictOf (rdatasAt (renderRpz domains active) o) = some .unfiltered) :
    o.text ++ passthruSuffix <:+: renderRpzText serial domains active := by
  obtain ⟨l, hl, hrdata⟩ := List.mem_map.mp (passthru_mem h)
  obtain ⟨hmem, howner⟩ := List.mem_filter.mp hl
  have htext : l.text = o.text ++ passthruSuffix := by
    rw [RpzLine.text, hrdata, of_decide_eq_true howner]
    rfl
  exact htext ▸ line_infix hmem

/-! ## What the same deployment compiled -/

section

variable (table : List StoredRule) (external : BlockSet)

/-- The custom allows that are left after the conflicts are the ones the zone lets through: the
wildcard if the allow reaches the subdomains, else the name. -/
theorem verdict_of_allow {name : Str} {allow : FlagEntry}
    (h : (collectActive table).allows.lookup name = some allow) :
    (allow.subdomains = true →
        wildcardAnswer (activeRules table) external name = some .unfiltered) ∧
      (allow.exact = true → allow.subdomains = false →
        nameAnswer (activeRules table) external name = some .unfiltered) := by
  have hsub := allows_subdomains table name
  have hexact := (entries_proper table name).allowLeft.2.2.1
  rw [← lookup_allows, h, (entriesOf_verdicts _ name).1] at hexact
  rw [h, Option.any_some] at hsub
  constructor
  · intro hs
    rw [hs, eq_comm, decide_eq_true_eq] at hsub
    rw [wildcardAnswer, hsub, Option.some_or]
  · intro he hs
    rw [nameAnswer, hexact (by simp [he, hs]), Option.some_or]

/-- The text of the wildcard's line contains that of the name's line. -/
theorem customAllowRepresented_compiled (serial : ℕ) (domain : Str) :
    customAllowRepresented domain
      (renderRpzText serial (subtractAllowed external (collectActive table)) (collectActive table))
      (collectActive table) = true := by
  generalize htext : renderRpzText serial _ _ = text
  unfold customAllowRepresented
  cases hlookup : (collectActive table).allows.lookup domain with
  | none => rfl
  | some allow =>
      obtain ⟨hwild, hname⟩ := verdict_of_allow table external hlookup
      have hstands : allowStands (domainRules (activeRules table) domain) = true := by
        rw [← allows_isSome, hlookup, Option.isSome_some]
      have hrules : domainRules (activeRules table) domain ≠ [] := by
        intro hnil
        rw [hnil] at hstands
        exact Bool.noConfusion hstands
      have hmatch := emitted_matches table external (Or.inr hrules)
      have hline : ∀ o : Owner, verdictOf (rdatasAt (renderRpz (subtractAllowed external
          (collectActive table)) (collectActive table)) o) = some .unfiltered →
          o.text ++ passthruSuffix <:+: text := fun o ho => htext ▸ passthru_infix ho
      dsimp only
      rw [rpzName_eq hmatch]
      cases hs : allow.subdomains with
      | true =>
          have hstar : "*.".toList ++ domain ++ passthruSuffix <:+: text :=
            hline (.wildcard domain) ((zone_wildcard table external domain).trans (hwild hs))
          have hbare : domain ++ passthruSuffix <:+: text := by
            refine List.IsInfix.trans ?_ hstar
            rw [List.append_assoc]
            exact (List.suffix_append _ _).isInfix
          rw [← isSubstring_iff] at hstar hbare
          simp only [hbare, hstar, Bool.not_true, Bool.and_false, Bool.false_eq_true, if_false]
      | false =>
          cases he : allow.exact with
          | false => simp
          | true =>
              have hbare : domain ++ passthruSuffix <:+: text :=
                hline (.name domain) ((zone_name table external domain).trans (hname he hs))
              rw [← isSubstring_iff] at hbare
              simp only [hbare, Bool.not_true, Bool.and_false, Bool.false_and, Bool.false_eq_true,
                if_false]

end

/-- **The structural half of the check accepts what the same deployment compiled.** -/
theorem validateAllowDomains_ok (resolvesNow : Str → Bool) (d : ParserData) (files : SourceFiles)
    (sources : List BlocklistSource) (table : List StoredRule) (serial : ℕ) :
    (validateAllowDomains resolvesNow
      (collectAllows d files sources ∪ (collectActive table).allows.keys.toFinset)
      (subtractAllowed (collectRules d files sources) (collectActive table)) (collectActive table)
      (renderRpzText serial
        (subtractAllowed (collectRules d files sources) (collectActive table))
        (collectActive table))).ok = true := by
  have hnone : ∀ domain ∈ sortedSet
      (collectAllows d files sources ∪ (collectActive table).allows.keys.toFinset),
      allowMismatch (subtractAllowed (collectRules d files sources) (collectActive table))
        (collectActive table) (renderRpzText serial
          (subtractAllowed (collectRules d files sources) (collectActive table))
          (collectActive table)) domain = none := by
    intro domain hdomain
    rw [mem_sortedSet, Finset.mem_union, List.mem_toFinset] at hdomain
    have hblocks : domain ∉
        subtractAllowed (collectRules d files sources) (collectActive table) := by
      rw [mem_subtractAllowed, mem_collectRules]
      rintro ⟨⟨-, hlist⟩, hsurvives⟩
      have hcustom := hdomain.resolve_left hlist
      rw [Dict.mem_keys_iff, allows_isSome] at hcustom
      simp [survives, hcustom] at hsurvives
    rw [allowMismatch, if_neg hblocks, if_pos (customAllowRepresented_compiled _ _ _ _)]
  unfold validateAllowDomains
  rw [List.findSome?_eq_none_iff.mpr hnone]
  dsimp only
  split <;> rfl

end AlderpointDNS
