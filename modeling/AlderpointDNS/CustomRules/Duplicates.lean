import AlderpointDNS.CustomRules.Store
import AlderpointDNS.CustomRules.ActiveRules
import AlderpointDNS.Lib.Tables

/-!
# Skipping duplicates

`insertRule` skips a rule when one with its normalized text and action is stored.  By
`NormalForm.unique` the skipped rule has the effect of the stored one, but not always its
priority: `$important` is not part of the normalized text.  This file says when skipping loses
nothing.

* **`NoUpgrade`** — no rule has a higher priority than the first rule of its key.
* **`byPriority_firsts`** — then leaving out duplicates and sorting commute.
* **`keepsEffects_iff`** — a table filled from empty compiles to the policy of all parsed rules,
  and every duplicate is covered by its stored rule, exactly under `NoUpgrade`.
-/

namespace AlderpointDNS

open Text

/-! ## Rules with the same key -/

/-- A valid rule that is not a comment. -/
def ParsedRule.hasEffect (r : ParsedRule) : Bool :=
  r.validationState = .valid && r.ruleType ≠ .comment

theorem sameKey_iff {r s : ParsedRule} :
    sameKey r s = true ↔ s.normalized = r.normalized ∧ s.action = r.action := by
  simp [sameKey]

theorem sameKey_self (r : ParsedRule) : sameKey r r = true := sameKey_iff.mpr ⟨rfl, rfl⟩

/-- Two rules of one key have the same rules of their key. -/
theorem sameKey_congr {r s : ParsedRule} (h : sameKey r s = true) : sameKey r = sameKey s := by
  obtain ⟨h1, h2⟩ := sameKey_iff.mp h
  funext t
  simp only [sameKey, h1, h2]

/-! ## The first rule of each key -/

theorem firsts_concat (l : List ParsedRule) (r : ParsedRule) :
    firsts (l ++ [r]) = keepFirst (firsts l) r := by
  rw [firsts, List.foldl_append]
  rfl

theorem any_keepFirst (kept : List ParsedRule) (r s : ParsedRule) :
    (keepFirst kept r).any (sameKey s) = (kept.any (sameKey s) || sameKey s r) := by
  unfold keepFirst
  split_ifs with h
  · by_cases hs : sameKey s r = true
    · rw [hs, Bool.or_true, sameKey_congr hs, h]
    · simp [hs]
  · simp

theorem any_firsts (l : List ParsedRule) (s : ParsedRule) :
    (firsts l).any (sameKey s) = l.any (sameKey s) := by
  induction l using List.reverseRecOn with
  | nil => rfl
  | append_singleton l r ih => rw [firsts_concat, any_keepFirst, ih]; simp

theorem firsts_concat' (l : List ParsedRule) (r : ParsedRule) :
    firsts (l ++ [r]) = if l.any (sameKey r) then firsts l else firsts l ++ [r] := by
  rw [firsts_concat, keepFirst, any_firsts]

/-- Skipping duplicates does not change which rule of a key comes first. -/
theorem find?_firsts (l : List ParsedRule) (s : ParsedRule) :
    (firsts l).find? (sameKey s) = l.find? (sameKey s) := by
  induction l using List.reverseRecOn with
  | nil => rfl
  | append_singleton l r ih =>
      rw [firsts_concat', List.find?_append, ← ih]
      split_ifs with h
      · by_cases hs : sameKey s r = true
        · have hany : (firsts l).any (sameKey s) = true := by
            rw [any_firsts, sameKey_congr hs, h]
          cases hf : (firsts l).find? (sameKey s) with
          | some t => rfl
          | none =>
              rw [List.find?_eq_none] at hf
              obtain ⟨t, ht, hst⟩ := List.any_eq_true.mp hany
              exact absurd hst (hf t ht)
        · simp [hs]
      · rw [List.find?_append]

/-- Skipping duplicates commutes with a filter that keeps or drops keys as a whole. -/
theorem filter_firsts {l : List ParsedRule} {p : ParsedRule → Bool}
    (hp : ∀ r ∈ l, ∀ s ∈ l, p r = true → sameKey r s = true → p s = true) :
    (firsts l).filter p = firsts (l.filter p) := by
  induction l using List.reverseRecOn with
  | nil => rfl
  | append_singleton l r ih =>
      have ih' := ih fun a ha b hb => hp a (List.mem_append_left _ ha) b (List.mem_append_left _ hb)
      by_cases hr : p r = true
      · have hany : (l.filter p).any (sameKey r) = l.any (sameKey r) := by
          rw [Bool.eq_iff_iff, List.any_eq_true, List.any_eq_true]
          constructor
          · rintro ⟨s, hs, hrs⟩
            exact ⟨s, (List.mem_filter.mp hs).1, hrs⟩
          · rintro ⟨s, hs, hrs⟩
            refine ⟨s, List.mem_filter.mpr ⟨hs, ?_⟩, hrs⟩
            exact hp r (by simp) s (List.mem_append_left _ hs) hr hrs
        rw [List.filter_append, List.filter_singleton, hr, cond_true, firsts_concat',
          firsts_concat', hany, ← ih']
        split_ifs
        · rfl
        · simp [hr]
      · rw [List.filter_append, List.filter_singleton, firsts_concat']
        split_ifs <;> simp [hr, ih']

/-! ## The compile order -/

/-- Put a rule behind all rules of at least its priority. -/
def insertBehind (r : ParsedRule) (l : List ParsedRule) : List ParsedRule :=
  l.orderedInsert (fun x y => y.priority < x.priority) r

theorem byPriority_concat (l : List ParsedRule) (r : ParsedRule) :
    byPriority (l ++ [r]) = insertBehind r (byPriority l) := by
  have hcomm : ∀ (a : ParsedRule) (m : List ParsedRule),
      (insertBehind r m).orderedInsert (fun x y => y.priority ≤ x.priority) a
        = insertBehind r (m.orderedInsert (fun x y => y.priority ≤ x.priority) a) := by
    intro a m
    unfold insertBehind
    induction m with
    | nil => grind
    | cons b m ih => grind
  induction l with
  | nil => rfl
  | cons a l ih =>
      unfold byPriority at ih ⊢
      rw [List.cons_append, List.insertionSort_cons, ih, hcomm, List.insertionSort_cons]

theorem byPriority_sorted (l : List ParsedRule) :
    (byPriority l).Pairwise fun x y => y.priority ≤ x.priority :=
  List.pairwise_insertionSort _ l

@[simp] theorem mem_byPriority {l : List ParsedRule} {r : ParsedRule} :
    r ∈ byPriority l ↔ r ∈ l :=
  List.mem_insertionSort _

theorem orderedInsert_of_forall {a : ParsedRule} {m : List ParsedRule}
    (h : ∀ b ∈ m, b.priority ≤ a.priority) :
    m.orderedInsert (fun x y => y.priority ≤ x.priority) a = a :: m := by
  cases m with
  | nil => rfl
  | cons b m => exact List.orderedInsert_cons_of_le _ _ (h b List.mem_cons_self)

/-- Inserting into a sorted list commutes with a filter. -/
theorem filter_orderedInsert (a : ParsedRule) {m : List ParsedRule} (p : ParsedRule → Bool)
    (hm : m.Pairwise fun x y => y.priority ≤ x.priority) :
    (m.orderedInsert (fun x y => y.priority ≤ x.priority) a).filter p
      = if p a then (m.filter p).orderedInsert (fun x y => y.priority ≤ x.priority) a
        else m.filter p := by
  induction m with
  | nil => cases h : p a <;> simp [h]
  | cons b m ih =>
      obtain ⟨hb, hm'⟩ := List.pairwise_cons.mp hm
      by_cases hab : b.priority ≤ a.priority
      · have hle : ∀ c ∈ b :: m, c.priority ≤ a.priority := by
          intro c hc
          rcases List.mem_cons.mp hc with rfl | hc
          · exact hab
          · exact (hb c hc).trans hab
        rw [orderedInsert_of_forall hle,
          orderedInsert_of_forall fun c hc => hle c (List.mem_filter.mp hc).1, List.filter_cons]
      · rw [List.orderedInsert_cons, if_neg hab, List.filter_cons, List.filter_cons, ih hm']
        by_cases hpa : p a = true <;> by_cases hpb : p b = true <;> simp [hpa, hpb, hab]

/-- Sorting by priority is stable, so it commutes with filters. -/
theorem byPriority_filter (l : List ParsedRule) (p : ParsedRule → Bool) :
    byPriority (l.filter p) = (byPriority l).filter p := by
  induction l with
  | nil => rfl
  | cons a l ih =>
      have hsort : byPriority (a :: l)
          = (byPriority l).orderedInsert (fun x y => y.priority ≤ x.priority) a := rfl
      rw [hsort, filter_orderedInsert a p (byPriority_sorted l), ← ih, List.filter_cons]
      split_ifs <;> rfl

/-! ### Sorting what is left after skipping -/

theorem any_insertBehind (r s : ParsedRule) (l : List ParsedRule) :
    (insertBehind r l).any (sameKey s) = (sameKey s r || l.any (sameKey s)) := by
  rw [insertBehind, (List.perm_orderedInsert _ r l).any_eq, List.any_cons]

/-- A rule of lower priority stays behind. -/
theorem insertBehind_concat_of_lt {r b : ParsedRule} (h : b.priority < r.priority)
    (kept : List ParsedRule) : insertBehind r (kept ++ [b]) = insertBehind r kept ++ [b] := by
  unfold insertBehind
  induction kept with
  | nil => simp [h]
  | cons c kept ih =>
      by_cases hc : c.priority < r.priority
      · simp [hc]
      · simp [hc, ih]

theorem insertBehind_of_forall {r : ParsedRule} {l : List ParsedRule}
    (h : ∀ b ∈ l, r.priority ≤ b.priority) : insertBehind r l = l ++ [r] := by
  unfold insertBehind
  induction l with
  | nil => rfl
  | cons b l ih =>
      rw [List.orderedInsert_cons, if_neg (by simpa using h b List.mem_cons_self),
        ih fun c hc => h c (List.mem_cons_of_mem _ hc), List.cons_append]

/-- A rule whose key is present with at least its priority adds nothing. -/
theorem foldl_insertBehind_of_covered {r : ParsedRule} {l : List ParsedRule}
    (hl : l.Pairwise fun x y => y.priority ≤ x.priority) (kept : List ParsedRule)
    (h : kept.any (sameKey r) = true ∨ ∃ s ∈ l, sameKey r s = true ∧ r.priority ≤ s.priority) :
    (insertBehind r l).foldl keepFirst kept = l.foldl keepFirst kept := by
  induction l generalizing kept with
  | nil =>
      rcases h with h | ⟨s, hs, -⟩
      · change keepFirst kept r = kept
        rw [keepFirst, if_pos h]
      · cases hs
  | cons b l ih =>
      obtain ⟨hb, hl'⟩ := List.pairwise_cons.mp hl
      by_cases hlt : b.priority < r.priority
      · -- the rule that covers `r` is not in the list, which is of lower priority throughout
        have hkept : kept.any (sameKey r) = true := by
          rcases h with h | ⟨s, hs, -, hle⟩
          · exact h
          · rcases List.mem_cons.mp hs with rfl | hs
            · omega
            · have := hb s hs
              omega
        rw [insertBehind, List.orderedInsert_cons, if_pos hlt, List.foldl_cons,
          keepFirst, if_pos hkept]
      · rw [insertBehind, List.orderedInsert_cons, if_neg hlt, List.foldl_cons, List.foldl_cons]
        refine ih hl' _ ?_
        rw [any_keepFirst]
        rcases h with h | ⟨s, hs, hrs, hle⟩
        · exact Or.inl (by rw [h, Bool.true_or])
        · rcases List.mem_cons.mp hs with rfl | hs
          · exact Or.inl (by rw [hrs, Bool.or_true])
          · exact Or.inr ⟨s, hs, hrs, hle⟩

theorem foldl_insertBehind_of_lt {r : ParsedRule} {l : List ParsedRule}
    (hl : ∀ b ∈ l, b.priority < r.priority) (hkey : l.any (sameKey r) = false)
    (kept : List ParsedRule) :
    l.foldl keepFirst (insertBehind r kept) = insertBehind r (l.foldl keepFirst kept) := by
  induction l generalizing kept with
  | nil => rfl
  | cons b l ih =>
      rw [List.any_cons, Bool.or_eq_false_iff] at hkey
      have hbr : sameKey b r = false := by
        by_contra h
        rw [Bool.not_eq_false] at h
        rw [← sameKey_congr h, sameKey_self] at hkey
        cases hkey.1
      have hstep : keepFirst (insertBehind r kept) b = insertBehind r (keepFirst kept b) := by
        unfold keepFirst
        rw [any_insertBehind, hbr, Bool.false_or]
        split_ifs
        · rfl
        · exact (insertBehind_concat_of_lt (hl b List.mem_cons_self) kept).symm
      rw [List.foldl_cons, List.foldl_cons, hstep]
      exact ih (fun c hc => hl c (List.mem_cons_of_mem _ hc)) hkey.2 _

/-- A rule with a new key takes its place among the kept ones. -/
theorem foldl_insertBehind_of_new {r : ParsedRule} {l : List ParsedRule}
    (hl : l.Pairwise fun x y => y.priority ≤ x.priority) (hkey : l.any (sameKey r) = false)
    (kept : List ParsedRule) (hkept : ∀ b ∈ kept, r.priority ≤ b.priority)
    (hnew : kept.any (sameKey r) = false) :
    (insertBehind r l).foldl keepFirst kept = insertBehind r (l.foldl keepFirst kept) := by
  induction l generalizing kept with
  | nil =>
      change keepFirst kept r = insertBehind r kept
      rw [keepFirst, hnew, insertBehind_of_forall hkept]
      rfl
  | cons b l ih =>
      obtain ⟨hb, hl'⟩ := List.pairwise_cons.mp hl
      by_cases hlt : b.priority < r.priority
      · have hlow : ∀ c ∈ b :: l, c.priority < r.priority := by
          intro c hc
          rcases List.mem_cons.mp hc with rfl | hc
          · exact hlt
          · exact (hb c hc).trans_lt hlt
        have hfirst : keepFirst kept r = insertBehind r kept := by
          rw [keepFirst, hnew, insertBehind_of_forall hkept]
          rfl
        have hins : insertBehind r (b :: l) = r :: b :: l := by
          rw [insertBehind, List.orderedInsert_cons, if_pos hlt]
        rw [hins, List.foldl_cons, hfirst]
        exact foldl_insertBehind_of_lt hlow hkey kept
      · have hins : insertBehind r (b :: l) = b :: insertBehind r l := by
          rw [insertBehind, List.orderedInsert_cons, if_neg hlt]
          rfl
        rw [List.any_cons, Bool.or_eq_false_iff] at hkey
        rw [hins, List.foldl_cons, List.foldl_cons]
        refine ih hl' hkey.2 _ ?_ ?_
        · intro c hc
          unfold keepFirst at hc
          split_ifs at hc
          · exact hkept c hc
          · rcases List.mem_append.mp hc with hc | hc
            · exact hkept c hc
            · rw [List.mem_singleton.mp hc]
              omega
        · rw [any_keepFirst, hnew, hkey.1, Bool.or_false]

/-! ## No upgrade by a duplicate -/

/-- No rule has a higher priority than the first rule of its key, rules kept inactive and
comments apart. -/
def NoUpgrade (rules : List ParsedRule) : Prop :=
  ∀ before r after, rules = before ++ r :: after → r.hasEffect = true →
    ∀ s, before.find? (sameKey r) = some s → r.priority ≤ s.priority

/-- Every rule is covered by the first rule of its key. -/
def DuplicatesCovered (rules : List ParsedRule) : Prop :=
  ∀ before r after, rules = before ++ r :: after → ∀ s, before.find? (sameKey r) = some s →
    s.effect = r.effect ∧ r.priority ≤ s.priority

/-- A rule with the key of an effective one has the same effect. -/
theorem effect_eq_of_sameKey {r s : ParsedRule} (hr : r.Parsed) (hs : s.Parsed)
    (heff : r.hasEffect = true) (hkey : sameKey r s = true) :
    s.hasEffect = true ∧ s.effect = r.effect := by
  obtain ⟨htext, haction⟩ := sameKey_iff.mp hkey
  simp only [ParsedRule.hasEffect, Bool.and_eq_true, decide_eq_true_eq] at heff
  cases hr with
  | inactive hv _ _ => exact absurd heff.1 hv
  | valid _ hnf =>
      -- only comments have no action, and an inactive rule has none either
      have hne : r.action ≠ .none := by
        intro h
        generalize he : r.effect = e at hnf
        rw [h] at hnf
        cases hnf
        exact heff.2 (congrArg RuleEffect.ruleType he)
      cases hs with
      | inactive _ _ ha => exact absurd (haction ▸ ha) hne
      | valid hv hnf' =>
          rw [haction, htext] at hnf'
          have heq := hnf'.unique hnf rfl
          refine ⟨?_, heq⟩
          have ht : s.ruleType = r.ruleType := congrArg RuleEffect.ruleType heq
          simp [ParsedRule.hasEffect, hv, ht, heff.2]

theorem NoUpgrade.of_append {l m : List ParsedRule} (h : NoUpgrade (l ++ m)) : NoUpgrade l := by
  rintro before r after rfl
  exact h before r (after ++ m) (by simp)

theorem NoUpgrade.covered {l : List ParsedRule} (h : NoUpgrade l)
    (heff : ∀ r ∈ l, r.hasEffect = true) (hparsed : ∀ r ∈ l, r.Parsed) : DuplicatesCovered l := by
  intro before r after hl s hs
  have hr : r ∈ l := by rw [hl]; simp
  have hs' : s ∈ l := by rw [hl]; exact List.mem_append_left _ (List.mem_of_find?_eq_some hs)
  exact ⟨(effect_eq_of_sameKey (hparsed r hr) (hparsed s hs') (heff r hr)
    (List.find?_some hs)).2, h before r after hl (heff r hr) s hs⟩

/-- In compile order every rule is covered: the earlier rule has the higher priority. -/
theorem covered_byPriority {l : List ParsedRule} (heff : ∀ r ∈ l, r.hasEffect = true)
    (hparsed : ∀ r ∈ l, r.Parsed) : DuplicatesCovered (byPriority l) := by
  intro before r after hl s hs
  have hmem : s ∈ before := List.mem_of_find?_eq_some hs
  have hr : r ∈ l := by rw [← mem_byPriority, hl]; simp
  have hs' : s ∈ l := by rw [← mem_byPriority, hl]; exact List.mem_append_left _ hmem
  have hsort := byPriority_sorted l
  rw [hl, List.pairwise_append] at hsort
  exact ⟨(effect_eq_of_sameKey (hparsed r hr) (hparsed s hs') (heff r hr)
    (List.find?_some hs)).2, hsort.2.2 s hmem r List.mem_cons_self⟩

/-- **Without upgrades, skipping duplicates and sorting by priority commute.** -/
theorem byPriority_firsts {l : List ParsedRule} (heff : ∀ r ∈ l, r.hasEffect = true)
    (h : NoUpgrade l) : byPriority (firsts l) = firsts (byPriority l) := by
  induction l using List.reverseRecOn with
  | nil => rfl
  | append_singleton l r ih =>
      have ih' := ih (fun a ha => heff a (List.mem_append_left _ ha)) h.of_append
      have hany : (byPriority l).any (sameKey r) = l.any (sameKey r) :=
        (List.perm_insertionSort _ l).any_eq
      rw [firsts_concat', byPriority_concat]
      by_cases hdup : l.any (sameKey r) = true
      · rw [if_pos hdup, ih']
        refine (foldl_insertBehind_of_covered (byPriority_sorted l) [] (Or.inr ?_)).symm
        cases hf : l.find? (sameKey r) with
        | none =>
            obtain ⟨t, ht, hrt⟩ := List.any_eq_true.mp hdup
            exact absurd hrt (List.find?_eq_none.mp hf t ht)
        | some s =>
            exact ⟨s, mem_byPriority.mpr (List.mem_of_find?_eq_some hf), List.find?_some hf,
              h l r [] rfl (heff r (by simp)) s hf⟩
      · rw [if_neg hdup, byPriority_concat, ih']
        rw [Bool.not_eq_true] at hdup
        exact (foldl_insertBehind_of_new (byPriority_sorted l) (hany.trans hdup) []
          (fun b hb => by cases hb) rfl).symm

/-- What a loop over the rules computes does not change when covered duplicates are skipped, if
the loop ignores a rule that a previous one covers. -/
theorem of_firsts {ν : Type} {of : List ParsedRule → ν} (add : ParsedRule → ν → ν)
    (happ : ∀ rs r, of (rs ++ [r]) = add r (of rs))
    (habs : ∀ rs r, ∀ s ∈ rs, s.effect = r.effect → r.priority ≤ s.priority →
      of (rs ++ [r]) = of rs)
    (p : RuleEffect → Bool) {l : List ParsedRule} (h : DuplicatesCovered l) :
    of ((firsts l).filter (p ·.effect)) = of (l.filter (p ·.effect)) := by
  induction l using List.reverseRecOn with
  | nil => rfl
  | append_singleton l r ih =>
      have ih' := ih (by
        rintro before s after rfl
        exact h before s (after ++ [r]) (by simp))
      rw [firsts_concat', List.filter_append]
      by_cases hp : p r.effect = true
      · rw [List.filter_singleton, hp, cond_true]
        by_cases hdup : l.any (sameKey r) = true
        · cases hf : l.find? (sameKey r) with
          | none =>
              obtain ⟨t, ht, hrt⟩ := List.any_eq_true.mp hdup
              exact absurd hrt (List.find?_eq_none.mp hf t ht)
          | some s =>
              obtain ⟨heff, hprio⟩ := h l r [] rfl s hf
              rw [if_pos hdup, ih', habs _ r s ?_ heff hprio]
              exact List.mem_filter.mpr ⟨List.mem_of_find?_eq_some hf, by rw [heff, hp]⟩
        · rw [if_neg hdup, List.filter_append, List.filter_singleton, hp, cond_true, happ, happ,
            ih']
      · rw [List.filter_singleton]
        split_ifs <;> simp [hp, ih']

/-! ## The compiled entries -/

theorem flagsOf_absorb (rs : List ParsedRule) (r s : ParsedRule) (hs : s ∈ rs)
    (heff : s.effect = r.effect) (hprio : r.priority ≤ s.priority) :
    flagsOf (rs ++ [r]) = flagsOf rs := by
  have hne : rs ≠ [] := List.ne_nil_of_mem hs
  have hsub : s.matchSubdomains = r.matchSubdomains := congrArg RuleEffect.matchSubdomains heff
  have hmax : s.priority ≤ (rs.map (·.priority)).foldl max 0 :=
    le_foldl_max (List.mem_map_of_mem hs)
  have hany : ∀ f : Bool → Bool, ((rs ++ [r]).any fun q => f q.matchSubdomains)
      = rs.any fun q => f q.matchSubdomains := by
    intro f
    rw [List.any_append, List.any_cons, List.any_nil, Bool.or_false, Bool.or_eq_left_iff_imp,
      ← hsub]
    exact fun h => List.any_eq_true.mpr ⟨s, hs, h⟩
  have h1 := hany fun b => !b
  have h2 := hany id
  simp only [id] at h2
  simp only [flagsOf, hne, List.append_eq_nil_iff, false_and, if_false, h1, h2, List.map_append,
    List.map_singleton, List.foldl_append, List.foldl_cons, List.foldl_nil]
  rw [Nat.max_eq_left (hprio.trans hmax)]

theorem rewriteOf_absorb (rs : List ParsedRule) (r s : ParsedRule) (hs : s ∈ rs)
    (heff : s.effect = r.effect) : rewriteOf (rs ++ [r]) = rewriteOf rs := by
  have hne : rs ≠ [] := List.ne_nil_of_mem hs
  simp only [ParsedRule.effect, RuleEffect.mk.injEq] at heff
  obtain ⟨-, -, hsub, -, haddr, hfam⟩ := heff
  have hfirst : ∀ v4, firstAddress v4 (rs ++ [r]) = firstAddress v4 rs := by
    intro v4
    unfold firstAddress
    rw [List.find?_append]
    cases hf : rs.find? fun r => (r.addressFamily = some .ipv4) = v4 && r.rewriteAddress.isSome with
    | some q => rfl
    | none =>
        have := List.find?_eq_none.mp hf s hs
        rw [haddr, hfam] at this
        simp only [Option.none_or, List.find?_cons, this, List.find?_nil]
  have hany : (rs ++ [r]).any (·.matchSubdomains) = rs.any (·.matchSubdomains) := by
    rw [List.any_append, List.any_cons, List.any_nil, Bool.or_false, Bool.or_eq_left_iff_imp,
      ← hsub]
    exact fun h => List.any_eq_true.mpr ⟨s, hs, h⟩
  simp only [rewriteOf, hne, List.append_eq_nil_iff, false_and, if_false, hfirst, hany]

/-- The distinct patterns of some rules, in order. -/
def distinctPatterns (rs : List ParsedRule) : List Str := (rs.flatMap (·.pattern.toList)).eraseDups

theorem distinctPatterns_append (rs : List ParsedRule) (r : ParsedRule) :
    distinctPatterns (rs ++ [r])
      = distinctPatterns rs ++ (r.pattern.toList.removeAll (distinctPatterns rs)).eraseDups := by
  have hmem : r.pattern.toList.removeAll (rs.flatMap (·.pattern.toList))
      = r.pattern.toList.removeAll (distinctPatterns rs) := by
    refine List.filter_congr fun p _ => ?_
    simp [distinctPatterns]
  rw [← hmem]
  simp [distinctPatterns, List.eraseDups_append]

theorem distinctPatterns_absorb (rs : List ParsedRule) (r s : ParsedRule) (hs : s ∈ rs)
    (heff : s.effect = r.effect) : distinctPatterns (rs ++ [r]) = distinctPatterns rs := by
  have hpat : s.pattern = r.pattern := congrArg RuleEffect.pattern heff
  have hnil : r.pattern.toList.removeAll (distinctPatterns rs) = [] := by
    refine List.filter_eq_nil_iff.mpr fun p hp => ?_
    have : p ∈ distinctPatterns rs := by
      rw [distinctPatterns, List.mem_eraseDups, List.mem_flatMap]
      exact ⟨s, hs, hpat ▸ hp⟩
    simpa using this
  rw [distinctPatterns_append, hnil]
  simp

/-- Two rule sets that answer alike: the same entries, and the same distinct patterns in the
same order. -/
structure SameRuleSet (active active' : ActiveRuleSet) : Prop where
  entries : ∀ x, active.at x = active'.at x
  regexAllow : active.regexAllow.eraseDups = active'.regexAllow.eraseDups
  regexBlock : active.regexBlock.eraseDups = active'.regexBlock.eraseDups

/-- `collect_active` of rules that are all stored, valid and enabled. -/
def compileRules (rules : List ParsedRule) : ActiveRuleSet :=
  resolveConflicts (collectRows (rules.filter (·.validationState = .valid)))

/-- Rules with the same entries and patterns before conflicts are resolved. -/
theorem sameRuleSet_of {rules rules' : List ParsedRule}
    (hentries : ∀ x, entriesOf rules x = entriesOf rules' x)
    (hpatterns : ∀ t ≠ RuleType.comment,
      distinctPatterns ((byPriority rules).filter (·.ruleType = t))
        = distinctPatterns ((byPriority rules').filter (·.ruleType = t))) :
    SameRuleSet (resolveConflicts (collectRows rules)) (resolveConflicts (collectRows rules')) where
  entries x := by
    rw [resolveConflicts_collectRows_at, resolveConflicts_collectRows_at, hentries]
  regexAllow := by
    rw [(resolveConflicts_regex _).1, (resolveConflicts_regex _).1, collectRows_regexAllow,
      collectRows_regexAllow]
    exact hpatterns .regexAllow (by decide)
  regexBlock := by
    rw [(resolveConflicts_regex _).2, (resolveConflicts_regex _).2, collectRows_regexBlock,
      collectRows_regexBlock]
    exact hpatterns .regexBlock (by decide)

theorem SameRuleSet.trans {s t u : ActiveRuleSet} (h : SameRuleSet s t) (h' : SameRuleSet t u) :
    SameRuleSet s u :=
  ⟨fun x => (h.entries x).trans (h'.entries x), h.regexAllow.trans h'.regexAllow,
    h.regexBlock.trans h'.regexBlock⟩

theorem SameRuleSet.symm {s t : ActiveRuleSet} (h : SameRuleSet s t) : SameRuleSet t s :=
  ⟨fun x => (h.entries x).symm, h.regexAllow.symm, h.regexBlock.symm⟩

/-- Skipping covered duplicates does not change the compiled policy. -/
theorem sameRuleSet_firsts {rules : List ParsedRule} (heff : ∀ r ∈ rules, r.hasEffect = true)
    (hparsed : ∀ r ∈ rules, r.Parsed) (h : NoUpgrade rules) :
    SameRuleSet (resolveConflicts (collectRows (firsts rules)))
      (resolveConflicts (collectRows rules)) := by
  have hcov := h.covered heff hparsed
  have hcov' := covered_byPriority heff hparsed
  have hsort := byPriority_firsts heff h
  refine sameRuleSet_of (fun x => ?_) (fun t _ => ?_)
  · have hflags : ∀ t, flagsOf (rulesAt t x (firsts rules)) = flagsOf (rulesAt t x rules) :=
      fun t => of_firsts (fun r v => some ((v.getD {}).add r)) flagsOf_append flagsOf_absorb
        (fun e => e.ruleType = t && e.domain = some x) hcov
    have hrewrite : rewriteOf (rulesAt .rewrite x (firsts (byPriority rules)))
        = rewriteOf (rulesAt .rewrite x (byPriority rules)) :=
      of_firsts (fun r v => some ((v.getD {}).add r)) rewriteOf_append
        (fun rs r s hs heff _ => rewriteOf_absorb rs r s hs heff)
        (fun e => e.ruleType = .rewrite && e.domain = some x) hcov'
    simp only [entriesOf, hsort, hrewrite, hflags]
  · rw [hsort]
    exact of_firsts
      (fun r v => v ++ (r.pattern.toList.removeAll v).eraseDups) distinctPatterns_append
      (fun rs r s hs heff _ => distinctPatterns_absorb rs r s hs heff) (fun e => e.ruleType = t)
      hcov'

/-- Comments compile to nothing. -/
theorem sameRuleSet_hasEffect {rules : List ParsedRule}
    (hvalid : ∀ r ∈ rules, r.validationState = .valid) :
    SameRuleSet (resolveConflicts (collectRows rules))
      (resolveConflicts (collectRows (rules.filter (·.hasEffect)))) := by
  have hfilter : ∀ (q : ParsedRule → Bool) (l : List ParsedRule),
      (∀ r ∈ l, r.validationState = .valid) → (∀ r, q r = true → r.ruleType ≠ .comment) →
      (l.filter (·.hasEffect)).filter q = l.filter q := by
    intro q l hl hq
    rw [List.filter_filter]
    refine List.filter_congr fun r hr => ?_
    cases h : q r with
    | false => rfl
    | true => simp [ParsedRule.hasEffect, hl r hr, hq r h]
  have hvalid' : ∀ r ∈ byPriority rules, r.validationState = .valid :=
    fun r hr => hvalid r (mem_byPriority.mp hr)
  refine (sameRuleSet_of (fun x => ?_) (fun t ht => ?_)).symm
  · have hne : ∀ t ≠ RuleType.comment, ∀ r : ParsedRule,
        (r.ruleType = t && r.domain = some x) = true → r.ruleType ≠ .comment := by
      intro t ht r hr
      simp only [Bool.and_eq_true, decide_eq_true_eq] at hr
      rwa [hr.1]
    unfold entriesOf rulesAt
    rw [byPriority_filter, hfilter _ _ hvalid' (hne .rewrite (by decide)),
      hfilter _ _ hvalid (hne .allow (by decide)), hfilter _ _ hvalid (hne .block (by decide))]
  · rw [byPriority_filter, hfilter _ _ hvalid' fun r hr => by rw [decide_eq_true_eq.mp hr]; exact ht]

/-- Nor does the text of a comment matter. -/
theorem sameRuleSet_core (rules : List ParsedRule) :
    SameRuleSet (resolveConflicts (collectRows (rules.map (·.core))))
      (resolveConflicts (collectRows rules)) := by
  have hsort : byPriority (rules.map (·.core)) = (byPriority rules).map (·.core) :=
    (List.map_insertionSort _ _ ParsedRule.core rules fun _ _ _ _ => Iff.rfl).symm
  refine sameRuleSet_of (fun x => ?_) (fun t _ => ?_)
  · have hrules : ∀ t l, rulesAt t x (l.map ParsedRule.core) = (rulesAt t x l).map (·.core) :=
      fun t l => List.filter_map
    have hflags : ∀ rs : List ParsedRule, flagsOf (rs.map (·.core)) = flagsOf rs := by
      intro rs
      simp [flagsOf, ParsedRule.core, Function.comp_def]
    have hrewrite : ∀ rs : List ParsedRule, rewriteOf (rs.map (·.core)) = rewriteOf rs := by
      intro rs
      simp only [rewriteOf, firstAddress, List.find?_map, List.any_map, List.map_eq_nil_iff,
        Option.bind_map]
      rfl
    simp only [entriesOf, hsort, hrules, hflags, hrewrite]
  · rw [hsort, List.filter_map, distinctPatterns, List.flatMap_map]
    rfl

/-! ## The table -/

section Table

variable (d : ParserData) (calls : List AddCall)

/-- The rules of a sequence of calls, in order, without de-duplication. -/
def parsedRules : List ParsedRule := (calls.flatMap (·.insertions d)).map (·.rule.1)

/-- The table a sequence of calls makes of an empty one. -/
def tableAfter : List StoredRule := calls.foldl (addCall d) []

theorem parsedRules_parsed : ∀ r ∈ parsedRules d calls, r.Parsed := by
  intro r hr
  obtain ⟨i, hi, rfl⟩ := List.mem_map.mp hr
  exact insertions_parsed hi

theorem tableAfter_holds : Holds (tableAfter d calls) (firsts (parsedRules d calls)) := by
  rw [tableAfter, addCalls_eq]
  exact holds_firsts _

/-- The enabled valid rules of the table. -/
theorem activeRules_of_holds {rows : List StoredRule} {kept : List ParsedRule}
    (h : Holds rows kept) : (activeRules rows).map (·.core)
      = (kept.filter (·.validationState = .valid)).map (·.core) := by
  have hfilter : rows.filter (·.isActive) = rows.filter (·.validationState = .valid) := by
    refine List.filter_congr fun row hrow => ?_
    rw [StoredRule.isActive, h.enabled row hrow, Bool.and_self]
  have hcore : ∀ l : List ParsedRule, (l.map (·.core)).filter (·.validationState = .valid)
      = (l.filter (·.validationState = .valid)).map (·.core) := fun l => List.filter_map
  rw [← hcore, ← h.core, activeRules, hfilter, List.filter_map, List.map_map]
  rfl

/-- The rules with an effect, in order. -/
def effectiveRules : List ParsedRule := (parsedRules d calls).filter (·.hasEffect)

theorem effectiveRules_parsed : ∀ r ∈ effectiveRules d calls, r.Parsed :=
  fun r hr => parsedRules_parsed d calls r (List.mem_filter.mp hr).1

theorem effectiveRules_hasEffect : ∀ r ∈ effectiveRules d calls, r.hasEffect = true :=
  fun _ hr => (List.mem_filter.mp hr).2

theorem firsts_effectiveRules :
    (firsts (parsedRules d calls)).filter (·.hasEffect) = firsts (effectiveRules d calls) := by
  refine filter_firsts fun r hr s hs heff hkey => ?_
  exact (effect_eq_of_sameKey (parsedRules_parsed d calls r hr) (parsedRules_parsed d calls s hs)
    heff hkey).1

theorem filter_hasEffect (rules : List ParsedRule) :
    (rules.filter (·.validationState = .valid)).filter (·.hasEffect)
      = rules.filter (·.hasEffect) := by
  rw [List.filter_filter]
  refine List.filter_congr fun r _ => ?_
  by_cases h : r.validationState = .valid <;> simp [ParsedRule.hasEffect, h]

/-- Compiling looks at the rules with an effect only. -/
theorem compileRules_hasEffect (rules : List ParsedRule) :
    SameRuleSet (compileRules rules)
      (resolveConflicts (collectRows (rules.filter (·.hasEffect)))) := by
  have h := @sameRuleSet_hasEffect (rules.filter (·.validationState = .valid))
    fun r hr => by simpa using (List.mem_filter.mp hr).2
  rwa [filter_hasEffect] at h

/-- The table compiles to the policy of the first rule of each key. -/
theorem collectActive_tableAfter : SameRuleSet (collectActive (tableAfter d calls))
    (resolveConflicts (collectRows (firsts (effectiveRules d calls)))) := by
  have hcore := sameRuleSet_core (activeRules (tableAfter d calls))
  rw [activeRules_of_holds (tableAfter_holds d calls)] at hcore
  have hfirsts := compileRules_hasEffect (firsts (parsedRules d calls))
  rw [firsts_effectiveRules] at hfirsts
  exact hcore.symm.trans ((sameRuleSet_core _).trans hfirsts)

theorem NoUpgrade.effective (h : NoUpgrade (parsedRules d calls)) :
    NoUpgrade (effectiveRules d calls) := by
  intro before r after hsplit heff s hs
  obtain ⟨before', rest, hrules, rfl, hrest⟩ := List.filter_eq_append_iff.mp hsplit
  obtain ⟨skipped, after', rfl, hskip, -, -⟩ := List.filter_eq_cons_iff.mp hrest
  have hparsed := parsedRules_parsed d calls
  rw [hrules] at hparsed
  have hr : r.Parsed := hparsed r (by simp)
  have hkeep : ∀ t ∈ before', sameKey r t = true → t.hasEffect = true := by
    intro t ht hkey
    exact (effect_eq_of_sameKey hr (hparsed t (List.mem_append_left _ ht)) heff hkey).1
  refine h (before' ++ skipped) r after' (by simp [hrules]) heff s ?_
  have hfind : before'.find? (sameKey r) = some s := by
    rw [← hs, ← List.head?_filter, ← List.head?_filter, List.filter_filter]
    refine congrArg List.head? (List.filter_congr fun t ht => ?_)
    cases hkey : sameKey r t with
    | false => rfl
    | true => rw [hkeep t ht hkey, Bool.and_self]
  rw [List.find?_append, hfind, Option.some_or]

/-- The row a rule is a duplicate of is the first rule of its key. -/
theorem findDuplicate_insertions (insertions : List Insertion) (r : ParsedRule) :
    (findDuplicate (insertions.foldl insertOne []) r.normalized r.action).map (·.toParsedRule.core)
      = ((insertions.map (·.rule.1)).find? (sameKey r)).map (·.core) := by
  have hcore : ∀ l : List ParsedRule, (l.find? (sameKey r)).map (·.core)
      = (l.map (·.core)).find? (sameKey r) := by
    intro l
    rw [List.find?_map]
    rfl
  rw [← find?_firsts, hcore, ← (holds_firsts insertions).core, findDuplicate_eq, List.find?_map]
  rfl

/-- Storing loses nothing: the table compiles to the policy of all the parsed valid rules, and
a rule with an effect that is reported as a duplicate has the effect of the stored row, and no
higher priority. -/
structure KeepsEffects : Prop where
  sameRuleSet : SameRuleSet (collectActive (tableAfter d calls))
    (compileRules (parsedRules d calls))
  duplicate : ∀ before i after, calls.flatMap (·.insertions d) = before ++ i :: after →
    ∀ row, findDuplicate (before.foldl insertOne []) i.rule.1.normalized i.rule.1.action
      = some row → i.rule.1.hasEffect = true →
    row.effect = i.rule.1.effect ∧ i.rule.1.priority ≤ row.priority

/-- **Storing loses nothing exactly when no duplicate upgrades the priority.** -/
theorem keepsEffects_iff : KeepsEffects d calls ↔ NoUpgrade (parsedRules d calls) := by
  constructor
  · intro h before r after hsplit heff s hs
    obtain ⟨before', rest, hins, rfl, hrest⟩ := List.map_eq_append_iff.mp hsplit
    obtain ⟨i, after', rfl, rfl, -⟩ := List.map_eq_cons_iff.mp hrest
    have hdup := findDuplicate_insertions before' i.rule.1
    rw [hs, Option.map_some, Option.map_eq_some_iff] at hdup
    obtain ⟨row, hrow, hcore⟩ := hdup
    have hprio : row.priority = s.priority := (congrArg ParsedRule.priority hcore :)
    rw [← hprio]
    exact (h.duplicate before' i after' hins row hrow heff).2
  · intro h
    refine ⟨?_, ?_⟩
    · have hfirsts := sameRuleSet_firsts (effectiveRules_hasEffect d calls)
        (effectiveRules_parsed d calls) (NoUpgrade.effective d calls h)
      exact ((collectActive_tableAfter d calls).trans hfirsts).trans
        (compileRules_hasEffect (parsedRules d calls)).symm
    · intro before i after hins row hrow heff
      have hdup := findDuplicate_insertions before i.rule.1
      rw [hrow, Option.map_some, eq_comm, Option.map_eq_some_iff] at hdup
      obtain ⟨s, hs, hcore⟩ := hdup
      have hrules : parsedRules d calls
          = before.map (·.rule.1) ++ i.rule.1 :: after.map (·.rule.1) := by
        rw [parsedRules, hins, List.map_append, List.map_cons]
      have hparsed := parsedRules_parsed d calls
      rw [hrules] at hparsed
      have hs' : s.Parsed := hparsed s (List.mem_append_left _ (List.mem_of_find?_eq_some hs))
      have heq := (effect_eq_of_sameKey (hparsed i.rule.1 (by simp)) hs' heff
        (List.find?_some hs)).2
      have heffect : row.effect = s.effect := (congrArg ParsedRule.effect hcore :).symm
      have hprio : row.priority = s.priority := (congrArg ParsedRule.priority hcore :).symm
      rw [heffect, hprio]
      exact ⟨heq, h _ _ _ hrules heff s hs⟩

end Table

/-! ### A block that becomes important

`||x.com^`, then its exception, then the block again with `$important`.  The last one is reported
as a duplicate of the first, so the exception keeps winning. -/

/-- The parser on ASCII text with patterns that compile. -/
def asciiParserData : ParserData where
  lower s := s.map Char.toLower
  idna s := some s
  upper s := s.map Char.toUpper
  isAlnum _ := false
  compileError _ := none

def importantLater : AddCall where
  bulk := true
  text := "||x.com^\n@@||x.com^\n||x.com^$important".toList
  sourceSystem := "manual".toList
  comment := []
  plainDomainSubdomains := true

theorem important_lost :
    (collectActive (tableAfter asciiParserData [importantLater])).blocks.lookup "x.com".toList
      = none ∧
    ((compileRules (parsedRules asciiParserData [importantLater])).blocks.lookup
      "x.com".toList).isSome = true ∧
    ¬ KeepsEffects asciiParserData [importantLater] := by
  have htable : (collectActive (tableAfter asciiParserData [importantLater])).blocks.lookup
      "x.com".toList = none := by decide +kernel
  have hall : ((compileRules (parsedRules asciiParserData [importantLater])).blocks.lookup
      "x.com".toList).isSome = true := by decide +kernel
  refine ⟨htable, hall, fun h => ?_⟩
  have hblock : (collectActive (tableAfter asciiParserData [importantLater])).blocks.lookup
      "x.com".toList = (compileRules (parsedRules asciiParserData [importantLater])).blocks.lookup
      "x.com".toList := congrArg NameEntries.block (h.sameRuleSet.entries "x.com".toList)
  rw [← hblock, htable] at hall
  cases hall

end AlderpointDNS
