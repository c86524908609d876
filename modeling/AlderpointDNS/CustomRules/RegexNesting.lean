import AlderpointDNS.CustomRules.RegexPortable

/-!
# Repeated groups in a pattern

`quantifierScan` keeps a flag for each open group: has an atom been repeated in it.  Over tokens it
is `riskScan` (`quantifierScan_tokens`), as long as every brace belongs to a bound: the source
skips from any brace to the next closing one, and what stands between them is not scanned.

* `riskScan_balanced` — tokens whose parentheses match leave the stack below them as it is, and
  never take a flag away;
* **`not_repeatsGroup_of_valid`** — so no group that is repeated repeats an atom directly.  A
  repeated atom in a further group inside it is let pass (`deeper_repeat_passes`).
-/

namespace AlderpointDNS

open Text RegexToken

/-- Token lists whose parentheses match. -/
inductive Balanced : List RegexToken → Prop
  | nil : Balanced []
  | cons {t : RegexToken} {ts : List RegexToken} (hopen : t ≠ opening) (hclose : t ≠ closing)
      (h : Balanced ts) : Balanced (t :: ts)
  | group {inner ts : List RegexToken} (hinner : Balanced inner) (h : Balanced ts) :
      Balanced (opening :: inner ++ closing :: ts)

/-- The atoms of a pattern: a character, an escape, a bracket expression or a group, and these
with a question mark. -/
inductive Atom : List RegexToken → Prop
  | single {t : RegexToken} (h : t.isAtom = true) : Atom [t]
  | group {inner : List RegexToken} (h : Balanced inner) : Atom (opening :: inner ++ [closing])
  | question {atom : List RegexToken} (h : Atom atom) : Atom (atom ++ [question])

/-- An atom is repeated in `ts`, and not in a group of `ts`. -/
def DirectlyRepeats (ts : List RegexToken) : Prop :=
  ∃ front atom q back, ts = front ++ atom ++ q :: back ∧
    Balanced front ∧ Atom atom ∧ q.isRepeat = true ∧ Balanced back

/-- An atom is repeated in `ts`, in whatever groups it stands. -/
def Repeats (ts : List RegexToken) : Prop :=
  ∃ front atom q back, ts = front ++ atom ++ q :: back ∧ Atom atom ∧ q.isRepeat = true

/-- A group whose tokens satisfy `P` is repeated. -/
def RepeatsGroup (P : List RegexToken → Prop) (ts : List RegexToken) : Prop :=
  ∃ front inner q back, ts = front ++ (opening :: inner ++ [closing]) ++ q :: back ∧
    Balanced inner ∧ P inner ∧ q.isRepeat = true

/-! ### The scan over tokens -/

/-- The pop at a closing parenthesis. -/
def popGroup : List Bool → Bool × List Bool
  | risk :: group :: outer => (risk, group :: outer)
  | stack => (false, stack)

/-- `quantifierScan` over the tokens of a pattern. -/
def riskScan : List RegexToken → List Bool → Bool → Bool
  | [], _, _ => false
  | opening :: ts, stack, _ => riskScan ts (false :: stack) false
  | closing :: ts, stack, _ =>
      if ts.head?.any isRepeat && (popGroup stack).1 then true
      else riskScan ts (popGroup stack).2 true
  | .star _ :: ts, stack, last => riskScan ts (if last then markTop stack else stack) false
  | bound _ :: ts, stack, last => riskScan ts (if last then markTop stack else stack) false
  | mark _ :: ts, stack, _ => riskScan ts stack false
  | unclosed _ :: _, _, _ => false
  | _ :: ts, stack, _ => riskScan ts stack true

@[simp] theorem riskScan_nil (stack : List Bool) (last : Bool) :
    riskScan [] stack last = false := rfl

@[simp] theorem riskScan_opening (ts : List RegexToken) (stack : List Bool) (last : Bool) :
    riskScan (opening :: ts) stack last = riskScan ts (false :: stack) false := rfl

theorem riskScan_closing (ts : List RegexToken) (stack : List Bool) (last : Bool) :
    riskScan (closing :: ts) stack last
      = if ts.head?.any isRepeat && (popGroup stack).1 then true
        else riskScan ts (popGroup stack).2 true := rfl

theorem riskScan_star (c : Char) (ts : List RegexToken) (stack : List Bool) (last : Bool) :
    riskScan (.star c :: ts) stack last
      = riskScan ts (if last then markTop stack else stack) false := rfl

theorem riskScan_bound (body : Str) (ts : List RegexToken) (stack : List Bool) (last : Bool) :
    riskScan (bound body :: ts) stack last
      = riskScan ts (if last then markTop stack else stack) false := rfl

@[simp] theorem riskScan_backslash (ts : List RegexToken) (stack : List Bool) (last : Bool) :
    riskScan (backslash :: ts) stack last = riskScan ts stack true := rfl

theorem quantifierScan_closing (cs : Str) (stack : List Bool) (last : Bool) :
    (quantifierScan (')' :: cs) stack last).isSome
      = if cs.head?.any (fun c => c = '*' || c = '+' || c = '\x7b') && (popGroup stack).1 then true
        else (quantifierScan cs (popGroup stack).2 true).isSome := by
  rcases stack with _ | ⟨risk, _ | ⟨group, outer⟩⟩
  · rw [quantifierScan]
    · simp [popGroup]
    · simp
  · rw [quantifierScan]
    · simp [popGroup]
    · simp
  · rw [quantifierScan]
    rw [apply_ite Option.isSome]
    rfl

/-- The step at a character that starts no escape, no bracket expression and no group. -/
theorem quantifierScan_cons {c : Char} {cs : Str} {stack : List Bool} {last : Bool}
    (hc : c ∉ ['\\', '[', '(', ')']) :
    quantifierScan (c :: cs) stack last
      = if c = '*' || c = '+' then
          quantifierScan cs (if last then markTop stack else stack) false
        else if c = '\x7b' then
          if cs.contains '\x7d' then
            quantifierScan ((cs.dropWhile (· ≠ '\x7d')).drop 1)
              (if last then markTop stack else stack) false
          else quantifierScan cs stack false
        else if c = '|' || c = '^' || c = '$' then quantifierScan cs stack false
        else quantifierScan cs stack true := by
  simp only [List.mem_cons, List.not_mem_nil, or_false, not_or] at hc
  rw [quantifierScan]
  · exact hc.1
  · exact hc.2.1
  · exact hc.2.2.1
  · exact hc.2.2.2

/-- Where every brace belongs to a bound, the scan sees the tokens of the pattern. -/
theorem quantifierScan_tokens {s : Str} (hbrace : brace ∉ tokens s) (stack : List Bool)
    (last : Bool) :
    (quantifierScan s stack last).isSome = riskScan (tokens s) stack last := by
  fun_induction tokens s generalizing stack last with
  | case1 => simp [quantifierScan]
  | case2 c cs ih =>
      rw [List.mem_cons, not_or] at hbrace
      obtain ⟨hc, hrest⟩ := hbrace
      have hspec := nextToken_spec c cs
      generalize nextToken c cs = next at hc hrest ih hspec ⊢
      cases hspec with
      | escape e rest =>
          rw [quantifierScan]
          exact ih hrest stack true
      | backslash => simp [quantifierScan]
      | bracket body rest hend =>
          rw [quantifierScan, hend]
          exact ih hrest stack true
      | unclosed hend =>
          rw [quantifierScan, hend]
          rfl
      | opening =>
          rw [quantifierScan]
          exact ih hrest (false :: stack) false
      | closing =>
          rw [quantifierScan_closing, riskScan_closing, head?_tokens_isRepeat hrest]
          simp only [ih hrest]
      | @star c cs hstar =>
          have hother : c ∉ ['\\', '[', '(', ')'] := by rcases hstar with rfl | rfl <;> decide
          rw [quantifierScan_cons hother, if_pos (by simpa using hstar)]
          exact ih hrest _ false
      | question =>
          rw [quantifierScan_cons (by decide), if_neg (by decide), if_neg (by decide),
            if_neg (by decide)]
          exact ih hrest stack true
      | bound body rest hbound =>
          have hne : ∀ x ∈ body, decide (x ≠ '\x7d') = true := by
            intro x hx
            simpa using ne_of_mem_of_not_mem hx (not_mem_of_isBoundBody hbound)
          have hskip : ((body ++ '\x7d' :: rest).dropWhile (· ≠ '\x7d')).drop 1 = rest := by
            rw [List.dropWhile_append_of_pos hne]
            simp
          have hmem : (body ++ '\x7d' :: rest).contains '\x7d' = true := by simp
          rw [quantifierScan_cons (by decide), if_neg (by decide), if_pos rfl, if_pos hmem, hskip]
          exact ih hrest _ false
      | brace => exact absurd rfl hc
      | @mark c cs hmark =>
          have hother : c ∉ ['\\', '[', '(', ')'] := by rcases hmark with rfl | rfl | rfl <;> decide
          rw [quantifierScan_cons hother, if_neg (by rcases hmark with rfl | rfl | rfl <;> decide),
            if_neg (by rcases hmark with rfl | rfl | rfl <;> decide),
            if_pos (by simpa [or_assoc] using hmark)]
          exact ih hrest stack false
      | @char c cs hplain =>
          have hne : ∀ x ∈ specialChars, c ≠ x := fun x hx => (ne_of_mem_of_not_mem hx hplain).symm
          have hsub : ['\\', '[', '(', ')'] ⊆ specialChars := by decide
          rw [quantifierScan_cons fun hmem => hplain (hsub hmem),
            if_neg (by simp [hne '*' (by decide), hne '+' (by decide)]),
            if_neg (hne '\x7b' (by decide)),
            if_neg (by simp [hne '|' (by decide), hne '^' (by decide), hne '$' (by decide)])]
          exact ih hrest stack true

/-! ### Groups under the scan -/

/-- Matching parentheses leave the stack as it is, up to the flag of the group around them. -/
theorem riskScan_balanced {ts : List RegexToken} (h : Balanced ts)
    (hclosed : ∀ s, unclosed s ∉ ts) (rest : List RegexToken) (flag : Bool) (stack : List Bool)
    (last : Bool) :
    riskScan (ts ++ rest) (flag :: stack) last = true ∨
    ∃ flag' last', (flag = true → flag' = true) ∧
      riskScan (ts ++ rest) (flag :: stack) last = riskScan rest (flag' :: stack) last' := by
  induction h generalizing rest flag stack last with
  | nil => exact .inr ⟨flag, last, id, rfl⟩
  | @cons t ts hopen hclose h ih =>
      have hts : ∀ s, unclosed s ∉ ts := fun s hs => hclosed s (List.mem_cons_of_mem t hs)
      have hmark : ∀ flag' last', (flag = true → flag' = true) →
          riskScan (t :: ts ++ rest) (flag :: stack) last
            = riskScan (ts ++ rest) (flag' :: stack) last' →
          riskScan (t :: ts ++ rest) (flag :: stack) last = true ∨
          ∃ flag' last', (flag = true → flag' = true) ∧
            riskScan (t :: ts ++ rest) (flag :: stack) last
              = riskScan rest (flag' :: stack) last' := by
        intro flag' last' hflag heq
        rw [heq]
        rcases ih hts rest flag' stack last' with hrisk | ⟨flag'', last'', hflag', heq'⟩
        · exact .inl hrisk
        · exact .inr ⟨flag'', last'', fun h => hflag' (hflag h), heq'⟩
      cases t with
      | opening => exact absurd rfl hopen
      | closing => exact absurd rfl hclose
      | unclosed s => exact absurd List.mem_cons_self (hclosed s)
      | star c => cases last with
        | true => exact hmark true false (fun _ => rfl) rfl
        | false => exact hmark flag false id rfl
      | bound body => cases last with
        | true => exact hmark true false (fun _ => rfl) rfl
        | false => exact hmark flag false id rfl
      | mark c => exact hmark flag false id rfl
      | escape c => exact hmark flag true id rfl
      | backslash => exact hmark flag true id rfl
      | bracket body => exact hmark flag true id rfl
      | question => exact hmark flag true id rfl
      | brace => exact hmark flag true id rfl
      | char c => exact hmark flag true id rfl
  | @group inner ts hinner h ihinner ih =>
      have hin : ∀ s, unclosed s ∉ inner := fun s hs => hclosed s (by simp [hs])
      have hts : ∀ s, unclosed s ∉ ts := fun s hs => hclosed s (by simp [hs])
      have hstep : riskScan (opening :: inner ++ closing :: ts ++ rest) (flag :: stack) last
          = riskScan (inner ++ closing :: (ts ++ rest)) (false :: flag :: stack) false := by
        simp
      rw [hstep]
      rcases ihinner hin (closing :: (ts ++ rest)) false (flag :: stack) false with
        hrisk | ⟨flag', last', -, heq⟩
      · exact .inl hrisk
      · rw [heq, riskScan_closing]
        split_ifs
        · exact .inl rfl
        · exact ih hts rest flag stack true

/-- After an atom the scan may repeat it, and the flag of the group is as before. -/
theorem riskScan_atom {atom : List RegexToken} (h : Atom atom) (hclosed : ∀ s, unclosed s ∉ atom)
    (rest : List RegexToken) (flag : Bool) (stack : List Bool) (last : Bool) :
    riskScan (atom ++ rest) (flag :: stack) last = true ∨
    riskScan (atom ++ rest) (flag :: stack) last = riskScan rest (flag :: stack) true := by
  induction h generalizing rest with
  | @single t ht => cases t <;> first | exact .inr rfl | cases ht
  | @group inner hinner =>
      have hin : ∀ s, unclosed s ∉ inner := fun s hs => hclosed s (by simp [hs])
      have hstep : riskScan (opening :: inner ++ [closing] ++ rest) (flag :: stack) last
          = riskScan (inner ++ closing :: rest) (false :: flag :: stack) false := by
        simp
      rw [hstep]
      rcases riskScan_balanced hinner hin (closing :: rest) false (flag :: stack) false with
        hrisk | ⟨flag', last', -, heq⟩
      · exact .inl hrisk
      · rw [heq, riskScan_closing]
        split_ifs
        · exact .inl rfl
        · exact .inr rfl
  | @question atom hatom ih =>
      have hin : ∀ s, unclosed s ∉ atom := fun s hs => hclosed s (by simp [hs])
      rw [List.append_assoc]
      exact ih hin ([.question] ++ rest)

/-- The tokens before a group leave some stack behind. -/
theorem riskScan_front (front rest : List RegexToken) (hclosed : ∀ s, unclosed s ∉ front)
    (flag : Bool) (stack : List Bool) (last : Bool) :
    riskScan (front ++ rest) (flag :: stack) last = true ∨
    ∃ flag' stack' last', riskScan (front ++ rest) (flag :: stack) last
      = riskScan rest (flag' :: stack') last' := by
  induction front generalizing flag stack last with
  | nil => exact .inr ⟨flag, stack, last, rfl⟩
  | cons t front ih =>
      replace ih := ih fun s hs => hclosed s (List.mem_cons_of_mem t hs)
      have hmark : ∀ b : Bool, ∃ flag',
          (if b then markTop (flag :: stack) else flag :: stack) = flag' :: stack := by
        intro b
        cases b
        · exact ⟨flag, rfl⟩
        · exact ⟨true, rfl⟩
      have hpop : ∃ flag' stack', (popGroup (flag :: stack)).2 = flag' :: stack' := by
        cases stack with
        | nil => exact ⟨flag, [], rfl⟩
        | cons group outer => exact ⟨group, outer, rfl⟩
      cases t with
      | opening => exact ih false (flag :: stack) false
      | closing =>
          rw [List.cons_append, riskScan_closing]
          split_ifs
          · exact .inl rfl
          · obtain ⟨flag', stack', heq⟩ := hpop
            rw [heq]
            exact ih flag' stack' true
      | unclosed s => exact absurd List.mem_cons_self (hclosed s)
      | star c =>
          obtain ⟨flag', heq⟩ := hmark last
          rw [List.cons_append, riskScan_star, heq]
          exact ih flag' stack false
      | bound body =>
          obtain ⟨flag', heq⟩ := hmark last
          rw [List.cons_append, riskScan_bound, heq]
          exact ih flag' stack false
      | mark c => exact ih flag stack false
      | escape c => exact ih flag stack true
      | backslash => exact ih flag stack true
      | bracket body => exact ih flag stack true
      | question => exact ih flag stack true
      | brace => exact ih flag stack true
      | char c => exact ih flag stack true

/-- A repeated group that directly repeats an atom is found. -/
theorem riskScan_eq_true {ts : List RegexToken} (hclosed : ∀ s, unclosed s ∉ ts)
    (h : RepeatsGroup DirectlyRepeats ts) (flag : Bool) (stack : List Bool) (last : Bool) :
    riskScan ts (flag :: stack) last = true := by
  obtain ⟨before, inner, q, after, rfl, -, ⟨front, atom, q', back, rfl, hfront, hatom, hq', hback⟩,
    hq⟩ := h
  have hbefore : ∀ s, unclosed s ∉ before := fun s hs => hclosed s (by simp [hs])
  have hfront' : ∀ s, unclosed s ∉ front := fun s hs => hclosed s (by simp [hs])
  have hatom' : ∀ s, unclosed s ∉ atom := fun s hs => hclosed s (by simp [hs])
  have hback' : ∀ s, unclosed s ∉ back := fun s hs => hclosed s (by simp [hs])
  have hmark : ∀ rest flag stack, riskScan (q' :: rest) (flag :: stack) true
      = riskScan rest (true :: stack) false := by
    intro rest flag stack
    cases q' <;> first | rfl | cases hq'
  have hrepeat : ∀ flag stack last, riskScan (closing :: q :: after) (true :: flag :: stack) last
      = true := by
    intro flag stack last
    simp [riskScan_closing, popGroup, hq]
  simp only [List.append_assoc, List.cons_append, List.nil_append]
  -- the tokens before the group, then what stands before the atom in it
  rcases riskScan_front before _ hbefore flag stack last with
    hrisk | ⟨flag', stack', last', heq⟩
  · exact hrisk
  rw [heq, riskScan_opening]
  rcases riskScan_balanced hfront hfront' _ false (flag' :: stack') false with
    hrisk | ⟨flag₃, last₃, -, heq'⟩
  · exact hrisk
  rw [heq']
  -- the repeated atom marks the group, and nothing after it takes the mark away
  rcases riskScan_atom hatom hatom' _ flag₃ (flag' :: stack') last₃ with hrisk | heq₃
  · exact hrisk
  rw [heq₃, hmark]
  rcases riskScan_balanced hback hback' _ true (flag' :: stack') false with
    hrisk | ⟨marked, last₄, hmarked, heq₄⟩
  · exact hrisk
  rw [heq₄, hmarked rfl]
  exact hrepeat flag' stack' last₄

/-- In a pattern that is left valid, and whose braces all belong to bounds, no group that directly
repeats an atom is repeated. -/
theorem not_repeatsGroup_of_valid {d : ParserData} {rule : ParsedRule}
    (h : (validateRegex d rule).validationState = .valid)
    (hbrace : brace ∉ tokens (rule.pattern.getD [])) :
    ¬ RepeatsGroup DirectlyRepeats (tokens (rule.pattern.getD [])) := by
  intro hnested
  have hclosed : ∀ s, unclosed s ∉ tokens (rule.pattern.getD []) :=
    fun s hs => (portable_of_valid h).2 _ hs
  have hscan := quantifierScan_tokens hbrace [false] false
  rw [riskScan_eq_true hclosed hnested] at hscan
  have hnone := (validateRegex_valid h).2
  rw [nestedQuantifierRisk] at hnone
  simp [hnone] at hscan

theorem not_repeatsGroup_of_valid_alternatives :
    (validateRegex asciiParserData (regexBlockRule "(ads|b+)x\x7b2\x7d".toList)).validationState
      = .valid ∧
    brace ∉ tokens "(ads|b+)x\x7b2\x7d".toList ∧
    ¬ RepeatsGroup DirectlyRepeats (tokens "(ads|b+)x\x7b2\x7d".toList) := by
  have hvalid : (validateRegex asciiParserData
      (regexBlockRule "(ads|b+)x\x7b2\x7d".toList)).validationState = .valid := by decide +kernel
  have hbrace : brace ∉ tokens "(ads|b+)x\x7b2\x7d".toList := by decide +kernel
  exact ⟨hvalid, hbrace, not_repeatsGroup_of_valid hvalid hbrace⟩

/-- A repeated atom in a further group inside the repeated one is let pass. -/
theorem deeper_repeat_passes :
    ¬ ∀ (d : ParserData) (rule : ParsedRule), (validateRegex d rule).validationState = .valid →
      ¬ RepeatsGroup Repeats (tokens (rule.pattern.getD [])) := by
  intro h
  have hvalid : (validateRegex asciiParserData (regexBlockRule "((a+))+".toList)).validationState
      = .valid := by decide +kernel
  have htokens : tokens "((a+))+".toList
      = [opening, opening, .char 'a', .star '+', closing, closing, .star '+'] := by decide +kernel
  refine h asciiParserData (regexBlockRule "((a+))+".toList) hvalid ?_
  simp only [regexBlockRule, Option.getD_some, htokens]
  have hatom : Balanced [RegexToken.char 'a', .star '+'] :=
    .cons (by simp) (by simp) (.cons (by simp) (by simp) .nil)
  refine ⟨[], [opening, .char 'a', .star '+', closing], .star '+', [], rfl, .group hatom .nil, ?_,
    rfl⟩
  exact ⟨[opening], [.char 'a'], .star '+', [closing], rfl, .single rfl, rfl⟩

/-! A brace that starts no bound hides what follows it from the scan. -/

example : nestedQuantifierRisk "x\x7b(a+)+\x7d".toList = none := by decide +kernel

end AlderpointDNS
