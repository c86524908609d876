import AlderpointDNS.CustomRules.Regex

/-!
# The tokens of a pattern

`tokens` splits a pattern into the pieces that Python's `re` and POSIX both see: escapes, bracket
expressions, parentheses, quantifiers and characters.  It is stated without the two scans of the
rule parser, so that what they let pass can be said about the pattern itself.
-/

namespace AlderpointDNS

open Text

/-- A piece of a pattern. -/
inductive RegexToken
  /-- A backslash and the character after it. -/
  | escape (c : Char)
  /-- A backslash at the end of the pattern. -/
  | backslash
  /-- A bracket expression, with what stands between the brackets. -/
  | bracket (body : Str)
  /-- An opening bracket that is never closed, with the rest of the pattern. -/
  | unclosed (rest : Str)
  | opening
  | closing
  /-- `*` or `+`. -/
  | star (c : Char)
  /-- A repetition bound in braces. -/
  | bound (body : Str)
  | question
  /-- An opening brace that starts no bound. -/
  | brace
  /-- `|`, `^` or `$`. -/
  | mark (c : Char)
  | char (c : Char)
  deriving DecidableEq, Repr

namespace RegexToken

/-- The repetitions `*`, `+` and a bound in braces. -/
def isRepeat : RegexToken → Bool
  | star _ | bound _ => true
  | _ => false

/-- The quantifiers: the repetitions and `?`. -/
def isQuantifier : RegexToken → Bool
  | star _ | bound _ | question => true
  | _ => false

/-- The atoms that are one token long. -/
def isAtom : RegexToken → Bool
  | escape _ | bracket _ | char _ => true
  | _ => false

end RegexToken

open RegexToken

/-! ## The lexer -/

/-- What may stand in the braces of a bound: `m`, `m,`, `,n` or `m,n`. -/
def isBoundBody (body : Str) : Bool :=
  body ≠ [] && match body.dropWhile Char.isDigit with
    | [] => true
    | c :: rest => c = ',' && rest.all Char.isDigit

/-- The bound that an opening brace starts, from the rest after the brace. -/
def boundBody (cs : Str) : Option Str :=
  let body := cs.takeWhile (· ≠ '\x7d')
  if cs.contains '\x7d' && isBoundBody body then some body else none

/-- The first token of `c :: cs`, and what follows it. -/
def nextToken (c : Char) (cs : Str) : RegexToken × Str :=
  if c = '\\' then
    match cs with
    | [] => (backslash, [])
    | e :: rest => (escape e, rest)
  else if c = '[' then
    match classEnd cs with
    | none => (unclosed cs, [])
    | some rest => (bracket (cs.take (cs.length - rest.length - 1)), rest)
  else if c = '(' then (opening, cs)
  else if c = ')' then (closing, cs)
  else if c = '*' || c = '+' then (star c, cs)
  else if c = '?' then (question, cs)
  else if c = '\x7b' then
    match boundBody cs with
    | none => (brace, cs)
    | some body => (bound body, cs.drop (body.length + 1))
  else if c = '|' || c = '^' || c = '$' then (mark c, cs)
  else (char c, cs)

/-! ### The first token, by cases -/

theorem classBody_eq {s rest : Str} (h : classBody s = some rest) :
    ∃ body, s = body ++ ']' :: rest := by
  fun_induction classBody s with
  | case1 => cases h
  | case2 => cases h
  | case3 c cs ih =>
      obtain ⟨body, rfl⟩ := ih h
      exact ⟨'\\' :: c :: body, rfl⟩
  | case4 =>
      cases h
      exact ⟨[], rfl⟩
  | case5 c cs _ _ ih =>
      obtain ⟨body, rfl⟩ := ih h
      exact ⟨c :: body, rfl⟩

theorem classEnd_eq {s rest : Str} (h : classEnd s = some rest) :
    ∃ body, s = body ++ ']' :: rest := by
  have hdrop : ∀ (c : Char) (t : Str), ∃ front : Str,
      t = front ++ if t.head? = some c then t.drop 1 else t := by
    intro c t
    by_cases hhead : t.head? = some c
    · exact ⟨t.take 1, by rw [if_pos hhead, List.take_append_drop]⟩
    · exact ⟨[], by rw [if_neg hhead, List.nil_append]⟩
  obtain ⟨front, hfront⟩ := hdrop '^' s
  obtain ⟨front', hfront'⟩ := hdrop ']' (if s.head? = some '^' then s.drop 1 else s)
  obtain ⟨body, hbody⟩ := classBody_eq h
  rw [hbody] at hfront'
  rw [hfront'] at hfront
  exact ⟨front ++ front' ++ body, by simpa using hfront⟩

theorem boundBody_eq {cs body : Str} (h : boundBody cs = some body) :
    cs = body ++ '\x7d' :: cs.drop (body.length + 1) ∧ isBoundBody body = true := by
  simp only [boundBody] at h
  split_ifs at h with hb
  cases h
  simp only [Bool.and_eq_true] at hb
  exact ⟨(takeWhile_cons_drop (List.contains_iff_mem.mp hb.1)).symm, hb.2⟩

/-- The characters that are not read as themselves. -/
def specialChars : List Char := ['\\', '[', '(', ')', '*', '+', '?', '\x7b', '|', '^', '$']

/-- What the lexer does at the start of a text, with what it has found out. -/
inductive Lexed : Char → Str → RegexToken × Str → Prop
  | escape (e : Char) (rest : Str) : Lexed '\\' (e :: rest) (escape e, rest)
  | backslash : Lexed '\\' [] (backslash, [])
  | bracket (body rest : Str) (h : classEnd (body ++ ']' :: rest) = some rest) :
      Lexed '[' (body ++ ']' :: rest) (bracket body, rest)
  | unclosed {cs : Str} (h : classEnd cs = none) : Lexed '[' cs (unclosed cs, [])
  | opening {cs : Str} : Lexed '(' cs (opening, cs)
  | closing {cs : Str} : Lexed ')' cs (closing, cs)
  | star {c : Char} {cs : Str} (h : c = '*' ∨ c = '+') : Lexed c cs (.star c, cs)
  | question {cs : Str} : Lexed '?' cs (question, cs)
  | bound (body rest : Str) (h : isBoundBody body = true) :
      Lexed '\x7b' (body ++ '\x7d' :: rest) (bound body, rest)
  | brace {cs : Str} : Lexed '\x7b' cs (brace, cs)
  | mark {c : Char} {cs : Str} (h : c = '|' ∨ c = '^' ∨ c = '$') : Lexed c cs (mark c, cs)
  | char {c : Char} {cs : Str} (h : c ∉ specialChars) : Lexed c cs (char c, cs)

/-- **`nextToken` by cases.** -/
theorem nextToken_spec (c : Char) (cs : Str) : Lexed c cs (nextToken c cs) := by
  unfold nextToken
  split_ifs with h1 h2 h3 h4 h5 h6 h7 h8
  · subst h1
    cases cs with
    | nil => exact .backslash
    | cons e rest => exact .escape e rest
  · subst h2
    cases hend : classEnd cs with
    | none => exact .unclosed hend
    | some rest =>
        obtain ⟨body, rfl⟩ := classEnd_eq hend
        have hlen : (body ++ ']' :: rest).length - rest.length - 1 = body.length := by
          simp only [List.length_append, List.length_cons]
          omega
        dsimp only
        rw [hlen, List.take_left]
        exact .bracket body rest hend
  · subst h3
    exact .opening
  · subst h4
    exact .closing
  · exact .star (by simpa using h5)
  · subst h6
    exact .question
  · subst h7
    cases hbody : boundBody cs with
    | none => exact .brace
    | some body =>
        obtain ⟨hcs, hbound⟩ := boundBody_eq hbody
        dsimp only
        generalize cs.drop (body.length + 1) = rest at hcs ⊢
        subst hcs
        exact .bound body rest hbound
  · exact .mark (by simpa [or_assoc] using h8)
  · refine .char ?_
    simp only [Bool.or_eq_true, decide_eq_true_eq, not_or] at h5 h8
    simp [specialChars, h1, h2, h3, h4, h5, h6, h7, h8]

theorem nextToken_length (c : Char) (cs : Str) : (nextToken c cs).2.length ≤ cs.length := by
  have hspec := nextToken_spec c cs
  generalize nextToken c cs = next at hspec
  cases hspec <;> simp <;> omega

/-- `?` is read as a token of its own. -/
theorem nextToken_eq_question {c : Char} {cs : Str} :
    (nextToken c cs).1 = question ↔ c = '?' := by
  have hspec := nextToken_spec c cs
  generalize nextToken c cs = next at hspec
  cases hspec with
  | star h => rcases h with rfl | rfl <;> simp
  | mark h => rcases h with rfl | rfl | rfl <;> simp
  | char h =>
      have hne : c ≠ '?' := by
        rintro rfl
        exact h (by decide)
      simpa using hne
  | _ => simp

/-- The repetitions start with `*`, `+` and a brace. -/
theorem nextToken_isRepeat {c : Char} {cs : Str} (hbrace : (nextToken c cs).1 ≠ brace) :
    (nextToken c cs).1.isRepeat = (c = '*' || c = '+' || c = '\x7b') := by
  have hspec := nextToken_spec c cs
  generalize nextToken c cs = next at hspec hbrace ⊢
  cases hspec with
  | star h => rcases h with rfl | rfl <;> rfl
  | mark h => rcases h with rfl | rfl | rfl <;> rfl
  | char h =>
      have hne : ∀ x ∈ specialChars, c ≠ x := fun x hx => ne_of_mem_of_not_mem hx h |>.symm
      simp [isRepeat, hne '*' (by decide), hne '+' (by decide), hne '\x7b' (by decide)]
  | brace => exact absurd rfl hbrace
  | _ => rfl

/-! ### All tokens -/

/-- The tokens of a pattern. -/
def tokens : Str → List RegexToken
  | [] => []
  | c :: cs => (nextToken c cs).1 :: tokens (nextToken c cs).2
termination_by s => s.length
decreasing_by exact Nat.lt_succ_of_le (nextToken_length c cs)

@[simp] theorem tokens_nil : tokens [] = [] := by rw [tokens]

theorem tokens_cons (c : Char) (cs : Str) :
    tokens (c :: cs) = (nextToken c cs).1 :: tokens (nextToken c cs).2 := by rw [tokens]

theorem head?_tokens_eq_question {s : Str} :
    (tokens s).head? = some question ↔ s.head? = some '?' := by
  cases s with
  | nil => simp
  | cons c cs => simp [tokens_cons, nextToken_eq_question]

theorem head?_tokens_isRepeat {s : Str} (hbrace : brace ∉ tokens s) :
    (tokens s).head?.any isRepeat = s.head?.any (fun c => c = '*' || c = '+' || c = '\x7b') := by
  cases s with
  | nil => simp
  | cons c cs =>
      rw [tokens_cons, List.mem_cons, not_or] at hbrace
      simpa [tokens_cons] using nextToken_isRepeat (Ne.symm hbrace.1)

theorem mem_of_isBoundBody {body : Str} (h : isBoundBody body = true) :
    ∀ c ∈ body, c.isDigit = true ∨ c = ',' := by
  intro c hc
  rw [← List.takeWhile_append_dropWhile (p := Char.isDigit) (l := body), List.mem_append] at hc
  simp only [isBoundBody, Bool.and_eq_true] at h
  rcases hc with hc | hc
  · exact .inl (List.mem_takeWhile_imp hc)
  · cases hdrop : body.dropWhile Char.isDigit with
    | nil => simp [hdrop] at hc
    | cons a rest =>
        simp only [hdrop, Bool.and_eq_true, decide_eq_true_eq, List.all_eq_true] at h hc
        rcases List.mem_cons.mp hc with rfl | hc
        · exact .inr h.2.1
        · exact .inl (h.2.2 c hc)

theorem not_mem_of_isBoundBody {body : Str} (h : isBoundBody body = true) :
    '\x7d' ∉ body := by
  intro hmem
  rcases mem_of_isBoundBody h _ hmem with hdigit | hcomma
  · exact absurd hdigit (by decide)
  · exact absurd hcomma (by decide)

end AlderpointDNS
