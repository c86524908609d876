import AlderpointDNS.Lib.Text

/-!
# The checks on a regex rule

`posixEreIncompatibility` and `nestedQuantifierRisk` scan a pattern once from left to right.
The index `i` of the source is the rest of the pattern here; `classEnd` is the rest after the
bracket expression that `_class_end` locates, and both scans recurse on shorter rests.
-/

namespace AlderpointDNS

open Text

/-- `MAX_REGEX_LENGTH`. -/
def maxRegexLength : ℕ := 512

/-- The loop of `_class_end`: the rest after the closing bracket. -/
def classBody : Str → Option Str
  | [] => none
  | c :: cs =>
      if c = '\\' then
        match cs with
        | [] => none
        | _ :: rest => classBody rest
      else if c = ']' then some cs
      else classBody cs

/-- `_class_end`, from the rest after `[`: a leading `^` and then a leading `]` are literal. -/
def classEnd (s : Str) : Option Str :=
  let s := if s.head? = some '^' then s.drop 1 else s
  let s := if s.head? = some ']' then s.drop 1 else s
  classBody s

theorem classBody_length {s rest : Str} (h : classBody s = some rest) :
    rest.length < s.length := by
  fun_induction classBody s with
  | case1 => cases h
  | case2 => cases h
  | case3 c cs ih => exact (ih h).trans (Nat.lt_of_succ_lt (Nat.lt_succ_self _))
  | case4 =>
      cases h
      exact Nat.lt_succ_self _
  | case5 c cs _ _ ih => exact (ih h).trans (Nat.lt_succ_self _)

theorem classEnd_length {s rest : Str} (h : classEnd s = some rest) : rest.length < s.length := by
  have hdrop : ∀ (p : Prop) [Decidable p] (t : Str),
      (if p then t.drop 1 else t).length ≤ t.length := by
    intro p _ t
    split_ifs
    · exact (List.drop_sublist 1 t).length_le
    · exact le_rfl
  exact (classBody_length h).trans_le ((hdrop _ _).trans (hdrop _ _))

/-- `posix_ere_incompatibility`; `last` is `last_quantifiable`. -/
def posixScan (isAlnum : Char → Bool) (s : Str) (last : Bool) : Option Str :=
  match s with
  | [] => none
  | '\\' :: cs =>
      match cs with
      | [] => some "pattern ends with a trailing backslash".toList
      | nxt :: rest =>
          if isAlnum nxt then
            some ("escape sequence \\".toList ++ [nxt]
              ++ " is not portable to POSIX extended regex".toList)
          else posixScan isAlnum rest false
  | '[' :: cs =>
      match _h : classEnd cs with
      | none => some "unterminated character class".toList
      | some rest => posixScan isAlnum rest false
  | c :: cs =>
      if c = '(' && cs.head? = some '?' then
        some ("group constructs starting with (? are not portable to POSIX extended "
          ++ "regex").toList
      else if c = '?' && last then
        some "non-greedy quantifiers are not portable to POSIX extended regex".toList
      else posixScan isAlnum cs (c = '*' || c = '+' || c = '?' || c = '\x7d')
termination_by s.length
decreasing_by
  · simp only [List.length_cons]
    omega
  · have := classEnd_length _h
    simp
    omega
  · simp

def posixEreIncompatibility (isAlnum : Char → Bool) (pattern : Str) : Option Str :=
  posixScan isAlnum pattern false

/-- Mark the innermost open group as holding a quantified atom. -/
def markTop : List Bool → List Bool
  | [] => []
  | _ :: stack => true :: stack

/-- `nested_quantifier_risk`: the stack of groups, innermost first, and `last_quantifiable`. -/
def quantifierScan (s : Str) (stack : List Bool) (last : Bool) : Option Str :=
  match s with
  | [] => none
  | '\\' :: cs => quantifierScan (cs.drop 1) stack true
  | '[' :: cs =>
      match _h : classEnd cs with
      | none => none
      | some rest => quantifierScan rest stack true
  | '(' :: cs => quantifierScan cs (false :: stack) false
  | ')' :: cs =>
      let (innerRisk, stack) := match stack with
        | risk :: group :: outer => (risk, group :: outer)
        | stack => (false, stack)
      if cs.head?.any (fun c => c = '*' || c = '+' || c = '\x7b') && innerRisk then
        some ("pattern contains a quantified atom nested inside a quantified group "
          ++ "(catastrophic backtracking risk, e.g. (a+)+)").toList
      else quantifierScan cs stack true
  | c :: cs =>
      if c = '*' || c = '+' then
        quantifierScan cs (if last then markTop stack else stack) false
      else if c = '\x7b' then
        if cs.contains '\x7d' then
          quantifierScan ((cs.dropWhile (· ≠ '\x7d')).drop 1)
            (if last then markTop stack else stack) false
        else quantifierScan cs stack false
      else if c = '|' || c = '^' || c = '$' then quantifierScan cs stack false
      else quantifierScan cs stack true
termination_by s.length
decreasing_by
  · simp only [List.length_drop, List.length_cons]
    omega
  · have := classEnd_length _h
    simp
    omega
  · simp
  · simp
  · simp
  · have := (List.dropWhile_suffix (· ≠ '\x7d') : _ <:+ cs).length_le
    simp only [List.length_drop, List.length_cons]
    omega
  · simp
  · simp
  · simp

def nestedQuantifierRisk (pattern : Str) : Option Str := quantifierScan pattern [false] false

example : nestedQuantifierRisk "^(ads|track)+\\.example$".toList = none := by decide +kernel

example : (nestedQuantifierRisk "(a+)+".toList).isSome = true := by decide +kernel

end AlderpointDNS
