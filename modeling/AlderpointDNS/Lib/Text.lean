import Mathlib.Data.List.Basic
import Mathlib.Data.List.DropRight
import Mathlib.Data.List.Induction
import Mathlib.Tactic.Common

/-!
# Text as lists of characters, and dotted names

The program under study manipulates text with Python's `str` operations.  Text is a list of
characters here: `str` comparison is then the lexicographic order Mathlib puts on lists, and
every operation is a structural recursion that evaluates.

The second half is about *dotted names*.  `parents q` lists the names a dotted name sits
under, nearest first: the tails of `q` after each dot.  Two descriptions of the same relation
are used by programs that match names against a hierarchy, and this file proves them equal:

* the suffix test `q.endswith("." + p)` (`mem_parents_iff_endsWith`);
* the label loop `".".join(labels[i:])` for `i ≥ 1` (`joinedSuffixes_eq_parents`).

`labelCount_lt_of_parents` is what makes "longest match" and "first match" agree.
-/

namespace Text

/-- Text: a list of characters. -/
abbrev Str := List Char

/-- Membership in a list of texts is decided by this. -/
instance : LawfulBEq Str := inferInstance

/-- `s.startswith(t)`. -/
def startsWith (s t : Str) : Bool := t.isPrefixOf s

/-- `s.endswith(t)`. -/
def endsWith (s t : Str) : Bool := t.isSuffixOf s

/-- `s.split(sep)` for a one-character separator. -/
def split (sep : Char) (s : Str) : List Str := s.splitOn sep

/-- `sep.join(parts)`. -/
def join (sep : Str) (parts : List Str) : Str := sep.intercalate parts

@[simp] theorem endsWith_iff (s t : Str) : endsWith s t = true ↔ t <:+ s := by
  simp [endsWith, List.isSuffixOf_iff_suffix]

@[simp] theorem startsWith_iff (s t : Str) : startsWith s t = true ↔ t <+: s := by
  simp [startsWith, List.isPrefixOf_iff_prefix]

theorem split_cons_sep (sep : Char) (s : Str) : split sep (sep :: s) = [] :: split sep s := by
  simp [split, List.splitOn, List.splitOnP_cons_eq_if_modifyHead]

theorem split_cons_of_ne {sep c : Char} (h : c ≠ sep) (s : Str) :
    split sep (c :: s) = (split sep s).modifyHead (c :: ·) := by
  simp [split, List.splitOn, List.splitOnP_cons_eq_if_modifyHead, h]

theorem split_ne_nil (sep : Char) (s : Str) : split sep s ≠ [] :=
  List.splitOnP_ne_nil _ s

theorem split_of_not_mem {sep : Char} {s : Str} (h : sep ∉ s) : split sep s = [s] :=
  List.splitOn_eq_singleton h

theorem split_append_sep (sep : Char) (s t : Str) :
    split sep (s ++ sep :: t) = split sep s ++ split sep t :=
  List.splitOn_append_cons_self s t

theorem split_join {sep : Char} {parts : List Str} (hsep : ∀ p ∈ parts, sep ∉ p)
    (hne : parts ≠ []) : split sep (join [sep] parts) = parts :=
  List.splitOn_intercalate sep hsep hne

theorem join_split (sep : Char) (s : Str) : join [sep] (split sep s) = s :=
  List.intercalate_splitOn sep

/-- The separator is in no part. -/
theorem notMem_of_mem_splitOnP {p : Char → Bool} : ∀ {s w : Str}, w ∈ s.splitOnP p →
    ∀ c ∈ w, p c = false
  | [], w, h => by
      rw [List.splitOnP_nil, List.mem_singleton] at h
      simp [h]
  | d :: s, w, h => by
      rw [List.splitOnP_cons_eq_if_modifyHead] at h
      split_ifs at h with hd
      · rcases List.mem_cons.mp h with rfl | h
        · simp
        · exact notMem_of_mem_splitOnP h
      · obtain ⟨v, vs, hv⟩ := List.exists_cons_of_ne_nil (List.splitOnP_ne_nil p s)
        rw [hv, List.modifyHead_cons, List.mem_cons] at h
        rcases h with rfl | h
        · intro c hc
          rcases List.mem_cons.mp hc with rfl | hc
          · exact Bool.not_eq_true _ ▸ hd
          · exact notMem_of_mem_splitOnP (hv ▸ List.mem_cons_self) c hc
        · exact notMem_of_mem_splitOnP (hv ▸ List.mem_cons_of_mem v h)

theorem notMem_of_mem_split {sep : Char} {s w : Str} (h : w ∈ split sep s) : sep ∉ w := by
  rw [split, List.splitOn_eq_splitOnP] at h
  intro hmem
  simpa using notMem_of_mem_splitOnP h sep hmem

/-- Text that ends in the separator has an empty last part. -/
theorem nil_mem_tail_split_append (sep : Char) :
    ∀ s : Str, [] ∈ (split sep (s ++ [sep])).tail
  | [] => by
      rw [List.nil_append, split_cons_sep]
      simp [split]
  | c :: s => by
      have ih := nil_mem_tail_split_append sep s
      by_cases h : c = sep
      · subst h
        rw [List.cons_append, split_cons_sep]
        exact List.mem_of_mem_tail ih
      · rw [List.cons_append, split_cons_of_ne h, List.tail_modifyHead]
        exact ih

/-- `split` undoes `join` when a trailing separator is written and no part contains it. -/
theorem split_join_append {sep : Char} {parts : List Str} (hsep : ∀ p ∈ parts, sep ∉ p)
    (hne : parts ≠ []) : split sep (join [sep] parts ++ [sep]) = parts ++ [[]] := by
  have h : join [sep] parts ++ [sep] = join [sep] (parts ++ [[]]) := by
    clear hsep
    induction parts with
    | nil => exact absurd rfl hne
    | cons p ps ih =>
        cases ps with
        | nil => simp [join]
        | cons q ps =>
            have := ih (by simp)
            simp only [join, List.cons_append, List.intercalate_cons_cons, List.append_assoc] at this ⊢
            rw [this]
  rw [h]
  refine List.splitOn_intercalate sep ?_ (by simp)
  intro l hl
  rcases List.mem_append.mp hl with hl | hl
  · exact hsep l hl
  · rw [List.mem_singleton.mp hl]
    simp

/-- Text is cut at the first separator in one way only. -/
theorem append_cons_inj {sep : Char} :
    ∀ {x y s t : Str}, sep ∉ x → sep ∉ y → x ++ sep :: s = y ++ sep :: t → x = y ∧ s = t
  | [], [], _, _, _, _, h => ⟨rfl, (List.cons.inj h).2⟩
  | [], c :: _, _, _, _, hy, h => absurd (List.cons.inj h).1 (List.ne_of_not_mem_cons hy)
  | c :: _, [], _, _, hx, _, h => absurd (List.cons.inj h).1.symm (List.ne_of_not_mem_cons hx)
  | c :: x, d :: y, s, t, hx, hy, h => by
      obtain ⟨hcd, h⟩ := List.cons.inj h
      obtain ⟨hxy, hst⟩ := append_cons_inj (List.not_mem_of_not_mem_cons hx)
        (List.not_mem_of_not_mem_cons hy) h
      exact ⟨by rw [hcd, hxy], hst⟩

/-- And at the last separator in one way only. -/
theorem append_cons_inj_last {sep : Char} {x y s t : Str} (hs : sep ∉ s) (ht : sep ∉ t)
    (h : x ++ sep :: s = y ++ sep :: t) : x = y ∧ s = t := by
  have hrev := congrArg List.reverse h
  simp only [List.reverse_append, List.reverse_cons, List.append_assoc, List.singleton_append]
    at hrev
  obtain ⟨hst, hxy⟩ := append_cons_inj (by simpa using hs) (by simpa using ht) hrev
  exact ⟨List.reverse_injective hxy, List.reverse_injective hst⟩

/-! ## Stripping -/

/-- `str.isspace()` for one character. -/
def isSpace (c : Char) : Bool :=
  let n := c.toNat
  (9 ≤ n && n ≤ 13) || (28 ≤ n && n ≤ 32) || n = 0x85 || n = 0xa0 || n = 0x1680
    || (0x2000 ≤ n && n ≤ 0x200a) || n = 0x2028 || n = 0x2029 || n = 0x202f || n = 0x205f
    || n = 0x3000

/-- Drop the characters satisfying `p` from both ends. -/
def stripBy (p : Char → Bool) (s : Str) : Str := (s.dropWhile p).rdropWhile p

/-- `s.strip()`. -/
def strip (s : Str) : Str := stripBy isSpace s

theorem stripBy_eq_nil {p : Char → Bool} {s : Str} :
    stripBy p s = [] ↔ ∀ c ∈ s, p c = true := by
  rw [stripBy, List.rdropWhile_eq_nil_iff]
  constructor
  · intro h
    by_contra hs
    have hne : s.dropWhile p ≠ [] := fun h => hs (List.dropWhile_eq_nil_iff.mp h)
    have hhead := List.head_dropWhile_not p hne
    rw [h _ (List.head_mem hne)] at hhead
    exact Bool.noConfusion hhead
  · intro h c hc
    exact h c ((List.dropWhile_suffix p).subset hc)

theorem stripBy_stripBy (p : Char → Bool) (s : Str) : stripBy p (stripBy p s) = stripBy p s := by
  have hdrop : (stripBy p s).dropWhile p = stripBy p s := by
    rw [List.dropWhile_eq_self_iff]
    intro hlen
    have hne : s.dropWhile p ≠ [] := by
      intro h
      simp [stripBy, h] at hlen
    have hhead : (stripBy p s)[0] = (s.dropWhile p).head hne := by
      have hpre : stripBy p s <+: s.dropWhile p := List.rdropWhile_prefix p _
      rw [← List.head_eq_getElem (List.length_pos_iff.mp hlen)]
      exact hpre.head (List.length_pos_iff.mp hlen)
    rw [hhead, List.head_dropWhile_not p hne]
    exact Bool.false_ne_true
  rw [stripBy, hdrop]
  exact List.rdropWhile_idempotent p _

/-- `s.split()`: the maximal runs of characters that are not white space. -/
def words (s : Str) : List Str := (s.splitOnP isSpace).filter (· ≠ [])

/-- The line boundaries of `s.splitlines()`, `\r\n` apart. -/
def isLineBreak (c : Char) : Bool :=
  let n := c.toNat
  (10 ≤ n && n ≤ 13) || (28 ≤ n && n ≤ 30) || n = 0x85 || n = 0x2028 || n = 0x2029

/-- `s.splitlines()`: a line break ends a line, and `\r\n` is one break. -/
def splitlines : Str → List Str
  | [] => []
  | '\r' :: '\n' :: cs => [] :: splitlines cs
  | c :: cs =>
      if isLineBreak c then [] :: splitlines cs
      else match splitlines cs with
        | [] => [[c]]
        | line :: lines => (c :: line) :: lines

/-- `sub in s`. -/
def isSubstring (sub : Str) : Str → Bool
  | [] => sub = []
  | c :: cs => startsWith (c :: cs) sub || isSubstring sub cs

theorem isSubstring_iff (sub : Str) : ∀ s : Str, isSubstring sub s = true ↔ sub <:+: s
  | [] => by simp [isSubstring]
  | c :: cs => by
      rw [isSubstring, Bool.or_eq_true, startsWith_iff, isSubstring_iff sub cs,
        List.infix_cons_iff]

/-- Text that ends in a character to keep is not touched by stripping what follows it. -/
theorem prefix_rdropWhile_append {p : Char → Bool} {x : Str} (hne : x ≠ [])
    (hlast : p (x.getLast hne) = false) (y : Str) : x <+: (x ++ y).rdropWhile p := by
  induction y using List.reverseRecOn with
  | nil =>
      have hkeep : x.rdropWhile p = x := List.rdropWhile_eq_self_iff.mpr fun _ => by simp [hlast]
      simp only [List.append_nil, hkeep, List.prefix_rfl]
  | append_singleton y c ih =>
      rw [← List.append_assoc]
      by_cases hc : p c = true
      · rwa [List.rdropWhile_concat_pos _ _ _ hc]
      · rw [List.rdropWhile_concat_neg _ _ _ hc, List.append_assoc]
        exact List.prefix_append _ _

/-- `s.rfind(sub)`. -/
def rfind (sub s : Str) : Option ℕ :=
  (List.range (s.length + 1)).reverse.find? fun i => startsWith (s.drop i) sub

/-- `s.partition(sep)` without the separator: what is before its first occurrence, and after. -/
def partition (sep : Char) (s : Str) : Str × Str :=
  (s.takeWhile (· ≠ sep), (s.dropWhile (· ≠ sep)).drop 1)

/-- `s.isascii()`. -/
def isAscii (s : Str) : Bool := s.all fun c => c.toNat < 128

/-! ## Dotted names -/

/-- The names above `q`: what follows each dot of `q`, nearest first. -/
def parents : Str → List Str
  | [] => []
  | c :: cs => if c = '.' then cs :: parents cs else parents cs

/-- `name.count(".") + 1`. -/
def labelCount (name : Str) : ℕ := name.count '.' + 1

/-- `[".".join(labels[i:]) for i in range(1, len(labels))]` with `labels = q.split(".")`. -/
def joinedSuffixes (q : Str) : List Str :=
  (List.range ((split '.' q).length - 1)).map fun i => join ['.'] ((split '.' q).drop (i + 1))

@[simp] theorem parents_nil : parents [] = [] := rfl

theorem parents_cons_dot (cs : Str) : parents ('.' :: cs) = cs :: parents cs := by
  simp [parents]

theorem parents_cons_of_ne {c : Char} (h : c ≠ '.') (cs : Str) :
    parents (c :: cs) = parents cs := by
  simp [parents, h]

theorem parents_append_dot {pre : Str} (h : '.' ∉ pre) (s : Str) :
    parents (pre ++ '.' :: s) = s :: parents s := by
  induction pre with
  | nil => exact parents_cons_dot s
  | cons c pre ih =>
      rw [List.mem_cons, not_or] at h
      rw [List.cons_append, parents_cons_of_ne (Ne.symm h.1), ih h.2]

theorem mem_parents (p : Str) : ∀ q : Str, p ∈ parents q ↔ ('.' :: p) <:+ q
  | [] => by simp
  | c :: cs => by
      by_cases h : c = '.'
      · subst h
        rw [parents_cons_dot, List.mem_cons, mem_parents p cs, List.suffix_cons_iff]
        simp
      · rw [parents_cons_of_ne h, mem_parents p cs, List.suffix_cons_iff]
        have hne : ¬ ('.' :: p = c :: cs) := fun e => h (List.cons.inj e).1.symm
        simp [hne]

/-- The suffix test is membership among the parents. -/
theorem mem_parents_iff_endsWith (p q : Str) :
    p ∈ parents q ↔ endsWith q ('.' :: p) = true := by
  rw [mem_parents, endsWith_iff]

theorem parents_suffix {p q : Str} (h : p ∈ parents q) : p <:+ q :=
  (List.suffix_cons '.' p).trans ((mem_parents p q).mp h)

theorem ne_of_mem_parents {p q : Str} (h : p ∈ parents q) : p ≠ q := by
  rintro rfl
  have := ((mem_parents p p).mp h).length_le
  rw [List.length_cons] at this
  omega

theorem parents_trans {a b c : Str} (hab : a ∈ parents b) (hbc : b ∈ parents c) :
    a ∈ parents c :=
  (mem_parents a c).mpr (((mem_parents a b).mp hab).trans (parents_suffix hbc))

theorem labelCount_lt_of_mem_parents {p q : Str} (h : p ∈ parents q) :
    labelCount p < labelCount q := by
  have hs : List.Sublist ('.' :: p) q := ((mem_parents p q).mp h).sublist
  have := hs.count_le '.'
  simp [labelCount] at this ⊢
  omega

/-- Each parent is above every parent listed before it. -/
theorem parents_pairwise : ∀ q : Str, (parents q).Pairwise (fun a b => b ∈ parents a)
  | [] => List.Pairwise.nil
  | c :: cs => by
      by_cases h : c = '.'
      · subst h
        rw [parents_cons_dot]
        exact List.Pairwise.cons (fun _ hb => hb) (parents_pairwise cs)
      · rw [parents_cons_of_ne h]
        exact parents_pairwise cs

/-- So the label counts along `parents q` strictly decrease: the first match is the longest. -/
theorem labelCount_lt_of_parents (q : Str) :
    (parents q).Pairwise (fun a b => labelCount b < labelCount a) :=
  (parents_pairwise q).imp labelCount_lt_of_mem_parents

/-- Two parents of one name are comparable. -/
theorem parents_total {a b q : Str} (ha : a ∈ parents q) (hb : b ∈ parents q) :
    a = b ∨ a ∈ parents b ∨ b ∈ parents a := by
  have hab := List.suffix_or_suffix_of_suffix ((mem_parents a q).mp ha) ((mem_parents b q).mp hb)
  rcases hab with h | h
  · rcases List.suffix_cons_iff.mp h with h | h
    · exact Or.inl (List.cons.inj h).2
    · exact Or.inr (Or.inl ((mem_parents a b).mpr h))
  · rcases List.suffix_cons_iff.mp h with h | h
    · exact Or.inl (List.cons.inj h).2.symm
    · exact Or.inr (Or.inr ((mem_parents b a).mpr h))

/-- What comes after `x` in the list of parents are the parents of `x`. -/
theorem parents_of_append_cons {x : Str} {farther : List Str} :
    ∀ {q : Str} {nearer : List Str}, parents q = nearer ++ x :: farther → farther = parents x
  | [], nearer, h => by simp at h
  | c :: cs, nearer, h => by
      by_cases hc : c = '.'
      · subst hc
        rw [parents_cons_dot] at h
        cases nearer with
        | nil =>
            obtain ⟨rfl, rfl⟩ := List.cons.inj h
            rfl
        | cons a nearer => exact parents_of_append_cons (List.cons.inj h).2
      · rw [parents_cons_of_ne hc] at h
        exact parents_of_append_cons h

/-- The label loop enumerates the parents, in order. -/
theorem joinedSuffixes_eq_parents : ∀ q : Str, joinedSuffixes q = parents q
  | [] => by simp [joinedSuffixes, split]
  | c :: cs => by
      have ih := joinedSuffixes_eq_parents cs
      by_cases h : c = '.'
      · subst h
        rw [parents_cons_dot, ← ih]
        obtain ⟨n, hn⟩ : ∃ n, (split '.' cs).length = n + 1 :=
          Nat.exists_eq_succ_of_ne_zero (by simp [split_ne_nil])
        simp only [joinedSuffixes, split_cons_sep, List.length_cons, Nat.add_sub_cancel,
          List.drop_succ_cons, hn, List.range_succ_eq_map, List.map_cons, List.map_map,
          List.drop_zero, join_split]
        rfl
      · rw [parents_cons_of_ne h, ← ih]
        obtain ⟨w, ws, hw⟩ := List.exists_cons_of_ne_nil (split_ne_nil '.' cs)
        simp [joinedSuffixes, split_cons_of_ne h, hw]

/-! ## Texts that are left as they are -/

theorem stripBy_eq_self {p : Char → Bool} {s : Str} (h : ∀ c ∈ s, p c = false) :
    stripBy p s = s := by
  have hhead : s.dropWhile p = s := List.dropWhile_eq_self_iff.mpr fun hlen => by
    simp [h _ (List.getElem_mem hlen)]
  rw [stripBy, hhead]
  exact List.rdropWhile_eq_self_iff.mpr fun hne => by simp [h _ (List.getLast_mem hne)]

/-- Stripping leaves a text with other characters at its ends. -/
theorem stripBy_eq_self_of_ends {p : Char → Bool} {s : Str} (hhead : ∀ c ∈ s.head?, p c = false)
    (hlast : ∀ c ∈ s.getLast?, p c = false) : stripBy p s = s := by
  have hdrop : s.dropWhile p = s := by
    cases s with
    | nil => rfl
    | cons c cs => rw [List.dropWhile_cons_of_neg (by simp [hhead c rfl])]
  rw [stripBy, hdrop]
  exact List.rdropWhile_eq_self_iff.mpr fun hne => by
    simp [hlast _ (List.getLast?_eq_some_getLast hne)]

/-- A character that is not stripped is kept. -/
theorem mem_stripBy {p : Char → Bool} {s : Str} {c : Char} (hc : c ∈ s) (hp : p c = false) :
    c ∈ stripBy p s := by
  have hdrop : ∀ {t : Str}, c ∈ t → c ∈ t.dropWhile p := by
    intro t ht
    rw [← List.takeWhile_append_dropWhile (p := p) (l := t)] at ht
    refine (List.mem_append.mp ht).resolve_left fun htake => ?_
    rw [List.mem_takeWhile_imp htake] at hp
    exact Bool.noConfusion hp
  rw [stripBy, List.rdropWhile, List.mem_reverse]
  exact hdrop (List.mem_reverse.mpr (hdrop hc))

theorem mem_of_mem_stripBy {p : Char → Bool} {s : Str} {c : Char} (h : c ∈ stripBy p s) : c ∈ s :=
  (List.dropWhile_suffix p).subset ((List.rdropWhile_prefix p _).subset h)

theorem words_eq_singleton {s : Str} (hne : s ≠ []) (h : ∀ c ∈ s, isSpace c = false) :
    words s = [s] := by
  have hsplit : s.splitOnP isSpace = [s] := List.splitOnP_eq_singleton h
  simp [words, hsplit, hne]

theorem words_append_space {c : Char} (hc : isSpace c = true) (x y : Str) :
    words (x ++ c :: y) = words x ++ words y := by
  rw [words, words, words, List.splitOnP_append_cons x y hc, List.filter_append]

/-- White space at the end makes no difference. -/
theorem words_rdropWhile (s : Str) : words (s.rdropWhile isSpace) = words s := by
  induction s using List.reverseRecOn with
  | nil => rfl
  | append_singleton s c ih =>
      by_cases hc : isSpace c = true
      · rw [List.rdropWhile_concat_pos _ _ _ hc, ih, words_append_space hc]
        simp [words, List.splitOnP_nil]
      · rw [List.rdropWhile_concat_neg _ _ _ hc]

theorem mem_words {s w : Str} (h : w ∈ words s) : w ≠ [] ∧ ∀ c ∈ w, isSpace c = false := by
  rw [words, List.mem_filter] at h
  exact ⟨of_decide_eq_true h.2, notMem_of_mem_splitOnP h.1⟩

theorem partition_of_notMem {sep : Char} {s : Str} (h : sep ∉ s) : partition sep s = (s, []) := by
  have hkeep : ∀ c ∈ s, decide (c ≠ sep) = true := fun c hc =>
    decide_eq_true fun heq => h (heq ▸ hc)
  rw [partition, List.takeWhile_eq_self_iff.mpr hkeep, List.dropWhile_eq_nil_iff.mpr hkeep]
  rfl

theorem splitlines_append {line : Str} (h : ∀ c ∈ line, isLineBreak c = false) (rest : Str) :
    splitlines (line ++ '\n' :: rest) = line :: splitlines rest := by
  induction line with
  | nil => simp [splitlines, isLineBreak]
  | cons c line ih =>
      have hc := h c List.mem_cons_self
      have hcr : c ≠ '\r' := by
        rintro rfl
        exact Bool.noConfusion hc
      rw [List.cons_append, splitlines, if_neg (by simp [hc]),
        ih fun x hx => h x (List.mem_cons_of_mem _ hx)]
      exact fun _ heq _ => absurd heq hcr

/-! ## Parts of a text -/

theorem mem_join {c : Char} {sep : Str} : ∀ {ws : List Str}, c ∈ join sep ws →
    c ∈ sep ∨ ∃ w ∈ ws, c ∈ w
  | [], h => by simp [join] at h
  | [w], h => Or.inr ⟨w, by simp, by simpa [join] using h⟩
  | w :: v :: ws, h => by
      rw [join, List.intercalate_cons_cons, List.mem_append, List.mem_append] at h
      rcases h with (h | h) | h
      · exact Or.inr ⟨w, by simp, h⟩
      · exact Or.inl h
      · rcases @mem_join c sep (v :: ws) h with h | ⟨u, hu, h⟩
        · exact Or.inl h
        · exact Or.inr ⟨u, List.mem_cons_of_mem _ hu, h⟩

theorem infix_join {sep part : Str} {parts : List Str} (h : part ∈ parts) :
    part <:+: join sep parts := by
  induction parts with
  | nil => cases h
  | cons first rest ih =>
      cases rest with
      | nil => simp [join, List.mem_singleton.mp h]
      | cons second rest =>
          rw [join, List.intercalate_cons_cons]
          rcases List.mem_cons.mp h with rfl | h
          · rw [List.append_assoc]
            exact (List.prefix_append _ _).isInfix
          · exact (ih h).trans (List.suffix_append _ _).isInfix

theorem takeWhile_cons_drop {c : Char} {cs : Str} (h : c ∈ cs) :
    cs.takeWhile (· ≠ c) ++ c :: cs.drop ((cs.takeWhile (· ≠ c)).length + 1) = cs := by
  induction cs with
  | nil => cases h
  | cons a cs ih =>
      by_cases ha : a = c
      · simp [ha]
      · have htail : c ∈ cs := (List.mem_cons.mp h).resolve_left (Ne.symm ha)
        simpa [ha] using ih htail

/-! ## Tables of names -/

theorem mem_map_toList {names : List String} {name : String} :
    name.toList ∈ names.map String.toList ↔ name ∈ names :=
  List.mem_map_of_injective fun _ _ => String.toList_injective

theorem lookup_map_toList {β : Type} (entries : List (String × β)) (name : String) :
    (entries.map fun e => (e.1.toList, e.2)).lookup name.toList = entries.lookup name := by
  induction entries with
  | nil => rfl
  | cons e entries ih =>
      have hbeq : (name.toList == e.1.toList) = (name == e.1) := by
        rw [Bool.eq_iff_iff, beq_iff_eq, beq_iff_eq, String.toList_inj]
      rw [List.map_cons, List.lookup_cons, List.lookup_cons, hbeq, ih]

end Text
