import AlderpointDNS.Lib.Patterns
import Mathlib.Data.Char
import Mathlib.Data.List.Lex
import Mathlib.Order.Compare

/-!
# The order of Debian versions

Two versions are compared part by part: runs of characters that are not digits and runs of digits
take turns.  Runs of digits are compared as numbers.  In the others letters come before all other
characters, and `~` comes before everything, also before the end of the run.

A version has an epoch before its first colon and a revision after its last hyphen.

* **`compareParts_runs`** — one turn of the comparison.
* `compareParts_self` — a text is equal to itself.
* **`compareLexical_letters`** — between words of letters the order is that of the texts.
-/

namespace Debian

open Text

/-- An ASCII digit. -/
def isDigit (c : Char) : Bool := '0' ≤ c && c ≤ '9'

/-- The number that a text of digits is read as. -/
def number (s : Str) : ℕ := s.foldl (fun n c => 10 * n + (c.toNat - '0'.toNat)) 0

/-- The place of a character among those that are not digits; the end of a text has place 0. -/
def order (c : Char) : ℤ :=
  if c = '~' then -1
  else if c.isAlpha then c.toNat
  else c.toNat + 256

/-- Runs without digits. -/
def compareLexical : Str → Str → Ordering
  | [], [] => .eq
  | [], d :: _ => cmp 0 (order d)
  | c :: _, [] => cmp (order c) 0
  | c :: s, d :: t => (cmp (order c) (order d)).then (compareLexical s t)

/-- The run without digits at the start, the run of digits after it, and the rest. -/
def firstRuns (s : Str) : Str × Str × Str :=
  let rest := s.dropWhile fun c => !isDigit c
  (s.takeWhile fun c => !isDigit c, rest.takeWhile isDigit, rest.dropWhile isDigit)

theorem length_firstRuns (s : Str) :
    (firstRuns s).1.length + ((firstRuns s).2.1.length + (firstRuns s).2.2.length) = s.length := by
  simp only [firstRuns]
  rw [← List.length_append, List.takeWhile_append_dropWhile, ← List.length_append,
    List.takeWhile_append_dropWhile]

/-- A text that is not empty starts with one of the runs. -/
theorem length_rest_lt {s : Str} (h : s ≠ []) : (firstRuns s).2.2.length < s.length := by
  have hlength := length_firstRuns s
  obtain ⟨c, s, rfl⟩ := List.exists_cons_of_ne_nil h
  have hrun : (firstRuns (c :: s)).1.length + (firstRuns (c :: s)).2.1.length ≠ 0 := by
    by_cases hc : isDigit c = true <;> simp [firstRuns, hc]
  omega

/-- Runs of digits. -/
def compareNumbers (s t : Str) : Ordering := cmp (number s) (number t)

/-- `verrevcmp`. -/
def compareParts (s t : Str) : Ordering :=
  if s = [] ∧ t = [] then .eq
  else
    let a := firstRuns s
    let b := firstRuns t
    (compareLexical a.1 b.1).then
      ((compareNumbers a.2.1 b.2.1).then (compareParts a.2.2 b.2.2))
termination_by s.length + t.length
decreasing_by
  have hs := length_firstRuns s
  have ht := length_firstRuns t
  rename_i hne
  rcases not_and_or.mp hne with hne | hne
  · have hlt := length_rest_lt hne
    omega
  · have hlt := length_rest_lt hne
    omega

/-- A version. -/
structure Version where
  epoch : ℕ
  upstream : Str
  revision : Str

/-- `parseversion` of a version that is well formed. -/
def parseVersion (s : Str) : Version :=
  let (epoch, rest) := if ':' ∈ s then
      (number (s.takeWhile (· ≠ ':')), (s.dropWhile (· ≠ ':')).tail)
    else (0, s)
  if '-' ∈ rest then
    { epoch := epoch
      upstream := (rest.rdropWhile (· ≠ '-')).dropLast
      revision := rest.rtakeWhile (· ≠ '-') }
  else ⟨epoch, rest, []⟩

/-- `dpkg_version_compare`. -/
def compareVersions (a b : Version) : Ordering :=
  (cmp a.epoch b.epoch).then
    ((compareParts a.upstream b.upstream).then (compareParts a.revision b.revision))

/-! ## One turn -/

theorem firstRuns_append {x d r : Str} (hx : ∀ c ∈ x, isDigit c = false)
    (hd : ∀ c ∈ d, isDigit c = true) (hstart : d = [] → r = []) (hr : StartsOutside isDigit r) :
    firstRuns (x ++ (d ++ r)) = (x, d, r) := by
  have hrest : StartsOutside (fun c => !isDigit c) (d ++ r) := by
    intro c hc
    cases d with
    | nil =>
        rw [hstart rfl] at hc
        cases hc
    | cons e d =>
        have he : e = c := Option.some.inj hc
        simp [hd c (he ▸ List.mem_cons_self)]
  obtain ⟨htake, hdrop⟩ := span_append (a := x) (fun c hc => by simp [hx c hc]) hrest
  obtain ⟨htake', hdrop'⟩ := span_append (a := d) hd hr
  simp only [firstRuns, htake, hdrop, htake', hdrop']

/-- **One turn of the comparison**, where the runs of both texts are known. -/
theorem compareParts_runs {s t : Str} {a b : Str × Str × Str} (ha : firstRuns s = a)
    (hb : firstRuns t = b) :
    compareParts s t = (compareLexical a.1 b.1).then
      ((cmp (number a.2.1) (number b.2.1)).then (compareParts a.2.2 b.2.2)) := by
  subst ha hb
  by_cases h : s = [] ∧ t = []
  · obtain ⟨rfl, rfl⟩ := h
    have hnil : compareParts [] [] = .eq := by rw [compareParts, if_pos ⟨rfl, rfl⟩]
    change compareParts [] [] = Ordering.eq.then ((cmp 0 0).then (compareParts [] []))
    rw [hnil, cmp_self_eq_eq]
    rfl
  · rw [compareParts, if_neg h]
    rfl

/-- A first character that both texts have does not count. -/
theorem compareLexical_cons_self (c : Char) (s t : Str) :
    compareLexical (c :: s) (c :: t) = compareLexical s t := by
  show (cmp (order c) (order c)).then (compareLexical s t) = compareLexical s t
  unfold cmp cmpUsing
  simp

theorem compareLexical_self (s : Str) : compareLexical s s = .eq := by
  induction s with
  | nil => rfl
  | cons c s ih => rw [compareLexical_cons_self, ih]

theorem compareParts_self (s : Str) : compareParts s s = .eq := by
  generalize hn : s.length = n
  induction n using Nat.strong_induction_on generalizing s with
  | _ n ih =>
      by_cases hs : s = []
      · simp [compareParts, hs]
      · have hrest := ih _ (hn ▸ length_rest_lt hs) _ rfl
        rw [compareParts_runs rfl rfl, compareLexical_self, cmp_self_eq_eq, hrest]
        rfl

/-! ## Words -/

theorem order_letter {c : Char} (h : c.isAlpha = true) : order c = c.toNat := by
  have hne : c ≠ '~' := fun hc => absurd h (by rw [hc]; decide)
  rw [order, if_neg hne, if_pos h]

theorem order_letter_pos {c : Char} (h : c.isAlpha = true) : 0 < order c := by
  have hne : c.toNat ≠ 0 := by
    intro h0
    have hc : c = Char.ofNat 0 := by rw [← h0, Char.ofNat_toNat]
    exact absurd h (by rw [hc]; decide)
  rw [order_letter h]
  omega

theorem cmp_order {c d : Char} (hc : c.isAlpha = true) (hd : d.isAlpha = true) :
    cmp (order c) (order d) = cmp c d := by
  rw [order_letter hc, order_letter hd]
  have hlt : ∀ a b : Char, ((a.toNat : ℤ) < b.toNat) = (a < b) := fun a b =>
    propext Int.ofNat_lt
  unfold cmp cmpUsing
  simp only [hlt]

/-- Texts are compared by their first characters first. -/
theorem cmp_cons (c d : Char) (s t : Str) :
    cmp (c :: s) (d :: t) = (cmp c d).then (cmp s t) := by
  rcases lt_trichotomy c d with h | rfl | h
  · have hlt : c :: s < d :: t := List.Lex.rel h
    unfold cmp cmpUsing
    rw [if_pos hlt, if_pos h]
    rfl
  · unfold cmp cmpUsing
    simp
  · have hne : c ≠ d := ne_of_gt h
    unfold cmp cmpUsing
    simp [List.cons_lt_cons_iff, h, lt_asymm h, hne, hne.symm]

/-- **Words of letters are in the order of the texts**, a word before its continuations. -/
theorem compareLexical_letters {s t : Str} (hs : ∀ c ∈ s, c.isAlpha = true)
    (ht : ∀ c ∈ t, c.isAlpha = true) : compareLexical s t = cmp s t := by
  induction s generalizing t with
  | nil =>
      cases t with
      | nil => rfl
      | cons d t =>
          have hpos := order_letter_pos (ht d List.mem_cons_self)
          show cmp 0 (order d) = cmp [] (d :: t)
          unfold cmp cmpUsing
          simp [hpos]
  | cons c s ih =>
      cases t with
      | nil =>
          have hpos := order_letter_pos (hs c List.mem_cons_self)
          show cmp (order c) 0 = cmp (c :: s) []
          unfold cmp cmpUsing
          simp [hpos, Int.le_of_lt hpos]
      | cons d t =>
          show (cmp (order c) (order d)).then (compareLexical s t) = cmp (c :: s) (d :: t)
          rw [cmp_order (hs c List.mem_cons_self) (ht d List.mem_cons_self),
            ih (fun x hx => hs x (List.mem_cons_of_mem c hx))
              (fun x hx => ht x (List.mem_cons_of_mem d hx)), cmp_cons]

end Debian
