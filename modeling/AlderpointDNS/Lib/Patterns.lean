import AlderpointDNS.Lib.Text

/-!
# Patterns of characters and runs

A pattern is a sequence of characters and of runs of one or more characters of a class.  Where no
character that may follow a run belongs to its class, a regular expression of this kind matches in
one way only, and `scan` finds it without going back.  `find` looks for the first place where three
patterns match one after another (`re.search` with three groups), and `sub` replaces every match of
a pattern by a text made of what its parts took (`re.sub`).

* `scan_append` — what a pattern takes from a text does not depend on what follows.
* `scan_blind` — a pattern that avoids a character does not look past it.
* **`find_replace`** — another text in the place of the middle group is found in the same place.
* `sub_append`, `sub_match` — a text without a match is kept, and a match is replaced.
-/

namespace Text

/-- A part of a pattern. -/
inductive Item where
  | char (c : Char)
  /-- one or more characters of a class -/
  | many (p : Char → Bool)

/-- A sequence of characters and runs. -/
abbrev Pattern := List Item

/-- The characters of a word. -/
def word (w : String) : Pattern := w.toList.map .char

/-- What a pattern takes from the start of a text, and the rest. -/
def scan : Pattern → Str → Option (Str × Str)
  | [], s => some ([], s)
  | .char _ :: _, [] => none
  | .char c :: items, x :: s =>
      if x = c then (scan items s).map fun m => (x :: m.1, m.2) else none
  | .many p :: items, s =>
      if s.takeWhile p = [] then none
      else (scan items (s.dropWhile p)).map fun m => (s.takeWhile p ++ m.1, m.2)

theorem scan_eq_append {items : Pattern} {s a r : Str} (h : scan items s = some (a, r)) :
    s = a ++ r := by
  induction items generalizing s a r with
  | nil =>
      cases h
      rfl
  | cons item items ih =>
      cases item with
      | char c =>
          cases s with
          | nil => cases h
          | cons x s =>
              rw [scan] at h
              split_ifs at h with hx
              obtain ⟨⟨a', r'⟩, hscan, hm⟩ := Option.map_eq_some_iff.mp h
              cases hm
              rw [ih hscan, List.cons_append]
      | many p =>
          rw [scan] at h
          split_ifs at h
          obtain ⟨⟨a', r'⟩, hscan, hm⟩ := Option.map_eq_some_iff.mp h
          cases hm
          rw [List.append_assoc, ← ih hscan, List.takeWhile_append_dropWhile]

/-- The first character of a text is not in the class. -/
def StartsOutside (p : Char → Bool) (s : Str) : Prop := ∀ x ∈ s.head?, p x = false

theorem startsOutside_dropWhile (p : Char → Bool) (s : Str) : StartsOutside p (s.dropWhile p) := by
  intro x hx
  have hhead := List.head?_dropWhile_not p s
  rw [Option.mem_def.mp hx] at hhead
  exact hhead

/-- A run is taken whole. -/
theorem span_append {p : Char → Bool} {a r : Str} (ha : ∀ x ∈ a, p x = true)
    (hr : StartsOutside p r) : (a ++ r).takeWhile p = a ∧ (a ++ r).dropWhile p = r := by
  induction a with
  | nil =>
      cases r with
      | nil => exact ⟨rfl, rfl⟩
      | cons x r =>
          have hx : p x = false := hr x rfl
          simp [hx]
  | cons x a ih =>
      obtain ⟨hx, ha⟩ := List.forall_mem_cons.mp ha
      obtain ⟨htake, hdrop⟩ := ih ha
      simp [hx, htake, hdrop]

theorem scan_cons_ne_nil {item : Item} {items : Pattern} {s a r : Str}
    (h : scan (item :: items) s = some (a, r)) : a ≠ [] := by
  cases item with
  | char c =>
      cases s with
      | nil => cases h
      | cons x s =>
          rw [scan] at h
          split_ifs at h
          obtain ⟨m, -, hm⟩ := Option.map_eq_some_iff.mp h
          cases hm
          exact List.cons_ne_nil _ _
  | many p =>
      rw [scan] at h
      split_ifs at h with htake
      obtain ⟨m, -, hm⟩ := Option.map_eq_some_iff.mp h
      cases hm
      exact fun hnil => htake (List.append_eq_nil_iff.mp hnil).1

/-- What may follow a match: nothing that would make its last run longer. -/
def Follows (items : Pattern) (r : Str) : Prop :=
  ∀ p, items.getLast? = some (.many p) → StartsOutside p r

theorem Follows.tail {item next : Item} {items : Pattern} {r : Str}
    (h : Follows (item :: next :: items) r) : Follows (next :: items) r :=
  fun p hp => h p (by rw [List.getLast?_cons_cons, hp])

/-- **What a pattern takes does not depend on what follows.** -/
theorem scan_append {items : Pattern} {s a r r' : Str} (h : scan items s = some (a, r))
    (hr : Follows items r') : scan items (a ++ r') = some (a, r') := by
  induction items generalizing s a with
  | nil =>
      cases h
      rfl
  | cons item items ih =>
      -- a run that is not the last one ends before the next part of the pattern
      have hnext : ∀ {s a : Str}, scan items s = some (a, r) →
          scan items (a ++ r') = some (a, r') := by
        intro s a hscan
        cases items with
        | nil =>
            cases hscan
            rfl
        | cons next items => exact ih hscan hr.tail
      cases item with
      | char c =>
          cases s with
          | nil => cases h
          | cons x s =>
              rw [scan] at h
              split_ifs at h with hx
              obtain ⟨⟨a', r₁⟩, hscan, hm⟩ := Option.map_eq_some_iff.mp h
              cases hm
              rw [List.cons_append, scan, if_pos hx, hnext hscan]
              rfl
      | many p =>
          rw [scan] at h
          split_ifs at h with htake
          obtain ⟨⟨a', r₁⟩, hscan, hm⟩ := Option.map_eq_some_iff.mp h
          cases hm
          have hout : StartsOutside p (a' ++ r') := by
            cases items with
            | nil =>
                cases hscan
                exact hr p rfl
            | cons next items =>
                have hfirst := startsOutside_dropWhile p s
                rw [scan_eq_append hscan] at hfirst
                cases a' with
                | nil => exact absurd rfl (scan_cons_ne_nil hscan)
                | cons x a' => exact fun y hy => hfirst y hy
          obtain ⟨htake', hdrop'⟩ :=
            span_append (fun x hx => List.mem_takeWhile_imp hx) hout
          rw [List.append_assoc, scan, htake', hdrop', if_neg htake, hnext hscan]
          rfl

/-- The part can take `c`. -/
def Item.takes (c : Char) : Item → Bool
  | .char d => d = c
  | .many p => p c

/-- The pattern takes no `c`. -/
def Avoids (c : Char) (items : Pattern) : Prop := ∀ item ∈ items, item.takes c = false

theorem takeWhile_append_cons {p : Char → Bool} {c : Char} (hc : p c = false) (s t : Str) :
    (s ++ c :: t).takeWhile p = s.takeWhile p ∧
      (s ++ c :: t).dropWhile p = s.dropWhile p ++ c :: t := by
  induction s with
  | nil => simp [hc]
  | cons x s ih =>
      cases hx : p x with
      | true => simp [hx, ih.1, ih.2]
      | false => simp [hx]

/-- **A pattern that avoids `c` does not look past it.** -/
theorem scan_blind {items : Pattern} {c : Char} (h : Avoids c items) (s t t' : Str) :
    (scan items (s ++ c :: t)).isSome = (scan items (s ++ c :: t')).isSome := by
  induction items generalizing s with
  | nil => rfl
  | cons item items ih =>
      obtain ⟨hitem, hitems⟩ := List.forall_mem_cons.mp h
      cases item with
      | char d =>
          cases s with
          | nil =>
              have hne : c ≠ d := Ne.symm (of_decide_eq_false hitem)
              simp [scan, hne]
          | cons x s =>
              rw [List.cons_append, List.cons_append, scan, scan]
              split_ifs
              · rw [Option.isSome_map, Option.isSome_map, ih hitems s]
              · rfl
      | many p =>
          obtain ⟨htake, hdrop⟩ := takeWhile_append_cons hitem s t
          obtain ⟨htake', hdrop'⟩ := takeWhile_append_cons hitem s t'
          rw [scan, scan, htake, htake', hdrop, hdrop']
          split_ifs
          · rfl
          · rw [Option.isSome_map, Option.isSome_map, ih hitems]

theorem isSome_scan_append (items items' : Pattern) (s : Str) :
    (scan (items ++ items') s).isSome
      = (scan items s).any fun m => (scan items' m.2).isSome := by
  induction items generalizing s with
  | nil => rfl
  | cons item items ih =>
      cases item with
      | char c =>
          cases s with
          | nil => rfl
          | cons x s =>
              rw [List.cons_append, scan, scan]
              split_ifs
              · rw [Option.isSome_map, ih, Option.any_map]
              · rfl
      | many p =>
          rw [List.cons_append, scan, scan]
          split_ifs
          · rfl
          · rw [Option.isSome_map, ih, Option.any_map]

/-! ## Searching -/

section Find

variable (head body tail : Pattern)

/-- The three groups at the start of a text: the first two, and the text from the third on. -/
def matchAt (s : Str) : Option (Str × Str × Str) :=
  match scan head s with
  | none => none
  | some (a, r) =>
      match scan body r with
      | none => none
      | some (d, b) => if (scan tail b).isSome then some (a, d, b) else none

/-- The first match of the three groups: the text up to the second group, that group, and the text
after it. -/
def find : Str → Option (Str × Str × Str)
  | [] => none
  | x :: s =>
      match matchAt head body tail (x :: s) with
      | some m => some m
      | none => (find s).map fun m => (x :: m.1, m.2)

variable {head body tail}

theorem matchAt_eq_some {s a d b : Str} : matchAt head body tail s = some (a, d, b) ↔
    ∃ r, scan head s = some (a, r) ∧ scan body r = some (d, b) ∧ (scan tail b).isSome = true := by
  unfold matchAt
  constructor
  · intro h
    split at h
    · cases h
    · rename_i a' r hhead
      split at h
      · cases h
      · rename_i d' b' hbody
        split_ifs at h with htail
        cases h
        exact ⟨r, hhead, hbody, htail⟩
  · rintro ⟨r, hhead, hbody, htail⟩
    simp [hhead, hbody, htail]

theorem isSome_matchAt (s : Str) :
    (matchAt head body tail s).isSome = (scan (head ++ (body ++ tail)) s).isSome := by
  rw [isSome_scan_append]
  cases hhead : scan head s with
  | none => simp [matchAt, hhead]
  | some m =>
      rw [Option.any_some, isSome_scan_append]
      cases hbody : scan body m.2 with
      | none => simp [matchAt, hhead, hbody]
      | some m' => cases htail : (scan tail m'.2).isSome <;> simp [matchAt, hhead, hbody, htail]

theorem find_eq_append {s a d b : Str} (h : find head body tail s = some (a, d, b)) :
    s = a ++ (d ++ b) := by
  induction s generalizing a with
  | nil => cases h
  | cons x s ih =>
      rw [find] at h
      split at h
      · rename_i m hmatch
        cases h
        obtain ⟨r, hhead, hbody, -⟩ := matchAt_eq_some.mp hmatch
        rw [scan_eq_append hhead, scan_eq_append hbody]
      · obtain ⟨⟨a', m⟩, hfind, hm⟩ := Option.map_eq_some_iff.mp h
        cases hm
        rw [ih hfind, List.cons_append]

/-- The text up to the second group holds the first character of the first. -/
theorem mem_of_find {c : Char} {s a d b : Str}
    (h : find (.char c :: head) body tail s = some (a, d, b)) : c ∈ a := by
  induction s generalizing a with
  | nil => cases h
  | cons x s ih =>
      rw [find] at h
      split at h
      · rename_i m hmatch
        cases h
        obtain ⟨r, hhead, -, -⟩ := matchAt_eq_some.mp hmatch
        rw [scan] at hhead
        split_ifs at hhead with hx
        obtain ⟨m, -, hm⟩ := Option.map_eq_some_iff.mp hhead
        cases hm
        exact List.mem_cons.mpr (Or.inl hx.symm)
      · obtain ⟨⟨a', m⟩, hfind, hm⟩ := Option.map_eq_some_iff.mp h
        cases hm
        exact List.mem_cons_of_mem _ (ih hfind)

/-- **Another text in the place of the second group is found in the same place**, if only the start
of the first group can take `c`. -/
theorem find_replace {c : Char} {p : Char → Bool} {s a d b d' : Str}
    (havoids : Avoids c (head ++ (.many p :: tail)))
    (h : find (.char c :: head) [.many p] tail s = some (a, d, b))
    (hfollows : Follows (.char c :: head) d') (hne : d' ≠ []) (hd' : ∀ x ∈ d', p x = true) :
    find (.char c :: head) [.many p] tail (a ++ (d' ++ b)) = some (a, d', b) := by
  induction s generalizing a with
  | nil => cases h
  | cons x s ih =>
      rw [find] at h
      split at h
      · rename_i m hmatch
        cases h
        obtain ⟨r, hhead, hbody, htail⟩ := matchAt_eq_some.mp hmatch
        have hout : StartsOutside p b := by
          rw [scan] at hbody
          split_ifs at hbody
          cases hbody
          exact startsOutside_dropWhile p r
        have hfirst : Follows (.char c :: head) (d' ++ b) := fun q hq => by
          cases d' with
          | nil => exact absurd rfl hne
          | cons y d' => exact hfollows q hq
        have hmatch' : matchAt (.char c :: head) [.many p] tail (a ++ (d' ++ b))
            = some (a, d', b) := by
          refine matchAt_eq_some.mpr ⟨d' ++ b, scan_append hhead hfirst, ?_, htail⟩
          obtain ⟨htake, hdrop⟩ := span_append hd' hout
          rw [scan, htake, hdrop, if_neg hne]
          simp [scan]
        cases a with
        | nil => exact absurd rfl (scan_cons_ne_nil hhead)
        | cons y a => rw [List.cons_append, find, ← List.cons_append, hmatch']
      · rename_i hnone
        obtain ⟨⟨a', m⟩, hfind, hm⟩ := Option.map_eq_some_iff.mp h
        cases hm
        -- the earlier place is ruled out by what comes before the next `c`
        have hnone' : matchAt (.char c :: head) [.many p] tail (x :: (a' ++ (d' ++ b))) = none := by
          obtain ⟨u, v, rfl⟩ := List.append_of_mem (mem_of_find hfind)
          rw [← Option.not_isSome_iff_eq_none, isSome_matchAt] at hnone ⊢
          rw [find_eq_append hfind] at hnone
          simp only [List.cons_append, List.nil_append, List.append_assoc, scan] at hnone ⊢
          split_ifs at hnone ⊢ with hx
          · rw [Option.isSome_map] at hnone ⊢
            rwa [scan_blind havoids u _ (v ++ (d ++ b))]
          · exact hnone
        rw [List.cons_append, find, hnone', ih hfind]
        rfl

end Find

/-! ## Replacing -/

/-- What each part of a pattern takes from the start of a text. -/
def groups : Pattern → Str → Option (List Str)
  | [], _ => some []
  | .char _ :: _, [] => none
  | .char c :: items, x :: s => if x = c then (groups items s).map ([x] :: ·) else none
  | .many p :: items, s =>
      if s.takeWhile p = [] then none
      else (groups items (s.dropWhile p)).map (s.takeWhile p :: ·)

theorem groups_char (c : Char) (items : Pattern) (s : Str) :
    groups (.char c :: items) (c :: s) = (groups items s).map ([c] :: ·) := by
  rw [groups, if_pos rfl]

theorem groups_char_of_ne {c x : Char} (h : x ≠ c) (items : Pattern) (s : Str) :
    groups (.char c :: items) (x :: s) = none := by
  rw [groups, if_neg h]

theorem groups_many {p : Char → Bool} {a r : Str} (items : Pattern) (hne : a ≠ [])
    (ha : ∀ x ∈ a, p x = true) (hr : StartsOutside p r) :
    groups (.many p :: items) (a ++ r) = (groups items r).map (a :: ·) := by
  obtain ⟨htake, hdrop⟩ := span_append ha hr
  rw [groups, htake, hdrop, if_neg hne]

section Sub

variable (items : Pattern) (repl : List Str → Str)

/-- `re.sub`, after so many characters that a match has taken already.  The pattern takes at least
one character. -/
def sub : ℕ → Str → Str
  | _, [] => []
  | skip + 1, _ :: s => sub skip s
  | 0, x :: s =>
      match groups items (x :: s) with
      | none => x :: sub 0 s
      | some parts => repl parts ++ sub (parts.flatten.length - 1) s

variable {items repl}

theorem sub_eq_drop (skip : ℕ) (s : Str) :
    sub items repl skip s = sub items repl 0 (s.drop skip) := by
  induction skip generalizing s with
  | zero => rfl
  | succ skip ih =>
      cases s with
      | nil => rfl
      | cons x s => rw [sub, ih, List.drop_succ_cons]

/-- A text in which no match starts is kept. -/
theorem sub_append {a : Str} (h : ∀ x ∈ a, ∀ s, groups items (x :: s) = none) (s : Str) :
    sub items repl 0 (a ++ s) = a ++ sub items repl 0 s := by
  induction a with
  | nil => rfl
  | cons x a ih =>
      obtain ⟨hx, ha⟩ := List.forall_mem_cons.mp h
      rw [List.cons_append, sub, hx, ih ha, List.cons_append]

/-- A match at the start is replaced. -/
theorem sub_match {x : Char} {s : Str} {parts : List Str}
    (h : groups items (x :: s) = some parts) (hne : parts.flatten ≠ []) :
    sub items repl 0 (x :: s)
      = repl parts ++ sub items repl 0 ((x :: s).drop parts.flatten.length) := by
  have hlength : parts.flatten.length = (parts.flatten.length - 1) + 1 := by
    have := List.length_pos_iff.mpr hne
    omega
  simp only [sub, h]
  rw [sub_eq_drop, hlength, List.drop_succ_cons, Nat.add_sub_cancel]

end Sub

end Text
