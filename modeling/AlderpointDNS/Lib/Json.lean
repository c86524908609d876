import AlderpointDNS.Lib.Text
import Mathlib.Data.Nat.Digits.Lemmas

/-!
# JSON text

`dumps` is `json.dumps` with its default separators and `ensure_ascii`, and `loads` is `json.loads`
on compact text: no white space but the blanks that `dumps` writes, and integers only.

* `nextChar_escapeChar` — a character of a string is read back, escaped or not;
* `readInt_intText` — a number is read back before anything that is not a digit;
* **`readValue_dumps`** — a value is read back before anything that may follow it;
* **`loads_dumps`** — the round trip.
-/

namespace Json

open Text

/-- A value: `dict` keeps its order. -/
inductive Value where
  | int (n : ℤ)
  | str (s : Str)
  | list (items : List Value)
  | dict (entries : List (Str × Value))

/-! ## `json.dumps` -/

def hexChar (n : ℕ) : Char := if n < 10 then Char.ofNat (48 + n) else Char.ofNat (87 + n)

/-- `\uXXXX`. -/
def unicodeEscape (n : ℕ) : Str :=
  ['\\', 'u', hexChar (n / 4096 % 16), hexChar (n / 256 % 16), hexChar (n / 16 % 16),
    hexChar (n % 16)]

/-- `ESCAPE_DCT`, by the character after the backslash. -/
def shortEscapes : List (Char × Char) :=
  [('"', '"'), ('\\', '\\'), ('n', '\n'), ('r', '\r'), ('t', '\t'), ('b', Char.ofNat 8),
    ('f', Char.ofNat 12)]

/-- `replace` of `py_encode_basestring_ascii`. -/
def escapeChar (c : Char) : Str :=
  match shortEscapes.find? (·.2 = c) with
  | some (letter, _) => ['\\', letter]
  | none =>
      if 32 ≤ c.toNat ∧ c.toNat < 127 then [c]
      else if c.toNat < 0x10000 then unicodeEscape c.toNat
      else
        let n := c.toNat - 0x10000
        unicodeEscape (0xd800 + n / 0x400) ++ unicodeEscape (0xdc00 + n % 0x400)

def strText (s : Str) : Str := '"' :: s.flatMap escapeChar ++ ['"']

def intText (n : ℤ) : Str :=
  if n < 0 then '-' :: Nat.toDigits 10 n.natAbs else Nat.toDigits 10 n.natAbs

mutual

def dumps : Value → Str
  | .int n => intText n
  | .str s => strText s
  | .list items => '[' :: dumpsItems items ++ [']']
  | .dict entries => '\x7b' :: dumpsEntries entries ++ ['\x7d']

def dumpsItems : List Value → Str
  | [] => []
  | [v] => dumps v
  | v :: vs => dumps v ++ ',' :: ' ' :: dumpsItems vs

def dumpsEntries : List (Str × Value) → Str
  | [] => []
  | [(k, v)] => strText k ++ ':' :: ' ' :: dumps v
  | (k, v) :: es => strText k ++ ':' :: ' ' :: dumps v ++ ',' :: ' ' :: dumpsEntries es

end

/-! ## `json.loads` -/

def hexVal (c : Char) : Option ℕ :=
  if 48 ≤ c.toNat ∧ c.toNat ≤ 57 then some (c.toNat - 48)
  else if 97 ≤ c.toNat ∧ c.toNat ≤ 102 then some (c.toNat - 87)
  else if 65 ≤ c.toNat ∧ c.toNat ≤ 70 then some (c.toNat - 55)
  else none

/-- `_decode_uXXXX`. -/
def readHex4 : Str → Option (ℕ × Str)
  | a :: b :: c :: d :: rest => do
      let a ← hexVal a
      let b ← hexVal b
      let c ← hexVal c
      let d ← hexVal d
      pure (((a * 16 + b) * 16 + c) * 16 + d, rest)
  | _ => none

/-- The character after `\u`; a surrogate has to be half of a pair. -/
def readUnicode (s : Str) : Option (Char × Str) :=
  match readHex4 s with
  | none => none
  | some (high, rest) =>
      if 0xd800 ≤ high ∧ high < 0xe000 then
        match rest with
        | '\\' :: 'u' :: pair =>
            match readHex4 pair with
            | none => none
            | some (low, rest) =>
                if high < 0xdc00 ∧ 0xdc00 ≤ low ∧ low < 0xe000 then
                  some (Char.ofNat (0x10000 + (high - 0xd800) * 0x400 + (low - 0xdc00)), rest)
                else none
        | _ => none
      else some (Char.ofNat high, rest)

/-- One character of a string. -/
def nextChar : Str → Option (Char × Str)
  | [] => none
  | c :: cs =>
      if c = '\\' then
        match cs with
        | [] => none
        | letter :: rest =>
            if letter = 'u' then readUnicode rest
            else (shortEscapes.find? (·.1 = letter)).map fun e => (e.2, rest)
      else if c.toNat < 32 then none
      else some (c, cs)

/-- The rest of a string after its opening quote. -/
def readString : ℕ → Str → Option (Str × Str)
  | 0, _ => none
  | fuel + 1, s =>
      if s.head? = some '"' then some ([], s.tail)
      else match nextChar s with
        | none => none
        | some (c, rest) => (readString fuel rest).map fun r => (c :: r.1, r.2)

def readInt (s : Str) : Option (ℤ × Str) :=
  let digits := if s.head? = some '-' then s.tail else s
  let n : ℤ := Nat.ofDigitChars 10 (digits.takeWhile Char.isDigit) 0
  if digits.takeWhile Char.isDigit = [] then none
  else some (if s.head? = some '-' then -n else n, digits.dropWhile Char.isDigit)

mutual

def readValue : ℕ → Str → Option (Value × Str)
  | 0, _ => none
  | fuel + 1, s =>
      if s.head? = some '"' then (readString fuel s.tail).map fun r => (.str r.1, r.2)
      else if s.head? = some '[' then
        if s.tail.head? = some ']' then some (.list [], s.tail.tail)
        else (readItems fuel s.tail).map fun r => (.list r.1, r.2)
      else if s.head? = some '\x7b' then
        if s.tail.head? = some '\x7d' then some (.dict [], s.tail.tail)
        else (readEntries fuel s.tail).map fun r => (.dict r.1, r.2)
      else (readInt s).map fun r => (.int r.1, r.2)

/-- What follows `[` or a comma of a list. -/
def readItems : ℕ → Str → Option (List Value × Str)
  | 0, _ => none
  | fuel + 1, s =>
      match readValue fuel s with
      | none => none
      | some (v, rest) =>
          if rest.head? = some ']' then some ([v], rest.tail)
          else if startsWith rest ", ".toList then
            (readItems fuel (rest.drop 2)).map fun r => (v :: r.1, r.2)
          else none

/-- What follows the brace or a comma of a dictionary. -/
def readEntries : ℕ → Str → Option (List (Str × Value) × Str)
  | 0, _ => none
  | fuel + 1, s =>
      if s.head? ≠ some '"' then none
      else match readString fuel s.tail with
        | none => none
        | some (k, rest) =>
            if startsWith rest ": ".toList then
              match readValue fuel (rest.drop 2) with
              | none => none
              | some (v, rest) =>
                  if rest.head? = some '\x7d' then some ([(k, v)], rest.tail)
                  else if startsWith rest ", ".toList then
                    (readEntries fuel (rest.drop 2)).map fun r => ((k, v) :: r.1, r.2)
                  else none
            else none

end

def loads (s : Str) : Option Value :=
  match readValue s.length s with
  | some (v, []) => some v
  | _ => none

example : (loads (dumps (.dict [("a".toList, .list [.int (-12), .str "x\"\n".toList])]))).map dumps
    = some "\x7b\"a\": [-12, \"x\\\"\\n\"]\x7d".toList := by
  decide +kernel

/-! ## Strings -/

theorem hexVal_hexChar {k : ℕ} (h : k < 16) : hexVal (hexChar k) = some k := by
  have key : ∀ k : Fin 16, hexVal (hexChar k) = some k.1 := by decide
  exact key ⟨k, h⟩

theorem readHex4_append {n : ℕ} (h : n < 0x10000) (rest : Str) :
    readHex4 (hexChar (n / 4096 % 16) :: hexChar (n / 256 % 16) :: hexChar (n / 16 % 16)
      :: hexChar (n % 16) :: rest) = some (n, rest) := by
  have hlt : ∀ m : ℕ, m % 16 < 16 := fun m => Nat.mod_lt _ (by decide)
  have hvalue : ((n / 4096 % 16 * 16 + n / 256 % 16) * 16 + n / 16 % 16) * 16 + n % 16 = n := by
    omega
  simp [readHex4, hexVal_hexChar (hlt _), hvalue]

theorem toNat_cases (c : Char) : c.toNat < 0xd800 ∨ 0xdfff < c.toNat ∧ c.toNat < 0x110000 :=
  c.valid

/-- A character is no surrogate. -/
theorem toNat_not_surrogate (c : Char) : ¬(0xd800 ≤ c.toNat ∧ c.toNat < 0xe000) := by
  have h := toNat_cases c
  omega

theorem readUnicode_of_lt (c : Char) (h : c.toNat < 0x10000) (rest : Str) :
    readUnicode ((unicodeEscape c.toNat).drop 2 ++ rest) = some (c, rest) := by
  have hread := readHex4_append h rest
  simp only [readUnicode, unicodeEscape, List.drop_succ_cons, List.drop_zero, List.cons_append,
    List.nil_append, hread, if_neg (toNat_not_surrogate c), Char.ofNat_toNat]

theorem readUnicode_pair {high low : ℕ} (hhigh : 0xd800 ≤ high ∧ high < 0xdc00)
    (hlow : 0xdc00 ≤ low ∧ low < 0xe000) (rest : Str) :
    readUnicode ((unicodeEscape high).drop 2 ++ (unicodeEscape low ++ rest))
      = some (Char.ofNat (0x10000 + (high - 0xd800) * 0x400 + (low - 0xdc00)), rest) := by
  have hreadHigh := readHex4_append (show high < 0x10000 by omega)
  have hreadLow := readHex4_append (show low < 0x10000 by omega)
  have hsurrogate : 0xd800 ≤ high ∧ high < 0xe000 := by omega
  have hpair : high < 0xdc00 ∧ 0xdc00 ≤ low ∧ low < 0xe000 := by omega
  simp only [readUnicode, unicodeEscape, List.drop_succ_cons, List.drop_zero, List.cons_append,
    List.nil_append, hreadHigh, hreadLow, if_pos hsurrogate, if_pos hpair]

theorem nextChar_unicodeEscape (n : ℕ) (rest : Str) :
    nextChar (unicodeEscape n ++ rest) = readUnicode ((unicodeEscape n).drop 2 ++ rest) := by
  simp only [nextChar, unicodeEscape, List.cons_append, List.nil_append, if_true,
    List.drop_succ_cons, List.drop_zero]

theorem shortEscapes_spec : ∀ e ∈ shortEscapes,
    e.1 ≠ 'u' ∧ shortEscapes.find? (·.1 = e.1) = some e := by
  decide

/-- **A character is read back.** -/
theorem nextChar_escapeChar (c : Char) (rest : Str) :
    nextChar (escapeChar c ++ rest) = some (c, rest) := by
  unfold escapeChar
  cases hfind : shortEscapes.find? (·.2 = c) with
  | some e =>
      obtain ⟨hletter, hback⟩ := shortEscapes_spec e (List.mem_of_find?_eq_some hfind)
      have hc : e.2 = c := by simpa using List.find?_some hfind
      simp [nextChar, hletter, hback, hc]
  | none =>
      have hbackslash : c ≠ '\\' := by
        rintro rfl
        cases hfind
      dsimp only
      split_ifs with hprint hplane
      · have hcontrol : ¬c.toNat < 32 := by omega
        simp [nextChar, hbackslash, hcontrol]
      · rw [nextChar_unicodeEscape, readUnicode_of_lt c hplane]
      · have hvalid := toNat_cases c
        generalize hn : c.toNat - 0x10000 = n
        have hvalue : 0x10000 + (0xd800 + n / 0x400 - 0xd800) * 0x400
            + (0xdc00 + n % 0x400 - 0xdc00) = c.toNat := by
          omega
        rw [List.append_assoc, nextChar_unicodeEscape, readUnicode_pair (by omega) (by omega),
          hvalue, Char.ofNat_toNat]

/-- What is written for a character does not start with a quote. -/
theorem escapeChar_head (c : Char) : ∃ x xs, escapeChar c = x :: xs ∧ x ≠ '"' := by
  unfold escapeChar
  cases hfind : shortEscapes.find? (·.2 = c) with
  | some e => exact ⟨_, _, rfl, by decide⟩
  | none =>
      dsimp only
      split_ifs with hprint
      · refine ⟨c, [], rfl, ?_⟩
        rintro rfl
        cases hfind
      · exact ⟨_, _, rfl, by decide⟩
      · exact ⟨_, _, rfl, by decide⟩

theorem readString_flatMap (s rest : Str) : ∀ {fuel : ℕ}, s.length < fuel →
    readString fuel (s.flatMap escapeChar ++ '"' :: rest) = some (s, rest) := by
  induction s with
  | nil =>
      intro fuel hfuel
      obtain ⟨fuel, rfl⟩ := Nat.exists_eq_succ_of_ne_zero (by omega : fuel ≠ 0)
      rfl
  | cons c s ih =>
      intro fuel hfuel
      obtain ⟨fuel, rfl⟩ := Nat.exists_eq_succ_of_ne_zero (by omega : fuel ≠ 0)
      obtain ⟨x, xs, hx, hquote⟩ := escapeChar_head c
      have hhead : (escapeChar c ++ (s.flatMap escapeChar ++ '"' :: rest)).head? ≠ some '"' := by
        simp [hx, hquote]
      rw [List.flatMap_cons, List.append_assoc, readString, if_neg hhead, nextChar_escapeChar]
      dsimp only
      rw [ih (Nat.lt_of_succ_lt_succ hfuel)]
      rfl

theorem length_le_flatMap (s : Str) : s.length ≤ (s.flatMap escapeChar).length := by
  induction s with
  | nil => exact Nat.zero_le _
  | cons c s ih =>
      obtain ⟨x, xs, hx, -⟩ := escapeChar_head c
      simp only [List.flatMap_cons, List.length_append, List.length_cons, hx]
      omega

/-! ## Numbers -/

/-- What may follow a value: no digit, which would belong to a number. -/
def Follows (rest : Str) : Prop := ∀ c ∈ rest.head?, c.isDigit = false

theorem follows_cons {c : Char} (h : c.isDigit = false) (rest : Str) : Follows (c :: rest) := by
  intro x hx
  rw [← Option.some.inj hx]
  exact h

theorem isDigit_toDigits {n : ℕ} : ∀ c ∈ Nat.toDigits 10 n, c.isDigit = true := fun _ hc =>
  Nat.isDigit_of_mem_toDigits (by decide) (by decide) hc

theorem takeWhile_toDigits (n : ℕ) {rest : Str} (h : Follows rest) :
    (Nat.toDigits 10 n ++ rest).takeWhile Char.isDigit = Nat.toDigits 10 n
      ∧ (Nat.toDigits 10 n ++ rest).dropWhile Char.isDigit = rest := by
  have hrest : rest.takeWhile Char.isDigit = [] ∧ rest.dropWhile Char.isDigit = rest := by
    cases rest with
    | nil => exact ⟨rfl, rfl⟩
    | cons c cs => simp [h c rfl]
  rw [List.takeWhile_append_of_pos isDigit_toDigits, List.dropWhile_append_of_pos isDigit_toDigits,
    hrest.1, hrest.2, List.append_nil]
  exact ⟨rfl, rfl⟩

/-- A number starts with its sign or a digit. -/
theorem intText_head (n : ℤ) :
    ∃ c cs, intText n = c :: cs ∧ (c.isDigit = true ∨ c = '-') := by
  unfold intText
  split_ifs
  · exact ⟨_, _, rfl, Or.inr rfl⟩
  · obtain ⟨c, cs, hc⟩ := List.exists_cons_of_ne_nil (Nat.toDigits_ne_nil (n := n.natAbs) (b := 10))
    exact ⟨c, cs, hc, Or.inl (isDigit_toDigits c (hc ▸ List.mem_cons_self))⟩

/-- **A number is read back.** -/
theorem readInt_intText (n : ℤ) {rest : Str} (h : Follows rest) :
    readInt (intText n ++ rest) = some (n, rest) := by
  obtain ⟨htake, hdrop⟩ := takeWhile_toDigits n.natAbs h
  unfold readInt intText
  split_ifs with hneg hhead hhead
  · simp only [List.cons_append, List.tail_cons, htake, hdrop, Nat.toDigits_ne_nil, if_false,
      Nat.ofDigitChars_ten_toDigits]
    congr 2
    omega
  · exact absurd rfl hhead
  · obtain ⟨c, cs, hc⟩ := List.exists_cons_of_ne_nil (Nat.toDigits_ne_nil (n := n.natAbs) (b := 10))
    have hdigit := isDigit_toDigits c (hc ▸ List.mem_cons_self)
    rw [hc] at hhead
    cases hhead
    cases hdigit
  · simp only [htake, hdrop, Nat.toDigits_ne_nil, if_false, Nat.ofDigitChars_ten_toDigits]
    congr 2
    omega

/-! ## Values -/

/-- A value starts with none of the closing characters. -/
theorem dumps_head (v : Value) : ∃ c cs, dumps v = c :: cs ∧ c ≠ ']' := by
  cases v with
  | int n =>
      obtain ⟨c, cs, hc, hstart⟩ := intText_head n
      refine ⟨c, cs, by rw [dumps, hc], ?_⟩
      rintro rfl
      rcases hstart with h | h <;> cases h
  | str s => exact ⟨_, _, by rw [dumps, strText]; rfl, by decide⟩
  | list items => exact ⟨_, _, by rw [dumps]; rfl, by decide⟩
  | dict entries => exact ⟨_, _, by rw [dumps]; rfl, by decide⟩

theorem dumpsItems_cons_cons (v w : Value) (vs : List Value) :
    dumpsItems (v :: w :: vs) = dumps v ++ ',' :: ' ' :: dumpsItems (w :: vs) := by
  rw [dumpsItems]
  simp

theorem dumpsEntries_cons_cons (k : Str) (v : Value) (e : Str × Value) (es : List (Str × Value)) :
    dumpsEntries ((k, v) :: e :: es)
      = strText k ++ ':' :: ' ' :: dumps v ++ ',' :: ' ' :: dumpsEntries (e :: es) := by
  rw [dumpsEntries]
  simp

theorem dumpsItems_head {vs : List Value} (h : vs ≠ []) :
    ∃ c cs, dumpsItems vs = c :: cs ∧ c ≠ ']' := by
  obtain ⟨v, vs, rfl⟩ := List.exists_cons_of_ne_nil h
  obtain ⟨c, cs, hc, hne⟩ := dumps_head v
  cases vs with
  | nil => exact ⟨c, cs, by rw [dumpsItems, hc], hne⟩
  | cons v' vs => exact ⟨c, _, by rw [dumpsItems_cons_cons, hc]; rfl, hne⟩

theorem dumpsEntries_head {es : List (Str × Value)} (h : es ≠ []) :
    ∃ cs, dumpsEntries es = '"' :: cs := by
  obtain ⟨⟨k, v⟩, es, rfl⟩ := List.exists_cons_of_ne_nil h
  cases es with
  | nil => exact ⟨_, by rw [dumpsEntries, strText]; rfl⟩
  | cons e es => exact ⟨_, by rw [dumpsEntries_cons_cons, strText]; rfl⟩

theorem readString_strText (k rest : Str) {fuel : ℕ} (h : (strText k).length ≤ fuel + 1) :
    readString fuel (strText k ++ rest).tail = some (k, rest) := by
  have hlength := length_le_flatMap k
  simp only [strText, List.length_append, List.length_cons, List.length_nil] at h
  have htail : (strText k ++ rest).tail = k.flatMap escapeChar ++ '"' :: rest := by
    simp [strText]
  rw [htail]
  exact readString_flatMap k rest (by omega)

mutual

/-- **A value is read back.** -/
theorem readValue_dumps (v : Value) (fuel : ℕ) (rest : Str) (hfuel : (dumps v).length ≤ fuel)
    (h : Follows rest) : readValue fuel (dumps v ++ rest) = some (v, rest) := by
  have hpos : fuel ≠ 0 := by
    obtain ⟨c, cs, hc, -⟩ := dumps_head v
    rw [hc, List.length_cons] at hfuel
    omega
  obtain ⟨fuel, rfl⟩ := Nat.exists_eq_succ_of_ne_zero hpos
  rw [readValue]
  cases v with
  | int n =>
      obtain ⟨c, cs, hc, hstart⟩ := intText_head n
      have hhead : ∀ x : Char, x.isDigit = false → x ≠ '-' →
          (dumps (.int n) ++ rest).head? ≠ some x := by
        intro x hdigit hminus heq
        rw [dumps, hc] at heq
        cases heq
        exact hstart.elim (fun h => Bool.noConfusion (h.symm.trans hdigit)) hminus
      rw [if_neg (hhead _ (by decide) (by decide)), if_neg (hhead _ (by decide) (by decide)),
        if_neg (hhead _ (by decide) (by decide)), dumps, readInt_intText n h]
      rfl
  | str s =>
      rw [dumps] at hfuel ⊢
      rw [if_pos (by rw [strText]; rfl), readString_strText s rest hfuel]
      rfl
  | list items =>
      rw [dumps] at hfuel ⊢
      have htail : ('[' :: dumpsItems items ++ [']'] ++ rest).tail
          = dumpsItems items ++ ']' :: rest := by
        simp
      rw [if_neg (by simp), if_pos (by simp), htail]
      by_cases hne : items = []
      · subst hne
        rfl
      · obtain ⟨c, cs, hc, hclose⟩ := dumpsItems_head hne
        simp only [List.length_cons, List.length_append, List.length_nil] at hfuel
        rw [if_neg (by simp [hc, hclose]), readItems_dumpsItems items fuel rest hne (by omega)]
        rfl
  | dict entries =>
      rw [dumps] at hfuel ⊢
      have htail : ('\x7b' :: dumpsEntries entries ++ ['\x7d'] ++ rest).tail
          = dumpsEntries entries ++ '\x7d' :: rest := by
        simp
      rw [if_neg (by simp), if_neg (by simp), if_pos (by simp), htail]
      by_cases hne : entries = []
      · subst hne
        rfl
      · obtain ⟨cs, hc⟩ := dumpsEntries_head hne
        simp only [List.length_cons, List.length_append, List.length_nil] at hfuel
        rw [if_neg (by simp [hc]), readEntries_dumpsEntries entries fuel rest hne (by omega)]
        rfl

theorem readItems_dumpsItems (vs : List Value) (fuel : ℕ) (rest : Str) (hne : vs ≠ [])
    (hfuel : (dumpsItems vs).length < fuel) :
    readItems fuel (dumpsItems vs ++ ']' :: rest) = some (vs, rest) := by
  obtain ⟨fuel, rfl⟩ := Nat.exists_eq_succ_of_ne_zero (by omega : fuel ≠ 0)
  rw [readItems]
  match vs with
  | [] => exact absurd rfl hne
  | [v] =>
      rw [dumpsItems] at hfuel ⊢
      rw [readValue_dumps v fuel _ (by omega) (follows_cons (by decide) rest)]
      rfl
  | v :: w :: vs =>
      rw [dumpsItems_cons_cons] at hfuel ⊢
      simp only [List.length_append, List.length_cons] at hfuel
      rw [List.append_assoc, List.cons_append, List.cons_append,
        readValue_dumps v fuel _ (by omega) (follows_cons (by decide) _)]
      have hread := readItems_dumpsItems (w :: vs) fuel rest (by simp) (by omega)
      simp [hread]

theorem readEntries_dumpsEntries (es : List (Str × Value)) (fuel : ℕ) (rest : Str) (hne : es ≠ [])
    (hfuel : (dumpsEntries es).length < fuel) :
    readEntries fuel (dumpsEntries es ++ '\x7d' :: rest) = some (es, rest) := by
  obtain ⟨fuel, rfl⟩ := Nat.exists_eq_succ_of_ne_zero (by omega : fuel ≠ 0)
  obtain ⟨cs, hquote⟩ := dumpsEntries_head hne
  rw [readEntries, if_neg (by simp [hquote])]
  match es with
  | [] => exact absurd rfl hne
  | [(k, v)] =>
      rw [dumpsEntries] at hfuel ⊢
      simp only [List.length_append, List.length_cons] at hfuel
      rw [List.append_assoc, readString_strText k _ (by omega)]
      have hvalue := readValue_dumps v fuel ('\x7d' :: rest) (by omega)
        (follows_cons (by decide) rest)
      simp [hvalue]
  | (k, v) :: e :: es =>
      rw [dumpsEntries_cons_cons] at hfuel ⊢
      simp only [List.length_append, List.length_cons] at hfuel
      rw [List.append_assoc, List.append_assoc, readString_strText k _ (by omega)]
      have hvalue := readValue_dumps v fuel
        (',' :: ' ' :: (dumpsEntries (e :: es) ++ '\x7d' :: rest)) (by omega)
        (follows_cons (by decide) _)
      have hread := readEntries_dumpsEntries (e :: es) fuel rest (by simp) (by omega)
      simp [hvalue, hread]

end

/-- **The round trip.** -/
theorem loads_dumps (v : Value) : loads (dumps v) = some v := by
  have hread := readValue_dumps v _ [] le_rfl fun c hc => by cases hc
  rw [List.append_nil] at hread
  rw [loads, hread]

end Json
