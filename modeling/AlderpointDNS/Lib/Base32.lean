import AlderpointDNS.Lib.Encodings
import AlderpointDNS.Lib.IpText

/-!
# Reading Base32 and hexadecimal text back

`b32decode` is `base64.b32decode`: eight characters are five bytes, and the padding says how many
bytes of the last five are dropped.  `bytesHex` is `bytes.hex`.

* **`b32decode_b32encode`** — every list of bytes is read back from its Base32 text;
* `bytesHex_of_bytesFromHex` — and lower-case hexadecimal text from its bytes.
-/

namespace Encodings

open Text Ipaddress Numerals

/-! ## Hexadecimal -/

/-- `bytes.hex()`. -/
def bytesHex (bytes : List ℕ) : Str :=
  bytes.flatMap fun b => [hexDigit (b / 16), hexDigit (b % 16)]

theorem isLowerHex_hexDigit {k : ℕ} (h : k < 16) : isLowerHex (hexDigit k) = true := by
  have key : ∀ k : Fin 16, isLowerHex (hexDigit k) = true := by decide
  exact key ⟨k, h⟩

theorem length_bytesHex (bytes : List ℕ) : (bytesHex bytes).length = bytes.length * 2 := by
  induction bytes with
  | nil => rfl
  | cons b bytes ih =>
      rw [bytesHex, List.flatMap_cons, List.length_append, ← bytesHex, ih, List.length_cons]
      simp only [List.length_cons, List.length_nil]
      omega

theorem bytesHex_spec {bytes : List ℕ} (h : ∀ x ∈ bytes, x < 256) :
    (bytesHex bytes).all isLowerHex = true ∧ bytesFromHex (bytesHex bytes) = some bytes := by
  induction bytes with
  | nil => exact ⟨rfl, rfl⟩
  | cons b bytes ih =>
      obtain ⟨hall, hread⟩ := ih fun x hx => h x (List.mem_cons_of_mem b hx)
      have hb : b < 256 := h b List.mem_cons_self
      have hhigh := isLowerHex_hexDigit (show b / 16 < 16 by omega)
      have hlow := isLowerHex_hexDigit (show b % 16 < 16 by omega)
      have hcons : bytesHex (b :: bytes)
          = hexDigit (b / 16) :: hexDigit (b % 16) :: bytesHex bytes := rfl
      rw [hcons]
      refine ⟨by simp [hhigh, hlow, hall], ?_⟩
      rw [bytesFromHex_cons hhigh hlow, hread, digitVal_hexDigit (by omega),
        digitVal_hexDigit (by omega), Option.map_some, Nat.div_add_mod']

/-- **Lower-case text is the text of its bytes.** -/
theorem bytesHex_of_bytesFromHex {s : Str} {bytes : List ℕ} (hs : s.all isLowerHex = true)
    (heven : s.length % 2 = 0) (h : bytesFromHex s = some bytes) : bytesHex bytes = s := by
  obtain ⟨bytes', hread, hcount, hlt, hinj⟩ := bytesFromHex_spec hs heven
  rw [h] at hread
  cases hread
  obtain ⟨hall, hback⟩ := bytesHex_spec hlt
  exact hinj _ hall ((length_bytesHex bytes).trans hcount) hback

/-! ## Base32 -/

/-- The place of a character in the alphabet. -/
def b32Value (c : Char) : Option ℕ :=
  if 'A' ≤ c && c ≤ 'Z' then some (c.toNat - 65)
  else if '2' ≤ c && c ≤ '7' then some (c.toNat - 24)
  else none

/-- The digits in groups of eight; the last group may be shorter. -/
def quanta (ds : List ℕ) : List (List ℕ) :=
  if ds = [] then [] else ds.take 8 :: quanta (ds.drop 8)
termination_by ds.length
decreasing_by
  have := List.length_pos_iff.mpr ‹¬ds = []›
  simp only [List.length_drop]
  omega

/-- The bytes of the digits, when `padchars` characters of the last group are padding. -/
def b32bytes (ds : List ℕ) (padchars : ℕ) : List ℕ :=
  let decoded := (quanta ds).flatMap fun quantum => digits 256 5 (value 32 0 quantum)
  if padchars ≠ 0 && decoded ≠ [] then
    let acc := value 32 0 ((quanta ds).getLast?.getD []) * 32 ^ padchars
    decoded.take (decoded.length - 5) ++ (digits 256 5 acc).take ((43 - 5 * padchars) / 8)
  else decoded

/-- `base64.b32decode`; an error is `none`. -/
def b32decode (s : Str) : Option (List ℕ) :=
  if s.length % 8 ≠ 0 then none
  else
    let body := s.rdropWhile (· = '=')
    let padchars := s.length - body.length
    match body.mapM b32Value with
    | none => none
    | some ds => if padchars ∈ [0, 1, 3, 4, 6] then some (b32bytes ds padchars) else none

theorem b32Value_b32Char {k : ℕ} (h : k < 32) : b32Value (b32Char k) = some k := by
  have key : ∀ k : Fin 32, b32Value (b32Char k) = some k.1 := by decide
  exact key ⟨k, h⟩

theorem mapM_b32Value {ds : List ℕ} (h : ∀ k ∈ ds, k < 32) :
    (ds.map b32Char).mapM b32Value = some ds := by
  induction ds with
  | nil => rfl
  | cons d ds ih =>
      rw [List.map_cons, List.mapM_cons, b32Value_b32Char (h d List.mem_cons_self),
        ih fun k hk => h k (List.mem_cons_of_mem d hk)]
      rfl

theorem quanta_nil : quanta [] = [] := by rw [quanta, if_pos rfl]

theorem quanta_append {g : List ℕ} (hg : g.length = 8) (rest : List ℕ) :
    quanta (g ++ rest) = g :: quanta rest := by
  have hne : g ++ rest ≠ [] := by
    intro h
    rw [List.append_eq_nil_iff.mp h |>.1] at hg
    cases hg
  rw [quanta, if_neg hne, ← hg, List.take_left, List.drop_left]

theorem quanta_short {g : List ℕ} (hne : g ≠ []) (hg : g.length ≤ 8) : quanta g = [g] := by
  rw [quanta, if_neg hne, List.take_of_length_le hg, List.drop_of_length_le hg, quanta_nil]

theorem quanta_ne_nil {ds : List ℕ} (h : ds ≠ []) : quanta ds ≠ [] := by
  rw [quanta, if_neg h]
  exact List.cons_ne_nil _ _

/-- A group of digits as bytes. -/
theorem five_le_length_decoded {ds : List ℕ} (h : ds ≠ []) :
    5 ≤ ((quanta ds).flatMap fun quantum => digits 256 5 (value 32 0 quantum)).length := by
  obtain ⟨g, gs, hgs⟩ := List.exists_cons_of_ne_nil (quanta_ne_nil h)
  rw [hgs, List.flatMap_cons, List.length_append, length_digits]
  omega

/-- A whole group before other digits is five bytes before theirs. -/
theorem b32bytes_append {g rest : List ℕ} {padchars : ℕ} (hg : g.length = 8)
    (hpad : rest = [] → padchars = 0) :
    b32bytes (g ++ rest) padchars
      = digits 256 5 (value 32 0 g) ++ b32bytes rest padchars := by
  rw [b32bytes, b32bytes, quanta_append hg, List.flatMap_cons]
  dsimp only
  by_cases hzero : padchars = 0
  · rw [if_neg (by simp [hzero]), if_neg (by simp [hzero])]
  have hrest : rest ≠ [] := fun h => hzero (hpad h)
  have hfive := five_le_length_decoded hrest
  have hlast : (g :: quanta rest).getLast? = (quanta rest).getLast? :=
    List.getLast?_cons_of_ne_nil (quanta_ne_nil hrest)
  rw [hlast]
  generalize (quanta rest).flatMap (fun quantum => digits 256 5 (value 32 0 quantum)) = decoded
    at hfive
  have hdecoded : decoded ≠ [] := by
    rintro rfl
    simp at hfive
  rw [if_pos (by simp [hzero, hdecoded]), if_pos (by simp [hzero, hdecoded]), List.length_append,
    length_digits, Nat.add_sub_cancel_left, List.take_append, length_digits,
    List.take_of_length_le (by rw [length_digits]; exact hfive), List.append_assoc]

/-- A last group of fewer than five bytes. -/
theorem b32bytes_last {s : List ℕ} {j m padchars : ℕ} (hs : ∀ x ∈ s, x < 256) (hj : 0 < j)
    (hj8 : j ≤ 8) (hm : m * 32 ^ padchars = 256 ^ (5 - s.length)) (hlen : s.length ≤ 5)
    (hfit : 256 ^ s.length * m ≤ 32 ^ j) (hm0 : 0 < m) (hpad : padchars ≠ 0)
    (hleft : (43 - 5 * padchars) / 8 = s.length) :
    b32bytes (digits 32 j (value 256 0 s * m)) padchars = s := by
  have hne : digits 32 j (value 256 0 s * m) ≠ [] := by
    intro h
    have := congrArg List.length h
    rw [length_digits, List.length_nil] at this
    omega
  have hlt : value 256 0 s * m < 32 ^ j :=
    lt_of_lt_of_le (Nat.mul_lt_mul_of_pos_right (value_lt hs) hm0) hfit
  have hvalue : value 32 0 (digits 32 j (value 256 0 s * m)) = value 256 0 s * m := by
    rw [value_digits, Nat.zero_mul, Nat.zero_add, Nat.mod_eq_of_lt hlt]
  -- shifted by the padding, the number is that of the bytes with zeros behind them
  have hzeros : ∀ x ∈ s ++ List.replicate (5 - s.length) 0, x < 256 := by
    intro x hx
    rcases List.mem_append.mp hx with hx | hx
    · exact hs x hx
    · rw [(List.mem_replicate.mp hx).2]
      decide
  have hshift : value 256 0 s * m * 32 ^ padchars
      = value 256 0 (s ++ List.replicate (5 - s.length) 0) := by
    rw [value_append, value_replicate_zero, Nat.mul_assoc, hm]
  have hfive : (s ++ List.replicate (5 - s.length) 0).length = 5 := by
    rw [List.length_append, List.length_replicate]
    omega
  have hbytes : digits 256 5 (value 256 0 s * m * 32 ^ padchars)
      = s ++ List.replicate (5 - s.length) 0 := by
    have := digits_value hzeros
    rwa [hfive, ← hshift] at this
  rw [b32bytes, quanta_short hne (by rw [length_digits]; exact hj8), List.flatMap_singleton]
  dsimp only
  have hdecoded : digits 256 5 (value 32 0 (digits 32 j (value 256 0 s * m))) ≠ [] := by
    intro h
    have := congrArg List.length h
    rw [length_digits] at this
    cases this
  rw [if_pos (by simp [hpad, hdecoded]), length_digits, Nat.sub_self, List.take_zero,
    List.nil_append, List.getLast?_singleton, Option.getD_some, hvalue, hbytes, hleft,
    List.take_left]

theorem b32digits_ne_nil {bytes : List ℕ} (h : b32digits bytes = []) : bytes = [] := by
  have := congrArg List.length h
  rw [length_b32digits, List.length_nil] at this
  exact List.length_eq_zero_iff.mp (by omega)

/-- The digits of bytes are these bytes. -/
theorem b32bytes_b32digits : ∀ {bytes : List ℕ}, (∀ x ∈ bytes, x < 256) →
    b32bytes (b32digits bytes) (b32padding bytes.length) = bytes
  | a :: b :: c :: d :: e :: rest, h => by
      have hfive : ∀ x ∈ [a, b, c, d, e], x < 256 := fun x hx => h x (by simp at hx ⊢; tauto)
      have hrest : ∀ x ∈ rest, x < 256 := fun x hx => h x (by simp [hx])
      have hpad : b32padding (a :: b :: c :: d :: e :: rest).length = b32padding rest.length := by
        simp only [b32padding, List.length_cons]
        rw [show rest.length + 1 + 1 + 1 + 1 + 1 = rest.length + 5 by omega, Nat.add_mod_right]
      have hvalue : value 32 0 (digits 32 8 (value 256 0 [a, b, c, d, e]))
          = value 256 0 [a, b, c, d, e] := by
        rw [value_digits, Nat.zero_mul, Nat.zero_add]
        exact Nat.mod_eq_of_lt (lt_of_lt_of_eq (value_lt hfive) (by simp))
      have hbytes : digits 256 5 (value 256 0 [a, b, c, d, e]) = [a, b, c, d, e] :=
        digits_value hfive
      rw [b32digits, hpad, b32bytes_append (length_digits _ _ _) ?_, hvalue, hbytes,
        b32bytes_b32digits hrest]
      · rfl
      · intro hempty
        rw [b32digits_ne_nil hempty]
        rfl
  | [], _ => by simp [b32bytes, b32digits, quanta_nil]
  | [a], h => by
      rw [b32digits]
      exact b32bytes_last h (by decide) (by decide) (by simp [b32padding]) (by simp) (by simp)
        (by decide) (by simp [b32padding]) (by simp [b32padding])
  | [a, b], h => by
      rw [b32digits]
      exact b32bytes_last h (by decide) (by decide) (by simp [b32padding]) (by simp) (by simp)
        (by decide) (by simp [b32padding]) (by simp [b32padding])
  | [a, b, c], h => by
      rw [b32digits]
      exact b32bytes_last h (by decide) (by decide) (by simp [b32padding]) (by simp) (by simp)
        (by decide) (by simp [b32padding]) (by simp [b32padding])
  | [a, b, c, d], h => by
      rw [b32digits]
      exact b32bytes_last h (by decide) (by decide) (by simp [b32padding]) (by simp) (by simp)
        (by decide) (by simp [b32padding]) (by simp [b32padding])

theorem b32padding_mem (n : ℕ) : b32padding n ∈ [0, 1, 3, 4, 6] := by
  unfold b32padding
  split <;> decide

theorem length_b32encode_mod (bytes : List ℕ) : (b32encode bytes).length % 8 = 0 := by
  rw [b32encode, List.length_append, List.length_map, List.length_replicate, length_b32digits]
  generalize bytes.length = n
  have hmod : n % 5 = 0 ∨ n % 5 = 1 ∨ n % 5 = 2 ∨ n % 5 = 3 ∨ n % 5 = 4 := by omega
  rcases hmod with h | h | h | h | h <;> simp only [b32padding, h] <;> omega

/-- **Every list of bytes is read back from its Base32 text.** -/
theorem b32decode_b32encode {bytes : List ℕ} (h : ∀ x ∈ bytes, x < 256) :
    b32decode (b32encode bytes) = some bytes := by
  have hpad : (b32encode bytes).length - ((b32digits bytes).map b32Char).length
      = b32padding bytes.length := by
    rw [b32encode, List.length_append, List.length_replicate, Nat.add_sub_cancel_left]
  rw [b32decode, if_neg (by rw [length_b32encode_mod]; decide)]
  dsimp only
  rw [rdropWhile_b32encode, hpad, mapM_b32Value fun k hk => lt_of_mem_b32digits hk]
  dsimp only
  rw [if_pos (b32padding_mem _), b32bytes_b32digits h]

end Encodings
