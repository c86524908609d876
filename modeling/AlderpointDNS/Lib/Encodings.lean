import AlderpointDNS.Lib.Ipaddress
import AlderpointDNS.Lib.Numerals
import Mathlib.Data.Char

/-!
# Bytes as hexadecimal and Base32 text

`bytesFromHex` is `bytes.fromhex`, and `b32encode` is `base64.b32encode`: each five bytes are eight
digits, a shorter last group is filled with zero bits, and `=` fills the text to eight characters.

* **`bytesFromHex_spec`** — on lower-case text the bytes determine the text.
* **`b32digits_inj`** — the digits determine bytes of a known number.
* `map_lower_inj` — and so do the characters in lower case.
-/

namespace Encodings

open Text Ipaddress Numerals

/-! ## Hexadecimal -/

/-- `[0-9a-f]`. -/
def isLowerHex (c : Char) : Bool := isDecDigit c || ('a' ≤ c && c ≤ 'f')

/-- The white space that `bytes.fromhex` skips. -/
def isByteSpace (c : Char) : Bool := (9 ≤ c.toNat && c.toNat ≤ 13) || c.toNat = 32

/-- `bytes.fromhex`. -/
def bytesFromHex : Str → Option (List ℕ)
  | [] => some []
  | a :: cs =>
      if isByteSpace a then bytesFromHex cs
      else match cs with
        | [] => none
        | b :: rest =>
            if isHexDigit a && isHexDigit b then
              (bytesFromHex rest).map ((digitVal a * 16 + digitVal b) :: ·)
            else none

theorem isDecDigit_iff (c : Char) : isDecDigit c = true ↔ 48 ≤ c.toNat ∧ c.toNat ≤ 57 := by
  rw [isDecDigit, Bool.and_eq_true, decide_eq_true_eq, decide_eq_true_eq]
  exact Iff.rfl

theorem isLowerHex_iff (c : Char) : isLowerHex c = true
    ↔ (48 ≤ c.toNat ∧ c.toNat ≤ 57) ∨ (97 ≤ c.toNat ∧ c.toNat ≤ 102) := by
  rw [isLowerHex, Bool.or_eq_true, isDecDigit_iff, Bool.and_eq_true, decide_eq_true_eq,
    decide_eq_true_eq]
  exact Iff.rfl

/-- What a lower-case digit is read as. -/
theorem digitVal_of_lowerHex {c : Char} (h : isLowerHex c = true) :
    digitVal c = if c.toNat ≤ 57 then c.toNat - 48 else c.toNat - 87 := by
  rw [isLowerHex_iff] at h
  unfold digitVal
  rcases h with h | h
  · rw [if_pos ((isDecDigit_iff c).mpr h), if_pos h.2]
    rfl
  · have hdec : ¬ isDecDigit c = true := by
      rw [isDecDigit_iff]
      omega
    have hlower : ('a' ≤ c && c ≤ 'f') = true := by
      rw [Bool.and_eq_true, decide_eq_true_eq, decide_eq_true_eq]
      exact h
    rw [if_neg hdec, if_pos hlower, if_neg (by omega)]
    have ha : 'a'.toNat = 97 := rfl
    omega

theorem isHexDigit_of_lowerHex {c : Char} (h : isLowerHex c = true) : isHexDigit c = true := by
  rw [isLowerHex, Bool.or_eq_true] at h
  rw [isHexDigit, Bool.or_eq_true, Bool.or_eq_true]
  exact Or.inl h

theorem not_isByteSpace_of_lowerHex {c : Char} (h : isLowerHex c = true) :
    isByteSpace c = false := by
  rw [isLowerHex_iff] at h
  simp only [isByteSpace, Bool.or_eq_false_iff, Bool.and_eq_false_iff, decide_eq_false_iff_not]
  omega

theorem digitVal_lt {c : Char} (h : isLowerHex c = true) : digitVal c < 16 := by
  rw [digitVal_of_lowerHex h]
  rw [isLowerHex_iff] at h
  split_ifs <;> omega

theorem digitVal_inj {c d : Char} (hc : isLowerHex c = true) (hd : isLowerHex d = true)
    (h : digitVal c = digitVal d) : c = d := by
  rw [digitVal_of_lowerHex hc, digitVal_of_lowerHex hd] at h
  rw [isLowerHex_iff] at hc hd
  refine Char.toNat_inj.mp ?_
  split_ifs at h <;> omega

theorem bytesFromHex_cons {a b : Char} (ha : isLowerHex a = true) (hb : isLowerHex b = true)
    (s : Str) : bytesFromHex (a :: b :: s)
      = (bytesFromHex s).map ((digitVal a * 16 + digitVal b) :: ·) := by
  rw [bytesFromHex, if_neg (by simp [not_isByteSpace_of_lowerHex ha])]
  simp [isHexDigit_of_lowerHex ha, isHexDigit_of_lowerHex hb]

/-- **An even number of lower-case digits are bytes, and these determine the digits.** -/
theorem bytesFromHex_spec : ∀ {s : Str}, s.all isLowerHex = true → s.length % 2 = 0 →
    ∃ bytes, bytesFromHex s = some bytes ∧ bytes.length * 2 = s.length ∧ (∀ x ∈ bytes, x < 256)
      ∧ ∀ t : Str, t.all isLowerHex = true → t.length = s.length → bytesFromHex t = some bytes →
        t = s
  | [], _, _ => ⟨[], rfl, rfl, by simp, fun t _ hlen _ => List.length_eq_zero_iff.mp hlen⟩
  | [_], _, hlen => absurd hlen (by simp)
  | a :: b :: s, hs, hlen => by
      simp only [List.all_cons, Bool.and_eq_true] at hs
      rw [List.length_cons, List.length_cons] at hlen
      obtain ⟨bytes, hbytes, hcount, hlt, hinj⟩ := bytesFromHex_spec hs.2.2 (by omega)
      have ha := digitVal_lt hs.1
      have hb := digitVal_lt hs.2.1
      refine ⟨(digitVal a * 16 + digitVal b) :: bytes, ?_, by simp; omega, ?_, ?_⟩
      · rw [bytesFromHex_cons hs.1 hs.2.1, hbytes]
        rfl
      · intro x hx
        rcases List.mem_cons.mp hx with rfl | hx
        · omega
        · exact hlt x hx
      · intro t ht htlen hread
        match t, htlen with
        | a' :: b' :: t, htlen =>
            simp only [List.all_cons, Bool.and_eq_true] at ht
            rw [bytesFromHex_cons ht.1 ht.2.1] at hread
            obtain ⟨bytes', hbytes', heq⟩ := Option.map_eq_some_iff.mp hread
            obtain ⟨hfirst, rfl⟩ := List.cons.inj heq
            have ha' := digitVal_lt ht.1
            have hb' := digitVal_lt ht.2.1
            rw [digitVal_inj ht.1 hs.1 (by omega), digitVal_inj ht.2.1 hs.2.1 (by omega),
              hinj t ht.2.2 (by simpa using htlen) hbytes']

/-! ## Base32 -/

/-- The alphabet. -/
def b32Char (k : ℕ) : Char :=
  if k < 26 then Char.ofNat ('A'.toNat + k) else Char.ofNat ('2'.toNat + (k - 26))

/-- The digits of `base64.b32encode`. -/
def b32digits : List ℕ → List ℕ
  | a :: b :: c :: d :: e :: rest => digits 32 8 (value 256 0 [a, b, c, d, e]) ++ b32digits rest
  | [] => []
  | [a] => digits 32 2 (value 256 0 [a] * 4)
  | [a, b] => digits 32 4 (value 256 0 [a, b] * 16)
  | [a, b, c] => digits 32 5 (value 256 0 [a, b, c] * 2)
  | [a, b, c, d] => digits 32 7 (value 256 0 [a, b, c, d] * 8)

/-- The number of `=`. -/
def b32padding (length : ℕ) : ℕ :=
  match length % 5 with
  | 1 => 6
  | 2 => 4
  | 3 => 3
  | 4 => 1
  | _ => 0

/-- `base64.b32encode`. -/
def b32encode (bytes : List ℕ) : Str :=
  (b32digits bytes).map b32Char ++ List.replicate (b32padding bytes.length) '='

theorem length_b32digits : ∀ bytes : List ℕ, (b32digits bytes).length = (bytes.length * 8 + 4) / 5
  | a :: b :: c :: d :: e :: rest => by
      rw [b32digits, List.length_append, length_digits, length_b32digits rest]
      simp only [List.length_cons]
      omega
  | [] => rfl
  | [a] => by simp [b32digits]
  | [a, b] => by simp [b32digits]
  | [a, b, c] => by simp [b32digits]
  | [a, b, c, d] => by simp [b32digits]

theorem lt_of_mem_b32digits : ∀ {bytes : List ℕ} {k : ℕ}, k ∈ b32digits bytes → k < 32
  | a :: b :: c :: d :: e :: rest, k, h => by
      rw [b32digits, List.mem_append] at h
      exact h.elim (lt_of_mem_digits (by decide)) lt_of_mem_b32digits
  | [], k, h => by cases h
  | [a], k, h => lt_of_mem_digits (by decide) h
  | [a, b], k, h => lt_of_mem_digits (by decide) h
  | [a, b, c], k, h => lt_of_mem_digits (by decide) h
  | [a, b, c, d], k, h => lt_of_mem_digits (by decide) h

/-- One group of bytes is determined by its digits. -/
theorem group_inj {k m : ℕ} {s t : List ℕ} (hs : ∀ x ∈ s, x < 256) (ht : ∀ x ∈ t, x < 256)
    (hlen : s.length = t.length) (hm : 0 < m) (hfit : 256 ^ s.length * m ≤ 32 ^ k)
    (h : digits 32 k (value 256 0 s * m) = digits 32 k (value 256 0 t * m)) : s = t := by
  have hlt : ∀ {u : List ℕ}, (∀ x ∈ u, x < 256) → u.length = s.length →
      value 256 0 u * m < 32 ^ k := fun {u} hu hulen =>
    lt_of_lt_of_le (Nat.mul_lt_mul_of_pos_right (hulen ▸ value_lt hu) hm) hfit
  have hvalue := digits_inj (hlt hs rfl) (hlt ht hlen.symm) h
  exact value_inj hs ht hlen (Nat.eq_of_mul_eq_mul_right hm hvalue)

/-- **The digits determine bytes of a known number.** -/
theorem b32digits_inj : ∀ {s t : List ℕ}, (∀ x ∈ s, x < 256) → (∀ x ∈ t, x < 256) →
    s.length = t.length → b32digits s = b32digits t → s = t
  | a :: b :: c :: d :: e :: s, t, hs, ht, hlen, h => by
      match t, hlen with
      | a' :: b' :: c' :: d' :: e' :: t, hlen =>
          rw [b32digits, b32digits] at h
          obtain ⟨hgroup, hrest⟩ := List.append_inj h (by simp)
          have hfive := group_inj (s := [a, b, c, d, e]) (t := [a', b', c', d', e'])
            (fun x hx => hs x (by simp at hx ⊢; tauto)) (fun x hx => ht x (by simp at hx ⊢; tauto))
            rfl (m := 1) (by decide) (k := 8) (by simp) (by simpa using hgroup)
          have htail := b32digits_inj (fun x hx => hs x (by simp [hx]))
            (fun x hx => ht x (by simp [hx])) (by simpa using hlen) hrest
          rw [htail]
          simpa using hfive
  | [], t, _, _, hlen, _ => (List.length_eq_zero_iff.mp hlen.symm).symm
  | [a], t, hs, ht, hlen, h => by
      match t, hlen with
      | [a'], hlen => exact group_inj hs ht hlen (by decide) (by simp) h
  | [a, b], t, hs, ht, hlen, h => by
      match t, hlen with
      | [a', b'], hlen => exact group_inj hs ht hlen (by decide) (by simp) h
  | [a, b, c], t, hs, ht, hlen, h => by
      match t, hlen with
      | [a', b', c'], hlen => exact group_inj hs ht hlen (by decide) (by simp) h
  | [a, b, c, d], t, hs, ht, hlen, h => by
      match t, hlen with
      | [a', b', c', d'], hlen => exact group_inj hs ht hlen (by decide) (by simp) h

/-- The characters determine the digits, also in lower case. -/
theorem lower_b32Char_inj {j k : ℕ} (hj : j < 32) (hk : k < 32)
    (h : (b32Char j).toLower = (b32Char k).toLower) : j = k := by
  have key : ∀ j k : Fin 32, (b32Char j).toLower = (b32Char k).toLower → j = k := by
    decide +kernel
  exact congrArg Fin.val (key ⟨j, hj⟩ ⟨k, hk⟩ h)

theorem map_lower_inj : ∀ {ds es : List ℕ}, (∀ k ∈ ds, k < 32) → (∀ k ∈ es, k < 32) →
    ds.map (fun k => (b32Char k).toLower) = es.map (fun k => (b32Char k).toLower) → ds = es
  | [], [], _, _, _ => rfl
  | [], _ :: _, _, _, h => by simp at h
  | _ :: _, [], _, _, h => by simp at h
  | d :: ds, e :: es, hds, hes, h => by
      obtain ⟨hfirst, hrest⟩ := List.cons.inj h
      rw [lower_b32Char_inj (hds d (by simp)) (hes e (by simp)) hfirst,
        map_lower_inj (fun k hk => hds k (by simp [hk])) (fun k hk => hes k (by simp [hk])) hrest]

theorem b32Char_ne_pad {k : ℕ} (hk : k < 32) : b32Char k ≠ '=' := by
  have key : ∀ k : Fin 32, b32Char k ≠ '=' := by decide
  exact key ⟨k, hk⟩

/-- Without the padding the digits are left. -/
theorem rdropWhile_b32encode (bytes : List ℕ) :
    (b32encode bytes).rdropWhile (· = '=') = (b32digits bytes).map b32Char := by
  have hself : ((b32digits bytes).map b32Char).rdropWhile (· = '=')
      = (b32digits bytes).map b32Char := by
    refine List.rdropWhile_eq_self_iff.mpr fun hne h => ?_
    obtain ⟨k, hk, hlast⟩ := List.mem_map.mp (List.getLast_mem hne)
    rw [← hlast, decide_eq_true_eq] at h
    exact b32Char_ne_pad (lt_of_mem_b32digits hk) h
  rw [b32encode]
  induction b32padding bytes.length with
  | zero => rwa [List.replicate_zero, List.append_nil]
  | succ k ih =>
      rw [List.replicate_succ', ← List.append_assoc, List.rdropWhile_concat_pos _ _ _ (by simp), ih]

end Encodings
