import AlderpointDNS.Clients.Identifiers
import AlderpointDNS.Lib.Base32

/-!
# ClientIDs from DNS labels

`clientidFromDnsLabel` reads back what `clientidDnsLabel` writes.  It tells the two forms apart by
their length and alphabet: 48 or 64 hexadecimal characters are the ClientID itself, everything
else is Base32.

* **`clientid_roundTrip`** — the label of every accepted ClientID is short enough for a DNS label,
  is read back as the ClientID, and belongs to no other one.
-/

namespace AlderpointDNS

open Text Encodings

/-- `DNS_LABEL_MAX_LEN`. -/
def dnsLabelMaxLen : ℕ := 63

/-- `clientid_from_dns_label`; `upper` is `str.upper` for text that is not ASCII, and a
`ClientIDError` is `none`. -/
def clientidFromDnsLabel (u : UnicodeData) (upper : Str → Str) (label : Str) : Option Str :=
  let text := u.toLower (strip label)
  if text ≠ [] && text.all isLowerHex && (text.length = 48 || text.length = 64) then some text
  else
    let padded := (if isAscii text then text.map Char.toUpper else upper text)
      ++ List.replicate ((8 - text.length % 8) % 8) '='
    (b32decode padded).map bytesHex

/-- The characters of a label: lower-case letters and digits. -/
def isLabelChar (c : Char) : Bool := isLowerHex c || ('a' ≤ c && c ≤ 'z') || ('2' ≤ c && c ≤ '7')

theorem isLabelChar_spec {c : Char} (h : isLabelChar c = true) :
    c.toNat < 128 ∧ isSpace c = false ∧ c.toLower = c := by
  have key : ∀ k : Fin 128, isLabelChar (Char.ofNat k) = true →
      isSpace (Char.ofNat k) = false ∧ (Char.ofNat k).toLower = Char.ofNat k := by decide
  have hc : c.toNat < 128 := by
    simp only [isLabelChar, Bool.or_eq_true, isLowerHex_iff, Bool.and_eq_true,
      decide_eq_true_eq] at h
    rcases h with (h | h) | h
    · omega
    · exact Nat.lt_of_le_of_lt (show c.toNat ≤ 'z'.toNat from h.2) (by decide)
    · exact Nat.lt_of_le_of_lt (show c.toNat ≤ '7'.toNat from h.2) (by decide)
  have := key ⟨c.toNat, hc⟩
  rw [Char.ofNat_toNat] at this
  exact ⟨hc, this h⟩

/-- Stripping and lowering leave a label as it is. -/
theorem toLower_strip_label (u : UnicodeData) {label : Str}
    (h : ∀ c ∈ label, isLabelChar c = true) :
    isAscii label = true ∧ u.toLower (strip label) = label := by
  have hstrip : strip label = label := stripBy_eq_self fun c hc => (isLabelChar_spec (h c hc)).2.1
  rw [hstrip]
  exact u.toLower_eq_self fun c hc =>
    ⟨(isLabelChar_spec (h c hc)).1, (isLabelChar_spec (h c hc)).2.2⟩

/-- A digit in lower case is a character of labels, and raised it is the digit again. -/
theorem lower_b32Char {k : ℕ} (h : k < 32) :
    isLabelChar (b32Char k).toLower = true ∧ (b32Char k).toLower.toUpper = b32Char k := by
  have key : ∀ k : Fin 32, isLabelChar (b32Char k).toLower = true ∧
      (b32Char k).toLower.toUpper = b32Char k := by decide +kernel
  exact key ⟨k, h⟩

/-- A ClientID of 192 bits is its own label. -/
theorem fromDnsLabel_short (u : UnicodeData) (upper : Str → Str) {id : Str}
    (hhex : id.all isLowerHex = true) (hlen : id.length = 48) :
    clientidFromDnsLabel u upper id = some id := by
  have hchars : ∀ c ∈ id, isLabelChar c = true := by
    intro c hc
    rw [isLabelChar, List.all_eq_true.mp hhex c hc, Bool.true_or, Bool.true_or]
  have hne : id ≠ [] := by
    rintro rfl
    cases hlen
  rw [clientidFromDnsLabel]
  dsimp only
  rw [(toLower_strip_label u hchars).2, if_pos (by simp [hne, hhex, hlen])]

/-- The label of a ClientID of 256 bits is read as Base32: it has 52 characters. -/
theorem fromDnsLabel_long (u : UnicodeData) (upper : Str → Str) {id label : Str}
    (hhex : id.all isLowerHex = true) (hlen : id.length = 64)
    (h : clientidDnsLabel id = some label) :
    label.length = 52 ∧ clientidFromDnsLabel u upper label = some id := by
  obtain ⟨bytes, label', hread, hlt, hcount, hlabel, heq⟩ := clientidDnsLabel_long hhex hlen
  rw [h] at hlabel
  cases hlabel
  have h52 : label.length = 52 := by
    rw [heq, List.length_map, length_b32digits, hcount]
  have hchars : ∀ c ∈ label, isLabelChar c = true := by
    intro c hc
    rw [heq] at hc
    obtain ⟨k, hk, rfl⟩ := List.mem_map.mp hc
    exact (lower_b32Char (lt_of_mem_b32digits hk)).1
  obtain ⟨hascii, hlower⟩ := toLower_strip_label u hchars
  have hupper : label.map Char.toUpper = (b32digits bytes).map b32Char := by
    rw [heq, List.map_map]
    exact List.map_congr_left fun k hk => (lower_b32Char (lt_of_mem_b32digits hk)).2
  have hpadded : label.map Char.toUpper ++ List.replicate ((8 - label.length % 8) % 8) '='
      = b32encode bytes := by
    rw [hupper, h52, b32encode, hcount]
    rfl
  refine ⟨h52, ?_⟩
  rw [clientidFromDnsLabel]
  dsimp only
  rw [hlower, if_neg (by simp [h52]), if_pos hascii, hpadded, b32decode_b32encode hlt,
    Option.map_some, bytesHex_of_bytesFromHex hhex (by omega) hread]

/-- **The label of an accepted ClientID fits into a DNS label, is read back as the ClientID, and
is the label of no other one.** -/
theorem clientid_roundTrip (u : UnicodeData) (upper : Str → Str) {raw id : Str}
    (h : validateClientid u raw = some id) :
    ∃ label, clientidDnsLabel id = some label ∧ label.length ≤ dnsLabelMaxLen ∧
      clientidFromDnsLabel u upper label = some id ∧
      ∀ raw' id', validateClientid u raw' = some id' → id' ≠ id →
        clientidDnsLabel id' ≠ some label ∧ clientidSniHostname id' ≠ clientidSniHostname id := by
  have hid := validateClientid_spec h
  obtain ⟨label, hlabel, hlen, hback⟩ : ∃ label, clientidDnsLabel id = some label ∧
      label.length ≤ dnsLabelMaxLen ∧ clientidFromDnsLabel u upper label = some id := by
    obtain ⟨hhex, h48 | h64⟩ := hid
    · refine ⟨id, clientidDnsLabel_short h48, ?_, fromDnsLabel_short u upper hhex h48⟩
      rw [h48]
      decide
    · obtain ⟨-, label, -, -, -, hlabel, -⟩ := clientidDnsLabel_long hhex h64
      obtain ⟨h52, hback⟩ := fromDnsLabel_long u upper hhex h64 hlabel
      refine ⟨label, hlabel, ?_, hback⟩
      rw [h52]
      decide
  refine ⟨label, hlabel, hlen, hback, fun raw' id' h' hne => ⟨fun heq => ?_, fun heq => ?_⟩⟩
  · exact hne (dnsLabel_inj (validateClientid_spec h') hid (heq.trans hlabel.symm))
  · obtain ⟨host, hhost⟩ := exists_sniHostname hid
    exact hne (sniHostname_inj (validateClientid_spec h') hid (heq.trans hhost) hhost)

theorem clientid_roundTrip_zero :
    ∃ label, clientidDnsLabel (List.replicate 64 '0') = some label ∧
      label.length ≤ dnsLabelMaxLen ∧
      clientidFromDnsLabel ⟨fun s => s, some⟩ (fun s => s) label = some (List.replicate 64 '0') ∧
      ∀ raw' id', validateClientid ⟨fun s => s, some⟩ raw' = some id' →
        id' ≠ List.replicate 64 '0' →
        clientidDnsLabel id' ≠ some label ∧
          clientidSniHostname id' ≠ clientidSniHostname (List.replicate 64 '0') :=
  have h : validateClientid ⟨fun s => s, some⟩ (List.replicate 64 '0')
      = some (List.replicate 64 '0') := by decide +kernel
  clientid_roundTrip ⟨fun s => s, some⟩ (fun s => s) h

end AlderpointDNS
