import AlderpointDNS.Clients.Tables
import AlderpointDNS.Domains
import AlderpointDNS.Lib.Encodings
import AlderpointDNS.Lib.IpText

/-!
# Identifiers and ClientIDs

What `clients.py` stores: `normalizeIdentifier` turns raw text into a kind and a canonical value,
and `clientidSniHostname` and `clientidDohPath` are how a ClientID is presented over DoT or DoQ,
and over DoH.

* **`normalizeIdentifier_spec`** — a normalized value can be read back as what it stands for.
* **`sniHostname_inj`** — different ClientIDs have different host names, although those of 256
  bits are re-encoded.
-/

namespace AlderpointDNS

open Text Ipaddress Encodings

/-! ## Normalization -/

/-- `validate_clientid`. -/
def validateClientid (u : UnicodeData) (raw : Str) : Option Str :=
  let text := u.toLower (strip raw)
  if text = [] then none
  else if text.any fun c => !isLowerHex c then none
  else if text.length < 48 then none
  else if !(text.length = 48 || text.length = 64) then none
  else some text

/-- `normalize_identifier`. -/
def normalizeIdentifier (u : UnicodeData) (raw : Str) : Option (IdentifierKind × Str) :=
  let text := strip raw
  if text = [] then none
  else if text.length ≤ 64 && text.all isHexDigit && !text.contains '/' && !text.contains '.'
      && !text.contains ':' then (validateClientid u text).map fun id => (.clientid, id)
  else if text.contains '/' then do
    let network ← ipNetwork text
    let value ← ipNetworkStr text
    return (if network.isV4 then .ipv4Cidr else .ipv6Cidr, value)
  else do
    let address ← ipAddress text
    return (if address.isV4 then .ipv4 else .ipv6, address.str)

/-- A canonical ClientID: 192 or 256 bits. -/
def IsClientid (id : Str) : Prop := id.all isLowerHex = true ∧ (id.length = 48 ∨ id.length = 64)

/-- A canonical value of a kind. -/
def IsValue : IdentifierKind → Str → Prop
  | .ipv4, value => ∃ n, ipAddress value = some (.v4 n)
  | .ipv6, value => ∃ n scope, ipAddress value = some (.v6 n scope)
  | .ipv4Cidr, value => ∃ net, ipNetwork value = some net ∧ net.isV4 = true
  | .ipv6Cidr, value => ∃ net, ipNetwork value = some net ∧ net.isV4 = false
  | .clientid, value => IsClientid value

theorem validateClientid_spec {u : UnicodeData} {raw id : Str}
    (h : validateClientid u raw = some id) : IsClientid id := by
  rw [validateClientid] at h
  split_ifs at h with _ hhex _ hlen
  cases h
  refine ⟨by simpa using hhex, ?_⟩
  rw [Bool.not_eq_true, Bool.not_eq_false', Bool.or_eq_true] at hlen
  simpa using hlen

/-- **A normalized value is read back as what it stands for.** -/
theorem normalizeIdentifier_spec {u : UnicodeData} {raw value : Str} {kind : IdentifierKind}
    (h : normalizeIdentifier u raw = some (kind, value)) : IsValue kind value := by
  rw [normalizeIdentifier] at h
  split_ifs at h with _ _ hslash
  · obtain ⟨id, hid, heq⟩ := Option.map_eq_some_iff.mp h
    cases heq
    exact validateClientid_spec hid
  · obtain ⟨net, hnet, h⟩ := Option.bind_eq_some_iff.mp h
    obtain ⟨text, htext, h⟩ := Option.bind_eq_some_iff.mp h
    cases h
    obtain ⟨net₀, net', hnet₀, hnet', hversion⟩ := ipNetwork_ipNetworkStr htext
    rw [hnet] at hnet₀
    cases hnet₀
    cases hv4 : net.isV4 with
    | true => exact ⟨net', hnet', hversion.trans hv4⟩
    | false => exact ⟨net', hnet', hversion.trans hv4⟩
  · obtain ⟨address, haddress, h⟩ := Option.bind_eq_some_iff.mp h
    cases h
    cases address with
    | v4 n => exact ⟨_, ipAddress_v4Str n⟩
    | v6 n scope =>
        refine ⟨_, scope, ipAddress_v6Str n fun z hz => ?_⟩
        cases hz
        exact isScope_of_parseV6Scoped (slash_notMem_of_ipAddress haddress)
          (parseV6Scoped_of_ipAddress haddress).2

/-! ## Presenting a ClientID -/

/-- `CLIENTID_SNI_SUFFIX`. -/
def clientidSniSuffix : Str := "clientid.alderpointdns.local".toList

/-- `clientid_dns_label`. -/
def clientidDnsLabel (canonicalHex : Str) : Option Str :=
  if canonicalHex.length ≤ 63 then some canonicalHex
  else (bytesFromHex canonicalHex).map fun raw =>
    ((b32encode raw).rdropWhile (· = '=')).map Char.toLower

/-- `clientid_sni_hostname`. -/
def clientidSniHostname (canonicalHex : Str) : Option Str :=
  (clientidDnsLabel canonicalHex).map (· ++ '.' :: clientidSniSuffix)

/-- `clientid_doh_path`. -/
def clientidDohPath (basePath canonicalHex : Str) : Str :=
  basePath.rdropWhile (· = '/') ++ '/' :: canonicalHex

theorem dohPath_inj {base c d : Str} (h : clientidDohPath base c = clientidDohPath base d) :
    c = d :=
  (List.cons.inj (List.append_cancel_left h)).2

/-- The label of a ClientID of 192 bits. -/
theorem clientidDnsLabel_short {id : Str} (h : id.length = 48) : clientidDnsLabel id = some id :=
  if_pos (by omega)

/-- The label of a ClientID of 256 bits has 52 characters, and determines it. -/
theorem clientidDnsLabel_long {id : Str} (hhex : id.all isLowerHex = true) (h : id.length = 64) :
    ∃ bytes label, bytesFromHex id = some bytes ∧ (∀ x ∈ bytes, x < 256) ∧ bytes.length = 32
      ∧ clientidDnsLabel id = some label
      ∧ label = (b32digits bytes).map fun k => (b32Char k).toLower := by
  obtain ⟨bytes, hbytes, hcount, hlt, -⟩ := bytesFromHex_spec hhex (by omega)
  refine ⟨bytes, _, hbytes, hlt, by omega, ?_, rfl⟩
  rw [clientidDnsLabel, if_neg (by omega), hbytes, Option.map_some, rdropWhile_b32encode,
    List.map_map]
  rfl

theorem exists_sniHostname {id : Str} (h : IsClientid id) :
    ∃ host, clientidSniHostname id = some host := by
  obtain ⟨hhex, hlen | hlen⟩ := h
  · exact ⟨_, by rw [clientidSniHostname, clientidDnsLabel_short hlen, Option.map_some]⟩
  · obtain ⟨bytes, label, -, -, -, hlabel, -⟩ := clientidDnsLabel_long hhex hlen
    exact ⟨_, by rw [clientidSniHostname, hlabel, Option.map_some]⟩

theorem dnsLabel_inj {c d : Str} (hc : IsClientid c) (hd : IsClientid d)
    (h : clientidDnsLabel c = clientidDnsLabel d) : c = d := by
  obtain ⟨hchex, hclen | hclen⟩ := hc
  · obtain ⟨hdhex, hdlen | hdlen⟩ := hd
    · rw [clientidDnsLabel_short hclen, clientidDnsLabel_short hdlen] at h
      exact Option.some.inj h
    · -- 48 characters are not 52
      obtain ⟨bytes, label, -, -, hbytes, hlabel, rfl⟩ := clientidDnsLabel_long hdhex hdlen
      rw [clientidDnsLabel_short hclen, hlabel] at h
      have hlength := congrArg List.length (Option.some.inj h)
      rw [List.length_map, length_b32digits, hbytes, hclen] at hlength
      omega
  · obtain ⟨bytes, label, hread, hlt, hbytes, hlabel, rfl⟩ := clientidDnsLabel_long hchex hclen
    obtain ⟨hdhex, hdlen | hdlen⟩ := hd
    · rw [clientidDnsLabel_short hdlen, hlabel] at h
      have hlength := congrArg List.length (Option.some.inj h)
      rw [List.length_map, length_b32digits, hbytes, hdlen] at hlength
      omega
    · obtain ⟨bytes', label', hread', hlt', hbytes', hlabel', rfl⟩ :=
        clientidDnsLabel_long hdhex hdlen
      rw [hlabel, hlabel', Option.some.injEq] at h
      have hdigits : b32digits bytes = b32digits bytes' :=
        map_lower_inj (fun k => lt_of_mem_b32digits) (fun k => lt_of_mem_b32digits) h
      have hsame := b32digits_inj hlt hlt' (hbytes.trans hbytes'.symm) hdigits
      obtain ⟨b, hb, -, -, hinj⟩ := bytesFromHex_spec hdhex (by omega)
      rw [hread'] at hb
      cases hb
      exact hinj c hchex (hclen.trans hdlen.symm) (hsame ▸ hread)

/-- **Different ClientIDs have different host names.** -/
theorem sniHostname_inj {c d host : Str} (hc : IsClientid c) (hd : IsClientid d)
    (hch : clientidSniHostname c = some host) (hdh : clientidSniHostname d = some host) : c = d := by
  obtain ⟨label, hlabel, rfl⟩ := Option.map_eq_some_iff.mp hch
  obtain ⟨label', hlabel', heq⟩ := Option.map_eq_some_iff.mp hdh
  refine dnsLabel_inj hc hd ?_
  rw [hlabel, hlabel', List.append_cancel_right heq]

end AlderpointDNS
