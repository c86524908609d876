import AlderpointDNS.Lib.Text
import Mathlib.Algebra.Group.Nat.Defs

/-!
# IP addresses and networks in text form

The part of Python's `ipaddress` module that the program under study relies on: parsing an
address (`ipAddress`), printing it (`IpAddress.str`), parsing a network with host bits allowed
(`ipNetwork`, i.e. `ip_network(text, strict=False)`), and membership (`IpNetwork.contains`).

Addresses are numbers together with their version; an IPv6 address also carries its scope id.
Errors (`ValueError`) are `none`.
-/

namespace Ipaddress

open Text

/-- An address: `IPv4Address` or `IPv6Address`. -/
inductive IpAddress where
  | v4 (ip : ℕ)
  | v6 (ip : ℕ) (scope : Option Str)
  deriving DecidableEq

/-! ## Digits -/

def isDecDigit (c : Char) : Bool := '0' ≤ c && c ≤ '9'

/-- `_HEX_DIGITS`. -/
def isHexDigit (c : Char) : Bool :=
  isDecDigit c || ('a' ≤ c && c ≤ 'f') || ('A' ≤ c && c ≤ 'F')

def digitVal (c : Char) : ℕ :=
  if isDecDigit c then c.toNat - '0'.toNat
  else if 'a' ≤ c && c ≤ 'f' then c.toNat - 'a'.toNat + 10
  else c.toNat - 'A'.toNat + 10

/-- `int(digits, base)` of a digit string. -/
def ofDigits (base : ℕ) (ds : Str) : ℕ := ds.foldl (fun acc c => acc * base + digitVal c) 0

/-! ## Parsing addresses -/

/-- `IPv4Address._parse_octet`: up to three ASCII digits, no leading zero, at most 255. -/
def parseOctet (s : Str) : Option ℕ :=
  if s = [] || !s.all isDecDigit || 3 < s.length then none
  else if s ≠ ['0'] && s.head? = some '0' then none
  else if 255 < ofDigits 10 s then none
  else some (ofDigits 10 s)

/-- `IPv4Address._ip_int_from_string`. -/
def parseV4 (s : Str) : Option ℕ :=
  match (split '.' s).map parseOctet with
  | [some a, some b, some c, some d] => some (((a * 256 + b) * 256 + c) * 256 + d)
  | _ => none

/-- `IPv6Address._parse_hextet`. -/
def parseHextet (s : Str) : Option ℕ :=
  if s.all isHexDigit && s.length ≤ 4 then some (ofDigits 16 s) else none

def hexDigit (n : ℕ) : Char :=
  if n < 10 then Char.ofNat ('0'.toNat + n) else Char.ofNat ('a'.toNat + (n - 10))

/-- `'%x' % n` for a 16-bit value. -/
def hex (n : ℕ) : Str :=
  if n < 16 then [hexDigit n]
  else if n < 256 then [hexDigit (n / 16), hexDigit (n % 16)]
  else if n < 4096 then [hexDigit (n / 256), hexDigit (n / 16 % 16), hexDigit (n % 16)]
  else [hexDigit (n / 4096), hexDigit (n / 256 % 16), hexDigit (n / 16 % 16), hexDigit (n % 16)]

/-- An IPv4-style last part is replaced by two hextets. -/
def expandV4Suffix (parts : List Str) : Option (List Str) :=
  match parts.getLast? with
  | none => none
  | some last =>
      if last.contains '.' then
        (parseV4 last).map fun v => parts.dropLast ++ [hex (v / 65536 % 65536), hex (v % 65536)]
      else some parts

/-- The hextets' values folded into a number, `none` if one does not parse. -/
def foldHextets (init : ℕ) (parts : List Str) : Option ℕ :=
  parts.foldl (fun acc w => do
    let n ← acc
    let h ← parseHextet w
    pure (n * 65536 + h)) (some init)

/-- The positions of empty parts other than the end points: where `::` stands. -/
def skipIndices (parts : List Str) : List ℕ :=
  (List.range parts.length).filter fun i =>
    0 < i && i + 1 < parts.length && parts[i]? = some []

/-- `IPv6Address._ip_int_from_string`. -/
def parseV6 (s : Str) : Option ℕ :=
  if s = [] || (split ':' s).length < 3 then none
  else do
    let parts ← expandV4Suffix (split ':' s)
    if 9 < parts.length then none
    else match skipIndices parts with
    | [] =>
        if parts.length ≠ 8 || parts.head? = some [] || parts.getLast? = some [] then none
        else foldHextets 0 parts
    | [skip] =>
        let lo := parts.length - skip - 1
        -- a leading or trailing empty part is only allowed next to the `::`
        let hi' := if parts.head? = some [] then skip - 1 else skip
        let lo' := if parts.getLast? = some [] then lo - 1 else lo
        if parts.head? = some [] && hi' ≠ 0 then none
        else if parts.getLast? = some [] && lo' ≠ 0 then none
        else if 8 < hi' + lo' + 1 then none
        else do
          let high ← foldHextets 0 (parts.take hi')
          foldHextets (high * 65536 ^ (8 - (hi' + lo'))) (parts.drop (parts.length - lo'))
    | _ => none

/-- `IPv6Address._split_scope_id` followed by the parse. -/
def parseV6Scoped (s : Str) : Option IpAddress :=
  if s.contains '%' then
    let addr := s.takeWhile (· ≠ '%')
    let scope := (s.dropWhile (· ≠ '%')).tail
    if scope = [] || scope.contains '%' then none
    else (parseV6 addr).map fun n => .v6 n (some scope)
  else (parseV6 s).map fun n => .v6 n none

/-- `ipaddress.ip_address(text)`. -/
def ipAddress (s : Str) : Option IpAddress :=
  if s.contains '/' then none
  else match parseV4 s with
  | some n => some (.v4 n)
  | none => parseV6Scoped s

/-! ## Printing -/

/-- A number below 1000 in decimal. -/
def decimal (n : ℕ) : Str :=
  let d (k : ℕ) : Char := Char.ofNat ('0'.toNat + k)
  if n < 10 then [d n] else if n < 100 then [d (n / 10), d (n % 10)]
  else [d (n / 100), d (n / 10 % 10), d (n % 10)]

def v4Str (n : ℕ) : Str :=
  join ['.'] ((List.range 4).map fun i => decimal (n / 256 ^ (3 - i) % 256))

/-- The scan of `_compress_hextets`: best start, best length, current start, current length. -/
structure ZeroRun where
  bestStart : ℕ := 0
  bestLen : ℕ := 0
  start : ℕ := 0
  len : ℕ := 0

def ZeroRun.scan (z : ZeroRun) (index : ℕ) (hextet : Str) : ZeroRun :=
  if hextet = ['0'] then
    let start := if z.len = 0 then index else z.start
    if z.bestLen < z.len + 1 then
      { bestStart := start, bestLen := z.len + 1, start := start, len := z.len + 1 }
    else { z with start := start, len := z.len + 1 }
  else { z with len := 0 }

/-- `IPv6Address._compress_hextets`: the longest run of at least two zero hextets becomes `::`. -/
def compressHextets (hextets : List Str) : List Str :=
  let z : ZeroRun := hextets.zipIdx.foldl (fun z h => ZeroRun.scan z h.2 h.1) {}
  if z.bestLen ≤ 1 then hextets
  else
    let stop := z.bestStart + z.bestLen
    let tail := if stop = hextets.length then [[]] else hextets.drop stop
    let mid := hextets.take z.bestStart ++ [] :: tail
    if z.bestStart = 0 then [] :: mid else mid

def v6Str (n : ℕ) : Str :=
  join [':'] (compressHextets ((List.range 8).map fun i => hex (n / 65536 ^ (7 - i) % 65536)))

/-- `str(ip)`. -/
def IpAddress.str : IpAddress → Str
  | .v4 n => v4Str n
  | .v6 n none => v6Str n
  | .v6 n (some scope) => v6Str n ++ '%' :: scope

/-- `isinstance(ip, ipaddress.IPv4Address)`. -/
def IpAddress.isV4 : IpAddress → Bool
  | .v4 _ => true
  | .v6 _ _ => false

/-! ## Networks -/

/-- A network: version, network number and prefix length. -/
structure IpNetwork where
  isV4 : Bool
  network : ℕ
  prefixlen : ℕ
  deriving DecidableEq

/-- Drop the `bits - prefixlen` host bits. -/
def maskTo (bits prefixlen n : ℕ) : ℕ := n / 2 ^ (bits - prefixlen) * 2 ^ (bits - prefixlen)

/-- `_prefix_from_prefix_string`. -/
def prefixFromString (bits : ℕ) (s : Str) : Option ℕ :=
  if s = [] || !s.all isDecDigit then none
  else if bits < ofDigits 10 s then none else some (ofDigits 10 s)

/-- `_prefix_from_ip_int` tried on a 32-bit netmask: a run of ones followed by zeros. -/
def prefixFromMask (mask : ℕ) : Option ℕ :=
  (List.range 33).find? fun p => mask = 2 ^ 32 - 2 ^ (32 - p)

/-- `IPv4Network._make_netmask`: a prefix length, a netmask, or a host mask. -/
def v4Prefix (s : Str) : Option ℕ :=
  match prefixFromString 32 s with
  | some p => some p
  | none => do
      let m ← parseV4 s
      (prefixFromMask m).or (prefixFromMask (2 ^ 32 - 1 - m))

/-- `ipaddress.ip_network(text, strict=False)`. -/
def ipNetwork (s : Str) : Option IpNetwork :=
  let (addr, mask) : Str × Option Str := match split '/' s with
    | [a] => (a, none)
    | [a, m] => (a, some m)
    | _ => ([], none)
  let v4 : Option IpNetwork := do
    let n ← parseV4 addr
    let p ← match mask with | none => some 32 | some m => v4Prefix m
    pure { isV4 := true, network := maskTo 32 p n, prefixlen := p }
  let v6 : Option IpNetwork := do
    let a ← parseV6Scoped addr
    let p ← match mask with | none => some 128 | some m => prefixFromString 128 m
    match a with
    | .v4 _ => none
    | .v6 n _ => pure { isV4 := false, network := maskTo 128 p n, prefixlen := p }
  v4.or v6

/-- `address in network`. -/
def IpNetwork.contains (net : IpNetwork) : IpAddress → Bool
  | .v4 n => net.isV4 && maskTo 32 net.prefixlen n = net.network
  | .v6 n _ => !net.isV4 && maskTo 128 net.prefixlen n = net.network

example : (ipAddress "2001:DB8:0:0:1::1".toList).map IpAddress.str
    = some "2001:db8::1:0:0:1".toList := by decide +kernel

/-! ## What a printed address begins with

A printed address starts with a hexadecimal digit or a colon.  Text formats that put an
address next to other markers rely on that to stay unambiguous. -/

/-- A character an address can begin with. -/
def isAddressStart (c : Char) : Bool := isHexDigit c || c = ':'

theorem isHexDigit_hexDigit {k : ℕ} (h : k < 16) : isHexDigit (hexDigit k) = true := by
  have key : ∀ k : Fin 16, isHexDigit (hexDigit k) = true := by decide
  exact key ⟨k, h⟩

theorem hex_head {n : ℕ} (h : n < 65536) :
    ∃ c cs, hex n = c :: cs ∧ isAddressStart c = true := by
  have start : ∀ k, k < 16 → isAddressStart (hexDigit k) = true := fun k hk => by
    simp [isAddressStart, isHexDigit_hexDigit hk]
  unfold hex
  split_ifs with h1 h2 h3
  · exact ⟨_, _, rfl, start _ h1⟩
  · exact ⟨_, _, rfl, start _ (by omega)⟩
  · exact ⟨_, _, rfl, start _ (by omega)⟩
  · exact ⟨_, _, rfl, start _ (by omega)⟩

theorem decimalDigit {k : ℕ} (h : k < 10) :
    isDecDigit (Char.ofNat ('0'.toNat + k)) = true ∧ digitVal (Char.ofNat ('0'.toNat + k)) = k := by
  have key : ∀ k : Fin 10, isDecDigit (Char.ofNat ('0'.toNat + k)) = true ∧
      digitVal (Char.ofNat ('0'.toNat + k)) = k := by decide
  exact key ⟨k, h⟩

/-- A printed number has decimal digits only. -/
theorem isDecDigit_of_mem_decimal {n : ℕ} (h : n < 1000) {c : Char} (hc : c ∈ decimal n) :
    isDecDigit c = true := by
  unfold decimal at hc
  dsimp only at hc
  split_ifs at hc with h1 h2
  · rw [List.mem_singleton.mp hc]
    exact (decimalDigit h1).1
  · rcases List.mem_pair.mp hc with rfl | rfl
    · exact (decimalDigit (by omega)).1
    · exact (decimalDigit (by omega)).1
  · simp only [List.mem_cons, List.not_mem_nil, or_false] at hc
    rcases hc with rfl | rfl | rfl
    · exact (decimalDigit (by omega)).1
    · exact (decimalDigit (by omega)).1
    · exact (decimalDigit (by omega)).1

theorem notMem_decimal {n : ℕ} (h : n < 1000) {c : Char} (hc : isDecDigit c = false) :
    c ∉ decimal n := fun hmem => by
  rw [isDecDigit_of_mem_decimal h hmem] at hc
  cases hc

/-- A printed number is read back as an integer. -/
theorem ofDigits_decimal {n : ℕ} (h : n < 1000) : ofDigits 10 (decimal n) = n := by
  have hval : ∀ k, k < 10 → digitVal (Char.ofNat ('0'.toNat + k)) = k := fun k hk =>
    (decimalDigit hk).2
  unfold decimal ofDigits
  dsimp only
  split_ifs with h1 h2
  · simp only [List.foldl_cons, List.foldl_nil, hval n h1]
    omega
  · simp only [List.foldl_cons, List.foldl_nil, hval (n / 10) (by omega),
      hval (n % 10) (by omega)]
    omega
  · simp only [List.foldl_cons, List.foldl_nil, hval (n / 100) (by omega),
      hval (n / 10 % 10) (by omega), hval (n % 10) (by omega)]
    omega

/-- It starts with a zero only when it is zero. -/
theorem decimal_head_spec {n : ℕ} (h : n < 1000) :
    ∃ c cs, decimal n = c :: cs ∧ isDecDigit c = true ∧ cs.length ≤ 2 ∧ (c = '0' → n = 0) := by
  have hzero : ∀ k, k < 10 → Char.ofNat ('0'.toNat + k) = '0' → k = 0 := fun k hk hc => by
    rw [← (decimalDigit hk).2, hc]
    decide
  unfold decimal
  dsimp only
  split_ifs with h1 h2
  · exact ⟨_, _, rfl, (decimalDigit h1).1, Nat.zero_le _, hzero n h1⟩
  · refine ⟨_, _, rfl, (decimalDigit (by omega)).1, Nat.le_succ _, fun hc => ?_⟩
    have := hzero (n / 10) (by omega) hc
    omega
  · refine ⟨_, _, rfl, (decimalDigit (by omega)).1, le_refl _, fun hc => ?_⟩
    have := hzero (n / 100) (by omega) hc
    omega

theorem decimal_head {n : ℕ} (h : n < 256) :
    ∃ c cs, decimal n = c :: cs ∧ isAddressStart c = true := by
  obtain ⟨c, cs, heq, hc, -⟩ := decimal_head_spec (h.trans (by decide))
  exact ⟨c, cs, heq, by simp [isAddressStart, isHexDigit, hc]⟩

theorem join_cons_head {sep c : Char} {cs : Str} (ws : List Str) :
    (join [sep] ((c :: cs) :: ws)).head? = some c := by
  cases ws <;> simp [join]

theorem join_nil_cons_head {sep : Char} (w : Str) (ws : List Str) :
    (join [sep] ([] :: w :: ws)).head? = some sep := by
  simp [join]

/-- Compression keeps the first hextet, or starts with the empty part of a leading `::`. -/
theorem compressHextets_head (w : Str) (ws : List Str) :
    (∃ vs, compressHextets (w :: ws) = w :: vs)
      ∨ ∃ v vs, compressHextets (w :: ws) = [] :: v :: vs := by
  unfold compressHextets
  generalize ((w :: ws).zipIdx.foldl (fun z h => ZeroRun.scan z h.2 h.1) {} : ZeroRun) = z
  dsimp only
  by_cases hlen : z.bestLen ≤ 1
  · rw [if_pos hlen]
    exact Or.inl ⟨_, rfl⟩
  · rw [if_neg hlen]
    obtain h0 | ⟨m, hm⟩ : z.bestStart = 0 ∨ ∃ m, z.bestStart = m + 1 := by
      cases z.bestStart with
      | zero => exact Or.inl rfl
      | succ m => exact Or.inr ⟨m, rfl⟩
    · rw [if_pos h0, h0, List.take_zero]
      exact Or.inr ⟨_, _, rfl⟩
    · rw [if_neg (by omega), hm, List.take_succ_cons]
      exact Or.inl ⟨_, rfl⟩

theorem v4Str_head (n : ℕ) : ∃ c, (v4Str n).head? = some c ∧ isAddressStart c = true := by
  obtain ⟨c, cs, h, hc⟩ := @decimal_head (n / 256 ^ 3 % 256) (Nat.mod_lt _ (by decide))
  refine ⟨c, ?_, hc⟩
  simp only [v4Str, List.range_succ_eq_map, List.map_cons, Nat.sub_zero, h]
  exact join_cons_head _

theorem v6Str_head (n : ℕ) : ∃ c, (v6Str n).head? = some c ∧ isAddressStart c = true := by
  obtain ⟨c, cs, h, hc⟩ := @hex_head (n / 65536 ^ 7 % 65536) (Nat.mod_lt _ (by decide))
  simp only [v6Str, List.range_succ_eq_map, List.map_cons, Nat.sub_zero, h]
  rcases compressHextets_head (c :: cs) _ with ⟨vs, hv⟩ | ⟨v, vs, hv⟩
  · exact ⟨c, by rw [hv]; exact join_cons_head _, hc⟩
  · exact ⟨':', by rw [hv]; exact join_nil_cons_head _ _, by decide⟩

/-- **A printed address starts with a hexadecimal digit or a colon.** -/
theorem str_head (ip : IpAddress) : ∃ c, ip.str.head? = some c ∧ isAddressStart c = true := by
  match ip with
  | .v4 n => exact v4Str_head n
  | .v6 n none => exact v6Str_head n
  | .v6 n (some scope) =>
      obtain ⟨c, h, hc⟩ := v6Str_head n
      obtain ⟨cs, hcs⟩ := List.head?_eq_some_iff.mp h
      exact ⟨c, by simp [IpAddress.str, hcs], hc⟩

theorem str_ne_nil (ip : IpAddress) : ip.str ≠ [] := by
  obtain ⟨c, h, -⟩ := str_head ip
  rintro e
  rw [e] at h
  cases h

/-! ## The version can be read off the text -/

theorem colon_notMem_v4Str (n : ℕ) : ':' ∉ v4Str n := by
  intro h
  rcases mem_join h with h | ⟨w, hw, h⟩
  · exact absurd h (by decide)
  · obtain ⟨i, -, rfl⟩ := List.mem_map.mp hw
    have hlt : n / 256 ^ (3 - i) % 256 < 256 := Nat.mod_lt _ (by decide)
    exact notMem_decimal (hlt.trans (by decide)) (by decide) h

theorem sep_mem_join {sep : Char} {ws : List Str} (h : 2 ≤ ws.length) : sep ∈ join [sep] ws := by
  match ws, h with
  | w :: v :: ws, _ => simp [join, List.intercalate_cons_cons]

/-- Compression leaves at least two parts. -/
theorem two_le_compressHextets {hextets : List Str} (h : 2 ≤ hextets.length) :
    2 ≤ (compressHextets hextets).length := by
  unfold compressHextets
  generalize (hextets.zipIdx.foldl (fun z h => ZeroRun.scan z h.2 h.1) {} : ZeroRun) = z
  dsimp only
  split_ifs with h1 h2 h3
  · exact h
  all_goals
    simp only [List.length_cons, List.length_append, List.length_take, List.length_drop]
    omega

theorem colon_mem_v6Str (n : ℕ) : ':' ∈ v6Str n :=
  sep_mem_join (two_le_compressHextets (by simp))

/-- Two addresses with the same text are of the same version. -/
theorem isV4_eq_of_str_eq {a b : IpAddress} (h : a.str = b.str) : a.isV4 = b.isV4 := by
  have hcolon : ∀ ip : IpAddress, ':' ∈ ip.str ↔ ip.isV4 = false := by
    intro ip
    match ip with
    | .v4 n => simp [IpAddress.str, IpAddress.isV4, colon_notMem_v4Str]
    | .v6 n none => simp [IpAddress.str, IpAddress.isV4, colon_mem_v6Str]
    | .v6 n (some scope) => simp [IpAddress.str, IpAddress.isV4, colon_mem_v6Str]
  have hiff := (hcolon a).symm.trans ((h ▸ Iff.rfl : ':' ∈ a.str ↔ ':' ∈ b.str).trans (hcolon b))
  cases ha : a.isV4 <;> cases hb : b.isV4 <;> simp_all

end Ipaddress
