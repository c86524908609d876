import AlderpointDNS.Lib.IpText
import Mathlib.Data.Set.Basic

/-!
# Networks as sets of addresses

Which network a printed text denotes, and when two networks have the same addresses.  A `Proper`
network has no host bits and a prefix length of its version, so that its addresses are the
numbers from its network address on, as many as it has host numbers.

* **`addresses_eq_iff`** — proper networks with the same addresses are equal.
* **`ipNetwork_networkText`** — the text of a proper network is read as that network, whatever
  scope id it has.
* `ipNetworkStr_spec`, `ipAddress_str_spec` — what is printed of a text is the text of a proper
  network, or of an address that exists.
-/

namespace Ipaddress

open Text Numerals

/-! ## Masks -/

theorem maskTo_eq_iff {bits p n : ℕ} (hn : maskTo bits p n = n) (x : ℕ) :
    maskTo bits p x = n ↔ n ≤ x ∧ x < n + 2 ^ (bits - p) := by
  have hpos : 0 < 2 ^ (bits - p) := Nat.two_pow_pos _
  rw [maskTo] at hn ⊢
  generalize 2 ^ (bits - p) = k at hn hpos ⊢
  constructor
  · intro h
    have hlt := Nat.lt_div_mul_add hpos (a := x)
    have hle := Nat.div_mul_le_self x k
    rw [h] at hlt hle
    exact ⟨hle, hlt⟩
  · rintro ⟨hle, hlt⟩
    rw [← hn] at hle hlt
    have hdiv : x / k = n / k := by
      refine Nat.div_eq_of_lt_le hle ?_
      rw [Nat.succ_mul]
      exact hlt
    rw [hdiv, hn]

theorem maskTo_maskTo (bits p n : ℕ) : maskTo bits p (maskTo bits p n) = maskTo bits p n := by
  have hpos : 0 < 2 ^ (bits - p) := Nat.two_pow_pos _
  rw [maskTo, maskTo, Nat.mul_div_cancel _ hpos]

theorem maskTo_self (bits n : ℕ) : maskTo bits bits n = n := by
  simp [maskTo]

/-- The bits above the address do not matter. -/
theorem maskTo_mod {bits p : ℕ} (n : ℕ) :
    maskTo bits p (n % 2 ^ bits) = maskTo bits p n % 2 ^ bits := by
  have hsplit : 2 ^ bits = 2 ^ (bits - p) * 2 ^ (bits - (bits - p)) := by
    rw [← Nat.pow_add]
    congr 1
    omega
  rw [maskTo, maskTo, hsplit, Nat.mod_mul_right_div_self, Nat.mul_comm (n / _),
    Nat.mul_mod_mul_left, Nat.mul_comm]

/-- A block of addresses ends inside the address space. -/
theorem block_le {bits p n : ℕ} (hn : maskTo bits p n = n) (hlt : n < 2 ^ bits) :
    n + 2 ^ (bits - p) ≤ 2 ^ bits := by
  obtain ⟨c, hc⟩ : 2 ^ (bits - p) ∣ 2 ^ bits := Nat.pow_dvd_pow 2 (Nat.sub_le _ _)
  rw [maskTo] at hn
  rw [hc] at hlt ⊢
  generalize 2 ^ (bits - p) = k at hn hlt ⊢
  rw [← hn, Nat.mul_comm] at hlt ⊢
  have hsucc : n / k + 1 ≤ c := Nat.lt_of_mul_lt_mul_left hlt
  calc k * (n / k) + k = k * (n / k + 1) := (Nat.mul_succ _ _).symm
    _ ≤ k * c := Nat.mul_le_mul_left _ hsucc

/-! ## The addresses of a network -/

/-- The number of an address fits into its version. -/
def IpAddress.InRange : IpAddress → Prop
  | .v4 n => n < 2 ^ 32
  | .v6 n _ => n < 2 ^ 128

/-- The addresses of a network. -/
def IpNetwork.addresses (net : IpNetwork) : Set IpAddress :=
  {a | a.InRange ∧ net.contains a = true}

/-- The length of the addresses of a network. -/
def IpNetwork.bits (net : IpNetwork) : ℕ := if net.isV4 then 32 else 128

/-- The number of an address of a version. -/
def addressOf (isV4 : Bool) (n : ℕ) : IpAddress := if isV4 then .v4 n else .v6 n none

/-- A network without host bits. -/
structure IpNetwork.Proper (net : IpNetwork) : Prop where
  prefixlen_le : net.prefixlen ≤ net.bits
  masked : maskTo net.bits net.prefixlen net.network = net.network
  inRange : net.network < 2 ^ net.bits

theorem addressOf_mem_iff (net : IpNetwork) (isV4 : Bool) (n : ℕ) :
    addressOf isV4 n ∈ net.addresses ↔
      net.isV4 = isV4 ∧ n < 2 ^ net.bits ∧ maskTo net.bits net.prefixlen n = net.network := by
  rcases net with ⟨v4, network, p⟩
  cases v4 <;> cases isV4 <;>
    simp [IpNetwork.addresses, addressOf, IpAddress.InRange, IpNetwork.contains, IpNetwork.bits]

/-- Blocks with the same numbers are the same. -/
theorem block_inj {bits p p' n n' : ℕ} (hp : p ≤ bits) (hp' : p' ≤ bits)
    (hn : maskTo bits p n = n) (hn' : maskTo bits p' n' = n') (hlt : n < 2 ^ bits)
    (hlt' : n' < 2 ^ bits)
    (h : ∀ x, x < 2 ^ bits → (maskTo bits p x = n ↔ maskTo bits p' x = n')) :
    n = n' ∧ p = p' := by
  have hpos : 0 < 2 ^ (bits - p) := Nat.two_pow_pos _
  have hpos' : 0 < 2 ^ (bits - p') := Nat.two_pow_pos _
  have hend := block_le hn hlt
  have hend' := block_le hn' hlt'
  have hiff : ∀ x, x < 2 ^ bits →
      (n ≤ x ∧ x < n + 2 ^ (bits - p) ↔ n' ≤ x ∧ x < n' + 2 ^ (bits - p')) := fun x hx => by
    rw [← maskTo_eq_iff hn, ← maskTo_eq_iff hn']
    exact h x hx
  -- each block contains the first and the last number of the other
  have hfirst := hiff n hlt
  have hfirst' := hiff n' hlt'
  have hlast := hiff (n + 2 ^ (bits - p) - 1) (by omega)
  have hlast' := hiff (n' + 2 ^ (bits - p') - 1) (by omega)
  have hsize : 2 ^ (bits - p) = 2 ^ (bits - p') := by omega
  have hexp : bits - p = bits - p' := Nat.pow_right_injective (le_refl 2) hsize
  exact ⟨by omega, by omega⟩

/-- **Proper networks with the same addresses are equal.** -/
theorem addresses_eq_iff {net net' : IpNetwork} (h : net.Proper) (h' : net'.Proper) :
    net.addresses = net'.addresses ↔ net = net' := by
  refine ⟨fun hsame => ?_, fun heq => heq ▸ rfl⟩
  have hmem : ∀ isV4 n, addressOf isV4 n ∈ net.addresses ↔ addressOf isV4 n ∈ net'.addresses :=
    fun isV4 n => by rw [hsame]
  have hversion : net'.isV4 = net.isV4 := by
    have hself := (addressOf_mem_iff net net.isV4 net.network).mpr ⟨rfl, h.inRange, h.masked⟩
    exact ((addressOf_mem_iff net' _ _).mp ((hmem _ _).mp hself)).1
  have hbits : net'.bits = net.bits := by
    rw [IpNetwork.bits, hversion, IpNetwork.bits]
  have hle' := h'.prefixlen_le
  have hmasked' := h'.masked
  have hlt' := h'.inRange
  rw [hbits] at hle' hmasked' hlt'
  obtain ⟨hnetwork, hprefix⟩ := block_inj h.prefixlen_le hle' h.masked hmasked' h.inRange hlt'
    fun x hx => by
      have hiff := hmem net.isV4 x
      rw [addressOf_mem_iff, addressOf_mem_iff, hversion, hbits] at hiff
      simpa only [true_and, hx] using hiff
  cases net
  cases net'
  simp only at hversion hnetwork hprefix
  rw [hversion, hnetwork, hprefix]

/-! ## Printed texts -/

theorem digits_mod {b k : ℕ} (n : ℕ) : digits b k (n % b ^ k) = digits b k n := by
  rw [digits, digits]
  refine List.map_congr_left fun i hi => ?_
  have hlt := List.mem_range.mp hi
  have hsplit : b ^ k = b ^ (k - 1 - i) * b ^ (i + 1) := by
    rw [← Nat.pow_add]
    congr 1
    omega
  have hdvd : b ∣ b ^ (i + 1) := dvd_pow_self b (Nat.succ_ne_zero i)
  rw [hsplit, Nat.mod_mul_right_div_self, Nat.mod_mod_of_dvd _ hdvd]

theorem v4Str_mod (n : ℕ) : v4Str (n % 2 ^ 32) = v4Str n := by
  have hpow : (2 : ℕ) ^ 32 = 256 ^ 4 := by norm_num
  rw [hpow, v4Str_eq, v4Str_eq, digits_mod]

theorem v6Str_mod (n : ℕ) (scope : Option Str) :
    (IpAddress.v6 (n % 2 ^ 128) scope).str = (IpAddress.v6 n scope).str := by
  have hpow : (2 : ℕ) ^ 128 = 65536 ^ 8 := by norm_num
  have hmod : v6Str (n % 2 ^ 128) = v6Str n := by rw [hpow, v6Str_eq, v6Str_eq, digits_mod]
  cases scope with
  | none => exact hmod
  | some z => rw [IpAddress.str, hmod, IpAddress.str]

/-- An address that exists is read back. -/
theorem ipAddress_v4Str_of_lt {n : ℕ} (h : n < 2 ^ 32) :
    ipAddress (IpAddress.v4 n).str = some (.v4 n) := by
  rw [IpAddress.str, ipAddress_v4Str, Nat.mod_eq_of_lt (by omega)]

theorem ipAddress_v6Str_of_lt {n : ℕ} (h : n < 2 ^ 128) {scope : Option Str}
    (hscope : ∀ z ∈ scope, IsScope z) :
    ipAddress (IpAddress.v6 n scope).str = some (.v6 n scope) := by
  rw [ipAddress_v6Str n hscope, Nat.mod_eq_of_lt (by omega)]

/-- The text of a network; the scope id is that of its network address. -/
def networkText (net : IpNetwork) (scope : Option Str) : Str :=
  (if net.isV4 then IpAddress.v4 net.network else .v6 net.network scope).str
    ++ '/' :: decimal net.prefixlen

/-- **The text of a proper network is read as that network.** -/
theorem ipNetwork_networkText {net : IpNetwork} (h : net.Proper) {scope : Option Str}
    (hscope : ∀ z ∈ scope, IsScope z) : ipNetwork (networkText net scope) = some net := by
  rcases net with ⟨v4, network, p⟩
  obtain ⟨hle, hmasked, hlt⟩ := h
  cases v4 with
  | true =>
      have hread := ipNetwork_v4 (ipAddress_v4Str_of_lt hlt) hle
      rw [show maskTo 32 p network = network from hmasked] at hread
      exact hread
  | false =>
      have hread := ipNetwork_v6 (ipAddress_v6Str_of_lt hlt hscope) hle
      rw [show maskTo 128 p network = network from hmasked] at hread
      exact hread

/-- A network has no host bits. -/
theorem masked_of_ipNetwork {s : Str} {net : IpNetwork} (h : ipNetwork s = some net) :
    maskTo net.bits net.prefixlen net.network = net.network := by
  rw [ipNetwork] at h
  dsimp only at h
  rcases Option.or_eq_some_iff.mp h with h | ⟨-, h⟩
  · obtain ⟨n, -, h⟩ := Option.bind_eq_some_iff.mp h
    split at h
    all_goals
      obtain ⟨p, -, h⟩ := Option.bind_eq_some_iff.mp h
      cases h
      exact maskTo_maskTo 32 p n
  · obtain ⟨a, -, h⟩ := Option.bind_eq_some_iff.mp h
    split at h
    all_goals
      obtain ⟨p, -, h⟩ := Option.bind_eq_some_iff.mp h
      cases a with
      | v4 n => cases h
      | v6 n scope =>
          cases h
          exact maskTo_maskTo 128 p n

/-- The text of a network is the text of a proper network. -/
theorem ipNetworkStr_spec {s v : Str} (h : ipNetworkStr s = some v) :
    ∃ net₀ net scope, ipNetwork s = some net₀ ∧ net.Proper ∧ net.isV4 = net₀.isV4 ∧
      (∀ z ∈ scope, IsScope z) ∧ v = networkText net scope := by
  obtain ⟨net₀, hnet₀, rfl⟩ := Option.map_eq_some_iff.mp h
  have hmasked := masked_of_ipNetwork hnet₀
  have hle := prefixlen_le hnet₀
  have hscope : ∀ z ∈ networkScope s net₀, IsScope z := fun z hz => isScope_networkScope hz
  generalize networkScope s net₀ = scope at hscope
  refine ⟨net₀, { net₀ with network := net₀.network % 2 ^ net₀.bits }, scope, hnet₀,
    ⟨hle, ?_, Nat.mod_lt _ (Nat.two_pow_pos _)⟩, rfl, hscope, ?_⟩
  · show maskTo net₀.bits net₀.prefixlen (net₀.network % 2 ^ net₀.bits)
      = net₀.network % 2 ^ net₀.bits
    rw [maskTo_mod, hmasked]
  · rcases net₀ with ⟨v4, network, p⟩
    cases v4 with
    | true =>
        show v4Str network ++ '/' :: decimal p = v4Str (network % 2 ^ 32) ++ '/' :: decimal p
        rw [v4Str_mod]
    | false =>
        show (IpAddress.v6 network scope).str ++ '/' :: decimal p
          = (IpAddress.v6 (network % 2 ^ 128) scope).str ++ '/' :: decimal p
        rw [v6Str_mod]

/-- The text of an address is the text of an address that exists. -/
theorem ipAddress_str_spec {s : Str} {a : IpAddress} (h : ipAddress s = some a) :
    (∃ n, n < 2 ^ 32 ∧ a.isV4 = true ∧ a.str = (IpAddress.v4 n).str) ∨
      ∃ n scope, n < 2 ^ 128 ∧ (∀ z ∈ scope, IsScope z) ∧ a.isV4 = false ∧
        a.str = (IpAddress.v6 n scope).str := by
  cases a with
  | v4 n =>
      exact Or.inl ⟨n % 2 ^ 32, Nat.mod_lt _ (Nat.two_pow_pos _), rfl, (v4Str_mod n).symm⟩
  | v6 n scope =>
      have hscope : ∀ z ∈ scope, IsScope z := fun z hz => by
        cases hz
        exact isScope_of_parseV6Scoped (slash_notMem_of_ipAddress h)
          (parseV6Scoped_of_ipAddress h).2
      exact Or.inr ⟨n % 2 ^ 128, scope, Nat.mod_lt _ (Nat.two_pow_pos _), hscope, rfl,
        (v6Str_mod n scope).symm⟩

/-- The network of a single address. -/
def hostNetwork (isV4 : Bool) (n : ℕ) : IpNetwork := ⟨isV4, n, if isV4 then 32 else 128⟩

theorem proper_hostNetwork {isV4 : Bool} {n : ℕ} (h : n < 2 ^ (hostNetwork isV4 n).bits) :
    (hostNetwork isV4 n).Proper :=
  ⟨le_refl _, maskTo_self _ _, h⟩

/-- A text without a prefix length is the network of its address. -/
theorem ipNetwork_host_v4 {s : Str} {n : ℕ} (h : ipAddress s = some (.v4 n)) :
    ipNetwork s = some (hostNetwork true n) := by
  rw [ipNetwork, split_of_not_mem (slash_notMem_of_ipAddress h)]
  simp [parseV4_of_ipAddress h, maskTo_self, hostNetwork]

theorem ipNetwork_host_v6 {s : Str} {n : ℕ} {scope : Option Str}
    (h : ipAddress s = some (.v6 n scope)) : ipNetwork s = some (hostNetwork false n) := by
  obtain ⟨hv4, hv6⟩ := parseV6Scoped_of_ipAddress h
  rw [ipNetwork, split_of_not_mem (slash_notMem_of_ipAddress h)]
  simp [hv4, hv6, maskTo_self, hostNetwork]

/-! ## Scope ids -/

/-- Leave the scope id out. -/
def dropScope (s : Str) : Str :=
  s.takeWhile (· ≠ '%') ++ (s.dropWhile (· ≠ '%')).dropWhile (· ≠ '/')

theorem dropScope_eq_self {s : Str} (h : '%' ∉ s) : dropScope s = s := by
  have hkeep : ∀ c ∈ s, decide (c ≠ '%') = true := fun c hc => decide_eq_true fun he => h (he ▸ hc)
  rw [dropScope, List.takeWhile_eq_self_iff.mpr hkeep, List.dropWhile_eq_nil_iff.mpr hkeep,
    List.dropWhile_nil, List.append_nil]

theorem dropScope_append {a z rest : Str} (ha : '%' ∉ a) (hz : '/' ∉ z)
    (hrest : rest = [] ∨ ∃ p, rest = '/' :: p) : dropScope (a ++ '%' :: z ++ rest) = a ++ rest := by
  have hkeep : ∀ c ∈ a, decide (c ≠ '%') = true := fun c hc =>
    decide_eq_true fun he => ha (he ▸ hc)
  have hscope : ∀ c ∈ '%' :: z, decide (c ≠ '/') = true := by
    intro c hc
    rcases List.mem_cons.mp hc with rfl | hc
    · decide
    · exact decide_eq_true fun he => hz (he ▸ hc)
  have hleft : rest.dropWhile (· ≠ '/') = rest := by
    rcases hrest with rfl | ⟨p, rfl⟩
    · rfl
    · exact List.dropWhile_cons_of_neg (by simp)
  have hcut : ('%' :: z ++ rest).dropWhile (· ≠ '%') = '%' :: z ++ rest :=
    List.dropWhile_cons_of_neg (by simp)
  rw [dropScope, List.append_assoc, List.takeWhile_append_of_pos hkeep,
    List.dropWhile_append_of_pos hkeep, hcut, List.dropWhile_append_of_pos hscope, hleft,
    List.cons_append, List.takeWhile_cons_of_neg (by simp), List.append_nil]

/-- The text of an address or a network without the scope id. -/
theorem dropScope_str (n : ℕ) {scope : Option Str} (hscope : ∀ z ∈ scope, IsScope z) {rest : Str}
    (hpercent : '%' ∉ rest) (hrest : rest = [] ∨ ∃ p, rest = '/' :: p) :
    dropScope ((IpAddress.v6 n scope).str ++ rest) = v6Str n ++ rest := by
  have hv6 : '%' ∉ v6Str n := notMem_v6Str (by decide) (by decide) n
  cases scope with
  | none =>
      refine dropScope_eq_self fun h => ?_
      rcases List.mem_append.mp h with h | h
      · exact hv6 h
      · exact hpercent h
  | some z => exact dropScope_append hv6 (hscope z rfl).slash hrest

theorem percent_notMem_prefixlen {p : ℕ} (hp : p ≤ 128) : '%' ∉ '/' :: decimal p := fun h => by
  rcases List.mem_cons.mp h with h | h
  · exact absurd h (by decide)
  · exact notMem_decimal (by omega) (by decide) h

end Ipaddress
