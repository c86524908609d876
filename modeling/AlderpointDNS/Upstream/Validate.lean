import AlderpointDNS.Lib.IpSets
import AlderpointDNS.Lib.Results
import AlderpointDNS.Lib.Urls
import AlderpointDNS.LocalDns.Names
import AlderpointDNS.Upstream.Resolvers

/-!
# Validating upstream resolvers

`validate_resolver` and what it calls.  It takes the values of a form, and returns the columns of a
row or raises; where it calls `ipaddress` or `urllib` without a handler, a plain `ValueError`
escapes.

* `normalizeHost_spec` — a host is the text of an IP address, or a name that `DOMAIN_RE` matches;
* **`validateResolver_spec`** — what an accepted resolver has.

The port is an argument in the form in which `_normalize_port` uses it (`PortValue`).
-/

namespace AlderpointDNS.Upstream

open Text Ipaddress Results

/-- What `validate_resolver` raises. -/
inductive ResolverError where
  /-- `UpstreamDNSError` -/
  | upstreamDNS (message : String)
  /-- a plain `ValueError` -/
  | value
  deriving DecidableEq

/-- What stands in the field for the port. -/
inductive PortValue where
  /-- nothing, or a value that is false in Python -/
  | absent
  /-- a value that `int` turns into this number -/
  | number (n : ℤ)
  /-- a value that `int` rejects -/
  | notNumber
  deriving DecidableEq

/-- The values of a resolver; a field that is missing is `none`. -/
structure ResolverValues where
  protocol : Option Str
  name : Option Str
  enabled : Option Str
  address : Option Str
  port : PortValue
  dohPath : Option Str
  tlsHostname : Option Str
  bootstrapIps : Option Str

/-- The columns that depend on the protocol. -/
structure Endpoint where
  address : Str
  port : ℕ
  dohPath : Str
  tlsHostname : Str
  bootstrapIps : Str
  deriving DecidableEq

/-- What `validate_resolver` returns. -/
structure ResolverData extends Endpoint where
  name : Str
  protocol : Protocol
  enabled : Bool
  deriving DecidableEq

/-- The texts of `PROTOCOLS`. -/
def Protocol.text : Protocol → Str
  | plain => "plain".toList
  | dot => "dot".toList
  | doh => "doh".toList

/-- `str.upper` of the name of a protocol. -/
def Protocol.upper : Protocol → Str
  | plain => "PLAIN".toList
  | dot => "DOT".toList
  | doh => "DOH".toList

def Protocol.ofText (s : Str) : Option Protocol :=
  [plain, dot, doh].find? (·.text = s)

/-- `[` and `]`. -/
def isBracket (c : Char) : Bool := c = '[' || c = ']'

/-- `_host_is_ip`. -/
def hostIsIp (value : Str) : Bool := (ipAddress (stripBy isBracket value)).isSome

/-- What the standard library looks up in tables: `str.lower`, `str.upper` and the IDNA codec, and
the checks of a network location. -/
structure HostData extends UnicodeData where
  checkNetloc : Str → Bool

section Normalize

variable (u : HostData)

/-- `_normalize_host`. -/
def normalizeHost (value : Str) : Except ResolverError Str :=
  let host := u.toLower (stripBy isBracket (strip value))
  if host = [] then .error (.upstreamDNS "resolver address is required")
  else match ipAddress host with
    | some ip => .ok ip.str
    | none =>
        match LocalDns.idnaEncode u.toUnicodeData host with
        | none => .error (.upstreamDNS "resolver hostname is not valid IDNA")
        | some host =>
            if LocalDns.matchesDomainRe host then .ok host
            else .error (.upstreamDNS "resolver hostname is invalid")

/-- `_normalize_port`. -/
def normalizePort (value : PortValue) (default : ℕ) : Except ResolverError ℕ :=
  match value with
  | .notNumber => .error (.upstreamDNS "resolver port must be a number")
  | .absent => .ok default
  | .number port =>
      if port < 1 ∨ 65535 < port then
        .error (.upstreamDNS "resolver port must be between 1 and 65535")
      else .ok port.toNat

/-- The texts between the commas and newlines of the field, without surrounding white space. -/
def bootstrapTexts (value : Str) : List Str :=
  (((value.map fun c => if c = '\n' then ',' else c).splitOn ',').map strip).filter (· ≠ [])

/-- `_normalize_bootstrap`. -/
def normalizeBootstrap (value : Str) : Except ResolverError Str :=
  match (bootstrapTexts value).mapM ipAddress with
  | none => .error .value
  | some ips => .ok (join ", ".toList (ips.map IpAddress.str))

/-- `text or default`. -/
def orText (text default : Str) : Str := if text = [] then default else text

/-- What ends both branches of `_normalize_doh_url`: a host is an IP address, or there is a way to
find its address. -/
def dohEndpoint (host bootstrap : Str) (port : Except ResolverError ℕ) (path tlsHostname : Str) :
    Except ResolverError Endpoint :=
  if !hostIsIp host && bootstrap = [] then
    .error (.upstreamDNS "DoH resolver hostname requires at least one bootstrap IP")
  else do
    let port ← port
    return ⟨host, port, path, orText (u.toLower (strip tlsHostname)) host, bootstrap⟩

/-- `_normalize_doh_url`. -/
def normalizeDohUrl (address : Str) (port : PortValue) (dohPath bootstrapIps tlsHostname : Str) :
    Except ResolverError Endpoint :=
  match Urls.urlparse u.toLower u.checkNetloc (strip address) with
  | none => .error .value
  | some parsed =>
      if parsed.scheme ≠ [] then
        if parsed.scheme ≠ "https".toList ∨ parsed.hostname u.toLower = [] then
          .error (.upstreamDNS "DoH resolver URL must be an https:// URL")
        else if parsed.query ≠ [] ∨ parsed.fragment ≠ [] then
          .error (.upstreamDNS
            "DoH resolver URL must not include query parameters or fragments")
        else do
          let host ← normalizeHost u (parsed.hostname u.toLower)
          match parsed.port with
          | none => .error .value
          | some port =>
              let bootstrap ← normalizeBootstrap bootstrapIps
              dohEndpoint u host bootstrap (.ok (if port = 0 then 443 else port))
                (orText parsed.path "/dns-query".toList) tlsHostname
      else do
        let host ← normalizeHost u address
        let bootstrap ← normalizeBootstrap bootstrapIps
        dohEndpoint u host bootstrap (normalizePort port 443)
          (orText (strip dohPath) "/dns-query".toList) tlsHostname

/-- The other branch of `validate_resolver`. -/
def normalizePlainOrDot (protocol : Protocol) (address : Str) (port : PortValue)
    (tlsHostname bootstrapIps : Str) : Except ResolverError Endpoint := do
  let host ← normalizeHost u address
  let port ← normalizePort port (if protocol = .dot then 853 else 53)
  let bootstrap ← normalizeBootstrap bootstrapIps
  let tls := u.toLower (strip tlsHostname)
  return ⟨host, port, [], if protocol = .dot then orText tls host else tls, bootstrap⟩

/-- The columns that depend on the protocol, as `validate_resolver` gets them. -/
def normalizeEndpoint (protocol : Protocol) (values : ResolverValues) :
    Except ResolverError Endpoint :=
  if protocol = .doh then
    normalizeDohUrl u (values.address.getD []) values.port (values.dohPath.getD [])
      (values.bootstrapIps.getD []) (values.tlsHostname.getD [])
  else
    normalizePlainOrDot u protocol (values.address.getD []) values.port
      (values.tlsHostname.getD []) (values.bootstrapIps.getD [])

/-- What `validate_resolver` makes of the field `enabled`. -/
def isEnabled (requireEnabledSet : Bool) (enabled : Option Str) : Bool :=
  ["1".toList, "true".toList, "on".toList, "yes".toList].contains
    (u.toLower (enabled.getD (if requireEnabledSet then "0" else "1").toList))

/-- `validate_resolver`. -/
def validateResolver (requireEnabledSet : Bool) (values : ResolverValues) :
    Except ResolverError ResolverData :=
  match Protocol.ofText (u.toLower (strip (values.protocol.getD "plain".toList))) with
  | none => .error (.upstreamDNS "resolver protocol must be plain, dot, or doh")
  | some protocol =>
      let name := strip (orText (values.name.getD []) protocol.upper)
      if name = [] then .error (.upstreamDNS "friendly name is required")
      else do
        let normalized ← normalizeEndpoint u protocol values
        if normalized.dohPath ≠ [] ∧ normalized.dohPath.head? ≠ some '/' then
          .error (.upstreamDNS "DoH path must start with /")
        else
          return { normalized with
            name := name.take 120
            protocol := protocol
            enabled := isEnabled u requireEnabledSet values.enabled }

end Normalize

/-! ## What is accepted -/

/-- The text of an IP address, or a name that `DOMAIN_RE` matches. -/
def IsHost (host : Str) : Prop :=
  (∃ s ip, ipAddress s = some ip ∧ host = ip.str) ∨ LocalDns.matchesDomainRe host = true

/-- What an accepted resolver has. -/
structure Accepted (row : ResolverData) : Prop where
  address : IsHost row.address
  bootstrap : ∃ ips : List IpAddress, row.bootstrapIps = join ", ".toList (ips.map IpAddress.str)
  doh : row.protocol = .doh → hostIsIp row.address = true ∨ row.bootstrapIps ≠ []

variable {u : HostData}

theorem normalizeHost_spec {value host : Str} (h : normalizeHost u value = .ok host) :
    IsHost host := by
  unfold normalizeHost at h
  dsimp only at h
  split_ifs at h
  split at h
  · rename_i ip hip
    cases h
    exact Or.inl ⟨_, ip, hip, rfl⟩
  · split at h
    · cases h
    · split_ifs at h with hmatches
      cases h
      exact Or.inr hmatches

theorem normalizeBootstrap_spec {value text : Str} (h : normalizeBootstrap value = .ok text) :
    ∃ ips : List IpAddress, text = join ", ".toList (ips.map IpAddress.str) := by
  unfold normalizeBootstrap at h
  split at h
  · cases h
  · rename_i ips _
    cases h
    exact ⟨ips, rfl⟩

theorem dohEndpoint_spec {host bootstrap path tlsHostname : Str} {port : Except ResolverError ℕ}
    {e : Endpoint} (h : dohEndpoint u host bootstrap port path tlsHostname = .ok e) :
    e.address = host ∧ e.bootstrapIps = bootstrap ∧ (hostIsIp host = true ∨ bootstrap ≠ []) := by
  unfold dohEndpoint at h
  split_ifs at h with hfind
  obtain ⟨port', -, h⟩ := bind_eq_ok.mp h
  cases h
  refine ⟨rfl, rfl, ?_⟩
  by_contra hnone
  obtain ⟨hip, hempty⟩ := not_or.mp hnone
  exact hfind (by simp [Bool.not_eq_true _ ▸ hip, not_not.mp hempty])

/-- What both branches of `validate_resolver` return. -/
structure AcceptedEndpoint (e : Endpoint) : Prop where
  address : IsHost e.address
  bootstrap : ∃ ips : List IpAddress, e.bootstrapIps = join ", ".toList (ips.map IpAddress.str)

theorem normalizeDohUrl_spec {address dohPath bootstrapIps tlsHostname : Str} {port : PortValue}
    {e : Endpoint}
    (h : normalizeDohUrl u address port dohPath bootstrapIps tlsHostname = .ok e) :
    AcceptedEndpoint e ∧ (hostIsIp e.address = true ∨ e.bootstrapIps ≠ []) := by
  have hdone : ∀ {host bootstrap path : Str} {port : Except ResolverError ℕ} {value : Str},
      normalizeHost u value = .ok host → normalizeBootstrap bootstrapIps = .ok bootstrap →
      dohEndpoint u host bootstrap port path tlsHostname = .ok e →
      AcceptedEndpoint e ∧ (hostIsIp e.address = true ∨ e.bootstrapIps ≠ []) := by
    intro host bootstrap path port value hhost hbootstrap hend
    obtain ⟨haddress, hips, hfind⟩ := dohEndpoint_spec hend
    rw [← haddress, ← hips] at hfind
    refine ⟨⟨?_, ?_⟩, hfind⟩
    · rw [haddress]
      exact normalizeHost_spec hhost
    · rw [hips]
      exact normalizeBootstrap_spec hbootstrap
  unfold normalizeDohUrl at h
  split at h
  · cases h
  · split_ifs at h
    · obtain ⟨host, hhost, h⟩ := bind_eq_ok.mp h
      split at h
      · cases h
      · obtain ⟨bootstrap, hbootstrap, h⟩ := bind_eq_ok.mp h
        exact hdone hhost hbootstrap h
    · obtain ⟨host, hhost, h⟩ := bind_eq_ok.mp h
      obtain ⟨bootstrap, hbootstrap, h⟩ := bind_eq_ok.mp h
      exact hdone hhost hbootstrap h

theorem normalizePlainOrDot_spec {protocol : Protocol} {address tlsHostname bootstrapIps : Str}
    {port : PortValue} {e : Endpoint}
    (h : normalizePlainOrDot u protocol address port tlsHostname bootstrapIps = .ok e) :
    AcceptedEndpoint e := by
  unfold normalizePlainOrDot at h
  obtain ⟨host, hhost, h⟩ := bind_eq_ok.mp h
  obtain ⟨port', -, h⟩ := bind_eq_ok.mp h
  obtain ⟨bootstrap, hbootstrap, h⟩ := bind_eq_ok.mp h
  cases h
  exact ⟨normalizeHost_spec hhost, normalizeBootstrap_spec hbootstrap⟩

theorem normalizeEndpoint_spec {protocol : Protocol} {values : ResolverValues} {e : Endpoint}
    (h : normalizeEndpoint u protocol values = .ok e) : AcceptedEndpoint e ∧
      (protocol = .doh → hostIsIp e.address = true ∨ e.bootstrapIps ≠ []) := by
  unfold normalizeEndpoint at h
  split_ifs at h with hdoh
  · exact (normalizeDohUrl_spec h).imp_right fun hfind _ => hfind
  · exact ⟨normalizePlainOrDot_spec h, fun hprotocol => absurd hprotocol hdoh⟩

/-- **What `validate_resolver` accepts.** -/
theorem validateResolver_spec {requireEnabledSet : Bool} {values : ResolverValues}
    {row : ResolverData} (h : validateResolver u requireEnabledSet values = .ok row) :
    Accepted row := by
  unfold validateResolver at h
  split at h
  · cases h
  · dsimp only at h
    split_ifs at h
    obtain ⟨e, he, h⟩ := bind_eq_ok.mp h
    split_ifs at h
    cases h
    obtain ⟨haccepted, hfind⟩ := normalizeEndpoint_spec he
    exact ⟨haccepted.address, haccepted.bootstrap, hfind⟩

end AlderpointDNS.Upstream
