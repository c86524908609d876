import AlderpointDNS.Upstream.Validate

/-!
# The endpoints of upstream resolvers

dnsdist gets the address of a resolver as an IP address and a port.  For a DoT or DoH resolver with
a hostname, `_resolve_backend_address` asks the bootstrap resolvers with `dig`; what `dig` answers
is an argument.

* `addressForDnsdist_isEndpoint` — when an address is rendered as an endpoint;
* **`deployable_iff`** — the accepted resolvers that can be deployed.
* `dot_without_bootstrap` — a DoT resolver that is accepted and can never be deployed.
-/

namespace AlderpointDNS.Upstream

open Text Ipaddress Results

/-- A row of `upstream_resolvers`, with the key `_dnsdist_address` once it is prepared. -/
structure ForwarderRow extends ResolverData where
  id : ℕ
  position : ℕ
  dnsdistAddress : Option Str

/-! ## Rendering -/

/-- An IPv6 address is put in brackets. -/
def bracketed (host : Str) : Str :=
  if host.contains ':' && host.head? ≠ some '[' then '[' :: host ++ [']'] else host

/-- `_address_for_dnsdist`. -/
def addressForDnsdist (row : ForwarderRow) : Str :=
  let override := strip (row.dnsdistAddress.getD [])
  bracketed (orText override row.address) ++ ':' :: Nat.toDigits 10 row.port

/-! ## Resolving -/

/-- The errors of `_resolve_backend_address`. -/
inductive BackendError where
  /-- "… resolver hostname requires at least one bootstrap IP" -/
  | noBootstrap (protocol : Protocol)
  /-- "bootstrap resolution failed for …: …" -/
  | failed (address detail : Str)
  deriving DecidableEq

/-- The exit code and the output of `dig @resolver address qtype +short …`. -/
abbrev Dig := (resolver address qtype : Str) → ℕ × Str

/-- `_bootstrap_ips`. -/
def bootstrapList (row : ResolverData) : List Str :=
  ((split ',' row.bootstrapIps).map strip).filter (· ≠ [])

/-- The first line that begins with an address. -/
def firstAddress (stdout : Str) : Option IpAddress :=
  (splitlines stdout).findSome? fun raw => ipAddress ((words raw).headD [])

/-- The queries in their order. -/
def bootstrapQueries (bootstrap : List Str) : List (Str × Str) :=
  ["A".toList, "AAAA".toList].flatMap fun qtype => bootstrap.map fun resolver => (qtype, resolver)

/-- The loop over the queries; `errors` are those so far. -/
def askBootstrap (dig : Dig) (address : Str) : List (Str × Str) → List Str → Except BackendError Str
  | [], errors =>
      .error (.failed address (if errors = [] then "no A or AAAA address returned".toList
        else join "; ".toList (errors.take 4)))
  | (qtype, resolver) :: queries, errors =>
      let (returncode, stdout) := dig resolver address qtype
      if returncode ≠ 0 then
        askBootstrap dig address queries (errors ++ [resolver ++ ' ' :: qtype ++
          ": dig exited ".toList ++ Nat.toDigits 10 returncode])
      else match firstAddress stdout with
        | some ip => .ok ip.str
        | none => askBootstrap dig address queries errors

/-- `_resolve_backend_address`. -/
def resolveBackendAddress (dig : Dig) (row : ResolverData) : Except BackendError Str :=
  if row.protocol = .plain || hostIsIp row.address then .ok row.address
  else if bootstrapList row = [] then .error (.noBootstrap row.protocol)
  else askBootstrap dig row.address (bootstrapQueries (bootstrapList row)) []

/-- One round of `prepare_dnsdist_rows`. -/
def prepareRow (dig : Dig) (row : ForwarderRow) : Except BackendError ForwarderRow := do
  let address ← resolveBackendAddress dig row.toResolverData
  return { row with dnsdistAddress := some address }

/-- `prepare_dnsdist_rows`. -/
def prepareDnsdistRows (dig : Dig) (rows : List ForwarderRow) :
    Except BackendError (List ForwarderRow) :=
  rows.mapM (prepareRow dig)

/-! ## What dnsdist needs -/

/-- The literal of an IP address with a port, in brackets for IPv6. -/
def IsEndpoint (text : Str) (port : ℕ) : Prop :=
  ∃ host ip, ipAddress host = some ip ∧
    text = (if ip.isV4 then host else '[' :: host ++ [']']) ++ ':' :: Nat.toDigits 10 port

/-- Whatever the bootstrap resolvers answer, the row is not rejected for the lack of them, and where
it is prepared its address is an endpoint. -/
def Deployable (row : ForwarderRow) : Prop :=
  ∀ dig, prepareRow dig row ≠ .error (.noBootstrap row.protocol) ∧
    ∀ prepared, prepareRow dig row = .ok prepared →
      IsEndpoint (addressForDnsdist prepared) prepared.port

/-- The address is that of a resolver itself and remains an IP address without the white space
around it, or there is a bootstrap resolver. -/
def HasAddress (row : ResolverData) : Prop :=
  if row.protocol = .plain ∨ hostIsIp row.address = true then
    (ipAddress (strip row.address)).isSome = true
  else row.bootstrapIps ≠ []

/-! ## The first character of a host -/

/-- A text that begins with another character than white space or a bracket. -/
def StartsPlain (s : Str) : Prop := ∃ c, s.head? = some c ∧ isSpace c = false ∧ c ≠ '['

theorem startsPlain_str (ip : IpAddress) : StartsPlain ip.str := by
  obtain ⟨c, hhead, hstart⟩ := str_head ip
  obtain ⟨hspace, -, hbracket⟩ := isSpace_of_isAddressStart hstart
  exact ⟨c, hhead, hspace, hbracket⟩

theorem startsPlain_of_isLabel {w : Str} (h : LocalDns.isLabel w = true) (rest : Str) :
    StartsPlain (w ++ rest) := by
  simp only [LocalDns.isLabel, Bool.and_eq_true, decide_eq_true_eq] at h
  obtain ⟨⟨⟨⟨hne, -⟩, -⟩, hhead⟩, -⟩ := h
  obtain ⟨c, cs, rfl⟩ := List.exists_cons_of_ne_nil hne
  have hrange : (97 ≤ c.toNat ∧ c.toNat ≤ 122) ∨ (48 ≤ c.toNat ∧ c.toNat ≤ 57) := by
    simpa [LocalDns.isAlnum, isDecDigit, Char.le_def, UInt32.le_iff_toNat_le] using hhead
  refine ⟨c, rfl, ?_, ?_⟩
  · simp only [isSpace, Bool.or_eq_false_iff, Bool.and_eq_false_iff, decide_eq_false_iff_not]
    omega
  · rintro rfl
    revert hrange
    decide

theorem startsPlain_of_matchesDomainRe {s : Str} (h : LocalDns.matchesDomainRe s = true) :
    StartsPlain s := by
  simp only [LocalDns.matchesDomainRe, Bool.and_eq_true, decide_eq_true_eq, List.all_eq_true] at h
  obtain ⟨⟨-, hlabels⟩, -⟩ := h
  obtain ⟨w, ws, hsplit⟩ := List.exists_cons_of_ne_nil (split_ne_nil '.' (LocalDns.dropNewline s))
  have hw : LocalDns.isLabel w = true := hlabels w (hsplit ▸ List.mem_cons_self)
  have hdrop : ∃ rest, LocalDns.dropNewline s = w ++ rest := by
    rw [← join_split '.' (LocalDns.dropNewline s), hsplit]
    cases ws with
    | nil => exact ⟨[], by simp [join]⟩
    | cons v vs => exact ⟨'.' :: join ['.'] (v :: vs), by simp [join, List.intercalate_cons_cons]⟩
  obtain ⟨rest, hrest⟩ := hdrop
  have hprefix : LocalDns.dropNewline s <+: s := by
    unfold LocalDns.dropNewline
    split_ifs
    · exact List.dropLast_prefix s
    · exact List.prefix_rfl
  obtain ⟨last, hlast⟩ := hprefix
  rw [← hlast, hrest, List.append_assoc]
  exact startsPlain_of_isLabel hw _

theorem IsHost.startsPlain {host : Str} (h : IsHost host) : StartsPlain host := by
  rcases h with ⟨s, ip, -, rfl⟩ | hmatches
  · exact startsPlain_str ip
  · exact startsPlain_of_matchesDomainRe hmatches

theorem StartsPlain.ne_nil {s : Str} (h : StartsPlain s) : s ≠ [] := by
  rintro rfl
  obtain ⟨c, hhead, -⟩ := h
  cases hhead

theorem StartsPlain.strip {s : Str} (h : StartsPlain s) : StartsPlain (strip s) := by
  obtain ⟨c, hhead, hspace, hbracket⟩ := h
  obtain ⟨cs, rfl⟩ := List.head?_eq_some_iff.mp hhead
  have hne : Text.strip (c :: cs) ≠ [] := fun hnil => by
    simp [stripBy_eq_nil.mp hnil c List.mem_cons_self] at hspace
  obtain ⟨d, ds, hstrip⟩ := List.exists_cons_of_ne_nil hne
  have hprefix : d :: ds <+: c :: cs := by
    rw [← hstrip, Text.strip, stripBy, List.dropWhile_cons_of_neg (by simp [hspace])]
    exact List.rdropWhile_prefix _ _
  rw [hstrip]
  exact ⟨c, by rw [(List.cons_prefix_cons.mp hprefix).1, List.head?_cons], hspace, hbracket⟩

/-! ## Endpoints -/

/-- A host is rendered as an endpoint exactly if it is an IP address. -/
theorem bracketed_isEndpoint {host : Str} (h : StartsPlain host) (port : ℕ) :
    IsEndpoint (bracketed host ++ ':' :: Nat.toDigits 10 port) port
      ↔ (ipAddress host).isSome = true := by
  obtain ⟨c, hhead, -, hbracket⟩ := h
  have hopen : host.head? ≠ some '[' := by simp [hhead, hbracket]
  constructor
  · rintro ⟨host', ip, hip, htext⟩
    have htext := List.append_cancel_right htext
    by_cases hcolon : ':' ∈ host
    · have hbr : bracketed host = '[' :: host ++ [']'] := by simp [bracketed, hcolon, hopen]
      rw [hbr] at htext
      cases hv4 : ip.isV4 with
      | true =>
          rw [if_pos hv4] at htext
          have hmem : ':' ∈ host' := htext ▸ by simp [hcolon]
          rw [(colon_mem_iff_of_ipAddress hip).mp hmem] at hv4
          cases hv4
      | false =>
          rw [if_neg (by simp [hv4])] at htext
          rw [(List.cons.inj (List.append_cancel_right htext)).2, hip, Option.isSome_some]
    · have hbr : bracketed host = host := by simp [bracketed, hcolon]
      rw [hbr] at htext
      cases hv4 : ip.isV4 with
      | true =>
          rw [if_pos hv4] at htext
          rw [htext, hip, Option.isSome_some]
      | false =>
          rw [if_neg (by simp [hv4])] at htext
          exact absurd (by rw [htext]; rfl) hopen
  · intro hip
    obtain ⟨ip, hip⟩ := Option.isSome_iff_exists.mp hip
    refine ⟨host, ip, hip, ?_⟩
    have hcolon := colon_mem_iff_of_ipAddress hip
    cases hv4 : ip.isV4 with
    | true => simp [bracketed, hcolon, hv4]
    | false => simp [bracketed, hcolon, hv4, hopen]

theorem addressForDnsdist_isEndpoint {row : ForwarderRow} {address : Str}
    (h : StartsPlain address) (hrow : row.dnsdistAddress = some address) :
    IsEndpoint (addressForDnsdist row) row.port ↔ (ipAddress (strip address)).isSome = true := by
  have hstrip : orText (strip address) row.address = strip address := if_neg h.strip.ne_nil
  simp only [addressForDnsdist, hrow, Option.getD_some, hstrip]
  exact bracketed_isEndpoint h.strip row.port

/-! ## The bootstrap resolvers -/

theorem firstAddress_strip {stdout : Str} {ip : IpAddress} (h : firstAddress stdout = some ip) :
    strip ip.str = ip.str ∧ (ipAddress ip.str).isSome = true := by
  obtain ⟨raw, -, hraw⟩ := List.exists_of_findSome?_eq_some h
  have hspace : ∀ c ∈ (words raw).headD [], isSpace c = false := by
    cases hwords : words raw with
    | nil => simp
    | cons w ws =>
        have hw : w ∈ words raw := hwords ▸ List.mem_cons_self
        exact (mem_words hw).2
  refine ⟨stripBy_eq_self fun c hc => isSpace_of_mem_str hraw hspace hc, ?_⟩
  rcases ipAddress_str_spec hraw with ⟨n, hn, -, hstr⟩ | ⟨n, scope, hn, hscope, -, hstr⟩
  · rw [hstr, ipAddress_v4Str_of_lt hn, Option.isSome_some]
  · rw [hstr, ipAddress_v6Str_of_lt hn hscope, Option.isSome_some]

/-- The bootstrap resolvers are asked for an address, and give one or fail. -/
theorem askBootstrap_spec (dig : Dig) (address : Str) (queries : List (Str × Str)) :
    ∀ errors : List Str,
      (∃ stdout ip, firstAddress stdout = some ip ∧
        askBootstrap dig address queries errors = .ok ip.str) ∨
      ∃ detail, askBootstrap dig address queries errors = .error (.failed address detail) := by
  induction queries with
  | nil => exact fun errors => Or.inr ⟨_, rfl⟩
  | cons query queries ih =>
      obtain ⟨qtype, resolver⟩ := query
      intro errors
      rw [askBootstrap]
      obtain ⟨returncode, stdout⟩ := dig resolver address qtype
      dsimp only
      split_ifs with hcode
      · exact ih _
      · cases hfirst : firstAddress stdout with
        | none => exact ih errors
        | some ip => exact Or.inl ⟨stdout, ip, hfirst, rfl⟩

theorem bootstrapList_eq_nil_iff {row : ResolverData} (h : Accepted row) :
    bootstrapList row = [] ↔ row.bootstrapIps = [] := by
  constructor
  · intro hnil
    obtain ⟨ips, hips⟩ := h.bootstrap
    cases ips with
    | nil => rw [hips, List.map_nil]; rfl
    | cons ip ips =>
        -- the first address begins the first part
        obtain ⟨c, hhead, hstart⟩ := str_head ip
        obtain ⟨cs, hstr⟩ := List.head?_eq_some_iff.mp hhead
        obtain ⟨hspace, hcomma, -⟩ := isSpace_of_isAddressStart hstart
        obtain ⟨rest, hrest⟩ : ∃ rest, row.bootstrapIps = c :: rest := by
          rw [hips, List.map_cons, hstr]
          cases ips with
          | nil => exact ⟨cs, by simp [join]⟩
          | cons jp jps => exact ⟨_, by rw [List.map_cons, join, List.intercalate_cons_cons]; rfl⟩
        obtain ⟨w, ws, hw⟩ := List.exists_cons_of_ne_nil (split_ne_nil ',' rest)
        have hmem : strip (c :: w) ∈ bootstrapList row := by
          refine List.mem_filter.mpr ⟨List.mem_map_of_mem ?_, decide_eq_true fun hstrip => ?_⟩
          · rw [hrest, split_cons_of_ne hcomma, hw, List.modifyHead_cons]
            exact List.mem_cons_self
          · simp [stripBy_eq_nil.mp hstrip c List.mem_cons_self] at hspace
        rw [hnil] at hmem
        cases hmem
  · intro hnil
    simp [bootstrapList, hnil, split, strip, stripBy]

/-! ## Which resolvers can be deployed -/

variable {u : HostData} {requireEnabledSet : Bool} {values : ResolverValues}

theorem prepareRow_isEndpoint {dig : Dig} {row : ForwarderRow} {address : Str}
    (h : resolveBackendAddress dig row.toResolverData = .ok address) (hplain : StartsPlain address) :
    (∀ prepared, prepareRow dig row = .ok prepared →
        IsEndpoint (addressForDnsdist prepared) prepared.port)
      ↔ (ipAddress (strip address)).isSome = true := by
  have hprepare : prepareRow dig row = .ok { row with dnsdistAddress := some address } := by
    rw [prepareRow, h, ok_bind]
    rfl
  constructor
  · intro hall
    exact (addressForDnsdist_isEndpoint hplain rfl).mp (hall _ hprepare)
  · intro hip prepared hprepared
    rw [hprepare] at hprepared
    cases hprepared
    exact (addressForDnsdist_isEndpoint hplain rfl).mpr hip

/-- **An accepted resolver can be deployed exactly if it has an address.** -/
theorem deployable_iff {row : ForwarderRow}
    (h : validateResolver u requireEnabledSet values = .ok row.toResolverData) :
    Deployable row ↔ HasAddress row.toResolverData := by
  have haccepted : Accepted row.toResolverData := validateResolver_spec h
  unfold Deployable HasAddress
  by_cases hown : row.protocol = .plain ∨ hostIsIp row.address = true
  · have hresolve (dig : Dig) : resolveBackendAddress dig row.toResolverData = .ok row.address := by
      rw [resolveBackendAddress, if_pos (by simpa using hown)]
    have hplain := haccepted.address.startsPlain
    rw [if_pos hown]
    constructor
    · intro hall
      exact (prepareRow_isEndpoint (hresolve fun _ _ _ => (0, [])) hplain).mp (hall _).2
    · intro hip dig
      refine ⟨?_, (prepareRow_isEndpoint (hresolve dig) hplain).mpr hip⟩
      rw [prepareRow, hresolve, ok_bind]
      exact fun herror => by cases herror
  · rw [if_neg hown]
    have hresolve (dig : Dig) : resolveBackendAddress dig row.toResolverData
        = if bootstrapList row.toResolverData = [] then .error (.noBootstrap row.protocol)
          else askBootstrap dig row.address
            (bootstrapQueries (bootstrapList row.toResolverData)) [] := by
      rw [resolveBackendAddress, if_neg (by simpa using hown)]
    constructor
    · intro hall hnil
      refine (hall fun _ _ _ => (0, [])).1 ?_
      rw [prepareRow, hresolve, if_pos ((bootstrapList_eq_nil_iff haccepted).mpr hnil), error_bind]
    · intro hbootstrap dig
      have hask := hresolve dig
      rw [if_neg (mt (bootstrapList_eq_nil_iff haccepted).mp hbootstrap)] at hask
      rcases askBootstrap_spec dig row.address
        (bootstrapQueries (bootstrapList row.toResolverData)) [] with
        ⟨stdout, ip, hfirst, hok⟩ | ⟨detail, herror⟩
      · obtain ⟨hstrip, hip⟩ := firstAddress_strip hfirst
        have hbackend := hask.trans hok
        refine ⟨?_, (prepareRow_isEndpoint hbackend (startsPlain_str ip)).mpr (hstrip.symm ▸ hip)⟩
        rw [prepareRow, hbackend, ok_bind]
        exact fun herror => by cases herror
      · have hfailed : prepareRow dig row = .error (.failed row.address detail) := by
          rw [prepareRow, hask, herror, error_bind]
        constructor
        · rw [hfailed]
          exact fun herror => by cases herror
        · rw [hfailed]
          exact fun prepared hprepared => by cases hprepared

/-- The tables, for texts that are ASCII. -/
def asciiHostData : HostData where
  lower := fun s => s
  idna := fun s => some s
  checkNetloc := fun _ => true

/-- The form of a resolver that has an address only. -/
def addressForm (protocol address : Str) : ResolverValues where
  protocol := some protocol
  name := none
  enabled := none
  address := some address
  port := .absent
  dohPath := none
  tlsHostname := none
  bootstrapIps := none

/-- A plain resolver. -/
def quadNine : ForwarderRow where
  address := "9.9.9.9".toList
  port := 53
  dohPath := []
  tlsHostname := []
  bootstrapIps := []
  name := "PLAIN".toList
  protocol := .plain
  enabled := true
  id := 1
  position := 1
  dnsdistAddress := none

theorem quadNine_deployable_iff : Deployable quadNine ↔ HasAddress quadNine.toResolverData :=
  @deployable_iff asciiHostData false (addressForm "plain".toList "9.9.9.9".toList) quadNine
    (by decide +kernel)

/-- A DoT resolver that has a name only. -/
def namedDot : ForwarderRow where
  address := "dns.example".toList
  port := 853
  dohPath := []
  tlsHostname := "dns.example".toList
  bootstrapIps := []
  name := "DOT".toList
  protocol := .dot
  enabled := true
  id := 1
  position := 1
  dnsdistAddress := none

/-- It is accepted, and rejected when dnsdist is configured. -/
theorem dot_without_bootstrap :
    validateResolver asciiHostData false (addressForm "dot".toList "dns.example".toList)
        = .ok namedDot.toResolverData ∧ ¬Deployable namedDot := by
  refine ⟨by decide +kernel, fun h => (h fun _ _ _ => (0, [])).1 ?_⟩
  have hnone : resolveBackendAddress (fun _ _ _ => (0, [])) namedDot.toResolverData
      = .error (.noBootstrap .dot) := by decide +kernel
  rw [prepareRow, hnone, error_bind]
  rfl

end AlderpointDNS.Upstream
