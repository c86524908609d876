import AlderpointDNS.Lib.IpSets
import AlderpointDNS.LocalDns.StoredNames

/-!
# What the operations store

The name, the type, the value and the TTL of a record go through the validation before they are
stored, and no operation changes them afterwards but by validating others.

* `IsStored` — what is true of these four in every record of a run;
* `IsStable` — the validation would keep them;
* **`isStored_step`** — a step keeps `IsStored`;
* **`isStable_step_iff`** — a step keeps `IsStable` exactly when it meets `KeepsNames`.
-/

namespace AlderpointDNS.LocalDns

open Text Ipaddress

/-- What the validation is about. -/
structure RecordContent where
  fqdn : Str
  recordType : RecordType
  value : Str
  ttl : ℕ

def DnsRecord.content (r : DnsRecord) : RecordContent := ⟨r.fqdn, r.recordType, r.value, r.ttl⟩

/-- The text of an address of the family, without a scope id. -/
def IsStoredAddress (isV4 : Bool) (value : Str) : Prop :=
  ∃ ip, ipAddress value = some ip ∧ ip.str = value ∧ ip.isV4 = isV4 ∧ (ptrOwner ip).isSome = true

/-- The value of a stored record. -/
def IsStoredValue (type : RecordType) (value : Str) : Prop :=
  match type with
  | .a => IsStoredAddress true value
  | .aaaa => IsStoredAddress false value
  | .ptr | .cname => IsStoredName value

/-- What every stored record satisfies. -/
structure IsStored (c : RecordContent) : Prop where
  name : IsStoredName c.fqdn
  value : IsStoredValue c.recordType c.value
  ttl : 30 ≤ c.ttl ∧ c.ttl ≤ 86400

/-- The names of the record are final. -/
structure IsStable (c : RecordContent) : Prop where
  name : IsFinal c.fqdn
  value : c.recordType.isAddress = false → IsFinal c.value

/-! ## Values -/

section Validation

variable {u : UnicodeData}

theorem validateTtl_eq_some_iff {ttl : Option ℤ} {n : ℕ} :
    validateTtl ttl = some n ↔ ttl = some (n : ℤ) ∧ 30 ≤ n ∧ n ≤ 86400 := by
  cases ttl with
  | none => simp [validateTtl]
  | some t =>
      rw [validateTtl, Option.bind_some, Option.some_inj]
      split_ifs with h
      · simp only [false_iff]
        omega
      · rw [Option.some_inj]
        omega

/-- The text of an address is that of the address that is read from it. -/
theorem ipAddress_str {s : Str} {ip : IpAddress} (h : ipAddress s = some ip) :
    ∃ ip', ipAddress ip.str = some ip' ∧ ip'.str = ip.str ∧ ip'.isV4 = ip.isV4 := by
  rcases ipAddress_str_spec h with ⟨n, hn, hv4, hstr⟩ | ⟨n, scope, hn, hscope, hv6, hstr⟩
  · rw [hstr, hv4]
    exact ⟨.v4 n, ipAddress_v4Str_of_lt hn, rfl, rfl⟩
  · rw [hstr, hv6]
    exact ⟨.v6 n scope, ipAddress_v6Str_of_lt hn hscope, rfl, rfl⟩

/-- The text of an address without a scope id has no white space. -/
theorem strip_address {isV4 : Bool} {value : Str} (h : IsStoredAddress isV4 value) :
    strip value = value := by
  obtain ⟨ip, -, rfl, -, hptr⟩ := h
  refine stripBy_eq_self fun c hc => Bool.eq_false_iff.mpr fun hspace => ?_
  obtain ⟨hv4, hv6, -⟩ := isSpace_spec hspace
  cases ip with
  | v4 n => exact hv4 n hc
  | v6 n scope =>
      cases scope with
      | none => exact hv6 n hc
      | some scope => cases hptr

/-- `record_findings` raises for the addresses that have no reverse name. -/
theorem isSome_recordFindings_iff {d : LocalDnsData} {rows : List DnsRecord} {fqdn : Str}
    {type : RecordType} {value : Str} {id : Option ℕ} {ip : IpAddress}
    (haddress : type.isAddress = true) (hip : ipAddress value = some ip) (hstr : ip.str = value) :
    (recordFindings d rows fqdn type value id).isSome = true ↔ (ptrOwner ip).isSome = true := by
  rw [recordFindings, if_pos haddress, addressFindings, hip, Option.isSome_map, Option.isSome_map,
    hstr, ptrFqdn, hip, Option.bind_some, Option.isSome_map]

/-- What `validate_record` and `record_findings` accept for a value. -/
theorem isStoredValue_of_validateValue {d : LocalDnsData} {rows : List DnsRecord} {fqdn : Str}
    {type : RecordType} {value value' : Str} {id : Option ℕ}
    (hvalue : validateValue d.toUnicodeData type value = some value')
    (hfindings : (recordFindings d rows fqdn type value' id).isSome = true) :
    IsStoredValue type value' := by
  have haddress : ∀ {ip : IpAddress}, type.isAddress = true →
      ipAddress (strip value) = some ip → ip.str = value' → IsStoredAddress ip.isV4 value' := by
    rintro ip htype hip rfl
    obtain ⟨ip', hip', hstr, hv4⟩ := ipAddress_str hip
    exact ⟨ip', hip', hstr, hv4, (isSome_recordFindings_iff htype hip' hstr).mp hfindings⟩
  cases type with
  | a =>
      obtain ⟨ip, hip, hstr⟩ := Option.bind_eq_some_iff.mp hvalue
      split_ifs at hstr with hv4
      have := haddress rfl hip (Option.some.inj hstr)
      rwa [hv4] at this
  | aaaa =>
      obtain ⟨ip, hip, hstr⟩ := Option.bind_eq_some_iff.mp hvalue
      split_ifs at hstr with hv4
      have := haddress rfl hip (Option.some.inj hstr)
      rwa [Bool.eq_false_of_not_eq_true hv4] at this
  | ptr | cname =>
      obtain ⟨name, -, rfl⟩ := Option.map_eq_some_iff.mp hvalue
      exact ⟨name, .inl rfl⟩

/-- **The validation keeps a stored value that is an address or a final name.** -/
theorem validateValue_stored {type : RecordType} {value : Str} (h : IsStoredValue type value)
    (hfinal : type.isAddress = false → IsFinal value) :
    validateValue u type value = some value := by
  cases type with
  | a =>
      have hstrip := strip_address h
      obtain ⟨ip, hip, hstr, hv4, -⟩ := h
      rw [validateValue, hstrip, hip, Option.bind_some, if_pos hv4, hstr]
  | aaaa =>
      have hstrip := strip_address h
      obtain ⟨ip, hip, hstr, hv4, -⟩ := h
      rw [validateValue, hstrip, hip, Option.bind_some, if_neg (by simp [hv4]), hstr]
  | ptr | cname => exact (normalizeDomain_eq_self_iff h).mpr (hfinal rfl)

/-- The value of a PTR or a CNAME is a normalized name. -/
theorem validateValue_eq_some_iff {type : RecordType} {value value' : Str}
    (htype : type.isAddress = false) :
    validateValue u type value = some value' ↔
      ∃ name, LocalDns.normalizeDomain u value = some name ∧ name.1 = value' := by
  cases type with
  | a | aaaa => cases htype
  | ptr | cname => exact Option.map_eq_some_iff

/-- The contents that `validate_record` makes. -/
theorem isStored_of_checked {d : LocalDnsData} {rows : List DnsRecord} {name : Domain}
    {type : RecordType} {value value' : Str} {ttl : Option ℤ} {ttl' : ℕ} {id : Option ℕ}
    {override : Bool} (hvalue : validateValue d.toUnicodeData type value = some value')
    (hchecked : RowChecked d rows name.1 type value' ttl ttl' id override) :
    IsStored ⟨name.1, type, value', ttl'⟩ :=
  ⟨⟨name, .inl rfl⟩, isStoredValue_of_validateValue hvalue hchecked.findings,
    (validateTtl_eq_some_iff.mp hchecked.ttl).2⟩

end Validation

/-! ## Steps -/

/-- A normalized name does not end in a newline. -/
def KeepsName (u : UnicodeData) (value : Str) : Prop :=
  ∀ name, LocalDns.normalizeDomain u value = some name → '\n' ∉ name.1

/-- The names that `add_record` and `update_record` store. -/
def KeepsRecord (u : UnicodeData) (type : RecordType) (fqdn value : Str) : Prop :=
  KeepsName u fqdn ∧ (type.isAddress = false → KeepsName u value)

/-- The names that an operation stores do not end in a newline, and the name of a host, of which
only the parts were validated, has at most 253 characters. -/
def KeepsNames (u : UnicodeData) (internalDomain : Str) (rows : RecordRows) : LocalDnsAction → Prop
  | .addHost hostname domain _ _ _ _ _ =>
      ∀ label localDomain, validateLabel u hostname = some label →
        LocalDns.normalizeDomain u (if domain = [] then internalDomain else domain)
          = some localDomain →
        '\n' ∉ label.1 ∧ '\n' ∉ localDomain.1 ∧ (label.1 ++ '.' :: localDomain.1).length ≤ 253
  | .addRecord type fqdn value _ _ _ _ => KeepsRecord u type fqdn value
  | .updateRecord id type fqdn value _ _ _ _ =>
      (∃ r ∈ rows.1, r.id = id) → KeepsRecord u type fqdn value
  | .toggleRecord _ | .deleteRecord _ => True

section Steps

variable {d : LocalDnsData} {internalDomain : Str} {rows rows' : RecordRows}

theorem isStable_iff_keepsRecord {type : RecordType} {fqdn value value' : Str} {name : Domain}
    {ttl : ℕ} (hname : LocalDns.normalizeDomain d.toUnicodeData fqdn = some name)
    (hvalue : validateValue d.toUnicodeData type value = some value') :
    IsStable ⟨name.1, type, value', ttl⟩ ↔ KeepsRecord d.toUnicodeData type fqdn value := by
  have hname' : KeepsName d.toUnicodeData fqdn ↔ IsFinal name.1 := by
    simp only [KeepsName, hname, Option.some.injEq, forall_eq', isFinal_domain_iff]
  have hvalue' : type.isAddress = false →
      (KeepsName d.toUnicodeData value ↔ IsFinal value') := by
    intro htype
    obtain ⟨target, htarget, rfl⟩ := (validateValue_eq_some_iff htype).mp hvalue
    simp only [KeepsName, htarget, Option.some.injEq, forall_eq', isFinal_domain_iff]
  constructor
  · intro h
    exact ⟨hname'.mpr h.name, fun htype => (hvalue' htype).mpr (h.value htype)⟩
  · rintro ⟨hfqdn, htarget⟩
    exact ⟨hname'.mp hfqdn, fun htype => (hvalue' htype).mp (htarget htype)⟩

/-- The contents of the rows. -/
def contents (rows : RecordRows) : List RecordContent := rows.1.map DnsRecord.content

/-- A step keeps some of the contents and writes others. -/
structure WritesContents (rows rows' : RecordRows) (written : List RecordContent) : Prop where
  kept : ∀ c ∈ contents rows', c ∈ contents rows ∨ c ∈ written
  written : ∀ c ∈ written, c ∈ contents rows'

theorem writesContents_concat {row : DnsRecord} (h : rows'.1 = rows.1 ++ [row]) :
    WritesContents rows rows' [row.content] := by
  constructor
  · intro c hc
    simpa [contents, h] using hc
  · intro c hc
    simp [contents, h, List.mem_singleton.mp hc]

/-! ### `add_host` -/

theorem isStoredName_of_isFinal {s : Str} (h : IsFinal s) : IsStoredName s :=
  ⟨⟨s, matchesDomainRe_of_isFinal h⟩, .inl rfl⟩

/-- The type of a host is that of its address. -/
theorem validateValue_host {u : UnicodeData} {address : Str} {ip : IpAddress}
    (h : ipAddress (strip address) = some ip) :
    validateValue u (if ip.isV4 then .a else .aaaa) address = some ip.str := by
  by_cases hv4 : ip.isV4 = true
  · rw [if_pos hv4, validateValue, h, Option.bind_some, if_pos hv4]
  · rw [if_neg hv4, validateValue, h, Option.bind_some, if_neg hv4]

theorem isAddress_host (ip : IpAddress) :
    (if ip.isV4 then RecordType.a else .aaaa).isAddress = true := by
  split_ifs <;> rfl

section Host

variable {hostname domain address : Str} {label : Label} {localDomain : Domain} {ip : IpAddress}
  {ttl : Option ℤ} {ttl' id : ℕ} {comment : Str} {autoPtr override : Bool} {owner zone : Str}

theorem isStored_newHost
    (hread : HostRead d.toUnicodeData internalDomain hostname domain address label localDomain ip)
    (hchecked : RowChecked d rows.1 (label.1 ++ '.' :: localDomain.1)
      (if ip.isV4 then .a else .aaaa) ip.str ttl ttl' none override) :
    IsStored (newHost id label localDomain ip ttl' comment autoPtr).content :=
  ⟨⟨localDomain, .inr ⟨label, rfl⟩⟩,
    isStoredValue_of_validateValue (validateValue_host hread.address) hchecked.findings,
    (validateTtl_eq_some_iff.mp hchecked.ttl).2⟩

theorem isStored_hostPtr {value : Str} (hvalue : IsStoredName value)
    (hp : (ipAddress address).bind ptrOwner = some (owner, zone))
    (httl : 30 ≤ ttl' ∧ ttl' ≤ 86400) :
    IsStored (hostPtr id owner zone value ttl' (isName_ptrOwner_bind hp)).content := by
  obtain ⟨ip, -, hptr⟩ := Option.bind_eq_some_iff.mp hp
  exact ⟨isStoredName_of_isFinal (isFinal_ptrOwner hptr), hvalue, httl⟩

/-- The PTR of a host is stable when the host is. -/
theorem isStable_host_iff (hread :
      HostRead d.toUnicodeData internalDomain hostname domain address label localDomain ip) :
    IsStable (newHost id label localDomain ip ttl' comment autoPtr).content ↔
      KeepsNames d.toUnicodeData internalDomain rows
        (.addHost hostname domain address ttl comment autoPtr override) := by
  have hfinal : IsStable (newHost id label localDomain ip ttl' comment autoPtr).content ↔
      IsFinal (label.1 ++ '.' :: localDomain.1) := by
    refine ⟨fun h => h.name, fun h => ⟨h, fun htype => ?_⟩⟩
    rw [DnsRecord.content, newHost, isAddress_host] at htype
    cases htype
  rw [hfinal, isFinal_host_iff, KeepsNames]
  simp only [hread.label, hread.domain, Option.some.injEq]
  constructor
  · rintro h _ _ rfl rfl
    exact h
  · intro h
    exact h label localDomain rfl rfl

theorem isStable_hostPtr {value : Str} (hvalue : IsFinal value)
    (hp : (ipAddress address).bind ptrOwner = some (owner, zone)) :
    IsStable (hostPtr id owner zone value ttl' (isName_ptrOwner_bind hp)).content := by
  obtain ⟨ip, -, hptr⟩ := Option.bind_eq_some_iff.mp hp
  exact ⟨isFinal_ptrOwner hptr, fun _ => hvalue⟩

end Host

/-! ### All operations -/

/-- What a step writes was validated, and it is stable exactly under `KeepsNames`. -/
def StepWrites (u : UnicodeData) (internalDomain : Str) (rows rows' : RecordRows)
    (a : LocalDnsAction) : Prop :=
  ∃ written, WritesContents rows rows' written ∧ (∀ c ∈ written, IsStored c) ∧
    ((∀ c ∈ written, IsStable c) ↔ KeepsNames u internalDomain rows a)

/-- A step that writes nothing. -/
theorem stepWrites_nil {a : LocalDnsAction} (hkept : ∀ c ∈ contents rows', c ∈ contents rows)
    (ha : KeepsNames d.toUnicodeData internalDomain rows a) :
    StepWrites d.toUnicodeData internalDomain rows rows' a :=
  ⟨[], ⟨fun c hc => .inl (hkept c hc), List.forall_mem_nil _⟩, List.forall_mem_nil _,
    iff_of_true (List.forall_mem_nil _) ha⟩

/-- A step that writes one record. -/
theorem stepWrites_singleton {a : LocalDnsAction} {c : RecordContent}
    (hwrites : WritesContents rows rows' [c]) (hstored : IsStored c)
    (hiff : IsStable c ↔ KeepsNames d.toUnicodeData internalDomain rows a) :
    StepWrites d.toUnicodeData internalDomain rows rows' a := by
  refine ⟨[c], hwrites, ?_, ?_⟩
  · rwa [List.forall_mem_singleton]
  · rwa [List.forall_mem_singleton]

/-- A host, and its PTR if that was asked for. -/
theorem stepWrites_addHost {hostname domain address comment : Str} {ttl : Option ℤ}
    {autoPtr override : Bool}
    (h : localStep d internalDomain rows
      (.addHost hostname domain address ttl comment autoPtr override) = some rows') :
    StepWrites d.toUnicodeData internalDomain rows rows'
      (.addHost hostname domain address ttl comment autoPtr override) := by
  obtain ⟨⟨ms, t⟩, hop, rfl⟩ := Option.map_eq_some_iff.mp h
  obtain ⟨label, localDomain, ip, ttl', ⟨hread, hchecked⟩, hrows⟩ := addHost_spec hop
  obtain ⟨host, hhost⟩ : ∃ host,
    host = newHost (nextId rows.1) label localDomain ip ttl' comment autoPtr := ⟨_, rfl⟩
  have hstored : IsStored host.content := hhost ▸ isStored_newHost hread hchecked
  have hiff : IsStable host.content ↔ KeepsNames d.toUnicodeData internalDomain rows
    (.addHost hostname domain address ttl comment autoPtr override) :=
      hhost ▸ isStable_host_iff hread
  rw [← hhost] at hrows
  cases autoPtr with
  | false => exact stepWrites_singleton (writesContents_concat hrows) hstored hiff
  | true =>
      obtain ⟨owner, zone, hp, -, hrows⟩ := hrows
      obtain ⟨ptr, hptr⟩ : ∃ ptr, ptr = hostPtr (nextId rows.1 + 1) owner zone host.fqdn
        host.ttl (isName_ptrOwner_bind hp) := ⟨_, rfl⟩
      rw [← hptr] at hrows
      refine ⟨[host.content, ptr.content], ⟨?_, ?_⟩, ?_, ?_⟩
      · intro c hc
        simp only [contents, hrows, List.map_append, List.mem_append] at hc
        refine hc.imp_left fun hc => ?_
        obtain ⟨r, hr, rfl⟩ := List.mem_map.mp hc
        exact List.mem_map_of_mem (List.mem_of_mem_filter hr)
      · intro c hc
        simp only [contents, hrows, List.map_append, List.mem_append]
        exact .inr hc
      · rw [List.forall_mem_cons, List.forall_mem_singleton, hptr]
        exact ⟨hstored, isStored_hostPtr hstored.name hp hstored.ttl⟩
      · rw [List.forall_mem_cons, List.forall_mem_singleton, ← hiff, hptr]
        exact ⟨And.left, fun hhost => ⟨hhost, isStable_hostPtr hhost.name hp⟩⟩

/-- The record with the id, if there is one. -/
theorem stepWrites_updateRecord {id : ℕ} {type : RecordType} {fqdn value comment : Str}
    {ttl : Option ℤ} {enabled override : Bool}
    (h : localStep d internalDomain rows
      (.updateRecord id type fqdn value ttl comment enabled override) = some rows') :
    StepWrites d.toUnicodeData internalDomain rows rows'
      (.updateRecord id type fqdn value ttl comment enabled override) := by
  obtain ⟨⟨ms, t⟩, hop, rfl⟩ := Option.map_eq_some_iff.mp h
  obtain ⟨name, value', ttl', hname, hvalue, hchecked, hrows⟩ := updateRecord_spec hop
  by_cases hid : ∃ r ∈ rows.1, r.id = id
  · refine stepWrites_singleton (c := ⟨name.1, type, value', ttl'⟩) ⟨?_, ?_⟩
      (isStored_of_checked hvalue hchecked) ?_
    · intro c hc
      simp only [contents, hrows, List.mem_map] at hc
      obtain ⟨_, ⟨r, hr, rfl⟩, rfl⟩ := hc
      split_ifs
      · exact .inr (List.mem_singleton_self _)
      · exact .inl (List.mem_map_of_mem hr)
    · obtain ⟨r, hr, rfl⟩ := hid
      rw [List.forall_mem_singleton, contents, hrows, List.map_map]
      refine List.mem_map.mpr ⟨r, hr, ?_⟩
      rw [Function.comp_apply, if_pos rfl]
      rfl
    · rw [KeepsNames, imp_iff_right hid]
      exact isStable_iff_keepsRecord hname hvalue
  · have hsame : t.1 = rows.1 := by
      refine hrows.trans ((List.map_congr_left fun r hr => ?_).trans (List.map_id _))
      exact if_neg fun heq => hid ⟨r, hr, heq⟩
    refine stepWrites_nil (fun c hc => ?_) fun h => absurd h hid
    rwa [contents, hsame] at hc

/-- **What a step writes.** -/
theorem localStep_writesContents {a : LocalDnsAction}
    (h : localStep d internalDomain rows a = some rows') :
    StepWrites d.toUnicodeData internalDomain rows rows' a := by
  cases a with
  | addHost => exact stepWrites_addHost h
  | addRecord type fqdn value ttl comment enabled override =>
      obtain ⟨⟨ms, t⟩, hop, rfl⟩ := Option.map_eq_some_iff.mp h
      obtain ⟨name, value', ttl', hname, hvalue, hchecked, hrows⟩ := addRecord_spec hop
      exact stepWrites_singleton (writesContents_concat hrows)
        (isStored_of_checked hvalue hchecked) (isStable_iff_keepsRecord hname hvalue)
  | updateRecord => exact stepWrites_updateRecord h
  | toggleRecord id =>
      cases h
      refine stepWrites_nil (fun c hc => ?_) trivial
      obtain ⟨_, hrow, rfl⟩ := List.mem_map.mp hc
      obtain ⟨r, hr, rfl⟩ := List.mem_map.mp hrow
      refine List.mem_map.mpr ⟨r, hr, ?_⟩
      split_ifs
      · rfl
      · rfl
  | deleteRecord id =>
      cases h
      refine stepWrites_nil (fun c hc => ?_) trivial
      obtain ⟨r, hr, rfl⟩ := List.mem_map.mp hc
      exact List.mem_map_of_mem (mem_deleteRecord.mp hr).1

/-- **A step keeps what was validated.** -/
theorem isStored_step {a : LocalDnsAction} (hrows : ∀ c ∈ contents rows, IsStored c)
    (h : localStep d internalDomain rows a = some rows') : ∀ c ∈ contents rows', IsStored c := by
  obtain ⟨written, hwrites, hstored, -⟩ := localStep_writesContents h
  exact fun c hc => (hwrites.kept c hc).elim (hrows c) (hstored c)

/-- **A step keeps final names exactly under `KeepsNames`.** -/
theorem isStable_step_iff {a : LocalDnsAction} (hrows : ∀ c ∈ contents rows, IsStable c)
    (h : localStep d internalDomain rows a = some rows') :
    (∀ c ∈ contents rows', IsStable c) ↔ KeepsNames d.toUnicodeData internalDomain rows a := by
  obtain ⟨written, hwrites, -, hiff⟩ := localStep_writesContents h
  rw [← hiff]
  constructor
  · exact fun hstable c hc => hstable c (hwrites.written c hc)
  · exact fun hstable c hc => (hwrites.kept c hc).elim (hrows c) (hstable c)

end Steps

end AlderpointDNS.LocalDns
