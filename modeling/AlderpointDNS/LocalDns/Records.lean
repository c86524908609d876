import AlderpointDNS.LocalDns.Names
import AlderpointDNS.Lib.Dict
import AlderpointDNS.Lib.Runs
import AlderpointDNS.Lib.Tables
import Mathlib.Data.Char
import Mathlib.Data.List.Lex

/-!
# Local DNS records

The table `local_dns_records` and the operations of `local_dns.py` on it.  A row is a
`DnsRecord`, whose name has a dot, and the table carries `UNIQUE(fqdn, record_type, value)` and
the order of the row ids.  An operation is `none` when it raises, and the table is then as it was.

* `addHost`, `addRecord`, `updateRecord`, `toggleRecord`, `deleteRecord` — the operations;
* `addHost_spec`, `addRecord_spec`, `updateRecord_spec`, `mem_deleteRecord` — what they do to the
  table;
* `localRun` — operations one after another.

Not modelled: timestamps.
-/

namespace AlderpointDNS

open Text Ipaddress

/-- `record_type`. -/
inductive RecordType where
  | a
  | aaaa
  | ptr
  | cname
  deriving DecidableEq

/-- `record_type IN ('A','AAAA')`. -/
def RecordType.isAddress : RecordType → Bool
  | .a | .aaaa => true
  | .ptr | .cname => false

namespace LocalDns

/-! ## The table -/

/-- A row of `local_dns_records`. -/
structure DnsRecord where
  id : ℕ
  name : Str
  fqdn : Str
  recordType : RecordType
  value : Str
  ttl : ℕ
  comment : Str
  enabled : Bool
  autoPtr : Bool
  ptrRecordId : Option ℕ
  named : isName fqdn = true
  deriving DecidableEq

/-- `UNIQUE(fqdn, record_type, value)`. -/
def DnsRecord.sameKey (r s : DnsRecord) : Bool :=
  r.fqdn = s.fqdn && r.recordType = s.recordType && r.value = s.value

/-- Rows come in the order of their ids. -/
def recordConflict (r s : DnsRecord) : Bool := !(r.id < s.id) || r.sameKey s

abbrev RecordRows := LegalRows recordConflict

/-- The rowid of the next insertion. -/
def nextId (rows : List DnsRecord) : ℕ := nextRowid (rows.map (·.id))

/-! ## `record_findings` -/

inductive Severity where
  | conflict
  | warning
  deriving DecidableEq

/-- An entry of what `record_findings` returns. -/
structure Finding where
  severity : Severity
  message : Str

/-- What the module takes from Python's tables. -/
structure LocalDnsData extends UnicodeData where
  /-- `ip_address(...).is_private`. -/
  isPrivate : IpAddress → Bool

/-- Tables for text that is ASCII and addresses that are private. -/
def asciiLocalData : LocalDnsData := { lower := id, idna := some, isPrivate := fun _ => true }

/-- A finding when the condition holds. -/
def findingIf (condition : Bool) (severity : Severity) (message : Str) : List Finding :=
  if condition then [⟨severity, message⟩] else []

/-- The rows of a name, the given row apart. -/
def rowsAt (rows : List DnsRecord) (fqdn : Str) (recordId : Option ℕ) : List DnsRecord :=
  rows.filter fun r => r.fqdn = fqdn && recordId ≠ some r.id

/-- The findings about the reverse name of an address. -/
def addressFindings (d : LocalDnsData) (rows : List DnsRecord) (fqdn value : Str) :
    Option (List Finding) :=
  match ipAddress value with
  | none => some []
  | some ip => (ptrFqdn ip.str).map fun reverse =>
      -- the index of the uniqueness constraint gives the values in order
      findingIf ((sortBy (·.value)
          (rows.filter fun r => r.fqdn = reverse && r.recordType = .ptr && r.enabled)).head?.any
          fun ptr => ptr.value.rdropWhile (· = '.') ≠ fqdn)
        .conflict "This IP already has a different PTR record.".toList
      ++ findingIf (!(ipAddress ip.str).any d.isPrivate) .warning
        "Public IP address outside common private networks. Imported as requested.".toList

/-- `record_findings`. -/
def recordFindings (d : LocalDnsData) (rows : List DnsRecord) (fqdn : Str) (type : RecordType)
    (value : Str) (recordId : Option ℕ) : Option (List Finding) :=
  let others := rowsAt rows fqdn recordId
  let exists? := findingIf (others.any (·.enabled)) .conflict "A hostname already exists.".toList
  let cname :=
    if type = .cname then findingIf (others.any (·.recordType ≠ .cname)) .conflict
      "A CNAME conflicts with another record.".toList
    else findingIf (others.any (·.recordType = .cname)) .conflict
      "This hostname already has a CNAME record.".toList
  let address := if type.isAddress then addressFindings d rows fqdn value else some []
  let ptr := if type = .ptr then
      findingIf (!rows.any fun r => r.fqdn = value.rdropWhile (· = '.') && r.recordType.isAddress)
        .conflict "The PTR target lacks a corresponding A or AAAA record.".toList
    else []
  address.map fun address => exists? ++ cname ++ address ++ ptr

/-- `if conflicts and not override: raise`; otherwise all messages. -/
def accept (findings : List Finding) (override : Bool) : Option (List Str) :=
  if (findings.any (·.severity = .conflict)) && !override then none
  else some (findings.map (·.message))

/-! ## The operations -/

/-- `name.split(".", 1)[0]`. -/
def firstLabel (fqdn : Str) : Str := fqdn.takeWhile (· ≠ '.')

/-- The value part of `validate_record`. -/
def validateValue (u : UnicodeData) (type : RecordType) (value : Str) : Option Str :=
  match type with
  | .a => (ipAddress (strip value)).bind fun ip => if ip.isV4 then some ip.str else none
  | .aaaa => (ipAddress (strip value)).bind fun ip => if ip.isV4 then none else some ip.str
  | .ptr | .cname => (normalizeDomain u value).map (·.1)

section Operations

variable (d : LocalDnsData)

/-- The PTR row that `add_host` writes. -/
def hostPtr (id : ℕ) (owner zone fqdn : Str) (ttl : ℕ) (h : isName (owner ++ '.' :: zone) = true) :
    DnsRecord :=
  { id := id, name := owner, fqdn := owner ++ '.' :: zone, recordType := .ptr, value := fqdn
    ttl := ttl, comment := "reverse for ".toList ++ fqdn, enabled := true, autoPtr := false
    ptrRecordId := none, named := h }

/-- `UPDATE local_dns_records SET ptr_record_id=?`. -/
def setPtr (hostId ptrId : ℕ) (r : DnsRecord) : DnsRecord :=
  if r.id = hostId then { r with ptrRecordId := some ptrId } else r

/-- The insertion of the PTR of a new host, and the link to it. -/
def addHostPtr (hostId : ℕ) (fqdn address : Str) (ttl : ℕ) (override : Bool) (rows : RecordRows) :
    Option RecordRows :=
  match h : (ipAddress address).bind ptrOwner with
  | none => none
  | some (owner, zone) => do
      let findings ← recordFindings d rows.1 (owner ++ '.' :: zone) .ptr fqdn none
      let _ ← accept findings override
      let ptr := hostPtr (nextId rows.1) owner zone fqdn ttl (isName_ptrOwner_bind h)
      -- `INSERT OR REPLACE`
      let rows : RecordRows ← LegalRows.check ((rows.1.filter fun r => !r.sameKey ptr) ++ [ptr])
      LegalRows.check (rows.1.map (setPtr hostId ptr.id))

/-- The row of `add_host`. -/
def newHost (id : ℕ) (label : Label) (localDomain : Domain) (ip : IpAddress) (ttl : ℕ)
    (comment : Str) (autoPtr : Bool) : DnsRecord :=
  { id := id, name := label.1, fqdn := label.1 ++ '.' :: localDomain.1
    recordType := if ip.isV4 then .a else .aaaa, value := ip.str, ttl := ttl, comment := comment
    enabled := true, autoPtr := autoPtr, ptrRecordId := none
    named := isName_host label localDomain }

/-- `add_host`. -/
def addHost (internalDomain hostname domain address : Str) (ttl : Option ℤ) (comment : Str)
    (autoPtr override : Bool) (rows : RecordRows) : Option (List Str × RecordRows) := do
  let localDomain ← normalizeDomain d.toUnicodeData (if domain = [] then internalDomain else domain)
  let label ← validateLabel d.toUnicodeData hostname
  let ip ← ipAddress (strip address)
  let ttl ← validateTtl ttl
  let host := newHost (nextId rows.1) label localDomain ip ttl comment autoPtr
  let findings ← recordFindings d rows.1 host.fqdn host.recordType host.value none
  let messages ← accept findings override
  let inserted : RecordRows ← LegalRows.check (rows.1 ++ [host])
  let rows ← (if autoPtr then addHostPtr d host.id host.fqdn host.value ttl override inserted
    else some inserted)
  return (messages, rows)

/-- The row of `add_record`. -/
def newRecord (id : ℕ) (type : RecordType) (name : Domain) (value : Str) (ttl : ℕ) (comment : Str)
    (enabled : Bool) : DnsRecord :=
  { id := id, name := firstLabel name.1, fqdn := name.1, recordType := type, value := value
    ttl := ttl, comment := comment, enabled := enabled, autoPtr := false, ptrRecordId := none
    named := isName_domain name }

/-- `add_record`. -/
def addRecord (type : RecordType) (fqdn value : Str) (ttl : Option ℤ) (comment : Str)
    (enabled override : Bool) (rows : RecordRows) : Option (List Str × RecordRows) := do
  let name ← normalizeDomain d.toUnicodeData fqdn
  let ttl ← validateTtl ttl
  let value ← validateValue d.toUnicodeData type value
  let findings ← recordFindings d rows.1 name.1 type value none
  let messages ← accept findings override
  let rows : RecordRows ← LegalRows.check
    (rows.1 ++ [newRecord (nextId rows.1) type name value ttl comment enabled])
  return (messages, rows)

/-- What `update_record` makes of a row. -/
def DnsRecord.edit (r : DnsRecord) (name : Domain) (type : RecordType) (value : Str) (ttl : ℕ)
    (comment : Str) (enabled : Bool) : DnsRecord :=
  { r with
    name := firstLabel name.1, fqdn := name.1, recordType := type, value := value, ttl := ttl
    comment := comment, enabled := enabled, named := isName_domain name }

/-- `update_record`. -/
def updateRecord (id : ℕ) (type : RecordType) (fqdn value : Str) (ttl : Option ℤ) (comment : Str)
    (enabled override : Bool) (rows : RecordRows) : Option (List Str × RecordRows) := do
  let name ← normalizeDomain d.toUnicodeData fqdn
  let ttl ← validateTtl ttl
  let value ← validateValue d.toUnicodeData type value
  let findings ← recordFindings d rows.1 name.1 type value (some id)
  let messages ← accept findings override
  let rows : RecordRows ← LegalRows.check (rows.1.map fun r =>
    if r.id = id then r.edit name type value ttl comment enabled else r)
  return (messages, rows)

end Operations

/-- `toggle_record`. -/
def toggleRecord (id : ℕ) (rows : RecordRows) : RecordRows :=
  rows.map (fun r => if r.id = id then { r with enabled := !r.enabled } else r) fun r s => by
    simp only [recordConflict, DnsRecord.sameKey]
    split_ifs <;> rfl

/-- `delete_record`. -/
def deleteRecord (id : ℕ) (rows : RecordRows) : RecordRows :=
  let row := rows.1.find? (·.id = id)
  let rows := rows.filter (·.id ≠ id)
  match (row.bind (·.ptrRecordId)).filter (· ≠ 0) with
  | some ptrId => rows.filter (·.id ≠ ptrId)
  | none => rows

/-! ## What the operations do -/

/-- No other row of the name is enabled, and none is on the other side of the CNAME rule. -/
def Clear (rows : List DnsRecord) (fqdn : Str) (type : RecordType) (recordId : Option ℕ) : Prop :=
  ∀ r ∈ rows, r.fqdn = fqdn → recordId ≠ some r.id →
    r.enabled = false ∧ (r.recordType = .cname ↔ type = .cname)

/-- What is checked of a row before it is written. -/
structure RowChecked (d : LocalDnsData) (rows : List DnsRecord) (fqdn : Str) (type : RecordType)
    (value : Str) (ttl : Option ℤ) (ttl' : ℕ) (recordId : Option ℕ) (override : Bool) : Prop where
  ttl : validateTtl ttl = some ttl'
  findings : (recordFindings d rows fqdn type value recordId).isSome = true
  clear : override = false → Clear rows fqdn type recordId

/-- What is read from the arguments of `add_host`. -/
structure HostRead (u : UnicodeData) (internalDomain hostname domain address : Str) (label : Label)
    (localDomain : Domain) (ip : IpAddress) : Prop where
  domain : normalizeDomain u (if domain = [] then internalDomain else domain) = some localDomain
  label : validateLabel u hostname = some label
  address : ipAddress (strip address) = some ip

theorem mem_findingIf {condition : Bool} {severity : Severity} {message : Str}
    (h : condition = true) : ⟨severity, message⟩ ∈ findingIf condition severity message := by
  rw [findingIf, if_pos h]
  exact List.mem_singleton_self _

theorem clear_of_accept {d : LocalDnsData} {rows : List DnsRecord} {fqdn value : Str}
    {type : RecordType} {recordId : Option ℕ} {findings : List Finding} {messages : List Str}
    (hfindings : recordFindings d rows fqdn type value recordId = some findings)
    (haccept : accept findings false = some messages) : Clear rows fqdn type recordId := by
  have hnone : ∀ f ∈ findings, f.severity ≠ .conflict := by
    unfold accept at haccept
    split_ifs at haccept with h
    simpa using h
  obtain ⟨address, -, rfl⟩ := Option.map_eq_some_iff.mp hfindings
  simp only [List.forall_mem_append] at hnone
  obtain ⟨⟨⟨hexists, hcname⟩, -⟩, -⟩ := hnone
  intro r hr hname hid
  have hmem : r ∈ rowsAt rows fqdn recordId := by
    simp only [rowsAt, List.mem_filter, Bool.and_eq_true, decide_eq_true_eq]
    exact ⟨hr, hname, hid⟩
  constructor
  · by_contra henabled
    have hany : (rowsAt rows fqdn recordId).any (·.enabled) = true :=
      List.any_eq_true.mpr ⟨r, hmem, Bool.eq_true_of_not_eq_false henabled⟩
    exact hexists _ (mem_findingIf hany) rfl
  · by_cases htype : type = .cname
    · rw [if_pos htype] at hcname
      refine ⟨fun _ => htype, fun _ => by_contra fun hr' => ?_⟩
      have hany : (rowsAt rows fqdn recordId).any (·.recordType ≠ .cname) = true :=
        List.any_eq_true.mpr ⟨r, hmem, decide_eq_true hr'⟩
      exact hcname _ (mem_findingIf hany) rfl
    · rw [if_neg htype] at hcname
      refine ⟨fun hr' => absurd rfl (hcname _ (mem_findingIf ?_)), fun h => absurd h htype⟩
      exact List.any_eq_true.mpr ⟨r, hmem, decide_eq_true hr'⟩

section Spec

variable {d : LocalDnsData} {rows rows' : RecordRows} {messages : List Str}

theorem rowChecked_of_accept {fqdn value : Str} {type : RecordType} {ttl : Option ℤ} {ttl' : ℕ}
    {recordId : Option ℕ} {override : Bool} {findings : List Finding} {messages : List Str}
    (httl : validateTtl ttl = some ttl')
    (hfindings : recordFindings d rows.1 fqdn type value recordId = some findings)
    (haccept : accept findings override = some messages) :
    RowChecked d rows.1 fqdn type value ttl ttl' recordId override := by
  refine ⟨httl, by rw [hfindings, Option.isSome_some], ?_⟩
  rintro rfl
  exact clear_of_accept hfindings haccept

theorem addRecord_spec {type : RecordType} {fqdn value : Str} {ttl : Option ℤ} {comment : Str}
    {enabled override : Bool}
    (h : addRecord d type fqdn value ttl comment enabled override rows = some (messages, rows')) :
    ∃ name value' ttl', normalizeDomain d.toUnicodeData fqdn = some name
      ∧ validateValue d.toUnicodeData type value = some value'
      ∧ RowChecked d rows.1 name.1 type value' ttl ttl' none override
      ∧ rows'.1 = rows.1 ++ [newRecord (nextId rows.1) type name value' ttl' comment enabled] := by
  simp only [addRecord, Option.bind_eq_bind, Option.bind_eq_some_iff, Option.pure_def,
    Option.some.injEq, Prod.mk.injEq] at h
  obtain ⟨name, hname, ttl', httl, value', hvalue, findings, hfindings, ms, haccept, t, ht, -, rfl⟩ :=
    h
  exact ⟨name, value', ttl', hname, hvalue, rowChecked_of_accept httl hfindings haccept,
    LegalRows.check_eq_some ht⟩

theorem updateRecord_spec {id : ℕ} {type : RecordType} {fqdn value : Str} {ttl : Option ℤ}
    {comment : Str} {enabled override : Bool}
    (h : updateRecord d id type fqdn value ttl comment enabled override rows
      = some (messages, rows')) :
    ∃ name value' ttl', normalizeDomain d.toUnicodeData fqdn = some name
      ∧ validateValue d.toUnicodeData type value = some value'
      ∧ RowChecked d rows.1 name.1 type value' ttl ttl' (some id) override
      ∧ rows'.1 = rows.1.map fun r =>
          if r.id = id then r.edit name type value' ttl' comment enabled else r := by
  simp only [updateRecord, Option.bind_eq_bind, Option.bind_eq_some_iff, Option.pure_def,
    Option.some.injEq, Prod.mk.injEq] at h
  obtain ⟨name, hname, ttl', httl, value', hvalue, findings, hfindings, ms, haccept, t, ht, -, rfl⟩ :=
    h
  exact ⟨name, value', ttl', hname, hvalue, rowChecked_of_accept httl hfindings haccept,
    LegalRows.check_eq_some ht⟩

theorem nextId_concat (rows : List DnsRecord) {r : DnsRecord} (hr : r.id = nextId rows) :
    nextId (rows ++ [r]) = nextId rows + 1 := by
  simp only [nextId, nextRowid, List.map_append, List.map_cons, List.map_nil, List.foldl_append,
    List.foldl_cons, List.foldl_nil] at hr ⊢
  omega

theorem id_lt_nextId {rows : List DnsRecord} {r : DnsRecord} (hr : r ∈ rows) :
    r.id < nextId rows :=
  lt_nextRowid (List.mem_map_of_mem hr)

/-- The PTR of a new host is written behind it, and rows of its key are replaced. -/
theorem addHostPtr_spec {host : DnsRecord} {override : Bool} (hid : host.id = nextId rows.1)
    (htype : host.recordType ≠ .ptr) {inserted : RecordRows} (hins : inserted.1 = rows.1 ++ [host])
    (h : addHostPtr d host.id host.fqdn host.value host.ttl override inserted = some rows') :
    ∃ owner zone, ∃ hp : (ipAddress host.value).bind ptrOwner = some (owner, zone),
      let ptr := hostPtr (nextId rows.1 + 1) owner zone host.fqdn host.ttl (isName_ptrOwner_bind hp)
      (override = false → Clear (rows.1 ++ [host]) ptr.fqdn .ptr none)
        ∧ rows'.1 = (rows.1.filter fun r => !r.sameKey ptr)
            ++ [{ host with ptrRecordId := some ptr.id }, ptr] := by
  unfold addHostPtr at h
  split at h
  · cases h
  · rename_i owner zone hp
    simp only [Option.bind_eq_bind, Option.bind_eq_some_iff, hins,
      nextId_concat rows.1 hid] at h
    obtain ⟨findings, hfindings, ms, haccept, t, ht, hlink⟩ := h
    refine ⟨owner, zone, hp, ?_, ?_⟩
    · rintro rfl
      exact clear_of_accept hfindings haccept
    · rw [LegalRows.check_eq_some hlink, LegalRows.check_eq_some ht, List.filter_append,
        List.append_assoc, List.map_append]
      obtain ⟨ptr, hptr⟩ : ∃ ptr, ptr = hostPtr (nextId rows.1 + 1) owner zone host.fqdn host.ttl
        (isName_ptrOwner_bind hp) := ⟨_, rfl⟩
      have hptrId : ptr.id = nextId rows.1 + 1 := by rw [hptr, hostPtr]
      have hptrType : ptr.recordType = .ptr := by rw [hptr, hostPtr]
      rw [← hptr]
      have hold : ∀ r ∈ rows.1.filter fun r => !r.sameKey ptr, setPtr host.id ptr.id r = id r := by
        intro r hr
        have := id_lt_nextId (List.mem_of_mem_filter hr)
        exact if_neg (by omega)
      have hkey : host.sameKey ptr = false := by
        simp [DnsRecord.sameKey, hptrType, htype]
      have hne : ptr.id ≠ host.id := by omega
      rw [List.map_congr_left hold, List.map_id]
      simp [hkey, hne, setPtr]

theorem addHost_spec {internalDomain hostname domain address : Str} {ttl : Option ℤ}
    {comment : Str} {autoPtr override : Bool}
    (h : addHost d internalDomain hostname domain address ttl comment autoPtr override rows
      = some (messages, rows')) :
    ∃ label localDomain ip ttl',
      let host := newHost (nextId rows.1) label localDomain ip ttl' comment autoPtr
      (HostRead d.toUnicodeData internalDomain hostname domain address label localDomain ip
          ∧ RowChecked d rows.1 host.fqdn host.recordType host.value ttl ttl' none override)
        ∧ if autoPtr then
            ∃ owner zone, ∃ hp : (ipAddress host.value).bind ptrOwner = some (owner, zone),
              let ptr := hostPtr (nextId rows.1 + 1) owner zone host.fqdn host.ttl
                (isName_ptrOwner_bind hp)
              (override = false → Clear (rows.1 ++ [host]) ptr.fqdn .ptr none)
                ∧ rows'.1 = (rows.1.filter fun r => !r.sameKey ptr)
                    ++ [{ host with ptrRecordId := some ptr.id }, ptr]
          else rows'.1 = rows.1 ++ [host] := by
  simp only [addHost, Option.bind_eq_bind, Option.bind_eq_some_iff, Option.pure_def,
    Option.some.injEq, Prod.mk.injEq] at h
  obtain ⟨localDomain, hdomain, label, hlabel, ip, hip, ttl', httl, findings, hfindings, ms, haccept,
    inserted, hins, t, ht, -, rfl⟩ := h
  refine ⟨label, localDomain, ip, ttl', ⟨⟨hdomain, hlabel, hip⟩, ?_⟩, ?_⟩
  · exact rowChecked_of_accept httl hfindings haccept
  · have hins := LegalRows.check_eq_some hins
    split_ifs at ht ⊢
    · refine addHostPtr_spec rfl ?_ hins ht
      simp only [newHost]
      split_ifs <;> simp
    · cases ht
      exact hins

end Spec

theorem id_inj {rows : RecordRows} {r s : DnsRecord} (hr : r ∈ rows.1) (hs : s ∈ rows.1)
    (h : r.id = s.id) : r = s := by
  have hlt : rows.1.Pairwise fun r s => r.id < s.id := rows.2.imp fun {r s} h => by
    simp only [recordConflict, Bool.or_eq_false_iff, Bool.not_eq_false', decide_eq_true_eq] at h
    exact h.1
  have hnodup : (rows.1.map (·.id)).Nodup := List.pairwise_map.mpr (hlt.imp fun h => ne_of_lt h)
  exact List.inj_on_of_nodup_map hnodup hr hs h

/-- The deletion of a row takes the row its link names along. -/
theorem mem_deleteRecord {rows : RecordRows} {id : ℕ} {r : DnsRecord} :
    r ∈ (deleteRecord id rows).1 ↔
      r ∈ rows.1 ∧ r.id ≠ id
        ∧ ∀ s ∈ rows.1, s.id = id → s.ptrRecordId = some r.id → r.id = 0 := by
  have hrow : ∀ s ∈ rows.1, s.id = id → rows.1.find? (·.id = id) = some s := by
    intro s hs hid
    cases hfind : rows.1.find? (·.id = id) with
    | none => simpa [hid] using List.find?_eq_none.mp hfind s hs
    | some s' =>
        have hid' := List.find?_some hfind
        rw [decide_eq_true_eq] at hid'
        rw [id_inj hs (List.mem_of_find?_eq_some hfind) (hid.trans hid'.symm)]
  unfold deleteRecord
  dsimp only
  split
  · rename_i ptrId hptr
    simp only [Option.filter_eq_some_iff, Option.bind_eq_some_iff, decide_eq_true_eq] at hptr
    obtain ⟨⟨s, hs, hlink⟩, hne⟩ := hptr
    simp only [LegalRows.filter, List.mem_filter, decide_eq_true_eq, ne_eq]
    constructor
    · rintro ⟨⟨hr, hid⟩, hr'⟩
      refine ⟨hr, hid, fun s' hs' hid' hlink' => ?_⟩
      rw [hrow s' hs' hid', Option.some.injEq] at hs
      rw [hs, hlink, Option.some.injEq] at hlink'
      exact absurd hlink'.symm hr'
    · rintro ⟨hr, hid, hall⟩
      refine ⟨⟨hr, hid⟩, fun hr' => hne ?_⟩
      have hid' := List.find?_some hs
      rw [decide_eq_true_eq] at hid'
      rw [← hr']
      exact hall s (List.mem_of_find?_eq_some hs) hid' (hr' ▸ hlink)
  · rename_i hptr
    simp only [LegalRows.filter, List.mem_filter, decide_eq_true_eq, ne_eq]
    constructor
    · rintro ⟨hr, hid⟩
      refine ⟨hr, hid, fun s hs hid' hlink => ?_⟩
      by_contra hne
      rw [hrow s hs hid', Option.bind_some, hlink] at hptr
      simp [Option.filter, hne] at hptr
    · exact fun h => ⟨h.1, h.2.1⟩

/-! ## Runs -/

/-- An operation with its arguments. -/
inductive LocalDnsAction where
  | addHost (hostname domain address : Str) (ttl : Option ℤ) (comment : Str)
      (autoPtr override : Bool)
  | addRecord (type : RecordType) (fqdn value : Str) (ttl : Option ℤ) (comment : Str)
      (enabled override : Bool)
  | updateRecord (id : ℕ) (type : RecordType) (fqdn value : Str) (ttl : Option ℤ) (comment : Str)
      (enabled override : Bool)
  | toggleRecord (id : ℕ)
  | deleteRecord (id : ℕ)

/-- The operation does without the `override` flag. -/
def LocalDnsAction.checked : LocalDnsAction → Bool
  | .addHost _ _ _ _ _ _ override | .addRecord _ _ _ _ _ _ override
  | .updateRecord _ _ _ _ _ _ _ override => !override
  | .toggleRecord _ | .deleteRecord _ => true

/-- The table after an operation that does not raise. -/
def localStep (d : LocalDnsData) (internalDomain : Str) (rows : RecordRows) :
    LocalDnsAction → Option RecordRows
  | .addHost hostname domain address ttl comment autoPtr override =>
      (addHost d internalDomain hostname domain address ttl comment autoPtr override rows).map (·.2)
  | .addRecord type fqdn value ttl comment enabled override =>
      (addRecord d type fqdn value ttl comment enabled override rows).map (·.2)
  | .updateRecord id type fqdn value ttl comment enabled override =>
      (updateRecord d id type fqdn value ttl comment enabled override rows).map (·.2)
  | .toggleRecord id => some (toggleRecord id rows)
  | .deleteRecord id => some (deleteRecord id rows)

/-- Operations on the empty table, each of which succeeds. -/
def localRun (d : LocalDnsData) (internalDomain : Str) (actions : List LocalDnsAction) :
    Option RecordRows :=
  Runs.run (localStep d internalDomain) LegalRows.empty actions

end LocalDns

end AlderpointDNS
