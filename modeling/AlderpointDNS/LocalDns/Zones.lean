import AlderpointDNS.LocalDns.Records
import Mathlib.Data.Prod.Lex

/-!
# The zones of the local records

`build_zone_files`: every enabled record picks its zone by itself, and a zone is written for each
zone so picked and for the internal domain.

* `relName`, `renderZone`, `forwardZoneForFqdn`, `zoneFiles` — as in the source;
* `lookup_forwardZones`, `lookup_reverseZones` — which zones there are, and the records of each;
* **`absolute_relName`** — an owner name written relative to its zone reads back as the record's
  own name.
-/

namespace AlderpointDNS

open Text

/-- The `record_type` column. -/
def RecordType.text : RecordType → Str
  | .a => "A".toList
  | .aaaa => "AAAA".toList
  | .ptr => "PTR".toList
  | .cname => "CNAME".toList

namespace LocalDns

/-! ## Zone files -/

/-- `LOCAL_NS`. -/
def localNs : Str := "alderpointdns-local-ns".toList

/-- The text of a number. -/
def number (n : ℕ) : Str := Nat.toDigits 10 n

/-- `rel_name`. -/
def relName (fqdn zone : Str) : Str :=
  if fqdn = zone then ['@']
  else if endsWith fqdn ('.' :: zone) then
    let pre := fqdn.take (fqdn.length - ('.' :: zone).length)
    if pre = [] then ['@'] else pre
  else fqdn ++ ['.']

/-- A resource record as it is written in a zone file. -/
structure ZoneLine where
  owner : Str
  ttl : Option ℕ
  type : Str
  data : Str
  deriving DecidableEq

def ZoneLine.text (l : ZoneLine) : Str :=
  l.owner ++ ' ' :: (l.ttl.elim [] fun ttl => number ttl ++ [' ']) ++ "IN ".toList ++ l.type
    ++ ' ' :: l.data

/-- A `ZoneFile`: the resource records of its text, those of the apex and the glue first. -/
structure ZoneFile where
  zone : Str
  defaultTtl : ℕ
  apex : List ZoneLine
  records : List ZoneLine
  deriving DecidableEq

/-- `path.name`. -/
def ZoneFile.fileName (z : ZoneFile) : Str := z.zone ++ ".zone".toList

/-- `text`. -/
def ZoneFile.text (z : ZoneFile) : Str :=
  join ['\n'] (["$ORIGIN ".toList ++ z.zone ++ ['.'], "$TTL ".toList ++ number z.defaultTtl]
    ++ z.apex.map (·.text) ++ [] :: z.records.map (·.text)) ++ ['\n']

/-- The SOA and NS records of a zone, and the address of its name server. -/
def apexLines (zone : Str) (serial : ℕ) : List ZoneLine :=
  let ns := localNs ++ '.' :: zone ++ ['.']
  [⟨['@'], none, "SOA".toList, ns ++ " hostmaster.".toList ++ zone ++ ". ( ".toList
      ++ number serial ++ " 1h 15m 30d 5m )".toList⟩,
   ⟨['@'], none, "NS".toList, ns⟩,
   ⟨localNs, none, "A".toList, "127.0.0.1".toList⟩]

/-- The line of a record. -/
def recordLine (zone : Str) (r : DnsRecord) : ZoneLine :=
  { owner := relName r.fqdn zone
    ttl := some r.ttl
    type := r.recordType.text
    data := if r.recordType = .ptr || r.recordType = .cname then r.value ++ ['.'] else r.value }

/-- `render_zone`. -/
def renderZone (zone : Str) (records : List DnsRecord) (serial defaultTtl : ℕ) : ZoneFile :=
  { zone := zone, defaultTtl := defaultTtl, apex := apexLines zone serial
    records := records.map (recordLine zone) }

/-! ## The zone of a record -/

/-- `fqdn == zone or fqdn.endswith("." + zone)`. -/
def inZone (fqdn zone : Str) : Bool := fqdn = zone || endsWith fqdn ('.' :: zone)

/-- `".".join(fqdn.split(".")[1:])`. -/
def parentName (fqdn : Str) : Str := join ['.'] (split '.' fqdn).tail

/-- `forward_zone_for_fqdn`. -/
def forwardZoneForFqdn (fqdn internalDomain : Str) : Str :=
  if inZone fqdn internalDomain then internalDomain
  else if (split '.' fqdn).length < 3 then fqdn
  else parentName fqdn

/-- `enabled=1 ORDER BY fqdn, record_type, value`. -/
def enabledRecords (rows : List DnsRecord) : List DnsRecord :=
  sortBy (fun r => toLex (r.fqdn, toLex (r.recordType.text, r.value))) (rows.filter (·.enabled))

def forwardRecords (rows : List DnsRecord) : List DnsRecord :=
  (enabledRecords rows).filter (·.recordType ≠ .ptr)

def reverseRecords (rows : List DnsRecord) : List DnsRecord :=
  (enabledRecords rows).filter (·.recordType = .ptr)

/-- `forward`. -/
def forwardZones (domain : Str) (rows : List DnsRecord) : Dict Str (List DnsRecord) :=
  Dict.group (fun r => forwardZoneForFqdn r.fqdn domain) (AList.insert domain [] ∅)
    (forwardRecords rows)

/-- `reverse`. -/
def reverseZones (rows : List DnsRecord) : Dict Str (List DnsRecord) :=
  Dict.group (fun r => parentName r.fqdn) ∅ (reverseRecords rows)

/-- The zone files of a dictionary of records, in the order of their names. -/
def filesOf (zones : Dict Str (List DnsRecord)) (serial defaultTtl : ℕ) : List ZoneFile :=
  (sorted zones.keys).map fun zone =>
    renderZone zone ((zones.lookup zone).getD []) serial defaultTtl

/-- `build_zone_files` under validated settings. -/
def zoneFiles (domain : Domain) (defaultTtl serial : ℕ) (rows : List DnsRecord) : List ZoneFile :=
  filesOf (forwardZones domain.1 rows) serial defaultTtl
    ++ filesOf (reverseZones rows) serial defaultTtl

/-- `build_zone_files`. -/
def buildZoneFiles (u : UnicodeData) (internalDomain : Str) (defaultTtl : Option ℤ) (serial : ℕ)
    (rows : List DnsRecord) : Option (List ZoneFile) := do
  let domain ← normalizeDomain u internalDomain
  let defaultTtl ← validateTtl defaultTtl
  return zoneFiles domain defaultTtl serial rows

/-! ## The records of a zone -/

theorem mem_enabledRecords {rows : List DnsRecord} {r : DnsRecord} :
    r ∈ enabledRecords rows ↔ r ∈ rows ∧ r.enabled = true := by
  rw [enabledRecords, (sortBy_perm _ _).mem_iff, List.mem_filter]

theorem mem_forwardRecords {rows : List DnsRecord} {r : DnsRecord} :
    r ∈ forwardRecords rows ↔ r ∈ rows ∧ r.enabled = true ∧ r.recordType ≠ .ptr := by
  rw [forwardRecords, List.mem_filter, mem_enabledRecords, decide_eq_true_eq, and_assoc]

theorem mem_reverseRecords {rows : List DnsRecord} {r : DnsRecord} :
    r ∈ reverseRecords rows ↔ r ∈ rows ∧ r.enabled = true ∧ r.recordType = .ptr := by
  rw [reverseRecords, List.mem_filter, mem_enabledRecords, decide_eq_true_eq, and_assoc]

theorem mem_forwardZone {rows : List DnsRecord} {domain zone : Str} {r : DnsRecord} :
    r ∈ (forwardRecords rows).filter (fun r => forwardZoneForFqdn r.fqdn domain = zone) ↔
      r ∈ rows ∧ r.enabled = true ∧ r.recordType ≠ .ptr
        ∧ forwardZoneForFqdn r.fqdn domain = zone := by
  rw [List.mem_filter, mem_forwardRecords, decide_eq_true_eq, and_assoc, and_assoc]

theorem mem_reverseZone {rows : List DnsRecord} {zone : Str} {r : DnsRecord} :
    r ∈ (reverseRecords rows).filter (fun r => parentName r.fqdn = zone) ↔
      r ∈ rows ∧ r.enabled = true ∧ r.recordType = .ptr ∧ parentName r.fqdn = zone := by
  rw [List.mem_filter, mem_reverseRecords, decide_eq_true_eq, and_assoc, and_assoc]

/-- There is a forward zone for the internal domain and for every zone that a record picks. -/
theorem lookup_forwardZones {domain zone : Str} {rows rs : List DnsRecord} :
    (forwardZones domain rows).lookup zone = some rs ↔
      (zone = domain ∨ ∃ r ∈ forwardRecords rows, forwardZoneForFqdn r.fqdn domain = zone)
        ∧ rs = (forwardRecords rows).filter fun r => forwardZoneForFqdn r.fqdn domain = zone := by
  rw [forwardZones, Dict.lookup_group, Dict.lookup_insert', AList.lookup_empty]
  by_cases hpicked : ∃ r ∈ forwardRecords rows, forwardZoneForFqdn r.fqdn domain = zone
  · have hinit : (if domain = zone then some [] else none).getD ([] : List DnsRecord) = [] := by
      split_ifs <;> rfl
    rw [if_pos hpicked, hinit, List.nil_append, Option.some.injEq]
    exact ⟨fun h => ⟨Or.inr hpicked, h.symm⟩, fun h => h.2.symm⟩
  · have hnil : (forwardRecords rows).filter
        (fun r => forwardZoneForFqdn r.fqdn domain = zone) = [] := by
      rw [List.filter_eq_nil_iff]
      exact fun r hr h => hpicked ⟨r, hr, of_decide_eq_true h⟩
    rw [if_neg hpicked, hnil]
    by_cases hzone : domain = zone
    · simp [hzone, eq_comm]
    · simp [hzone, Ne.symm hzone, hpicked]

/-- There is a reverse zone for every zone that a PTR record picks. -/
theorem lookup_reverseZones {zone : Str} {rows rs : List DnsRecord} :
    (reverseZones rows).lookup zone = some rs ↔
      (∃ r ∈ reverseRecords rows, parentName r.fqdn = zone)
        ∧ rs = (reverseRecords rows).filter fun r => parentName r.fqdn = zone := by
  rw [reverseZones, Dict.lookup_group, AList.lookup_empty]
  split_ifs with hpicked
  · rw [Option.getD_none, List.nil_append, Option.some.injEq]
    exact ⟨fun h => ⟨hpicked, h.symm⟩, fun h => h.2.symm⟩
  · simp [hpicked]

theorem mem_filesOf {zones : Dict Str (List DnsRecord)} {serial defaultTtl : ℕ} {z : ZoneFile} :
    z ∈ filesOf zones serial defaultTtl ↔
      ∃ zone rs, zones.lookup zone = some rs ∧ z = renderZone zone rs serial defaultTtl := by
  simp only [filesOf, List.mem_map, mem_sorted, Dict.mem_keys_iff, Option.isSome_iff_exists]
  constructor
  · rintro ⟨zone, ⟨rs, hrs⟩, rfl⟩
    exact ⟨zone, rs, hrs, by rw [hrs, Option.getD_some]⟩
  · rintro ⟨zone, rs, hrs, rfl⟩
    exact ⟨zone, ⟨rs, hrs⟩, by rw [hrs, Option.getD_some]⟩

/-! ## Zones of names -/

theorem inZone_iff {fqdn zone : Str} :
    inZone fqdn zone = true ↔ fqdn = zone ∨ zone ∈ parents fqdn := by
  rw [inZone, Bool.or_eq_true, decide_eq_true_eq, mem_parents_iff_endsWith]

theorem firstLabel_append {pre : Str} (h : '.' ∉ pre) (rest : Str) :
    firstLabel (pre ++ '.' :: rest) = pre := by
  have hpre : ∀ c ∈ pre, (decide (c ≠ '.')) = true := fun c hc =>
    decide_eq_true fun heq => h (heq ▸ hc)
  rw [firstLabel, List.takeWhile_append_of_pos hpre]
  simp

theorem parentName_append {pre : Str} (h : '.' ∉ pre) (rest : Str) :
    parentName (pre ++ '.' :: rest) = rest := by
  rw [parentName, split_append_sep, split_of_not_mem h, List.singleton_append, List.tail_cons,
    join_split]

/-- The parent of a name is the nearest of its parents. -/
theorem parents_eq_cons {fqdn : Str} (h : '.' ∈ fqdn) :
    parents fqdn = parentName fqdn :: parents (parentName fqdn) := by
  obtain ⟨pre, rest, rfl, hpre⟩ := List.eq_append_cons_of_mem h
  rw [parentName_append hpre, parents_append_dot hpre]

theorem firstLabel_parentName {fqdn : Str} (h : '.' ∈ fqdn) :
    firstLabel fqdn ++ '.' :: parentName fqdn = fqdn := by
  obtain ⟨pre, rest, rfl, hpre⟩ := List.eq_append_cons_of_mem h
  rw [firstLabel_append hpre, parentName_append hpre]

theorem DnsRecord.parents_fqdn (r : DnsRecord) :
    parents r.fqdn = parentName r.fqdn :: parents (parentName r.fqdn) :=
  parents_eq_cons (dot_mem_of_isName r.named)

theorem DnsRecord.inZone_parentName (r : DnsRecord) :
    inZone r.fqdn (parentName r.fqdn) = true := by
  rw [inZone_iff, r.parents_fqdn]
  exact Or.inr List.mem_cons_self

theorem DnsRecord.inZone_forwardZone (r : DnsRecord) (domain : Str) :
    inZone r.fqdn (forwardZoneForFqdn r.fqdn domain) = true := by
  unfold forwardZoneForFqdn
  split_ifs with hin hlabels
  · exact hin
  · exact inZone_iff.mpr (Or.inl rfl)
  · exact r.inZone_parentName

/-! ## Owner names -/

/-- The name that an owner stands for in a zone file. -/
def absoluteName (zone owner : Str) : Str :=
  if owner = ['@'] then zone
  else if owner.getLast? = some '.' then owner.dropLast
  else owner ++ '.' :: zone

/-- **The owner of a record's line is the record's name.** -/
theorem absolute_relName {fqdn zone : Str} (hname : isName fqdn = true)
    (hzone : inZone fqdn zone = true) : absoluteName zone (relName fqdn zone) = fqdn := by
  rcases inZone_iff.mp hzone with rfl | hparent
  · simp [relName, absoluteName]
  · obtain ⟨pre, rfl⟩ := (mem_parents zone fqdn).mp hparent
    obtain ⟨hne, hat, hdot⟩ := pre_of_isName hname
    have hself : pre ++ '.' :: zone ≠ zone := (ne_of_mem_parents hparent).symm
    have hends : endsWith (pre ++ '.' :: zone) ('.' :: zone) = true := by simp
    have htake : (pre ++ '.' :: zone).take ((pre ++ '.' :: zone).length - ('.' :: zone).length)
        = pre := by simp
    rw [relName, if_neg hself, if_pos hends]
    dsimp only
    rw [htake, if_neg hne, absoluteName, if_neg hat, if_neg hdot]

end LocalDns

end AlderpointDNS
