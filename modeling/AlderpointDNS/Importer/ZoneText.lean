import AlderpointDNS.Importer.Items
import AlderpointDNS.SoftwareUpdates.Versions

/-!
# Zone files

`parse_zone_text` reads a zone file line by line.  A line is cut at its comment; `$ORIGIN` changes
the origin, other directives are skipped, and a line that `ZONE_LINE_RE` matches is a record, whose
owner is completed with the origin if it has no dot.

Under the rules of master files a line has a meaning that depends on the lines before it: on the
origin, on the last owner, and on whether it continues a record in parentheses.  A `Reading` is
what the lines before have left, and `Reading.record` the record of a line.

* `parseZoneText` — the rows of a zone file.
* `readRows` — the same rows, each with its line and the readings of the lines before it.
-/

namespace AlderpointDNS.Importer

open Text LocalDns

/-! ## The parser -/

/-- A row of `parse_zone_text`.  The other canonical fields are empty. -/
structure ZoneRow where
  fqdn : Domain
  recordType : RecordType
  target : Str
  ttl : Str
  enabled : Str := "1".toList
  createPtr : Str := "0".toList
  deriving DecidableEq

/-- `\d+`. -/
def isNumberToken (token : Str) : Bool := token ≠ [] && token.all SoftwareUpdates.isDecimal

/-- `IN` in any case; two other letters are the same as `i` then. -/
def isClassToken : Str → Bool
  | [i, n] => (i ∈ ['I', 'i', '\u0130', '\u0131']) && (n ∈ ['N', 'n'])
  | _ => false

/-- `A|AAAA|CNAME|PTR` in any case. -/
def typeToken (token : Str) : Option RecordType := recordTypeOf (token.map Char.toUpper)

/-- The groups of `ZONE_LINE_RE`: the name, the time to live, the type and the data. -/
def matchZoneLine (line : Str) : Option (Str × Option Str × RecordType × Str) :=
  match words line with
  | [name, type, data] => (typeToken type).map fun t => (name, none, t, data)
  | [name, x, type, data] =>
      if isNumberToken x then (typeToken type).map fun t => (name, some x, t, data)
      else if isClassToken x then (typeToken type).map fun t => (name, none, t, data)
      else none
  | [name, ttl, x, type, data] =>
      if isNumberToken ttl && isClassToken x then
        (typeToken type).map fun t => (name, some ttl, t, data)
      else none
  | _ => none

/-- `line.upper()`, as far as it decides whether the line starts with `$ORIGIN`. -/
def upperChar (c : Char) : Char := if c = '\u0131' then 'I' else c.toUpper

section Unicode

variable (u : UnicodeData)

/-- The owner of a record. -/
def zoneOwner (origin : Domain) (name : Str) : Option Domain :=
  if name = ['@'] then some origin else normalizeFqdn u name origin.1

/-- One line: the origin after it and the row that it gives; `none` is an error. -/
def zoneStep (origin : Domain) (raw : Str) : Option (Domain × Option ZoneRow) :=
  let line := (partition ';' raw).1.rdropWhile isSpace
  if words line = [] then some (origin, none)
  else if startsWith (line.map upperChar) "$ORIGIN".toList then
    let rest := (line.dropWhile fun c => !isSpace c).dropWhile isSpace
    if rest = [] then none
    else (LocalDns.normalizeDomain u (rest.rdropWhile (· = '.'))).map fun origin => (origin, none)
  else if line.head? = some '$' then some (origin, none)
  else match matchZoneLine line with
    | none => some (origin, none)
    | some (name, ttl, recordType, data) =>
        (zoneOwner u origin name).map fun fqdn =>
          (origin, some {
            fqdn := fqdn
            recordType := recordType
            target := data.rdropWhile (· = '.')
            ttl := ttl.getD "300".toList })

/-- The loop of `parse_zone_text`. -/
def zoneRows : Domain → List Str → Option (List ZoneRow)
  | _, [] => some []
  | origin, raw :: lines => do
      let (origin, row) ← zoneStep u origin raw
      let rows ← zoneRows origin lines
      return row.toList ++ rows

/-- `parse_zone_text`. -/
def parseZoneText (text defaultDomain : Str) : Option (List ZoneRow) :=
  (LocalDns.normalizeDomain u defaultDomain).bind fun domain => zoneRows u domain (splitlines text)

/-! ## The rules of master files -/

/-- What the lines before have left: the origin, the last owner, and the open parentheses. -/
structure Reading where
  origin : Domain
  owner : Option Domain := none
  depth : ℕ := 0
  deriving DecidableEq

/-- The open parentheses after a text, outside of quotes and comments. -/
def parensAfter : Bool → ℕ → Str → ℕ
  | quoted, depth, '\\' :: _ :: s => parensAfter quoted depth s
  | quoted, depth, '"' :: s => parensAfter (!quoted) depth s
  | false, depth, ';' :: _ => depth
  | false, depth, '(' :: s => parensAfter false (depth + 1) s
  | false, depth, ')' :: s => parensAfter false (depth - 1) s
  | quoted, depth, _ :: s => parensAfter quoted depth s
  | _, depth, [] => depth

/-- No quotes, escapes or parentheses, and no white space but blanks and tabs. -/
def isPlain (line : Str) : Bool :=
  line.all fun c => c ∉ ['"', '\\', '(', ')'] && (!isSpace c || c = ' ' || c = '\t')

/-- A name without the dot that makes it absolute. -/
def trimDot (name : Str) : Str := if endsWith name ['.'] then name.dropLast else name

/-- No label of the name is empty. -/
def hasLabels (name : Str) : Bool := [] ∉ split '.' (trimDot name)

/-- `DOMAIN_RE` decides whether a text is a name. -/
def toDomain (s : Str) : Option Domain :=
  if h : LocalDns.matchesDomainRe s = true then some ⟨s, h⟩ else none

/-- A name in lower case and in IDNA, as `normalize_fqdn` leaves it. -/
def encodeName (name : Str) : Option Str :=
  idnaEncode u (u.toLower (stripBy (· = '.') (strip (u.toLower name))))

/-- A name completed with the origin, whose final newline `DOMAIN_RE` would let pass. -/
def complete (origin : Domain) (name : Str) : Str := name ++ '.' :: dropNewline origin.1

/-- The name of an owner or of `$ORIGIN`. -/
def masterName (origin : Domain) (name : Str) : Option Domain :=
  if name = ['@'] then some origin
  else if !hasLabels name then none
  else (encodeName u (trimDot name)).bind fun s =>
    toDomain (if endsWith name ['.'] then s else complete origin s)

/-- The data of a record; a name is written in full, without the last dot. -/
def masterData (origin : Domain) (recordType : RecordType) (data : Str) : Option Str :=
  if recordType.isAddress then some data
  else if data = ['@'] then some origin.1
  else if data = ['.'] then some []
  else if !hasLabels data then none
  else if endsWith data ['.'] then some data.dropLast
  else some (complete origin data)

def isMasterTtl (token : Str) : Bool := token ≠ [] && token.all Ipaddress.isDecDigit

def isMasterClass (token : Str) : Bool := token.map Char.toUpper = "IN".toList

/-- `[TTL] [class] type data`, where the class may also come first. -/
def masterFields : List Str → Option (RecordType × Str)
  | [type, data] => (typeToken type).map fun t => (t, data)
  | [x, type, data] =>
      if isMasterTtl x || isMasterClass x then (typeToken type).map fun t => (t, data) else none
  | [x, y, type, data] =>
      if isMasterTtl x && isMasterClass y || isMasterClass x && isMasterTtl y then
        (typeToken type).map fun t => (t, data)
      else none
  | _ => none

/-- White space stands in the place of the owner. -/
def isContinued (line : Str) : Bool := line.head?.any isSpace

/-- The words after the owner. -/
def fieldsOf (line : Str) : List Str :=
  if isContinued line then words line else (words line).tail

namespace Reading

/-- The owner of the record of a line. -/
def ownerOf (r : Reading) (line : Str) : Option Domain :=
  if isContinued line then r.owner else masterName u r.origin ((words line).headD [])

/-- The record of a line in the supported form. -/
def record (r : Reading) (raw : Str) : Option (Domain × RecordType × Str) :=
  let line := (partition ';' raw).1
  if 0 < r.depth ∨ isPlain line = false ∨ line.head? = some '$' then none
  else do
    let owner ← r.ownerOf u line
    let (recordType, data) ← masterFields (fieldsOf line)
    let target ← masterData r.origin recordType data
    return (owner, recordType, target)

/-- What a line leaves for the lines after it. -/
def next (r : Reading) (raw : Str) : Reading :=
  let line := (partition ';' raw).1
  let r' := { r with depth := parensAfter false r.depth raw }
  if 0 < r.depth ∨ isContinued line then r'
  else match words line with
    | [] => r'
    | first :: rest =>
        if first.map Char.toUpper = "$ORIGIN".toList then
          { r' with origin := ((rest.head?.bind (masterName u r.origin)).getD r.origin) }
        else if first.head? = some '$' then r'
        else { r' with owner := masterName u r.origin first }

end Reading

/-! ## Rows with their lines -/

/-- A row, the origin that the parser had, the reading of the lines before, and the line. -/
structure ReadRow where
  row : ZoneRow
  origin : Domain
  reading : Reading
  line : Str
  deriving DecidableEq

/-- The loop again. -/
def readRows : Domain → Reading → List Str → Option (List ReadRow)
  | _, _, [] => some []
  | origin, reading, raw :: lines => do
      let (origin', row) ← zoneStep u origin raw
      let rows ← readRows origin' (reading.next u raw) lines
      return row.toList.map (⟨·, origin, reading, raw⟩) ++ rows

def readZone (text defaultDomain : Str) : Option (List ReadRow) :=
  (LocalDns.normalizeDomain u defaultDomain).bind fun domain =>
    readRows u domain { origin := domain } (splitlines text)

end Unicode

end AlderpointDNS.Importer
