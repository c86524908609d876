import AlderpointDNS.Lib.Dict
import AlderpointDNS.Lib.Text

/-!
# Comma-separated text

Python's `csv.reader` with its default dialect, fed with the lines of a text, and `csv.DictReader`
over it.  The reader is a state machine (`process`): fields are separated by commas, may be quoted,
and have a quote doubled inside of quotes; it complains of characters after the end of a line and of
fields that are too long.

* `records` — the records of a text, or the complaint;
* `dictRows` — the records but the first, under the names of the first.
-/

namespace Csv

open Text

/-! ## The reader -/

/-- The states of the reader. -/
inductive ReaderState where
  | startRecord | startField | inField | inQuotedField | quoteInQuotedField | eatCrnl
  deriving DecidableEq

/-- The reader within a record. -/
structure Reader where
  state : ReaderState
  field : Str
  fields : List Str

/-- The reader before a record. -/
def Reader.start : Reader := ⟨.startRecord, [], []⟩

/-- `csv.field_size_limit()`. -/
def fieldSizeLimit : ℕ := 131072

namespace Reader

def saveField (r : Reader) (state : ReaderState) : Reader :=
  ⟨state, [], r.fields ++ [r.field]⟩

def addChar (r : Reader) (c : Char) (state : ReaderState) : Option Reader :=
  if fieldSizeLimit ≤ r.field.length then none
  else some { r with state := state, field := r.field ++ [c] }

/-- The line break ends the field. -/
def isNewline (c : Char) : Bool := c = '\n' || c = '\r'

/-- At the start of a field. -/
def beginField (r : Reader) (c : Char) : Option Reader :=
  if isNewline c then some (r.saveField .eatCrnl)
  else if c = '"' then some { r with state := .inQuotedField }
  else if c = ',' then some (r.saveField .startField)
  else r.addChar c .inField

/-- One character. -/
def process (r : Reader) (c : Char) : Option Reader :=
  match r.state with
  | .startRecord => if isNewline c then some { r with state := .eatCrnl } else r.beginField c
  | .startField => r.beginField c
  | .inField =>
      if isNewline c then some (r.saveField .eatCrnl)
      else if c = ',' then some (r.saveField .startField)
      else r.addChar c .inField
  | .inQuotedField =>
      if c = '"' then some { r with state := .quoteInQuotedField } else r.addChar c .inQuotedField
  | .quoteInQuotedField =>
      if c = '"' then r.addChar c .inQuotedField
      else if c = ',' then some (r.saveField .startField)
      else if isNewline c then some (r.saveField .eatCrnl)
      else r.addChar c .inField
  -- `new-line character seen in unquoted field`
  | .eatCrnl => if isNewline c then some r else none

/-- The end of a line that was fed. -/
def endLine (r : Reader) : Reader :=
  match r.state with
  | .startRecord | .inQuotedField => r
  | .startField | .inField | .quoteInQuotedField => r.saveField .startRecord
  | .eatCrnl => { r with state := .startRecord }

def feed (r : Reader) (line : Str) : Option Reader := (line.foldlM process r).map endLine

end Reader

/-- The records of the lines, from within a record on. -/
def readRecords (r : Reader) : List Str → Option (List (List Str))
  | [] =>
      -- the text ends within quotes
      some (if r.field ≠ [] ∨ r.state = .inQuotedField then [(r.saveField .startRecord).fields]
        else [])
  | line :: lines =>
      (r.feed line).bind fun r =>
        if r.state = .startRecord then (readRecords .start lines).map (r.fields :: ·)
        else readRecords r lines

/-- The lines of `StringIO(text)`, with their ends. -/
def linesOf : Str → List Str
  | [] => []
  | c :: cs =>
      if c = '\n' then [c] :: linesOf cs
      else match linesOf cs with
        | [] => [[c]]
        | line :: lines => (c :: line) :: lines

/-- `list(csv.reader(StringIO(text)))`; `none` is a `csv.Error`. -/
def records (text : Str) : Option (List (List Str)) := readRecords .start (linesOf text)

example : records "a,\"b,\"\"c\"\nd\"e\n\n\"f\ng".toList
    = some [["a".toList, "b,\"c".toList], ["d\"e".toList], [], ["f\ng".toList]] := by
  decide +kernel

/-! ## Rows by name -/

/-- A row of `csv.DictReader`: `None` for the names that have no value.  What goes beyond the names
is under the key `None`, where no name finds it. -/
def rowDict (fieldnames row : List Str) : Dict Str (Option Str) :=
  (fieldnames.drop row.length).foldl (fun d name => d.insert name none)
    ((fieldnames.zip row).foldl (fun d entry => d.insert entry.1 (some entry.2)) ∅)

/-- `list(csv.DictReader(StringIO(text)))`. -/
def dictRows (text : Str) : Option (List (Dict Str (Option Str))) :=
  (records text).map fun
    | [] => []
    | fieldnames :: rows => (rows.filter (· ≠ [])).map (rowDict fieldnames)

example : (dictRows "fqdn,ttl\r\na,1,x\r\nb\r\n".toList).map (·.map fun row =>
    (row.lookup "fqdn".toList, row.lookup "ttl".toList))
      = some [(some (some "a".toList), some (some "1".toList)), (some (some "b".toList), some none)] := by
  decide +kernel

end Csv
