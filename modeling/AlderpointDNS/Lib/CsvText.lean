import AlderpointDNS.Lib.Csv

/-!
# Writing comma-separated text

Python's `csv.writer` with its default dialect, and what the reader makes of its text.  A field with
a comma, a quote or a line break is quoted, so that a record may go over several lines: `Reads` is
what the reader does within a record, over the ends of its lines.

* `reads_writeField` — a field that was written is read at the start of a field;
* **`records_write`** — records with fields that are not too long are read as they were written.
-/

namespace Csv

open Text

/-! ## The writer -/

/-- The characters for which a field is quoted. -/
def isSpecial (c : Char) : Bool := c = ',' || c = '"' || Reader.isNewline c

/-- A quote within quotes is written twice. -/
def doubled (field : Str) : Str := field.flatMap fun c => if c = '"' then ['"', '"'] else [c]

/-- A field of a record, `quoted` for the only field of its record. -/
def writeField (quoted : Bool) (field : Str) : Str :=
  if field.any isSpecial || (quoted && field = []) then '"' :: doubled field ++ ['"'] else field

/-- `writerow`. -/
def writeRow (row : List Str) : Str :=
  join [','] (row.map (writeField (row.length = 1))) ++ ['\r', '\n']

/-- The text of some records. -/
def write (rows : List (List Str)) : Str := rows.flatMap writeRow

example : write [["a,\"b".toList, []], [[]]] = "\"a,\"\"b\",\r\n\"\"\r\n".toList := by
  decide +kernel

/-! ## Within a record -/

namespace Reader

/-- The reader gets from `r` to `r'` by the text, which does not end the record. -/
inductive Reads : Reader → Str → Reader → Prop where
  | nil (r : Reader) : Reads r [] r
  | char {r r₁ r' : Reader} {c : Char} {s : Str} (hc : c ≠ '\n') (h : r.process c = some r₁)
      (hs : Reads r₁ s r') : Reads r (c :: s) r'
  | line {r r₁ r' : Reader} {s : Str} (h : r.process '\n' = some r₁)
      (hstate : r₁.endLine.state ≠ .startRecord) (hs : Reads r₁.endLine s r') :
      Reads r ('\n' :: s) r'

theorem Reads.append {r r₁ r₂ : Reader} {s t : Str} (hs : Reads r s r₁) (ht : Reads r₁ t r₂) :
    Reads r (s ++ t) r₂ := by
  induction hs with
  | nil r => exact ht
  | char hc h _ ih => exact .char hc h (ih ht)
  | line h hstate _ ih => exact .line h hstate (ih ht)

theorem Reads.single {r r' : Reader} {c : Char} (hc : c ≠ '\n') (h : r.process c = some r') :
    Reads r [c] r' := .char hc h (.nil r')

/-- The reader is at the end of a field. -/
structure Ends (r : Reader) (fields : List Str) (field : Str) : Prop where
  state : r.state = .startField ∨ r.state = .inField ∨ r.state = .quoteInQuotedField ∨
    r.state = .startRecord
  fields : r.fields = fields
  field : r.field = field

theorem addChar_eq {r : Reader} {c : Char} {state : ReaderState}
    (h : r.field.length < fieldSizeLimit) :
    r.addChar c state = some { r with state := state, field := r.field ++ [c] } :=
  if_neg (by omega)

/-- The rest of a field without special characters. -/
theorem reads_plain {s : Str} {r : Reader} (hstate : r.state = .inField)
    (hplain : ∀ c ∈ s, isSpecial c = false) (hlen : r.field.length + s.length ≤ fieldSizeLimit) :
    Reads r s { r with field := r.field ++ s } := by
  induction s generalizing r with
  | nil =>
      rw [List.append_nil]
      exact .nil r
  | cons c s ih =>
      have hc := hplain c List.mem_cons_self
      simp only [isSpecial, Bool.or_eq_false_iff, decide_eq_false_iff_not] at hc
      rw [List.length_cons] at hlen
      have hprocess : r.process c = some { r with field := r.field ++ [c] } := by
        rw [process, hstate]
        simp only [hc, Bool.false_eq_true, if_false]
        exact addChar_eq (by omega)
      have hnewline : c ≠ '\n' := by
        rintro rfl
        exact Bool.noConfusion hc.2
      have hrest := ih (r := { r with field := r.field ++ [c] }) hstate
        (fun b hb => hplain b (List.mem_cons_of_mem _ hb))
        (by simp only [List.length_append, List.length_singleton]; omega)
      simp only [List.append_assoc, List.singleton_append] at hrest
      exact .char hnewline hprocess hrest

/-- The rest of a quoted field, up to its last quote. -/
theorem reads_doubled {s : Str} {r : Reader} (hstate : r.state = .inQuotedField)
    (hlen : r.field.length + s.length ≤ fieldSizeLimit) :
    Reads r (doubled s) { r with field := r.field ++ s } := by
  induction s generalizing r with
  | nil =>
      rw [List.append_nil]
      exact .nil r
  | cons c s ih =>
      rw [List.length_cons] at hlen
      have hrest := ih (r := { r with field := r.field ++ [c] }) hstate
        (by simp only [List.length_append, List.length_singleton]; omega)
      simp only [List.append_assoc, List.singleton_append] at hrest
      rw [doubled, List.flatMap_cons, ← doubled]
      by_cases hquote : c = '"'
      · subst hquote
        have hfirst : r.process '"' = some { r with state := .quoteInQuotedField } := by
          rw [process, hstate]
          rfl
        have hsecond : ({ r with state := .quoteInQuotedField } : Reader).process '"'
            = some { r with field := r.field ++ ['"'] } := by
          rw [process]
          simp only [if_true]
          rw [addChar_eq (by simp only; omega), hstate]
        exact .char (by decide) hfirst (.char (by decide) hsecond hrest)
      · have hprocess : r.process c = some { r with field := r.field ++ [c] } := by
          rw [process, hstate]
          simp only [hquote, if_false]
          exact addChar_eq (by omega)
        rw [if_neg hquote]
        by_cases hnewline : c = '\n'
        · subst hnewline
          have hend : ({ r with field := r.field ++ ['\n'] } : Reader).endLine
              = { r with field := r.field ++ ['\n'] } := by
            rw [endLine]
            simp only [hstate]
          refine .line hprocess ?_ ?_
          · rw [hend]
            simp [hstate]
          · rw [hend]
            exact hrest
        · exact .char hnewline hprocess hrest

/-- **A field that was written is read.** -/
theorem reads_writeField {r : Reader} (hstart : r.state = .startField ∨ r.state = .startRecord)
    (hempty : r.field = []) (quoted : Bool) {field : Str} (hlen : field.length ≤ fieldSizeLimit) :
    ∃ r', Reads r (writeField quoted field) r' ∧ r'.Ends r.fields field ∧
      (r'.state = .startRecord → r.state = .startRecord ∧ quoted = false) := by
  have hbegin : ∀ {c : Char}, isNewline c = false → r.process c = r.beginField c := by
    intro c hc
    rw [process]
    rcases hstart with h | h <;> rw [h]
    simp [hc]
  unfold writeField
  split_ifs with hquoted
  · have hopen : r.process '"' = some { r with state := .inQuotedField } := by
      rw [hbegin (by decide), beginField]
      simp [isNewline]
    have hbody := reads_doubled (s := field) (r := { r with state := .inQuotedField }) rfl
      (by simpa [hempty] using hlen)
    have hclose : ({ r with state := .inQuotedField, field := r.field ++ field } : Reader).process '"'
        = some { r with state := .quoteInQuotedField, field := r.field ++ field } := rfl
    refine ⟨_, .char (by decide) hopen (hbody.append (.single (by decide) hclose)),
      ⟨.inr (.inr (.inl rfl)), rfl, by simp [hempty]⟩, fun h => by cases h⟩
  · simp only [Bool.or_eq_true, Bool.and_eq_true, decide_eq_true_eq, not_or, not_and] at hquoted
    cases field with
    | nil =>
        refine ⟨r, .nil r, ⟨?_, rfl, hempty⟩, fun h => ⟨h, ?_⟩⟩
        · rcases hstart with h | h
          · exact .inl h
          · exact .inr (.inr (.inr h))
        · cases quoted with
          | false => rfl
          | true => exact absurd rfl (hquoted.2 rfl)
    | cons c s =>
        have hplain : ∀ b ∈ c :: s, isSpecial b = false := by
          intro b hb
          by_contra hb'
          exact hquoted.1 (List.any_eq_true.mpr ⟨b, hb, Bool.eq_true_of_not_eq_false hb'⟩)
        have hc := hplain c List.mem_cons_self
        simp only [isSpecial, Bool.or_eq_false_iff, decide_eq_false_iff_not] at hc
        rw [List.length_cons] at hlen
        have hfirst : r.process c = some { r with state := .inField, field := r.field ++ [c] } := by
          rw [hbegin hc.2, beginField]
          simp only [hc, Bool.false_eq_true, if_false]
          exact addChar_eq (by rw [hempty, List.length_nil]; omega)
        have hrest := reads_plain (s := s)
          (r := { r with state := .inField, field := r.field ++ [c] }) rfl
          (fun b hb => hplain b (List.mem_cons_of_mem _ hb))
          (by simp only [hempty, List.length_append, List.length_nil, List.length_singleton]; omega)
        have hnewline : c ≠ '\n' := by
          rintro rfl
          exact Bool.noConfusion hc.2
        exact ⟨_, .char hnewline hfirst hrest,
          ⟨.inr (.inl rfl), rfl, by simp [hempty]⟩, fun h => by cases h⟩

/-! ## Records -/

/-- The comma after a field. -/
theorem process_comma {r : Reader} {fields : List Str} {field : Str} (h : r.Ends fields field) :
    r.process ',' = some ⟨.startField, [], fields ++ [field]⟩ := by
  have hsave : r.saveField .startField = ⟨.startField, [], fields ++ [field]⟩ := by
    rw [saveField, h.fields, h.field]
  rw [← hsave, process]
  rcases h.state with hstate | hstate | hstate | hstate <;> rw [hstate] <;> rfl

/-- The carriage return after the last field. -/
theorem process_return {r : Reader} {fields : List Str} {field : Str} (h : r.Ends fields field)
    (hstate : r.state ≠ .startRecord) :
    r.process '\r' = some ⟨.eatCrnl, [], fields ++ [field]⟩ := by
  have hsave : r.saveField .eatCrnl = ⟨.eatCrnl, [], fields ++ [field]⟩ := by
    rw [saveField, h.fields, h.field]
  rw [← hsave, process]
  rcases h.state with hstate' | hstate' | hstate' | hstate'
  · rw [hstate']
    rfl
  · rw [hstate']
    rfl
  · rw [hstate']
    rfl
  · exact absurd hstate' hstate

/-- The fields of a record, and the carriage return. -/
theorem reads_fields (quoted : Bool) {row : List Str}
    (hlen : ∀ field ∈ row, field.length ≤ fieldSizeLimit) (hne : row ≠ []) {r : Reader}
    (hstart : r.state = .startField ∨
      r.state = .startRecord ∧ (row.length = 1 → quoted = true)) (hempty : r.field = []) :
    Reads r (join [','] (row.map (writeField quoted)) ++ ['\r'])
      ⟨.eatCrnl, [], r.fields ++ row⟩ := by
  induction row generalizing r with
  | nil => exact absurd rfl hne
  | cons field row ih =>
      obtain ⟨r', hreads, hends, hstate⟩ := reads_writeField (hstart.imp_right And.left) hempty
        quoted (hlen field List.mem_cons_self)
      cases row with
      | nil =>
          rw [List.map_singleton, join, List.intercalate_singleton]
          refine hreads.append (.single (by decide) (process_return hends fun h => ?_))
          obtain ⟨hrecord, hfalse⟩ := hstate h
          rcases hstart with hfield | ⟨-, hquoted⟩
          · rw [hrecord] at hfield
            cases hfield
          · rw [hfalse] at hquoted
            exact Bool.noConfusion (hquoted rfl)
      | cons field' row =>
          have hrest := ih (r := ⟨.startField, [], r.fields ++ [field]⟩)
            (fun g hg => hlen g (List.mem_cons_of_mem _ hg)) (by simp) (.inl rfl) rfl
          rw [List.append_assoc, List.singleton_append] at hrest
          rw [List.map_cons, List.map_cons, join, List.intercalate_cons_cons, List.append_assoc,
            List.append_assoc]
          refine hreads.append (.char (by decide) (process_comma hends) ?_)
          rwa [List.map_cons, join] at hrest

end Reader

/-! ## The text of the records -/

theorem linesOf_append {pre : Str} (h : '\n' ∉ pre) (s : Str) :
    linesOf (pre ++ '\n' :: s) = (pre ++ ['\n']) :: linesOf s := by
  induction pre with
  | nil => rw [List.nil_append, linesOf, if_pos rfl, List.nil_append]
  | cons c pre ih =>
      have hc : c ≠ '\n' := fun heq => h (heq ▸ List.mem_cons_self)
      rw [List.cons_append, linesOf, if_neg hc, ih fun hmem => h (List.mem_cons_of_mem c hmem)]
      rfl

/-- The end of a line of which `pre` has been read. -/
theorem feed_line {r₀ r r' : Reader} {pre : Str} (hpre : pre.foldlM Reader.process r₀ = some r)
    (hprocess : r.process '\n' = some r') : r₀.feed (pre ++ ['\n']) = some r'.endLine := by
  rw [Reader.feed, List.foldlM_append, hpre, Option.bind_eq_bind, Option.bind_some,
    List.foldlM_cons, hprocess]
  rfl

/-- The reader goes over the lines of a record up to the end of the last one; `pre` is what has been
read of the line that it is in. -/
theorem readRecords_reads {r₀ r r₁ r₂ : Reader} {pre s : Str} (hreads : r.Reads s r₁)
    (hpre : '\n' ∉ pre) (hline : pre.foldlM Reader.process r₀ = some r)
    (hnewline : r₁.process '\n' = some r₂) (hend : r₂.endLine.state = .startRecord) (rest : Str) :
    readRecords r₀ (linesOf (pre ++ (s ++ '\n' :: rest)))
      = (readRecords .start (linesOf rest)).map (r₂.endLine.fields :: ·) := by
  induction hreads generalizing r₀ pre with
  | nil r =>
      rw [List.nil_append, linesOf_append hpre, readRecords, feed_line hline hnewline,
        Option.bind_some, if_pos hend]
  | @char r r' _ c s hc hprocess _ ih =>
      have hpre' : '\n' ∉ pre ++ [c] := by
        simp [hpre, Ne.symm hc]
      have hline' : (pre ++ [c]).foldlM Reader.process r₀ = some r' := by
        rw [List.foldlM_append, hline]
        simp [hprocess]
      have hrest := ih hpre' hline' hnewline
      rw [List.append_assoc, List.singleton_append] at hrest
      exact hrest
  | @line r r' _ s hprocess hstate _ ih =>
      rw [List.cons_append, linesOf_append hpre, readRecords, feed_line hline hprocess,
        Option.bind_some, if_neg hstate]
      have hnil : '\n' ∉ ([] : Str) := List.not_mem_nil
      exact ih hnil rfl hnewline

/-- **What was written is read**, when no field is too long. -/
theorem records_write {rows : List (List Str)} (hne : ∀ row ∈ rows, row ≠ [])
    (hlen : ∀ row ∈ rows, ∀ field ∈ row, field.length ≤ fieldSizeLimit) :
    records (write rows) = some rows := by
  rw [records]
  induction rows with
  | nil => rfl
  | cons row rows ih =>
      have hreads := Reader.reads_fields (row.length = 1) (hlen row List.mem_cons_self)
        (hne row List.mem_cons_self) (r := .start) (.inr ⟨rfl, fun h => decide_eq_true h⟩) rfl
      have hnil : '\n' ∉ ([] : Str) := List.not_mem_nil
      have hrow := readRecords_reads hreads hnil rfl rfl rfl (write rows)
      rw [write, List.flatMap_cons, ← write, writeRow, List.append_assoc]
      rw [List.nil_append, List.append_assoc] at hrow
      rw [List.cons_append, List.cons_append, List.nil_append]
      rw [List.cons_append, List.nil_append] at hrow
      rw [hrow, ih (fun r hr => hne r (List.mem_cons_of_mem _ hr))
        fun r hr => hlen r (List.mem_cons_of_mem _ hr)]
      rfl

end Csv
