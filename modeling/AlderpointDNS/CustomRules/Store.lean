import AlderpointDNS.CustomRules.Parser

/-!
# Adding rules

`addRule` and `addRulesBulk` parse rule texts and insert what the parser returns one by one.
`insertRule` skips a rule when a row with the same normalized text and action exists, whatever
the state of either; ids are `max + 1`.

* **`addCalls_eq`** — a sequence of calls makes the insertions of all its texts in order.
* **`holds_firsts`** — what the table then holds: the first rule of each normalized text and
  action.
-/

namespace AlderpointDNS

open Text

/-- A rule that can be stored. -/
abbrev WellFormedRule := { r : ParsedRule // r.wellFormed = true }

/-- The parser's rules, which are well formed. -/
def parseRules (d : ParserData) (plainDomainSubdomains : Bool) (text : Str) :
    List WellFormedRule :=
  (parseRule d plainDomainSubdomains text).attachWith _
    fun r hr => (parseRule_parsed d plainDomainSubdomains text r hr).wellFormed

/-! ## `_insert_rule` -/

/-- `find_duplicate`. -/
def findDuplicate (rows : List StoredRule) (normalized : Str) (action : RuleAction) :
    Option StoredRule :=
  rows.find? fun row => row.normalized = normalized && row.action = action

inductive InsertStatus where
  | added
  | duplicate
  deriving DecidableEq

/-- The dictionary `_insert_rule` returns. -/
structure InsertResult where
  id : ℕ
  status : InsertStatus
  ruleText : Str
  ruleType : RuleType
  action : RuleAction
  validationState : ValidationState
  reason : Str
  deriving DecidableEq

/-- The rowid SQLite gives to a new row. -/
def nextId (rows : List StoredRule) : ℕ := (rows.map (·.id)).foldl max 0 + 1

/-- `rule.comment or comment or ""`. -/
def orComment (ruleComment comment : Str) : Str := if ruleComment = [] then comment else ruleComment

/-- The row `_insert_rule` writes. -/
def newRow (id : ℕ) (rule : WellFormedRule) (sourceSystem comment : Str) (enabled : Bool) :
    StoredRule where
  toParsedRule := { rule.1 with comment := orComment rule.1.comment comment }
  id := id
  enabled := if rule.1.validationState ≠ .valid then false
    else if rule.1.ruleType = .comment then true else enabled
  sourceSystem := sourceSystem
  wf := rule.2

/-- `_insert_rule`. -/
def insertRule (sourceSystem comment : Str) (enabled : Bool) (rows : List StoredRule)
    (rule : WellFormedRule) : List StoredRule × InsertResult :=
  let result (id : ℕ) (status : InsertStatus) : InsertResult :=
    ⟨id, status, rule.1.ruleText, rule.1.ruleType, rule.1.action, rule.1.validationState,
      rule.1.unsupportedReason⟩
  match findDuplicate rows rule.1.normalized rule.1.action with
  | some existing => (rows, result existing.id .duplicate)
  | none =>
      (rows ++ [newRow (nextId rows) rule sourceSystem comment enabled],
        result (nextId rows) .added)

/-- Insert rules one after the other. -/
def insertRules (sourceSystem comment : Str) (enabled : Bool) (rows : List StoredRule)
    (rules : List WellFormedRule) : List StoredRule × List InsertResult :=
  rules.foldl (fun acc rule =>
    let inserted := insertRule sourceSystem comment enabled acc.1 rule
    (inserted.1, acc.2 ++ [inserted.2])) (rows, [])

/-! ## `add_rule` and `add_rules_bulk` -/

/-- `add_rule`. -/
def addRule (d : ParserData) (text sourceSystem comment : Str) (enabled : Bool)
    (plainDomainSubdomains : Bool) (rows : List StoredRule) :
    List StoredRule × List InsertResult :=
  insertRules sourceSystem comment enabled rows (parseRules d plainDomainSubdomains text)

/-- An entry of `summary["lines"]`. -/
structure BulkLine where
  line : ℕ
  text : Str
  results : List InsertResult

/-- The dictionary `add_rules_bulk` returns. -/
structure BulkSummary where
  lines : List BulkLine := []
  addedActive : ℕ := 0
  addedInactive : ℕ := 0
  duplicates : ℕ := 0
  invalid : ℕ := 0
  unsupported : ℕ := 0
  comments : ℕ := 0

/-- The counters after one result. -/
def BulkSummary.count (enabled : Bool) (s : BulkSummary) (result : InsertResult) : BulkSummary :=
  if result.status = .duplicate then { s with duplicates := s.duplicates + 1 }
  else if result.ruleType = .comment then { s with comments := s.comments + 1 }
  else match result.validationState with
    | .invalid => { s with invalid := s.invalid + 1 }
    | .unsupported => { s with unsupported := s.unsupported + 1 }
    | .valid =>
        if enabled then { s with addedActive := s.addedActive + 1 }
        else { s with addedInactive := s.addedInactive + 1 }

/-- One numbered line of the loop. -/
def bulkLine (d : ParserData) (sourceSystem comment : Str) (enabled : Bool)
    (plainDomainSubdomains : Bool) (acc : List StoredRule × BulkSummary) (line : Str × ℕ) :
    List StoredRule × BulkSummary :=
  if strip line.1 = [] then acc
  else
    let inserted := insertRules sourceSystem comment enabled acc.1
      (parseRules d plainDomainSubdomains line.1)
    let summary := { acc.2 with
      lines := acc.2.lines ++ [⟨line.2 + 1, strip line.1, inserted.2⟩] }
    (inserted.1, inserted.2.foldl (BulkSummary.count enabled) summary)

/-- `add_rules_bulk`. -/
def addRulesBulk (d : ParserData) (text sourceSystem comment : Str) (enabled : Bool)
    (plainDomainSubdomains : Bool) (rows : List StoredRule) : List StoredRule × BulkSummary :=
  (splitlines text).zipIdx.foldl
    (bulkLine d sourceSystem comment enabled plainDomainSubdomains) (rows, {})

/-- A call that adds enabled rules. -/
structure AddCall where
  bulk : Bool
  text : Str
  sourceSystem : Str
  comment : Str
  plainDomainSubdomains : Bool

/-- The table after a call. -/
def addCall (d : ParserData) (rows : List StoredRule) (call : AddCall) : List StoredRule :=
  if call.bulk then
    (addRulesBulk d call.text call.sourceSystem call.comment true call.plainDomainSubdomains rows).1
  else (addRule d call.text call.sourceSystem call.comment true call.plainDomainSubdomains rows).1

/-! ## A call as a list of insertions -/

/-- One call of `_insert_rule` for an enabled rule. -/
structure Insertion where
  rule : WellFormedRule
  sourceSystem : Str
  comment : Str

/-- The table after an insertion. -/
def insertOne (rows : List StoredRule) (i : Insertion) : List StoredRule :=
  (insertRule i.sourceSystem i.comment true rows i.rule).1

/-- The insertions of a call, in order. -/
def AddCall.insertions (d : ParserData) (call : AddCall) : List Insertion :=
  (if call.bulk then (splitlines call.text).flatMap (parseRules d call.plainDomainSubdomains)
    else parseRules d call.plainDomainSubdomains call.text).map
    fun rule => ⟨rule, call.sourceSystem, call.comment⟩

theorem insertRules_fst (sourceSystem comment : Str) (rows : List StoredRule)
    (rules : List WellFormedRule) : (insertRules sourceSystem comment true rows rules).1
      = (rules.map fun rule => (⟨rule, sourceSystem, comment⟩ : Insertion)).foldl insertOne rows := by
  have h : ∀ (rules : List WellFormedRule) (acc : List StoredRule × List InsertResult),
      (rules.foldl (fun acc rule =>
        let inserted := insertRule sourceSystem comment true acc.1 rule
        (inserted.1, acc.2 ++ [inserted.2])) acc).1
      = (rules.map fun rule => (⟨rule, sourceSystem, comment⟩ : Insertion)).foldl insertOne
          acc.1 := by
    intro rules
    induction rules with
    | nil => exact fun _ => rfl
    | cons rule rules ih => exact fun acc => ih _
  exact h rules (rows, [])

theorem parseRules_of_blank (d : ParserData) (plain : Bool) {line : Str} (h : strip line = []) :
    parseRules d plain line = [] := by
  have hnil : parseRule d plain line = [] := by simp [parseRule, h]
  rw [parseRules, ← List.length_eq_zero_iff, List.length_attachWith, hnil]
  rfl

theorem addRulesBulk_fst (d : ParserData) (text sourceSystem comment : Str) (plain : Bool)
    (rows : List StoredRule) :
    (addRulesBulk d text sourceSystem comment true plain rows).1
      = (((splitlines text).flatMap (parseRules d plain)).map
          fun rule => (⟨rule, sourceSystem, comment⟩ : Insertion)).foldl insertOne rows := by
  have h : ∀ (lines : List Str) (n : ℕ) (acc : List StoredRule × BulkSummary),
      ((lines.zipIdx n).foldl (bulkLine d sourceSystem comment true plain) acc).1
        = ((lines.flatMap (parseRules d plain)).map
          fun rule => (⟨rule, sourceSystem, comment⟩ : Insertion)).foldl insertOne acc.1 := by
    intro lines
    induction lines with
    | nil => exact fun _ _ => rfl
    | cons line lines ih =>
        intro n acc
        have hline : (bulkLine d sourceSystem comment true plain acc (line, n)).1
            = ((parseRules d plain line).map
              fun rule => (⟨rule, sourceSystem, comment⟩ : Insertion)).foldl insertOne acc.1 := by
          unfold bulkLine
          split_ifs with hblank
          · rw [parseRules_of_blank d plain hblank]
            rfl
          · exact insertRules_fst _ _ _ _
        rw [List.zipIdx_cons, List.foldl_cons, ih, hline, List.flatMap_cons, List.map_append,
          List.foldl_append]
  exact h (splitlines text) 0 (rows, {})

/-- A call makes its insertions in order. -/
theorem addCall_eq (d : ParserData) (rows : List StoredRule) (call : AddCall) :
    addCall d rows call = (call.insertions d).foldl insertOne rows := by
  unfold addCall AddCall.insertions
  split_ifs
  · exact addRulesBulk_fst _ _ _ _ _ _
  · exact insertRules_fst _ _ _ _

/-- **A sequence of calls makes the insertions of all of them in order.** -/
theorem addCalls_eq (d : ParserData) (calls : List AddCall) (rows : List StoredRule) :
    calls.foldl (addCall d) rows = (calls.flatMap (·.insertions d)).foldl insertOne rows := by
  induction calls generalizing rows with
  | nil => rfl
  | cons call calls ih =>
      rw [List.foldl_cons, ih, addCall_eq, List.flatMap_cons, List.foldl_append]

theorem insertions_parsed {d : ParserData} {calls : List AddCall} {i : Insertion}
    (h : i ∈ calls.flatMap (·.insertions d)) : i.rule.1.Parsed := by
  have hparse : ∀ {plain : Bool} {text : Str} {rule : WellFormedRule},
      rule ∈ parseRules d plain text → rule.1.Parsed := by
    intro plain text rule hr
    have hmem : rule.1 ∈ (parseRules d plain text).map Subtype.val := List.mem_map_of_mem hr
    rw [parseRules, List.attachWith_map_subtype_val] at hmem
    exact parseRule_parsed d plain text rule.1 hmem
  obtain ⟨call, -, hi⟩ := List.mem_flatMap.mp h
  obtain ⟨rule, hrule, rfl⟩ := List.mem_map.mp hi
  split_ifs at hrule
  · obtain ⟨line, -, hline⟩ := List.mem_flatMap.mp hrule
    exact hparse hline
  · exact hparse hrule

/-! ## What the table holds -/

/-- Two rules `_insert_rule` takes for the same. -/
def sameKey (r s : ParsedRule) : Bool := s.normalized = r.normalized && s.action = r.action

/-- A rule without the comment, which the caller may fill in. -/
def ParsedRule.core (r : ParsedRule) : ParsedRule := { r with comment := [] }

/-- Keep a rule unless one with its key is kept already. -/
def keepFirst (kept : List ParsedRule) (r : ParsedRule) : List ParsedRule :=
  if kept.any (sameKey r) then kept else kept ++ [r]

/-- The first rule of each key. -/
def firsts (rules : List ParsedRule) : List ParsedRule := rules.foldl keepFirst []

/-- The table holds the rules `kept`, and the valid ones are enabled. -/
structure Holds (rows : List StoredRule) (kept : List ParsedRule) : Prop where
  core : rows.map (·.toParsedRule.core) = kept.map (·.core)
  enabled : ∀ row ∈ rows, row.enabled = decide (row.validationState = .valid)

theorem sameKey_core (r s : ParsedRule) : sameKey r s.core = sameKey r s := rfl

theorem any_sameKey_eq {rows : List StoredRule} {kept : List ParsedRule} (h : Holds rows kept)
    (r : ParsedRule) : (rows.any fun row => sameKey r row.toParsedRule) = kept.any (sameKey r) := by
  have := congrArg (List.any · (sameKey r)) h.core
  simpa [List.any_map, Function.comp_def, sameKey_core] using this

theorem findDuplicate_eq (rows : List StoredRule) (r : ParsedRule) :
    findDuplicate rows r.normalized r.action = rows.find? fun row => sameKey r row.toParsedRule :=
  rfl

/-- An insertion keeps the table in step with the list of first rules. -/
theorem Holds.insertOne {rows : List StoredRule} {kept : List ParsedRule} (h : Holds rows kept)
    (i : Insertion) : Holds (insertOne rows i) (keepFirst kept i.rule.1) := by
  have hany := any_sameKey_eq h i.rule.1
  unfold AlderpointDNS.insertOne insertRule keepFirst
  rw [findDuplicate_eq]
  cases hfind : rows.find? fun row => sameKey i.rule.1 row.toParsedRule with
  | some existing =>
      have hex : (rows.any fun row => sameKey i.rule.1 row.toParsedRule) = true :=
        List.any_eq_true.mpr ⟨existing, List.mem_of_find?_eq_some hfind, by
          simpa using List.find?_some hfind⟩
      rw [← hany, hex]
      exact h
  | none =>
      have hex : (rows.any fun row => sameKey i.rule.1 row.toParsedRule) = false := by
        rw [List.any_eq_false]
        exact List.find?_eq_none.mp hfind
      rw [← hany, hex]
      refine ⟨?_, ?_⟩
      · simp only [List.map_append, h.core, Bool.false_eq_true, if_false]
        rfl
      · intro row hrow
        rcases List.mem_append.mp hrow with hrow | hrow
        · exact h.enabled row hrow
        · rw [List.mem_singleton.mp hrow]
          by_cases hv : i.rule.1.validationState = .valid <;> simp [newRow, hv]

/-- **After insertions into an empty table it holds the first rule of each key.** -/
theorem holds_firsts (insertions : List Insertion) :
    Holds (insertions.foldl insertOne []) (firsts (insertions.map (·.rule.1))) := by
  have h : ∀ (l : List Insertion) (rows : List StoredRule) (kept : List ParsedRule),
      Holds rows kept → Holds (l.foldl AlderpointDNS.insertOne rows)
        ((l.map (·.rule.1)).foldl keepFirst kept) := by
    intro l
    induction l with
    | nil => exact fun _ _ h => h
    | cons i l ih => exact fun rows kept h => ih _ _ (h.insertOne i)
  exact h insertions [] [] ⟨rfl, fun _ hrow => by cases hrow⟩

end AlderpointDNS
