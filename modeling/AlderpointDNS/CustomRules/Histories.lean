import AlderpointDNS.Lib.Pool
import AlderpointDNS.Replication.Legacy

/-!
# The rule table under the administrator

`_insert_rule` looks for a duplicate in whatever state, `update_rule` only when the new rule is
valid and no comment, and a row is enabled in five places.  Rows that block, allow or rewrite have
an action, and the others have none, so that the two kinds never share a key.

* `TableInv`, **`rules_sound`** — in every history a row that is enabled is valid, and of the rows
  with an action there is one for each normalized text, on the primary and on its replicas;
* **`turned_off_is_off`** — a rule that is deleted or disabled is not in force through another row.
-/

namespace AlderpointDNS

open Text Runs

/-! ## Rows -/

/-- Which of the columns `rule_type`, `action` and `validation_state` go together. -/
def ParsedRule.coherent (r : ParsedRule) : Bool :=
  if r.validationState = .valid then
    if r.ruleType = .comment then r.action = .none else r.ruleType ≠ .unsupported && r.action ≠ .none
  else r.ruleType = .unsupported && r.action = .none

structure FilterRow.Sound (row : FilterRow) : Prop where
  coherent : row.coherent = true
  valid : row.enabled = true → row.validationState = .valid

/-- What holds of the rows of `custom_filter_rules`. -/
structure TableInv (rows : List FilterRow) : Prop where
  sound : ∀ row ∈ rows, row.Sound
  single : ∀ key, key.2 ≠ .none → (rows.map (·.ruleKey)).count key ≤ 1

theorem coherent_of_parsed {r : ParsedRule} (h : r.Parsed) : r.coherent = true := by
  have hwf := h.wellFormed
  unfold ParsedRule.wellFormed at hwf
  unfold ParsedRule.coherent
  split_ifs at hwf ⊢ with hvalid hcomment
  · rw [hcomment] at hwf
    exact hwf
  · cases htype : r.ruleType <;> rw [htype] at hwf hcomment <;> simp_all
  · exact hwf

theorem TableInv.concat {rows : List FilterRow} {row : FilterRow} (hinv : TableInv rows)
    (hrow : row.Sound) (hnew : hasRule rows row.normalized row.action = false) :
    TableInv (rows ++ [row]) := by
  constructor
  · intro r hr
    rcases List.mem_append.mp hr with hr | hr
    · exact hinv.sound r hr
    · exact List.mem_singleton.mp hr ▸ hrow
  · intro key hkey
    rw [List.map_append, List.count_append, List.map_singleton, List.count_singleton]
    split_ifs with heq
    · have hnot : key ∉ rows.map (·.ruleKey) := by
        rw [← eq_of_beq heq, FilterRow.ruleKey, ← hasRule_iff, hnew]
        exact Bool.false_ne_true
      rw [List.count_eq_zero.mpr hnot]
    · exact hinv.single key hkey

theorem count_keys (rows : List FilterRow) (key : Str × RuleAction) :
    (rows.map (·.ruleKey)).count key = rows.countP fun row => row.ruleKey = key := by
  rw [List.count_eq_countP, List.countP_map]
  exact List.countP_congr fun row _ => by simp

/-- Rows that change, each under its key. -/
theorem TableInv.of_keys {rows rows' : List FilterRow} (hinv : TableInv rows)
    (hkeys : rows'.map (·.ruleKey) = rows.map (·.ruleKey)) (hsound : ∀ row ∈ rows', row.Sound) :
    TableInv rows' :=
  ⟨hsound, fun key hkey => hkeys ▸ hinv.single key hkey⟩

/-! ## The operations -/

theorem tableInv_insertFilterRule {now sourceSystem comment : Str} {enabled : Bool}
    {rows : List FilterRow} {rule : ParsedRule} (hinv : TableInv rows) (hrule : rule.Parsed) :
    TableInv (insertFilterRule now sourceSystem comment enabled rows rule) := by
  unfold insertFilterRule
  split_ifs with hdup
  · exact hinv
  · rw [Bool.not_eq_true] at hdup
    have hcoherent : rule.coherent = true := coherent_of_parsed hrule
    refine hinv.concat ⟨hcoherent, fun henabled => ?_⟩ hdup
    by_contra hvalid
    have hoff : (newFilterRow now rule sourceSystem comment enabled).enabled = false := if_pos hvalid
    rw [hoff] at henabled
    exact Bool.false_ne_true henabled

theorem tableInv_insertText (d : ParserData) {now sourceSystem comment : Str} {enabled plain : Bool}
    {rows : List FilterRow} (text : Str) (hinv : TableInv rows) :
    TableInv (insertText d now sourceSystem comment enabled plain rows text) :=
  List.foldlRecOn _ _ hinv fun _ hinv rule hrule =>
    tableInv_insertFilterRule hinv (parseRule_parsed d plain text rule hrule)

theorem tableInv_insertTexts (d : ParserData) {now sourceSystem comment : Str} {enabled plain : Bool}
    {rows : List FilterRow} (texts : List Str) (hinv : TableInv rows) :
    TableInv (texts.foldl (insertText d now sourceSystem comment enabled plain) rows) :=
  List.foldlRecOn _ _ hinv fun _ hinv text _ => tableInv_insertText d text hinv

theorem tableInv_migrate {now : Str} {rows : List FilterRow} (legacies : List LegacyRow)
    (hinv : TableInv rows) : TableInv (migrateLegacyRules now legacies rows) := by
  refine List.foldlRecOn _ _ hinv fun rows hinv legacy _ => ?_
  unfold migrateLegacyRule
  split_ifs with hrep
  · exact hinv
  · refine hinv.concat ⟨?_, fun _ => rfl⟩ (Bool.eq_false_iff.mpr hrep)
    cases haction : legacy.action <;>
      simp [ParsedRule.coherent, migratedRow, haction, AllowBlock.ruleType, AllowBlock.ruleAction]

theorem tableInv_initDb {n : RuleNode} (now : Str) (hinv : TableInv n.rules) :
    TableInv (n.initDb now).rules := by
  rw [rules_initDb]
  exact tableInv_migrate _ hinv

/-- The place of the first row with the key of a rule. -/
def firstRule (rows : List FilterRow) (rule : ParsedRule) : Option ℕ :=
  rows.findIdx? fun r => r.normalized = rule.normalized && r.action = rule.action

/-- A row takes the place of another one, when it has no action or its key is found nowhere else. -/
theorem TableInv.set {rows : List FilterRow} {i : ℕ} {row new : FilterRow} (hinv : TableInv rows)
    (hrow : rows[i]? = some row) (hnew : new.Sound)
    (hfree : new.action ≠ .none → (firstRule rows new.toParsedRule).any (· ≠ i) = false) :
    TableInv (rows.set i new) := by
  constructor
  · intro r hr
    rcases List.mem_or_eq_of_mem_set hr with hr | rfl
    · exact hinv.sound r hr
    · exact hnew
  · intro key hkey
    have hle := hinv.single key hkey
    rw [count_keys] at hle ⊢
    have hset := Pool.countP_set_add (fun r => decide (r.ruleKey = key)) hrow new
    by_cases hold : row.ruleKey = key
    · rw [if_pos (decide_eq_true hold)] at hset
      have hone : (if decide (new.ruleKey = key) = true then 1 else 0) ≤ 1 := by split <;> omega
      omega
    by_cases hsame : new.ruleKey = key
    · subst hsame
      have hnone : rows.countP (fun r => decide (r.ruleKey = new.ruleKey)) = 0 := by
        rw [List.countP_eq_zero]
        intro r hr hmatch
        have hfree := hfree hkey
        cases hfind : firstRule rows new.toParsedRule with
        | none =>
            have hno := List.findIdx?_eq_none_iff.mp hfind r hr
            simp only [FilterRow.ruleKey, Prod.mk.injEq, decide_eq_true_eq] at hmatch
            simp [hmatch] at hno
        | some j =>
            rw [hfind] at hfree
            obtain rfl : j = i := by simpa using hfree
            obtain ⟨hlt, hmatch, -⟩ := List.findIdx?_eq_some_iff_getElem.mp hfind
            rw [(List.getElem?_eq_some_iff.mp hrow).2] at hmatch
            exact hold (by simpa [FilterRow.ruleKey] using hmatch)
      rw [hnone, if_pos (decide_eq_true rfl)] at hset
      omega
    · rw [if_neg (by simpa using hold), if_neg (by simpa using hsame)] at hset
      omega

theorem tableInv_update {d : ParserData} {now text comment : Str} {enabled plain : Bool} {i : ℕ}
    {rows rows' : List FilterRow} (hinv : TableInv rows)
    (h : updateFilterRule d now i text comment enabled plain rows = some rows') :
    TableInv rows' := by
  have hparsed := parseRule_parsed d plain text
  unfold updateFilterRule at h
  split at h
  · rename_i row rule hrow hrule
    rw [hrule] at hparsed
    have hcoherent : rule.coherent = true :=
      coherent_of_parsed (hparsed rule (List.mem_singleton_self rule))
    split_ifs at h with hdup
    cases h
    refine hinv.set hrow ⟨hcoherent, fun henabled => ?_⟩ fun haction => ?_
    · exact of_decide_eq_true (Bool.and_eq_true_iff.mp henabled).1
    · -- a rule with an action is valid and no comment
      rw [ParsedRule.coherent] at hcoherent
      split_ifs at hcoherent with hvalid hcomment
      · exact absurd (of_decide_eq_true hcoherent) haction
      · rw [Bool.eq_false_iff]
        exact fun hfound => hdup ⟨hcomment, hvalid, hfound⟩
      · exact absurd (of_decide_eq_true (Bool.and_eq_true_iff.mp hcoherent).2) haction
  · cases h

theorem tableInv_setEnabled {now : Str} {i : ℕ} {enabled : Bool} {rows rows' : List FilterRow}
    (hinv : TableInv rows) (h : setRuleEnabled now i enabled rows = some rows') :
    TableInv rows' := by
  refine hinv.of_keys (keys_setRuleEnabled h) fun r hr => ?_
  unfold setRuleEnabled at h
  split at h
  · cases h
  · rename_i row hrow
    have hsound := hinv.sound row (List.mem_of_getElem? hrow)
    split_ifs at h with hinvalid
    cases h
    rcases List.mem_or_eq_of_mem_set hr with hr | rfl
    · exact hinv.sound r hr
    · refine ⟨hsound.coherent, ?_⟩
      rintro rfl
      simpa using hinvalid

theorem tableInv_toggle {now : Str} {i : ℕ} {rows rows' : List FilterRow} (hinv : TableInv rows)
    (h : toggleFilterRule now i rows = some rows') : TableInv rows' := by
  unfold toggleFilterRule at h
  split at h
  · cases h
  · exact tableInv_setEnabled hinv h

theorem tableInv_protection (enable : Bool) {rows : List FilterRow} (hinv : TableInv rows) :
    TableInv (rows.map (toggleProtectionRow enable)) := by
  refine hinv.of_keys (keys_toggleProtection enable rows) fun r hr => ?_
  obtain ⟨row, hrow, rfl⟩ := List.mem_map.mp hr
  have hsound := hinv.sound row hrow
  unfold toggleProtectionRow
  split_ifs with henable hvalid
  · exact ⟨hsound.coherent, fun _ => hvalid⟩
  · exact hsound
  · exact ⟨hsound.coherent, nofun⟩

theorem tableInv_delete (i : ℕ) {rows : List FilterRow} (hinv : TableInv rows) :
    TableInv (rows.eraseIdx i) := by
  refine ⟨fun r hr => hinv.sound r (List.mem_of_mem_eraseIdx hr), fun key hkey => ?_⟩
  have hsub : ((rows.eraseIdx i).map (·.ruleKey)).Sublist (rows.map (·.ruleKey)) :=
    (List.eraseIdx_sublist rows i).map _
  exact Nat.le_trans (hsub.count_le key) (hinv.single key hkey)

def RuleNode.Kept (n : RuleNode) : Prop := TableInv n.rules

/-- **One operation.** -/
theorem tableInv_step (d : ParserData) (n : RuleNode) (a : AdminAction) (n' : RuleNode)
    (hinv : n.Kept) (h : adminStep d n a = some n') : n'.Kept := by
  unfold RuleNode.Kept
  have hinit : ∀ now, TableInv (n.initDb now).rules := fun now => tableInv_initDb now hinv
  cases a with
  | initDb now =>
      cases h
      exact hinit now
  | addRule now text sourceSystem comment enabled plain =>
      cases h
      rw [rules_setRules]
      exact tableInv_insertText d text (hinit now)
  | addRulesBulk now text sourceSystem comment enabled plain =>
      cases h
      rw [rules_setRules]
      exact tableInv_insertTexts d _ (hinit now)
  | updateRule now i text comment enabled plain =>
      obtain ⟨rows, hrows, rfl⟩ := Option.map_eq_some_iff.mp h
      rw [rules_setRules]
      exact tableInv_update (hinit now) hrows
  | setEnabled now i enabled =>
      obtain ⟨rows, hrows, rfl⟩ := Option.map_eq_some_iff.mp h
      rw [rules_setRules]
      exact tableInv_setEnabled (hinit now) hrows
  | toggleRule now i =>
      obtain ⟨rows, hrows, rfl⟩ := Option.map_eq_some_iff.mp h
      rw [rules_setRules]
      exact tableInv_toggle (hinit now) hrows
  | deleteRule now i =>
      cases h
      rw [rules_setRules]
      exact tableInv_delete i (hinit now)
  | protectionToggle enable =>
      cases h
      rw [RuleNode.protectionToggle, rules_setRules]
      exact tableInv_protection enable hinv

theorem tableInv_run {d : ParserData} {start n : RuleNode} (hstart : start.rules = [])
    {as : List AdminAction} (hrun : run (adminStep d) start as = some n) : TableInv n.rules := by
  have hinit : start.Kept := by
    rw [RuleNode.Kept, hstart]
    exact ⟨fun _ hr => absurd hr List.not_mem_nil, fun _ _ => Nat.zero_le _⟩
  exact invariant_of_run (tableInv_step d) as start n hinit hrun

/-- **The rules stay sound.**  In every history that starts without rules, on the primary and on
each replica that has applied its generation, a row that is enabled is valid, and no two rows with
an action have the same normalized text and action. -/
theorem rules_sound (d : ParserData) {start primary : RuleNode} (hstart : start.rules = [])
    {as : List AdminAction} (hrun : run (adminStep d) start as = some primary) (n : RuleNode)
    (hn : n = primary ∨ ∃ includeEncryption now replica,
      primary.replicate includeEncryption now replica = some n) :
    (∀ row ∈ n.rules, row.enabled = true → row.validationState = .valid) ∧
      ∀ key, key.2 ≠ .none → n.rules.countP (fun row => row.ruleKey = key) ≤ 1 := by
  have hprimary := tableInv_run hstart hrun
  have hinv : TableInv n.rules := by
    rcases hn with rfl | ⟨includeEncryption, now, replica, hreplicate⟩
    · exact hprimary
    · rw [rules_replicate hreplicate]
      exact tableInv_migrate _ hprimary
  exact ⟨fun row hrow => (hinv.sound row hrow).valid,
    fun key hkey => count_keys n.rules key ▸ hinv.single key hkey⟩

/-! ## Rules that are turned off -/

/-- The operation deletes the row, or disables it. -/
inductive TurnsOff (n : RuleNode) (row : FilterRow) : AdminAction → Prop
  | delete (now : Str) (i : ℕ) (hrow : (n.initDb now).rules[i]? = some row) :
      TurnsOff n row (.deleteRule now i)
  | disable (now : Str) (i : ℕ) (hrow : (n.initDb now).rules[i]? = some row) :
      TurnsOff n row (.setEnabled now i false)
  | toggle (now : Str) (i : ℕ) (hrow : (n.initDb now).rules[i]? = some row)
      (henabled : row.enabled = true) : TurnsOff n row (.toggleRule now i)

/-- The other rows have other keys. -/
theorem TableInv.key_ne {rows : List FilterRow} {i : ℕ} {row r : FilterRow} (hinv : TableInv rows)
    (hrow : rows[i]? = some row) (haction : row.action ≠ .none) (hr : r ∈ rows.eraseIdx i) :
    r.ruleKey ≠ row.ruleKey := by
  obtain ⟨hlt, rfl⟩ := List.getElem?_eq_some_iff.mp hrow
  intro hkey
  have hone := hinv.single rows[i].ruleKey haction
  have hperm := (List.getElem_cons_eraseIdx_perm hlt).map (·.ruleKey)
  rw [← hperm.count_eq, List.map_cons, List.count_cons_self] at hone
  have hpos : 0 < ((rows.eraseIdx i).map (·.ruleKey)).count rows[i].ruleKey :=
    List.count_pos_iff.mpr (hkey ▸ List.mem_map_of_mem hr)
  omega

theorem key_ne_of_disabled {now : Str} {i : ℕ} {rows rows' : List FilterRow} {row : FilterRow}
    (hinv : TableInv rows) (hrow : rows[i]? = some row) (haction : row.action ≠ .none)
    (h : setRuleEnabled now i false rows = some rows') :
    ∀ r ∈ rows', r.isActive = true → r.ruleKey ≠ row.ruleKey := by
  obtain ⟨hlt, -⟩ := List.getElem?_eq_some_iff.mp hrow
  rw [setRuleEnabled, hrow] at h
  cases h
  intro r hr hactive
  rcases List.mem_cons.mp ((List.set_perm_cons_eraseIdx hlt _).subset hr) with rfl | hr
  · cases hactive
  · exact hinv.key_ne hrow haction hr

/-- **A rule that is turned off is off.**  In every history, no row with the normalized text and the
action of a row that has just been deleted or disabled is in force. -/
theorem turned_off_is_off (d : ParserData) {start n n' : RuleNode} (hstart : start.rules = [])
    {as : List AdminAction} (hrun : run (adminStep d) start as = some n) {a : AdminAction}
    {row : FilterRow} (hoff : TurnsOff n row a) (haction : row.action ≠ .none)
    (hstep : adminStep d n a = some n') :
    ∀ r ∈ n'.rules, r.isActive = true → r.ruleKey ≠ row.ruleKey := by
  have hinit : ∀ now, TableInv (n.initDb now).rules :=
    fun now => tableInv_initDb now (tableInv_run hstart hrun)
  cases hoff with
  | delete now i hrow =>
      cases hstep
      rw [rules_setRules]
      exact fun r hr _ => (hinit now).key_ne hrow haction hr
  | disable now i hrow =>
      obtain ⟨rows, hrows, rfl⟩ := Option.map_eq_some_iff.mp hstep
      rw [rules_setRules]
      exact key_ne_of_disabled (hinit now) hrow haction hrows
  | toggle now i hrow henabled =>
      obtain ⟨rows, hrows, rfl⟩ := Option.map_eq_some_iff.mp hstep
      rw [toggleFilterRule, hrow] at hrows
      dsimp only at hrows
      rw [henabled, Bool.not_true] at hrows
      rw [rules_setRules]
      exact key_ne_of_disabled (hinit now) hrow haction hrows

/-! ## One rule -/

/-- A node with empty tables. -/
def freshNode : RuleNode where
  db :=
    { tables := fun _ => some LegalRows.empty
      settings := fun _ => some noSettings
      access := ⟨some LegalRows.empty, some LegalRows.empty, some LegalRows.empty⟩ }
  migrated _ _ := true
  legacyExists := rfl
  rulesExist := rfl

/-- A rule, the same rule once more, and a line that is no rule. -/
def threeLines : List AdminAction :=
  [.addRulesBulk "t".toList "||x.com^\nX.com\n-".toList "manual".toList [] true true]

def blockKey : Str × RuleAction := ("||x.com^".toList, .block)

theorem rules_sound_threeLines :
    ∃ n, run (adminStep asciiParserData) freshNode threeLines = some n ∧ n.rules.length = 2 ∧
      n.rules.countP (fun row => row.ruleKey = blockKey) ≤ 1 := by
  have hlength : (run (adminStep asciiParserData) freshNode threeLines).map (·.rules.length)
      = some 2 := by
    decide +kernel
  obtain ⟨n, hrun, hlength⟩ := Option.map_eq_some_iff.mp hlength
  exact ⟨n, hrun, hlength,
    (rules_sound asciiParserData rfl hrun n (.inl rfl)).2 blockKey (by decide)⟩

theorem turned_off_is_off_deleted :
    ∃ n n', run (adminStep asciiParserData) freshNode threeLines = some n ∧
      adminStep asciiParserData n (.deleteRule "u".toList 0) = some n' ∧
      ∀ r ∈ n'.rules, r.isActive = true → r.ruleKey ≠ blockKey := by
  have hkey : (run (adminStep asciiParserData) freshNode threeLines).map
      (fun n => ((n.initDb "u".toList).rules[0]?).map (·.ruleKey)) = some (some blockKey) := by
    decide +kernel
  obtain ⟨n, hrun, hkey⟩ := Option.map_eq_some_iff.mp hkey
  obtain ⟨row, hrow, hkey⟩ := Option.map_eq_some_iff.mp hkey
  have haction : row.action ≠ .none := by
    rw [show row.action = row.ruleKey.2 from rfl, hkey]
    decide
  exact ⟨n, _, hrun, rfl,
    hkey ▸ turned_off_is_off asciiParserData rfl hrun (.delete _ 0 hrow) haction rfl⟩

end AlderpointDNS
