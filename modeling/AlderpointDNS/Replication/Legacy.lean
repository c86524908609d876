import AlderpointDNS.CustomRules.Duplicates
import AlderpointDNS.Lib.Runs
import AlderpointDNS.Lib.Upsert
import AlderpointDNS.Replication.Sections

/-!
# The legacy rule table on a replica

The rules of old versions live in `custom_rules`; `initDb` copies each of them once into
`custom_filter_rules` and marks it as migrated.  Both tables are replicated, the marks are not,
so the first `initDb` after an apply migrates every legacy rule again.

* `migrateLegacyRules_mem` — what a migration adds.
* **`sameActiveRules_iff`** — after any history of the primary the replica has the primary's
  enabled valid rules exactly when each enabled legacy rule still has its rule on the primary.
* `legacyRepresented_step` — which operations keep it so.
-/

namespace AlderpointDNS

open Text Runs

/-! ## `_migrate_legacy_rules` -/

def AllowBlock.ruleAction : AllowBlock → RuleAction
  | .allow => .allow
  | .block => .block

def AllowBlock.ruleType : AllowBlock → RuleType
  | .allow => .allow
  | .block => .block

/-- `text`. -/
def LegacyRow.text (legacy : LegacyRow) : Str :=
  (if legacy.action = .allow then "@@||".toList else "||".toList) ++ legacy.domain ++ "^".toList

/-- A row with this normalized text and action exists, in whatever state. -/
def hasRule (rows : List FilterRow) (normalized : Str) (action : RuleAction) : Bool :=
  rows.any fun row => row.normalized = normalized && row.action = action

/-- The row of a migrated rule; the columns that are not written have their defaults. -/
def migratedRow (now : Str) (legacy : LegacyRow) : FilterRow where
  ruleText := legacy.text
  normalized := legacy.text
  ruleType := legacy.action.ruleType
  action := legacy.action.ruleAction
  domain := some legacy.domain
  matchSubdomains := true
  comment := legacy.comment
  qtypeRestriction := none
  enabled := legacy.enabled
  sourceSystem := "legacy".toList
  createdAt := legacy.createdAt
  updatedAt := now

/-- A filter rule for the legacy rule exists. -/
def LegacyRow.represented (legacy : LegacyRow) (rows : List FilterRow) : Bool :=
  hasRule rows legacy.text legacy.action.ruleAction

/-- One round of the loop. -/
def migrateLegacyRule (now : Str) (rows : List FilterRow) (legacy : LegacyRow) : List FilterRow :=
  if legacy.represented rows then rows else rows ++ [migratedRow now legacy]

/-- The loop of `_migrate_legacy_rules` over the unmarked rows. -/
def migrateLegacyRules (now : Str) (legacies : List LegacyRow) (rows : List FilterRow) :
    List FilterRow :=
  legacies.foldl (migrateLegacyRule now) rows

/-- A legacy rule that has its filter rule is not migrated again. -/
theorem grows_migrateLegacyRule (now : Str) :
    Grows (migrateLegacyRule now) List.length (fun rows legacy => legacy.represented rows = true)
    where
  same _ _ h := if_pos h
  larger rows legacy h := by
    rw [migrateLegacyRule, if_neg h, List.length_append]
    exact Nat.lt_succ_self _

theorem hasRule_append (rows rows' : List FilterRow) (normalized : Str) (action : RuleAction) :
    hasRule (rows ++ rows') normalized action
      = (hasRule rows normalized action || hasRule rows' normalized action) :=
  List.any_append

theorem represented_migratedRow (now : Str) (legacy : LegacyRow) :
    legacy.represented [migratedRow now legacy] = true := by
  simp [LegacyRow.represented, hasRule, migratedRow]

/-- The text and the action determine the domain. -/
theorem text_inj {l l' : LegacyRow} (htext : l.text = l'.text) (haction : l.action = l'.action) :
    l.domain = l'.domain := by
  simp only [LegacyRow.text, haction, List.append_assoc, List.append_cancel_left_eq] at htext
  exact List.append_cancel_right htext

theorem ruleAction_inj {a b : AllowBlock} (h : a.ruleAction = b.ruleAction) : a = b := by
  cases a <;> cases b <;> first | rfl | cases h

/-- `UNIQUE(domain, action)`. -/
def OtherKey (l l' : LegacyRow) : Prop := ¬(l.domain = l'.domain ∧ l.action = l'.action)

/-- The rule of one legacy row represents no other. -/
theorem represented_concat {now : Str} {l l' : LegacyRow} (rows : List FilterRow)
    (h : OtherKey l l') :
    l'.represented (rows ++ [migratedRow now l]) = l'.represented rows := by
  have hother : l'.represented [migratedRow now l] = false := by
    rw [Bool.eq_false_iff]
    intro hrep
    simp only [LegacyRow.represented, hasRule, migratedRow, List.any_cons, List.any_nil,
      Bool.or_false, Bool.and_eq_true, decide_eq_true_eq] at hrep
    have haction := ruleAction_inj hrep.2
    exact h ⟨text_inj hrep.1 haction, haction⟩
  have happend := hasRule_append rows [migratedRow now l] l'.text l'.action.ruleAction
  rw [LegacyRow.represented] at hother ⊢
  rw [happend, hother, Bool.or_false]
  rfl

/-- **What a migration adds**: the rule of each legacy row that no rule represented. -/
theorem migrateLegacyRules_mem (now : Str) {legacies : List LegacyRow}
    (hlegal : legacies.Pairwise OtherKey)
    (rows : List FilterRow) (r : FilterRow) :
    r ∈ migrateLegacyRules now legacies rows ↔
      r ∈ rows ∨ ∃ l ∈ legacies, l.represented rows = false ∧ r = migratedRow now l := by
  induction legacies generalizing rows with
  | nil => simp [migrateLegacyRules]
  | cons l legacies ih =>
      rw [List.pairwise_cons] at hlegal
      rw [migrateLegacyRules, List.foldl_cons]
      rw [show legacies.foldl (migrateLegacyRule now) (migrateLegacyRule now rows l)
        = migrateLegacyRules now legacies (migrateLegacyRule now rows l) from rfl, ih hlegal.2]
      simp only [List.exists_mem_cons_iff]
      unfold migrateLegacyRule
      split_ifs with hrep
      · simp only [hrep, Bool.true_eq_false, false_and, false_or]
      · have hrest : ∀ l' ∈ legacies, l'.represented (rows ++ [migratedRow now l])
            = l'.represented rows := fun l' hl' => represented_concat rows (hlegal.1 l' hl')
        rw [Bool.not_eq_true] at hrep
        simp only [List.mem_append, List.mem_singleton, hrep, true_and, or_assoc]
        refine or_congr_right (or_congr_right (exists_congr fun l' => ?_))
        refine and_congr_right fun hl' => ?_
        rw [hrest l' hl']

/-- A migration leaves no legacy row without a rule, and takes none away. -/
theorem represented_migrate {now : Str} {l : LegacyRow} (legacies : List LegacyRow)
    (rows : List FilterRow) (h : l ∈ legacies ∨ l.represented rows = true) :
    l.represented (migrateLegacyRules now legacies rows) = true := by
  induction legacies generalizing rows with
  | nil => exact h.resolve_left (List.not_mem_nil)
  | cons l₀ legacies ih =>
      refine ih _ ?_
      unfold migrateLegacyRule
      split_ifs with hrep
      · rcases h with h | h
        · rcases List.mem_cons.mp h with rfl | h
          · exact Or.inr hrep
          · exact Or.inl h
        · exact Or.inr h
      · have happend := hasRule_append rows [migratedRow now l₀] l.text l.action.ruleAction
        rcases h with h | h
        · rcases List.mem_cons.mp h with rfl | h
          · refine Or.inr (happend.trans ?_)
            rw [Bool.or_eq_true]
            exact Or.inr (represented_migratedRow now l)
          · exact Or.inl h
        · refine Or.inr (happend.trans ?_)
          rw [Bool.or_eq_true]
          exact Or.inl h

/-! ## A node -/

/-- The database with the rows of one table exchanged. -/
def Database.setTable (db : Database) (t : Table) (rows : TableRows t) : Database :=
  { db with tables := Function.update db.tables t (some rows) }

theorem setTable_self (db : Database) (t : Table) (rows : TableRows t) :
    (db.setTable t rows).tables t = some rows := Function.update_self _ _ _

theorem setTable_of_ne (db : Database) {t t' : Table} (h : t' ≠ t) (rows : TableRows t) :
    (db.setTable t rows).tables t' = db.tables t' := Function.update_of_ne h _ _

/-- No table disappears. -/
theorem setTable_isSome (db : Database) (t t' : Table) (rows : TableRows t)
    (h : (db.tables t').isSome = true) : ((db.setTable t rows).tables t').isSome = true := by
  by_cases ht : t' = t
  · subst ht
    rw [setTable_self]
    rfl
  · rw [setTable_of_ne db ht]
    exact h

/-- A node whose schema has been initialised: both rule tables exist. -/
structure RuleNode where
  db : Database
  migrated : Str → AllowBlock → Bool
  legacyExists : (db.tables .customRules).isSome = true
  rulesExist : (db.tables .customFilterRules).isSome = true

def RuleNode.legacyTable (n : RuleNode) : TableRows .customRules :=
  (n.db.tables .customRules).get n.legacyExists

def RuleNode.legacyRows (n : RuleNode) : List LegacyRow := n.legacyTable.1

def RuleNode.rules (n : RuleNode) : List FilterRow :=
  ((n.db.tables .customFilterRules).get n.rulesExist).1

/-- `enabled=1 AND validation_state='valid'`. -/
def FilterRow.isActive (r : FilterRow) : Bool := r.enabled && r.validationState = .valid

/-- The table of the given filter rules; the table has no uniqueness constraint. -/
def filterTable (rows : List FilterRow) : TableRows .customFilterRules :=
  ⟨rows, List.pairwise_of_forall fun _ _ => rfl⟩

def RuleNode.setTable (n : RuleNode) (t : Table) (rows : TableRows t) : RuleNode where
  db := n.db.setTable t rows
  migrated := n.migrated
  legacyExists := setTable_isSome _ _ _ _ n.legacyExists
  rulesExist := setTable_isSome _ _ _ _ n.rulesExist

def RuleNode.setRules (n : RuleNode) (rows : List FilterRow) : RuleNode :=
  n.setTable .customFilterRules (filterTable rows)

theorem rules_eq {n : RuleNode} {rows : TableRows .customFilterRules}
    (h : n.db.tables .customFilterRules = some rows) : n.rules = rows.1 := by
  simp only [RuleNode.rules, h, Option.get_some]
  rfl

theorem legacyRows_eq {n : RuleNode} {rows : TableRows .customRules}
    (h : n.db.tables .customRules = some rows) : n.legacyRows = rows.1 := by
  simp only [RuleNode.legacyRows, RuleNode.legacyTable, h, Option.get_some]
  rfl

theorem legacyTable_spec (n : RuleNode) : n.db.tables .customRules = some n.legacyTable :=
  (Option.some_get _).symm

@[simp] theorem rules_setRules (n : RuleNode) (rows : List FilterRow) :
    (n.setRules rows).rules = rows := by
  have h : (n.setRules rows).db.tables .customFilterRules = some (filterTable rows) :=
    setTable_self n.db .customFilterRules (filterTable rows)
  exact rules_eq h

@[simp] theorem legacyRows_setRules (n : RuleNode) (rows : List FilterRow) :
    (n.setRules rows).legacyRows = n.legacyRows := by
  have h : (n.setRules rows).db.tables .customRules = some n.legacyTable :=
    (setTable_of_ne n.db (by decide) _).trans (legacyTable_spec n)
  exact legacyRows_eq h

theorem legacyRows_legal (n : RuleNode) : n.legacyRows.Pairwise OtherKey := by
  refine n.legacyTable.2.imp fun {l l'} h heq => ?_
  change (decide (LegacyRow.domain l = LegacyRow.domain l')
    && decide (LegacyRow.action l = LegacyRow.action l')) = false at h
  rw [heq.1, heq.2, decide_eq_true rfl, decide_eq_true rfl] at h
  cases h

/-- `init_db`: the unmarked legacy rows are migrated, then every row is marked. -/
def RuleNode.initDb (now : Str) (n : RuleNode) : RuleNode :=
  { n.setRules (migrateLegacyRules now
      (n.legacyRows.filter fun l => !n.migrated l.domain l.action) n.rules) with
    migrated := fun _ _ => true }

theorem rules_initDb (now : Str) (n : RuleNode) : (n.initDb now).rules
    = migrateLegacyRules now (n.legacyRows.filter fun l => !n.migrated l.domain l.action) n.rules :=
  rules_setRules _ _

theorem legacyRows_initDb (now : Str) (n : RuleNode) : (n.initDb now).legacyRows = n.legacyRows :=
  legacyRows_setRules _ _

/-! ## The administrator's operations -/

/-- The row `_insert_rule` writes. -/
def newFilterRow (now : Str) (rule : ParsedRule) (sourceSystem comment : Str) (enabled : Bool) :
    FilterRow where
  toParsedRule := { rule with comment := orComment rule.comment comment }
  qtypeRestriction := none
  enabled := if rule.validationState ≠ .valid then false
    else if rule.ruleType = .comment then true else enabled
  sourceSystem := sourceSystem
  createdAt := now
  updatedAt := now

/-- `_insert_rule`. -/
def insertFilterRule (now sourceSystem comment : Str) (enabled : Bool) (rows : List FilterRow)
    (rule : ParsedRule) : List FilterRow :=
  if hasRule rows rule.normalized rule.action then rows
  else rows ++ [newFilterRow now rule sourceSystem comment enabled]

/-- The insertions for one rule text. -/
def insertText (d : ParserData) (now sourceSystem comment : Str) (enabled plain : Bool)
    (rows : List FilterRow) (text : Str) : List FilterRow :=
  (parseRule d plain text).foldl (insertFilterRule now sourceSystem comment enabled) rows

/-- `update_rule` on the row at `i`; `none` is an error. -/
def updateFilterRule (d : ParserData) (now : Str) (i : ℕ) (text comment : Str)
    (enabled plain : Bool) (rows : List FilterRow) : Option (List FilterRow) :=
  match rows[i]?, parseRule d plain text with
  | some row, [rule] =>
      if rule.ruleType ≠ .comment ∧ rule.validationState = .valid ∧
          ((rows.findIdx? fun r => r.normalized = rule.normalized && r.action = rule.action).any
            (· ≠ i)) = true then none
      else some (rows.set i
        { toParsedRule := { rule with comment := orComment comment rule.comment }
          qtypeRestriction := none
          enabled := rule.validationState = .valid && enabled
          sourceSystem := row.sourceSystem
          createdAt := row.createdAt
          updatedAt := now })
  | _, _ => none

/-- `set_enabled` on the row at `i`. -/
def setRuleEnabled (now : Str) (i : ℕ) (enabled : Bool) (rows : List FilterRow) :
    Option (List FilterRow) :=
  match rows[i]? with
  | none => none
  | some row =>
      if enabled && row.validationState ≠ .valid then none
      else some (rows.set i { row with enabled := enabled, updatedAt := now })

/-- `toggle_rule` on the row at `i`. -/
def toggleFilterRule (now : Str) (i : ℕ) (rows : List FilterRow) : Option (List FilterRow) :=
  match rows[i]? with
  | none => none
  | some row => setRuleEnabled now i (!row.enabled) rows

/-- The filter rules after `protection_toggle`. -/
def toggleProtectionRow (enable : Bool) (row : FilterRow) : FilterRow :=
  if enable then
    if row.validationState = .valid then { row with enabled := true } else row
  else { row with enabled := false }

/-- `UPDATE sources SET enabled=?`. -/
def RuleNode.toggleSources (enable : Bool) (n : RuleNode) : RuleNode :=
  match n.db.tables .sources with
  | none => n
  | some sources => n.setTable .sources
      (sources.map (fun (r : SourceRow) => { r with enabled := enable }) fun _ _ => rfl)

/-- `UPDATE custom_rules SET enabled=?`. -/
def RuleNode.toggleLegacy (enable : Bool) (n : RuleNode) : RuleNode :=
  n.setTable .customRules
    (n.legacyTable.map (fun (l : LegacyRow) => { l with enabled := enable }) fun _ _ => rfl)

/-- `protection_toggle`. -/
def RuleNode.protectionToggle (enable : Bool) (n : RuleNode) : RuleNode :=
  ((n.toggleSources enable).toggleLegacy enable).setRules
    (n.rules.map (toggleProtectionRow enable))

/-- What happens on a primary.  A rule is addressed by its position instead of its id, and the
bulk operations are sequences of the single ones. -/
inductive AdminAction where
  | initDb (now : Str)
  | addRule (now text sourceSystem comment : Str) (enabled plain : Bool)
  | addRulesBulk (now text sourceSystem comment : Str) (enabled plain : Bool)
  | updateRule (now : Str) (i : ℕ) (text comment : Str) (enabled plain : Bool)
  | setEnabled (now : Str) (i : ℕ) (enabled : Bool)
  | toggleRule (now : Str) (i : ℕ)
  | deleteRule (now : Str) (i : ℕ)
  | protectionToggle (enable : Bool)

/-- One operation; each function of `custom_rules` starts with `init_db`. -/
def adminStep (d : ParserData) (n : RuleNode) : AdminAction → Option RuleNode
  | .initDb now => some (n.initDb now)
  | .addRule now text sourceSystem comment enabled plain =>
      let n := n.initDb now
      some (n.setRules (insertText d now sourceSystem comment enabled plain n.rules text))
  | .addRulesBulk now text sourceSystem comment enabled plain =>
      let n := n.initDb now
      some (n.setRules (((splitlines text).filter (strip · ≠ [])).foldl
        (insertText d now sourceSystem comment enabled plain) n.rules))
  | .updateRule now i text comment enabled plain =>
      let n := n.initDb now
      (updateFilterRule d now i text comment enabled plain n.rules).map n.setRules
  | .setEnabled now i enabled =>
      let n := n.initDb now
      (setRuleEnabled now i enabled n.rules).map n.setRules
  | .toggleRule now i =>
      let n := n.initDb now
      (toggleFilterRule now i n.rules).map n.setRules
  | .deleteRule now i =>
      let n := n.initDb now
      some (n.setRules (n.rules.eraseIdx i))
  | .protectionToggle enable => some (n.protectionToggle enable)

/-! ## Replication -/

/-- `_apply_sections` on a node.  `DELETE` and `INSERT` leave no mark on a legacy row. -/
def RuleNode.apply (sections : Sections) (n : RuleNode) : Option RuleNode :=
  match h : applySections sections n.db with
  | none => none
  | some db => some
      { db := db
        migrated :=
          if (sections.tables .customRules).isSome then fun _ _ => false else n.migrated
        legacyExists := by
          rw [applyTable_isSome ((writeSections_eq_some.mp h).1 .customRules)]
          exact n.legacyExists
        rulesExist := by
          rw [applyTable_isSome ((writeSections_eq_some.mp h).1 .customFilterRules)]
          exact n.rulesExist }

/-- The replica after it applies a generation of the primary and then initialises its schema. -/
def RuleNode.replicate (includeEncryption : Bool) (now : Str) (primary replica : RuleNode) :
    Option RuleNode :=
  (buildPayload includeEncryption primary.db).bind fun sections =>
    (replica.apply sections).map (RuleNode.initDb now)

theorem apply_spec {sections : Sections} {n n' : RuleNode} (h : n.apply sections = some n') :
    applySections sections n.db = some n'.db ∧ n'.migrated
      = if (sections.tables .customRules).isSome then fun _ _ => false else n.migrated := by
  unfold RuleNode.apply at h
  split at h
  · cases h
  · rename_i db happly
    cases h
    exact ⟨happly, rfl⟩

/-- A carried table is copied row by row. -/
theorem tables_apply {includeEncryption : Bool} {db db' replica : Database} {sections : Sections}
    (hbuild : buildPayload includeEncryption db = some sections)
    (happly : applySections sections replica = some db') {t : Table}
    (ht : (db.tables t).isSome = true) (ht' : (replica.tables t).isSome = true) :
    db'.tables t = db.tables t := by
  obtain ⟨rows, hrows⟩ := Option.isSome_iff_exists.mp ht
  obtain ⟨old, hold⟩ := Option.isSome_iff_exists.mp ht'
  have hsections : sections.tables t = some (rows.1.map some) := by
    unfold buildPayload at hbuild
    split_ifs at hbuild
    cases hbuild
    simp only [selectTables, hrows, Option.map_some]
  have htable := (writeSections_eq_some.mp happly).1 t
  rw [hold] at htable
  obtain ⟨table, htable, hmap⟩ := applyTable_carried hsections htable
  rw [htable, hrows, Option.some.injEq, Subtype.ext_iff]
  exact List.map_injective_iff.mpr (Option.some_injective _) hmap

/-- **The replica's rules** are the primary's after one more migration of all legacy rows. -/
theorem rules_replicate {includeEncryption : Bool} {now : Str} {primary replica replica' : RuleNode}
    (h : primary.replicate includeEncryption now replica = some replica') :
    replica'.rules = migrateLegacyRules now primary.legacyRows primary.rules := by
  obtain ⟨sections, hbuild, h⟩ := Option.bind_eq_some_iff.mp h
  obtain ⟨applied, happly, rfl⟩ := Option.map_eq_some_iff.mp h
  obtain ⟨happly, hmigrated⟩ := apply_spec happly
  have hlegacy := tables_apply hbuild happly primary.legacyExists replica.legacyExists
  have hrules := tables_apply hbuild happly primary.rulesExist replica.rulesExist
  have hcarried : (sections.tables .customRules).isSome = true := by
    unfold buildPayload at hbuild
    split_ifs at hbuild
    cases hbuild
    simpa only [selectTables, Option.isSome_map] using primary.legacyExists
  rw [if_pos hcarried] at hmigrated
  -- no mark survives the apply, so every legacy row is migrated again
  rw [rules_initDb, hmigrated, legacyRows_eq (hlegacy.trans (legacyTable_spec primary)),
    rules_eq (hrules.trans (Option.some_get primary.rulesExist).symm)]
  congr 1
  exact List.filter_true _

/-! ## When the replica has the primary's rules -/

/-- The enabled valid rules are the same. -/
def SameActiveRules (n n' : RuleNode) : Prop :=
  ∀ r, r ∈ n.rules ∧ r.isActive = true ↔ r ∈ n'.rules ∧ r.isActive = true

/-- Every enabled legacy row still has a filter rule with its text and action. -/
def LegacyKept (n : RuleNode) : Prop :=
  ∀ l ∈ n.legacyRows, l.enabled = true → l.represented n.rules = true

/-- Every legacy row has one. -/
def LegacyRepresented (n : RuleNode) : Prop := ∀ l ∈ n.legacyRows, l.represented n.rules = true

theorem represented_of_mem {now : Str} {l : LegacyRow} {rows : List FilterRow}
    (h : migratedRow now l ∈ rows) : l.represented rows = true := by
  rw [LegacyRow.represented, hasRule, List.any_eq_true]
  exact ⟨_, h, by simp [migratedRow]⟩

/-- **The replica has the primary's enabled valid rules exactly when every enabled legacy row
still has its rule on the primary.** -/
theorem sameActiveRules_iff_kept {includeEncryption : Bool} {now : Str}
    {primary replica replica' : RuleNode}
    (h : primary.replicate includeEncryption now replica = some replica') :
    SameActiveRules primary replica' ↔ LegacyKept primary := by
  have hmem := migrateLegacyRules_mem now (legacyRows_legal primary) primary.rules
  rw [← rules_replicate h] at hmem
  constructor
  · intro hsame l hl henabled
    by_contra hrep
    rw [Bool.not_eq_true] at hrep
    have hactive : (migratedRow now l).isActive = true := by
      simp [FilterRow.isActive, migratedRow, henabled]
    have hnew := (hmem _).mpr (Or.inr ⟨l, hl, hrep, rfl⟩)
    have hold := ((hsame _).mpr ⟨hnew, hactive⟩).1
    rw [represented_of_mem hold] at hrep
    cases hrep
  · intro hkept r
    refine and_congr_left fun hactive => ?_
    rw [hmem, or_iff_left]
    rintro ⟨l, hl, hrep, rfl⟩
    have henabled : l.enabled = true := by
      simp only [FilterRow.isActive, migratedRow, Bool.and_eq_true] at hactive
      exact hactive.1
    rw [hkept l hl henabled] at hrep
    cases hrep

/-! ## Which histories keep it so -/

/-- What `represented` reads of a row. -/
def FilterRow.ruleKey (row : FilterRow) : Str × RuleAction := (row.normalized, row.action)

theorem hasRule_iff {rows : List FilterRow} {normalized : Str} {action : RuleAction} :
    hasRule rows normalized action = true ↔ (normalized, action) ∈ rows.map (·.ruleKey) := by
  simp only [hasRule, List.any_eq_true, Bool.and_eq_true, decide_eq_true_eq, List.mem_map,
    FilterRow.ruleKey, Prod.mk.injEq]

/-- A change that leaves the keys of the rows alone leaves every legacy row its rule. -/
theorem represented_of_keys {l : LegacyRow} {rows rows' : List FilterRow}
    (hkeys : rows'.map (·.ruleKey) = rows.map (·.ruleKey)) (h : l.represented rows = true) :
    l.represented rows' = true := by
  rw [LegacyRow.represented, hasRule_iff] at h ⊢
  rw [hkeys]
  exact h

theorem represented_append {l : LegacyRow} {rows : List FilterRow} (rows' : List FilterRow)
    (h : l.represented rows = true) : l.represented (rows ++ rows') = true := by
  refine (hasRule_append rows rows' _ _).trans ?_
  rw [Bool.or_eq_true]
  exact Or.inl h

/-- Additions leave every legacy row its rule. -/
theorem represented_insertText {l : LegacyRow} {d : ParserData} {now sourceSystem comment : Str}
    {enabled plain : Bool} {rows : List FilterRow} (text : Str) (h : l.represented rows = true) :
    l.represented (insertText d now sourceSystem comment enabled plain rows text) = true := by
  unfold insertText
  induction parseRule d plain text generalizing rows with
  | nil => exact h
  | cons rule rules ih =>
      refine ih ?_
      unfold insertFilterRule
      split_ifs
      · exact h
      · exact represented_append _ h

theorem represented_insertTexts {l : LegacyRow} {d : ParserData} {now sourceSystem comment : Str}
    {enabled plain : Bool} {rows : List FilterRow} (texts : List Str)
    (h : l.represented rows = true) :
    l.represented (texts.foldl (insertText d now sourceSystem comment enabled plain) rows)
      = true := by
  induction texts generalizing rows with
  | nil => exact h
  | cons text texts ih => exact ih (represented_insertText text h)

theorem keys_setRuleEnabled {now : Str} {i : ℕ} {enabled : Bool} {rows rows' : List FilterRow}
    (h : setRuleEnabled now i enabled rows = some rows') :
    rows'.map (·.ruleKey) = rows.map (·.ruleKey) := by
  unfold setRuleEnabled at h
  split at h
  · cases h
  · rename_i row hrow
    split_ifs at h
    cases h
    obtain ⟨hi, rfl⟩ := List.getElem?_eq_some_iff.mp hrow
    rw [List.map_set]
    refine List.ext_getElem (by simp) fun j hj hj' => ?_
    rw [List.getElem_set]
    split_ifs with hij
    · subst hij
      rw [List.getElem_map]
      rfl
    · rfl

theorem keys_toggleFilterRule {now : Str} {i : ℕ} {rows rows' : List FilterRow}
    (h : toggleFilterRule now i rows = some rows') :
    rows'.map (·.ruleKey) = rows.map (·.ruleKey) := by
  unfold toggleFilterRule at h
  split at h
  · cases h
  · exact keys_setRuleEnabled h

theorem keys_toggleProtection (enable : Bool) (rows : List FilterRow) :
    (rows.map (toggleProtectionRow enable)).map (·.ruleKey) = rows.map (·.ruleKey) := by
  rw [List.map_map]
  refine List.map_congr_left fun row _ => ?_
  simp only [Function.comp, toggleProtectionRow]
  split_ifs <;> rfl

/-- A deletion or an edit leaves every legacy row a rule. -/
def KeepsLegacyRules (d : ParserData) (n : RuleNode) : AdminAction → Prop
  | .deleteRule now i =>
      ∀ l ∈ n.legacyRows, l.represented ((n.initDb now).rules.eraseIdx i) = true
  | .updateRule now i text comment enabled plain =>
      ∀ rows, updateFilterRule d now i text comment enabled plain (n.initDb now).rules = some rows →
        ∀ l ∈ n.legacyRows, l.represented rows = true
  | _ => True

/-- `init_db` leaves every legacy row a rule; on a node without marks it gives every one a rule. -/
theorem legacyRepresented_initDb (now : Str) {n : RuleNode}
    (h : LegacyRepresented n ∨ ∀ domain action, n.migrated domain action = false) :
    LegacyRepresented (n.initDb now) := by
  intro l hl
  rw [legacyRows_initDb] at hl
  rw [rules_initDb]
  refine represented_migrate _ _ ?_
  rcases h with h | h
  · exact Or.inr (h l hl)
  · refine Or.inl (List.mem_filter.mpr ⟨hl, ?_⟩)
    rw [h]
    rfl

theorem legacyRows_protectionToggle (enable : Bool) (n : RuleNode) :
    (n.protectionToggle enable).legacyRows
      = n.legacyRows.map fun l => { l with enabled := enable } := by
  have hsources : (n.toggleSources enable).db.tables .customRules = some n.legacyTable := by
    unfold RuleNode.toggleSources
    split
    · exact legacyTable_spec n
    · exact (setTable_of_ne n.db (by decide) _).trans (legacyTable_spec n)
  have htable : (n.toggleSources enable).legacyTable = n.legacyTable := by
    have h := legacyTable_spec (n.toggleSources enable)
    rw [hsources] at h
    exact (Option.some.inj h).symm
  rw [RuleNode.protectionToggle, legacyRows_setRules]
  refine (legacyRows_eq (setTable_self _ .customRules _)).trans ?_
  rw [htable]
  rfl

/-- **One operation** that keeps the rules of the legacy rows leaves each of them one. -/
theorem legacyRepresented_step (d : ParserData) (n : RuleNode) (a : AdminAction) (n' : RuleNode)
    (hinv : LegacyRepresented n) (hok : KeepsLegacyRules d n a) (h : adminStep d n a = some n') :
    LegacyRepresented n' := by
  have hinit : ∀ now, ∀ l ∈ n.legacyRows, l.represented (n.initDb now).rules = true := by
    intro now l hl
    refine legacyRepresented_initDb now (Or.inl hinv) l ?_
    rw [legacyRows_initDb]
    exact hl
  have hset : ∀ {now : Str} {rows : List FilterRow},
      (∀ l ∈ n.legacyRows, l.represented rows = true) →
        LegacyRepresented ((n.initDb now).setRules rows) := by
    intro now rows hrows l hl
    rw [legacyRows_setRules, legacyRows_initDb] at hl
    rw [rules_setRules]
    exact hrows l hl
  cases a with
  | initDb now =>
      cases h
      exact legacyRepresented_initDb now (Or.inl hinv)
  | addRule now text sourceSystem comment enabled plain =>
      cases h
      exact hset fun l hl => represented_insertText text (hinit now l hl)
  | addRulesBulk now text sourceSystem comment enabled plain =>
      cases h
      exact hset fun l hl => represented_insertTexts _ (hinit now l hl)
  | updateRule now i text comment enabled plain =>
      obtain ⟨rows, hrows, rfl⟩ := Option.map_eq_some_iff.mp h
      exact hset (hok rows hrows)
  | setEnabled now i enabled =>
      obtain ⟨rows, hrows, rfl⟩ := Option.map_eq_some_iff.mp h
      exact hset fun l hl => represented_of_keys (keys_setRuleEnabled hrows) (hinit now l hl)
  | toggleRule now i =>
      obtain ⟨rows, hrows, rfl⟩ := Option.map_eq_some_iff.mp h
      exact hset fun l hl => represented_of_keys (keys_toggleFilterRule hrows) (hinit now l hl)
  | deleteRule now i =>
      cases h
      exact hset hok
  | protectionToggle enable =>
      cases h
      intro l hl
      rw [legacyRows_protectionToggle] at hl
      obtain ⟨l₀, hl₀, rfl⟩ := List.mem_map.mp hl
      rw [RuleNode.protectionToggle, rules_setRules]
      -- the text and action of a row do not depend on its flag
      have hkept := represented_of_keys (keys_toggleProtection enable n.rules) (hinv l₀ hl₀)
      exact hkept

/-- A node with one enabled legacy block and the rule migrated from it. -/
def migratedNode : RuleNode :=
  RuleNode.initDb "t".toList
    { db :=
        { tables := fun t => match t with
            | .customRules => some ⟨[⟨"x.com".toList, .block, true, [], "t".toList⟩],
                List.pairwise_singleton _ _⟩
            | _ => some LegalRows.empty
          settings := fun _ => some noSettings
          access := ⟨some LegalRows.empty, some LegalRows.empty, some LegalRows.empty⟩ }
      migrated := fun _ _ => false
      legacyExists := rfl
      rulesExist := rfl }

end AlderpointDNS
