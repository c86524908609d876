import AlderpointDNS.Replication.Sections

/-!
# What an apply leaves alone

A flat table without a section is skipped.  An absent settings group, however, counts as an
empty one, so its replicable keys are deleted, and the two client sections are applied together:
when one of them is present, the other counts as empty.

* **`changesOnlyCarried_iff`** — a successful apply leaves every absent section alone exactly
  when the replica has nothing to lose in it.
-/

namespace AlderpointDNS

open Text

/-- Whatever the payload does not carry is the same before and after. -/
structure ChangesOnlyCarried (sections : Sections) (db db' : Database) : Prop where
  tables : ∀ t, sections.tables t = none → db'.tables t = db.tables t
  settings : ∀ g, sections.settings g = none → db'.settings g = db.settings g
  clients : sections.clients = none →
    db'.access.clients = db.access.clients ∧ db'.access.identifiers = db.access.identifiers
  accessRules : sections.accessRules = none → db'.access.accessRules = db.access.accessRules

/-- The replica has no replicable key in an absent group, and no row in the client tables of
which the payload has one section without the other. -/
structure NothingToLose (sections : Sections) (db : Database) : Prop where
  settings : ∀ g, sections.settings g = none → ∀ settings, db.settings g = some settings →
    ∀ key, g.replicable key = true → settings key = none
  clients : sections.clients = none → sections.accessRules ≠ none →
    ∀ clients identifiers, db.access.clients = some clients →
      db.access.identifiers = some identifiers → clients.1 = [] ∧ identifiers.1 = []
  accessRules : sections.accessRules = none → sections.clients ≠ none →
    db.access.clients ≠ none → db.access.identifiers ≠ none →
    ∀ rules, db.access.accessRules = some rules → rules.1 = []

/-- An absent group loses its replicable keys, so it stays when it has none. -/
theorem replaceSettingsSubset_none_eq_iff {g : SettingsGroup} {settings : Settings} :
    replaceSettingsSubset g noSettings settings = settings ↔
      ∀ key, g.replicable key = true → settings key = none := by
  constructor
  · intro h key hkey
    have := congrFun h key
    rw [replaceSettingsSubset, if_pos hkey] at this
    exact this.symm
  · intro h
    funext key
    by_cases hkey : g.replicable key = true
    · rw [replaceSettingsSubset, if_pos hkey, h key hkey]
      rfl
    · rw [replaceSettingsSubset, if_neg hkey]

theorem applySettings_absent_iff {sections : Sections} {settings : SettingsGroup → Option Settings}
    {g : SettingsGroup} (habsent : sections.settings g = none) :
    applySettings sections settings g = settings g ↔
      ∀ old, settings g = some old → ∀ key, g.replicable key = true → old key = none := by
  rw [applySettings, habsent, Option.getD_none]
  cases settings g with
  | none => simp
  | some old =>
      rw [Option.map_some, Option.some.injEq, replaceSettingsSubset_none_eq_iff]
      simp

theorem importClientTables_nil_rules {entries : List ClientEntry} {imported : ClientTables}
    (h : importClientTables entries [] = some imported) : imported.accessRules.1 = [] := by
  unfold importClientTables at h
  rw [Option.bind_eq_bind, Option.bind_eq_some_iff] at h
  obtain ⟨state, -, h⟩ := h
  cases h
  rfl

theorem importClientTables_nil_clients {rules : List RuleEntry} {imported : ClientTables}
    (h : importClientTables [] rules = some imported) :
    imported.clients.1 = [] ∧ imported.identifiers.1 = [] := by
  unfold importClientTables at h
  rw [Option.bind_eq_bind, Option.bind_eq_some_iff] at h
  obtain ⟨state, hstate, h⟩ := h
  rw [Option.bind_eq_bind, Option.bind_eq_some_iff] at h
  obtain ⟨rows, -, h⟩ := h
  cases hstate
  cases h
  exact ⟨rfl, rfl⟩

/-- The client tables after an apply that succeeds. -/
theorem applyClientsAccessSections_cases {clients : Option (List ClientEntry)}
    {accessRules : Option (List RuleEntry)} {access access' : AccessTables}
    (h : applyClientsAccessSections clients accessRules access = some access') :
    access' = access ∧ ((clients = none ∧ accessRules = none) ∨ access.clients = none
        ∨ access.identifiers = none) ∨
    (clients ≠ none ∨ accessRules ≠ none) ∧ access.clients ≠ none ∧ access.identifiers ≠ none ∧
      access.accessRules ≠ none ∧ ∃ imported,
        importClientTables (clients.getD []) (accessRules.getD []) = some imported ∧
        access' = ⟨some imported.clients, some imported.identifiers,
          some imported.accessRules⟩ := by
  unfold applyClientsAccessSections at h
  split_ifs at h with hnone
  · simp only [Bool.and_eq_true, Option.isNone_iff_eq_none] at hnone
    exact Or.inl ⟨(Option.some.inj h).symm, Or.inl hnone⟩
  · have hsome : clients ≠ none ∨ accessRules ≠ none := by
      by_contra hcon
      rw [not_or, not_not, not_not] at hcon
      rw [hcon.1, hcon.2] at hnone
      exact hnone rfl
    split at h
    · rename_i hc hi hr
      obtain ⟨imported, himp, rfl⟩ := Option.map_eq_some_iff.mp h
      exact Or.inr ⟨hsome, by simp [hc], by simp [hi], by simp [hr], imported, himp, rfl⟩
    · cases h
    · rename_i hrule hmissing
      refine Or.inl ⟨(Option.some.inj h).symm, Or.inr ?_⟩
      cases hc : access.clients with
      | none => exact Or.inl rfl
      | some c =>
          cases hi : access.identifiers with
          | none => exact Or.inr rfl
          | some i =>
              cases hr : access.accessRules with
              | none => exact absurd hr (hmissing c i hc hi)
              | some r => exact absurd hr (hrule c i r hc hi)

/-- The client section leaves alone what it does not carry when there is nothing to lose. -/
theorem applyClientsAccessSections_clients_iff {accessRules : Option (List RuleEntry)}
    {access access' : AccessTables}
    (h : applyClientsAccessSections none accessRules access = some access') :
    (access'.clients = access.clients ∧ access'.identifiers = access.identifiers) ↔
      (accessRules ≠ none → ∀ clients identifiers, access.clients = some clients →
        access.identifiers = some identifiers → clients.1 = [] ∧ identifiers.1 = []) := by
  rcases applyClientsAccessSections_cases h with
    ⟨rfl, hwhy⟩ | ⟨hsome, hc, hi, -, imported, himp, rfl⟩
  · refine ⟨fun _ hrules clients identifiers hclients hidentifiers => ?_, fun _ => ⟨rfl, rfl⟩⟩
    rcases hwhy with ⟨-, hnone⟩ | hnone | hnone
    · exact absurd hnone hrules
    · rw [hclients] at hnone
      cases hnone
    · rw [hidentifiers] at hnone
      cases hnone
  · obtain ⟨hnil, hnil'⟩ := importClientTables_nil_clients himp
    obtain ⟨clients, hclients⟩ := Option.ne_none_iff_exists'.mp hc
    obtain ⟨identifiers, hidentifiers⟩ := Option.ne_none_iff_exists'.mp hi
    simp only [hclients, hidentifiers, Option.some.injEq, Subtype.ext_iff, hnil, hnil']
    constructor
    · rintro ⟨h1, h2⟩ - _ _ hc hi
      exact ⟨hc ▸ h1.symm, hi ▸ h2.symm⟩
    · intro hlose
      have := hlose (hsome.resolve_left fun hne => hne rfl) clients identifiers rfl rfl
      exact ⟨this.1.symm, this.2.symm⟩

theorem applyClientsAccessSections_rules_iff {clients : Option (List ClientEntry)}
    {access access' : AccessTables}
    (h : applyClientsAccessSections clients none access = some access') :
    access'.accessRules = access.accessRules ↔
      (clients ≠ none → access.clients ≠ none → access.identifiers ≠ none →
        ∀ rules, access.accessRules = some rules → rules.1 = []) := by
  rcases applyClientsAccessSections_cases h with
    ⟨rfl, hwhy⟩ | ⟨hsome, hc, hi, hr, imported, himp, rfl⟩
  · refine ⟨fun _ hne hc hi => ?_, fun _ => rfl⟩
    rcases hwhy with ⟨hnone, -⟩ | hnone | hnone
    · exact absurd hnone hne
    · exact absurd hnone hc
    · exact absurd hnone hi
  · have hnil := importClientTables_nil_rules himp
    obtain ⟨rules, hrules⟩ := Option.ne_none_iff_exists'.mp hr
    simp only [hrules, Option.some.injEq, Subtype.ext_iff, hnil]
    constructor
    · rintro h1 - - - _ hr
      exact hr ▸ h1.symm
    · intro hlose
      exact (hlose (hsome.resolve_right fun hne => hne rfl) hc hi rules rfl).symm

/-- **An apply leaves absent sections alone exactly when nothing is there to lose.** -/
theorem changesOnlyCarried_iff {sections : Sections} {db db' : Database}
    (h : applySections sections db = some db') :
    ChangesOnlyCarried sections db db' ↔ NothingToLose sections db := by
  obtain ⟨htables, hsettings, haccess⟩ := writeSections_eq_some.mp h
  have hgroup : ∀ g, sections.settings g = none → (db'.settings g = db.settings g ↔
      ∀ old, db.settings g = some old → ∀ key, g.replicable key = true → old key = none) := by
    intro g habsent
    rw [hsettings]
    exact applySettings_absent_iff habsent
  constructor
  · rintro ⟨-, hframe, hclients, hrules⟩
    refine ⟨fun g habsent => (hgroup g habsent).mp (hframe g habsent), fun habsent => ?_,
      fun habsent => ?_⟩
    · rw [habsent] at haccess
      exact (applyClientsAccessSections_clients_iff haccess).mp (hclients habsent)
    · rw [habsent] at haccess
      exact (applyClientsAccessSections_rules_iff haccess).mp (hrules habsent)
  · rintro ⟨hframe, hclients, hrules⟩
    refine ⟨fun t habsent => applyTable_absent habsent (htables t),
      fun g habsent => (hgroup g habsent).mpr (hframe g habsent), fun habsent => ?_,
      fun habsent => ?_⟩
    · rw [habsent] at haccess
      exact (applyClientsAccessSections_clients_iff haccess).mpr (hclients habsent)
    · rw [habsent] at haccess
      exact (applyClientsAccessSections_rules_iff haccess).mpr (hrules habsent)

/-! ### A generation without encryption settings

The primary leaves encryption settings out by default. -/

/-- A node on which only the encryption settings exist. -/
def dohNode : Database where
  tables _ := none
  settings
    | .encryption => some fun key => if key = "doh_enabled".toList then some ['1'] else none
    | _ => none
  access := ⟨none, none, none⟩

/-- The payload of a primary like it: no section at all. -/
def emptyPayload : Sections where
  tables _ := none
  settings _ := none
  clients := none
  accessRules := none

theorem applySections_emptyPayload : applySections emptyPayload dohNode = some
    ⟨dohNode.tables, applySettings emptyPayload dohNode.settings, dohNode.access⟩ :=
  writeSections_eq_some.mpr ⟨fun _ => rfl, rfl, rfl⟩

/-- `changesOnlyCarried_iff` at this node. -/
theorem changesOnlyCarried_iff_dohNode :
    ChangesOnlyCarried emptyPayload dohNode
        ⟨dohNode.tables, applySettings emptyPayload dohNode.settings, dohNode.access⟩ ↔
      NothingToLose emptyPayload dohNode :=
  changesOnlyCarried_iff applySections_emptyPayload

theorem buildPayload_dohNode : buildPayload false dohNode = some emptyPayload := by
  have hsettings : (fun g => if g = SettingsGroup.encryption && !false then none
      else (dohNode.settings g).map (selectSettings g)) = emptyPayload.settings := by
    funext g
    cases g <;> rfl
  exact congrArg (fun settings => some { emptyPayload with settings := settings }) hsettings

/-- The replica forgets that DoH is on. -/
theorem encryption_settings_lost : ∃ db', buildPayload false dohNode = some emptyPayload ∧
    applySections emptyPayload dohNode = some db' ∧ emptyPayload.settings .encryption = none ∧
    (dohNode.settings .encryption).bind (· "doh_enabled".toList) = some ['1'] ∧
    (db'.settings .encryption).bind (· "doh_enabled".toList) = none ∧
    ¬ ChangesOnlyCarried emptyPayload dohNode db' := by
  refine ⟨_, buildPayload_dohNode, applySections_emptyPayload, rfl, by decide +kernel,
    by decide +kernel, fun h => ?_⟩
  have hframe := h.settings .encryption rfl
  have hlost := congrArg (fun settings => settings.bind (· "doh_enabled".toList)) hframe
  exact absurd hlost (by decide +kernel)

end AlderpointDNS
