import AlderpointDNS.Replication.Tables

/-!
# Building, applying and restoring sections

`Database` holds the replicated tables of a node, each of which may be missing, and `Sections`
the payload of a generation.  `buildPayload` reads the one into the other, `applySections`
overwrites a replica with it, and `snapshotReplicableTables` and `restoreSnapshot` are the two
halves of a rollback.  An exception inside `applySections` is `none`: the caller's
`db.rollback()` then leaves the database as it was.

* **`writeSections_eq_some`** — what a successful apply does to each table and settings group.
* `restoreSnapshot_spec` — a restore succeeds, brings back tables and settings, and leaves the
  client tables alone.
-/

namespace AlderpointDNS

open Text

/-- The tables of `clients.py`; `none` is a missing table. -/
structure AccessTables where
  clients : Option ClientRows
  identifiers : Option IdentifierRows
  accessRules : Option RuleRows

/-- What replication reads and writes of a node's database. -/
structure Database where
  tables : (t : Table) → Option (TableRows t)
  settings : SettingsGroup → Option Settings
  access : AccessTables

/-- `sections`.  A row that an `INSERT` rejects on its own is `none`. -/
structure Sections where
  tables : (t : Table) → Option (List (Option (Row t)))
  settings : SettingsGroup → Option Settings
  clients : Option (List ClientEntry)
  accessRules : Option (List RuleEntry)

/-- `{}`. -/
def noSettings : Settings := fun _ => none

/-! ## `build_payload` -/

/-- The table part of a payload. -/
def selectTables (db : Database) : (t : Table) → Option (List (Option (Row t))) := fun t =>
  (db.tables t).map fun rows => rows.1.map some

/-- `sections["clients"]`. -/
def AccessTables.clientsSection (access : AccessTables) : Option (List ClientEntry) :=
  match access.clients, access.identifiers with
  | some clients, some identifiers => some (buildClientsSection clients identifiers)
  | _, _ => none

/-- `sections["client_access_rules"]`. -/
def AccessTables.accessRulesSection (access : AccessTables) : Option (List RuleEntry) :=
  match access.clients, access.accessRules with
  | some clients, some rules => some (buildAccessRulesSection clients rules)
  | _, _ => none

/-- `build_payload`.  Reading the access rules joins `clients` and fails without it. -/
def buildPayload (includeEncryption : Bool) (db : Database) : Option Sections :=
  if db.access.accessRules.isSome && db.access.clients.isNone then none
  else some
    { tables := selectTables db
      settings := fun g =>
        if g = .encryption && !includeEncryption then none
        else (db.settings g).map (selectSettings g)
      clients := db.access.clientsSection
      accessRules := db.access.accessRulesSection }

/-! ## `_apply_sections` -/

/-- One round of the loop over `REPLICABLE_TABLES`: the table after it. -/
def applyTable (sections : Sections) (t : Table) (old : Option (TableRows t)) :
    Option (Option (TableRows t)) :=
  match sections.tables t, old with
  | some rows, some _ => (LegalRows.replace rows).map some
  | _, old => some old

/-- The loop over `REPLICABLE_TABLES`. -/
def applyTables (sections : Sections) (tables : (t : Table) → Option (TableRows t)) :
    Option ((t : Table) → Option (TableRows t)) :=
  replicableTables.foldlM
    (fun tables t => (applyTable sections t (tables t)).map (Function.update tables t)) tables

/-- The three calls of `_replace_settings_subset`; an absent section counts as `{}`. -/
def applySettings (sections : Sections) (settings : SettingsGroup → Option Settings) :
    SettingsGroup → Option Settings := fun g =>
  (settings g).map (replaceSettingsSubset g ((sections.settings g).getD noSettings))

/-- `_apply_clients_access_sections`. -/
def applyClientsAccessSections (clients : Option (List ClientEntry))
    (accessRules : Option (List RuleEntry)) (access : AccessTables) : Option AccessTables :=
  if clients.isNone && accessRules.isNone then some access
  else match access.clients, access.identifiers, access.accessRules with
    | some _, some _, some _ =>
        (importClientTables (clients.getD []) (accessRules.getD [])).map fun imported =>
          ⟨some imported.clients, some imported.identifiers, some imported.accessRules⟩
    -- `DELETE FROM access_rules` on a missing table
    | some _, some _, none => none
    | _, _, _ => some access

/-- What `_apply_sections` and `_restore_snapshot` have in common: everything but where the
column list comes from. -/
def writeSections (sections : Sections) (db : Database) : Option Database := do
  let tables ← applyTables sections db.tables
  let access ← applyClientsAccessSections sections.clients sections.accessRules db.access
  return ⟨tables, applySettings sections db.settings, access⟩

/-- `_apply_sections`. -/
def applySections : Sections → Database → Option Database := writeSections

/-! ## `_snapshot_replicable_tables` and `_restore_snapshot` -/

/-- `_snapshot_replicable_tables`: the tables and all three settings groups. -/
def snapshotReplicableTables (db : Database) : Sections where
  tables := selectTables db
  settings := fun g => (db.settings g).map (selectSettings g)
  clients := none
  accessRules := none

/-- `_restore_snapshot`. -/
def restoreSnapshot : Sections → Database → Option Database := writeSections

/-! ## What they do -/

theorem applyTables_eq_some {sections : Sections}
    {tables tables' : (t : Table) → Option (TableRows t)} :
    applyTables sections tables = some tables' ↔
      ∀ t, applyTable sections t (tables t) = some (tables' t) := by
  rw [applyTables, foldlM_update replicableTables_nodup]
  simp only [mem_replicableTables, if_true]

/-- **What a write does**, table by table and group by group. -/
theorem writeSections_eq_some {sections : Sections} {db db' : Database} :
    writeSections sections db = some db' ↔
      (∀ t, applyTable sections t (db.tables t) = some (db'.tables t)) ∧
      db'.settings = applySettings sections db.settings ∧
      applyClientsAccessSections sections.clients sections.accessRules db.access
        = some db'.access := by
  rw [← applyTables_eq_some]
  unfold writeSections
  constructor
  · intro h
    rw [Option.bind_eq_bind, Option.bind_eq_some_iff] at h
    obtain ⟨tables, htables, h⟩ := h
    rw [Option.bind_eq_bind, Option.bind_eq_some_iff] at h
    obtain ⟨access, haccess, h⟩ := h
    cases h
    exact ⟨htables, rfl, haccess⟩
  · rintro ⟨htables, hsettings, haccess⟩
    rw [htables, haccess]
    simp only [Option.bind_eq_bind, Option.bind_some, Option.pure_def, ← hsettings]

/-- A table of which the payload has no section stays. -/
theorem applyTable_absent {sections : Sections} {t : Table} {old new : Option (TableRows t)}
    (habsent : sections.tables t = none) (h : applyTable sections t old = some new) :
    new = old := by
  unfold applyTable at h
  rw [habsent] at h
  exact (Option.some.inj h).symm

/-- A table of which the payload has a section then has its rows. -/
theorem applyTable_carried {sections : Sections} {t : Table} {rows : List (Option (Row t))}
    {old : TableRows t} {new : Option (TableRows t)} (hrows : sections.tables t = some rows)
    (h : applyTable sections t (some old) = some new) :
    ∃ table, new = some table ∧ table.1.map some = rows := by
  unfold applyTable at h
  rw [hrows] at h
  obtain ⟨table, htable, rfl⟩ := Option.map_eq_some_iff.mp h
  exact ⟨table, rfl, (LegalRows.replace_eq_some _ _).mp htable⟩

/-- No table appears or disappears. -/
theorem applyTable_isSome {sections : Sections} {t : Table} {old new : Option (TableRows t)}
    (h : applyTable sections t old = some new) : new.isSome = old.isSome := by
  unfold applyTable at h
  split at h
  · obtain ⟨table, -, rfl⟩ := Option.map_eq_some_iff.mp h
    rfl
  · rw [Option.some.inj h]

/-- Writing back what was read of the same tables succeeds. -/
theorem applyTable_select {sections : Sections} {t : Table} {old now : Option (TableRows t)}
    (hsel : sections.tables t = old.map fun rows => rows.1.map some)
    (hsome : now.isSome = old.isSome) : applyTable sections t now = some old := by
  unfold applyTable
  rw [hsel]
  cases old with
  | none =>
      cases now with
      | none => rfl
      | some rows => cases hsome
  | some rows =>
      cases now with
      | none => cases hsome
      | some rows' => exact congrArg (Option.map some) (LegalRows.replace_rows rows)

/-- **A restore brings back the tables and settings**, and leaves the client tables alone. -/
theorem restoreSnapshot_spec {sections : Sections} {db db' : Database}
    (h : applySections sections db = some db') :
    restoreSnapshot (snapshotReplicableTables db) db'
      = some ⟨db.tables, db.settings, db'.access⟩ := by
  obtain ⟨htables, hsettings, -⟩ := writeSections_eq_some.mp h
  refine writeSections_eq_some.mpr ⟨fun t => ?_, ?_, rfl⟩
  · exact applyTable_select rfl (applyTable_isSome (htables t))
  · funext g
    rw [hsettings]
    simp only [applySettings, snapshotReplicableTables]
    cases db.settings g with
    | none => rfl
    | some settings =>
        simp only [Option.map_some, Option.getD_some, replaceSettingsSubset_replace,
          replaceSettingsSubset_select]

end AlderpointDNS
