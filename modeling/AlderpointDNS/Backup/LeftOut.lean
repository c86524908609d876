import AlderpointDNS.Lib.Dict
import AlderpointDNS.Lib.Text
import Mathlib.Data.Char
import Mathlib.Data.List.Lex

/-!
# What an archive leaves out

`sqlite_backup_copy` empties the tables of components that are not selected, and blanks the secrets
of the notification providers when private keys are not.  A restore decides table by table, by
`TABLE_COMPONENT_MAP`, what to take from the archive; `notification_providers` is not in that map,
so its rows come with `sqlite_data`, blank secrets included.

* `mergeTables_spec` — the merge, table by table, with its copying in chunks;
* `restored_lookup` — the database after a restore.
* **`leftOutKept_iff`** — the restores that leave alone what the archive leaves out.
* `secret_blanked` — a provider's secret after the restore of a default backup.

Not modelled: uniqueness and other constraints (an INSERT that they reject fails the restore), and
what other processes write meanwhile.
-/

namespace AlderpointDNS.Backup

open Text

/-! ## Components -/

/-- `COMPONENT_KEYS`. -/
inductive Component where
  | appConfig
  | sqliteData
  | blocklistSourceDefinitions
  | lastDownloadedLists
  | customRules
  | localDnsZones
  | clientAliases
  | dnsdistSourceConfig
  | bindSourceConfig
  | certificates
  | privateKeys
  | userAuthData
  | analyticsHistory
  deriving DecidableEq

/-- A selection, as `validate_components` returns it. -/
abbrev Components := Component → Bool

/-- `COMPONENT_DEFAULTS`. -/
def componentDefaults : Components
  | .privateKeys | .userAuthData | .analyticsHistory => false
  | _ => true

/-- `TABLE_COMPONENT_MAP`. -/
def tableComponentMap : List (Str × Component) :=
  [("sources".toList, .blocklistSourceDefinitions),
    ("custom_rules".toList, .customRules),
    ("custom_filter_rules".toList, .customRules),
    ("local_dns_records".toList, .localDnsZones),
    ("local_dns_settings".toList, .localDnsZones),
    ("client_aliases".toList, .clientAliases),
    ("clients".toList, .clientAliases),
    ("client_identifiers".toList, .clientAliases),
    ("access_settings".toList, .clientAliases),
    ("access_rules".toList, .clientAliases),
    ("admins".toList, .userAuthData),
    ("login_attempts".toList, .userAuthData),
    ("sessions".toList, .userAuthData),
    ("admin_audit_log".toList, .userAuthData),
    ("query_events".toList, .analyticsHistory),
    ("analytics_aggregate_buckets".toList, .analyticsHistory)]

/-- `TABLE_COMPONENT_MAP.get(table, "sqlite_data")`. -/
def gatingComponent (table : Str) : Component :=
  (tableComponentMap.lookup table).getD .sqliteData

/-- `TABLES_EXCLUDED_FROM_RESTORE`. -/
def tablesExcludedFromRestore : List Str :=
  ["backup_history".toList, "restore_history".toList, "backup_requests".toList,
    "backup_settings".toList, "sqlite_sequence".toList]

/-- `effective`: selected, and among the archive's `included_components`. -/
def effectiveComponents (backup restore : Components) : Components := fun key =>
  restore key && backup key

/-! ## Databases -/

inductive SqlValue where
  | null
  | integer (n : ℤ)
  | text (s : Str)
  deriving DecidableEq

abbrev SqlRow := Str → SqlValue

structure SqlTable where
  columns : List Str
  /-- the column defaults -/
  default : SqlRow
  /-- `_integer_pk_column` -/
  primaryKey : Option Str
  rows : List SqlRow

/-- The tables of a database by name. -/
abbrev SqlDatabase := Dict Str SqlTable

def notificationProviders : Str := "notification_providers".toList

def idColumn : Str := "id".toList

def secretColumn : Str := "secret".toList

/-! ## `sqlite_backup_copy` -/

/-- `DELETE FROM` each of the tables that exist. -/
def emptyTables (tables : List Str) (db : SqlDatabase) : SqlDatabase :=
  tables.foldl (fun db table => match db.lookup table with
    | none => db
    | some t => db.insert table { t with rows := [] }) db

/-- `UPDATE notification_providers SET secret=''`, which fails when there is no such column. -/
def blankSecrets (db : SqlDatabase) : Option SqlDatabase :=
  match db.lookup notificationProviders with
  | none => some db
  | some t =>
      if secretColumn ∈ t.columns then
        let rows := t.rows.map fun row => Function.update row secretColumn (.text [])
        some (db.insert notificationProviders { t with rows := rows })
      else none

def analyticsTables : List Str :=
  ["query_events".toList, "analytics_aggregate_buckets".toList]

def authTables : List Str :=
  ["admins".toList, "login_attempts".toList, "sessions".toList, "admin_audit_log".toList]

/-- `sqlite_backup_copy`. -/
def sqliteBackupCopy (includeAnalytics includeAuth includePrivateKeys : Bool) (db : SqlDatabase) :
    Option SqlDatabase :=
  let db := if includeAnalytics then db else emptyTables analyticsTables db
  let db := if includeAuth then db else emptyTables authTables db
  if includePrivateKeys then some db else blankSecrets db

/-- The database of an archive, `none` inside when it has none; `none` is a failed backup. -/
def archiveDatabase (backup : Components) (source : SqlDatabase) : Option (Option SqlDatabase) :=
  if backup .sqliteData then
    (sqliteBackupCopy (backup .analyticsHistory) (backup .userAuthData) (backup .privateKeys)
      source).map some
  else some none

/-! ## `_merge_database` -/

/-- `CHUNK_ROW_THRESHOLD`. -/
def chunkRowThreshold : ℕ := 50000

/-- `CHUNK_SIZE`. -/
def chunkSize : ℤ := 200000

/-- The columns both schemas share. -/
def sharedColumns (target archive : SqlTable) : List Str :=
  target.columns.filter (· ∈ archive.columns)

/-- A row of `INSERT INTO table(shared) SELECT shared`. -/
def insertedRow (target archive : SqlTable) (row : SqlRow) : SqlRow := fun column =>
  if column ∈ sharedColumns target archive then row column else target.default column

/-- The windows of primary keys that are copied one after the other. -/
def windows (start hi : ℤ) : List (ℤ × ℤ) :=
  if start ≤ hi then
    let windowEnd := min (start + chunkSize - 1) hi
    (start, windowEnd) :: windows (windowEnd + 1) hi
  else []
termination_by (hi + 1 - start).toNat
decreasing_by
  have hsize : (0 : ℤ) < chunkSize := by decide
  omega

/-- The value of an `INTEGER PRIMARY KEY`. -/
def SqlRow.key (row : SqlRow) (column : Str) : ℤ :=
  match row column with
  | .integer n => n
  | _ => 0

/-- The rows copied in committed chunks. -/
def copyChunks (column : Str) (rows : List SqlRow) : List SqlRow :=
  match (rows.map (·.key column)).min?, (rows.map (·.key column)).max? with
  | some lo, some hi => (windows lo hi).flatMap fun window =>
      rows.filter fun row => window.1 ≤ row.key column && row.key column ≤ window.2
  | _, _ => []

/-- The rows of a table after its merge; `none` is a failure. -/
def copyRows (target archive : SqlTable) : Option (List SqlRow) :=
  match target.primaryKey with
  | some column =>
      if chunkRowThreshold < archive.rows.length then
        if column ∈ archive.columns then
          let copied := copyChunks column archive.rows
          if copied.length = archive.rows.length then
            some (copied.map (insertedRow target archive))
          else none
        else none
      else some (archive.rows.map (insertedRow target archive))
  | none => some (archive.rows.map (insertedRow target archive))

/-- What the loop does with one table of the archive: `some none` passes it over. -/
def mergedTable (components : Components) (archive : SqlDatabase) (table : Str)
    (target : Option SqlTable) : Option (Option SqlTable) :=
  if table ∈ tablesExcludedFromRestore then some none
  else if components (gatingComponent table) = false then some none
  else match archive.lookup table, target with
    | some source, some target =>
        if sharedColumns target source = [] then some none
        else (copyRows target source).map fun rows => some { target with rows := rows }
    | _, _ => some none

/-- One round of the loop: the working copy and `merged_tables`. -/
def mergeTable (components : Components) (archive : SqlDatabase)
    (state : SqlDatabase × List Str) (table : Str) : Option (SqlDatabase × List Str) :=
  (mergedTable components archive table (state.1.lookup table)).map fun
    | none => state
    | some merged => (state.1.insert table merged, state.2 ++ [table])

/-- `_merge_database`. -/
def mergeDatabase (components : Components) (archive working : SqlDatabase) :
    Option (SqlDatabase × List Str) :=
  (sorted archive.keys).foldlM (mergeTable components archive) (working, [])

/-! ## `restore_backup` -/

/-- `DELETE FROM workingdb.table` and `INSERT INTO workingdb.table SELECT * FROM main.table`. -/
def resyncTable (live working : Option SqlTable) : Option SqlTable :=
  match working, live with
  | some w, some l => some { w with rows := l.rows }
  | w, _ => w

/-- `_resync_live_state_into_working`. -/
def resyncTables (live : SqlDatabase) (merged : List Str) (working : SqlDatabase) : SqlDatabase :=
  (sorted (live.keys.filter fun t => t ∉ merged ∧ t ∈ working.keys)).foldl
    (fun working t => match resyncTable (live.lookup t) (working.lookup t) with
      | some table => working.insert t table
      | none => working) working

/-- The live database after a restore that succeeds. -/
def restoreDatabase (backup restore : Components) (archive : Option SqlDatabase)
    (live : SqlDatabase) : Option SqlDatabase :=
  match archive with
  | none => some live
  | some archive =>
      (mergeDatabase (effectiveComponents backup restore) archive live).map fun merged =>
        if merged.2 = [] then live else resyncTables live merged.2 merged.1

/-! ## The merge -/

/-- Every key between the bounds lies in a window. -/
theorem exists_window {start hi n : ℤ} (hlo : start ≤ n) (hhi : n ≤ hi) :
    ∃ window ∈ windows start hi, window.1 ≤ n ∧ n ≤ window.2 := by
  fun_induction windows start hi with
  | case1 start h windowEnd ih =>
      by_cases hn : n ≤ windowEnd
      · exact ⟨(start, windowEnd), List.mem_cons_self, hlo, hn⟩
      · obtain ⟨window, hwindow, hmem⟩ := ih (by omega)
        exact ⟨window, List.mem_cons_of_mem _ hwindow, hmem⟩
  | case2 start h => omega

/-- No row is left behind by the chunks. -/
theorem mem_copyChunks {column : Str} {rows : List SqlRow} {row : SqlRow} :
    row ∈ copyChunks column rows ↔ row ∈ rows := by
  unfold copyChunks
  cases hmin : (rows.map (·.key column)).min? with
  | none =>
      rw [List.min?_eq_none_iff, List.map_eq_nil_iff] at hmin
      simp [hmin]
  | some lo =>
      cases hmax : (rows.map (·.key column)).max? with
      | none =>
          rw [List.max?_eq_none_iff, List.map_eq_nil_iff] at hmax
          simp [hmax]
      | some hi =>
          simp only [List.mem_flatMap, List.mem_filter, Bool.and_eq_true, decide_eq_true_eq]
          constructor
          · rintro ⟨-, -, hrow, -⟩
            exact hrow
          · intro hrow
            have hkey : row.key column ∈ rows.map (·.key column) := List.mem_map_of_mem hrow
            have hlo := (List.min?_eq_some_iff.mp hmin).2 _ hkey
            have hhi := (List.max?_eq_some_iff.mp hmax).2 _ hkey
            obtain ⟨window, hwindow, hmem⟩ := exists_window hlo hhi
            exact ⟨window, hwindow, hrow, hmem⟩

/-- The rows of a merged table are those of the archive. -/
theorem mem_copyRows {target archive : SqlTable} {rows : List SqlRow}
    (h : copyRows target archive = some rows) (row : SqlRow) :
    row ∈ rows ↔ ∃ source ∈ archive.rows, insertedRow target archive source = row := by
  have hall : ∀ copied : List SqlRow, (∀ r, r ∈ copied ↔ r ∈ archive.rows) →
      (row ∈ copied.map (insertedRow target archive) ↔
        ∃ source ∈ archive.rows, insertedRow target archive source = row) := by
    intro copied hcopied
    simp only [List.mem_map, hcopied]
  unfold copyRows at h
  dsimp only at h
  split at h
  · split_ifs at h
    · cases h
      exact hall _ fun _ => mem_copyChunks
    · cases h
      exact hall _ fun _ => Iff.rfl
  · cases h
    exact hall _ fun _ => Iff.rfl

/-- **The loop over the archive's tables.** -/
theorem mergeTables_spec {components : Components} {archive : SqlDatabase} {names : List Str}
    (hnodup : names.Nodup) {state state' : SqlDatabase × List Str}
    (h : names.foldlM (mergeTable components archive) state = some state') (t : Str) :
    ∃ merged, (if t ∈ names then
        mergedTable components archive t (state.1.lookup t) = some merged else merged = none) ∧
      state'.1.lookup t = merged.or (state.1.lookup t) ∧
      (t ∈ state'.2 ↔ t ∈ state.2 ∨ merged.isSome = true) := by
  induction names generalizing state with
  | nil =>
      cases h
      exact ⟨none, rfl, rfl, by simp⟩
  | cons name names ih =>
      obtain ⟨hname, hnodup⟩ := List.nodup_cons.mp hnodup
      rw [List.foldlM_cons, Option.bind_eq_bind, Option.bind_eq_some_iff] at h
      obtain ⟨next, hnext, h⟩ := h
      obtain ⟨merged₀, hmerged₀, hround⟩ := Option.map_eq_some_iff.mp hnext
      obtain ⟨merged, hmerged, hlookup, hmem⟩ := ih hnodup h
      have hother : t ≠ name → next.1.lookup t = state.1.lookup t ∧ (t ∈ next.2 ↔ t ∈ state.2) := by
        intro hne
        cases merged₀ with
        | none =>
            subst hround
            exact ⟨rfl, Iff.rfl⟩
        | some table =>
            subst hround
            refine ⟨AList.lookup_insert_ne hne, ?_⟩
            simp [hne]
      by_cases ht : t = name
      · subst ht
        rw [if_neg hname] at hmerged
        subst hmerged
        refine ⟨merged₀, by rw [if_pos List.mem_cons_self]; exact hmerged₀, ?_, ?_⟩
        · rw [hlookup, Option.none_or]
          cases merged₀ with
          | none =>
              subst hround
              rfl
          | some table =>
              subst hround
              exact AList.lookup_insert _
        · rw [hmem]
          cases merged₀ with
          | none =>
              subst hround
              simp
          | some table =>
              subst hround
              simp
      · obtain ⟨hsame, hmem'⟩ := hother ht
        refine ⟨merged, ?_, by rw [hlookup, hsame], by rw [hmem, hmem']⟩
        rw [hsame] at hmerged
        simpa [ht] using hmerged

/-- A table that the archive does not have is passed over. -/
theorem mergedTable_of_notMem {components : Components} {archive : SqlDatabase} {t : Str}
    (h : t ∉ archive.keys) (target : Option SqlTable) :
    mergedTable components archive t target = some none := by
  unfold mergedTable
  rw [Dict.lookup_eq_none_of_notMem h]
  split_ifs <;> rfl

/-- The tables that are not merged have their live rows again. -/
theorem lookup_resyncTables (live : SqlDatabase) (merged : List Str) (working : SqlDatabase)
    (t : Str) : (resyncTables live merged working).lookup t =
      if t ∈ merged then working.lookup t else resyncTable (live.lookup t) (working.lookup t) := by
  have hlocal : Local (fun (db : SqlDatabase) t => db.lookup t)
      (fun working t => match resyncTable (live.lookup t) (working.lookup t) with
        | some table => working.insert t table
        | none => working) some (fun t w => resyncTable (live.lookup t) w) := by
    intro db t t'
    simp only [Option.some.injEq]
    cases hround : resyncTable (live.lookup t) (db.lookup t) with
    | none =>
        split_ifs with heq
        · subst heq
          rw [hround]
          unfold resyncTable at hround
          split at hround
          · cases hround
          · exact hround
        · rfl
    | some table =>
        rw [Dict.lookup_insert']
        split_ifs with heq
        · subst heq
          exact hround.symm
        · rfl
  have hview := view_foldl_nodup hlocal (sorted_nodup (live.keys_nodup.filter
    fun t => t ∉ merged ∧ t ∈ working.keys)) t working
  refine hview.trans ?_
  simp only [mem_sorted, List.mem_filter, decide_eq_true_eq, Dict.mem_keys_iff]
  by_cases hmerged : t ∈ merged
  · simp [hmerged]
  · simp only [hmerged, not_false_eq_true, true_and, if_false]
    cases hlive : live.lookup t with
    | none => simp [resyncTable]
    | some l =>
        cases hworking : working.lookup t with
        | none => simp [resyncTable]
        | some w => simp

theorem resyncTable_self (table : Option SqlTable) : resyncTable table table = table := by
  cases table with
  | none => rfl
  | some t => rfl

/-- **The database after a restore**: each table is the merged one, or the live one. -/
theorem restored_lookup {backup restore : Components} {archive live restored : SqlDatabase}
    (h : restoreDatabase backup restore (some archive) live = some restored) (t : Str) :
    ∃ merged, mergedTable (effectiveComponents backup restore) archive t (live.lookup t)
        = some merged ∧ restored.lookup t = merged.or (live.lookup t) := by
  obtain ⟨state, hstate, hrestored⟩ := Option.map_eq_some_iff.mp h
  obtain ⟨merged, hmerged, hlookup, hmem⟩ := mergeTables_spec
    (sorted_nodup archive.keys_nodup) hstate t
  simp only [mem_sorted, List.not_mem_nil, false_or] at hmerged hmem hlookup
  refine ⟨merged, ?_, ?_⟩
  · split_ifs at hmerged with hkey
    · exact hmerged
    · rw [hmerged]
      exact mergedTable_of_notMem hkey _
  · split_ifs at hrestored with hnone
    · subst hrestored
      rw [hnone] at hmem
      cases merged with
      | none => rfl
      | some table => exact absurd (hmem.mpr rfl) List.not_mem_nil
    · subst hrestored
      rw [lookup_resyncTables]
      cases merged with
      | none =>
          rw [if_neg (by simp [hmem]), hlookup, Option.none_or, resyncTable_self]
      | some table =>
          rw [if_pos (hmem.mpr rfl), hlookup]

/-! ## What the archive leaves out -/

/-- The tables that `sqlite_backup_copy` empties for this selection. -/
def leftOutTables (backup : Components) : List Str :=
  (if backup .analyticsHistory then [] else analyticsTables)
    ++ (if backup .userAuthData then [] else authTables)

/-- The secret of a notification provider. -/
def secretOf (db : SqlDatabase) (id : SqlValue) : Option SqlValue :=
  (db.lookup notificationProviders).bind fun table =>
    (table.rows.find? (· idColumn = id)).map (· secretColumn)

/-- Data that the archive leaves out is as it was: emptied tables, and the secrets of the providers
that are still there. -/
structure LeftOutKept (backup : Components) (live restored : SqlDatabase) : Prop where
  tables : ∀ t ∈ leftOutTables backup, restored.lookup t = live.lookup t
  secrets : backup .privateKeys = false → ∀ id secret secret', secretOf live id = some secret →
    secretOf restored id = some secret' → secret' = secret

/-- No secret gets lost: the archive has them, or its providers are not restored, or those that it
has in common with the live database have none. -/
def SecretsSafe (backup restore : Components) (source live : SqlDatabase) : Prop :=
  backup .privateKeys = true ∨ effectiveComponents backup restore .sqliteData = false ∨
    ∀ id secret, secretOf live id = some secret → secretOf source id ≠ none → secret = .text []

/-- The columns of `notification_providers` that matter here. -/
def ProviderColumns (db : SqlDatabase) : Prop :=
  ∀ table, db.lookup notificationProviders = some table →
    idColumn ∈ table.columns ∧ secretColumn ∈ table.columns

theorem tableComponentMap_eq : tableComponentMap
    = [("sources", Component.blocklistSourceDefinitions), ("custom_rules", .customRules),
        ("custom_filter_rules", .customRules), ("local_dns_records", .localDnsZones),
        ("local_dns_settings", .localDnsZones), ("client_aliases", .clientAliases),
        ("clients", .clientAliases), ("client_identifiers", .clientAliases),
        ("access_settings", .clientAliases), ("access_rules", .clientAliases),
        ("admins", .userAuthData), ("login_attempts", .userAuthData), ("sessions", .userAuthData),
        ("admin_audit_log", .userAuthData), ("query_events", .analyticsHistory),
        ("analytics_aggregate_buckets", .analyticsHistory)].map fun e => (e.1.toList, e.2) := rfl

theorem mem_analyticsTables {t : Str} : t ∈ analyticsTables ↔
    t ∈ ["query_events", "analytics_aggregate_buckets"].map String.toList := Iff.rfl

theorem mem_authTables {t : Str} : t ∈ authTables ↔
    t ∈ ["admins", "login_attempts", "sessions", "admin_audit_log"].map String.toList := Iff.rfl

theorem mem_tablesExcluded {t : Str} : t ∈ tablesExcludedFromRestore ↔
    t ∈ ["backup_history", "restore_history", "backup_requests", "backup_settings",
      "sqlite_sequence"].map String.toList := Iff.rfl

/-- The components of the tables that a backup can leave out, and the table of the providers. -/
theorem gatingComponent_names : (∀ t ∈ analyticsTables, gatingComponent t = .analyticsHistory) ∧
    (∀ t ∈ authTables, gatingComponent t = .userAuthData) ∧
    gatingComponent notificationProviders = .sqliteData ∧
    notificationProviders ∉ tablesExcludedFromRestore ∧
    notificationProviders ∉ analyticsTables ∧ notificationProviders ∉ authTables := by
  have hgating : ∀ name : String, gatingComponent name.toList = _ := fun name => by
    rw [gatingComponent, tableComponentMap_eq, lookup_map_toList]
  unfold notificationProviders
  rw [mem_tablesExcluded, mem_analyticsTables, mem_authTables, mem_map_toList, mem_map_toList,
    mem_map_toList]
  refine ⟨fun t ht => ?_, fun t ht => ?_, ?_, by simp, by simp, by simp⟩
  · obtain ⟨name, hname, rfl⟩ := List.mem_map.mp (mem_analyticsTables.mp ht)
    simp only [List.mem_cons, List.not_mem_nil, or_false] at hname
    rcases hname with rfl | rfl <;>
      simp only [hgating, List.lookup_cons, String.reduceBEq, Option.getD_some]
  · obtain ⟨name, hname, rfl⟩ := List.mem_map.mp (mem_authTables.mp ht)
    simp only [List.mem_cons, List.not_mem_nil, or_false] at hname
    rcases hname with rfl | rfl | rfl | rfl <;>
      simp only [hgating, List.lookup_cons, String.reduceBEq, Option.getD_some]
  · simp only [hgating, List.lookup_cons, String.reduceBEq, List.lookup_nil, Option.getD_none]

theorem gatingComponent_leftOut {backup : Components} {t : Str} (h : t ∈ leftOutTables backup) :
    backup (gatingComponent t) = false := by
  obtain ⟨hanalytics, hauth, -⟩ := gatingComponent_names
  rcases List.mem_append.mp h with h | h
  · split_ifs at h with hbackup
    · exact (List.not_mem_nil h).elim
    · rw [hanalytics t h]
      exact Bool.eq_false_iff.mpr hbackup
  · split_ifs at h with hbackup
    · exact (List.not_mem_nil h).elim
    · rw [hauth t h]
      exact Bool.eq_false_iff.mpr hbackup

/-- A table whose component the archive does not include is not merged. -/
theorem mergedTable_of_backup {backup restore : Components} {archive : SqlDatabase} {t : Str}
    (h : backup (gatingComponent t) = false) (target : Option SqlTable) :
    mergedTable (effectiveComponents backup restore) archive t target = some none := by
  unfold mergedTable
  have heffective : effectiveComponents backup restore (gatingComponent t) = false := by
    rw [effectiveComponents, h, Bool.and_false]
  by_cases hexcluded : t ∈ tablesExcludedFromRestore
  · rw [if_pos hexcluded]
  · rw [if_neg hexcluded, if_pos heffective]

/-- **The emptied tables are left alone**, whatever is selected. -/
theorem leftOutTables_kept {backup restore : Components} {archive : Option SqlDatabase}
    {live restored : SqlDatabase}
    (h : restoreDatabase backup restore archive live = some restored) :
    ∀ t ∈ leftOutTables backup, restored.lookup t = live.lookup t := by
  intro t ht
  cases archive with
  | none =>
      cases h
      rfl
  | some archive =>
      obtain ⟨merged, hmerged, hlookup⟩ := restored_lookup h t
      rw [mergedTable_of_backup (gatingComponent_leftOut ht)] at hmerged
      cases hmerged
      exact hlookup

theorem lookup_emptyTables (tables : List Str) (db : SqlDatabase) {t : Str} (h : t ∉ tables) :
    (emptyTables tables db).lookup t = db.lookup t := by
  unfold emptyTables
  induction tables generalizing db with
  | nil => rfl
  | cons name tables ih =>
      rw [List.foldl_cons, ih _ (fun ht => h (List.mem_cons_of_mem _ ht))]
      have hne : t ≠ name := fun heq => h (heq ▸ List.mem_cons_self)
      split
      · rfl
      · exact AList.lookup_insert_ne hne

/-- The table with every secret blanked. -/
def SqlTable.withoutSecrets (table : SqlTable) : SqlTable :=
  { table with rows := table.rows.map fun row => Function.update row secretColumn (.text []) }

/-- The providers in an archive without private keys. -/
theorem archive_providers {includeAnalytics includeAuth : Bool} {source archive : SqlDatabase}
    (h : sqliteBackupCopy includeAnalytics includeAuth false source = some archive) :
    archive.lookup notificationProviders
      = (source.lookup notificationProviders).map SqlTable.withoutSecrets := by
  obtain ⟨-, -, -, -, hanalytics, hauth⟩ := gatingComponent_names
  have hsame : ∀ db : SqlDatabase, (emptyTables analyticsTables db).lookup notificationProviders
      = db.lookup notificationProviders := fun db => lookup_emptyTables _ db hanalytics
  have hsame' : ∀ db : SqlDatabase, (emptyTables authTables db).lookup notificationProviders
      = db.lookup notificationProviders := fun db => lookup_emptyTables _ db hauth
  unfold sqliteBackupCopy blankSecrets at h
  dsimp only at h
  generalize hdb : (if includeAuth then
    if includeAnalytics then source else emptyTables analyticsTables source
    else emptyTables authTables
      (if includeAnalytics then source else emptyTables analyticsTables source)) = db at h
  have hlookup : db.lookup notificationProviders = source.lookup notificationProviders := by
    rw [← hdb]
    split_ifs <;> simp only [hsame, hsame']
  rw [hlookup] at h
  rw [if_neg Bool.false_ne_true] at h
  cases hsource : source.lookup notificationProviders with
  | none =>
      rw [hsource] at h
      cases h
      rw [hlookup, hsource]
      rfl
  | some table =>
      rw [hsource] at h
      dsimp only at h
      split_ifs at h
      cases h
      rw [AList.lookup_insert]
      rfl

/-! ## The secrets -/

theorem secretOf_eq {db : SqlDatabase} {table : SqlTable}
    (h : db.lookup notificationProviders = some table) (id : SqlValue) :
    secretOf db id = (table.rows.find? (· idColumn = id)).map (· secretColumn) := by
  rw [secretOf, h, Option.bind_some]

theorem secretOf_eq_none {db : SqlDatabase} (h : db.lookup notificationProviders = none)
    (id : SqlValue) : secretOf db id = none := by
  rw [secretOf, h, Option.bind_none]

theorem secretOf_ne_none {db : SqlDatabase} {table : SqlTable}
    (h : db.lookup notificationProviders = some table) (id : SqlValue) :
    secretOf db id ≠ none ↔ ∃ row ∈ table.rows, row idColumn = id := by
  rw [secretOf_eq h, ← Option.isSome_iff_ne_none, Option.isSome_map, List.find?_isSome]
  simp

/-- A provider that is merged from an archive without private keys. -/
theorem insertedRow_blank {target : SqlTable} (archive : SqlTable) (row : SqlRow)
    (htarget : idColumn ∈ target.columns ∧ secretColumn ∈ target.columns)
    (harchive : idColumn ∈ archive.columns ∧ secretColumn ∈ archive.columns) :
    insertedRow target archive (Function.update row secretColumn (.text [])) idColumn
        = row idColumn ∧
      insertedRow target archive (Function.update row secretColumn (.text [])) secretColumn
        = .text [] := by
  have hid : idColumn ∈ sharedColumns target archive :=
    List.mem_filter.mpr ⟨htarget.1, decide_eq_true harchive.1⟩
  have hsecret : secretColumn ∈ sharedColumns target archive :=
    List.mem_filter.mpr ⟨htarget.2, decide_eq_true harchive.2⟩
  have hne : idColumn ≠ secretColumn := fun h => absurd (congrArg List.length h) (by decide)
  simp [insertedRow, hid, hsecret, hne]

/-- The restored secrets are blank, and they are those of the archive's providers. -/
theorem secretOf_restored {backup restore : Components} {source archive live restored : SqlDatabase}
    {sourceTable liveTable : SqlTable}
    (hsource : source.lookup notificationProviders = some sourceTable)
    (hlive : live.lookup notificationProviders = some liveTable)
    (hsourceColumns : idColumn ∈ sourceTable.columns ∧ secretColumn ∈ sourceTable.columns)
    (hliveColumns : idColumn ∈ liveTable.columns ∧ secretColumn ∈ liveTable.columns)
    (hsqlite : effectiveComponents backup restore .sqliteData = true)
    (harchive : archive.lookup notificationProviders = some sourceTable.withoutSecrets)
    (h : restoreDatabase backup restore (some archive) live = some restored) (id : SqlValue) :
    (∀ secret, secretOf restored id = some secret → secret = .text []) ∧
      (secretOf restored id ≠ none ↔ secretOf source id ≠ none) := by
  obtain ⟨merged, hmerged, hlookup⟩ := restored_lookup h notificationProviders
  obtain ⟨-, -, hgating, hexcluded, -⟩ := gatingComponent_names
  have hshared : sharedColumns liveTable sourceTable.withoutSecrets ≠ [] := by
    refine List.ne_nil_of_mem (a := secretColumn) (List.mem_filter.mpr ⟨hliveColumns.2, ?_⟩)
    exact decide_eq_true hsourceColumns.2
  unfold mergedTable at hmerged
  rw [if_neg hexcluded, hgating, hsqlite, if_neg (by decide), harchive, hlive] at hmerged
  dsimp only at hmerged
  rw [if_neg hshared, Option.map_eq_some_iff] at hmerged
  obtain ⟨rows, hrows, rfl⟩ := hmerged
  rw [Option.some_or] at hlookup
  have hmem := mem_copyRows hrows
  have hblank : ∀ row ∈ rows, row secretColumn = .text [] ∧
      ∃ source ∈ sourceTable.rows, source idColumn = row idColumn := by
    intro row hrow
    obtain ⟨archived, harchived, rfl⟩ := (hmem row).mp hrow
    obtain ⟨original, horiginal, rfl⟩ := List.mem_map.mp harchived
    obtain ⟨hid, hsecret⟩ := insertedRow_blank sourceTable.withoutSecrets original hliveColumns
      hsourceColumns
    exact ⟨hsecret, original, horiginal, hid.symm⟩
  constructor
  · intro secret hsecret
    rw [secretOf_eq hlookup, Option.map_eq_some_iff] at hsecret
    obtain ⟨row, hrow, rfl⟩ := hsecret
    exact (hblank row (List.mem_of_find?_eq_some hrow)).1
  · rw [secretOf_ne_none hlookup, secretOf_ne_none hsource]
    constructor
    · rintro ⟨row, hrow, rfl⟩
      exact (hblank row hrow).2
    · rintro ⟨original, horiginal, rfl⟩
      refine ⟨_, (hmem _).mpr ⟨_, List.mem_map_of_mem horiginal, rfl⟩, ?_⟩
      exact (insertedRow_blank sourceTable.withoutSecrets original hliveColumns hsourceColumns).1

/-- The providers that are in both databases have the secrets they had. -/
def SecretsKept (live restored : SqlDatabase) : Prop :=
  ∀ id secret secret', secretOf live id = some secret → secretOf restored id = some secret' →
    secret' = secret

theorem secretsKept_of_lookup_eq {live restored : SqlDatabase}
    (h : restored.lookup notificationProviders = live.lookup notificationProviders) :
    SecretsKept live restored := by
  intro id secret secret' hsecret hsecret'
  rw [secretOf, h] at hsecret'
  exact Option.some.inj (hsecret'.symm.trans hsecret)

theorem secretsKept_of_noProviders {live restored : SqlDatabase}
    (h : live.lookup notificationProviders = none) : SecretsKept live restored := by
  intro id secret secret' hsecret
  rw [secretOf_eq_none h] at hsecret
  cases hsecret

/-- Providers whose component is not restored stay. -/
theorem providers_kept_of_unselected {backup restore : Components} {archive : Option SqlDatabase}
    {live restored : SqlDatabase} (hsqlite : effectiveComponents backup restore .sqliteData = false)
    (h : restoreDatabase backup restore archive live = some restored) :
    restored.lookup notificationProviders = live.lookup notificationProviders := by
  cases archive with
  | none =>
      cases h
      rfl
  | some archive =>
      obtain ⟨merged, hmerged, hlookup⟩ := restored_lookup h notificationProviders
      obtain ⟨-, -, hgating, hexcluded, -⟩ := gatingComponent_names
      unfold mergedTable at hmerged
      rw [if_neg hexcluded, hgating, if_pos hsqlite] at hmerged
      cases hmerged
      exact hlookup

/-- Providers that the archive has no table of stay. -/
theorem providers_kept_of_missing {backup restore : Components}
    {archive live restored : SqlDatabase} (harchive : archive.lookup notificationProviders = none)
    (h : restoreDatabase backup restore (some archive) live = some restored) :
    restored.lookup notificationProviders = live.lookup notificationProviders := by
  obtain ⟨merged, hmerged, hlookup⟩ := restored_lookup h notificationProviders
  rw [mergedTable_of_notMem (AList.lookup_eq_none.mp harchive)] at hmerged
  cases hmerged
  exact hlookup

/-- Where blank secrets are merged, those that were there have to be blank. -/
theorem secretsKept_merged_iff {source live restored : SqlDatabase}
    (h : ∀ id, (∀ secret, secretOf restored id = some secret → secret = .text []) ∧
      (secretOf restored id ≠ none ↔ secretOf source id ≠ none)) :
    SecretsKept live restored ↔
      ∀ id secret, secretOf live id = some secret → secretOf source id ≠ none →
        secret = .text [] := by
  constructor
  · intro hkept id secret hsecret hne
    obtain ⟨hblank, hsome⟩ := h id
    obtain ⟨secret', hsecret'⟩ := Option.ne_none_iff_exists'.mp (hsome.mpr hne)
    rw [← hkept id secret secret' hsecret hsecret']
    exact hblank secret' hsecret'
  · intro hsafe id secret secret' hsecret hsecret'
    obtain ⟨hblank, hsome⟩ := h id
    have hne : secretOf source id ≠ none := hsome.mp (by rw [hsecret']; simp)
    rw [hblank secret' hsecret', hsafe id secret hsecret hne]

/-- The secrets after a restore from an archive without private keys. -/
theorem secretsKept_iff {backup restore : Components} {source archive live restored : SqlDatabase}
    (hsource : ProviderColumns source) (hlive : ProviderColumns live)
    (hsqlite : effectiveComponents backup restore .sqliteData = true)
    (harchive : archive.lookup notificationProviders
      = (source.lookup notificationProviders).map SqlTable.withoutSecrets)
    (h : restoreDatabase backup restore (some archive) live = some restored) :
    SecretsKept live restored ↔
      ∀ id secret, secretOf live id = some secret → secretOf source id ≠ none →
        secret = .text [] := by
  cases hsourceTable : source.lookup notificationProviders with
  | none =>
      rw [hsourceTable, Option.map_none] at harchive
      refine iff_of_true (secretsKept_of_lookup_eq (providers_kept_of_missing harchive h)) ?_
      intro id secret _ hne
      exact absurd (secretOf_eq_none hsourceTable id) hne
  | some sourceTable =>
      rw [hsourceTable, Option.map_some] at harchive
      cases hliveTable : live.lookup notificationProviders with
      | none =>
          refine iff_of_true (secretsKept_of_noProviders hliveTable) ?_
          intro id secret hsecret
          rw [secretOf_eq_none hliveTable] at hsecret
          cases hsecret
      | some liveTable =>
          exact secretsKept_merged_iff (secretOf_restored hsourceTable hliveTable
            (hsource sourceTable hsourceTable) (hlive liveTable hliveTable) hsqlite harchive h)

/-- **The restores that leave alone what the archive leaves out.** -/
theorem leftOutKept_iff {backup restore : Components} {source live restored : SqlDatabase}
    {archive : Option SqlDatabase} (hsource : ProviderColumns source) (hlive : ProviderColumns live)
    (hbackup : archiveDatabase backup source = some archive)
    (hrestore : restoreDatabase backup restore archive live = some restored) :
    LeftOutKept backup live restored ↔ SecretsSafe backup restore source live := by
  have htables := leftOutTables_kept hrestore
  have hiff : LeftOutKept backup live restored ↔
      (backup .privateKeys = false → SecretsKept live restored) :=
    ⟨fun h => h.secrets, fun h => ⟨htables, h⟩⟩
  rw [hiff]
  unfold SecretsSafe
  by_cases hkeys : backup .privateKeys = true
  · simp [hkeys]
  rw [Bool.not_eq_true] at hkeys
  simp only [hkeys, Bool.false_eq_true, false_or, forall_const]
  by_cases hsqlite : effectiveComponents backup restore .sqliteData = true
  · have hdata : backup .sqliteData = true := (Bool.and_eq_true_iff.mp hsqlite).2
    rw [archiveDatabase, hdata, if_pos rfl, hkeys, Option.map_eq_some_iff] at hbackup
    obtain ⟨archive, hcopy, rfl⟩ := hbackup
    simp only [hsqlite, Bool.true_eq_false, false_or]
    exact secretsKept_iff hsource hlive hsqlite (archive_providers hcopy) hrestore
  · rw [Bool.not_eq_true] at hsqlite
    exact iff_of_true (secretsKept_of_lookup_eq (providers_kept_of_unselected hsqlite hrestore))
      (Or.inl hsqlite)

/-! ### A webhook URL -/

def webhookTable : SqlTable where
  columns := [idColumn, secretColumn]
  default := fun _ => .null
  primaryKey := some idColumn
  rows := [fun column => if column = idColumn then .integer 1 else .text "hook".toList]

/-- A database with one notification provider. -/
def webhookDatabase : SqlDatabase := AList.singleton notificationProviders webhookTable

theorem providerColumns_webhook : ProviderColumns webhookDatabase := by
  intro table h
  have htable : webhookDatabase.lookup notificationProviders = some webhookTable := rfl
  rw [htable, Option.some.injEq] at h
  rw [← h]
  decide

/-- The default backup and its restore. -/
theorem webhook_restored : ∃ archive restored,
    archiveDatabase componentDefaults webhookDatabase = some archive ∧
    restoreDatabase componentDefaults componentDefaults archive webhookDatabase = some restored ∧
    secretOf restored (.integer 1) = some (.text []) := by
  have hrun : ((archiveDatabase componentDefaults webhookDatabase).bind fun archive =>
      (restoreDatabase componentDefaults componentDefaults archive webhookDatabase).map
        (secretOf · (.integer 1))) = some (some (.text [])) := by
    decide +kernel
  obtain ⟨archive, harchive, hrestore⟩ := Option.bind_eq_some_iff.mp hrun
  obtain ⟨restored, hrestored, hsecret⟩ := Option.map_eq_some_iff.mp hrestore
  exact ⟨archive, restored, harchive, hrestored, hsecret⟩

/-- `leftOutKept_iff` for a backup and a restore with the defaults. -/
theorem leftOutKept_webhook : ∃ archive restored,
    archiveDatabase componentDefaults webhookDatabase = some archive ∧
    restoreDatabase componentDefaults componentDefaults archive webhookDatabase = some restored ∧
    (LeftOutKept componentDefaults webhookDatabase restored ↔
      SecretsSafe componentDefaults componentDefaults webhookDatabase webhookDatabase) := by
  obtain ⟨archive, restored, harchive, hrestored, -⟩ := webhook_restored
  exact ⟨archive, restored, harchive, hrestored,
    leftOutKept_iff providerColumns_webhook providerColumns_webhook harchive hrestored⟩

/-- The default backup leaves the secret out, and its restore blanks the live one. -/
theorem secret_blanked : ∃ archive restored,
    archiveDatabase componentDefaults webhookDatabase = some archive ∧
    restoreDatabase componentDefaults componentDefaults archive webhookDatabase = some restored ∧
    secretOf webhookDatabase (.integer 1) = some (.text "hook".toList) ∧
    secretOf restored (.integer 1) = some (.text []) ∧
    ¬ LeftOutKept componentDefaults webhookDatabase restored := by
  obtain ⟨archive, restored, harchive, hrestored, hblank⟩ := webhook_restored
  have hlive : secretOf webhookDatabase (.integer 1) = some (.text "hook".toList) := by
    decide +kernel
  refine ⟨archive, restored, harchive, hrestored, hlive, hblank, fun h => ?_⟩
  have hsecret := h.secrets rfl (.integer 1) (.text "hook".toList) (.text []) hlive hblank
  exact absurd hsecret (by decide)

end AlderpointDNS.Backup
