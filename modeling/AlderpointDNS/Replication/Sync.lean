import AlderpointDNS.Replication.Frame

/-!
# The replica's apply pipeline

`replicaSyncOnce` fetches the latest generation, checks it, applies it and deploys, and takes the
apply back when the deployment fails.  The snapshot it takes back to has the flat tables and the
settings, but neither clients nor access rules.

* **`rollsBack_iff`** — a sync that does not succeed leaves the replicated content as it was
  exactly when the client sections of a generation whose deployment fails are the ones the replica
  has, and a generation whose deployment raises brings nothing new at all.
-/

namespace AlderpointDNS

open Text

/-- The keys of the dictionary `latest_generation` returns that the replica reads. -/
structure Generation (Hash : Type) where
  number : ℕ
  schemaVersion : ℕ
  contentHash : Hash
  sections : Sections

/-- The outcomes of `fetch_latest_generation`: an exception, `None`, or a generation. -/
inductive Fetch (Hash : Type) where
  | unreachable
  | noGeneration
  | generation (g : Generation Hash)

/-- The outcomes of `deploy_fn`: `(True, _)`, `(False, _)`, or an exception. -/
inductive DeployOutcome where
  | ok
  | failed
  | raised
  deriving DecidableEq

/-- `result["result"]`. -/
inductive SyncResult where
  | skipped
  | unreachable
  | noGeneration
  | upToDate
  | failed
  | error
  | success
  deriving DecidableEq

/-- A replica: its database, and of the replication settings the two that a sync reads. -/
structure Node where
  db : Database
  paused : Bool
  lastApplied : ℕ

/-- `SCHEMA_VERSION`. -/
def schemaVersion : ℕ := 1

section Sync

variable {Hash : Type} [DecidableEq Hash] (contentHash : Sections → Hash)

/-- The checks before the apply: the result with which they end the sync. -/
def checkGeneration (lastApplied : ℕ) (force : Bool) (g : Generation Hash) : Option SyncResult :=
  if !force && g.number ≤ lastApplied then some .upToDate
  else if schemaVersion < g.schemaVersion then some .failed
  else if contentHash g.sections ≠ g.contentHash then some .failed
  else none

/-- `replica_sync_once`. -/
def replicaSyncOnce (fetch : Fetch Hash) (deploy : DeployOutcome) (force : Bool) (node : Node) :
    Node × SyncResult :=
  if node.paused && !force then (node, .skipped)
  else match fetch with
    | .unreachable => (node, .unreachable)
    | .noGeneration => (node, .noGeneration)
    | .generation g =>
        match checkGeneration contentHash node.lastApplied force g with
        | some result => (node, result)
        | none =>
            let snapshot := snapshotReplicableTables node.db
            match applySections g.sections node.db with
            | none => (node, .failed)
            | some db =>
                match deploy with
                | .raised => ({ node with db := db }, .error)
                | .failed =>
                    match restoreSnapshot snapshot db with
                    | none => ({ node with db := db }, .error)
                    | some db => ({ node with db := db }, .failed)
                | .ok => ({ node with db := db, lastApplied := g.number }, .success)

/-! ## Rolling back -/

/-- The replicated content of two databases is the same. -/
structure SameContent (db db' : Database) : Prop where
  tables : db'.tables = db.tables
  settings : ∀ g, (db'.settings g).map (selectSettings g) = (db.settings g).map (selectSettings g)
  clients : db'.access.clientsSection = db.access.clientsSection
  accessRules : db'.access.accessRulesSection = db.access.accessRulesSection

theorem SameContent.refl (db : Database) : SameContent db db := ⟨rfl, fun _ => rfl, rfl, rfl⟩

/-- The client sections are absent, not applicable, or already there. -/
def ClientsAlreadyThere (sections : Sections) (access : AccessTables) : Prop :=
  (sections.clients = none ∧ sections.accessRules = none) ∨
  access.clients = none ∨ access.identifiers = none ∨
  ∃ imported, importClientTables (sections.clients.getD []) (sections.accessRules.getD [])
      = some imported ∧
    some (buildClientsSection imported.clients imported.identifiers) = access.clientsSection ∧
    some (buildAccessRulesSection imported.clients imported.accessRules)
      = access.accessRulesSection

/-- Everything the payload carries is already there, and the replica has no replicable key in a
group that the payload does not carry. -/
structure AlreadyThere (sections : Sections) (db : Database) : Prop where
  tables : ∀ t rows table, sections.tables t = some rows → db.tables t = some table →
    table.1.map some = rows
  settings : ∀ g settings, db.settings g = some settings →
    selectSettings g settings = selectSettings g ((sections.settings g).getD noSettings)
  clients : ClientsAlreadyThere sections db.access

theorem clientsAlreadyThere_iff {sections : Sections} {access access' : AccessTables}
    (h : applyClientsAccessSections sections.clients sections.accessRules access = some access') :
    (access'.clientsSection = access.clientsSection ∧
      access'.accessRulesSection = access.accessRulesSection) ↔
      ClientsAlreadyThere sections access := by
  rcases applyClientsAccessSections_cases h with
    ⟨rfl, hwhy⟩ | ⟨hsome, hc, hi, -, imported, himp, rfl⟩
  · refine ⟨fun _ => ?_, fun _ => ⟨rfl, rfl⟩⟩
    rcases hwhy with hnone | hnone | hnone
    · exact Or.inl hnone
    · exact Or.inr (Or.inl hnone)
    · exact Or.inr (Or.inr (Or.inl hnone))
  · constructor
    · intro hsame
      exact Or.inr (Or.inr (Or.inr ⟨imported, himp, hsame⟩))
    · rintro (⟨h1, h2⟩ | hnone | hnone | ⟨imported', himp', hsame⟩)
      · rcases hsome with hne | hne
        · exact absurd h1 hne
        · exact absurd h2 hne
      · exact absurd hnone hc
      · exact absurd hnone hi
      · rw [himp, Option.some.injEq] at himp'
        rw [himp']
        exact hsame

/-- **What is there is kept by an apply exactly when the payload brings nothing new.** -/
theorem sameContent_apply_iff {sections : Sections} {db db' : Database}
    (h : applySections sections db = some db') :
    SameContent db db' ↔ AlreadyThere sections db := by
  obtain ⟨htables, hsettings, haccess⟩ := writeSections_eq_some.mp h
  have hgroup : ∀ g, (db'.settings g).map (selectSettings g)
      = (db.settings g).map (selectSettings g) ↔ ∀ settings, db.settings g = some settings →
        selectSettings g settings = selectSettings g ((sections.settings g).getD noSettings) := by
    intro g
    rw [hsettings, applySettings]
    cases db.settings g with
    | none => simp
    | some settings =>
        simp only [Option.map_some, Option.some.injEq, selectSettings_replace, forall_eq']
        exact eq_comm
  constructor
  · rintro ⟨hsame, hsettings', hclients, hrules⟩
    refine ⟨?_, fun g => (hgroup g).mp (hsettings' g),
      (clientsAlreadyThere_iff haccess).mp ⟨hclients, hrules⟩⟩
    intro t rows table hrows htable
    have happly := htables t
    rw [htable] at happly
    obtain ⟨table', hnew, hmap⟩ := applyTable_carried hrows happly
    rw [hsame, htable, Option.some.injEq] at hnew
    rw [hnew, hmap]
  · rintro ⟨hthere, hsettings', hclients⟩
    obtain ⟨h1, h2⟩ := (clientsAlreadyThere_iff haccess).mpr hclients
    refine ⟨funext fun t => ?_, fun g => (hgroup g).mpr (hsettings' g), h1, h2⟩
    cases hrows : sections.tables t with
    | none => exact applyTable_absent hrows (htables t)
    | some rows =>
        have happly := htables t
        cases htable : db.tables t with
        | none =>
            unfold applyTable at happly
            rw [hrows, htable] at happly
            exact (Option.some.inj happly).symm
        | some table =>
            rw [htable] at happly
            obtain ⟨table', hnew, hmap⟩ := applyTable_carried hrows happly
            rw [hnew, Option.some.injEq]
            refine Subtype.ext (List.map_injective_iff.mpr (Option.some_injective _) ?_)
            rw [hmap, hthere t rows table hrows htable]

/-- A sync that does not succeed leaves the replicated content as it was. -/
def RollsBack (fetch : Fetch Hash) (deploy : DeployOutcome) (force : Bool) (node : Node) : Prop :=
  (replicaSyncOnce contentHash fetch deploy force node).2 ≠ .success →
    SameContent node.db (replicaSyncOnce contentHash fetch deploy force node).1.db

/-- The generation that this sync applies, when it passes the checks and no constraint fails. -/
def appliedGeneration (fetch : Fetch Hash) (force : Bool) (node : Node) :
    Option (Generation Hash) :=
  if node.paused && !force then none
  else match fetch with
    | .generation g =>
        if (checkGeneration contentHash node.lastApplied force g).isNone
            && (applySections g.sections node.db).isSome then some g
        else none
    | _ => none

/-- **When a sync rolls back.** -/
theorem rollsBack_iff (fetch : Fetch Hash) (deploy : DeployOutcome) (force : Bool) (node : Node) :
    RollsBack contentHash fetch deploy force node ↔
      ∀ g, appliedGeneration contentHash fetch force node = some g →
        (deploy = .failed → ClientsAlreadyThere g.sections node.db.access) ∧
        (deploy = .raised → AlreadyThere g.sections node.db) := by
  have hrefl := SameContent.refl node.db
  unfold RollsBack replicaSyncOnce appliedGeneration
  split_ifs with hpaused
  · simp [hrefl]
  · cases fetch with
    | unreachable => simp [hrefl]
    | noGeneration => simp [hrefl]
    | generation g =>
        dsimp only
        cases hcheck : checkGeneration contentHash node.lastApplied force g with
        | some result => simp [hrefl]
        | none =>
            cases happly : applySections g.sections node.db with
            | none => simp [hrefl]
            | some db =>
                have haccess := (writeSections_eq_some.mp happly).2.2
                simp only [Option.isNone_none, Option.isSome_some, Bool.and_self, if_true,
                  Option.some.injEq, forall_eq']
                cases deploy with
                | ok => simp
                | raised => simp [sameContent_apply_iff happly]
                | failed =>
                    rw [restoreSnapshot_spec happly]
                    simp only [reduceCtorEq, not_false_eq_true, ne_eq, forall_const, false_implies,
                      and_true, ← clientsAlreadyThere_iff haccess]
                    exact ⟨fun h => ⟨h.clients, h.accessRules⟩,
                      fun h => ⟨rfl, fun _ => rfl, h.1, h.2⟩⟩

end Sync

/-! ### A failed deployment that removes a client

The replica has a client, the generation of its primary has none, and the deployment fails. -/

/-- A replica on which only the client tables exist. -/
def televisionReplica : Node where
  db :=
    { tables := fun _ => none
      settings := fun _ => none
      access :=
        ⟨some ⟨[⟨1, "television".toList, [], true⟩], by decide⟩, some LegalRows.empty,
          some LegalRows.empty⟩ }
  paused := false
  lastApplied := 0

/-- The first generation of a primary without clients. -/
def noClientsGeneration : Generation Unit where
  number := 1
  schemaVersion := 1
  contentHash := ()
  sections :=
    { tables := fun _ => none
      settings := fun _ => none
      clients := some []
      accessRules := some [] }

theorem client_lost_after_failed_deploy :
    (replicaSyncOnce (fun _ => ()) (.generation noClientsGeneration) .failed false
      televisionReplica).2 = .failed ∧
    ¬ RollsBack (fun _ => ()) (.generation noClientsGeneration) .failed false
      televisionReplica := by
  have hfailed : (replicaSyncOnce (fun _ => ()) (.generation noClientsGeneration) .failed false
      televisionReplica).2 = .failed := by decide +kernel
  refine ⟨hfailed, fun h => ?_⟩
  have hclients := (h (by rw [hfailed]; decide)).clients
  exact absurd hclients (by decide +kernel)

end AlderpointDNS
