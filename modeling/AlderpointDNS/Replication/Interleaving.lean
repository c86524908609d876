import AlderpointDNS.Replication.Sync
import AlderpointDNS.Lib.Runs

/-!
# Overlapping syncs

The poller thread and every manual "Sync Now" run `replicaSyncOnce` in their own thread without
a common lock.  Here a sync is cut into its transactions: reading the settings, fetching, saving
the snapshot, applying, deploying, and restoring or recording.  The threads take these steps in
any order, and the primary publishes generations meanwhile.

* `run_alone` — a sync that no other interrupts does what `replicaSyncOnce` does.
* **`consistent_of_run`** — when syncs do not overlap, no deployment raises, and a failed
  deployment leaves the client sections of the last applied generation, then a replica at rest
  holds the generation it has recorded.
-/

namespace AlderpointDNS

open Text Runs

/-- Where a thread is in `replica_sync_once`. -/
inductive Phase (Hash : Type) where
  | idle
  | started (lastApplied : ℕ) (force : Bool)
  | fetched (g : Generation Hash)
  | saved (g : Generation Hash) (snapshot : Sections)
  | applied (g : Generation Hash) (snapshot : Sections)
  | deployFailed (g : Generation Hash) (snapshot : Sections)
  | deployed (g : Generation Hash)

/-- The replica, the number of the primary's latest generation, and the threads. -/
structure SyncState (Hash : Type) where
  node : Node
  latest : ℕ
  phase : ℕ → Phase Hash

/-- What can happen next. -/
inductive SyncAction where
  | publish
  | start (thread : ℕ) (force : Bool)
  | fetch (thread : ℕ) (reachable : Bool)
  | snapshot (thread : ℕ)
  | apply (thread : ℕ)
  | deploy (thread : ℕ) (outcome : DeployOutcome)
  | restore (thread : ℕ)
  | record (thread : ℕ)

/-- The state when a thread moves on and the replica changes to `node`. -/
def SyncState.move {Hash : Type} (s : SyncState Hash) (t : ℕ) (p : Phase Hash) (node : Node) :
    SyncState Hash :=
  { s with node := node, phase := Function.update s.phase t p }

section Move

variable {Hash : Type} (s : SyncState Hash) (t : ℕ) (p : Phase Hash) (node : Node)

@[simp] theorem move_node : (s.move t p node).node = node := rfl

@[simp] theorem move_latest : (s.move t p node).latest = s.latest := rfl

@[simp] theorem move_phase : (s.move t p node).phase t = p := Function.update_self _ _ _

theorem move_phase_of_ne {t' : ℕ} (h : t' ≠ t) : (s.move t p node).phase t' = s.phase t' :=
  Function.update_of_ne h _ _

@[simp] theorem move_move (q : Phase Hash) (node' : Node) :
    (s.move t p node).move t q node' = s.move t q node' := by
  simp [SyncState.move]

theorem move_self (h : s.phase t = p) : s.move t p s.node = s := by
  rw [SyncState.move, ← h, Function.update_eq_self]

end Move

variable {Hash : Type}

section Published

variable (generations : ℕ → Generation Hash)

/-- The `n`th generation of the primary. -/
def published (n : ℕ) : Generation Hash := { generations n with number := n }

/-- What a fetch finds. -/
def fetchLatest (reachable : Bool) (latest : ℕ) : Fetch Hash :=
  if !reachable then .unreachable
  else if latest = 0 then .noGeneration
  else .generation (published generations latest)

/-- The generation a fetch brings is the published one of its number. -/
theorem fetchLatest_published {reachable : Bool} {latest : ℕ} {g : Generation Hash}
    (h : fetchLatest generations reachable latest = .generation g) :
    g = published generations g.number := by
  unfold fetchLatest at h
  split_ifs at h
  cases h
  rfl

end Published

section Steps

variable [DecidableEq Hash] (contentHash : Sections → Hash) (generations : ℕ → Generation Hash)

/-- One transaction of one thread, or one publication. -/
def syncStep (s : SyncState Hash) : SyncAction → Option (SyncState Hash)
  | .publish => some { s with latest := s.latest + 1 }
  | .start t force =>
      match s.phase t with
      | .idle =>
          if s.node.paused && !force then some s
          else some (s.move t (.started s.node.lastApplied force) s.node)
      | _ => none
  | .fetch t reachable =>
      match s.phase t with
      | .started lastApplied force =>
          match fetchLatest generations reachable s.latest with
          | .generation g =>
              match checkGeneration contentHash lastApplied force g with
              | some _ => some (s.move t .idle s.node)
              | none => some (s.move t (.fetched g) s.node)
          | _ => some (s.move t .idle s.node)
      | _ => none
  | .snapshot t =>
      match s.phase t with
      | .fetched g => some (s.move t (.saved g (snapshotReplicableTables s.node.db)) s.node)
      | _ => none
  | .apply t =>
      match s.phase t with
      | .saved g snapshot =>
          match applySections g.sections s.node.db with
          | none => some (s.move t .idle s.node)
          | some db => some (s.move t (.applied g snapshot) { s.node with db := db })
      | _ => none
  | .deploy t outcome =>
      match s.phase t with
      | .applied g snapshot =>
          match outcome with
          | .ok => some (s.move t (.deployed g) s.node)
          | .failed => some (s.move t (.deployFailed g snapshot) s.node)
          | .raised => some (s.move t .idle s.node)
      | _ => none
  | .restore t =>
      match s.phase t with
      | .deployFailed _ snapshot =>
          match restoreSnapshot snapshot s.node.db with
          | none => some (s.move t .idle s.node)
          | some db => some (s.move t .idle { s.node with db := db })
      | _ => none
  | .record t =>
      match s.phase t with
      | .deployed g => some (s.move t .idle { s.node with lastApplied := g.number })
      | _ => none

/-! ## A sync that nothing interrupts -/

/-- **A thread that runs alone does what `replica_sync_once` does.** -/
theorem run_alone (s : SyncState Hash) (t : ℕ) (force reachable : Bool) (outcome : DeployOutcome)
    (h : s.phase t = .idle) : ∃ as, run (syncStep contentHash generations) s as
      = some (s.move t .idle (replicaSyncOnce contentHash
          (fetchLatest generations reachable s.latest) outcome force s.node).1) := by
  unfold replicaSyncOnce
  by_cases hpaused : (s.node.paused && !force) = true
  · refine ⟨[.start t force], ?_⟩
    simp [run, syncStep, h, hpaused, move_self]
  · rw [if_neg hpaused]
    cases hfetch : fetchLatest generations reachable s.latest with
    | unreachable =>
        exact ⟨[.start t force, .fetch t reachable], by simp [run, syncStep, h, hpaused, hfetch]⟩
    | noGeneration =>
        exact ⟨[.start t force, .fetch t reachable], by simp [run, syncStep, h, hpaused, hfetch]⟩
    | generation g =>
        dsimp only
        cases hcheck : checkGeneration contentHash s.node.lastApplied force g with
        | some result =>
            exact ⟨[.start t force, .fetch t reachable],
              by simp [run, syncStep, h, hpaused, hfetch, hcheck]⟩
        | none =>
            dsimp only
            cases happly : applySections g.sections s.node.db with
            | none =>
                exact ⟨[.start t force, .fetch t reachable, .snapshot t, .apply t],
                  by simp [run, syncStep, h, hpaused, hfetch, hcheck, happly]⟩
            | some db =>
                have hprefix : run (syncStep contentHash generations) s
                    [.start t force, .fetch t reachable, .snapshot t, .apply t]
                    = some (s.move t (.applied g (snapshotReplicableTables s.node.db))
                        { s.node with db := db }) := by
                  simp [run, syncStep, h, hpaused, hfetch, hcheck, happly]
                have hrest : ∀ as s', run (syncStep contentHash generations)
                    (s.move t (.applied g (snapshotReplicableTables s.node.db))
                      { s.node with db := db }) as = some s' →
                    ∃ as, run (syncStep contentHash generations) s as = some s' :=
                  fun as s' has => ⟨[.start t force, .fetch t reachable, .snapshot t, .apply t]
                    ++ as, by rw [run_append, hprefix, Option.bind_some, has]⟩
                cases outcome with
                | raised => exact hrest [.deploy t .raised] _ (by simp [run, syncStep])
                | ok => exact hrest [.deploy t .ok, .record t] _ (by simp [run, syncStep])
                | failed =>
                    exact hrest [.deploy t .failed, .restore t] _
                      (by simp [run, syncStep, restoreSnapshot_spec happly])

end Steps

/-! ## Holding a generation -/

section Content

variable (generations : ℕ → Generation Hash)

/-- The tables of a node hold what the payload carries. -/
structure HoldsContent (sections : Sections) (db : Database) : Prop where
  tables : ∀ t rows table, sections.tables t = some rows → db.tables t = some table →
    table.1.map some = rows
  settings : ∀ g values settings, sections.settings g = some values →
    db.settings g = some settings → selectSettings g settings = selectSettings g values
  clients : ClientsAlreadyThere sections db.access

/-- What an apply writes is there afterwards. -/
theorem holdsContent_apply {sections : Sections} {db db' : Database}
    (h : applySections sections db = some db') : HoldsContent sections db' := by
  obtain ⟨htables, hsettings, haccess⟩ := writeSections_eq_some.mp h
  refine ⟨?_, ?_, ?_⟩
  · intro t rows table hrows htable
    have happly := htables t
    have hsome := applyTable_isSome happly
    rw [htable] at hsome
    obtain ⟨old, hold⟩ := Option.isSome_iff_exists.mp hsome.symm
    rw [hold] at happly
    obtain ⟨table', hnew, hmap⟩ := applyTable_carried hrows happly
    rw [htable, Option.some.injEq] at hnew
    rw [hnew, hmap]
  · intro g values settings hvalues hnew
    rw [hsettings, applySettings, hvalues, Option.map_eq_some_iff] at hnew
    obtain ⟨old, -, rfl⟩ := hnew
    exact selectSettings_replace g values old
  · rcases applyClientsAccessSections_cases haccess with
      ⟨hsame, hwhy⟩ | ⟨-, -, -, -, imported, himp, hsame⟩
    · rw [hsame]
      rcases hwhy with hnone | hnone | hnone
      · exact Or.inl hnone
      · exact Or.inr (Or.inl hnone)
      · exact Or.inr (Or.inr (Or.inl hnone))
    · rw [hsame]
      exact Or.inr (Or.inr (Or.inr ⟨imported, himp, rfl, rfl⟩))

/-- The recorded generation, if there is one, is what the tables hold. -/
def HoldsRecorded (node : Node) : Prop :=
  0 < node.lastApplied → HoldsContent (published generations node.lastApplied).sections node.db

/-- No sync is in progress. -/
def Quiet (s : SyncState Hash) : Prop := ∀ t, s.phase t = .idle

/-- A replica at rest holds the generation it has recorded. -/
def Consistent (s : SyncState Hash) : Prop := Quiet s → HoldsRecorded generations s.node

/-! ## Syncs that do not overlap -/

/-- A sync starts only at rest, no deployment raises, and a failed deployment leaves the client
sections of the recorded generation in the client tables. -/
def Undisturbed (s : SyncState Hash) : SyncAction → Prop
  | .start _ _ => Quiet s
  | .deploy _ .raised => False
  | .deploy _ .failed => 0 < s.node.lastApplied →
      ClientsAlreadyThere (published generations s.node.lastApplied).sections s.node.db.access
  | _ => True

/-- What is known of the replica while a thread is in a phase. -/
def PhaseInv (node : Node) : Phase Hash → Prop
  | .idle => True
  | .started _ _ => HoldsRecorded generations node
  | .fetched g => g = published generations g.number ∧ HoldsRecorded generations node
  | .saved g snapshot => g = published generations g.number ∧ HoldsRecorded generations node ∧
      snapshot = snapshotReplicableTables node.db
  | .applied g snapshot => g = published generations g.number ∧
      ∃ before, snapshot = snapshotReplicableTables before ∧
        HoldsRecorded generations { node with db := before } ∧
        applySections g.sections before = some node.db
  | .deployFailed g snapshot =>
      (0 < node.lastApplied →
        ClientsAlreadyThere (published generations node.lastApplied).sections node.db.access) ∧
      ∃ before, snapshot = snapshotReplicableTables before ∧
        HoldsRecorded generations { node with db := before } ∧
        applySections g.sections before = some node.db
  | .deployed g => HoldsContent (published generations g.number).sections node.db

/-- At most one thread is busy, and what is known of its phase holds. -/
structure SyncInv (s : SyncState Hash) : Prop where
  alone : ∀ t t', s.phase t ≠ .idle → s.phase t' ≠ .idle → t = t'
  phase : ∀ t, PhaseInv generations s.node (s.phase t)
  rest : Consistent generations s

/-- The busy thread moves on. -/
theorem SyncInv.move {s : SyncState Hash} {t : ℕ} {p : Phase Hash} {node : Node}
    (halone : ∀ t', t' ≠ t → s.phase t' = .idle) (hphase : PhaseInv generations node p)
    (hrest : p = .idle → HoldsRecorded generations node) : SyncInv generations (s.move t p node) := by
  have hothers : ∀ t', t' ≠ t → (s.move t p node).phase t' = .idle := by
    intro t' ht'
    rw [move_phase_of_ne _ _ _ _ ht', halone t' ht']
  refine ⟨fun t₁ t₂ h₁ h₂ => ?_, fun t' => ?_, fun hquiet => hrest ?_⟩
  · rw [not_imp_comm.mp (hothers t₁) h₁, not_imp_comm.mp (hothers t₂) h₂]
  · by_cases ht' : t' = t
    · rw [ht', move_phase]
      exact hphase
    · rw [hothers t' ht']
      trivial
  · rw [← move_phase s t p node]
    exact hquiet t

/-- The other threads are idle while one is busy. -/
theorem SyncInv.others_idle {s : SyncState Hash} (hinv : SyncInv generations s) {t : ℕ}
    {p : Phase Hash} (hp : s.phase t = p) (hbusy : p ≠ .idle) :
    ∀ t', t' ≠ t → s.phase t' = .idle := by
  intro t' hne
  by_contra ht'
  rw [← hp] at hbusy
  exact hne (hinv.alone t' t ht' hbusy)

/-- What is known of a thread in a phase. -/
theorem SyncInv.phase_at {s : SyncState Hash} (hinv : SyncInv generations s) {t : ℕ}
    {p : Phase Hash} (hp : s.phase t = p) : PhaseInv generations s.node p := by
  rw [← hp]
  exact hinv.phase t

end Content

section Steps

variable [DecidableEq Hash] (contentHash : Sections → Hash) (generations : ℕ → Generation Hash)

/-- **One step keeps the invariant.** -/
theorem SyncInv.step {s s' : SyncState Hash} {a : SyncAction} (hinv : SyncInv generations s)
    (hok : Undisturbed generations s a)
    (h : syncStep contentHash generations s a = some s') : SyncInv generations s' := by
  cases a with
  | publish =>
      cases h
      exact ⟨hinv.alone, hinv.phase, hinv.rest⟩
  | start t force =>
      simp only [syncStep] at h
      split at h
      · split_ifs at h
        · rw [← Option.some.inj h]
          exact hinv
        · rw [← Option.some.inj h]
          exact .move generations (fun t' _ => hok t') (hinv.rest hok) (fun hp => by cases hp)
      · cases h
  | fetch t reachable =>
      simp only [syncStep] at h
      split at h
      · rename_i hp
        have hothers := hinv.others_idle generations hp (by simp)
        have hrec := hinv.phase_at generations hp
        split at h
        · rename_i g hg
          split at h
          · rw [← Option.some.inj h]
            exact .move generations hothers trivial fun _ => hrec
          · rw [← Option.some.inj h]
            exact .move generations hothers ⟨fetchLatest_published generations hg, hrec⟩
              (fun hp => by cases hp)
        · rw [← Option.some.inj h]
          exact .move generations hothers trivial fun _ => hrec
      · cases h
  | snapshot t =>
      simp only [syncStep] at h
      split at h
      · rename_i hp
        have hothers := hinv.others_idle generations hp (by simp)
        obtain ⟨hg, hrec⟩ := hinv.phase_at generations hp
        rw [← Option.some.inj h]
        exact .move generations hothers ⟨hg, hrec, rfl⟩ (fun hp => by cases hp)
      · cases h
  | apply t =>
      simp only [syncStep] at h
      split at h
      · rename_i hp
        have hothers := hinv.others_idle generations hp (by simp)
        obtain ⟨hg, hrec, hsnap⟩ := hinv.phase_at generations hp
        split at h
        · rw [← Option.some.inj h]
          exact .move generations hothers trivial fun _ => hrec
        · rename_i db happly
          rw [← Option.some.inj h]
          exact .move generations hothers ⟨hg, s.node.db, hsnap, hrec, happly⟩
            (fun hp => by cases hp)
      · cases h
  | deploy t outcome =>
      simp only [syncStep] at h
      split at h
      · rename_i hp
        have hothers := hinv.others_idle generations hp (by simp)
        obtain ⟨hg, before, hsnap, hrec, happly⟩ := hinv.phase_at generations hp
        cases outcome with
        | raised => exact absurd hok id
        | ok =>
            rw [← Option.some.inj h]
            refine .move generations hothers ?_ (fun hp => by cases hp)
            have hholds := holdsContent_apply happly
            rw [hg] at hholds
            exact hholds
        | failed =>
            rw [← Option.some.inj h]
            exact .move generations hothers ⟨hok, before, hsnap, hrec, happly⟩
              (fun hp => by cases hp)
      · cases h
  | restore t =>
      simp only [syncStep] at h
      split at h
      · rename_i hp
        have hothers := hinv.others_idle generations hp (by simp)
        obtain ⟨hclients, before, hsnap, hrec, happly⟩ := hinv.phase_at generations hp
        rw [hsnap, restoreSnapshot_spec happly] at h
        rw [← Option.some.inj h]
        refine .move generations hothers trivial fun _ hpos => ?_
        exact ⟨(hrec hpos).tables, (hrec hpos).settings, hclients hpos⟩
      · cases h
  | record t =>
      simp only [syncStep] at h
      split at h
      · rename_i hp
        have hothers := hinv.others_idle generations hp (by simp)
        have hholds := hinv.phase_at generations hp
        rw [← Option.some.inj h]
        exact .move generations hothers trivial fun _ _ => hholds
      · cases h

/-- **A replica at rest holds the generation it has recorded**, after every run whose steps are
undisturbed.  A replica that has recorded nothing yet may hold anything. -/
theorem consistent_of_run {s s' : SyncState Hash} {as : List SyncAction} (hquiet : Quiet s)
    (hrec : HoldsRecorded generations s.node)
    (hok : StepsMeet (syncStep contentHash generations) (Undisturbed generations) s as)
    (hrun : run (syncStep contentHash generations) s as = some s') : Consistent generations s' := by
  have hinit : SyncInv generations s := by
    refine ⟨fun t _ ht => absurd (hquiet t) ht, fun t => ?_, fun _ => hrec⟩
    rw [hquiet t]
    trivial
  have hstep : ∀ s a s', SyncInv generations s → Undisturbed generations s a →
      syncStep contentHash generations s a = some s' → SyncInv generations s' :=
    fun s a s' hinv hok h => hinv.step contentHash generations hok h
  exact (run_invariant hstep as s s' hinit hok hrun).rest

end Steps

/-! ### Two syncs that overlap

Thread 0 applies generation 1 and deploys.  Meanwhile thread 1 applies and records generation 2.
Then thread 0 records generation 1. -/

/-- A replica with an empty `categories` table only. -/
def categoryReplica : SyncState Unit where
  node :=
    { db :=
        { tables := fun
            | .categories => some LegalRows.empty
            | _ => none
          settings := fun _ => none
          access := ⟨none, none, none⟩ }
      paused := false
      lastApplied := 0 }
  latest := 0
  phase _ := .idle

/-- Generation `n` has one category, whose key has `n` letters. -/
def categoryGenerations (n : ℕ) : Generation Unit where
  number := n
  schemaVersion := 1
  contentHash := ()
  sections :=
    { tables := fun
        | .categories => some [some (⟨List.replicate n 'c', [], []⟩ : CategoryRow)]
        | _ => none
      settings := fun _ => none
      clients := none
      accessRules := none }

/-- The keys in the `categories` table. -/
def categoryKeys (s : SyncState Unit) : Option (List Str) :=
  (s.node.db.tables .categories).map fun rows => rows.1.map CategoryRow.key

def oneSync : List SyncAction :=
  [.publish, .start 0 false, .fetch 0 true, .snapshot 0, .apply 0, .deploy 0 .ok, .record 0]

def overlappingSyncs : List SyncAction :=
  [.publish, .start 0 false, .fetch 0 true, .snapshot 0, .apply 0,
    .publish, .start 1 true, .fetch 1 true, .snapshot 1, .apply 1, .deploy 1 .ok, .record 1,
    .deploy 0 .ok, .record 0]

/-- `consistent_of_run` for one sync. -/
theorem consistent_of_run_oneSync : ∃ s',
    run (syncStep (fun _ => ()) categoryGenerations) categoryReplica oneSync = some s' ∧
    s'.node.lastApplied = 1 ∧ Consistent categoryGenerations s' := by
  have hrun : (run (syncStep (fun _ => ()) categoryGenerations) categoryReplica oneSync).map
      (·.node.lastApplied) = some 1 := by decide +kernel
  obtain ⟨s', hs', hlast⟩ := Option.map_eq_some_iff.mp hrun
  have hok : StepsMeet (syncStep (fun _ => ()) categoryGenerations)
      (Undisturbed categoryGenerations) categoryReplica oneSync := by
    refine ⟨trivial, fun s hs => ⟨?_, fun _ _ => ⟨trivial, fun _ _ => ⟨trivial, fun _ _ =>
      ⟨trivial, fun _ _ => ⟨trivial, fun _ _ => ⟨trivial, fun _ _ => trivial⟩⟩⟩⟩⟩⟩⟩
    cases hs
    exact fun _ => rfl
  exact ⟨s', hs', hlast, consistent_of_run (fun _ => ()) categoryGenerations (fun _ => rfl)
    (fun hpos => absurd hpos (lt_irrefl 0)) hok hs'⟩

/-- Both threads are at rest, generation 1 is recorded, and the tables hold generation 2. -/
theorem stale_generation_recorded : ∃ s',
    run (syncStep (fun _ => ()) categoryGenerations) categoryReplica overlappingSyncs = some s' ∧
    Quiet s' ∧ s'.node.lastApplied = 1 ∧ categoryKeys s' = some ["cc".toList] ∧
    ¬ Consistent categoryGenerations s' := by
  have hrun : (run (syncStep (fun _ => ()) categoryGenerations) categoryReplica
      overlappingSyncs).map (fun s => (s.node.lastApplied, categoryKeys s))
      = some (1, some ["cc".toList]) := by decide +kernel
  obtain ⟨s', hs', hfacts⟩ := Option.map_eq_some_iff.mp hrun
  obtain ⟨hlast, hkeys⟩ := Prod.mk.inj hfacts
  have hquiet : Quiet s' := by
    intro t
    have hphase : (run (syncStep (fun _ => ()) categoryGenerations) categoryReplica
        overlappingSyncs).map (·.phase t) = some .idle := by
      rcases t with _ | _ | t <;> rfl
    rw [hs', Option.map_some, Option.some.injEq] at hphase
    exact hphase
  refine ⟨s', hs', hquiet, hlast, hkeys, fun h => ?_⟩
  have hholds := h hquiet (by rw [hlast]; exact Nat.one_pos)
  rw [hlast] at hholds
  obtain ⟨rows, hrows, hmap⟩ := Option.map_eq_some_iff.mp hkeys
  have hcontent := hholds.tables .categories _ rows rfl hrows
  have hone : rows.1 = [(⟨['c'], [], []⟩ : CategoryRow)] :=
    List.map_injective_iff.mpr (Option.some_injective _) hcontent
  rw [hone] at hmap
  exact absurd hmap (by decide)

end AlderpointDNS
