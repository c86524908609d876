import AlderpointDNS.Backup.Interrupted
import AlderpointDNS.Backup.LeftOut
import AlderpointDNS.Lib.FileTree
import AlderpointDNS.Upstream.Resolvers

/-!
# Rolling back a restore

`restore_backup` moves each live path it replaces to a name in `BACKUP_DIR`, made of the name of
the file and a millisecond, and installs the archive's copy.  When it fails before the database is
promoted, `_rollback_paths` undoes the moves in reverse order, skipping every step that raises.
When no table was merged, nothing is promoted, and `deploy_upstreams` runs on the live database
before the restore can still fail.

* `restorePaths_nested` — a path is replaced after the directories it is in, never before;
* `rollbackPaths_replaceAll` — the moves, undone;
* **`files_of_rolledBack`** — the files after a restore that is rolled back;
* `deployUpstreams_ne` — `deploy_upstreams` leaves a row, however it ends.
* **`rolledBack_iff`** — the restores that are rolled back without a trace.
* `rolled_back_after_deploy` — a restore of the configuration whose upstreams do not resolve.

Not modelled: owners and modes, symbolic links, the tables about backups and restores themselves,
services, an exception between the rename of the database and `promoted = True` (see
`Interrupted`), and what other processes write meanwhile.
-/

namespace AlderpointDNS.Backup

open Text FileTree

variable {γ : Type}

/-! ## Paths -/

abbrev Path := List Str

def backupDir : Path := ["var", "lib", "alderpointdns", "backups"].map String.toList

def etcAlderpointdns : Path := ["etc", "alderpointdns"].map String.toList

def certDir : Path := etcAlderpointdns ++ ["certs".toList]

def etcBind : Path := ["etc", "bind"].map String.toList

def bindConfFiles : List Str :=
  ["named.conf", "named.conf.local", "named.conf.options"].map String.toList

def dnsdistConf : Path := ["etc", "dnsdist", "dnsdist.conf"].map String.toList

def compiledDir : Path := ["var", "lib", "alderpointdns", "compiled"].map String.toList

def localZoneDir : Path := compiledDir ++ ["bind", "local"].map String.toList

def localZonesConf : Path := compiledDir ++ ["bind", "local-zones.conf"].map String.toList

def downloadsDir : Path := ["var", "lib", "alderpointdns", "downloads"].map String.toList

def systemdDir : Path := ["etc", "systemd", "system"].map String.toList

def sudoersFile : Path := ["etc", "sudoers.d", "alderpointdns"].map String.toList

def systemdUnits : List Str :=
  ["alderpointdns.service", "alderpointdns-analytics.service", "alderpointdns.service.d",
    "alderpointdns-analytics.service.d", "dnsdist.service.d"].map String.toList

def secretNames : List Str :=
  ["secrets.env", "dnsdist-api.key", "dnsdist-web.creds"].map String.toList

/-- The extracted archive; its paths are those of the live tree. -/
structure Extracted (γ : Type) where
  entries : Dict Path (Entry γ)
  closed : ∀ q r, entries.lookup q = none → entries.lookup (q ++ r) = none

/-- Every entry stands in a directory that is an entry. -/
theorem closed_of_dropLast {entries : Dict Path (Entry γ)}
    (h : ∀ p ∈ entries.keys, p.dropLast ∈ entries.keys) (q r : Path)
    (hq : entries.lookup q = none) : entries.lookup (q ++ r) = none := by
  induction r using List.reverseRecOn with
  | nil => rwa [List.append_nil]
  | append_singleton r x ih =>
      rw [AList.lookup_eq_none] at ih ⊢
      intro hmem
      have hparent := h _ hmem
      rw [← List.append_assoc, List.dropLast_concat] at hparent
      exact ih hparent

def Extracted.tree (archive : Extracted γ) : FileTree Str γ where
  entry := archive.entries.lookup
  closed := archive.closed

/-- The name of a file right below `CERT_DIR`. -/
def certName (archive : Extracted γ) (p : Path) : Option Str :=
  match archive.tree.entry p with
  | some (.file _) => if p.dropLast = certDir then p.getLast? else none
  | _ => none

/-- `staged_file.suffix == ".crt"`. -/
def isPublic (name : Str) : Bool := endsWith name ".crt".toList && 4 < name.length

/-- `sorted(staged_cert_dir.iterdir())`, without what is skipped. -/
def certFiles (effective : Components) (archive : Extracted γ) : List Str :=
  (sorted (archive.entries.keys.filterMap (certName archive))).filter fun name =>
    if isPublic name then effective .certificates else effective .privateKeys

/-- The live paths of a restore in order; those that the archive lacks are skipped later. -/
def restorePaths (effective : Components) (archive : Extracted γ) : List Path :=
  (if effective .appConfig
    then compiledDir :: systemdUnits.map (systemdDir ++ [·]) ++ [sudoersFile] else []) ++
  (if effective .localDnsZones then [localZoneDir, localZonesConf] else []) ++
  (if effective .lastDownloadedLists then [downloadsDir] else []) ++
  (if effective .dnsdistSourceConfig then [dnsdistConf] else []) ++
  (if effective .bindSourceConfig then bindConfFiles.map (etcBind ++ [·]) else []) ++
  (certFiles effective archive).map (certDir ++ [·]) ++
  (if effective .privateKeys || effective .userAuthData
    then secretNames.map (etcAlderpointdns ++ [·]) else [])

/-! ## `_replace_path` -/

/-- Where a call of `_replace_path` raises, and what it leaves. -/
inductive ReplaceFailure (γ : Type) where
  /-- `mkdir`, after making some of the parents -/
  | makingParents (made : ℕ)
  /-- `shutil.move`, with what is then at the live path and at the backup name -/
  | moving (atLive atTarget : FileTree Str γ)
  /-- the copy, with what is then at the live path -/
  | copying (atLive : FileTree Str γ)

/-- What a call of `_replace_path` meets. -/
structure ReplaceStep (γ : Type) where
  /-- `int(time.time() * 1000)` -/
  clock : ℕ
  failure : Option (ReplaceFailure γ)

/-- `BACKUP_DIR / f"{live.name}.pre-restore.{..}"`. -/
def backupTarget (live : Path) (clock : ℕ) : Path :=
  backupDir ++ [live.getLast?.getD [] ++ (".pre-restore.".toList ++ Nat.toDigits 10 clock)]

/-- The live files and `file_backups`, newest first; `none` is for `Path("")`. -/
structure FileState (γ : Type) where
  tree : FileTree Str γ
  backups : List (Path × Option Path)

/-- `shutil.move`: into a directory, over a file, or to a new name. -/
def shutilMove (t : FileTree Str γ) (p p' : Path) : Option (FileTree Str γ) :=
  match t.entry p', t.entry p with
  | none, _ => some (t.rename p p')
  | some .dir, _ =>
      let real := p' ++ [p.getLast?.getD []]
      if t.entry real = none then some (t.rename p real) else none
  | some (.file _), some (.file _) => some (t.rename p p')
  | some (.file _), _ => none

/-- The part of `_replace_path` that moves the live path away; `true` when it raises. -/
def backUpLive (step : ReplaceStep γ) (live : Path) (s : FileState γ) : FileState γ × Bool :=
  if s.tree.entry live = none then ({ s with backups := (live, none) :: s.backups }, false)
  else
    let target := backupTarget live step.clock
    match step.failure with
    | some (.moving atLive atTarget) =>
        ({ s with tree := (s.tree.graft target atTarget).graft live atLive }, true)
    | _ =>
        match shutilMove s.tree live target with
        | none => (s, true)
        | some tree => ({ tree := tree, backups := (live, some target) :: s.backups }, false)

/-- The part of `_replace_path` that installs the archive's copy. -/
def installStaged (step : ReplaceStep γ) (archive : Extracted γ) (live : Path) (s : FileState γ) :
    FileState γ × Bool :=
  match step.failure with
  | some (.copying atLive) => ({ s with tree := s.tree.graft live atLive }, true)
  | _ => ({ s with tree := s.tree.graft live (archive.tree.subtree live) }, false)

/-- `_replace_path`. -/
def replacePath (step : ReplaceStep γ) (archive : Extracted γ) (live : Path) (s : FileState γ) :
    FileState γ × Bool :=
  if archive.tree.entry live = none then (s, false)
  else
    match step.failure with
    | some (.makingParents made) => ({ s with tree := s.tree.makeParents made live }, true)
    | _ =>
        match backUpLive step live { s with tree := s.tree.makeParents live.length live } with
        | (s, true) => (s, true)
        | (s, false) => installStaged step archive live s

/-- The calls of `_replace_path`, up to the first that raises. -/
def replaceAll (steps : Path → ReplaceStep γ) (archive : Extracted γ) :
    List Path → FileState γ → FileState γ × Bool
  | [], s => (s, false)
  | live :: paths, s =>
      match replacePath (steps live) archive live s with
      | (s, true) => (s, true)
      | (s, false) => replaceAll steps archive paths s

/-! ## `_rollback_paths` -/

/-- What a step of the rollback that raises leaves at the live path and at the backup. -/
abbrev RollbackFailures (γ : Type) := Path → Option (FileTree Str γ × FileTree Str γ)

/-- One step of `_rollback_paths`. -/
def rollbackPath (fails : RollbackFailures γ) (tree : FileTree Str γ) :
    Path × Option Path → FileTree Str γ
  | (live, none) =>
      match fails live with
      | some (atLive, _) => tree.graft live atLive
      | none => tree.remove live
  | (live, some target) =>
      match fails live with
      | some (atLive, atTarget) => (tree.graft target atTarget).graft live atLive
      | none =>
          let tree := tree.remove live
          if tree.entry target = none then tree else tree.rename target live

/-- `_rollback_paths`. -/
def rollbackPaths (fails : RollbackFailures γ) (backups : List (Path × Option Path))
    (tree : FileTree Str γ) : FileTree Str γ :=
  backups.foldl (rollbackPath fails) tree

/-! ## `deploy_upstreams` -/

/-- A row of `upstream_resolvers`, without the columns of the probes. -/
structure ResolverRow extends Upstream.Resolver where
  lastStatus : Str
  lastMessage : Str
  deriving DecidableEq

/-- A row of `upstream_deployments`. -/
structure UpstreamDeployment where
  id : ℕ
  startedAt : Str
  finishedAt : Option Str
  status : Str
  message : Str
  validationOutput : Str
  deriving DecidableEq

/-- The live database, without the tables about backups and restores. -/
structure LiveTables where
  resolvers : Option (List ResolverRow)
  deployments : Option (List UpstreamDeployment)
  others : SqlDatabase

/-- The files that `deploy_upstreams` writes; its own backups carry a time in seconds. -/
inductive DeployFile where
  | dnsdistUpstreamConf
  | bindForwardersConf
  | dnsdistConf
  | namedOptionsConf
  | lastGood (forwarders : Bool) (time : ℕ)
  | preUpstream (named : Bool) (time : ℕ)

def upstreamConfName : Str := "upstream-forwarder.conf".toList

def forwardersConfName : Str := "upstream-forwarders.conf".toList

def namedOptionsName : Str := "named.conf.options".toList

def dnsdistConfName : Str := "dnsdist.conf".toList

def DeployFile.path : DeployFile → Path
  | .dnsdistUpstreamConf => compiledDir ++ ["dnsdist".toList, upstreamConfName]
  | .bindForwardersConf => compiledDir ++ ["bind".toList, forwardersConfName]
  | .dnsdistConf => Backup.dnsdistConf
  | .namedOptionsConf => etcBind ++ [namedOptionsName]
  | .lastGood forwarders time =>
      backupDir ++ [(if forwarders then forwardersConfName else upstreamConfName) ++
        (".last-good.".toList ++ Nat.toDigits 10 time)]
  | .preUpstream named time =>
      backupDir ++ [(if named then namedOptionsName else dnsdistConfName) ++
        (".pre-upstream.".toList ++ Nat.toDigits 10 time)]

/-- A run of `deploy_upstreams` as seen from outside. -/
structure DeployUpstreams (γ : Type) where
  /-- the `forwarders` of `named.conf.options`, those that are no address being `none` -/
  servers : List (Option String)
  port : ℕ
  started : Str
  finished : Str
  /-- what it writes to its files, or removes, in order -/
  writes : List (DeployFile × Option γ)
  /-- the message of an exception -/
  failure : Option Str
  /-- why an enabled resolver is not in the configuration -/
  renderFailure : ℕ → Option Str
  /-- what dnsdist says about a resolver -/
  backendUp : ℕ → Option Bool
  message : Str
  validationOutput : Str

/-- `seed_from_named_options`. -/
def seedFromNamedOptions (servers : List (Option String)) (port : ℕ) : List ResolverRow :=
  let named := (servers.zipIdx 1).filterMap fun (server, idx) => server.map (·, idx)
  (named.zipIdx 1).map fun ((address, idx), id) =>
    { id := id, enabled := true, position := idx, lastStatus := "unknown".toList, lastMessage := []
      settings :=
        { name := "Imported upstream " ++ toString idx, protocol := .plain, address := address
          port := port, dohPath := "", tlsHostname := "", bootstrapIps := "" } }

/-- `UPDATE upstream_deployments … WHERE id=?`. -/
def finishDeployment (id : ℕ) (f : UpstreamDeployment → UpstreamDeployment)
    (rows : List UpstreamDeployment) : List UpstreamDeployment :=
  rows.map fun row => if row.id = id then f row else row

def nextDeploymentId (rows : List UpstreamDeployment) : ℕ :=
  (rows.map (·.id)).foldr max 0 + 1

def ResolverRow.setStatus (row : ResolverRow) (status message : Str) : ResolverRow :=
  { row with lastStatus := status, lastMessage := message }

/-- The UPDATEs of `upstream_resolvers` after a deployment. -/
def probedRow (d : DeployUpstreams γ) (row : ResolverRow) : ResolverRow :=
  if row.enabled then
    match d.renderFailure row.id, d.backendUp row.id with
    | some message, _ => row.setStatus "failed".toList (message.take 400)
    | none, some true =>
        row.setStatus "healthy".toList "dnsdist marked this upstream reachable".toList
    | none, some false =>
        row.setStatus "failed".toList ("dnsdist marked this upstream unreachable; " ++
          "other enabled upstreams are handling traffic").toList
    | none, none => row
  else row

/-- `UPDATE upstream_resolvers SET last_status='failed', … WHERE enabled=1`. -/
def failedRow (message : Str) (row : ResolverRow) : ResolverRow :=
  if row.enabled then row.setStatus "failed".toList (message.take 400) else row

def lastEnabledMessage : Str := "At least one upstream resolver must be enabled.".toList

/-- The resolvers after `init_db`. -/
def deployedResolvers (d : DeployUpstreams γ) (tables : LiveTables) : List ResolverRow :=
  let resolvers := tables.resolvers.getD []
  if resolvers = [] then seedFromNamedOptions d.servers d.port else resolvers

/-- `deploy_upstreams` on the database; `true` when it raises. -/
def deployUpstreams (d : DeployUpstreams γ) (tables : LiveTables) : LiveTables × Bool :=
  let resolvers := deployedResolvers d tables
  let id := nextDeploymentId (tables.deployments.getD [])
  let deployments := tables.deployments.getD [] ++ [{
    id := id, startedAt := d.started, finishedAt := none, status := "running".toList
    message := [], validationOutput := [] }]
  let finish (status message : Str) := finishDeployment id (fun row =>
    { row with finishedAt := some d.finished, status := status, message := message
               validationOutput := d.validationOutput }) deployments
  if resolvers.all (!·.enabled) then
    let deployments := finishDeployment id (fun row =>
      { row with finishedAt := some d.finished, status := "failed".toList
                 message := lastEnabledMessage }) deployments
    ({ tables with resolvers := some resolvers, deployments := some deployments }, true)
  else
    match d.failure with
    | some message =>
        ({ tables with
            resolvers := some (resolvers.map (failedRow message))
            deployments := some (finish "rolled_back".toList message) }, true)
    | none =>
        ({ tables with
            resolvers := some (resolvers.map (probedRow d))
            deployments := some (finish "deployed".toList d.message) }, false)

/-- One write, or removal, of `deploy_upstreams`. -/
def deployWrite (t : FileTree Str γ) (write : DeployFile × Option γ) : FileTree Str γ :=
  t.graft write.1.path (write.2.elim FileTree.empty FileTree.ofFile)

/-- `deploy_upstreams` on the files; without an enabled resolver it does not get to them. -/
def deployFiles (d : DeployUpstreams γ) (tables : LiveTables) (t : FileTree Str γ) :
    FileTree Str γ :=
  if (deployedResolvers d tables).all (!·.enabled) then t else d.writes.foldl deployWrite t

/-! ## A restore -/

/-- A restore, the live files and tables it starts from, and what it meets. -/
structure RestoreAttempt (γ : Type) where
  included : Components
  selected : Components
  archive : Extracted γ
  tree : FileTree Str γ
  tables : LiveTables
  /-- an exception before the first live path -/
  raisesBefore : Bool
  steps : Path → ReplaceStep γ
  /-- an exception after the last live path, before the promotion or `deploy_upstreams` -/
  raisesBetween : Bool
  /-- the tables after the promotion, if a table was merged -/
  promoted : Option LiveTables
  deploy : DeployUpstreams γ
  /-- `resolves(..)` after the restore -/
  resolves : Bool
  rollbackFails : RollbackFailures γ
  /-- an exception when the services are restarted after the rollback -/
  servicesRaise : Bool
  /-- `resolves(..)` after the rollback -/
  resolvesAgain : Bool

structure RestoreOutcome (γ : Type) where
  status : RestoreStatus
  tree : FileTree Str γ
  tables : LiveTables

namespace RestoreAttempt

variable (r : RestoreAttempt γ)

def effective : Components := effectiveComponents r.included r.selected

def paths : List Path := restorePaths r.effective r.archive

/-- The files before the database, and whether something has raised. -/
def replaced : FileState γ × Bool :=
  if r.raisesBefore then ({ tree := r.tree, backups := [] }, true)
  else replaceAll r.steps r.archive r.paths { tree := r.tree, backups := [] }

/-- `deploy_upstreams` is called, unless something raises before. -/
def deploys : Bool :=
  r.effective .sqliteData || r.effective .appConfig || r.effective .dnsdistSourceConfig ||
    r.effective .bindSourceConfig

/-- The end of a restore after the promotion, or where nothing is promoted. -/
def reconcile (s : FileState γ) (tables : LiveTables) : FileState γ × LiveTables × Bool :=
  if r.deploys then
    let (tables', raised) := deployUpstreams r.deploy tables
    ({ s with tree := deployFiles r.deploy tables s.tree }, tables', raised || !r.resolves)
  else (s, tables, !r.resolves)

/-- The `except` block before the promotion. -/
def rollBack (s : FileState γ) (tables : LiveTables) : RestoreOutcome γ where
  status := if !r.servicesRaise && r.resolvesAgain then .rolledBack else .rollbackFailed
  tree := rollbackPaths r.rollbackFails s.backups s.tree
  tables := tables

/-- `restore_backup`. -/
def run : RestoreOutcome γ :=
  let (s, raised) := r.replaced
  if raised || r.raisesBetween then r.rollBack s r.tables
  else
    let (s, tables, raised) := r.reconcile s (r.promoted.getD r.tables)
    if !raised then { status := .deployed, tree := s.tree, tables := tables }
    else if r.promoted.isSome then
      { status := .promotedRecoveryRequired, tree := s.tree, tables := tables }
    else r.rollBack s tables

end RestoreAttempt

/-! ## The order of the paths -/

/-- The fixed paths before the certificates. -/
def pathsBefore : List Path :=
  (compiledDir :: systemdUnits.map (systemdDir ++ [·]) ++ [sudoersFile]) ++
    [localZoneDir, localZonesConf] ++ [downloadsDir] ++ [dnsdistConf] ++
    bindConfFiles.map (etcBind ++ [·])

/-- The fixed paths after them. -/
def pathsAfter : List Path := secretNames.map (etcAlderpointdns ++ [·])

theorem ite_sublist {α : Type} (c : Prop) [Decidable c] (l : List α) :
    (if c then l else []).Sublist l := by
  split_ifs
  · exact List.Sublist.refl l
  · exact List.nil_sublist l

theorem restorePaths_sublist (effective : Components) (archive : Extracted γ) :
    (restorePaths effective archive).Sublist
      (pathsBefore ++ (certFiles effective archive).map (certDir ++ [·]) ++ pathsAfter) := by
  unfold restorePaths pathsBefore pathsAfter
  refine List.Sublist.append (List.Sublist.append ?_ (List.Sublist.refl _)) (ite_sublist _ _)
  refine List.Sublist.append ?_ (ite_sublist _ _)
  refine List.Sublist.append ?_ (ite_sublist _ _)
  refine List.Sublist.append ?_ (ite_sublist _ _)
  exact List.Sublist.append (ite_sublist _ _) (ite_sublist _ _)

theorem apart_backupDir {effective : Components} {archive : Extracted γ} {p : Path}
    (h : p ∈ restorePaths effective archive) : Apart p backupDir := by
  have hbefore : ∀ p ∈ pathsBefore, Apart p backupDir := by decide +kernel
  have hafter : ∀ p ∈ pathsAfter, Apart p backupDir := by decide +kernel
  have hcert : Apart backupDir certDir := by decide +kernel
  have hmem := (restorePaths_sublist effective archive).subset h
  simp only [List.mem_append, List.mem_map] at hmem
  rcases hmem with (hp | ⟨name, -, rfl⟩) | hp
  · exact hbefore p hp
  · exact (hcert.append [name]).symm
  · exact hafter p hp

/-- **A path is replaced after the directories it is in, never before.** -/
theorem restorePaths_nested (effective : Components) (archive : Extracted γ) :
    (restorePaths effective archive).Pairwise fun p q => q <+: p → q = p := by
  have hbefore : pathsBefore.Pairwise fun p q => q <+: p → q = p := by decide +kernel
  have hafter : pathsAfter.Pairwise fun p q => q <+: p → q = p := by decide +kernel
  have hcert : ∀ p ∈ pathsBefore, ¬ certDir <+: p := by decide +kernel
  have hsecrets : ∀ q ∈ pathsAfter, ¬ q <+: certDir ∧ ∀ p ∈ pathsBefore, ¬ q <+: p := by
    decide +kernel
  refine List.Pairwise.sublist (restorePaths_sublist effective archive) ?_
  refine List.pairwise_append.mpr ⟨List.pairwise_append.mpr ⟨hbefore, ?_, ?_⟩, hafter, ?_⟩
  · refine List.pairwise_map.mpr (List.pairwise_of_forall fun a b h => ?_)
    exact h.eq_of_length (by simp)
  · intro p hp q hq h
    obtain ⟨name, -, rfl⟩ := List.mem_map.mp hq
    exact absurd ((List.prefix_append certDir [name]).trans h) (hcert p hp)
  · intro p hp q hq h
    obtain ⟨hdir, hfixed⟩ := hsecrets q hq
    rcases List.mem_append.mp hp with hp | hp
    · exact absurd h (hfixed p hp)
    · obtain ⟨name, -, rfl⟩ := List.mem_map.mp hp
      rcases List.prefix_concat_iff.mp h with h | h
      · exact h
      · exact absurd h hdir

theorem length_backupTarget (live : Path) (clock : ℕ) : (backupTarget live clock).length = 5 := by
  simp [backupTarget, backupDir]

theorem apart_of_length_eq {p q : Path} (hlen : p.length = q.length) (h : p ≠ q) : Apart p q :=
  ⟨fun hpq => h (hpq.eq_of_length hlen), fun hqp => h (hqp.eq_of_length hlen.symm).symm⟩

/-! ### The files of `deploy_upstreams` -/

theorem dot_notMem_toDigits (n : ℕ) : '.' ∉ Nat.toDigits 10 n := fun h =>
  absurd (Nat.isDigit_of_mem_toDigits (by decide) (by decide) h) (by decide)

/-- Two names that end in a mark and a number have the mark in common. -/
theorem mark_inj {x y mark mark' : Str} {n m : ℕ} (hmark : '.' ∉ mark) (hmark' : '.' ∉ mark')
    (h : x ++ ('.' :: mark ++ '.' :: Nat.toDigits 10 n) =
      y ++ ('.' :: mark' ++ '.' :: Nat.toDigits 10 m)) : mark = mark' := by
  rw [← List.append_assoc, ← List.append_assoc] at h
  have hhead := (append_cons_inj_last (dot_notMem_toDigits n) (dot_notMem_toDigits m) h).1
  exact (append_cons_inj_last hmark hmark' hhead).2

theorem apart_of_mark {name live : Str} (mark : Str) {time clock : ℕ} (hmark : '.' ∉ mark)
    (hne : mark ≠ "pre-restore".toList) :
    Apart (backupDir ++ [name ++ ('.' :: mark ++ '.' :: Nat.toDigits 10 time)])
      (backupDir ++ [live ++ (".pre-restore.".toList ++ Nat.toDigits 10 clock)]) := by
  refine apart_of_length_eq (by simp) fun h => hne ?_
  have hnames := List.cons.inj (List.append_cancel_left h)
  exact mark_inj hmark (by decide) hnames.1

theorem DeployFile.apart_backupTarget (file : DeployFile) (live : Path) (clock : ℕ) :
    Apart file.path (backupTarget live clock) := by
  cases file with
  | dnsdistUpstreamConf => exact Apart.append (by decide +kernel) _
  | bindForwardersConf => exact Apart.append (by decide +kernel) _
  | dnsdistConf => exact Apart.append (by decide +kernel) _
  | namedOptionsConf => exact Apart.append (by decide +kernel) _
  | lastGood forwarders time => exact apart_of_mark "last-good".toList (by decide) (by decide)
  | preUpstream named time => exact apart_of_mark "pre-upstream".toList (by decide) (by decide)

/-- `deploy_upstreams` leaves what the restore has moved away alone. -/
theorem subtree_deployFiles (d : DeployUpstreams γ) (tables : LiveTables) (t : FileTree Str γ)
    (live : Path) (clock : ℕ) :
    (deployFiles d tables t).subtree (backupTarget live clock) =
      t.subtree (backupTarget live clock) := by
  unfold deployFiles
  split_ifs
  · rfl
  · induction d.writes generalizing t with
    | nil => rfl
    | cons write writes ih =>
        rw [List.foldl_cons, ih]
        exact subtree_graft_of_apart (write.1.apart_backupTarget live clock)

/-! ## A call of `_replace_path` -/

/-- The backup name is free, and a move that raises has left the live path as it was. -/
def StepSafe (step : ReplaceStep γ) (live : Path) (t : FileTree Str γ) : Prop :=
  t.entry live ≠ none → t.entry (backupTarget live step.clock) = none ∧
    ∀ atLive atTarget, step.failure = some (.moving atLive atTarget) → atLive = t.subtree live

/-- What a call of `_replace_path` leaves when it logs nothing. -/
structure NotLogged (live target : Path) (s s' : FileState γ) : Prop where
  backups : s'.backups = s.backups
  same : ∀ q, (q <+: live → q = live) → (s.tree.entry target = none → Apart target q) →
    s'.tree.subtree q = s.tree.subtree q

/-- What it leaves when there was no live file. -/
structure LoggedMissing (live : Path) (s s' : FileState γ) : Prop where
  backups : s'.backups = (live, none) :: s.backups
  missing : s.tree.entry live = none
  same : ∀ q, Apart live q → s'.tree.subtree q = s.tree.subtree q

/-- What it leaves when it has moved the live file away. -/
structure LoggedMove (live target : Path) (s s' : FileState γ) : Prop where
  backups : s'.backups = (live, some target) :: s.backups
  found : s.tree.entry live ≠ none
  free : s.tree.entry target = none
  moved : s'.tree.subtree target = s.tree.subtree live
  same : ∀ q, Apart live q → Apart target q → s'.tree.subtree q = s.tree.subtree q

variable {step : ReplaceStep γ} {archive : Extracted γ} {live : Path} {s : FileState γ}

variable (step archive live s) in
theorem installStaged_spec : (installStaged step archive live s).1.backups = s.backups ∧
    ∀ q, Apart live q → (installStaged step archive live s).1.tree.subtree q =
      s.tree.subtree q := by
  unfold installStaged
  split <;> exact ⟨rfl, fun q hq => subtree_graft_of_apart hq⟩

/-- The move, when it is safe. -/
theorem backUpLive_spec (hsafe : StepSafe step live s.tree)
    (hapart : Apart live (backupTarget live step.clock)) :
    ((backUpLive step live s).2 = true ∧
      NotLogged live (backupTarget live step.clock) s (backUpLive step live s).1) ∨
    ((backUpLive step live s).2 = false ∧
      (LoggedMissing live s (backUpLive step live s).1 ∨
        LoggedMove live (backupTarget live step.clock) s (backUpLive step live s).1)) := by
  unfold backUpLive
  by_cases hmissing : s.tree.entry live = none
  · rw [if_pos hmissing]
    exact .inr ⟨rfl, .inl ⟨rfl, hmissing, fun _ _ => rfl⟩⟩
  · obtain ⟨hfree, hleft⟩ := hsafe hmissing
    rw [if_neg hmissing]
    dsimp only
    split
    case h_1 atLive atTarget hfailure =>
      refine .inl ⟨rfl, rfl, fun q _ htarget => ?_⟩
      -- what the failed move leaves is outside of the live paths
      have hlive : atLive =
          (s.tree.graft (backupTarget live step.clock) atTarget).subtree live := by
        rw [hleft _ _ hfailure, subtree_graft_of_apart hapart.symm]
      have hentry : (s.tree.graft (backupTarget live step.clock) atTarget).entry live ≠ none := by
        rwa [graft_of_apart hapart.symm]
      dsimp only
      rw [hlive, graft_subtree hentry, subtree_graft_of_apart (htarget hfree)]
    case h_2 =>
      have hmove : shutilMove s.tree live (backupTarget live step.clock) =
          some (s.tree.rename live (backupTarget live step.clock)) := by
        unfold shutilMove
        rw [hfree]
      rw [hmove]
      exact .inr ⟨rfl, .inr ⟨rfl, hmissing, hfree, subtree_rename_self, fun q hq htarget =>
        subtree_rename_of_apart hq htarget⟩⟩

/-- **What a safe call of `_replace_path` does.** -/
theorem replacePath_spec (hstaged : archive.tree.entry live ≠ none)
    (hsafe : StepSafe step live s.tree) (hapart : Apart live (backupTarget live step.clock)) :
    ((replacePath step archive live s).2 = true ∧
      NotLogged live (backupTarget live step.clock) s (replacePath step archive live s).1) ∨
    LoggedMissing live s (replacePath step archive live s).1 ∨
    LoggedMove live (backupTarget live step.clock) s (replacePath step archive live s).1 := by
  have hparents : ∀ n q, (q <+: live → q = live) →
      (s.tree.makeParents n live).subtree q = s.tree.subtree q := fun n q =>
    subtree_makeParents
  have hself : ∀ n, (s.tree.makeParents n live).subtree live = s.tree.subtree live := fun n =>
    hparents n live fun _ => rfl
  have hentry : (s.tree.makeParents live.length live).entry live = s.tree.entry live :=
    entry_eq_of_subtree (hself _)
  have hother : ∀ q, Apart live q →
      (s.tree.makeParents live.length live).subtree q = s.tree.subtree q := fun q hq =>
    hparents _ q fun h => absurd h hq.2
  unfold replacePath
  rw [if_neg hstaged]
  split
  case h_1 made hfailure =>
    exact .inl ⟨rfl, rfl, fun q hq _ => hparents made q hq⟩
  case h_2 =>
    have hsafe' : StepSafe step live (s.tree.makeParents live.length live) := by
      intro hfound
      rw [hentry] at hfound
      rw [entry_eq_of_subtree (hother _ hapart), hself]
      exact hsafe hfound
    have hbackup := backUpLive_spec (s := { s with tree := s.tree.makeParents live.length live })
      hsafe' hapart
    have hfree : (s.tree.makeParents live.length live).entry (backupTarget live step.clock) =
        s.tree.entry (backupTarget live step.clock) := entry_eq_of_subtree (hother _ hapart)
    generalize backUpLive step live _ = result at hbackup
    obtain ⟨m, raised⟩ := result
    dsimp only at hbackup
    rcases hbackup with ⟨rfl, h⟩ | ⟨rfl, h | h⟩
    · refine .inl ⟨rfl, h.backups, fun q hq htarget => ?_⟩
      rw [h.same q hq (by rwa [hfree]), hparents _ q hq]
    · obtain ⟨hlog, hinstalled⟩ := installStaged_spec step archive live m
      refine .inr (.inl ⟨hlog.trans h.backups, hentry ▸ h.missing, fun q hq => ?_⟩)
      exact (hinstalled q hq).trans ((h.same q hq).trans (hother q hq))
    · obtain ⟨hlog, hinstalled⟩ := installStaged_spec step archive live m
      refine .inr (.inr ⟨hlog.trans h.backups, hentry ▸ h.found, hfree ▸ h.free, ?_,
        fun q hq htarget => ?_⟩)
      · exact (hinstalled _ hapart).trans (h.moved.trans (hself _))
      · exact (hinstalled q hq).trans ((h.same q hq htarget).trans (hother q hq))

/-! ## The moves, undone -/

/-- Every replaced path is as it was, and so is what was in the place of a backup. -/
structure Undone (archive : Extracted γ) (paths : List Path) (t u : FileTree Str γ) : Prop where
  live : ∀ p ∈ paths, archive.tree.entry p ≠ none → u.subtree p = t.subtree p
  kept : ∀ live clock, t.entry (backupTarget live clock) ≠ none →
    u.subtree (backupTarget live clock) = t.subtree (backupTarget live clock)

variable {fails : RollbackFailures γ} {paths : List Path} {t u : FileTree Str γ}

/-- A step of the rollback that completes. -/
theorem rollbackPath_missing (hfails : fails live = none) :
    rollbackPath fails u (live, none) = u.remove live := by
  simp only [rollbackPath, hfails]

theorem rollbackPath_move {target : Path} (hfails : fails live = none) (hapart : Apart live target)
    (hfound : u.entry target ≠ none) :
    rollbackPath fails u (live, some target) = (u.remove live).rename target live := by
  have hentry : (u.remove live).entry target ≠ none := by rwa [remove, graft_of_apart hapart]
  simp only [rollbackPath, hfails]
  exact if_neg hentry

/-- Of two backup names, the one that is taken is apart from the one that is free. -/
theorem apart_of_free {live' : Path} {clock clock' : ℕ}
    (hfree : t.entry (backupTarget live clock) = none)
    (hfound : t.entry (backupTarget live' clock') ≠ none) :
    Apart (backupTarget live clock) (backupTarget live' clock') := by
  refine apart_of_length_eq (by rw [length_backupTarget, length_backupTarget]) fun h => ?_
  rw [h] at hfree
  exact hfound hfree

/-- What is restored at a path is restored below it. -/
theorem subtree_eq_of_prefix {p q : Path} (hpq : p <+: q) (h : u.subtree p = t.subtree p) :
    u.subtree q = t.subtree q := by
  obtain ⟨r, rfl⟩ := hpq
  rw [subtree_append, subtree_append, h]

theorem Undone.refl : Undone archive paths t t := ⟨fun _ _ _ => rfl, fun _ _ _ => rfl⟩

/-- A call that raised before it logged anything needs no undoing. -/
theorem Undone.of_notLogged {clock : ℕ} {s s' : FileState γ}
    (h : NotLogged live (backupTarget live clock) s s')
    (hnested : ∀ p ∈ paths, p <+: live → p = live)
    (hapart : ∀ p ∈ live :: paths, ∀ live clock, Apart p (backupTarget live clock)) :
    Undone archive (live :: paths) s.tree s'.tree where
  live p hp _ := by
    refine h.same p ?_ fun _ => (hapart p hp live clock).symm
    rcases List.mem_cons.mp hp with rfl | hp
    · exact fun _ => rfl
    · exact hnested p hp
  kept live' clock' hfound := by
    refine h.same _ (fun hbelow => ?_) fun hfree => apart_of_free hfree hfound
    exact absurd hbelow (hapart live List.mem_cons_self live' clock').2

/-- The step of the rollback that undoes a call without a live file. -/
theorem Undone.missing {s s' : FileState γ} (h : LoggedMissing live s s')
    (hrest : Undone archive paths s'.tree u) (hfails : fails live = none)
    (hnested : ∀ p ∈ paths, p <+: live → p = live)
    (hapart : ∀ p ∈ live :: paths, ∀ live clock, Apart p (backupTarget live clock)) :
    Undone archive (live :: paths) s.tree (rollbackPath fails u (live, none)) := by
  rw [rollbackPath_missing hfails]
  have hself : (u.remove live).subtree live = s.tree.subtree live := by
    rw [subtree_remove_self, subtree_eq_empty h.missing]
  constructor
  · intro p hp hstaged
    by_cases hlive : live <+: p
    · exact subtree_eq_of_prefix hlive hself
    · have hp : p ∈ paths := (List.mem_cons.mp hp).resolve_left fun h => hlive (h ▸ List.prefix_rfl)
      have hap : Apart live p := ⟨hlive, fun hpl => hlive (hnested p hp hpl ▸ List.prefix_rfl)⟩
      rw [subtree_remove_of_apart hap, hrest.live p hp hstaged, h.same p hap]
  · intro live' clock' hfound
    have hap : Apart live (backupTarget live' clock') := hapart live List.mem_cons_self live' clock'
    have hsame := h.same _ hap
    rw [subtree_remove_of_apart hap, hrest.kept live' clock' ?_, hsame]
    rwa [entry_eq_of_subtree hsame]

/-- The step of the rollback that undoes a call with a move. -/
theorem Undone.move {clock : ℕ} {s s' : FileState γ}
    (h : LoggedMove live (backupTarget live clock) s s')
    (hrest : Undone archive paths s'.tree u) (hfails : fails live = none)
    (hnested : ∀ p ∈ paths, p <+: live → p = live)
    (hapart : ∀ p ∈ live :: paths, ∀ live clock, Apart p (backupTarget live clock)) :
    Undone archive (live :: paths) s.tree
      (rollbackPath fails u (live, some (backupTarget live clock))) := by
  have hlive : Apart live (backupTarget live clock) := hapart live List.mem_cons_self live clock
  have hfound : s'.tree.entry (backupTarget live clock) ≠ none := by
    have hroot := congrArg (fun t => t.entry []) h.moved
    simp only [subtree, List.append_nil] at hroot
    rw [hroot]
    exact h.found
  have hbackup := hrest.kept live clock hfound
  rw [rollbackPath_move hfails hlive (by rwa [entry_eq_of_subtree hbackup])]
  have hself : ((u.remove live).rename (backupTarget live clock) live).subtree live =
      s.tree.subtree live := by
    rw [subtree_rename_self, subtree_remove_of_apart hlive, hbackup, h.moved]
  have hother : ∀ q, Apart live q → Apart (backupTarget live clock) q →
      ((u.remove live).rename (backupTarget live clock) live).subtree q = u.subtree q := by
    intro q hq htarget
    rw [subtree_rename_of_apart htarget hq, subtree_remove_of_apart hq]
  constructor
  · intro p hp hstaged
    by_cases hbelow : live <+: p
    · exact subtree_eq_of_prefix hbelow hself
    · have htarget := (hapart p hp live clock).symm
      have hp : p ∈ paths :=
        (List.mem_cons.mp hp).resolve_left fun h => hbelow (h ▸ List.prefix_rfl)
      have hap : Apart live p := ⟨hbelow, fun hpl => hbelow (hnested p hp hpl ▸ List.prefix_rfl)⟩
      rw [hother p hap htarget, hrest.live p hp hstaged, h.same p hap htarget]
  · intro live' clock' hfound'
    have hap : Apart live (backupTarget live' clock') := hapart live List.mem_cons_self live' clock'
    have htarget := apart_of_free h.free hfound'
    have hsame := h.same _ hap htarget
    rw [hother _ hap htarget, hrest.kept live' clock' ?_, hsame]
    rwa [entry_eq_of_subtree hsame]

/-! ### All calls -/

/-- Every call of `_replace_path` that is made is safe. -/
def ReplaceSafe (steps : Path → ReplaceStep γ) (archive : Extracted γ) :
    List Path → FileState γ → Prop
  | [], _ => True
  | live :: paths, s =>
      (archive.tree.entry live ≠ none → StepSafe (steps live) live s.tree) ∧
        ((replacePath (steps live) archive live s).2 = false →
          ReplaceSafe steps archive paths (replacePath (steps live) archive live s).1)

theorem replaceAll_cons (steps : Path → ReplaceStep γ) (s : FileState γ) :
    replaceAll steps archive (live :: paths) s =
      if (replacePath (steps live) archive live s).2
        then ((replacePath (steps live) archive live s).1, true)
        else replaceAll steps archive paths (replacePath (steps live) archive live s).1 := by
  rw [replaceAll]
  split <;> simp_all

/-- **The rollback undoes the calls of `_replace_path`**, whether one of them raised or not, and
also after changes to other files than the backups. -/
theorem rollbackPaths_replaceAll {steps : Path → ReplaceStep γ}
    {after : FileTree Str γ → FileTree Str γ}
    (hafter : ∀ t live clock, (after t).subtree (backupTarget live clock) =
      t.subtree (backupTarget live clock))
    (hapart : ∀ p ∈ paths, ∀ live clock, Apart p (backupTarget live clock))
    (hnested : paths.Pairwise fun p q => q <+: p → q = p)
    (hsafe : ReplaceSafe steps archive paths s) :
    ∃ log, (replaceAll steps archive paths s).1.backups = log ++ s.backups ∧
      ((∀ e ∈ log, fails e.1 = none) →
        Undone archive paths s.tree (rollbackPaths fails log
          (if (replaceAll steps archive paths s).2 then (replaceAll steps archive paths s).1.tree
            else after (replaceAll steps archive paths s).1.tree))) := by
  induction paths generalizing s with
  | nil =>
      refine ⟨[], rfl, fun _ => ⟨fun p hp => absurd hp List.not_mem_nil, ?_⟩⟩
      exact fun live clock _ => hafter s.tree live clock
  | cons live paths ih =>
      obtain ⟨hstep, hrest⟩ := hsafe
      obtain ⟨hfirst, hpairs⟩ := List.pairwise_cons.mp hnested
      rw [replaceAll_cons]
      by_cases hstaged : archive.tree.entry live = none
      · have hskip : replacePath (steps live) archive live s = (s, false) := if_pos hstaged
        rw [hskip] at hrest ⊢
        obtain ⟨log, hlog, hundone⟩ := ih (fun p hp => hapart p (List.mem_cons_of_mem live hp))
          hpairs (hrest rfl)
        refine ⟨log, hlog, fun hfails => ⟨fun p hp hp' => ?_, (hundone hfails).kept⟩⟩
        rcases List.mem_cons.mp hp with rfl | hp
        · exact absurd hstaged hp'
        · exact (hundone hfails).live p hp hp'
      · have hlive := hapart live List.mem_cons_self live (steps live).clock
        have hspec := replacePath_spec hstaged (hstep hstaged) hlive
        generalize replacePath (steps live) archive live s = result at hspec hrest ⊢
        obtain ⟨s', raised⟩ := result
        dsimp only at hspec hrest ⊢
        rcases hspec with ⟨rfl, h⟩ | hlogged
        · exact ⟨[], h.backups, fun _ => .of_notLogged h hfirst hapart⟩
        -- the call has logged one move, which its step of the rollback undoes
        obtain ⟨e, he, hbackups, hundo⟩ : ∃ e : Path × Option Path, e.1 = live ∧
            s'.backups = e :: s.backups ∧ ∀ u, fails live = none →
              Undone archive paths s'.tree u →
              Undone archive (live :: paths) s.tree (rollbackPath fails u e) := by
          rcases hlogged with h | h
          · exact ⟨_, rfl, h.backups, fun u hfails hu => hu.missing h hfails hfirst hapart⟩
          · exact ⟨_, rfl, h.backups, fun u hfails hu => hu.move h hfails hfirst hapart⟩
        cases raised with
        | true =>
            refine ⟨[e], hbackups, fun hfails => ?_⟩
            exact hundo s'.tree (he ▸ hfails e List.mem_cons_self) .refl
        | false =>
            obtain ⟨log, hlog, hundone⟩ := ih (fun p hp => hapart p (List.mem_cons_of_mem live hp))
              hpairs (hrest rfl)
            refine ⟨log ++ [e], by simpa [hbackups] using hlog, fun hfails => ?_⟩
            rw [rollbackPaths, List.foldl_append]
            refine hundo _ (he ▸ hfails e (by simp)) (hundone fun e' he' => hfails e' ?_)
            exact List.mem_append_left [e] he'

/-! ## Restores that are rolled back -/

theorem length_finishDeployment_append (id : ℕ) (f : UpstreamDeployment → UpstreamDeployment)
    (rows : List UpstreamDeployment) (row : UpstreamDeployment) :
    (finishDeployment id f (rows ++ [row])).length = rows.length + 1 := by
  rw [finishDeployment, List.length_map, List.length_append, List.length_singleton]

/-- `deploy_upstreams` leaves a row, however it ends. -/
theorem deployUpstreams_ne (d : DeployUpstreams γ) (tables : LiveTables) :
    (deployUpstreams d tables).1 ≠ tables := by
  intro h
  have hlen : ((deployUpstreams d tables).1.deployments.getD []).length =
      (tables.deployments.getD []).length + 1 := by
    unfold deployUpstreams
    dsimp only
    split_ifs
    · exact length_finishDeployment_append _ _ _ _
    · split <;> exact length_finishDeployment_append _ _ _ _
  rw [h] at hlen
  exact absurd hlen (Nat.succ_ne_self _).symm

namespace RestoreAttempt

variable (r : RestoreAttempt γ)

/-- Every backup name that is used is free, a move that raises has left the live path alone, and no
step of the rollback raises. -/
structure FilesSafe : Prop where
  replaces : r.raisesBefore = false →
    ReplaceSafe r.steps r.archive r.paths { tree := r.tree, backups := [] }
  rollsBack : ∀ e ∈ r.replaced.1.backups, r.rollbackFails e.1 = none

/-- The restore gets to `deploy_upstreams`. -/
def ReachesDeploy : Prop :=
  r.replaced.2 = false ∧ r.raisesBetween = false ∧ r.deploys = true

/-- Every path that the archive replaces has its old content, and so have the tables. -/
structure NoTrace : Prop where
  files : ∀ p ∈ r.paths, r.archive.tree.entry p ≠ none → r.run.tree.subtree p = r.tree.subtree p
  tables : r.run.tables = r.tables

variable {r}

/-- The rollback brings the files back, also after `deploy_upstreams`. -/
theorem undone_rollBack (hsafe : r.FilesSafe) (after : FileTree Str γ → FileTree Str γ)
    (hafter : ∀ t live clock, (after t).subtree (backupTarget live clock) =
      t.subtree (backupTarget live clock)) :
    Undone r.archive r.paths r.tree (rollbackPaths r.rollbackFails r.replaced.1.backups
      (if r.replaced.2 then r.replaced.1.tree else after r.replaced.1.tree)) := by
  have hrolls := hsafe.rollsBack
  cases hbefore : r.raisesBefore with
  | true =>
      have hreplaced : r.replaced = ({ tree := r.tree, backups := [] }, true) := if_pos hbefore
      rw [hreplaced]
      exact .refl
  | false =>
      have hreplaced : r.replaced =
          replaceAll r.steps r.archive r.paths { tree := r.tree, backups := [] } :=
        if_neg (by rw [hbefore]; exact Bool.false_ne_true)
      have hapart : ∀ p ∈ r.paths, ∀ live clock, Apart p (backupTarget live clock) :=
        fun p hp live clock => (apart_backupDir hp).append _
      obtain ⟨log, hlog, hundone⟩ := rollbackPaths_replaceAll hafter hapart
        (restorePaths_nested r.effective r.archive) (hsafe.replaces hbefore)
      rw [List.append_nil] at hlog
      rw [hreplaced, hlog] at hrolls ⊢
      exact hundone hrolls

theorem run_of_raises (h : r.replaced.2 = true ∨ r.raisesBetween = true) :
    r.run = r.rollBack r.replaced.1 r.tables := by
  have hraises : (r.replaced.2 || r.raisesBetween) = true := by
    rcases h with h | h <;> simp [h]
  exact if_pos hraises

/-- What is rolled back after the files were replaced was not promoted. -/
theorem run_of_rolledBack (hreplaced : r.replaced.2 = false) (hbetween : r.raisesBetween = false)
    (hstatus : r.run.status = .rolledBack) :
    r.run = r.rollBack (r.reconcile r.replaced.1 r.tables).1
      (r.reconcile r.replaced.1 r.tables).2.1 := by
  have hnone : ¬ (r.replaced.2 || r.raisesBetween) = true := by simp [hreplaced, hbetween]
  have hrun : r.run = _ := if_neg hnone
  dsimp only at hrun
  split_ifs at hrun with hraised hpromoted
  · rw [hrun] at hstatus
    cases hstatus
  · rw [hrun] at hstatus
    cases hstatus
  · have hempty : r.promoted.getD r.tables = r.tables := by
      rw [Option.not_isSome_iff_eq_none.mp hpromoted, Option.getD_none]
    rw [hempty] at hrun
    exact hrun

/-- **The files of a restore that is rolled back are as they were**, also after
`deploy_upstreams`. -/
theorem files_of_rolledBack (hsafe : r.FilesSafe) (hstatus : r.run.status = .rolledBack) :
    ∀ p ∈ r.paths, r.archive.tree.entry p ≠ none →
      r.run.tree.subtree p = r.tree.subtree p := by
  have hsame := undone_rollBack hsafe id fun _ _ _ => rfl
  have hdeployed := undone_rollBack hsafe (deployFiles r.deploy r.tables)
    (subtree_deployFiles r.deploy r.tables)
  rw [id, ite_self] at hsame
  by_cases hraises : r.replaced.2 = true ∨ r.raisesBetween = true
  · rw [run_of_raises hraises]
    exact hsame.live
  · obtain ⟨hreplaced, hbetween⟩ := not_or.mp hraises
    rw [Bool.not_eq_true] at hreplaced hbetween
    rw [hreplaced, if_neg Bool.false_ne_true] at hdeployed
    rw [run_of_rolledBack hreplaced hbetween hstatus]
    unfold reconcile
    split_ifs
    · exact hdeployed.live
    · exact hsame.live

/-- **The restores that are rolled back without a trace are those that do not get to
`deploy_upstreams`**, as long as the backups of the files are safe. -/
theorem rolledBack_iff (hsafe : r.FilesSafe) (hstatus : r.run.status = .rolledBack) :
    r.NoTrace ↔ ¬ r.ReachesDeploy := by
  have hfiles := files_of_rolledBack hsafe hstatus
  constructor
  · rintro htrace ⟨hreplaced, hbetween, hdeploys⟩
    have htables := htrace.tables
    rw [run_of_rolledBack hreplaced hbetween hstatus, reconcile, if_pos hdeploys] at htables
    exact deployUpstreams_ne r.deploy r.tables htables
  · intro hreach
    refine ⟨hfiles, ?_⟩
    by_cases hraises : r.replaced.2 = true ∨ r.raisesBetween = true
    · rw [run_of_raises hraises]
      rfl
    · obtain ⟨hreplaced, hbetween⟩ := not_or.mp hraises
      rw [Bool.not_eq_true] at hreplaced hbetween
      have hdeploys : r.deploys ≠ true := fun h => hreach ⟨hreplaced, hbetween, h⟩
      rw [run_of_rolledBack hreplaced hbetween hstatus, reconcile, if_neg hdeploys]
      rfl

end RestoreAttempt

/-! ### Upstreams that do not answer -/

/-- An archive of `dnsdist.conf`. -/
def dnsdistArchive : Extracted Str where
  entries := ⟨[⟨[], .dir⟩, ⟨dnsdistConf.take 1, .dir⟩, ⟨dnsdistConf.take 2, .dir⟩,
    ⟨dnsdistConf, .file "new".toList⟩], show (List.keys _).Nodup by decide +kernel⟩
  closed := closed_of_dropLast (by decide +kernel)

/-- The only upstream resolver of the appliance. -/
def quad9 : ResolverRow where
  id := 1
  settings :=
    { name := "upstream", protocol := .plain, address := "192.0.2.1", port := 53, dohPath := ""
      tlsHostname := "", bootstrapIps := "" }
  enabled := true
  position := 1
  lastStatus := "unknown".toList
  lastMessage := []

/-- A restore of `dnsdist.conf` on an appliance whose upstream does not answer. -/
def dnsdistRestore : RestoreAttempt Str where
  included key := key = .dnsdistSourceConfig
  selected key := key = .dnsdistSourceConfig
  archive := dnsdistArchive
  tree := FileTree.empty.graft dnsdistConf (.ofFile "old".toList)
  tables := { resolvers := some [quad9], deployments := some [], others := ∅ }
  raisesBefore := false
  steps _ := { clock := 0, failure := none }
  raisesBetween := false
  promoted := none
  deploy :=
    { servers := [], port := 53, started := [], finished := [], writes := []
      failure := some "post-deploy upstream resolution failed".toList
      renderFailure := fun _ => none, backendUp := fun _ => none
      message := [], validationOutput := [] }
  resolves := true
  rollbackFails _ := none
  servicesRaise := false
  resolvesAgain := true

theorem dnsdistRestore_status : dnsdistRestore.run.status = .rolledBack := by decide +kernel

theorem dnsdistRestore_filesSafe : dnsdistRestore.FilesSafe where
  replaces _ := by
    have hpaths : dnsdistRestore.paths = [dnsdistConf] := by decide +kernel
    rw [hpaths]
    refine ⟨fun _ _ => ⟨by decide +kernel, fun _ _ h => ?_⟩, fun _ => trivial⟩
    cases h
  rollsBack _ _ := rfl

/-- `rolledBack_iff` for that restore. -/
theorem rolledBack_iff_dnsdistRestore :
    dnsdistRestore.NoTrace ↔ ¬ dnsdistRestore.ReachesDeploy :=
  RestoreAttempt.rolledBack_iff dnsdistRestore_filesSafe dnsdistRestore_status

/-- The restore is rolled back after `deploy_upstreams` has written to the live database. -/
theorem rolled_back_after_deploy :
    dnsdistRestore.run.status = .rolledBack ∧ ¬ dnsdistRestore.NoTrace := by
  refine ⟨dnsdistRestore_status, fun h => ?_⟩
  have hlen : (dnsdistRestore.run.tables.deployments.getD []).length = 1 := by decide +kernel
  rw [h.tables] at hlen
  exact absurd hlen (by decide)

end AlderpointDNS.Backup
