import AlderpointDNS.Lib.Programs
import AlderpointDNS.SoftwareUpdates.Candidate

/-!
# Installing an update

`_run_job` stages a package, either from a release or from an upload, checks it, makes a backup,
simulates the installation and then runs `apt-get install` on the staged file.  It is a program
here whose state holds the staged files and a record of everything that was run and read.  What
the commands, the downloads, the backup and the uploaded file turn out to be is up to the `World`,
which may answer differently each time.

* `Justified` — what must have happened before a package is installed.
* `Known` — what a step of the job relies on: nothing was installed, some events have happened, and
  something is known of the staged files.
* `triple_stageRelease`, `triple_stageUpload`, `triple_validateStaged` — what each part adds to it.
* **`runJob_safe`** — an installation is justified, whatever happens, if the uploaded file is not
  called as the file that the checksums are downloaded to.
* `exists_unjustified` — which it could be, going by what the job alone checks.
-/

namespace AlderpointDNS.SoftwareUpdates

open Text Program

/-! ## The world -/

/-- `PHASES`. -/
inductive Phase where
  | pending
  | checking
  | downloading
  | validating
  | backingUp
  | simulating
  | installing
  | restarting
  | postcheck
  | completed
  | failed
deriving DecidableEq, Repr

/-- A command, with the staged file that it is run on. -/
inductive Command (β : Type) where
  | dpkgQuery
  | dpkgDeb (name : Str) (content : Option β)
  | compareVersions (a : Str) (op : CompareOp) (b : Str)
  | aptSimulate (name : Str) (content : Option β)
  | aptInstall (name : Str) (content : Option β)
deriving DecidableEq, Repr

/-- How a command ends. -/
inductive Outcome where
  | finished (returncode : ℤ) (stdout : Str)
  | failedToRun
  | timedOut
deriving DecidableEq, Repr

/-- How a download ends: a broken one may have written something. -/
inductive Download (β : Type) where
  | complete (content : β)
  | broken (written : Option β) (error : UpdateError)

/-- What is recorded of a job. -/
inductive Event (β : Type) where
  | phase (phase : Phase)
  | ran (command : Command β) (outcome : Outcome)
  | listed (releases : List Release)
  | downloaded (asset : Asset) (content : β)
  | backedUp
deriving DecidableEq, Repr

/-- What the job finds outside; contents of files are in `β`.  Answers may depend on everything
that has happened. -/
structure World (β : Type) where
  unicode : UnicodeData
  sha256 : β → Str
  /-- `read_text(errors="replace")` -/
  readText : β → Str
  /-- the text of the VERSION file -/
  versionFile : Option Str
  /-- a token is configured, or `_is_reachable_repo` -/
  online : Bool
  /-- the uploaded path is a file in the upload staging directory -/
  uploadConfined : Bool
  /-- the uploaded file when it is copied -/
  uploaded : Option β
  command : List (Event β) → Command β → Outcome
  listReleases : List (Event β) → Except UpdateError (List Release)
  download : List (Event β) → Asset → Download β
  createBackup : List (Event β) → Bool
  healthy : List (Event β) → Bool

/-- The staged files and the record. -/
structure State (β : Type) where
  files : Str → Option β
  log : List (Event β)

/-- A row of `software_update_jobs`; `release` is `release_json` where it can be used, and
`uploadedName` the last part of `uploaded_path`. -/
structure Job where
  operation : Str
  release : Option Release
  uploadedName : Str
  expectedSha256 : Option Str

section Programs

variable {β : Type} (w : World β)

/-- A part of the job. -/
abbrev JobM (β : Type) := Program (State β) UpdateError

def State.record (s : State β) (e : Event β) : State β := { s with log := s.log ++ [e] }

/-- `_set_phase`. -/
def setPhase (phase : Phase) : JobM β Unit := modify fun s => s.record (.phase phase)

/-- `run`. -/
def run (command : Command β) : JobM β Outcome :=
  modifyGet fun s => (w.command s.log command, s.record (.ran command (w.command s.log command)))

/-- The staged file, as a command finds it. -/
def staged (name : Str) : JobM β (Option β) := modifyGet fun s => (s.files name, s)

/-- What is in a staged file. -/
def readStaged (name : Str) : JobM β β := do
  match ← staged name with
  | some content => pure content
  | none => throw .unexpected

/-- A file is written, or removed. -/
def writeStaged (name : Str) (content : Option β) : JobM β Unit :=
  modify fun s => { s with files := Function.update s.files name content }

/-- `sha256_file`. -/
def sha256File (name : Str) : JobM β Str := do
  let content ← readStaged name
  pure (w.sha256 content)

/-- `installed_package_version`. -/
def installedPackageVersion : JobM β (Option Str) := do
  match ← run w .dpkgQuery with
  | .finished 0 stdout => pure (if strip stdout = [] then none else some (strip stdout))
  | .finished _ _ => pure none
  | .failedToRun => pure none
  | .timedOut => throw .unexpected

/-- `dpkg_compare`. -/
def runDpkgCompare (a : Str) (op : CompareOp) (b : Str) : JobM β Bool := do
  match ← run w (.compareVersions a op b) with
  | .finished returncode _ => pure (returncode = 0)
  | .failedToRun => throw .commandFailedToRun
  | .timedOut => throw .unexpected

/-- `inspect_deb`. -/
def inspectDeb (name : Str) : JobM β (Dict Str Str) := do
  let content ← staged name
  match ← run w (.dpkgDeb name content) with
  | .finished 0 stdout => pure (debFields stdout)
  | .finished _ stdout => throw (.notAPackage stdout)
  | .failedToRun => throw .commandFailedToRun
  | .timedOut => throw .unexpected

/-- `simulate_install`. -/
def simulateInstall (name : Str) : JobM β Str := do
  let content ← staged name
  match ← run w (.aptSimulate name content) with
  | .finished 0 stdout =>
      if unsafeRemovals stdout ≠ [] then throw (.removesCritical (unsafeRemovals stdout))
      else pure stdout
  | .finished _ stdout => throw (.simulationFailed stdout)
  | .failedToRun => throw .commandFailedToRun
  | .timedOut => throw .unexpected

/-- `_download_asset`. -/
def downloadAsset (asset : Asset) (dest : Str) : JobM β Unit := do
  if asset.url.getD [] = [] ∧ asset.browserDownloadUrl.getD [] = [] then throw .noDownloadUrl
  let s ← get
  match w.download s.log asset with
  | .complete content =>
      writeStaged dest (some content)
      modify fun s => s.record (.downloaded asset content)
  | .broken written error =>
      if let some content := written then writeStaged dest (some content)
      throw error

/-- `stage_release`: the name of the staged package and its checksum. -/
def stageRelease (release : Release) : JobM β (Str × Str) := do
  let (debAsset, sumsAsset) ← MonadExcept.ofExcept (selectReleaseAssets release none)
  downloadAsset w debAsset debAsset.name
  downloadAsset w sumsAsset "SHA256SUMS".toList
  let sums ← readStaged "SHA256SUMS".toList
  let expected ← MonadExcept.ofExcept
    (parseSha256sums w.unicode (w.readText sums) debAsset.name)
  let actual ← sha256File w debAsset.name
  if actual ≠ expected then
    writeStaged debAsset.name none
    throw (.checksumMismatch debAsset.name expected actual)
  pure (debAsset.name, actual)

/-- The loop of `_find_release_for_deb_version`. -/
def findRelease (candidate : Str) : List Release → JobM β (Option Release)
  | [] => pure none
  | release :: releases => do
      match (if release.draft then none else releaseSemver release) with
      | none => findRelease candidate releases
      | some tagVersion =>
          if ← runDpkgCompare w candidate .eq (sourceVersionToDebForm tagVersion) then
            pure (some release)
          else findRelease candidate releases

/-- `_find_release_for_deb_version`. -/
def findReleaseForDebVersion (candidate : Str) : JobM β (Option Release) := do
  let s ← get
  match w.listReleases s.log with
  | .error .unexpected => throw .unexpected
  | .error _ => pure none
  | .ok releases =>
      modify fun s => s.record (.listed releases)
      findRelease w candidate releases

/-- The version that a package of the release must have. -/
def Release.expectedVersion (release : Release) : Str := release.tag.dropWhile (· = 'v')

/-- The comparison of an upload with a release: whether the checksums agree, and the version of
the release. -/
def verifyUpload (name sha256 : Str) : JobM β (Bool × Option Str) := do
  let fields ← inspectDeb w name
  match ← findReleaseForDebVersion w ((fields.lookup "Version".toList).getD []) with
  | none => pure (false, none)
  | some release =>
      let (debAsset, sumsAsset) ← MonadExcept.ofExcept (selectReleaseAssets release none)
      downloadAsset w sumsAsset "SHA256SUMS.verify".toList
      let sums ← readStaged "SHA256SUMS.verify".toList
      let expected ← MonadExcept.ofExcept
        (parseSha256sums w.unicode (w.readText sums) debAsset.name)
      pure (w.unicode.toLower expected = w.unicode.toLower sha256, some release.expectedVersion)

/-- The comparison where it can be made; a failed comparison is none. -/
def matchOfficial (name sha256 : Str) : JobM β (Bool × Option Str) :=
  if w.online then
    tryCatch (verifyUpload w name sha256) fun e =>
      if e = .unexpected then throw e else pure (false, none)
  else pure (false, none)

/-- The manual branch of `_run_job`: the name of the staged package, and the version it must
have. -/
def stageUpload (job : Job) : JobM β (Str × Option Str) := do
  if !w.uploadConfined then throw .uploadNotConfined
  setPhase .downloading
  match w.uploaded with
  | none => throw .unexpected
  | some content =>
      writeStaged job.uploadedName (some content)
      let sha256 ← sha256File w job.uploadedName
      let (matchedOfficial, expectedVersion) ← matchOfficial w job.uploadedName sha256
      if !matchedOfficial then
        if job.expectedSha256.getD [] = [] then throw .unverifiedUpload
        if w.unicode.toLower (strip (job.expectedSha256.getD [])) ≠ w.unicode.toLower sha256 then
          throw (.expectedChecksum sha256)
      pure (job.uploadedName, expectedVersion)

/-- The github branch of `_run_job`. -/
def stageGithub (job : Job) : JobM β (Str × Option Str) := do
  match job.release with
  | none => throw .noReleaseMetadata
  | some release =>
      setPhase .downloading
      let (name, _) ← stageRelease w release
      pure (name, some release.expectedVersion)

/-- Both branches of `_run_job`. -/
def stagePackage (job : Job) : JobM β (Str × Option Str) :=
  if job.operation = "github".toList then stageGithub w job else stageUpload w job

/-- `validate_candidate_package` of a staged file. -/
def validateStaged (name : Str) (expectedVersion : Option Str) : JobM β (Dict Str Str) :=
  validateCandidatePackage (runDpkgCompare w) (installedPackageVersion w) (inspectDeb w name)
    expectedVersion

/-- The first checks of `_run_job`, of the installed version. -/
def checkInstalled : JobM β Unit := do
  let dpkgVersion ← installedPackageVersion w
  let status := versionSourceStatus w.versionFile dpkgVersion
  if status.mismatch then throw (.drift status.fileVersion status.dpkgVersion)
  if (← installedPackageVersion w).isNone then throw .unmanaged

/-- From the installation on. -/
def installStaged (name : Str) : JobM β Unit := do
  setPhase .installing
  let content ← staged name
  match ← run w (.aptInstall name content) with
  | .finished 0 _ => pure ()
  | .finished _ stdout => throw (.installFailed stdout)
  | .timedOut => throw .installTimedOut
  | .failedToRun => throw .unexpected
  setPhase .restarting
  setPhase .postcheck
  let s ← get
  setPhase (if w.healthy s.log then .completed else .failed)

/-- `_run_job`. -/
def runJob (job : Job) : JobM β Unit := do
  checkInstalled w
  setPhase .checking
  let (name, expectedVersion) ← stagePackage w job
  setPhase .validating
  let fields ← validateStaged w name expectedVersion
  if (fields.lookup "Version".toList).isNone then throw .unexpected
  setPhase .backingUp
  let s ← get
  if !w.createBackup s.log then throw .backupFailed
  modify fun s => s.record .backedUp
  setPhase .simulating
  let _ ← simulateInstall w name
  installStaged w name

end Programs

/-! ## What an installation needs -/

section Safety

variable {β : Type} {w : World β} {job : Job}

/-- The checksum of the package is the one that an official release lists for it. -/
def Official (w : World β) (job : Job) (log : List (Event β)) (content : β) (release : Release) :
    Prop :=
  (if job.operation = "github".toList then job.release = some release
    else ∃ releases, Event.listed releases ∈ log ∧ release ∈ releases)
    ∧ ∃ debAsset sumsAsset sums digest,
        selectReleaseAssets release none = .ok (debAsset, sumsAsset)
        ∧ Event.downloaded sumsAsset sums ∈ log
        ∧ parseSha256sums w.unicode (w.readText sums) debAsset.name = .ok digest
        ∧ w.unicode.toLower digest = w.unicode.toLower (w.sha256 content)

/-- The checksum of the package is official, or for an upload the one that the operator gave. -/
def Verified (w : World β) (job : Job) (log : List (Event β)) (content : β)
    (expectedVersion : Option Str) : Prop :=
  (∃ release, expectedVersion = some release.expectedVersion ∧ Official w job log content release)
    ∨ (job.operation ≠ "github".toList ∧ ∃ expected, job.expectedSha256 = some expected
        ∧ w.unicode.toLower (strip expected) = w.unicode.toLower (w.sha256 content))

/-- dpkg has answered yes. -/
def Compared (log : List (Event β)) (a : Str) (op : CompareOp) (b : Str) : Prop :=
  ∃ stdout, Event.ran (.compareVersions a op b) (.finished 0 stdout) ∈ log

/-- The package is this one, in the version of the release, and newer than the installed one. -/
def Validated (log : List (Event β)) (name : Str) (content : β) (expectedVersion : Option Str)
    (fields : Dict Str Str) : Prop :=
  (∃ stdout, fields = debFields stdout
      ∧ Event.ran (.dpkgDeb name (some content)) (.finished 0 stdout) ∈ log)
    ∧ fields.lookup "Package".toList = some "alderpointdns".toList
    ∧ (∀ expected ∈ expectedVersion, Compared log ((fields.lookup "Version".toList).getD []) .eq
        (sourceVersionToDebForm expected))
    ∧ ∃ stdout, Event.ran .dpkgQuery (.finished 0 stdout) ∈ log ∧ strip stdout ≠ []
        ∧ Compared log ((fields.lookup "Version".toList).getD []) .gt (strip stdout)

/-- **What must have happened before a package is installed.** -/
def Justified (w : World β) (job : Job) (log : List (Event β)) (name : Str) (content : β) : Prop :=
  ∃ expectedVersion fields, Verified w job log content expectedVersion
    ∧ Validated log name content expectedVersion fields
    ∧ (fields.lookup "Version".toList).isSome = true
    ∧ Event.backedUp ∈ log
    ∧ ∃ stdout, Event.ran (.aptSimulate name (some content)) (.finished 0 stdout) ∈ log
        ∧ ∀ package ∈ criticalPackages, package ∉ removedPackages stdout

/-- Every installation of the record is justified by what comes before it. -/
def Safe (w : World β) (job : Job) (log : List (Event β)) : Prop :=
  ∀ pre name content outcome post,
    log = pre ++ .ran (.aptInstall name content) outcome :: post →
    ∃ c, content = some c ∧ Justified w job pre name c

/-! ## What is known along the way -/

/-- The event is an installation. -/
def Event.IsInstall (e : Event β) : Prop :=
  ∃ name content outcome, e = .ran (.aptInstall name content) outcome

/-- Nothing was installed yet, these events have happened, and this is known of the files. -/
structure Known (events : List (Event β)) (G : (Str → Option β) → Prop) (s : State β) : Prop where
  quiet : ∀ e ∈ s.log, ¬ e.IsInstall
  events : ∀ e ∈ events, e ∈ s.log
  files : G s.files

theorem Known.safe {events : List (Event β)} {G : (Str → Option β) → Prop} {s : State β}
    (h : Known events G s) : Safe w job s.log := by
  intro pre name content outcome post hlog
  exact absurd ⟨name, content, outcome, rfl⟩ (h.quiet _ (by simp [hlog]))

theorem Known.record {events : List (Event β)} {G : (Str → Option β) → Prop} {s : State β}
    (h : Known events G s) {e : Event β} (he : ¬ e.IsInstall) :
    Known (e :: events) G (s.record e) where
  quiet := by
    intro x hx
    rcases List.mem_append.mp hx with hx | hx
    · exact h.quiet x hx
    · rwa [List.mem_singleton.mp hx]
  events := by
    intro x hx
    rcases List.mem_cons.mp hx with rfl | hx
    · simp [State.record]
    · exact List.mem_append_left _ (h.events x hx)
  files := h.files

theorem Known.mono {events events' : List (Event β)} {G G' : (Str → Option β) → Prop} {s : State β}
    (h : Known events G s) (hevents : events' ⊆ events) (hG : ∀ f, G f → G' f) :
    Known events' G' s :=
  ⟨h.quiet, fun e he => h.events e (hevents he), hG _ h.files⟩

variable {events : List (Event β)} {G : (Str → Option β) → Prop} {E : State β → Prop}

theorem triple_setPhase (phase : Phase) :
    Triple (Known events G) (setPhase phase) (fun _ => Known events G) E :=
  triple_modify fun _ hs => (hs.record (by rintro ⟨_, _, _, h⟩; cases h)).mono
    (List.subset_cons_self _ _) fun _ => id

theorem triple_run {command : Command β} (h : ∀ name content, command ≠ .aptInstall name content) :
    Triple (Known events G) (run w command) (fun o => Known (.ran command o :: events) G) E := by
  refine triple_modifyGet fun s hs => hs.record ?_
  rintro ⟨name, content, outcome, he⟩
  exact h name content (Event.ran.inj he).1

theorem triple_staged {name : Str} {content : β} (hG : ∀ f, G f → f name = some content) :
    Triple (Known events G) (staged name) (fun found s => found = some content ∧ Known events G s)
      E :=
  triple_modifyGet fun _ hs => ⟨hG _ hs.files, hs⟩

theorem triple_readStaged (name : Str) (hE : ∀ s, Known events G s → E s) :
    Triple (Known events G) (readStaged name)
      (fun content => Known events fun f => G f ∧ f name = some content) E := by
  have hfound : Triple (Known events G) (staged name)
      (fun content => Known events fun f => G f ∧ f name = content) E :=
    triple_modifyGet fun _ hs => ⟨hs.quiet, hs.events, hs.files, rfl⟩
  refine triple_bind hfound fun content => ?_
  cases content with
  | none => exact triple_throw fun s hs => hE s (hs.mono (List.Subset.refl _) fun _ h => h.1)
  | some content => exact triple_pure fun s hs => hs

theorem triple_sha256File (name : Str) (hE : ∀ s, Known events G s → E s) :
    Triple (Known events G) (sha256File w name)
      (fun digest s => ∃ content, digest = w.sha256 content
        ∧ Known events (fun f => G f ∧ f name = some content) s) E :=
  triple_bind (triple_readStaged name hE) fun content =>
    triple_pure fun _ hs => ⟨content, rfl, hs⟩

/-! ## What the commands add -/

/-- What was known before is known after an event. -/
theorem Known.tail {e : Event β} {s : State β} (h : Known (e :: events) G s) : Known events G s :=
  h.mono (List.subset_cons_self _ _) fun _ => id

theorem triple_installedPackageVersion (hE : ∀ s, Known events G s → E s) :
    Triple (Known events G) (installedPackageVersion w)
      (fun version s => Known events G s ∧ ∀ installed ∈ version, ∃ stdout,
        strip stdout = installed ∧ strip stdout ≠ []
          ∧ Known (.ran .dpkgQuery (.finished 0 stdout) :: events) G s) E := by
  refine triple_bind (triple_run (by simp)) fun o => ?_
  cases o with
  | failedToRun => exact triple_pure fun s hs => ⟨hs.tail, by simp⟩
  | timedOut => exact triple_throw fun s hs => hE s hs.tail
  | finished returncode stdout =>
      match returncode with
      | 0 =>
          refine triple_pure fun s hs => ⟨hs.tail, fun installed hinstalled => ?_⟩
          split_ifs at hinstalled with hempty
          · cases hinstalled
          · exact ⟨stdout, Option.some.inj hinstalled, hempty, hs⟩
      | (n + 1 : ℕ) => exact triple_pure fun s hs => ⟨hs.tail, by simp⟩
      | .negSucc n => exact triple_pure fun s hs => ⟨hs.tail, by simp⟩

theorem triple_runDpkgCompare (a : Str) (op : CompareOp) (b : Str)
    (hE : ∀ s, Known events G s → E s) :
    Triple (Known events G) (runDpkgCompare w a op b)
      (fun yes s => Known events G s ∧ (yes = true → ∃ stdout,
        Known (.ran (.compareVersions a op b) (.finished 0 stdout) :: events) G s)) E := by
  refine triple_bind (triple_run (by simp)) fun o => ?_
  cases o with
  | failedToRun => exact triple_throw fun s hs => hE s hs.tail
  | timedOut => exact triple_throw fun s hs => hE s hs.tail
  | finished returncode stdout =>
      refine triple_pure fun s hs => ⟨hs.tail, fun hyes => ⟨stdout, ?_⟩⟩
      rwa [of_decide_eq_true hyes] at hs

theorem triple_inspectDeb {name : Str} {content : β} (hG : ∀ f, G f → f name = some content)
    (hE : ∀ s, Known events G s → E s) :
    Triple (Known events G) (inspectDeb w name)
      (fun fields s => ∃ stdout, fields = debFields stdout
        ∧ Known (.ran (.dpkgDeb name (some content)) (.finished 0 stdout) :: events) G s) E := by
  refine triple_bind (triple_staged hG) fun found => triple_and ?_
  rintro rfl
  refine triple_bind (triple_run (by simp)) fun o => ?_
  cases o with
  | failedToRun => exact triple_throw fun s hs => hE s hs.tail
  | timedOut => exact triple_throw fun s hs => hE s hs.tail
  | finished returncode stdout =>
      match returncode with
      | 0 => exact triple_pure fun s hs => ⟨stdout, rfl, hs⟩
      | (n + 1 : ℕ) => exact triple_throw fun s hs => hE s hs.tail
      | .negSucc n => exact triple_throw fun s hs => hE s hs.tail

theorem triple_simulateInstall {name : Str} {content : β}
    (hG : ∀ f, G f → f name = some content) (hE : ∀ s, Known events G s → E s) :
    Triple (Known events G) (simulateInstall w name)
      (fun _ s => ∃ stdout, unsafeRemovals stdout = [] ∧
        Known (.ran (.aptSimulate name (some content)) (.finished 0 stdout) :: events) G s)
      E := by
  refine triple_bind (triple_staged hG) fun found => triple_and ?_
  rintro rfl
  refine triple_bind (triple_run (by simp)) fun o => ?_
  cases o with
  | failedToRun => exact triple_throw fun s hs => hE s hs.tail
  | timedOut => exact triple_throw fun s hs => hE s hs.tail
  | finished returncode stdout =>
      match returncode with
      | 0 =>
          refine triple_ite (fun _ => triple_throw fun s hs => hE s hs.tail) fun hempty =>
            triple_pure fun s hs => ?_
          exact ⟨stdout, not_not.mp hempty, hs⟩
      | (n + 1 : ℕ) => exact triple_throw fun s hs => hE s hs.tail
      | .negSucc n => exact triple_throw fun s hs => hE s hs.tail

/-! ## Staging -/

theorem triple_writeStaged {H : (Str → Option β) → Prop} {name : Str} {content : Option β}
    (hG : ∀ f, G f → H (Function.update f name content)) :
    Triple (Known events G) (writeStaged name content) (fun _ => Known events H) E :=
  triple_modify fun _ hs => ⟨hs.quiet, hs.events, hG _ hs.files⟩

theorem triple_downloadAsset {asset : Asset} {dest : Str}
    (hG : ∀ f c, G f → G (Function.update f dest c)) (hE : ∀ s, Known events G s → E s) :
    Triple (Known events G) (downloadAsset w asset dest)
      (fun _ s => ∃ content, Known (.downloaded asset content :: events)
        (fun f => G f ∧ f dest = some content) s) E := by
  unfold downloadAsset
  refine triple_ite (fun _ => triple_throw hE) fun _ => ?_
  refine triple_bind (Q := fun _ => Known events G) (triple_get fun _ => id) fun s₀ => ?_
  cases w.download s₀.log asset with
  | complete content =>
      refine triple_bind (triple_writeStaged (H := fun f => G f ∧ f dest = some content)
        fun f hf => ⟨hG f _ hf, Function.update_self ..⟩) fun _ => triple_modify fun s hs => ?_
      exact ⟨content, hs.record (by rintro ⟨_, _, _, h⟩; cases h)⟩
  | broken written error =>
      cases written with
      | none => exact triple_throw hE
      | some content =>
          exact triple_bind (triple_writeStaged fun f => hG f _) fun _ => triple_throw hE

/-- A release is staged when its checksums list the package that was downloaded. -/
theorem triple_stageRelease {release : Release} (hjob : job.operation = "github".toList)
    (hrelease : job.release = some release) (hE : ∀ s, Known [] (fun _ => True) s → E s) :
    Triple (Known [] fun _ => True) (stageRelease w release)
      (fun r s => ∃ content log, Official w job log content release
        ∧ Known log (fun f => f r.1 = some content) s) E := by
  have herror : ∀ {l : List (Event β)} {G : (Str → Option β) → Prop} (s), Known l G s → E s :=
    fun s hs => hE s (hs.mono (List.nil_subset _) fun _ _ => trivial)
  refine triple_bind (Q := fun assets s => selectReleaseAssets release none = .ok assets
    ∧ Known [] (fun _ => True) s)
    (triple_ofExcept (fun a ha s hs => ⟨ha, hs⟩) hE) fun assets => triple_and fun hassets => ?_
  obtain ⟨debAsset, sumsAsset⟩ := assets
  refine triple_bind (triple_downloadAsset (fun _ _ _ => trivial) hE) fun _ =>
    triple_exists fun deb => ?_
  refine triple_conseq (R := Known [] fun _ => True) ?_ (fun s hs => hs.mono
    (List.nil_subset _) fun _ _ => trivial) (fun _ _ => id) fun _ => id
  refine triple_bind (triple_downloadAsset (fun _ _ _ => trivial) hE) fun _ =>
    triple_exists fun sums => ?_
  refine triple_bind (triple_readStaged _ herror) fun found => ?_
  refine triple_of_pre (p := found = sums) (fun s hs => ?_) ?_
  · exact Option.some.inj (hs.files.2.symm.trans hs.files.1.2)
  rintro rfl
  refine triple_bind (Q := fun expected s =>
    parseSha256sums w.unicode (w.readText found) debAsset.name = .ok expected
      ∧ Known [Event.downloaded sumsAsset found] (fun _ => True) s)
    (triple_ofExcept (fun a ha s hs => ⟨ha, hs.mono (List.Subset.refl _) fun _ _ => trivial⟩)
      herror) fun expected => triple_and fun hexpected => ?_
  refine triple_bind (triple_sha256File _ herror) fun actual => triple_exists fun content =>
    triple_and ?_
  rintro rfl
  refine triple_ite (fun _ => ?_) fun hequal => triple_pure fun s hs => ?_
  · exact triple_bind (triple_writeStaged (H := fun _ => True) fun _ _ => trivial) fun _ =>
      triple_throw herror
  · have hdigest := congrArg w.unicode.toLower (not_not.mp hequal)
    exact ⟨content, _, ⟨by rw [if_pos hjob]; exact hrelease, debAsset, sumsAsset, found, expected,
      hassets, List.mem_singleton.mpr rfl, hexpected, hdigest.symm⟩,
      hs.mono (List.Subset.refl _) fun _ h => h.2⟩

theorem triple_findRelease (candidate : Str) (hE : ∀ s, Known events G s → E s)
    (releases : List Release) :
    Triple (Known events G) (findRelease w candidate releases)
      (fun release s => (∀ r ∈ release, r ∈ releases) ∧ Known events G s) E := by
  induction releases with
  | nil => exact triple_pure fun s hs => ⟨by simp, hs⟩
  | cons release releases ih =>
      have hrest : Triple (Known events G) (findRelease w candidate releases)
          (fun found s => (∀ r ∈ found, r ∈ release :: releases) ∧ Known events G s) E :=
        triple_conseq ih (fun _ => id)
          (fun _ _ hs => ⟨fun r hr => List.mem_cons_of_mem _ (hs.1 r hr), hs.2⟩) fun _ => id
      rw [findRelease]
      split
      · exact hrest
      · refine triple_bind (triple_runDpkgCompare _ _ _ hE) fun yes => ?_
        refine triple_conseq (R := Known events G) ?_ (fun s hs => hs.1) (fun _ _ => id)
          fun _ => id
        refine triple_ite (fun _ => triple_pure fun s hs => ⟨?_, hs⟩) fun _ => hrest
        rintro r hr
        rw [← Option.some.inj hr]
        exact List.mem_cons_self

theorem triple_findReleaseForDebVersion (candidate : Str) (hE : ∀ s, Known events G s → E s) :
    Triple (Known events G) (findReleaseForDebVersion w candidate)
      (fun release s => Known events G s ∧ ∀ r ∈ release, ∃ releases, r ∈ releases
        ∧ Known (.listed releases :: events) G s) E := by
  refine triple_bind (Q := fun _ => Known events G) (triple_get fun _ => id) fun s₀ => ?_
  cases w.listReleases s₀.log with
  | error e =>
      have hnone : Triple (Known events G) (pure none : JobM β (Option Release))
          (fun release s => Known events G s ∧ ∀ r ∈ release, ∃ releases, r ∈ releases
            ∧ Known (.listed releases :: events) G s) E :=
        triple_pure fun s hs => ⟨hs, by simp⟩
      cases e with
      | unexpected => exact triple_throw hE
      | _ => exact hnone
  | ok releases =>
      refine triple_bind (Q := fun _ => Known (.listed releases :: events) G)
        (triple_modify fun s hs => hs.record (by rintro ⟨_, _, _, h⟩; cases h)) fun _ => ?_
      refine triple_conseq (triple_findRelease candidate (fun s hs => hE s hs.tail) releases)
        (fun _ => id) (fun release s hs => ⟨hs.2.tail, fun r hr => ?_⟩) fun _ => id
      exact ⟨releases, hs.1 r hr, hs.2⟩

/-- An upload that agrees with a release was compared with the checksums of that release; the
staged file is left as it is when it is not called as they are. -/
theorem triple_verifyUpload {name : Str} {content : β} (hjob : job.operation ≠ "github".toList)
    (hname : name ≠ "SHA256SUMS.verify".toList) :
    Triple (Known [] fun f => f name = some content) (verifyUpload w name (w.sha256 content))
      (fun r s => Known [] (fun f => f name = some content) s ∧ (r.1 = true → ∃ release log,
        r.2 = some release.expectedVersion ∧ Official w job log content release
          ∧ Known log (fun f => f name = some content) s))
      (Known [] fun f => f name = some content) := by
  have herror : ∀ {l : List (Event β)} (s), Known l (fun f => f name = some content) s →
      Known [] (fun f => f name = some content) s :=
    fun s hs => hs.mono (List.nil_subset _) fun _ => id
  refine triple_bind (triple_inspectDeb (fun _ => id) fun _ => id) fun fields =>
    triple_exists fun stdout => triple_and fun _ => ?_
  refine triple_bind (triple_findReleaseForDebVersion _ herror) fun found => ?_
  cases found with
  | none => exact triple_pure fun s hs => ⟨herror s hs.1, by simp⟩
  | some release =>
      refine triple_conseq (R := fun s => ∃ releases, release ∈ releases ∧
        Known [.listed releases] (fun f => f name = some content) s)
        (triple_exists fun releases => triple_and fun hmem => ?_) (fun s hs => ?_)
        (fun _ _ => id) fun _ => id
      · refine triple_bind (Q := fun assets s => selectReleaseAssets release none = .ok assets
          ∧ Known [.listed releases] (fun f => f name = some content) s)
          (triple_ofExcept (fun a ha s hs => ⟨ha, hs⟩) herror) fun assets =>
            triple_and fun hassets => ?_
        obtain ⟨debAsset, sumsAsset⟩ := assets
        have hkeep : ∀ (f : Str → Option β) c, f name = some content →
            Function.update f "SHA256SUMS.verify".toList c name = some content := by
          intro f c hf
          rwa [Function.update_of_ne hname]
        refine triple_bind (triple_downloadAsset hkeep herror) fun _ => triple_exists fun sums => ?_
        refine triple_bind (triple_readStaged _ fun s hs => hs.mono (List.nil_subset _)
          fun _ h => h.1) fun read => ?_
        refine triple_of_pre (p := read = sums) (fun s hs => ?_) ?_
        · exact Option.some.inj (hs.files.2.symm.trans hs.files.1.2)
        rintro rfl
        refine triple_bind (Q := fun expected s =>
          parseSha256sums w.unicode (w.readText read) debAsset.name = .ok expected
            ∧ Known [.downloaded sumsAsset read, .listed releases]
              (fun f => f name = some content) s)
          (triple_ofExcept (fun a ha s hs => ⟨ha, hs.mono (List.Subset.refl _) fun _ h => h.1.1⟩)
            fun s hs => hs.mono (List.nil_subset _) fun _ h => h.1.1)
          fun expected => triple_and fun hexpected => triple_pure fun s hs => ?_
        refine ⟨herror s hs, fun hmatched => ⟨release, _, rfl, ⟨?_, debAsset, sumsAsset, read,
          expected, hassets, List.mem_cons_self, hexpected, of_decide_eq_true hmatched⟩, hs⟩⟩
        rw [if_neg hjob]
        exact ⟨releases, by simp, hmem⟩
      · obtain ⟨releases, hmem, hknown⟩ := hs.2 release rfl
        exact ⟨releases, hmem, hknown.mono (by simp) fun _ => id⟩

theorem triple_matchOfficial {name : Str} {content : β} (hjob : job.operation ≠ "github".toList)
    (hname : name ≠ "SHA256SUMS.verify".toList) (hE : ∀ s, Known [] (fun _ => True) s → E s) :
    Triple (Known [] fun f => f name = some content) (matchOfficial w name (w.sha256 content))
      (fun r s => Known [] (fun f => f name = some content) s ∧ (r.1 = true → ∃ release log,
        r.2 = some release.expectedVersion ∧ Official w job log content release
          ∧ Known log (fun f => f name = some content) s)) E := by
  refine triple_ite (fun _ => triple_tryCatch (triple_verifyUpload hjob hname) fun e => ?_)
    fun _ => triple_pure fun s hs => ⟨hs, by simp⟩
  refine triple_ite (fun _ => triple_throw fun s hs => ?_) fun _ =>
    triple_pure fun s hs => ⟨hs, by simp⟩
  exact hE s (hs.mono (List.Subset.refl _) fun _ _ => trivial)

theorem triple_stageUpload (hjob : job.operation ≠ "github".toList)
    (hname : job.uploadedName ≠ "SHA256SUMS.verify".toList)
    (hE : ∀ s, Known [] (fun _ => True) s → E s) :
    Triple (Known [] fun _ => True) (stageUpload w job)
      (fun r s => ∃ content log, Verified w job log content r.2
        ∧ Known log (fun f => f r.1 = some content) s) E := by
  unfold stageUpload
  refine triple_ite (fun _ => triple_throw hE) fun _ => ?_
  refine triple_bind (triple_setPhase _) fun _ => ?_
  cases w.uploaded with
  | none => exact triple_throw hE
  | some content =>
      have herror : ∀ {l : List (Event β)} {G : (Str → Option β) → Prop} (s), Known l G s → E s :=
        fun s hs => hE s (hs.mono (List.nil_subset _) fun _ _ => trivial)
      refine triple_bind (triple_writeStaged (H := fun f => f job.uploadedName = some content)
        fun f _ => Function.update_self ..) fun _ => ?_
      refine triple_bind (triple_sha256File _ herror) fun sha256 => triple_exists fun read =>
        triple_and fun hsha => ?_
      refine triple_of_pre (p := read = content) (fun s hs => ?_) ?_
      · exact Option.some.inj (hs.files.2.symm.trans hs.files.1)
      rintro rfl
      subst hsha
      refine triple_bind (triple_conseq (triple_matchOfficial hjob hname hE)
        (fun s hs => hs.mono (List.Subset.refl _) fun _ h => h.1) (fun _ _ => id) fun _ => id)
        fun r => ?_
      obtain ⟨matchedOfficial, expectedVersion⟩ := r
      cases matchedOfficial with
      | true =>
          refine triple_pure fun s hs => ?_
          obtain ⟨release, log, hversion, hofficial, hknown⟩ := hs.2 rfl
          exact ⟨read, log, Or.inl ⟨release, hversion, hofficial⟩, hknown⟩
      | false =>
          refine triple_ite (fun _ => ?_) fun hnot => absurd rfl hnot
          dsimp only
          refine triple_ite (fun _ => triple_throw fun s hs => herror s hs.1) fun hgiven => ?_
          refine triple_ite (fun _ => triple_throw fun s hs => herror s hs.1) fun hequal =>
            triple_pure fun s hs => ⟨read, [], Or.inr ⟨hjob, ?_⟩, hs.1⟩
          cases hexpected : job.expectedSha256 with
          | none => exact absurd (by rw [hexpected]; rfl) hgiven
          | some expected =>
              rw [hexpected] at hequal
              exact ⟨expected, rfl, not_not.mp hequal⟩

theorem triple_stagePackage
    (hname : job.operation ≠ "github".toList → job.uploadedName ≠ "SHA256SUMS.verify".toList)
    (hE : ∀ s, Known [] (fun _ => True) s → E s) :
    Triple (Known [] fun _ => True) (stagePackage w job)
      (fun r s => ∃ content log, Verified w job log content r.2
        ∧ Known log (fun f => f r.1 = some content) s) E := by
  refine triple_ite (fun hjob => ?_) fun hjob => triple_stageUpload hjob (hname hjob) hE
  unfold stageGithub
  cases hrelease : job.release with
  | none => exact triple_throw hE
  | some release =>
      refine triple_bind (triple_setPhase _) fun _ => ?_
      refine triple_bind (triple_stageRelease hjob hrelease hE) fun r => ?_
      refine triple_pure fun s hs => ?_
      obtain ⟨content, log, hofficial, hknown⟩ := hs
      exact ⟨content, log, Or.inl ⟨release, rfl, hofficial⟩, hknown⟩

/-! ## The checks of the staged package -/

theorem triple_checkRelease {candidate : Str} {expectedVersion : Option Str}
    (hE : ∀ s, Known events G s → E s) :
    Triple (Known events G) (checkRelease (runDpkgCompare w) candidate expectedVersion)
      (fun _ s => ∃ log, events ⊆ log ∧ (∀ expected ∈ expectedVersion,
        Compared log candidate .eq (sourceVersionToDebForm expected)) ∧ Known log G s) E := by
  unfold checkRelease
  cases expectedVersion with
  | none => exact triple_pure fun s hs => ⟨events, List.Subset.refl _, by simp, hs⟩
  | some expected =>
      refine triple_bind (triple_runDpkgCompare _ _ _ hE) fun yes => ?_
      cases yes with
      | false => exact triple_throw fun s hs => hE s hs.1
      | true =>
          refine triple_pure fun s hs => ?_
          obtain ⟨stdout, hknown⟩ := hs.2 rfl
          refine ⟨_, List.subset_cons_self _ _, ?_, hknown⟩
          rintro x hx
          rw [← Option.some.inj hx]
          exact ⟨stdout, List.mem_cons_self⟩

theorem triple_checkNewer {candidate : Str} (hE : ∀ s, Known events G s → E s) :
    Triple (Known events G) (checkNewer (runDpkgCompare w) (installedPackageVersion w) candidate)
      (fun _ s => ∃ log, events ⊆ log ∧ (∃ stdout, Event.ran .dpkgQuery (.finished 0 stdout) ∈ log
        ∧ strip stdout ≠ [] ∧ Compared log candidate .gt (strip stdout)) ∧ Known log G s) E := by
  refine triple_bind (triple_installedPackageVersion hE) fun version => ?_
  cases version with
  | none => exact triple_throw fun s hs => hE s hs.1
  | some installed =>
      refine triple_conseq (R := fun s => ∃ stdout, (strip stdout = installed ∧ strip stdout ≠ [])
        ∧ Known (.ran .dpkgQuery (.finished 0 stdout) :: events) G s)
        (triple_exists fun stdout => triple_and fun hstdout => ?_) (fun s hs => ?_)
        (fun _ _ => id) fun _ => id
      · obtain ⟨rfl, hne⟩ := hstdout
        have herror : ∀ s, Known (.ran .dpkgQuery (.finished 0 stdout) :: events) G s → E s :=
          fun s hs => hE s hs.tail
        refine triple_bind (triple_runDpkgCompare _ _ _ herror) fun same => ?_
        refine triple_conseq (R := Known (.ran .dpkgQuery (.finished 0 stdout) :: events) G) ?_
          (fun s hs => hs.1) (fun _ _ => id) fun _ => id
        refine triple_ite (fun _ => triple_throw herror) fun _ => ?_
        refine triple_bind (triple_runDpkgCompare _ _ _ herror) fun newer => ?_
        cases newer with
        | false => exact triple_throw fun s hs => herror s hs.1
        | true =>
            refine triple_pure fun s hs => ?_
            obtain ⟨output, hknown⟩ := hs.2 rfl
            exact ⟨_, List.Subset.trans (List.subset_cons_self _ _) (List.subset_cons_self _ _),
              ⟨stdout, by simp, hne, output, List.mem_cons_self⟩, hknown⟩
      · obtain ⟨stdout, hinstalled, hne, hknown⟩ := hs.2 installed rfl
        exact ⟨stdout, ⟨hinstalled, hne⟩, hknown⟩

theorem Compared.mono {log log' : List (Event β)} {a b : Str} {op : CompareOp}
    (h : Compared log a op b) (hlog : log ⊆ log') : Compared log' a op b := by
  obtain ⟨stdout, hmem⟩ := h
  exact ⟨stdout, hlog hmem⟩

theorem triple_validateStaged {name : Str} {content : β} {expectedVersion : Option Str}
    (hE : ∀ s, Known [] (fun _ => True) s → E s) :
    Triple (Known events fun f => f name = some content) (validateStaged w name expectedVersion)
      (fun fields s => ∃ log, events ⊆ log ∧ Validated log name content expectedVersion fields
        ∧ Known log (fun f => f name = some content) s) E := by
  have herror : ∀ {l : List (Event β)} {G : (Str → Option β) → Prop} (s), Known l G s → E s :=
    fun s hs => hE s (hs.mono (List.nil_subset _) fun _ _ => trivial)
  unfold validateStaged validateCandidatePackage
  refine triple_bind (triple_inspectDeb (fun _ => id) herror) fun fields =>
    triple_exists fun stdout => triple_and fun hfields => ?_
  refine triple_ite (fun _ => triple_throw herror) fun hpackage => ?_
  refine triple_ite (fun _ => triple_throw herror) fun _ => ?_
  refine triple_bind (triple_checkRelease herror) fun _ => triple_exists fun log =>
    triple_of_pre (fun s hs => And.intro hs.1 hs.2.1) fun hrelease => ?_
  refine triple_conseq (R := Known log fun f => f name = some content) ?_
    (fun s hs => hs.2.2) (fun _ _ => id) fun _ => id
  refine triple_bind (triple_checkNewer herror) fun _ => triple_pure fun s hs => ?_
  obtain ⟨log', hlog, ⟨installed, hquery, hne, hnewer⟩, hknown⟩ := hs
  have hevents := List.Subset.trans hrelease.1 hlog
  refine ⟨log', List.Subset.trans (List.subset_cons_self _ _) hevents, ⟨?_, ?_, ?_, ?_⟩, hknown⟩
  · exact ⟨stdout, hfields, hevents List.mem_cons_self⟩
  · exact not_not.mp hpackage
  · exact fun expected hexpected => (hrelease.2 expected hexpected).mono hlog
  · exact ⟨installed, hquery, hne, hnewer⟩

/-! ## The installation -/

theorem Official.mono {log log' : List (Event β)} {content : β} {release : Release}
    (h : Official w job log content release) (hlog : log ⊆ log') :
    Official w job log' content release := by
  obtain ⟨hsource, debAsset, sumsAsset, sums, digest, hassets, hsums, hdigest⟩ := h
  refine ⟨?_, debAsset, sumsAsset, sums, digest, hassets, hlog hsums, hdigest⟩
  split_ifs with hjob
  · rwa [if_pos hjob] at hsource
  · rw [if_neg hjob] at hsource
    obtain ⟨releases, hlisted, hmem⟩ := hsource
    exact ⟨releases, hlog hlisted, hmem⟩

theorem Verified.mono {log log' : List (Event β)} {content : β} {expectedVersion : Option Str}
    (h : Verified w job log content expectedVersion) (hlog : log ⊆ log') :
    Verified w job log' content expectedVersion := by
  rcases h with ⟨release, hversion, hofficial⟩ | h
  · exact Or.inl ⟨release, hversion, hofficial.mono hlog⟩
  · exact Or.inr h

theorem Validated.mono {log log' : List (Event β)} {name : Str} {content : β}
    {expectedVersion : Option Str} {fields : Dict Str Str}
    (h : Validated log name content expectedVersion fields) (hlog : log ⊆ log') :
    Validated log' name content expectedVersion fields := by
  obtain ⟨⟨stdout, hfields, hinspected⟩, hpackage, hrelease, installed, hquery, hne, hnewer⟩ := h
  exact ⟨⟨stdout, hfields, hlog hinspected⟩, hpackage,
    fun expected hexpected => (hrelease expected hexpected).mono hlog,
    installed, hlog hquery, hne, hnewer.mono hlog⟩

/-- Other events leave a safe record safe. -/
theorem Safe.record {log : List (Event β)} (h : Safe w job log) {e : Event β}
    (he : ¬ e.IsInstall) : Safe w job (log ++ [e]) := by
  intro pre name content outcome post hlog
  rcases List.eq_nil_or_concat post with rfl | ⟨post, last, rfl⟩
  · have hlast := (List.append_inj' hlog rfl).2
    exact absurd ⟨name, content, outcome, (List.cons.inj hlast).1⟩ he
  · rw [List.concat_eq_append, ← List.cons_append, ← List.append_assoc] at hlog
    exact h pre name content outcome post (List.append_inj' hlog rfl).1

/-- A justified installation does so too. -/
theorem Safe.install {log : List (Event β)} (h : Safe w job log) {name : Str} {content : β}
    (hjustified : Justified w job log name content) (outcome : Outcome) :
    Safe w job (log ++ [.ran (.aptInstall name (some content)) outcome]) := by
  intro pre name' content' outcome' post hlog
  rcases List.eq_nil_or_concat post with rfl | ⟨post, last, rfl⟩
  · obtain ⟨rfl, hlast⟩ := List.append_inj' hlog rfl
    obtain ⟨⟨⟩, -⟩ := List.cons.inj hlast
    exact ⟨content, rfl, hjustified⟩
  · rw [List.concat_eq_append, ← List.cons_append, ← List.append_assoc] at hlog
    exact h pre name' content' outcome' post (List.append_inj' hlog rfl).1

theorem triple_setPhase_safe (phase : Phase) :
    Triple (fun s => Safe w job s.log) (setPhase phase) (fun _ s => Safe w job s.log) E :=
  triple_modify fun _ hs => hs.record (by rintro ⟨_, _, _, h⟩; cases h)

theorem triple_installStaged {name : Str} {content : β} {log : List (Event β)}
    (hjustified : ∀ log', log ⊆ log' → Justified w job log' name content) :
    Triple (Known log fun f => f name = some content) (installStaged w name)
      (fun _ s => Safe w job s.log) fun s => Safe w job s.log := by
  refine triple_bind (triple_setPhase _) fun _ => ?_
  refine triple_bind (triple_staged fun _ => id) fun found => triple_and ?_
  rintro rfl
  have hinstall : Triple (Known log fun f => f name = some content)
      (run w (.aptInstall name (some content))) (fun _ s => Safe w job s.log)
      (fun s => Safe w job s.log) :=
    triple_modifyGet fun s hs => Safe.install hs.safe (hjustified s.log hs.events) _
  have hrest : Triple (fun s => Safe w job s.log) (do
      setPhase .restarting
      setPhase .postcheck
      let s ← get
      setPhase (if w.healthy s.log then .completed else .failed) : JobM β Unit)
      (fun _ s => Safe w job s.log) fun s => Safe w job s.log :=
    triple_bind (triple_setPhase_safe _) fun _ => triple_bind (triple_setPhase_safe _) fun _ =>
      triple_bind (triple_get fun _ hs => hs) fun _ => triple_setPhase_safe _
  refine triple_bind hinstall fun outcome => ?_
  cases outcome with
  | failedToRun => exact triple_throw fun _ => id
  | timedOut => exact triple_throw fun _ => id
  | finished returncode stdout =>
      match returncode with
      | 0 => exact hrest
      | (n + 1 : ℕ) => exact triple_throw fun _ => id
      | .negSucc n => exact triple_throw fun _ => id

theorem triple_checkInstalled (hE : ∀ s, Known [] (fun _ => True) s → E s) :
    Triple (Known [] fun _ : Str → Option β => True) (checkInstalled w)
      (fun _ => Known [] fun _ => True) E := by
  refine triple_bind (triple_installedPackageVersion hE) fun dpkgVersion => ?_
  refine triple_conseq (R := Known [] fun _ => True) ?_ (fun s hs => hs.1) (fun _ _ => id)
    fun _ => id
  refine triple_ite (fun _ => triple_throw hE) fun _ => ?_
  refine triple_bind (triple_installedPackageVersion hE) fun again => ?_
  exact triple_ite (fun _ => triple_throw fun s hs => hE s hs.1) fun _ =>
    triple_pure fun s hs => hs.1

/-- **An installation is justified**: whatever the commands, the downloads and the uploaded file
turn out to be, if the upload is not called as the file that the checksums are downloaded to. -/
theorem runJob_safe (w : World β) (job : Job)
    (hname : job.operation ≠ "github".toList → job.uploadedName ≠ "SHA256SUMS.verify".toList)
    (files : Str → Option β) : Safe w job ((runJob w job) ⟨files, []⟩).2.log := by
  have hsafe : ∀ {l : List (Event β)} {G : (Str → Option β) → Prop} (s), Known l G s →
      Safe w job s.log := fun s hs => hs.safe
  have hrun : Triple (Known [] fun _ => True) (runJob w job) (fun _ s => Safe w job s.log)
      fun s => Safe w job s.log := by
    refine triple_bind (triple_checkInstalled hsafe) fun _ => ?_
    refine triple_bind (triple_setPhase _) fun _ => ?_
    refine triple_bind (triple_stagePackage hname hsafe) fun r => ?_
    obtain ⟨name, expectedVersion⟩ := r
    refine triple_exists fun content => triple_exists fun staging => triple_and fun hverified => ?_
    refine triple_bind (triple_setPhase _) fun _ => ?_
    refine triple_bind (triple_validateStaged hsafe) fun fields => triple_exists fun checks => ?_
    refine triple_of_pre (fun s hs => And.intro hs.1 hs.2.1) fun hchecks => ?_
    refine triple_conseq (R := Known checks fun f => f name = some content) ?_
      (fun s hs => hs.2.2) (fun _ _ => id) fun _ => id
    refine triple_ite (fun _ => triple_throw hsafe) fun hversion => ?_
    refine triple_bind (triple_setPhase _) fun _ => ?_
    refine triple_bind (Q := fun _ => Known checks fun f => f name = some content)
      (triple_get fun _ => id) fun s₀ => ?_
    refine triple_ite (fun _ => triple_throw hsafe) fun _ => ?_
    refine triple_bind (Q := fun _ => Known (.backedUp :: checks) fun f => f name = some content)
      (triple_modify fun s hs => hs.record (by rintro ⟨_, _, _, h⟩; cases h)) fun _ => ?_
    refine triple_bind (triple_setPhase _) fun _ => ?_
    refine triple_bind (triple_simulateInstall (fun _ => id) hsafe) fun _ =>
      triple_exists fun stdout => triple_and fun hsimulated => ?_
    refine triple_installStaged fun log hlog => ?_
    obtain ⟨hsimulation, hlog⟩ := List.cons_subset.mp hlog
    obtain ⟨hbackup, hlog⟩ := List.cons_subset.mp hlog
    refine ⟨expectedVersion, fields, hverified.mono (List.Subset.trans hchecks.1 hlog),
      hchecks.2.mono hlog, ?_, hbackup, stdout, hsimulation, fun package hpackage hremoved => ?_⟩
    · exact Option.isNone_eq_false_iff.mp (Bool.eq_false_of_not_eq_true hversion)
    · have hunsafe : package ∈ unsafeRemovals stdout := by
        rw [unsafeRemovals, List.mem_filter]
        exact ⟨hpackage, decide_eq_true hremoved⟩
      rw [hsimulated] at hunsafe
      exact List.not_mem_nil hunsafe
  have hstart : @Known β [] (fun _ => True) ⟨files, []⟩ :=
    ⟨fun e he => absurd he List.not_mem_nil, fun e he => absurd he List.not_mem_nil, trivial⟩
  have hresult := hrun _ hstart
  rcases hend : (runJob w job) ⟨files, []⟩ with ⟨r, s⟩
  rw [hend] at hresult
  cases r with
  | ok a => exact hresult
  | error e => exact hresult

end Safety

/-! ## The name of the upload -/

/-- The name that `finalize_manual_upload` gives an upload at a time in whole seconds. -/
def uploadName (seconds name : Str) : Str := seconds ++ '-' :: name

/-- Through the upload form no file gets the name that the theorem excludes. -/
theorem uploadName_ne {seconds : Str} (hne : seconds ≠ [])
    (hdigits : ∀ c ∈ seconds, Debian.isDigit c = true) (name : Str) :
    uploadName seconds name ≠ "SHA256SUMS.verify".toList := by
  obtain ⟨c, seconds, rfl⟩ := List.exists_cons_of_ne_nil hne
  intro h
  have hc : c = 'S' := (List.cons.inj h).1
  exact ne_of_digit (hdigits c List.mem_cons_self) (by decide) hc

/-- A world with two contents: the checksums of the release break off while they are downloaded,
and what has been written of them is content 1.  dpkg takes either content for a newer package. -/
def brokenWorld : World ℕ where
  unicode := { lower := id, idna := fun _ => none }
  sha256 n := if n = 0 then "d0".toList else "d1".toList
  readText _ := []
  versionFile := some "1.1.0".toList
  online := true
  uploadConfined := true
  uploaded := some 0
  command _ c := match c with
    | .dpkgQuery => .finished 0 "1.1.0-1".toList
    | .dpkgDeb _ _ =>
        .finished 0 "Package: alderpointdns\nVersion: 1.2.0-1\nArchitecture: all".toList
    | .compareVersions a op b => .finished (if op = .gt ∨ a = b then 0 else 1) []
    | .aptSimulate _ _ => .finished 0 "Inst alderpointdns [1.1.0-1]".toList
    | .aptInstall _ _ => .finished 0 []
  listReleases _ := .ok [⟨some "v1.2.0".toList, false,
    [⟨"alderpointdns_1.2.0-1_all.deb".toList, some "package".toList, none⟩,
      ⟨"SHA256SUMS".toList, some "sums".toList, none⟩]⟩]
  download _ _ := .broken (some 1) .downloadFailed
  createBackup _ := true
  healthy _ := true

/-- An upload that the operator has given the checksum of content 0 for. -/
def uploadJob (name : String) : Job := ⟨"manual".toList, none, name.toList, some "d0".toList⟩

theorem runJob_safe_broken :
    Safe brokenWorld (uploadJob "1700000000-alderpointdns.deb")
      ((runJob brokenWorld (uploadJob "1700000000-alderpointdns.deb")) ⟨fun _ => none, []⟩).2.log :=
  runJob_safe brokenWorld (uploadJob "1700000000-alderpointdns.deb") (fun _ => by decide) _

/-- **The upload is replaced by the checksums** after its own checksum was taken. -/
theorem exists_unjustified : ¬ ∀ (w : World ℕ) (job : Job),
    Safe w job ((runJob w job) ⟨fun _ => none, []⟩).2.log := by
  intro hsafe
  have hinstalled : Event.ran (.aptInstall "SHA256SUMS.verify".toList (some 1)) (.finished 0 [])
      ∈ ((runJob brokenWorld (uploadJob "SHA256SUMS.verify")) ⟨fun _ => none, []⟩).2.log := by
    decide +kernel
  have hlog : ∀ e ∈ ((runJob brokenWorld (uploadJob "SHA256SUMS.verify"))
      ⟨fun _ => none, []⟩).2.log,
      (match e with | .downloaded _ _ => false | _ => true) = true := by
    decide +kernel
  obtain ⟨pre, post, hsplit⟩ := List.append_of_mem hinstalled
  obtain ⟨c, hc, expectedVersion, fields, hverified, -⟩ := hsafe _ _ pre _ _ _ post hsplit
  obtain rfl : (1 : ℕ) = c := Option.some.inj hc
  rcases hverified with
    ⟨release, -, -, debAsset, sumsAsset, sums, digest, -, hsums, -⟩ | ⟨-, hgiven⟩
  · exact absurd (hlog (.downloaded sumsAsset sums) (by rw [hsplit]; simp [hsums])) (by simp)
  · obtain ⟨expected, hexpected, hequal⟩ := hgiven
    obtain rfl : "d0".toList = expected := Option.some.inj hexpected
    exact absurd hequal (by decide)

end AlderpointDNS.SoftwareUpdates
