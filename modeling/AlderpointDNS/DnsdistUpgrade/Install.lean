import AlderpointDNS.Lib.Disks
import AlderpointDNS.Lib.Programs
import AlderpointDNS.SoftwareUpdates.Candidate

/-!
# Installing the enhanced dnsdist

`install_enhanced_dnsdist` makes a backup of the dnsdist configuration, the service override
directory and the certificates, goes through the steps of an upgrade, and brings the backup back
when a step raises an `UpgradeError`.

Its functions are programs here.  How a command ends and what it does to the disk is up to the
`World`, and so is whether a file can be read or written; everything that was run, read and written
is recorded.  `subprocess.run` ends in four ways, and each function says which of them it turns into
an `UpgradeError`.

* `Step`, `perform` — the steps.
* `installEnhancedDnsdist` — the function.
-/

namespace AlderpointDNS.DnsdistUpgrade

open Text

abbrev Path := List Str

/-! ## The world -/

inductive Command where
  | dnsdistVersion
  | printArchitecture
  | curl
  | showKeys
  | aptUpdate
  | aptPolicy
  | aptSimulate
  | aptInstall
  | checkConfig
  | restart
  | isActive (service : Str)
  | dig
  deriving DecidableEq, Repr

/-- How `subprocess.run` ends. -/
inductive Outcome where
  | finished (returncode : ℤ) (stdout : Str)
  /-- `TimeoutExpired` -/
  | timedOut
  /-- an `OSError`, as when there is no such executable -/
  | failedToRun
  /-- the output is not text -/
  | undecodable
  deriving DecidableEq, Repr

inductive FileOp where
  | readKeyText
  | readKeyBytes
  | writeKeyring
  | writeSourcesList
  | writePreferences
  deriving DecidableEq, Repr

inductive Event where
  | ran (command : Command) (outcome : Outcome)
  /-- a file is read or written, or there is an `OSError` -/
  | file (op : FileOp) (ok : Bool)
  deriving DecidableEq, Repr

/-- What the upgrade finds outside; contents of files are in `β`.  Answers may depend on everything
that has happened. -/
structure World (β : Type) where
  unicode : UnicodeData
  /-- `read_text(errors="replace")` -/
  readText : β → Str
  size : β → ℕ
  encode : String → β
  /-- `ID`, `VERSION_ID` and `VERSION_CODENAME` of `/etc/os-release` -/
  osRelease : Option (Str × Str × Str)
  /-- the host of the repository has an address -/
  resolves : Bool
  command : List Event → Command → Disk Str β → Outcome × Disk Str β
  /-- what `curl` has left of the key -/
  downloaded : List Event → Option β
  accessible : List Event → FileOp → Bool
  /-- the backup can be written -/
  backsUp : Bool
  /-- how often the services are looked at before the deadline -/
  rounds : List Event → ℕ
  /-- how many members are read of the backup before something goes wrong -/
  readable : List Event → Option ℕ

/-! ## Errors -/

structure Capabilities where
  doh : Bool
  dot : Bool
  doq : Bool
  doh3 : Bool
  dnscrypt : Bool
  deriving DecidableEq, Repr

inductive UpgradeError where
  | osReleaseUnreadable
  | unsupportedOs (id version codename : Str)
  | architectureNotRun
  | architecture
  | unresolved
  | keyDownload (output : Str)
  | keyDownloadTimedOut
  | keyEmpty
  | keyNotArmored
  | gpgNotRun
  | gpg (output : Str)
  | noFingerprint
  | fingerprintMismatch (got : List Str)
  | aptUpdate (output : Str)
  | aptUpdateTimedOut
  | aptPolicyNotRun
  | noCandidate
  | unsupportedCandidate (candidate : Str)
  | candidateOrigin (candidate : Str)
  | simulationNotRun
  | simulation (output : Str)
  | removesCritical (packages : List Str) (output : Str)
  | aptInstall (output : Str)
  | aptInstallTimedOut
  | missingCapabilities (version : Str) (capabilities : Capabilities)
  | checkConfigNotRun
  | checkConfig (output : Str)
  | restart (output : Str)
  | inactive (services : List Str)
  | digNotRun
  | baseline (output : Str)
  /-- the error of a step, and whether the configuration was restored -/
  | rolledBack (cause : UpgradeError) (restored : Bool)
  deriving DecidableEq, Repr

/-- What a function raises. -/
inductive Raised where
  | upgrade (error : UpgradeError)
  | timeoutExpired
  | osError
  | unicodeDecodeError
  | indexError
  deriving DecidableEq, Repr

/-- The exception of a command that has not finished. -/
def Outcome.raised : Outcome → Raised
  | .timedOut => .timeoutExpired
  | .undecodable => .unicodeDecodeError
  | _ => .osError

/-! ## State -/

structure UpgradeReport where
  changed : Bool := false
  alreadySatisfied : Bool := false
  versionBefore : Str := []
  versionAfter : Str := []
  capabilitiesBefore : Capabilities := ⟨false, false, false, false, false⟩
  capabilitiesAfter : Capabilities := ⟨false, false, false, false, false⟩
  deriving DecidableEq, Repr

/-- The disk, the downloaded key, the record and the report. -/
structure State (β : Type) where
  disk : Disk Str β
  key : Option β
  log : List Event
  report : UpgradeReport

abbrev UpgradeM (β : Type) := Program (State β) Raised

variable {β : Type} [DecidableEq β] (w : World β)

/-- `run`. -/
def run (command : Command) : UpgradeM β Outcome :=
  modifyGet fun s =>
    let (outcome, disk) := w.command s.log command s.disk
    (outcome, { s with disk := disk, log := s.log ++ [.ran command outcome] })

/-- An access to a file that may be an `OSError`; what it does to the disk is `none` when it fails
anyway. -/
def access (op : FileOp) (effect : Disk Str β → Option (Disk Str β)) : UpgradeM β Unit := do
  let ok ← modifyGet fun s =>
    match (if w.accessible s.log op then effect s.disk else none) with
    | some disk => (true, { s with disk := disk, log := s.log ++ [.file op true] })
    | none => (false, { s with log := s.log ++ [.file op false] })
  if ok then pure () else throw .osError

/-! ## Before the backup -/

def path (text : String) : Path := (split '/' text.toList).filter (· ≠ [])

def keyringPath : Path := path "/etc/apt/keyrings/dnsdist-21-pub.asc"
def sourcesListPath : Path := path "/etc/apt/sources.list.d/pdns.list"
def preferencesPath : Path := path "/etc/apt/preferences.d/dnsdist-21"

def sourcesListContent : String :=
  "deb [signed-by=/etc/apt/keyrings/dnsdist-21-pub.asc] http://repo.powerdns.com/debian " ++
    "trixie-dnsdist-21 main\n"
def preferencesContent : String :=
  "Package: dnsdist*\nPin: origin repo.powerdns.com\nPin-Priority: 600\n"

def dnsdistConf : Path := path "/etc/dnsdist/dnsdist.conf"
def serviceOverrideDir : Path := path "/etc/systemd/system/dnsdist.service.d"
def certDir : Path := path "/etc/alderpointdns/certs"

def requiredServices : List Str :=
  ["dnsdist", "named", "alderpointdns", "alderpointdns-analytics"].map String.toList

def criticalPackages : List Str :=
  ["alderpointdns", "bind9", "bind9-utils", "dnsdist", "libssl3", "libc6"].map String.toList

/-- The features that the output names. -/
def capabilitiesOf (output : Str) : Capabilities :=
  let lowered := w.unicode.toLower output
  { doh := isSubstring "dns-over-https".toList lowered
    dot := isSubstring "dns-over-tls".toList lowered
    doq := isSubstring "dns-over-quic".toList lowered
    doh3 := isSubstring "dns-over-http3".toList lowered
    dnscrypt := isSubstring "dnscrypt".toList lowered }

/-- `dnsdist_capabilities`. -/
def dnsdistCapabilities : UpgradeM β Capabilities := do
  match ← run w .dnsdistVersion with
  | .finished _ output => pure (capabilitiesOf w output)
  | .failedToRun => pure (capabilitiesOf w [])
  | outcome => throw outcome.raised

/-- `dnsdist_version`. -/
def dnsdistVersion : UpgradeM β Str := do
  match ← run w .dnsdistVersion with
  | .finished _ output =>
      let firstLine := (splitlines output).headD []
      pure (if firstLine = [] then "unknown".toList else firstLine)
  | .failedToRun => pure "not installed".toList
  | outcome => throw outcome.raised

/-- `has_required_capabilities`. -/
def hasRequiredCapabilities (caps : Capabilities) : Bool := caps.doq && caps.doh3

/-- `check_os_supported`. -/
def checkOsSupported : UpgradeM β Unit :=
  match w.osRelease with
  | none => throw (.upgrade .osReleaseUnreadable)
  | some (id, version, codename) =>
      if id ≠ "debian".toList ∨ ¬ (version = "13".toList ∨ codename = "trixie".toList) then
        throw (.upgrade (.unsupportedOs id version codename))
      else pure ()

/-- `detect_architecture`. -/
def detectArchitecture : UpgradeM β Str := do
  match ← run w .printArchitecture with
  | .finished code output =>
      if code ≠ 0 ∨ strip output = [] then throw (.upgrade .architecture) else pure (strip output)
  | .failedToRun => throw (.upgrade .architectureNotRun)
  | outcome => throw outcome.raised

/-- `resolve_repo_host`. -/
def resolveRepoHost : UpgradeM β Unit :=
  if w.resolves then pure () else throw (.upgrade .unresolved)

/-! ## The backup -/

/-- What is backed up. -/
def backedUpPaths : List Path := [dnsdistConf, serviceOverrideDir, certDir]

/-- `archive.add` of a path with everything below it. -/
def archiveOf (disk : Disk Str β) (source : Path) : Archive Str β :=
  (sortBy (fun p : Path => p) (disk.entries.keys.filter (source <+: ·))).filterMap fun p =>
    (disk.entry p).map fun entry => (p, entry)

/-- `backup_state`. -/
def backupState : UpgradeM β (Archive Str β) := do
  let s ← get
  if w.backsUp then pure (backedUpPaths.flatMap (archiveOf s.disk)) else throw .osError

/-- `restore_config_from_backup`, `false` when it raises. -/
def restoreConfigFromBackup (archive : Archive Str β) : UpgradeM β Bool :=
  modifyGet fun s =>
    let (extracted, disk) := archive.extract (w.readable s.log) s.disk
    (extracted.length = archive.length, { s with disk := disk })

/-! ## The steps -/

/-- `download_signing_key`. -/
def downloadSigningKey : UpgradeM β Unit := do
  match ← run w .curl with
  | .finished code output =>
      if code ≠ 0 then throw (.upgrade (.keyDownload output)) else do
        let key ← modifyGet fun s => (w.downloaded s.log, { s with key := w.downloaded s.log })
        match key with
        | none => throw (.upgrade .keyEmpty)
        | some content => if w.size content = 0 then throw (.upgrade .keyEmpty) else pure ()
  | .timedOut => throw (.upgrade .keyDownloadTimedOut)
  | outcome => throw outcome.raised

/-- The fingerprints in the output of `gpg --with-colons`; `none` is an `IndexError`. -/
def fingerprints (output : Str) : Option (List Str) :=
  ((splitlines output).filter (startsWith · "fpr:".toList)).mapM fun line => (split ':' line)[9]?

/-- `verify_signing_key`. -/
def verifySigningKey (expectedFingerprint : Str) : UpgradeM β Unit := do
  access w .readKeyText some
  let s ← get
  if ¬ isSubstring "-----BEGIN PGP PUBLIC KEY BLOCK-----".toList ((s.key.map w.readText).getD [])
  then throw (.upgrade .keyNotArmored) else
    match ← run w .showKeys with
    | .finished code output =>
        if code ≠ 0 then throw (.upgrade (.gpg output)) else
          match fingerprints output with
          | none => throw .indexError
          | some [] => throw (.upgrade .noFingerprint)
          | some got =>
              if expectedFingerprint ∉ got then throw (.upgrade (.fingerprintMismatch got))
              else pure ()
    | .failedToRun => throw (.upgrade .gpgNotRun)
    | outcome => throw outcome.raised

/-- `_atomic_write`. -/
def atomicWrite (op : FileOp) (path : Path) (content : β) : UpgradeM β Unit :=
  access w op fun disk => disk.place path (.file content)

/-- `install_keyring`. -/
def installKeyring : UpgradeM β Unit := do
  access w .readKeyBytes some
  let s ← get
  atomicWrite w .writeKeyring keyringPath (s.key.getD (w.encode ""))

/-- `write_apt_sources`. -/
def writeAptSources : UpgradeM β Unit := do
  atomicWrite w .writeSourcesList sourcesListPath (w.encode sourcesListContent)
  atomicWrite w .writePreferences preferencesPath (w.encode preferencesContent)

/-- `apt_update`. -/
def aptUpdate : UpgradeM β Unit := do
  match ← run w .aptUpdate with
  | .finished code output => if code ≠ 0 then throw (.upgrade (.aptUpdate output)) else pure ()
  | .timedOut => throw (.upgrade .aptUpdateTimedOut)
  | outcome => throw outcome.raised

/-- The texts from the start of each line on. -/
def lineStarts (s : Str) : List Str :=
  s :: (s.tails.filter fun t => t.head? = some '\n').map List.tail

/-- `CANDIDATE_RE` at the start of a line. -/
def candidateAt (s : Str) : Option Str :=
  let rest := s.dropWhile isSpace
  let name := ((rest.drop "Candidate:".length).dropWhile isSpace).takeWhile fun c => !isSpace c
  if startsWith rest "Candidate:".toList ∧ name ≠ [] then some name else none

/-- `ORIGIN_LINE_RE` at the start of a line. -/
def originAt (s : Str) : Bool :=
  let rest := s.dropWhile isSpace
  let host := rest.dropWhile SoftwareUpdates.isDecimal
  let url := host.dropWhile isSpace
  let suite := url.drop "http://repo.powerdns.com/debian".length
  let rest' := suite.dropWhile isSpace
  rest.head?.any SoftwareUpdates.isDecimal && host.head?.any isSpace
    && startsWith url "http://repo.powerdns.com/debian".toList && suite.head?.any isSpace
    && endsWith (rest'.takeWhile fun c => !isSpace c) "/main".toList
    && (rest'.dropWhile fun c => !isSpace c) ≠ []

/-- `apt_policy_candidate`. -/
def aptPolicyCandidate : UpgradeM β Str := do
  match ← run w .aptPolicy with
  | .finished _ output =>
      match (lineStarts output).findSome? candidateAt with
      | none => throw (.upgrade .noCandidate)
      | some candidate =>
          if ¬ (startsWith candidate "2.1.".toList
              ∧ (candidate.drop 4).head?.any SoftwareUpdates.isDecimal) then
            throw (.upgrade (.unsupportedCandidate candidate))
          else if ¬ (lineStarts output).any originAt then
            throw (.upgrade (.candidateOrigin candidate))
          else pure candidate
  | .failedToRun => throw (.upgrade .aptPolicyNotRun)
  | outcome => throw outcome.raised

/-- `simulate_install`. -/
def simulateInstall : UpgradeM β Str := do
  match ← run w .aptSimulate with
  | .finished code output =>
      let removed := SoftwareUpdates.removedPackages output
      let critical := criticalPackages.filter (· ∈ removed)
      if code ≠ 0 then throw (.upgrade (.simulation output))
      else if critical ≠ [] then throw (.upgrade (.removesCritical critical output))
      else pure output
  | .failedToRun => throw (.upgrade .simulationNotRun)
  | outcome => throw outcome.raised

/-- `apt_install`. -/
def aptInstall : UpgradeM β Unit := do
  match ← run w .aptInstall with
  | .finished code output => if code ≠ 0 then throw (.upgrade (.aptInstall output)) else pure ()
  | .timedOut => throw (.upgrade .aptInstallTimedOut)
  | outcome => throw outcome.raised

/-- What the installed dnsdist reports. -/
def checkCapabilities : UpgradeM β Unit := do
  let capabilities ← dnsdistCapabilities w
  let version ← dnsdistVersion w
  modify fun s => { s with report :=
    { s.report with capabilitiesAfter := capabilities, versionAfter := version } }
  if hasRequiredCapabilities capabilities then pure ()
  else throw (.upgrade (.missingCapabilities version capabilities))

/-- `check_config`. -/
def checkConfig : UpgradeM β Unit := do
  match ← run w .checkConfig with
  | .finished code output => if code ≠ 0 then throw (.upgrade (.checkConfig output)) else pure ()
  | .failedToRun => throw (.upgrade .checkConfigNotRun)
  | outcome => throw outcome.raised

/-- The services among these that are not active. -/
def inactiveServices : List Str → UpgradeM β (List Str)
  | [] => pure []
  | service :: services => do
      match ← run w (.isActive service) with
      | .finished _ output =>
          let failed ← inactiveServices services
          pure (if strip output ≠ "active".toList then service :: failed else failed)
      | outcome => throw outcome.raised

/-- The services are looked at again and again until they are active, or time is up. -/
def awaitServices : ℕ → List Str → UpgradeM β Unit
  | 0, failed => throw (.upgrade (.inactive failed))
  | n + 1, _ => do
      let failed ← inactiveServices w requiredServices
      if failed = [] then pure () else awaitServices n failed

/-- `restart_dnsdist_and_verify_services`. -/
def restartDnsdistAndVerifyServices : UpgradeM β Unit := do
  match ← run w .restart with
  | .finished code output =>
      if code ≠ 0 then throw (.upgrade (.restart output)) else do
        let s ← get
        awaitServices w (w.rounds s.log) []
  | outcome => throw outcome.raised

/-- `baseline_dns_test`. -/
def baselineDnsTest : UpgradeM β Unit := do
  match ← run w .dig with
  | .finished code output =>
      if code ≠ 0 ∨ ¬ isSubstring "status: NOERROR".toList output then
        throw (.upgrade (.baseline output))
      else pure ()
  | .failedToRun => throw (.upgrade .digNotRun)
  | outcome => throw outcome.raised

inductive Step where
  | downloadSigningKey
  | verifySigningKey
  | installKeyring
  | writeAptSources
  | aptUpdate
  | aptPolicyCandidate
  | simulateInstall
  | aptInstall
  | checkCapabilities
  | checkConfig
  | restartDnsdistAndVerifyServices
  | baselineDnsTest
  deriving DecidableEq, Repr

/-- The steps after the backup, in their order. -/
def steps : List Step :=
  [.downloadSigningKey, .verifySigningKey, .installKeyring, .writeAptSources, .aptUpdate,
    .aptPolicyCandidate, .simulateInstall, .aptInstall, .checkCapabilities, .checkConfig,
    .restartDnsdistAndVerifyServices, .baselineDnsTest]

def perform (expectedFingerprint : Str) : Step → UpgradeM β Unit
  | .downloadSigningKey => downloadSigningKey w
  | .verifySigningKey => verifySigningKey w expectedFingerprint
  | .installKeyring => installKeyring w
  | .writeAptSources => writeAptSources w
  | .aptUpdate => aptUpdate w
  | .aptPolicyCandidate => do let _ ← aptPolicyCandidate w
  | .simulateInstall => do let _ ← simulateInstall w
  | .aptInstall => aptInstall w
  | .checkCapabilities => checkCapabilities w
  | .checkConfig => checkConfig w
  | .restartDnsdistAndVerifyServices => restartDnsdistAndVerifyServices w
  | .baselineDnsTest => baselineDnsTest w

/-! ## The whole function -/

/-- The function up to the backup; nothing is backed up when there is nothing to do. -/
def prepare : UpgradeM β (Option (Archive Str β)) := do
  let capabilities ← dnsdistCapabilities w
  let version ← dnsdistVersion w
  modify fun s => { s with report :=
    { s.report with capabilitiesBefore := capabilities, versionBefore := version } }
  checkOsSupported w
  let _ ← detectArchitecture w
  if hasRequiredCapabilities capabilities then
    modify fun s => { s with report :=
      { s.report with
        alreadySatisfied := true
        capabilitiesAfter := capabilities
        versionAfter := version } }
    pure none
  else
    resolveRepoHost w
    let archive ← backupState w
    pure (some archive)

/-- Only an `UpgradeError` is handled. -/
def rollBack (archive : Archive Str β) : Raised → UpgradeM β Unit
  | .upgrade error => do
      let restored ← restoreConfigFromBackup w archive
      throw (.upgrade (.rolledBack error restored))
  | raised => throw raised

/-- `install_enhanced_dnsdist`. -/
def installEnhancedDnsdist (expectedFingerprint : Str) : UpgradeM β UpgradeReport := do
  match ← prepare w with
  | none => pure ()
  | some archive =>
      tryCatch (do
        steps.forM (perform w expectedFingerprint)
        modify fun s => { s with report := { s.report with changed := true } }) (rollBack w archive)
  let s ← get
  pure s.report

end AlderpointDNS.DnsdistUpgrade
