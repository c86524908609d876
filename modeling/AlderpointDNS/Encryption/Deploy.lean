import AlderpointDNS.Encryption.Migrations
import AlderpointDNS.Lib.Programs

/-!
# Deploying the encryption settings

`deploy_encryption` writes certificates and keys, migrates dnsdist.conf, writes the environment
override of dnsdist and restarts it.  What it raises on the way is answered by putting back the
files it has copied before.  It is a program here whose state holds the files and its local
variables; what openssl, dnsdist, systemd and the disk do is up to the `EncryptionWorld`.

* `resolveActiveCertPaths` — the pair that `cert_mode` names, which is the one that is copied.
* `generate`, `acceptPendingUpload`, `issueDnscrypt` — the pairs that are written.
* `attempt` — the statements of `try`, and `rollBack` those of `except`.

Left out are the serial of the DNSCrypt certificate, which is in the database, and the owner and
the mode of files.  A path that the administrator has typed is not the one of a copy that this
deployment makes.
-/

namespace AlderpointDNS.Encryption

open Text Program

/-! ## Files -/

inductive EncryptionFile where
  | dnsdistConf
  | envOverride
  | certDefault
  | keyDefault
  | caCert
  | caKey
  | caSerial
  | uploadedCert
  | uploadedKey
  | providerPublic
  | providerPrivate
  | dnscryptCert
  | dnscryptKey
  | pendingUploadCert
  | pendingUploadKey
  | template
  | certBackup
  | keyBackup
  | confBackup
  | altsvcBackup
  | envBackup
  | other (path : Str)
deriving DecidableEq

abbrev Files := EncryptionFile → Option Str

def certDir : Str := "/etc/alderpointdns/certs".toList

/-- `CERT_DIR / name`. -/
def inCertDir (name : String) : Str := certDir ++ '/' :: name.toList

def certPathDefault : Str := inCertDir "alderpointdns-lab.crt"

def keyPathDefault : Str := inCertDir "alderpointdns-lab.key"

def uploadedCertPath : Str := inCertDir "alderpointdns-uploaded.crt"

def uploadedKeyPath : Str := inCertDir "alderpointdns-uploaded.key"

def dnscryptCertPath : Str := inCertDir "dnscrypt-resolver.cert"

def dnscryptKeyPath : Str := inCertDir "dnscrypt-resolver.key"

/-- The constants of the module. -/
def namedFiles : List (Str × EncryptionFile) :=
  [("/etc/dnsdist/dnsdist.conf".toList, .dnsdistConf),
    ("/etc/systemd/system/dnsdist.service.d/alderpointdns.conf".toList, .envOverride),
    (certPathDefault, .certDefault), (keyPathDefault, .keyDefault),
    (inCertDir "alderpointdns-ca.crt", .caCert), (inCertDir "alderpointdns-ca.key", .caKey),
    (inCertDir "alderpointdns-ca.srl", .caSerial), (uploadedCertPath, .uploadedCert),
    (uploadedKeyPath, .uploadedKey), (inCertDir "dnscrypt-provider.public", .providerPublic),
    (inCertDir "dnscrypt-provider.private", .providerPrivate), (dnscryptCertPath, .dnscryptCert),
    (dnscryptKeyPath, .dnscryptKey),
    ("/var/lib/alderpointdns/staging/pending-cert-upload.crt".toList, .pendingUploadCert),
    ("/var/lib/alderpointdns/staging/pending-cert-upload.key".toList, .pendingUploadKey)]

/-- The file at a path that the administrator has typed. -/
def fileAt (path : Str) : EncryptionFile := (namedFiles.lookup path).getD (.other path)

/-! ## Settings -/

/-- `encryption_settings`. -/
structure EncryptionSettings where
  serverHostname : Str
  bootstrapIp : Str
  listenIpv4 : Str
  listenIpv6 : Str
  dohEnabled : Str
  doh3Enabled : Str
  dotEnabled : Str
  doqEnabled : Str
  dnscryptEnabled : Str
  dohPath : Str
  dohPort : Str
  doh3Port : Str
  dotPort : Str
  doqPort : Str
  dnscryptPort : Str
  dnscryptProvider : Str
  certMode : Str
  certPath : Str
  keyPath : Str
  pendingCertAction : Str
deriving DecidableEq

/-- `dnsdist_capabilities`. -/
structure Capabilities where
  doh : Bool
  dot : Bool
  doq : Bool
  doh3 : Bool
  dnscrypt : Bool

/-- One round of `enforce_capabilities`: the flag, and what is reported. -/
def enforceCapability (suffix label flag : Str) (supported : Bool) : Str × List Str :=
  if flag = ['1'] ∧ supported = false then
    (['0'], [label ++ " was disabled".toList ++ suffix ++
      ": not supported by the installed dnsdist build".toList])
  else (flag, [])

def enforceCapabilities (cfg : EncryptionSettings) (caps : Capabilities) (suffix : Str) :
    EncryptionSettings × List Str :=
  let doh := enforceCapability suffix "DoH".toList cfg.dohEnabled caps.doh
  let dot := enforceCapability suffix "DoT".toList cfg.dotEnabled caps.dot
  let doh3 := enforceCapability suffix "DoH3".toList cfg.doh3Enabled caps.doh3
  let doq := enforceCapability suffix "DoQ".toList cfg.doqEnabled caps.doq
  let dnscrypt := enforceCapability suffix "DNSCrypt".toList cfg.dnscryptEnabled caps.dnscrypt
  ({ cfg with
      dohEnabled := doh.1
      dotEnabled := dot.1
      doh3Enabled := doh3.1
      doqEnabled := doq.1
      dnscryptEnabled := dnscrypt.1 },
    doh.2 ++ dot.2 ++ doh3.2 ++ doq.2 ++ dnscrypt.2)

/-- The root of `Path(text)`; two slashes are not one. -/
def pathRoot (text : Str) : Str :=
  if startsWith text "//".toList && !startsWith text "///".toList then "//".toList
  else if startsWith text "/".toList then "/".toList
  else []

/-- `str(Path(text))`: without empty parts and dots. -/
def pathText (text : Str) : Str :=
  let parts := (split '/' text).filter fun part => part ≠ [] && part ≠ ['.']
  if pathRoot text = [] ∧ parts = [] then ['.'] else pathRoot text ++ join ['/'] parts

/-- The texts of `resolve_active_cert_paths`. -/
def resolveActiveCertPaths (cfg : EncryptionSettings) : Str × Str :=
  if cfg.certMode = "uploaded".toList then (uploadedCertPath, uploadedKeyPath)
  else if cfg.certMode = "existing_path".toList then (pathText cfg.certPath, pathText cfg.keyPath)
  else (certPathDefault, keyPathDefault)

/-- The certificate that `cert_mode` names. -/
def EncryptionSettings.activeCert (cfg : EncryptionSettings) : EncryptionFile :=
  fileAt (resolveActiveCertPaths cfg).1

/-- The key that `cert_mode` names. -/
def EncryptionSettings.activeKey (cfg : EncryptionSettings) : EncryptionFile :=
  fileAt (resolveActiveCertPaths cfg).2

/-- `pending_action in ("generate_self_signed", "generate_local_ca")`. -/
def EncryptionSettings.generates (cfg : EncryptionSettings) : Bool :=
  cfg.pendingCertAction = "generate_self_signed".toList ||
    cfg.pendingCertAction = "generate_local_ca".toList

def environmentLine (name : String) (value : Str) : Str :=
  "Environment=ALDERPOINTDNS_".toList ++ name.toList ++ '=' :: value

def renderEnvOverride (cfg : EncryptionSettings) : Str :=
  join ['\n'] ["[Service]".toList,
    environmentLine "DNS_PLAIN" ['1'],
    environmentLine "DNS_LISTEN_IPV4" cfg.listenIpv4,
    environmentLine "DNS_LISTEN_IPV6" cfg.listenIpv6,
    environmentLine "DNS_DOH" cfg.dohEnabled,
    environmentLine "DNS_DOT" cfg.dotEnabled,
    environmentLine "DNS_DOQ" cfg.doqEnabled,
    environmentLine "DNS_DOH3" cfg.doh3Enabled,
    environmentLine "DNS_DNSCRYPT" cfg.dnscryptEnabled,
    environmentLine "TLS_CERT" (resolveActiveCertPaths cfg).1,
    environmentLine "TLS_KEY" (resolveActiveCertPaths cfg).2,
    environmentLine "DOH_PATH" cfg.dohPath,
    environmentLine "DOH_PORT" cfg.dohPort,
    environmentLine "DOH3_PORT" cfg.doh3Port,
    environmentLine "DOT_PORT" cfg.dotPort,
    environmentLine "DOQ_PORT" cfg.doqPort,
    environmentLine "DNSCRYPT_PORT" cfg.dnscryptPort,
    environmentLine "DNSCRYPT_PROVIDER" cfg.dnscryptProvider,
    environmentLine "DNSCRYPT_CERT" dnscryptCertPath,
    environmentLine "DNSCRYPT_KEY" dnscryptKeyPath] ++ ['\n']

/-! ## What happens outside -/

/-- What is written or copied, one name for each place. -/
inductive FileOp where
  | backUpCert
  | backUpKey
  | cert
  | key
  | caCert
  | caKey
  | uploadedCert
  | uploadedKey
  | providerPublic
  | providerPrivate
  | dnscryptCert
  | dnscryptKey
  | backUpConf
  | conf
  | backUpAltsvc
  | altsvc
  | restoreAltsvc
  | backUpOverride
  | override
  | restoreCert
  | restoreKey
  | restoreOverride
deriving DecidableEq

/-- How a file is written. -/
inductive WriteOutcome where
  | done
  /-- nothing is written -/
  | refused (error : Str)
  /-- the writing ends with this content -/
  | partway (content error : Str)

/-- The other statements that may raise. -/
inductive EncryptionStep where
  | settings
  | selfSigned
  | localCa
  | leaf
  | clearAction
  | checkUpload
  | unlinkUpload
  | providerKeys
  | resolverCert
  | readConf
  | readAltsvc
  | checkAltsvc
  | readOverride
  | daemonReload
  | checkConfig
  | restart
  | waitActive
  | testProtocols
  | rollbackReload
  | rollbackRestart
  | rollbackWait
deriving DecidableEq

/-- What openssl, dnsdist, systemd and the disk do in a deployment. -/
structure EncryptionWorld where
  capabilities : Capabilities
  raises : EncryptionStep → Option Str
  writes : FileOp → WriteOutcome
  /-- the text of the error where a file is not there -/
  missing : EncryptionFile → Str
  /-- a certificate and its key -/
  selfSigned : Str × Str
  localCa : Str × Str
  leaf : Str × Str
  serial : Str
  /-- `validate_cert_key_match` of the contents -/
  isMatch : Str → Str → Bool
  /-- the public and the private key, where dnsdist writes them -/
  provider : Option (Str × Str)
  resolver : Option (Str × Str)
  /-- the returncode of the check after the second migration is 0, and its output -/
  altsvcValid : Bool
  altsvcOutput : Str
  /-- the path of the copy that the second migration makes -/
  altsvcBackupPath : Str
  active : Bool
  protocolTests : EncryptionSettings → List (Str × Str)
  /-- `str(protocol_tests)` -/
  reprTests : List (Str × Str) → Str
  activeAfterRollback : Bool

/-- The files and the local variables of `deploy_encryption`. -/
structure EncryptionState where
  files : Files
  /-- `cert_backup_target` and `key_backup_target`, where `cert_backup` is set -/
  certBackup : Option (EncryptionFile × EncryptionFile)
  /-- `env_backup` is set -/
  envBackup : Bool

abbrev EncryptionM := Program EncryptionState Str

inductive EncryptionStatus where
  | failed
  | unchanged
  | deployed
  | rolledBack
  | rollbackFailed
deriving DecidableEq

section Programs

variable (w : EncryptionWorld)

def step (s : EncryptionStep) : EncryptionM Unit :=
  match w.raises s with
  | some error => throw error
  | none => pure ()

def isFile (f : EncryptionFile) : EncryptionM Bool := modifyGet fun s => ((s.files f).isSome, s)

def readFile (f : EncryptionFile) : EncryptionM Str := do
  let s ← get
  match s.files f with
  | some content => pure content
  | none => throw (w.missing f)

def putFile (f : EncryptionFile) (content : Option Str) : EncryptionM Unit :=
  modify fun s => { s with files := Function.update s.files f content }

/-- `write_text`, and the destination of `copy2`. -/
def writeFile (op : FileOp) (f : EncryptionFile) (content : Str) : EncryptionM Unit := do
  match w.writes op with
  | .done => putFile f (some content)
  | .refused error => throw error
  | .partway written error =>
      putFile f (some written)
      throw error

/-- `_atomic_write_bytes`: what raises after `os.replace` has written all. -/
def atomicWrite (op : FileOp) (f : EncryptionFile) (content : Str) : EncryptionM Unit := do
  match w.writes op with
  | .done => putFile f (some content)
  | .refused error => throw error
  | .partway _ error =>
      putFile f (some content)
      throw error

/-- `shutil.copy2`. -/
def copyFile (op : FileOp) (source target : EncryptionFile) : EncryptionM Unit := do
  let content ← readFile w source
  writeFile w op target content

/-! ### Certificates -/

/-- The copies of the active pair, which is there. -/
def copyPair (cfg : EncryptionSettings) : EncryptionM Unit := do
  modify fun s => { s with certBackup := some (cfg.activeCert, cfg.activeKey) }
  copyFile w .backUpCert cfg.activeCert .certBackup
  copyFile w .backUpKey cfg.activeKey .keyBackup

/-- The copies of the active pair, where it may be written. -/
def backUpPair (cfg : EncryptionSettings) : EncryptionM Unit := do
  if cfg.generates || cfg.certMode = "uploaded".toList then
    if (← isFile cfg.activeCert) && (← isFile cfg.activeKey) then copyPair w cfg else pure ()
  else pure ()

def generateSelfSigned : EncryptionM Unit := do
  step w .selfSigned
  atomicWrite w .cert .certDefault w.selfSigned.1
  atomicWrite w .key .keyDefault w.selfSigned.2

def ensureLocalCa : EncryptionM Unit := do
  if (← isFile .caCert) && (← isFile .caKey) then pure ()
  else
    step w .localCa
    atomicWrite w .caCert .caCert w.localCa.1
    atomicWrite w .caKey .caKey w.localCa.2

def issueFromLocalCa : EncryptionM Unit := do
  ensureLocalCa w
  step w .leaf
  putFile .caSerial (some w.serial)
  let ca ← readFile w .caCert
  atomicWrite w .cert .certDefault (w.leaf.1 ++ '\n' :: ca)
  atomicWrite w .key .keyDefault w.leaf.2

/-- The pending action; whether it has changed the certificate. -/
def generate (cfg : EncryptionSettings) : EncryptionM Bool := do
  if cfg.pendingCertAction = "generate_self_signed".toList then
    generateSelfSigned w
    pure true
  else if cfg.pendingCertAction = "generate_local_ca".toList then
    issueFromLocalCa w
    pure true
  else pure false

def acceptUploaded (cert key : Str) : EncryptionM Unit := do
  step w .checkUpload
  if w.isMatch cert key then
    atomicWrite w .uploadedCert .uploadedCert cert
    atomicWrite w .uploadedKey .uploadedKey key
  else throw "uploaded certificate and key do not match".toList

def acceptPendingUpload : EncryptionM Bool := do
  if (← isFile .pendingUploadCert) && (← isFile .pendingUploadKey) then
    let cert ← readFile w .pendingUploadCert
    let key ← readFile w .pendingUploadKey
    acceptUploaded w cert key
    step w .unlinkUpload
    putFile .pendingUploadCert none
    putFile .pendingUploadKey none
    pure true
  else pure false

/-- The pending upload, where `cert_mode` asks for it; whether there is one. -/
def acceptUpload (cfg : EncryptionSettings) : EncryptionM Bool :=
  if cfg.certMode = "uploaded".toList then acceptPendingUpload w else pure false

/-- `pending_cert_action` is set to `none`. -/
def clearAction (cfg : EncryptionSettings) : EncryptionM Unit :=
  if cfg.pendingCertAction = "none".toList then pure () else step w .clearAction

/-- The checks of the active pair. -/
def checkMaterial (cfg : EncryptionSettings) : EncryptionM Unit := do
  let s ← get
  match s.files cfg.activeCert, s.files cfg.activeKey with
  | some cert, some key =>
      if w.isMatch cert key then pure ()
      else throw "configured certificate and key do not match".toList
  | _, _ =>
      throw ("certificate material missing at ".toList ++ (resolveActiveCertPaths cfg).1 ++
        " / ".toList ++ (resolveActiveCertPaths cfg).2)

def ensureDnscryptProviderKeys : EncryptionM Unit := do
  if (← isFile .providerPublic) && (← isFile .providerPrivate) then pure ()
  else
    step w .providerKeys
    match w.provider with
    | some (pub, priv) =>
        atomicWrite w .providerPublic .providerPublic pub
        atomicWrite w .providerPrivate .providerPrivate priv
    | none => throw "dnsdist did not write DNSCrypt provider key files".toList

def issueDnscryptCertificate : EncryptionM Unit := do
  ensureDnscryptProviderKeys w
  step w .resolverCert
  match w.resolver with
  | some (cert, key) =>
      atomicWrite w .dnscryptCert .dnscryptCert cert
      atomicWrite w .dnscryptKey .dnscryptKey key
  | none => throw "dnsdist did not write DNSCrypt resolver certificate files".toList

def dnscryptFailed : Str :=
  "DNSCrypt certificate generation failed, DNSCrypt was disabled for this deployment: ".toList

/-- The settings and what is reported, where the certificate cannot be issued. -/
def issueDnscrypt (cfg : EncryptionSettings) :
    EncryptionM (EncryptionSettings × List Str) := do
  if cfg.dnscryptEnabled = ['1'] then
    if (← isFile .dnscryptCert) && (← isFile .dnscryptKey) then pure (cfg, [])
    else
      tryCatch (do
        issueDnscryptCertificate w
        pure (cfg, []))
        fun error => pure ({ cfg with dnscryptEnabled := ['0'] },
          [dnscryptFailed ++ error])
  else pure (cfg, [])

/-! ### dnsdist.conf -/

/-- The copy of dnsdist.conf, where there is one. -/
def backUpConf : EncryptionM Unit := do
  if ← isFile .dnsdistConf then copyFile w .backUpConf .dnsdistConf .confBackup else pure ()

def ensureDnsdistConfParameterized : EncryptionM Bool := do
  step w .readConf
  let s ← get
  match parameterized (s.files .dnsdistConf) (s.files .template) with
  | .error error => throw error
  | .ok none => pure false
  | .ok (some content) =>
      backUpConf w
      writeFile w .conf .dnsdistConf content
      pure true

def altsvcInvalid : Str :=
  "doh-altsvc migration produced an invalid dnsdist.conf and was rolled back from ".toList

def ensureDohAltsvcMigration : EncryptionM (Bool × Str) := do
  step w .readAltsvc
  let s ← get
  match altsvcMigrated (s.files .dnsdistConf) (s.files .template) with
  | .error error => throw error
  | .ok (none, note) => pure (false, note)
  | .ok (some content, _) =>
      copyFile w .backUpAltsvc .dnsdistConf .altsvcBackup
      writeFile w .altsvc .dnsdistConf content
      step w .checkAltsvc
      if w.altsvcValid then
        pure (true, "applied doh-altsvc migration to dnsdist.conf (backup: ".toList ++
          w.altsvcBackupPath ++ [')'])
      else
        copyFile w .restoreAltsvc .altsvcBackup .dnsdistConf
        throw (altsvcInvalid ++ w.altsvcBackupPath ++ ": ".toList ++ w.altsvcOutput)

/-! ### The override -/

/-- A result of `test_protocols` that fails the deployment. -/
def isFailure (result : Str) : Bool :=
  !startsWith result "ok".toList && !isSubstring "reachable".toList result

def withWarnings (message : Str) (warnings : List Str) : Str :=
  if warnings = [] then message else message ++ "; ".toList ++ join "; ".toList warnings

/-- From `systemctl daemon-reload` on. -/
def activateOverride (cfg : EncryptionSettings) (warnings : List Str) :
    EncryptionM (EncryptionStatus × Str) := do
  step w .daemonReload
  step w .checkConfig
  step w .restart
  step w .waitActive
  if w.active then
    step w .testProtocols
    let tests := w.protocolTests cfg
    let failed := (tests.filter fun test => isFailure test.2).map (·.1)
    if failed = [] then
      pure (.deployed,
        withWarnings ("deployed with protocols: ".toList ++ w.reprTests tests) warnings)
    else
      throw ("protocol test failed for: ".toList ++ join ", ".toList failed ++ " (".toList ++
        w.reprTests tests ++ [')'])
  else throw "dnsdist did not become active after restart".toList

/-- The copy of the override, where there is one. -/
def backUpOverride : EncryptionM Unit := do
  if ← isFile .envOverride then
    modify fun s => { s with envBackup := true }
    copyFile w .backUpOverride .envOverride .envBackup
  else pure ()

/-- The last part of `try`. -/
def applyOverride (cfg : EncryptionSettings) (changed : Bool) (warnings : List Str) :
    EncryptionM (EncryptionStatus × Str) := do
  step w .readOverride
  let s ← get
  if renderEnvOverride cfg = (s.files .envOverride).getD [] ∧ changed = false then
    pure (.unchanged,
      withWarnings "encryption settings already match the deployed configuration".toList warnings)
  else
    backUpOverride w
    atomicWrite w .override .envOverride (renderEnvOverride cfg)
    activateOverride w cfg warnings

/-! ### The deployment -/

/-- Up to the checks of the pair; whether the certificate has changed. -/
def prepareCertificates (cfg : EncryptionSettings) : EncryptionM Bool := do
  backUpPair w cfg
  let generated ← generate w cfg
  clearAction w cfg
  let uploaded ← acceptUpload w cfg
  checkMaterial w cfg
  pure (generated || uploaded)

/-- From the DNSCrypt certificate on. -/
def deployConfiguration (cfg : EncryptionSettings) (warnings : List Str)
    (certMaterialChanged : Bool) : EncryptionM (EncryptionStatus × Str) := do
  let (cfg, dnscryptWarnings) ← issueDnscrypt w cfg
  let confChanged ← ensureDnsdistConfParameterized w
  let (migrated, note) ← ensureDohAltsvcMigration w
  let noteWarnings := if note = [] then [] else [note]
  applyOverride w cfg ((confChanged || migrated) || certMaterialChanged)
    (warnings ++ dnscryptWarnings ++ noteWarnings)

/-- The statements of `try`. -/
def attempt (stored : EncryptionSettings) : EncryptionM (EncryptionStatus × Str) := do
  step w .settings
  let (cfg, warnings) := enforceCapabilities stored w.capabilities " for this deployment".toList
  let certMaterialChanged ← prepareCertificates w cfg
  deployConfiguration w cfg warnings certMaterialChanged

/-- The copies of the pair are put back; an error is only added to the message. -/
def restorePair : EncryptionM Unit := do
  let s ← get
  match s.certBackup with
  | some (cert, key) =>
      copyFile w .restoreCert .certBackup cert
      copyFile w .restoreKey .keyBackup key
  | none => pure ()

/-- The copy of the override is put back, and dnsdist is restarted. -/
def restoreOverride : EncryptionM Unit := do
  let content ← readFile w .envBackup
  atomicWrite w .restoreOverride .envOverride content
  step w .rollbackReload
  step w .rollbackRestart
  step w .rollbackWait

/-- The statements of `except`: the status, the message and the files. -/
def rollBack (message : Str) (s : EncryptionState) : EncryptionStatus × Str × Files :=
  let (message, s) :=
    match restorePair w s with
    | (.ok _, s) => (message, s)
    | (.error error, s) => (message ++ "; certificate/key rollback failed: ".toList ++ error, s)
  if s.envBackup then
    match restoreOverride w s with
    | (.ok _, s) =>
        if w.activeAfterRollback then (.rolledBack, message, s.files)
        else
          (.rollbackFailed, message ++ "; rollback restart did not become active".toList, s.files)
    | (.error error, s) =>
        (.rollbackFailed, message ++ "; rollback failed: ".toList ++ error, s.files)
  else if s.certBackup.isSome then (.rolledBack, message, s.files)
  else (.failed, message, s.files)

/-- The status and the message that are recorded, and the files. -/
def deployEncryption (stored : EncryptionSettings) (files : Files) :
    EncryptionStatus × Str × Files :=
  match attempt w stored ⟨files, none, false⟩ with
  | (.ok (status, message), s) => (status, message, s.files)
  | (.error message, s) => rollBack w message s

end Programs

end AlderpointDNS.Encryption
