import AlderpointDNS.Domains
import AlderpointDNS.Lib.Dict
import AlderpointDNS.SoftwareUpdates.Versions

/-!
# The package that an update would install

What the updater reads and checks before it installs a package: which assets of a release are the
package and its checksums, the entry of the package in SHA256SUMS, the fields of the package, and
the packages that a simulated installation removes.

`validateCandidatePackage` is written for any way to run dpkg: the job runs the commands, and
**`releases_rank_as_dpkg`** puts dpkg's own comparison in their place.

* `removedPackages` — the packages that a simulation removes.
* `validateCandidatePackage_newer` — a package of a newer version passes.
-/

namespace AlderpointDNS.SoftwareUpdates

open Text Debian

/-! ## Errors -/

/-- Why a job fails.  All but the last are a `SoftwareUpdateError`. -/
inductive UpdateError where
  | drift (fileVersion dpkgVersion : Option Str)
  | unmanaged
  | noReleaseMetadata
  | sumsAssets (found : ℕ)
  | noDebAsset
  | ambiguousAssets (names : List Str)
  | otherVersion (expected : Str) (names : List Str)
  | debAssets (found : ℕ)
  | noDownloadUrl
  | downloadFailed
  | githubUnavailable
  | noEntry (filename : Str)
  | checksumMismatch (filename expected actual : Str)
  | uploadNotConfined
  | unverifiedUpload
  | expectedChecksum (actual : Str)
  | commandFailedToRun
  | notAPackage (output : Str)
  | packageName (got : Option Str)
  | architecture (got : Option Str)
  | notTheRelease (candidate expected : Str)
  | sameVersion (candidate : Str)
  | notNewer (candidate installed : Str)
  | backupFailed
  | simulationFailed (output : Str)
  | removesCritical (packages : List Str)
  | installFailed (output : Str)
  | installTimedOut
  /-- any other exception -/
  | unexpected
deriving DecidableEq, Repr

/-! ## Releases -/

/-- An asset of a release; a name that is missing is empty. -/
structure Asset where
  name : Str
  url : Option Str
  browserDownloadUrl : Option Str
deriving DecidableEq, Repr

/-- What the updater reads of a release. -/
structure Release where
  tagName : Option Str
  draft : Bool
  assets : List Asset
deriving DecidableEq, Repr

/-- `_DEB_ASSET_RE`: the version in the name of a package. -/
def debAssetVersion (name : Str) : Option Str :=
  let rest := name.drop "alderpointdns_".length
  let version := rest.takeWhile (· ≠ '_')
  if startsWith name "alderpointdns_".toList ∧ version ≠ []
      ∧ rest.dropWhile (· ≠ '_') ∈ ["_all.deb".toList, "_amd64.deb".toList,
        "_all.deb\n".toList, "_amd64.deb\n".toList] then some version
  else none

/-- `release.get("tag_name") or ""`. -/
def Release.tag (release : Release) : Str := release.tagName.getD []

/-- `_release_semver`. -/
def releaseSemver (release : Release) : Option Str :=
  let tag := strip release.tag
  (parseSemver tag).map fun _ => tag.dropWhile (· = 'v')

/-- `_expected_deb_asset_version`. -/
def expectedDebAssetVersion (release : Release) : Option Str :=
  (releaseSemver release).map sourceVersionToDebForm

/-- The package among the assets that are packages. -/
def selectDebAsset (expected : Option Str) (debs : List Asset) : Except UpdateError Asset := do
  let versioned := debs.filter fun a => debAssetVersion a.name ≠ some "latest".toList
  let aliases := debs.filter fun a => debAssetVersion a.name = some "latest".toList
  let selected ← match expected with
    | some expected =>
        match versioned.filter fun a => debAssetVersion a.name = some expected with
        | [asset] => pure (some asset)
        | [] =>
            if versioned ≠ [] then throw (.otherVersion expected (versioned.map (·.name)))
            else pure none
        | exact => throw (.ambiguousAssets (exact.map (·.name)))
    | none =>
        if 1 < versioned.length then throw (.ambiguousAssets (versioned.map (·.name)))
        else pure versioned.head?
  match selected, aliases with
  | some asset, _ => pure asset
  | none, [asset] => pure asset
  | none, _ => throw (.debAssets debs.length)

/-- `select_release_assets`: the package and the checksums. -/
def selectReleaseAssets (release : Release) (expectedDebVersion : Option Str) :
    Except UpdateError (Asset × Asset) :=
  let debs := release.assets.filter fun a => (debAssetVersion a.name).isSome
  let sums := release.assets.filter fun a => a.name = "SHA256SUMS".toList
  match sums with
  | [sumsAsset] =>
      if debs = [] then throw .noDebAsset
      else do
        let expected := expectedDebVersion.filter (· ≠ []) <|> expectedDebAssetVersion release
        let debAsset ← selectDebAsset expected debs
        pure (debAsset, sumsAsset)
  | _ => throw (.sumsAssets sums.length)

/-- `_parse_sha256sums`. -/
def parseSha256sums (u : UnicodeData) (text filename : Str) : Except UpdateError Str :=
  let entries := (splitlines text).filterMap fun line =>
    let line := strip line
    if line = [] ∨ line.head? = some '#' then none
    else
      let name := (line.dropWhile fun c => !isSpace c).dropWhile isSpace
      if name = [] then none
      else some (line.takeWhile fun c => !isSpace c, (strip name).dropWhile (· = '*'))
  match entries.find? fun e => e.2 = filename || endsWith e.2 ('/' :: filename) with
  | some (digest, _) => pure (u.toLower digest)
  | none => throw (.noEntry filename)

/-! ## The fields of a package -/

/-- What `inspect_deb` reads from the output of dpkg-deb. -/
def debFields (stdout : Str) : Dict Str Str :=
  (splitlines stdout).foldl (fun fields line =>
    if line.contains ':' then
      fields.insert (strip (partition ':' line).1) (strip (partition ':' line).2)
    else fields) ∅

section Validate

variable {m : Type → Type} [Monad m] [MonadExceptOf UpdateError m]
  (dpkgCompare : Str → CompareOp → Str → m Bool) (installedPackageVersion : m (Option Str))

/-- The version of the package is that of the release. -/
def checkRelease (candidateVersion : Str) (expectedVersion : Option Str) : m Unit := do
  match expectedVersion with
  | none => pure ()
  | some expected =>
      if !(← dpkgCompare candidateVersion .eq (sourceVersionToDebForm expected)) then
        throw (.notTheRelease candidateVersion (sourceVersionToDebForm expected))

/-- And it is above the installed one. -/
def checkNewer (candidateVersion : Str) : m Unit := do
  match ← installedPackageVersion with
  | none => throw .unmanaged
  | some installed =>
      if ← dpkgCompare candidateVersion .eq installed then throw (.sameVersion candidateVersion)
      if !(← dpkgCompare candidateVersion .gt installed) then
        throw (.notNewer candidateVersion installed)

/-- `validate_candidate_package`, where `inspectDeb`, `dpkgCompare` and `installedPackageVersion`
say how the package is looked into and how dpkg is asked. -/
def validateCandidatePackage (inspectDeb : m (Dict Str Str)) (expectedVersion : Option Str) :
    m (Dict Str Str) := do
  let fields ← inspectDeb
  if fields.lookup "Package".toList ≠ some "alderpointdns".toList then
    throw (.packageName (fields.lookup "Package".toList))
  if fields.lookup "Architecture".toList ∉ [some "all".toList, some "amd64".toList] then
    throw (.architecture (fields.lookup "Architecture".toList))
  checkRelease dpkgCompare ((fields.lookup "Version".toList).getD []) expectedVersion
  checkNewer dpkgCompare installedPackageVersion ((fields.lookup "Version".toList).getD [])
  pure fields

end Validate

/-! ## The simulated installation -/

/-- `CRITICAL_PACKAGES`. -/
def criticalPackages : List Str :=
  ["alderpointdns", "bind9", "bind9-utils", "dnsdist", "libssl3", "libc6", "python3"].map
    String.toList

/-- A match of `REMOVAL_RE` at the start of a line: the name, and the length of the match. -/
def removalAt (s : Str) : Option (Str × ℕ) :=
  if startsWith s "Remv".toList then
    let rest := s.drop 4
    let name := (rest.dropWhile isSpace).takeWhile fun c => !isSpace c
    if rest.takeWhile isSpace = [] ∨ name = [] then none
    else some (name, 4 + (rest.takeWhile isSpace).length + name.length)
  else none

/-- `REMOVAL_RE.findall`, from a place where a line starts or not, after so many characters that
belong to a match. -/
def findRemovals : Bool → ℕ → Str → List Str
  | _, _, [] => []
  | _, skip + 1, c :: s => findRemovals (c = '\n') skip s
  | lineStart, 0, c :: s =>
      match (if lineStart then removalAt (c :: s) else none) with
      | some (name, n) => name :: findRemovals (c = '\n') (n - 1) s
      | none => findRemovals (c = '\n') 0 s

/-- The packages that the output of a simulation removes. -/
def removedPackages (output : Str) : List Str :=
  (findRemovals true 0 output).map fun name =>
    (name.takeWhile (· ≠ ':')).takeWhile (· ≠ '[')

/-- The critical packages among them. -/
def unsafeRemovals (output : Str) : List Str :=
  criticalPackages.filter (· ∈ removedPackages output)

/-! ## Newer releases -/

theorem dpkgCompare_eq (a b : SourceVersion) (op : CompareOp) :
    dpkgCompare (sourceVersionToDebForm a.text) op (sourceVersionToDebForm b.text)
      = match op with
        | .eq => decide (a.compare b = .eq)
        | .gt => decide (a.compare b = .gt) := by
  cases op <;> simp only [dpkgCompare, SourceVersion.compareVersions_debForm]

/-- The package of a version passes when that version is newer than the installed one. -/
theorem validateCandidatePackage_newer {a b : SourceVersion} (h : a.compare b = .gt)
    {fields : Dict Str Str} (hname : fields.lookup "Package".toList = some "alderpointdns".toList)
    (harch : fields.lookup "Architecture".toList ∈ [some "all".toList, some "amd64".toList])
    (hversion : fields.lookup "Version".toList = some (sourceVersionToDebForm a.text)) :
    validateCandidatePackage (m := Except UpdateError) (fun x op y => pure (dpkgCompare x op y))
      (pure (some (sourceVersionToDebForm b.text))) (pure fields) (some a.text)
        = pure fields := by
  have hself : a.compare a = .eq := by
    rw [← SourceVersion.compareParts_upstream, compareParts_self]
  have hmatches : dpkgCompare (sourceVersionToDebForm a.text) .eq
      (sourceVersionToDebForm a.text) = true := by rw [dpkgCompare_eq, hself]; rfl
  have hother : dpkgCompare (sourceVersionToDebForm a.text) .eq
      (sourceVersionToDebForm b.text) = false := by rw [dpkgCompare_eq, h]; rfl
  have hnewer : dpkgCompare (sourceVersionToDebForm a.text) .gt
      (sourceVersionToDebForm b.text) = true := by rw [dpkgCompare_eq, h]; rfl
  have harch' : ¬ fields.lookup "Architecture".toList ∉ [some "all".toList, some "amd64".toList] :=
    fun hnot => hnot harch
  simp only [validateCandidatePackage, checkRelease, checkNewer, pure_bind,
    if_neg (not_not_intro hname), if_neg harch', hversion, Option.getD_some, hmatches, hother,
    hnewer]
  rfl

/-- **The two orders agree on versions of the source form**: SemVer ranks them as dpkg orders
their packages, the name of the package leads back to the version, a package that SemVer ranks
above the installed one passes the checks before the installation, and an appliance installed from
the package of its VERSION file shows no drift. -/
theorem releases_rank_as_dpkg (a b : SourceVersion) :
    compareSemver a.text b.text
        = some (compareVersions (parseVersion (sourceVersionToDebForm a.text))
            (parseVersion (sourceVersionToDebForm b.text)))
      ∧ dpkgVersionToSourceForm (sourceVersionToDebForm a.text) = a.text
      ∧ (compareSemver a.text b.text = some .gt → ∀ fields : Dict Str Str,
          fields.lookup "Package".toList = some "alderpointdns".toList →
          fields.lookup "Architecture".toList ∈ [some "all".toList, some "amd64".toList] →
          fields.lookup "Version".toList = some (sourceVersionToDebForm a.text) →
          validateCandidatePackage (m := Except UpdateError)
            (fun x op y => pure (dpkgCompare x op y))
            (pure (some (sourceVersionToDebForm b.text))) (pure fields) (some a.text)
              = pure fields)
      ∧ ∀ raw : Str, strip raw = a.text →
          (versionSourceStatus (some raw)
            (some (sourceVersionToDebForm a.text))).mismatch = false := by
  refine ⟨?_, a.dpkgVersionToSourceForm_debForm, ?_, fun raw => a.versionSourceStatus_debForm⟩
  · rw [compareSemver_text, SourceVersion.compareVersions_debForm]
  · intro hgt fields hname harch hversion
    rw [compareSemver_text, Option.some.injEq] at hgt
    exact validateCandidatePackage_newer hgt hname harch hversion

end AlderpointDNS.SoftwareUpdates
