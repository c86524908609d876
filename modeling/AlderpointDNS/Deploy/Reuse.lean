import AlderpointDNS.CustomRules.Duplicates
import AlderpointDNS.CustomRules.ZoneFile
import AlderpointDNS.Deploy.Pipeline
import AlderpointDNS.Deploy.Sources
import AlderpointDNS.Lib.Runs
import Mathlib.Data.Finset.Card

/-!
# Reusing the compiled policy

The end of a deployment writes the RPZ to a cache, and next to it a manifest of what the RPZ was
made of; `protection_enable_reuse` activates the cached RPZ when the manifest is the one of the
current database and files.  Deployments and reuses take the deploy lock, so one of them runs at a
time (`PolicyWorker`), but edits do not.  The manifest is computed when the RPZ is recorded, and not
when it is rendered, and the two files are replaced one after the other.

SHA-256 is a parameter without collisions, of texts and of manifests (as canonical JSON).

* `withoutSerial_renderRpzText` — a rendered RPZ but for its serial;
* `render_eq_of_manifest` — the manifest determines the RPZ;
* `reuseInv_step` — what the cache and the worker hold, kept by an undisturbed step;
* **`reusedIsCurrent`** — the runs in which every reused RPZ is the one of the current inputs.
* `stale_rpz_reused` — a deployment that dies between the two files.

Not modelled: the other stages of a deployment, which do not write the inputs of the RPZ, a restore
of a backup, and environment variables for tests.
-/

namespace AlderpointDNS

open Text Runs

/-! ## A rendered RPZ -/

/-- The zone text up to the serial. -/
def beforeSerial : Str := "$TTL 2h\n@ IN SOA localhost. hostmaster.localhost. ".toList

/-- The zone text after the serial. -/
def afterSerial (domains : BlockSet) (active : ActiveRuleSet) : Str :=
  " 1h 15m 30d 2h\n".toList ++ (join ['\n'] ("@ IN NS localhost.".toList :: [] ::
    (renderRpz domains active).map RpzLine.text) ++ ['\n'])

theorem renderRpzText_eq (serial : ℕ) (domains : BlockSet) (active : ActiveRuleSet) :
    renderRpzText serial domains active =
      beforeSerial ++ (Nat.toDigits 10 serial ++ afterSerial domains active) := by
  have hlines : ∀ (a b c : Str) (rest : List Str),
      join ['\n'] (a :: b :: c :: rest) = a ++ '\n' :: (b ++ '\n' :: join ['\n'] (c :: rest)) :=
    fun a b c rest => by simp [join, List.intercalate_cons_cons]
  have hbefore : beforeSerial =
      "$TTL 2h".toList ++ '\n' :: "@ IN SOA localhost. hostmaster.localhost. ".toList := rfl
  have hafter : " 1h 15m 30d 2h\n".toList = " 1h 15m 30d 2h".toList ++ ['\n'] := rfl
  unfold renderRpzText rpzHeader afterSerial
  rw [List.cons_append, List.cons_append, List.cons_append, hlines, hbefore, hafter]
  simp only [List.append_assoc, List.cons_append, List.nil_append]

/-- **A rendered RPZ but for its serial.** -/
theorem withoutSerial_renderRpzText (serial : ℕ) (domains : BlockSet) (active : ActiveRuleSet) :
    withoutSerial (renderRpzText serial domains active) =
      (beforeSerial, some (afterSerial domains active)) := by
  have hzero : find soaHead [.many isDecimal] soaTail
      (beforeSerial ++ ("0".toList ++ afterSerial domains active)) =
      some (beforeSerial, "0".toList, afterSerial domains active) := rfl
  have hfound : find soaHead [.many isDecimal] soaTail
      (beforeSerial ++ (Nat.toDigits 10 serial ++ afterSerial domains active)) =
      some (beforeSerial, Nat.toDigits 10 serial, afterSerial domains active) :=
    find_replace soa_avoids hzero (follows_toDigits serial) Nat.toDigits_ne_nil
      fun c hc => (digit_of_mem_toDigits hc).1
  rw [renderRpzText_eq, withoutSerial, hfound]

/-! ## The inputs of a policy -/

/-- The database and the downloaded files; `others` is what the manifest covers besides. -/
structure PolicyInputs (Others : Type) where
  sources : List BlocklistSource
  files : SourceFiles
  rules : List StoredRule
  others : Others

/-- The columns of `custom_filter_rules` in the manifest: all but the comments and reasons. -/
structure PolicyRule where
  id : ℕ
  enabled : Bool
  rule : ParsedRule
  deriving DecidableEq

def ParsedRule.withoutRemarks (r : ParsedRule) : ParsedRule :=
  { r with unsupportedReason := [], comment := [] }

def StoredRule.policyColumns (r : StoredRule) : PolicyRule where
  id := r.id
  enabled := r.enabled
  rule := r.toParsedRule.withoutRemarks

variable {Others Digest ManifestDigest : Type} [DecidableEq ManifestDigest]

/-- What a deployment without downloads renders from the inputs. -/
def PolicyInputs.render (d : ParserData) (serial : ℕ) (i : PolicyInputs Others) : Str :=
  let active := collectActive i.rules
  let blocks := collectRules d i.files (enabledSources i.sources)
  renderRpzText serial (subtractAllowed blocks active) active

/-- The manifest, without the versions and the zone name, which are constants. -/
structure Manifest (Digest Others : Type) where
  sources : List (BlocklistSource × Option Digest)
  rules : List PolicyRule
  others : Others
  deriving DecidableEq

/-- An entry of `sources` with its `content_sha256`. -/
def manifestSource (sha256 : Str → Digest) (files : SourceFiles) (source : BlocklistSource) :
    BlocklistSource × Option Digest :=
  (source, if source.enabled then (sourceFile files source).map sha256 else none)

/-- `protection_policy_manifest`; `none` when the file of an enabled source is missing. -/
def protectionPolicyManifest (sha256 : Str → Digest) (i : PolicyInputs Others) :
    Option (Manifest Digest Others) :=
  if (enabledSources i.sources).all fun source => (sourceFile i.files source).isSome then
    some {
      sources := i.sources.map (manifestSource sha256 i.files)
      rules := i.rules.map (·.policyColumns)
      others := i.others }
  else none

/-! ### The manifest determines the RPZ -/

theorem collectRows_withoutRemarks (rules : List ParsedRule) :
    collectRows (rules.map (·.withoutRemarks)) = collectRows rules := by
  have hsorted : byPriority (rules.map (·.withoutRemarks)) =
      (byPriority rules).map (·.withoutRemarks) :=
    (List.map_insertionSort (fun x y : ParsedRule => y.priority ≤ x.priority)
      (fun x y : ParsedRule => y.priority ≤ x.priority) (·.withoutRemarks) rules
      fun _ _ _ _ => Iff.rfl).symm
  rw [collectRows, hsorted, List.foldl_map]
  rfl

/-- The active rules without their remarks, read off the columns of the manifest. -/
theorem activeRules_policyColumns (rows : List StoredRule) :
    (activeRules rows).map (·.withoutRemarks) =
      ((rows.map (·.policyColumns)).filter fun r =>
        r.enabled && r.rule.validationState = .valid).map (·.rule) := by
  rw [activeRules, List.map_map, List.filter_map, List.map_map]
  rfl

theorem collectActive_congr {rows rows' : List StoredRule}
    (h : rows.map (·.policyColumns) = rows'.map (·.policyColumns)) :
    collectActive rows = collectActive rows' := by
  have hrules : (activeRules rows).map (·.withoutRemarks) =
      (activeRules rows').map (·.withoutRemarks) := by
    rw [activeRules_policyColumns, activeRules_policyColumns, h]
  rw [collectActive, ← collectRows_withoutRemarks, hrules, collectRows_withoutRemarks]
  rfl

/-- Two inputs with the same RPZ: the same sources with the same files, and the same rules. -/
structure SamePolicy (i j : PolicyInputs Others) : Prop where
  sources : i.sources = j.sources
  files : ∀ source ∈ enabledSources i.sources, sourceFile i.files source = sourceFile j.files source
  rules : i.rules.map (·.policyColumns) = j.rules.map (·.policyColumns)

variable {d : ParserData} {i j : PolicyInputs Others}

theorem SamePolicy.collectRules (h : SamePolicy i j) :
    AlderpointDNS.collectRules d i.files (enabledSources i.sources) =
      AlderpointDNS.collectRules d j.files (enabledSources j.sources) := by
  rw [← h.sources]
  exact collectRules_congr h.files

theorem SamePolicy.render (h : SamePolicy i j) (serial : ℕ) :
    i.render d serial = j.render d serial := by
  unfold PolicyInputs.render
  rw [h.collectRules, collectActive_congr h.rules]

theorem samePolicy_of_manifest {sha256 : Str → Digest} (hsha : Function.Injective sha256)
    {m : Manifest Digest Others} (hi : protectionPolicyManifest sha256 i = some m)
    (hj : protectionPolicyManifest sha256 j = some m) : SamePolicy i j := by
  unfold protectionPolicyManifest at hi hj
  split_ifs at hi with hfiles
  split_ifs at hj with hfiles'
  rw [← Option.some.inj hi, Option.some.injEq, Manifest.mk.injEq] at hj
  obtain ⟨hsources, hrules, -⟩ := hj
  have hfst : ∀ files : SourceFiles, (fun source =>
      (manifestSource sha256 files source).1) = id := fun _ => rfl
  have hrows : i.sources = j.sources := by
    have hmap := congrArg (List.map Prod.fst) hsources
    simpa [List.map_map, Function.comp_def, hfst] using hmap.symm
  refine ⟨hrows, fun source hsource => ?_, hrules.symm⟩
  obtain ⟨hmem, henabled⟩ := List.mem_filter.mp hsource
  rw [hrows] at hsources
  have hentry := List.map_inj_left.mp hsources source (hrows ▸ hmem)
  have hdigest := congrArg Prod.snd hentry
  simp only [manifestSource, henabled, if_true] at hdigest
  exact (Option.map_injective hsha hdigest).symm

/-- **The manifest determines the RPZ.** -/
theorem render_eq_of_manifest {sha256 : Str → Digest} (hsha : Function.Injective sha256)
    {m : Manifest Digest Others} (hi : protectionPolicyManifest sha256 i = some m)
    (hj : protectionPolicyManifest sha256 j = some m) (serial : ℕ) :
    i.render d serial = j.render d serial :=
  (samePolicy_of_manifest hsha hi hj).render serial

/-! ## Deployments and reuses -/

/-- Where the holder of the deploy lock is. -/
inductive PolicyWorker (Digest Others : Type) where
  /-- nobody holds it -/
  | idle
  /-- `collect_rules` has read the enabled sources -/
  | sourcesRead (sources : List BlocklistSource)
  /-- `collect_rules` has returned -/
  | parsed (blocks : BlockSet)
  /-- `render_rpz` has returned -/
  | rendered (text : Str) (activeDomains : ℕ)
  /-- `record_reusable_protection_policy` between the two `os.replace` -/
  | rpzCached (manifest : Manifest Digest Others) (activeDomains : ℕ)
  /-- `protection_enable_reuse` has found the cached policy available and copied it -/
  | reusing (text : Str)
  /-- it has activated the copy -/
  | activated (text : Str)

/-- The worker goes on with what it has read of the inputs. -/
def PolicyWorker.reads : PolicyWorker Digest Others → Bool
  | .idle | .rpzCached _ _ => false
  | _ => true

structure PolicyState (Digest Others : Type) where
  inputs : PolicyInputs Others
  cachedRpz : Option Str
  /-- the manifest file, with its `active_domains` -/
  cachedManifest : Option (Manifest Digest Others × ℕ)
  worker : PolicyWorker Digest Others
  /-- the RPZ of a reuse that has just completed as deployed -/
  reused : Option Str

inductive PolicyAction (Others : Type) where
  /-- another process writes rules, sources or files -/
  | edit (inputs : PolicyInputs Others)
  | beginDeploy
  /-- `download_source` of a source that was read -/
  | download (source : BlocklistSource) (content : Str)
  | parse
  | render (serial : ℕ)
  /-- the first `os.replace` of `record_reusable_protection_policy` -/
  | cacheRpz
  | cacheManifest
  | beginReuse
  | activate (serial : ℕ)
  | complete
  /-- the worker ends, raises or dies -/
  | stop

/-- An enabled regex rule, which only a full deployment installs. -/
def hasActiveRegex (rules : List StoredRule) : Bool :=
  rules.any fun r => r.isActive && (r.ruleType = .regexAllow || r.ruleType = .regexBlock)

variable (d : ParserData) (sha256 : Str → Digest)
  (manifestSha256 : Manifest Digest Others → ManifestDigest)

/-- `reusable_protection_policy_available`. -/
def reusableProtectionPolicyAvailable (s : PolicyState Digest Others) : Bool × Str :=
  match s.cachedRpz, s.cachedManifest with
  | some _, some (cached, _) =>
      if hasActiveRegex s.inputs.rules then
        (false, "enabled regex rules require full dnsdist-layer deployment".toList)
      else
        match protectionPolicyManifest sha256 s.inputs with
        | none => (false, "current policy inputs are incomplete".toList)
        | some current =>
            if manifestSha256 cached = manifestSha256 current then
              (true, "cached compiled policy matches current inputs".toList)
            else (false, "current policy inputs do not match cached manifest".toList)
  | _, _ => (false, "cached policy artifact is missing".toList)

/-- The state with the worker there, and no reuse just completed. -/
def PolicyState.moveTo (s : PolicyState Digest Others) (worker : PolicyWorker Digest Others) :
    PolicyState Digest Others :=
  { s with worker := worker, reused := none }

/-- The inputs after a download. -/
def PolicyInputs.download (i : PolicyInputs Others) (source : BlocklistSource) (content : Str) :
    PolicyInputs Others :=
  { i with
    files := fun id name =>
      if id = source.id ∧ name = source.name then some content else i.files id name }

/-- One step of a deployment, of a reuse or of an editor. -/
def policyStep (s : PolicyState Digest Others) (a : PolicyAction Others) :
    Option (PolicyState Digest Others) :=
  match a, s.worker with
  | .edit inputs, _ => some { s.moveTo s.worker with inputs := inputs }
  | .stop, _ => some (s.moveTo .idle)
  | .beginDeploy, .idle => some (s.moveTo (.sourcesRead (enabledSources s.inputs.sources)))
  | .download source content, .sourcesRead sources =>
      if source ∈ sources then
        some { s.moveTo s.worker with inputs := s.inputs.download source content }
      else none
  | .parse, .sourcesRead sources =>
      some (s.moveTo (.parsed (collectRules d s.inputs.files sources)))
  | .render serial, .parsed blocks =>
      let active := collectActive s.inputs.rules
      let blocks := subtractAllowed blocks active
      some (s.moveTo (.rendered (renderRpzText serial blocks active)
        (blocks.names.card + active.blocks.keys.length)))
  | .cacheRpz, .rendered text activeDomains =>
      if activeDomains = 0 then none
      else (protectionPolicyManifest sha256 s.inputs).map fun manifest =>
        { s.moveTo (.rpzCached manifest activeDomains) with cachedRpz := some text }
  | .cacheManifest, .rpzCached manifest activeDomains =>
      some { s.moveTo .idle with cachedManifest := some (manifest, activeDomains) }
  | .beginReuse, .idle =>
      if (reusableProtectionPolicyAvailable sha256 manifestSha256 s).1 then
        s.cachedRpz.map fun text => s.moveTo (.reusing text)
      else none
  | .activate serial, .reusing text =>
      some (s.moveTo (.activated (refreshRpzSerial serial text)))
  | .complete, .activated text => some { s.moveTo .idle with reused := some text }
  | _, _ => none

/-- An appliance on which nothing is cached. -/
def neverDeployed (inputs : PolicyInputs Others) : PolicyState Digest Others where
  inputs := inputs
  cachedRpz := none
  cachedManifest := none
  worker := .idle
  reused := none

/-- The reused RPZ is what a full deployment would render now, up to the serial. -/
def ReusedIsCurrent (s : PolicyState Digest Others) : Prop :=
  ∀ text, s.reused = some text → ∀ serial,
    withoutSerial text = withoutSerial (s.inputs.render d serial)

/-- No edit changes the inputs of the RPZ between the reading of the sources and the manifest, or
between the check and the end of a reuse, and a worker that has replaced the cached RPZ also
replaces the manifest, or leaves the same one. -/
def CacheUndisturbed (s : PolicyState Digest Others) : PolicyAction Others → Prop
  | .edit inputs => s.worker.reads = true → SamePolicy s.inputs inputs
  | .stop => ∀ manifest n, s.worker = .rpzCached manifest n →
      ∀ old m, s.cachedManifest = some (old, m) → old = manifest
  | _ => True

/-! ### What undisturbed steps keep -/

/-- The text is an RPZ of the inputs, up to the serial. -/
def RpzOf (text : Str) (i : PolicyInputs Others) : Prop :=
  withoutSerial text = withoutSerial (i.render d 0)

/-- The text is an RPZ of all inputs with the manifest. -/
def RpzOfManifest (text : Str) (manifest : Manifest Digest Others) : Prop :=
  ∀ i, protectionPolicyManifest sha256 i = some manifest → RpzOf d text i

/-- What the worker has read is what is there. -/
def WorkerInv (s : PolicyState Digest Others) : PolicyWorker Digest Others → Prop
  | .idle => True
  | .sourcesRead sources => sources = enabledSources s.inputs.sources
  | .parsed blocks =>
      blocks = collectRules d s.inputs.files (enabledSources s.inputs.sources)
  | .rendered text _ => RpzOf d text s.inputs
  | .rpzCached manifest _ => ∃ text, s.cachedRpz = some text ∧ RpzOfManifest d sha256 text manifest
  | .reusing text => RpzOf d text s.inputs
  | .activated text => RpzOf d text s.inputs

/-- The cached RPZ is one of its manifest, but while the two are being replaced. -/
structure ReuseInv (s : PolicyState Digest Others) : Prop where
  cache : (∀ manifest n, s.worker ≠ .rpzCached manifest n) → ∀ text manifest n,
    s.cachedRpz = some text → s.cachedManifest = some (manifest, n) →
      RpzOfManifest d sha256 text manifest
  worker : WorkerInv d sha256 s s.worker
  reused : ∀ text, s.reused = some text → RpzOf d text s.inputs

variable {d} {sha256} {manifestSha256} {text : Str} {s s' : PolicyState Digest Others}

theorem withoutSerial_render (i : PolicyInputs Others) (serial serial' : ℕ) :
    withoutSerial (i.render d serial) = withoutSerial (i.render d serial') := by
  unfold PolicyInputs.render
  rw [withoutSerial_renderRpzText, withoutSerial_renderRpzText]

theorem rpzOf_render (i : PolicyInputs Others) (serial : ℕ) : RpzOf d (i.render d serial) i :=
  withoutSerial_render i serial 0

theorem RpzOf.congr (h : RpzOf d text i) (hsame : SamePolicy i j) : RpzOf d text j := by
  unfold RpzOf at *
  rw [h, hsame.render]

theorem RpzOf.refresh (h : RpzOf d text i) (serial : ℕ) :
    RpzOf d (refreshRpzSerial serial text) i :=
  (withoutSerial_refresh serial text).trans h

theorem RpzOf.ofManifest (hsha : Function.Injective sha256) {manifest : Manifest Digest Others}
    (h : RpzOf d text i) (hmanifest : protectionPolicyManifest sha256 i = some manifest) :
    RpzOfManifest d sha256 text manifest := by
  intro j hj
  exact h.congr (samePolicy_of_manifest hsha hmanifest hj)

/-- A worker that reads is not disturbed by an edit of other things. -/
theorem WorkerInv.edit {w : PolicyWorker Digest Others} (h : WorkerInv d sha256 s w)
    (hsame : w.reads = true → SamePolicy s.inputs i) :
    WorkerInv d sha256 { s.moveTo w with inputs := i } w := by
  cases w with
  | idle => trivial
  | sourcesRead sources => exact h.trans (congrArg enabledSources (hsame rfl).sources)
  | parsed blocks => exact h.trans (hsame rfl).collectRules
  | rendered text n => exact RpzOf.congr h (hsame rfl)
  | rpzCached manifest n => exact h
  | reusing text => exact RpzOf.congr h (hsame rfl)
  | activated text => exact RpzOf.congr h (hsame rfl)

/-- When the cached policy is available, it is one of the current inputs. -/
theorem rpzOf_of_available (hmanifest : Function.Injective manifestSha256)
    (hcache : ∀ text manifest n, s.cachedRpz = some text → s.cachedManifest = some (manifest, n) →
      RpzOfManifest d sha256 text manifest)
    (havailable : (reusableProtectionPolicyAvailable sha256 manifestSha256 s).1 = true)
    (htext : s.cachedRpz = some text) : RpzOf d text s.inputs := by
  unfold reusableProtectionPolicyAvailable at havailable
  rw [htext] at havailable
  split at havailable
  case h_1 cached n _ hcached =>
    split_ifs at havailable
    split at havailable
    case h_1 => cases havailable
    case h_2 current hcurrent =>
      split_ifs at havailable with hsame
      rw [← hmanifest hsame] at hcurrent
      exact hcache text cached n htext hcached s.inputs hcurrent
  case h_2 => cases havailable

/-- The worker moves on; the cached files are as they were. -/
theorem ReuseInv.moveTo {w : PolicyWorker Digest Others} (h : ReuseInv d sha256 s)
    (hsettled : ∀ manifest n, s.worker ≠ .rpzCached manifest n) (hw : WorkerInv d sha256 s w) :
    ReuseInv d sha256 (s.moveTo w) := by
  refine ⟨fun _ => h.cache hsettled, ?_, fun _ htext => by cases htext⟩
  cases w with
  | idle => trivial
  | sourcesRead sources => exact hw
  | parsed blocks => exact hw
  | rendered text n => exact hw
  | rpzCached manifest n => exact hw
  | reusing text => exact hw
  | activated text => exact hw

/-- **What an undisturbed step keeps.** -/
theorem reuseInv_step (hsha : Function.Injective sha256)
    (hmanifest : Function.Injective manifestSha256) {a : PolicyAction Others}
    (hinv : ReuseInv d sha256 s) (hok : CacheUndisturbed s a)
    (hstep : policyStep d sha256 manifestSha256 s a = some s') : ReuseInv d sha256 s' := by
  obtain ⟨inputs, cachedRpz, cachedManifest, worker, reused⟩ := s
  have hnone : ∀ text : Str, none = some text → RpzOf d text inputs := fun _ h => by cases h
  cases a with
  | edit inputs' =>
      cases hstep
      exact ⟨hinv.cache, hinv.worker.edit hok, fun _ h => by cases h⟩
  | stop =>
      cases hstep
      refine ⟨fun _ text manifest n htext hcached => ?_, trivial, hnone⟩
      by_cases hbetween : ∃ current n, worker = .rpzCached current n
      · obtain ⟨current, n', rfl⟩ := hbetween
        obtain ⟨text', htext', hof⟩ := hinv.worker
        rw [hok current n' rfl manifest n hcached]
        cases htext'.symm.trans htext
        exact hof
      · have hother := fun current n' h => hbetween ⟨current, n', h⟩
        exact hinv.cache hother text manifest n htext hcached
  | beginDeploy =>
      cases worker with
      | idle =>
          cases hstep
          exact hinv.moveTo (by simp) rfl
      | _ => cases hstep
  | download source content =>
      cases worker with
      | sourcesRead sources =>
          simp only [policyStep] at hstep
          split_ifs at hstep with hmem
          cases hstep
          exact ⟨fun _ => hinv.cache (by simp), hinv.worker, fun _ h => by cases h⟩
      | _ => cases hstep
  | parse =>
      cases worker with
      | sourcesRead sources =>
          cases hstep
          exact hinv.moveTo (by simp) (congrArg (collectRules d inputs.files) hinv.worker)
      | _ => cases hstep
  | render serial =>
      cases worker with
      | parsed blocks =>
          cases hstep
          have hblocks : blocks = collectRules d inputs.files (enabledSources inputs.sources) :=
            hinv.worker
          rw [hblocks]
          exact hinv.moveTo (by simp) (rpzOf_render inputs serial)
      | _ => cases hstep
  | cacheRpz =>
      cases worker with
      | rendered text n =>
          simp only [policyStep] at hstep
          split_ifs at hstep
          obtain ⟨manifest, hcurrent, hs'⟩ := Option.map_eq_some_iff.mp hstep
          cases hs'
          refine ⟨fun h => absurd rfl (h manifest n), ⟨text, rfl, ?_⟩, hnone⟩
          exact RpzOf.ofManifest hsha hinv.worker hcurrent
      | _ => cases hstep
  | cacheManifest =>
      cases worker with
      | rpzCached manifest n =>
          cases hstep
          obtain ⟨text, htext, hof⟩ := hinv.worker
          refine ⟨fun _ text' manifest' n' htext' hcached => ?_, trivial, hnone⟩
          cases hcached
          cases htext.symm.trans htext'
          exact hof
      | _ => cases hstep
  | beginReuse =>
      cases worker with
      | idle =>
          simp only [policyStep] at hstep
          split_ifs at hstep with havailable
          obtain ⟨text, htext, hs'⟩ := Option.map_eq_some_iff.mp hstep
          cases hs'
          have hcache := hinv.cache (by simp)
          exact hinv.moveTo (by simp) (rpzOf_of_available hmanifest hcache havailable htext)
      | _ => cases hstep
  | activate serial =>
      cases worker with
      | reusing text =>
          cases hstep
          exact hinv.moveTo (by simp) (RpzOf.refresh hinv.worker serial)
      | _ => cases hstep
  | complete =>
      cases worker with
      | activated text =>
          cases hstep
          refine ⟨fun _ => hinv.cache (by simp), trivial, fun text' h => ?_⟩
          cases h
          exact hinv.worker
      | _ => cases hstep

theorem reuseInv_neverDeployed (inputs : PolicyInputs Others) :
    ReuseInv d sha256 (neverDeployed inputs : PolicyState Digest Others) :=
  ⟨fun _ _ _ _ h => (nomatch h), trivial, fun _ h => (nomatch h)⟩

/-- **In every run of undisturbed steps, a reused RPZ is the one of the current inputs.** -/
theorem reusedIsCurrent (hsha : Function.Injective sha256)
    (hmanifest : Function.Injective manifestSha256) (inputs : PolicyInputs Others)
    (actions : List (PolicyAction Others))
    (hok : StepsMeet (policyStep d sha256 manifestSha256) CacheUndisturbed (neverDeployed inputs)
      actions)
    (hrun : run (policyStep d sha256 manifestSha256) (neverDeployed inputs) actions = some s) :
    ReusedIsCurrent d s := by
  have hinv : ReuseInv d sha256 s :=
    run_invariant (fun _ _ _ hinv hok hstep => reuseInv_step hsha hmanifest hinv hok hstep) actions
      (neverDeployed inputs) s (reuseInv_neverDeployed inputs) hok hrun
  intro text htext serial
  exact (hinv.reused text htext).trans (withoutSerial_render s.inputs 0 serial)

/-! ### A deployment that dies -/

/-- A rule that blocks a name. -/
def blockRule (name : Str) (h : matchesDomainRe name = true) : StoredRule where
  ruleText := name
  ruleType := .block
  action := .block
  domain := some name
  matchSubdomains := true
  id := 1
  enabled := true
  sourceSystem := []
  wf := by simp [ParsedRule.wellFormed, h]

/-- No sources, and one rule. -/
def oneRule (name : Str) (h : matchesDomainRe name = true) : PolicyInputs Unit where
  sources := []
  files _ _ := none
  rules := [blockRule name h]
  others := ()

def adsInputs : PolicyInputs Unit := oneRule "ads.example".toList (by decide)

def newsInputs : PolicyInputs Unit := oneRule "news.example".toList (by decide)

def demoStep : PolicyState Str Unit → PolicyAction Unit → Option (PolicyState Str Unit) :=
  policyStep asciiParserData id (id : Manifest Str Unit → Manifest Str Unit)

/-- A deployment that is recorded. -/
def deployRecorded : List (PolicyAction Unit) :=
  [.beginDeploy, .parse, .render 1, .cacheRpz, .cacheManifest]

def reusePolicy : List (PolicyAction Unit) := [.beginReuse, .activate 2, .complete]

/-- `reusedIsCurrent` for a deployment and a reuse. -/
theorem reusedIsCurrent_deployed : ∃ s,
    run demoStep (neverDeployed adsInputs) (deployRecorded ++ reusePolicy) = some s ∧
      ReusedIsCurrent asciiParserData s := by
  have hrun : (run demoStep (neverDeployed adsInputs)
      (deployRecorded ++ reusePolicy)).isSome = true := by decide +kernel
  obtain ⟨s, hs⟩ := Option.isSome_iff_exists.mp hrun
  have hsha : Function.Injective (id : Str → Str) := Function.injective_id
  refine ⟨s, hs, reusedIsCurrent hsha Function.injective_id adsInputs _ ?_ hs⟩
  refine stepsMeet_of_forall fun a ha s => ?_
  simp only [deployRecorded, reusePolicy, List.cons_append, List.nil_append, List.mem_cons,
    List.not_mem_nil, or_false] at ha
  rcases ha with rfl | rfl | rfl | rfl | rfl | rfl | rfl | rfl <;> trivial

/-- A deployment, a second one for another rule that dies between the two files, and a reuse after
the first rule is back. -/
def interruptedRun : List (PolicyAction Unit) :=
  deployRecorded ++ [.edit newsInputs, .beginDeploy, .parse, .render 1, .cacheRpz, .stop,
    .edit adsInputs] ++ reusePolicy

/-- The reuse activates the RPZ of the other rule. -/
theorem stale_rpz_reused : ∃ s,
    run demoStep (neverDeployed adsInputs) interruptedRun = some s ∧
      ¬ ReusedIsCurrent asciiParserData s := by
  have hrun : ((run demoStep (neverDeployed adsInputs) interruptedRun).bind fun s =>
      s.reused.map fun text => decide (withoutSerial text =
        withoutSerial (s.inputs.render asciiParserData 0))) = some false := by decide +kernel
  obtain ⟨s, hs, hreused⟩ := Option.bind_eq_some_iff.mp hrun
  obtain ⟨text, htext, hne⟩ := Option.map_eq_some_iff.mp hreused
  exact ⟨s, hs, fun h => of_decide_eq_false hne (h text htext 0)⟩

end AlderpointDNS
