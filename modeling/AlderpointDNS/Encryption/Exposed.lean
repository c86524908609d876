import AlderpointDNS.Encryption.Rollback

/-!
# Deployments that raise after they have written

Where a deployment may write a file that it does not copy, some deployment writes it and raises
right after.  Here everything outside succeeds up to one statement, or up to one file that is
written partway, and what is generated was not there before.

* `calmWorld` — what happens in such a deployment.
* `Grown` — files that were there stay, and what was asked for is written.
* `calm_prepareCertificates`, `calm_issueDnscrypt`, `calm_ensureDnsdistConfParameterized`, … — how
  far it gets, and what it has written by then.
* `calm_applyOverride` — the override is written, and what was there is copied.
* `calm_attempt` — a deployment up to the DNSCrypt certificate.
-/

namespace AlderpointDNS.Encryption

open Text Program

/-! ## The world -/

/-- Another content than the file has. -/
def fresh (before : Files) (f : EncryptionFile) : Str :=
  match before f with
  | some content => 'x' :: content
  | none => []

theorem fresh_append_ne (before : Files) (f : EncryptionFile) (rest : Str) :
    some (fresh before f ++ rest) ≠ before f := by
  intro heq
  cases hbefore : before f with
  | none =>
      rw [hbefore] at heq
      cases heq
  | some content =>
      rw [fresh, hbefore, Option.some.injEq] at heq
      have hlength := congrArg List.length heq
      rw [List.cons_append, List.length_cons, List.length_append] at hlength
      omega

theorem fresh_ne (before : Files) (f : EncryptionFile) : some (fresh before f) ≠ before f := by
  have h := fresh_append_ne before f []
  rwa [List.append_nil] at h

/-- Everything succeeds but `stop`, which raises, and `op`, which ends as given. -/
def calmWorld (before : Files) (caps : Capabilities) (stop : EncryptionStep) (op : FileOp)
    (outcome : WriteOutcome) : EncryptionWorld where
  capabilities := caps
  raises st := if st = stop then some [] else none
  writes o := if o = op then outcome else .done
  missing _ := []
  selfSigned := (fresh before .certDefault, fresh before .keyDefault)
  localCa := (fresh before .caCert, fresh before .caKey)
  leaf := (fresh before .certDefault, fresh before .keyDefault)
  serial := []
  isMatch _ _ := true
  provider := some (fresh before .providerPublic, fresh before .providerPrivate)
  resolver := some (fresh before .dnscryptCert, fresh before .dnscryptKey)
  altsvcValid := true
  altsvcOutput := []
  altsvcBackupPath := []
  active := true
  protocolTests _ := []
  reprTests _ := []
  activeAfterRollback := true

/-- dnsdist without encrypted transports, or with DNSCrypt alone. -/
def onlyDnscrypt (dnscrypt : Bool) : Capabilities := ⟨false, false, false, false, dnscrypt⟩

section Calm

variable {before : Files} {caps : Capabilities} {stop : EncryptionStep} {op : FileOp}
  {outcome : WriteOutcome} {P E : EncryptionState → Prop} {cfg stored : EncryptionSettings}

theorem triple_step_none {w : EncryptionWorld} {st : EncryptionStep} (hnone : w.raises st = none) :
    Triple P (step w st) (fun _ => P) E := by
  rw [step, hnone]
  exact triple_pure fun _ hs => hs

theorem calm_step {st : EncryptionStep} (hst : st ≠ stop) :
    Triple P (step (calmWorld before caps stop op outcome) st) (fun _ => P) E :=
  triple_step_none (if_neg hst)

theorem stop_step :
    Triple P (step (calmWorld before caps stop op outcome) stop) (fun _ _ => False) P := by
  rw [step, calmWorld]
  simp only [if_true]
  exact triple_throw fun _ hs => hs

theorem calm_writes {o : FileOp} (ho : o ≠ op) :
    (calmWorld before caps stop op outcome).writes o = .done := if_neg ho

theorem calm_atomicWrite {Q : EncryptionState → Prop} {o : FileOp} {f : EncryptionFile}
    {content : Str} (ho : o ≠ op)
    (h : ∀ s, P s → Q { s with files := Function.update s.files f (some content) }) :
    Triple P (atomicWrite (calmWorld before caps stop op outcome) o f content) (fun _ => Q) E := by
  rw [atomicWrite, calm_writes ho]
  exact triple_putFile h

theorem triple_writeFile_done {w : EncryptionWorld} {Q : EncryptionState → Prop} {o : FileOp}
    {f : EncryptionFile} {content : Str} (hdone : w.writes o = .done)
    (h : ∀ s, P s → Q { s with files := Function.update s.files f (some content) }) :
    Triple P (writeFile w o f content) (fun _ => Q) E := by
  rw [writeFile, hdone]
  exact triple_putFile h

theorem calm_copies (hop : op ∉ [.backUpCert, .backUpKey, .backUpOverride, .restoreCert,
    .restoreKey]) : (calmWorld before caps stop op outcome).CopiesSucceed := by
  have hdone : ∀ o ∈ [FileOp.backUpCert, .backUpKey, .backUpOverride, .restoreCert, .restoreKey],
      (calmWorld before caps stop op outcome).writes o = .done := fun o ho =>
    calm_writes fun heq => hop (heq ▸ ho)
  constructor
  all_goals exact hdone _ (by simp)

/-! ## Certificates -/

/-- The four files of an upload. -/
def EncryptionFile.isUpload : EncryptionFile → Bool
  | .uploadedCert | .uploadedKey | .pendingUploadCert | .pendingUploadKey => true
  | _ => false

/-- What was there still is, and so are these files. -/
structure Grown (before : Files) (made : List EncryptionFile) (s : EncryptionState) : Prop where
  kept : ∀ f, f.isOwn = false → before f ≠ none → s.files f ≠ none
  made : ∀ f ∈ made, s.files f ≠ none
  uploads : ∀ f, f.isUpload = true → s.files f = before f

theorem Grown.write {made : List EncryptionFile} {s : EncryptionState} (h : Grown before made s)
    {f : EncryptionFile} (hf : f.isUpload = false) (content : Str) :
    Grown before (f :: made) { s with files := Function.update s.files f (some content) } := by
  have hnew : ∀ g, g = f ∨ s.files g ≠ none →
      Function.update s.files f (some content) g ≠ none := by
    intro g hg
    by_cases hgf : g = f
    · rw [hgf, Function.update_self]
      exact Option.some_ne_none _
    · rw [Function.update_of_ne hgf]
      exact hg.resolve_left hgf
  refine ⟨fun g hown hthere => hnew g (.inr (h.kept g hown hthere)), fun g hg => ?_,
    fun g hg => ?_⟩
  · exact hnew g ((List.mem_cons.mp hg).imp_right (h.made g))
  · refine (updated_of_ne s ?_).trans (h.uploads g hg)
    rintro rfl
    exact Bool.noConfusion (hf.symm.trans hg)

theorem BackedUp.grown {s : EncryptionState} (h : BackedUp cfg before s) : Grown before [] s := by
  have hfiles : ∀ f, f.isOwn = false → s.files f = before f := by
    intro f hf
    refine h.files f ?_ ?_
    · rintro rfl
      exact Bool.noConfusion hf
    · rintro rfl
      exact Bool.noConfusion hf
  refine ⟨fun f hown hthere => (hfiles f hown).symm ▸ hthere, nofun, fun f hf => hfiles f ?_⟩
  cases f with
  | uploadedCert | uploadedKey | pendingUploadCert | pendingUploadKey => rfl
  | _ => exact Bool.noConfusion hf

/-- The default pair is new. -/
def Renewed (before : Files) (s : EncryptionState) : Prop :=
  s.files .certDefault ≠ before .certDefault ∧ s.files .keyDefault ≠ before .keyDefault

/-- The file that is not written as it should, and the statement that raises. -/
structure Late (stop : EncryptionStep) (op : FileOp) : Prop where
  stop : stop ∈ [EncryptionStep.clearAction, .readConf, .daemonReload]
  op : op ∈ [FileOp.conf, .altsvc, .dnscryptKey]

theorem Late.step (h : Late stop op) {st : EncryptionStep}
    (hst : st ∉ [EncryptionStep.clearAction, .readConf, .daemonReload]) :
    Triple P (step (calmWorld before caps stop op outcome) st) (fun _ => P) E :=
  calm_step fun heq => hst (heq ▸ h.stop)

theorem Late.atomicWrite (h : Late stop op) {Q : EncryptionState → Prop} {o : FileOp}
    {f : EncryptionFile} {content : Str} (ho : o ∉ [FileOp.conf, .altsvc, .dnscryptKey])
    (hQ : ∀ s, P s → Q { s with files := Function.update s.files f (some content) }) :
    Triple P (atomicWrite (calmWorld before caps stop op outcome) o f content) (fun _ => Q) E :=
  calm_atomicWrite (fun heq => ho (heq ▸ h.op)) hQ

theorem Late.copies (h : Late stop op) :
    (calmWorld before caps stop op outcome).CopiesSucceed := by
  refine calm_copies ?_
  have hop := h.op
  simp only [List.mem_cons, List.not_mem_nil, or_false] at hop
  rcases hop with rfl | rfl | rfl
  all_goals simp

theorem calm_writeDefault (h : Late stop op) {made : List EncryptionFile} {cert : Str}
    (hfresh : some cert ≠ before .certDefault) :
    Triple (Grown before made)
      (atomicWrite (calmWorld before caps stop op outcome) .cert .certDefault cert >>= fun _ =>
        atomicWrite (calmWorld before caps stop op outcome) .key .keyDefault
          (fresh before .keyDefault))
      (fun _ s => Grown before (.keyDefault :: .certDefault :: made) s ∧ Renewed before s) E := by
  refine triple_bind (h.atomicWrite (by simp) fun s hs => ⟨hs.write rfl cert, updated_self s⟩ :
    Triple _ _ (fun _ s => Grown before (.certDefault :: made) s ∧
      s.files .certDefault = some cert) _) fun _ => h.atomicWrite (by simp) fun s hs => ?_
  refine ⟨hs.1.write rfl _, ?_, ?_⟩
  · rw [updated_of_ne s (f := .keyDefault) (g := .certDefault) nofun, hs.2]
    exact hfresh
  · rw [updated_self]
    exact fresh_ne before .keyDefault

theorem calm_ensureLocalCa (h : Late stop op) :
    Triple (Grown before []) (ensureLocalCa (calmWorld before caps stop op outcome))
      (fun _ => Grown before [.caKey, .caCert]) E := by
  refine triple_bind (triple_isFile _) fun b => triple_bind (triple_isFile _) fun b' => ?_
  refine triple_ite (fun hboth => triple_pure ?_) fun _ => ?_
  · rintro s ⟨⟨hs, rfl⟩, rfl⟩
    rw [Bool.and_eq_true, Option.isSome_iff_ne_none, Option.isSome_iff_ne_none] at hboth
    exact ⟨hs.kept, by simpa using ⟨hboth.2, hboth.1⟩, hs.uploads⟩
  · refine triple_bind (h.step (by simp)) fun _ => ?_
    refine triple_bind (h.atomicWrite (by simp) fun s hs => hs.1.1.write rfl _ :
      Triple _ _ (fun _ => Grown before [.caCert]) _) fun _ => ?_
    exact h.atomicWrite (by simp) fun s hs => hs.write rfl _

theorem calm_issueFromLocalCa (h : Late stop op) :
    Triple (Grown before []) (issueFromLocalCa (calmWorld before caps stop op outcome))
      (fun _ s => Grown before [.keyDefault, .certDefault, .caSerial, .caKey, .caCert] s ∧
        Renewed before s) E := by
  refine triple_bind (calm_ensureLocalCa h) fun _ => triple_bind (h.step (by simp)) fun _ => ?_
  refine triple_bind (triple_putFile fun s hs => hs.write rfl _ :
    Triple _ _ (fun _ => Grown before [.caSerial, .caKey, .caCert]) _) fun _ => ?_
  exact triple_bind (triple_readFile_there fun s hs => hs.made .caCert (by simp)) fun ca =>
    calm_writeDefault h (fresh_append_ne before .certDefault _)

/-- The files of the pending action are written. -/
structure Generated (cfg : EncryptionSettings) (before : Files) (s : EncryptionState) : Prop where
  kept : ∀ f, f.isOwn = false → before f ≠ none → s.files f ≠ none
  made : ∀ f, f.isUpload = false → CertWrites cfg before f → s.files f ≠ none
  uploads : ∀ f, f.isUpload = true → s.files f = before f
  renewed : cfg.generates = true → Renewed before s

theorem Grown.generated {made : List EncryptionFile} {s : EncryptionState}
    (h : Grown before made s) (hmade : ∀ f, f.isUpload = false → CertWrites cfg before f → f ∈ made)
    (hrenewed : cfg.generates = true → Renewed before s) : Generated cfg before s :=
  ⟨h.kept, fun f hf hw => h.made f (hmade f hf hw), h.uploads, hrenewed⟩

theorem calm_generate (h : Late stop op) :
    Triple (BackedUp cfg before) (generate (calmWorld before caps stop op outcome) cfg)
      (fun b s => b = cfg.generates ∧ Generated cfg before s) E := by
  refine triple_ite (fun hself => ?_) fun hself => triple_ite (fun hlocal => ?_) fun hlocal => ?_
  · have hgenerates : cfg.generates = true := by
      rw [EncryptionSettings.generates, decide_eq_true hself, Bool.true_or]
    have hnotLocal : cfg.pendingCertAction ≠ "generate_local_ca".toList := by
      rw [hself]
      decide +kernel
    refine triple_bind (triple_bind (triple_conseq (h.step (by simp)) (fun s hs => hs.grown)
      (fun _ _ => id) fun _ => id) fun _ => calm_writeDefault h (fresh_ne before .certDefault))
      fun _ => triple_pure fun s hs => ⟨hgenerates.symm, hs.1.generated ?_ fun _ => hs.2⟩
    intro f hf hw
    cases f with
    | certDefault | keyDefault => simp
    | caCert | caKey => exact absurd hw.1 hnotLocal
    | caSerial => exact absurd hw hnotLocal
    | uploadedCert | uploadedKey | pendingUploadCert | pendingUploadKey => exact Bool.noConfusion hf
    | _ => exact hw.elim
  · have hgenerates : cfg.generates = true := generates_of_localCa hlocal
    refine triple_bind (triple_conseq (calm_issueFromLocalCa h) (fun s hs => hs.grown)
      (fun _ _ => id) fun _ => id)
      fun _ => triple_pure fun s hs => ⟨hgenerates.symm, hs.1.generated ?_ fun _ => hs.2⟩
    intro f hf hw
    cases f with
    | certDefault | keyDefault | caCert | caKey | caSerial => simp
    | uploadedCert | uploadedKey | pendingUploadCert | pendingUploadKey => exact Bool.noConfusion hf
    | _ => exact hw.elim
  · have hgenerates : cfg.generates = false := by
      rw [EncryptionSettings.generates, decide_eq_false hself, decide_eq_false hlocal]
      rfl
    refine triple_pure fun s hs => ⟨hgenerates.symm, hs.grown.generated ?_ ?_⟩
    · intro f hf hw
      cases f with
      | certDefault | keyDefault => exact Bool.noConfusion (hgenerates.symm.trans hw)
      | caCert | caKey => exact absurd hw.1 hlocal
      | caSerial => exact absurd hw hlocal
      | uploadedCert | uploadedKey | pendingUploadCert | pendingUploadKey =>
          exact Bool.noConfusion hf
      | _ => exact hw.elim
    · intro hgen
      exact Bool.noConfusion (hgenerates.symm.trans hgen)

theorem calm_clearAction (hstop : stop ≠ .clearAction) :
    Triple P (clearAction (calmWorld before caps stop op outcome) cfg) (fun _ => P) E :=
  triple_ite (fun _ => triple_pure fun _ hs => hs) fun _ => calm_step hstop.symm

/-- What an upload leaves alone. -/
structure Issued (cfg : EncryptionSettings) (before : Files) (s : EncryptionState) : Prop where
  ca : cfg.pendingCertAction = "generate_local_ca".toList → HasCa s.files
  renewed : cfg.generates = true → Renewed before s

/-- The pair is what the settings ask for. -/
structure Prepared (cfg : EncryptionSettings) (before : Files) (s : EncryptionState) : Prop where
  made : ∀ f ∈ cfg.targets, before f ≠ none ∨ CertWrites cfg before f → s.files f ≠ none
  issued : Issued cfg before s

theorem Generated.issued {s : EncryptionState} (h : Generated cfg before s) :
    Issued cfg before s where
  ca hlocal := by
    by_cases hca : HasCa before
    · exact ⟨h.kept _ rfl hca.1, h.kept _ rfl hca.2⟩
    · exact ⟨h.made .caCert rfl ⟨hlocal, hca⟩, h.made .caKey rfl ⟨hlocal, hca⟩⟩
  renewed := h.renewed

theorem Generated.prepared {s : EncryptionState} (h : Generated cfg before s)
    (hupload : ¬(cfg.certMode = "uploaded".toList ∧ HasUpload before)) : Prepared cfg before s where
  made f hf hw := by
    by_cases hup : f.isUpload = true
    · rw [h.uploads f hup]
      refine hw.resolve_right fun hwrites => hupload ?_
      cases f with
      | uploadedCert | uploadedKey | pendingUploadCert | pendingUploadKey => exact hwrites
      | _ => exact Bool.noConfusion hup
    · rw [Bool.not_eq_true] at hup
      exact hw.elim (h.kept f (isOwn_of_mem_targets hf)) (h.made f hup)
  issued := h.issued

theorem Issued.update {s : EncryptionState} (h : Issued cfg before s) {f : EncryptionFile}
    (hf : f.isUpload = true) (content : Option Str) :
    Issued cfg before { s with files := Function.update s.files f content } := by
  have hsame : ∀ g, g.isUpload = false →
      ({ s with files := Function.update s.files f content } : EncryptionState).files g =
        s.files g := by
    intro g hg
    refine updated_of_ne s ?_
    rintro rfl
    exact Bool.noConfusion (hf.symm.trans hg)
  refine ⟨fun hlocal => ?_, fun hgen => ?_⟩
  · obtain ⟨hcert, hkey⟩ := h.ca hlocal
    exact ⟨(hsame .caCert rfl).trans_ne hcert, (hsame .caKey rfl).trans_ne hkey⟩
  · obtain ⟨hcert, hkey⟩ := h.renewed hgen
    exact ⟨(hsame .certDefault rfl).trans_ne hcert, (hsame .keyDefault rfl).trans_ne hkey⟩

theorem calm_acceptUploaded (h : Late stop op) (cert key : Str) :
    Triple (Issued cfg before) (acceptUploaded (calmWorld before caps stop op outcome) cert key)
      (fun _ s => (Issued cfg before s ∧ s.files .uploadedCert ≠ none) ∧
        s.files .uploadedKey ≠ none) E := by
  refine triple_bind (h.step (by simp)) fun _ => triple_ite (fun _ => ?_) fun hno => absurd rfl hno
  refine triple_bind (h.atomicWrite (by simp) fun s hs => ⟨hs.update rfl _, ?_⟩ :
    Triple _ _ (fun _ s => Issued cfg before s ∧ s.files .uploadedCert ≠ none) _) fun _ => ?_
  · rw [updated_self]
    exact Option.some_ne_none _
  · refine h.atomicWrite (by simp) fun s hs => ⟨⟨hs.1.update rfl _, ?_⟩, ?_⟩
    · rw [updated_of_ne s (f := .uploadedKey) (g := .uploadedCert) nofun]
      exact hs.2
    · rw [updated_self]
      exact Option.some_ne_none _

theorem calm_acceptUpload (h : Late stop op) :
    Triple (Generated cfg before) (acceptUpload (calmWorld before caps stop op outcome) cfg)
      (fun b s => (b = true ↔ cfg.certMode = "uploaded".toList ∧ HasUpload before) ∧
        Prepared cfg before s) E := by
  refine triple_ite (fun hmode => ?_) fun hmode => triple_pure fun s hs => ⟨?_, hs.prepared ?_⟩
  · refine triple_bind (triple_isFile _) fun b => triple_bind (triple_isFile _) fun b' => ?_
    refine triple_of_pre (p := (b && b') = true ↔ HasUpload before) ?_ fun hboth => ?_
    · rintro s ⟨⟨hs, rfl⟩, rfl⟩
      rw [Bool.and_eq_true, Option.isSome_iff_ne_none, Option.isSome_iff_ne_none,
        hs.uploads _ rfl, hs.uploads _ rfl]
      rfl
    refine triple_conseq (R := Generated cfg before) ?_ (fun s hs => hs.1.1) (fun _ _ => id)
      fun _ => id
    refine triple_ite (fun hupload => ?_) fun hupload => triple_pure fun s hs => ⟨?_, ?_⟩
    · have hthere := hboth.mp hupload
      refine triple_bind (triple_readFile_there fun s hs => ?_) fun cert => ?_
      · rw [hs.uploads _ rfl]
        exact hthere.1
      refine triple_bind (triple_readFile_there fun s hs => ?_) fun key => ?_
      · rw [hs.uploads _ rfl]
        exact hthere.2
      refine triple_bind (triple_conseq (calm_acceptUploaded h cert key)
        (fun s (hs : Generated cfg before s) => hs.issued) (fun _ _ => id) fun _ => id) fun _ => ?_
      refine triple_bind (h.step (by simp)) fun _ => ?_
      refine triple_bind (triple_putFile fun s hs => ⟨⟨hs.1.1.update rfl none, ?_⟩, ?_⟩ :
        Triple _ _ (fun _ s => (Issued cfg before s ∧ s.files .uploadedCert ≠ none) ∧
          s.files .uploadedKey ≠ none) _) fun _ => ?_
      · rw [updated_of_ne s (f := .pendingUploadCert) (g := .uploadedCert) nofun]
        exact hs.1.2
      · rw [updated_of_ne s (f := .pendingUploadCert) (g := .uploadedKey) nofun]
        exact hs.2
      refine triple_bind (triple_putFile fun s hs => ⟨⟨hs.1.1.update rfl none, ?_⟩, ?_⟩ :
        Triple _ _ (fun _ s => (Issued cfg before s ∧ s.files .uploadedCert ≠ none) ∧
          s.files .uploadedKey ≠ none) _) fun _ => triple_pure fun s hs => ⟨?_, ?_, hs.1.1⟩
      · rw [updated_of_ne s (f := .pendingUploadKey) (g := .uploadedCert) nofun]
        exact hs.1.2
      · rw [updated_of_ne s (f := .pendingUploadKey) (g := .uploadedKey) nofun]
        exact hs.2
      · exact iff_of_true rfl ⟨hmode, hthere⟩
      · intro f hf _
        rw [targets_of_uploaded hmode] at hf
        rcases List.mem_pair.mp hf with rfl | rfl
        · exact hs.1.2
        · exact hs.2
    · exact iff_of_false Bool.false_ne_true fun hup => hupload (hboth.mpr hup.2)
    · exact hs.prepared fun hup => hupload (hboth.mpr hup.2)
  · exact iff_of_false Bool.false_ne_true fun hup => hmode hup.1
  · exact fun hup => hmode hup.1

theorem calm_checkMaterial :
    Triple (fun s => P s ∧ ∀ f ∈ cfg.targets, s.files f ≠ none)
      (checkMaterial (calmWorld before caps stop op outcome) cfg) (fun _ => P) E := by
  refine triple_bind (triple_get fun s hs => ⟨hs, rfl⟩ : Triple _ get (fun a s => (P s ∧
    ∀ f ∈ cfg.targets, s.files f ≠ none) ∧ a = s) _) fun a => ?_
  split
  · exact triple_pure fun s hs => hs.1.1
  · rename_i hmissing
    rintro s ⟨⟨-, hthere⟩, rfl⟩
    obtain ⟨cert, hcert⟩ := Option.ne_none_iff_exists'.mp (hthere cfg.activeCert (by
      simp [EncryptionSettings.targets]))
    obtain ⟨key, hkey⟩ := Option.ne_none_iff_exists'.mp (hthere cfg.activeKey (by
      simp [EncryptionSettings.targets]))
    exact absurd hkey (hmissing cert key hcert)

/-- **Up to the checks of the pair.** -/
theorem calm_prepareCertificates (h : Late stop op) (hstop : stop ≠ .clearAction)
    (hpair : ∀ f ∈ cfg.targets, before f ≠ none ∨ CertWrites cfg before f) :
    Triple (fun s => s = ⟨before, none, false⟩)
      (prepareCertificates (calmWorld before caps stop op outcome) cfg)
      (fun b s => (b = true ↔ cfg.generates = true ∨
        (cfg.certMode = "uploaded".toList ∧ HasUpload before)) ∧ Prepared cfg before s) E := by
  refine triple_bind (triple_backUpPair h.copies) fun _ => triple_bind (calm_generate h)
    fun generated => triple_and fun hgenerated => triple_bind (calm_clearAction hstop) fun _ => ?_
  refine triple_bind (calm_acceptUpload h) fun uploaded => triple_and fun huploaded => ?_
  refine triple_bind (triple_conseq calm_checkMaterial (fun s hs => ⟨hs, fun f hf => ?_⟩)
    (fun _ _ => id) fun _ => id) fun _ => triple_pure fun s hs => ⟨?_, hs⟩
  · exact hs.made f hf (hpair f hf)
  · rw [Bool.or_eq_true, hgenerated, huploaded]

/-- The pending action is done, and then the deployment raises. -/
theorem stop_prepareCertificates (h : Late stop op) (hstop : stop = .clearAction)
    (hgenerates : cfg.generates = true) :
    Triple (fun s => s = ⟨before, none, false⟩)
      (prepareCertificates (calmWorld before caps stop op outcome) cfg) (fun _ _ => False)
      (fun s => Issued cfg before s) := by
  have hpending : cfg.pendingCertAction ≠ "none".toList := by
    intro hnone
    rw [EncryptionSettings.generates, hnone] at hgenerates
    exact absurd hgenerates (by decide +kernel)
  refine triple_bind (triple_backUpPair h.copies) fun _ => triple_bind (calm_generate h)
    fun generated => triple_and fun _ => ?_
  subst hstop
  refine triple_bind (triple_ite (fun hnone => absurd hnone hpending) fun _ =>
    triple_conseq stop_step (fun s hs => hs.issued) (fun _ _ => id) fun _ => id)
    fun _ => triple_false

/-! ## DNSCrypt -/

theorem calm_skipDnscrypt (hdisabled : cfg.dnscryptEnabled ≠ ['1']) :
    Triple P (issueDnscrypt (calmWorld before caps stop op outcome) cfg)
      (fun p s => p = (cfg, []) ∧ P s) E :=
  triple_ite (fun henabled => absurd henabled hdisabled) fun _ => triple_pure fun _ hs => ⟨rfl, hs⟩

/-- What the DNSCrypt certificate leaves alone. -/
structure Unmigrated (before : Files) (s : EncryptionState) : Prop where
  conf : s.files .dnsdistConf = before .dnsdistConf
  template : s.files .template = before .template
  override : s.files .envOverride = before .envOverride
  envBackup : s.envBackup = false

theorem Unmigrated.write {s : EncryptionState} (h : Unmigrated before s) {f : EncryptionFile}
    (hf : f ∉ [EncryptionFile.dnsdistConf, .template, .envOverride]) (content : Option Str) :
    Unmigrated before { s with files := Function.update s.files f content } where
  conf := (updated_of_ne s fun heq => hf (by simp [← heq])).trans h.conf
  template := (updated_of_ne s fun heq => hf (by simp [← heq])).trans h.template
  override := (updated_of_ne s fun heq => hf (by simp [← heq])).trans h.override
  envBackup := h.envBackup

theorem calm_ensureProvider (h : Late stop op) :
    Triple (Unmigrated before)
      (ensureDnscryptProviderKeys (calmWorld before caps stop op outcome))
      (fun _ => Unmigrated before) E := by
  refine triple_bind (triple_isFile _) fun b => triple_bind (triple_isFile _) fun b' => ?_
  refine triple_ite (fun _ => triple_pure fun s hs => hs.1.1) fun _ => ?_
  refine triple_bind (h.step (by simp)) fun _ => ?_
  refine triple_bind (h.atomicWrite (by simp) fun s hs => hs.1.1.write (by simp) _ :
    Triple _ _ (fun _ => Unmigrated before) _) fun _ => ?_
  exact h.atomicWrite (by simp) fun s hs => hs.write (by simp) _

/-- The certificate is new. -/
structure Reissued (before : Files) (s : EncryptionState) : Prop where
  unmigrated : Unmigrated before s
  cert : s.files .dnscryptCert ≠ before .dnscryptCert

theorem calm_issueDnscryptCertificate (h : Late stop op)
    (hdone : (calmWorld before caps stop op outcome).writes .dnscryptKey = .done) :
    Triple (Unmigrated before)
      (issueDnscryptCertificate (calmWorld before caps stop op outcome))
      (fun _ s => (Reissued before s ∧ s.files .dnscryptCert ≠ none) ∧
        s.files .dnscryptKey ≠ none) E := by
  refine triple_bind (calm_ensureProvider h) fun _ => triple_bind (h.step (by simp)) fun _ => ?_
  refine triple_bind (h.atomicWrite (by simp) fun s hs => ⟨⟨hs.write (by simp) _, ?_⟩, ?_⟩ :
    Triple _ _ (fun _ s => Reissued before s ∧ s.files .dnscryptCert ≠ none) _) fun _ => ?_
  · rw [updated_self]
    exact fresh_ne before .dnscryptCert
  · rw [updated_self]
    exact Option.some_ne_none _
  · rw [atomicWrite, hdone]
    have hne : EncryptionFile.dnscryptCert ≠ .dnscryptKey := nofun
    refine triple_putFile fun s hs => ⟨⟨⟨hs.1.unmigrated.write (by simp) _, ?_⟩, ?_⟩, ?_⟩
    · rw [updated_of_ne s hne]
      exact hs.1.cert
    · rw [updated_of_ne s hne]
      exact hs.2
    · rw [updated_self]
      exact Option.some_ne_none _

theorem refused_issueDnscryptCertificate (h : Late stop op)
    (hrefused : (calmWorld before caps stop op outcome).writes .dnscryptKey = .refused []) :
    Triple (Unmigrated before)
      (issueDnscryptCertificate (calmWorld before caps stop op outcome)) (fun _ _ => False)
      (Reissued before) := by
  refine triple_bind (calm_ensureProvider h) fun _ => triple_bind (h.step (by simp)) fun _ => ?_
  refine triple_bind (h.atomicWrite (by simp) fun s hs => ⟨hs.write (by simp) _, ?_⟩ :
    Triple _ _ (fun _ => Reissued before) _) fun _ => ?_
  · rw [updated_self]
    exact fresh_ne before .dnscryptCert
  · rw [atomicWrite, hrefused]
    exact triple_throw fun _ hs => hs

/-- Neither the certificate nor what comes after it is written. -/
structure Unissued (before : Files) (s : EncryptionState) : Prop where
  unmigrated : Unmigrated before s
  cert : s.files .dnscryptCert = before .dnscryptCert
  key : s.files .dnscryptKey = before .dnscryptKey

/-- An attempt to issue the certificate, where it is asked for and not there. -/
theorem triple_issueDnscrypt_attempt {w : EncryptionWorld} {Q : EncryptionSettings × List Str →
    EncryptionState → Prop} (henabled : cfg.dnscryptEnabled = ['1'])
    (hdnscrypt : ¬HasDnscrypt before)
    (htry : Triple (Unmigrated before) (tryCatch (do
      issueDnscryptCertificate w
      pure (cfg, []))
      fun error => pure ({ cfg with dnscryptEnabled := ['0'] },
        [dnscryptFailed ++ error])) Q E) :
    Triple (Unissued before) (issueDnscrypt w cfg) Q E := by
  refine triple_ite (fun _ => ?_) fun hno => absurd henabled hno
  refine triple_bind (triple_isFile _) fun b => triple_bind (triple_isFile _) fun b' => ?_
  refine triple_ite (fun hboth => ?_) fun _ => ?_
  · rintro s ⟨⟨hs, rfl⟩, rfl⟩
    rw [hs.cert, hs.key, Bool.and_eq_true, Option.isSome_iff_ne_none,
      Option.isSome_iff_ne_none] at hboth
    exact absurd hboth hdnscrypt
  · exact triple_conseq htry (fun s hs => hs.1.1.unmigrated) (fun _ _ => id) fun _ => id

theorem calm_issueDnscrypt (h : Late stop op) (henabled : cfg.dnscryptEnabled = ['1'])
    (hdnscrypt : ¬HasDnscrypt before)
    (hdone : (calmWorld before caps stop op outcome).writes .dnscryptKey = .done) :
    Triple (Unissued before) (issueDnscrypt (calmWorld before caps stop op outcome) cfg)
      (fun p s => p = (cfg, []) ∧ (Reissued before s ∧ s.files .dnscryptCert ≠ none) ∧
        s.files .dnscryptKey ≠ none) E :=
  triple_issueDnscrypt_attempt henabled hdnscrypt (triple_tryCatch (triple_bind
    (calm_issueDnscryptCertificate h hdone) fun _ => triple_pure fun _ hs => ⟨rfl, hs⟩)
    fun _ => triple_false)

theorem refused_issueDnscrypt (h : Late stop op) (henabled : cfg.dnscryptEnabled = ['1'])
    (hdnscrypt : ¬HasDnscrypt before)
    (hrefused : (calmWorld before caps stop op outcome).writes .dnscryptKey = .refused []) :
    Triple (Unissued before) (issueDnscrypt (calmWorld before caps stop op outcome) cfg)
      (fun p s => p.1 = { cfg with dnscryptEnabled := ['0'] } ∧ Reissued before s) E :=
  triple_issueDnscrypt_attempt henabled hdnscrypt (triple_tryCatch (triple_bind
    (refused_issueDnscryptCertificate h hrefused) fun _ => triple_false)
    fun _ => triple_pure fun _ hs => ⟨rfl, hs⟩)

/-! ## dnsdist.conf and the override -/

/-- The files that the last part of a deployment writes. -/
def lateFiles : List EncryptionFile :=
  [.dnsdistConf, .confBackup, .altsvcBackup, .envBackup, .envOverride]

/-- Only dnsdist.conf and its copies have changed. -/
structure Migrated (s₁ : EncryptionState) (conf : Option Str) (s : EncryptionState) : Prop where
  others : ∀ f ∉ lateFiles, s.files f = s₁.files f
  conf : s.files .dnsdistConf = conf
  override : s.files .envOverride = s₁.files .envOverride
  envBackup : s.envBackup = s₁.envBackup

theorem Migrated.copy {s₁ s : EncryptionState} {conf : Option Str} (h : Migrated s₁ conf s)
    {f : EncryptionFile} (hf : f ∈ lateFiles) (hconf : .dnsdistConf ≠ f)
    (hoverride : .envOverride ≠ f)
    (content : Option Str) :
    Migrated s₁ conf { s with files := Function.update s.files f content } where
  others g hg := (updated_of_ne s fun heq => hg (by rw [heq]; exact hf)).trans (h.others g hg)
  conf := (updated_of_ne s hconf).trans h.conf
  override := (updated_of_ne s hoverride).trans h.override
  envBackup := h.envBackup

theorem Migrated.write {s₁ s : EncryptionState} {conf : Option Str} (h : Migrated s₁ conf s)
    (content : Option Str) :
    Migrated s₁ content { s with files := Function.update s.files .dnsdistConf content } where
  others g hg :=
    (updated_of_ne s fun heq => hg (by rw [heq]; simp [lateFiles])).trans (h.others g hg)
  conf := updated_self s
  override := (updated_of_ne s (f := .dnsdistConf) (g := .envOverride) nofun).trans h.override
  envBackup := h.envBackup

/-- A copy that does not matter. -/
theorem calm_copyConf {s₁ : EncryptionState} {content : Str} {o : FileOp} {f : EncryptionFile}
    (ho : o ≠ op) (hf : f ∈ lateFiles) (hconf : .dnsdistConf ≠ f) (hoverride : .envOverride ≠ f) :
    Triple (Migrated s₁ (some content))
      (copyFile (calmWorld before caps stop op outcome) o .dnsdistConf f)
      (fun _ => Migrated s₁ (some content)) E :=
  triple_copyFile_done content (calm_writes ho) (fun _ hs => hs.conf) fun _ hs =>
    hs.copy hf hconf hoverride _

theorem calm_backUpConf {s₁ : EncryptionState} {conf : Option Str} (ho : .backUpConf ≠ op) :
    Triple (Migrated s₁ conf) (backUpConf (calmWorld before caps stop op outcome))
      (fun _ => Migrated s₁ conf) E := by
  refine triple_bind (triple_isFile _) fun b => triple_of_pre (p := b = conf.isSome) ?_ fun hb => ?_
  · rintro s ⟨hs, rfl⟩
    rw [hs.conf]
  refine triple_conseq (R := Migrated s₁ conf) (triple_ite (fun hthere => ?_) fun _ => ?_)
    (fun s hs => hs.1) (fun _ _ => id) fun _ => id
  · rw [hb] at hthere
    obtain ⟨content, rfl⟩ := Option.isSome_iff_exists.mp hthere
    exact calm_copyConf ho (by simp [lateFiles]) nofun nofun
  · exact triple_pure fun s hs => hs

section Migrations

variable {s₁ : EncryptionState}

/-- What the first migration finds. -/
theorem triple_parameterized {w : EncryptionWorld} {Q : Bool → EncryptionState → Prop}
    (hread : w.raises .readConf = none) (htemplate : s₁.files .template = before .template)
    {r : Option Str} (hr : parameterized (before .dnsdistConf) (before .template) = .ok r)
    (hnone : r = none → ∀ s, Migrated s₁ (before .dnsdistConf) s → Q false s)
    (hsome : ∀ content, r = some content → Triple (Migrated s₁ (before .dnsdistConf))
      (do backUpConf w; writeFile w .conf .dnsdistConf content; pure true) Q E) :
    Triple (Migrated s₁ (before .dnsdistConf)) (ensureDnsdistConfParameterized w) Q E := by
  refine triple_bind (triple_step_none hread) fun _ => ?_
  refine triple_bind (triple_get fun s hs => ⟨hs, rfl⟩ : Triple _ get (fun a s =>
    Migrated s₁ (before .dnsdistConf) s ∧ a = s) _) fun a => ?_
  refine triple_of_pre (p := parameterized (a.files .dnsdistConf) (a.files .template) = .ok r) ?_
    fun ha => ?_
  · rintro s ⟨hs, rfl⟩
    rw [hs.conf, hs.others .template (by simp [lateFiles]), htemplate]
    exact hr
  rw [ha]
  cases r with
  | none => exact triple_pure fun s hs => hnone rfl s hs.1
  | some content =>
      exact triple_conseq (hsome content rfl) (fun s hs => hs.1) (fun _ _ => id) fun _ => id

/-- What the second migration finds. -/
theorem triple_altsvc {w : EncryptionWorld} {Q : Bool × Str → EncryptionState → Prop}
    (hread : w.raises .readAltsvc = none) (htemplate : s₁.files .template = before .template)
    {conf : Option Str} {r : Option Str × Str}
    (hr : altsvcMigrated conf (before .template) = .ok r)
    (hnone : r.1 = none → ∀ s, Migrated s₁ conf s → Q (false, r.2) s)
    (hsome : ∀ content, r.1 = some content → Triple (Migrated s₁ conf) (do
      copyFile w .backUpAltsvc .dnsdistConf .altsvcBackup
      writeFile w .altsvc .dnsdistConf content
      step w .checkAltsvc
      if w.altsvcValid then
        pure (true, "applied doh-altsvc migration to dnsdist.conf (backup: ".toList ++
          w.altsvcBackupPath ++ [')'])
      else
        copyFile w .restoreAltsvc .altsvcBackup .dnsdistConf
        throw (altsvcInvalid ++ w.altsvcBackupPath ++ ": ".toList ++ w.altsvcOutput)) Q E) :
    Triple (Migrated s₁ conf) (ensureDohAltsvcMigration w) Q E := by
  refine triple_bind (triple_step_none hread) fun _ => ?_
  refine triple_bind (triple_get fun s hs => ⟨hs, rfl⟩ : Triple _ get (fun a s =>
    Migrated s₁ conf s ∧ a = s) _) fun a => ?_
  refine triple_of_pre (p := altsvcMigrated (a.files .dnsdistConf) (a.files .template) = .ok r) ?_
    fun ha => ?_
  · rintro s ⟨hs, rfl⟩
    rw [hs.conf, hs.others .template (by simp [lateFiles]), htemplate]
    exact hr
  rw [ha]
  rcases r with ⟨_ | content, note⟩
  · exact triple_pure fun s hs => hnone rfl s hs.1
  · exact triple_conseq (hsome content rfl) (fun s hs => hs.1) (fun _ _ => id) fun _ => id

theorem calm_ensureDnsdistConfParameterized (hop : .backUpConf ≠ op) (hstop : .readConf ≠ stop)
    (hdone : (calmWorld before caps stop op outcome).writes .conf = .done)
    (htemplate : s₁.files .template = before .template)
    (hr : ∃ r, parameterized (before .dnsdistConf) (before .template) = .ok r) :
    Triple (Migrated s₁ (before .dnsdistConf))
      (ensureDnsdistConfParameterized (calmWorld before caps stop op outcome))
      (fun b s => (b = false → confParameterized before = before .dnsdistConf) ∧
        Migrated s₁ (confParameterized before) s) E := by
  obtain ⟨r, hr⟩ := hr
  refine triple_parameterized (if_neg hstop) htemplate hr (fun hnone s hs => ?_)
    fun content hsome => ?_
  · subst hnone
    have hconf : confParameterized before = before .dnsdistConf := by
      rw [confParameterized, hr]
    exact ⟨fun _ => hconf, hconf ▸ hs⟩
  · subst hsome
    have hconf : confParameterized before = some content := by
      rw [confParameterized, hr]
    refine triple_bind (calm_backUpConf hop) fun _ => ?_
    refine triple_bind (triple_writeFile_done hdone fun s hs => hs.write (some content)) fun _ =>
      triple_pure fun s hs => ⟨Bool.noConfusion, hconf ▸ hs⟩

theorem calm_ensureDohAltsvcMigration (hop : .backUpAltsvc ≠ op) (hstop : .readAltsvc ≠ stop)
    (hcheck : .checkAltsvc ≠ stop)
    (hdone : (calmWorld before caps stop op outcome).writes .altsvc = .done)
    (htemplate : s₁.files .template = before .template)
    (hr : ∃ r, altsvcMigrated (confParameterized before) (before .template) = .ok r) :
    Triple (Migrated s₁ (confParameterized before))
      (ensureDohAltsvcMigration (calmWorld before caps stop op outcome))
      (fun p s => (p.1 = false → confMigrated before = confParameterized before) ∧
        Migrated s₁ (confMigrated before) s) E := by
  obtain ⟨r, hr⟩ := hr
  have hconf : confMigrated before =
      match r.1 with
      | some content => some content
      | none => confParameterized before := by
    rw [confMigrated, hr]
    rcases r with ⟨_ | _, _⟩
    · rfl
    · rfl
  refine triple_altsvc (if_neg hstop) htemplate hr (fun hnone s hs => ?_) fun content hsome => ?_
  · rw [hnone] at hconf
    exact ⟨fun _ => hconf, hconf ▸ hs⟩
  · rw [hsome] at hconf
    have hthere : ∃ current, confParameterized before = some current := by
      cases hcurrent : confParameterized before with
      | none =>
          rw [hcurrent, altsvcMigrated, Except.ok.injEq] at hr
          rw [← hr] at hsome
          cases hsome
      | some current => exact ⟨current, rfl⟩
    obtain ⟨current, hcurrent⟩ := hthere
    rw [hcurrent]
    refine triple_bind (calm_copyConf hop (by simp [lateFiles]) (by simp) (by simp)) fun _ => ?_
    refine triple_bind (triple_writeFile_done hdone fun s hs => hs.write (some content)) fun _ => ?_
    refine triple_bind (calm_step hcheck) fun _ => triple_ite (fun _ => ?_)
      fun hno => absurd rfl hno
    exact triple_pure fun s hs => ⟨Bool.noConfusion, hconf ▸ hs⟩

end Migrations

/-! ## All of it -/

section Attempt

variable {s₁ : EncryptionState} {conf : Option Str}

/-- The override is copied where there was one. -/
structure Saved (s₁ : EncryptionState) (conf : Option Str) (s : EncryptionState) : Prop where
  others : ∀ f ∉ lateFiles, s.files f = s₁.files f
  conf : s.files .dnsdistConf = conf
  envBackup : s.envBackup = (s₁.files .envOverride).isSome

theorem Saved.write {s : EncryptionState} (h : Saved s₁ conf s) {f : EncryptionFile}
    (hf : f ∈ lateFiles) (hconf : .dnsdistConf ≠ f) (content : Option Str) :
    Saved s₁ conf { s with files := Function.update s.files f content } where
  others g hg := (updated_of_ne s fun heq => hg (by rw [heq]; exact hf)).trans (h.others g hg)
  conf := (updated_of_ne s hconf).trans h.conf
  envBackup := h.envBackup

theorem calm_backUpOverride (ho : .backUpOverride ≠ op) (hs₁ : s₁.envBackup = false) :
    Triple (Migrated s₁ conf) (backUpOverride (calmWorld before caps stop op outcome))
      (fun _ => Saved s₁ conf) E := by
  refine triple_bind (triple_isFile _) fun b => triple_ite (fun hb => ?_) fun hb => ?_
  · refine triple_of_pre (p := ∃ content, s₁.files .envOverride = some content) ?_ ?_
    · rintro s ⟨hs, rfl⟩
      rw [hs.override] at hb
      exact Option.isSome_iff_exists.mp hb
    rintro ⟨content, hcontent⟩
    refine triple_bind (triple_modify fun s hs => ⟨⟨hs.1.others, hs.1.conf, ?_⟩, hs.1.override⟩ :
      Triple _ _ (fun _ s => Saved s₁ conf s ∧ s.files .envOverride = s₁.files .envOverride) _)
      fun _ => ?_
    · rw [hcontent]
      rfl
    refine triple_copyFile_done content (calm_writes ho) (fun s hs => hs.2.trans hcontent) ?_
    exact fun s hs => hs.1.write (f := .envBackup) (by simp [lateFiles]) nofun _
  · refine triple_pure ?_
    rintro s ⟨hs, rfl⟩
    refine ⟨hs.others, hs.conf, ?_⟩
    rw [hs.envBackup, hs₁, ← hs.override]
    exact (Bool.eq_false_iff.mpr hb).symm

/-- The override is written, and then the deployment raises. -/
structure Overridden (s₁ : EncryptionState) (conf : Option Str) (s : EncryptionState) : Prop where
  saved : Saved s₁ conf s
  override : s.files .envOverride ≠ none

theorem calm_applyOverride (h : Late .daemonReload op) (hs₁ : s₁.envBackup = false)
    {changed : Bool}
    (hchanged : ¬(renderEnvOverride cfg = (s₁.files .envOverride).getD [] ∧ changed = false))
    (warnings : List Str) :
    Triple (Migrated s₁ conf)
      (applyOverride (calmWorld before caps .daemonReload op outcome) cfg changed warnings)
      (fun _ _ => False) (Overridden s₁ conf) := by
  have hbackUp : .backUpOverride ≠ op := by
    rintro rfl
    exact absurd h.op (by simp)
  refine triple_bind (calm_step nofun) fun _ => ?_
  refine triple_bind (triple_get fun s hs => ⟨hs, rfl⟩ : Triple _ get (fun a s =>
    Migrated s₁ conf s ∧ a = s) _) fun a => ?_
  refine triple_ite (fun hsame => ?_) fun _ => ?_
  · rintro s ⟨hs, rfl⟩
    rw [hs.override] at hsame
    exact absurd hsame hchanged
  refine triple_bind (triple_conseq (calm_backUpOverride hbackUp hs₁) (fun s hs => hs.1)
    (fun _ _ => id) fun _ => id) fun _ => ?_
  refine triple_bind (h.atomicWrite (by simp) ?_ : Triple _ _ (fun _ => Overridden s₁ conf) _)
    fun _ => triple_bind stop_step fun _ => triple_false
  intro s hs
  refine ⟨hs.write (f := .envOverride) (by simp [lateFiles]) nofun _, ?_⟩
  rw [updated_self]
  exact Option.some_ne_none _

theorem Unmigrated.migrated (h : Unmigrated before s₁) : Migrated s₁ (before .dnsdistConf) s₁ :=
  ⟨fun _ _ => rfl, h.conf, rfl, rfl⟩

/-- **From the DNSCrypt certificate on.** -/
theorem calm_deployConfiguration (h : Late .daemonReload op)
    (hconf : (calmWorld before caps .daemonReload op outcome).writes .conf = .done)
    (haltsvc : (calmWorld before caps .daemonReload op outcome).writes .altsvc = .done)
    (hcompletes : Completes stored before) {cfg' : EncryptionSettings} {D : EncryptionState → Prop}
    (hD : ∀ s, D s → Unmigrated before s) {changed : Bool}
    (hdnscrypt : Triple P (issueDnscrypt (calmWorld before caps .daemonReload op outcome) cfg)
      (fun p s => p.1 = cfg' ∧ D s)
      fun s => ∃ s₁, D s₁ ∧ Overridden s₁ (confMigrated before) s)
    (hchanged : ¬(renderEnvOverride cfg' = (before .envOverride).getD [] ∧
      confMigrated before = before .dnsdistConf ∧ changed = false)) (warnings : List Str) :
    Triple P
      (deployConfiguration (calmWorld before caps .daemonReload op outcome) cfg warnings changed)
      (fun _ _ => False) fun s => ∃ s₁, D s₁ ∧ Overridden s₁ (confMigrated before) s := by
  have hop : ∀ o, o ∉ [FileOp.conf, .altsvc, .dnscryptKey] → o ≠ op := by
    rintro o ho rfl
    exact ho h.op
  refine triple_bind hdnscrypt fun p s₁ hs₁ => ?_
  obtain ⟨rfl, hs₁⟩ := hs₁
  have hun := hD s₁ hs₁
  refine triple_error (fun s hs => ⟨s₁, hs₁, hs⟩) ?_ s₁ hun.migrated
  refine triple_bind (calm_ensureDnsdistConfParameterized (hop _ (by simp)) nofun hconf hun.template
    hcompletes.parameterized) fun confChanged => triple_and fun hparameterized => ?_
  refine triple_bind (calm_ensureDohAltsvcMigration (hop _ (by simp)) nofun nofun haltsvc
    hun.template hcompletes.altsvc) fun q => triple_and fun hmigrated => ?_
  refine calm_applyOverride h hun.envBackup ?_ _
  rintro ⟨hsame, hunchanged⟩
  rw [Bool.or_eq_false_iff, Bool.or_eq_false_iff] at hunchanged
  rw [hun.override] at hsame
  exact hchanged ⟨hsame, (hmigrated hunchanged.1.2).trans (hparameterized hunchanged.1.1),
    hunchanged.2⟩

/-- The pair is done, and nothing after it. -/
structure Ready (cfg : EncryptionSettings) (before : Files) (s : EncryptionState) : Prop where
  prepared : Prepared cfg before s
  unissued : Unissued before s

/-- **Up to the DNSCrypt certificate.** -/
theorem calm_attempt (h : Late stop op) (hstop : stop ≠ .clearAction)
    (hpair : ∀ f ∈ stored.targets, before f ≠ none ∨ CertWrites stored before f)
    {R : EncryptionState → Prop}
    (hrest : ∀ warnings changed, (changed = true ↔ stored.generates = true ∨
        (stored.certMode = "uploaded".toList ∧ HasUpload before)) →
      Triple (Ready ((calmWorld before caps stop op outcome).enforced stored) before)
        (deployConfiguration (calmWorld before caps stop op outcome)
          ((calmWorld before caps stop op outcome).enforced stored) warnings changed)
        (fun _ _ => False) R) :
    Triple (fun s => s = ⟨before, none, false⟩)
      (attempt (calmWorld before caps stop op outcome) stored) (fun _ _ => False) R := by
  refine triple_bind (h.step (by simp)) fun _ => ?_
  refine triple_bind (triple_conseq (triple_both (triple_prepareCertificates h.copies)
    (calm_prepareCertificates h hstop (E := fun _ => False) ?_)) (fun s hs => ⟨hs, hs⟩)
    (fun _ _ => id) fun s hs => hs.2.elim) fun changed => ?_
  · exact fun f hf => (certWrites_enforceCapabilities stored caps _).symm ▸ hpair f hf
  · refine triple_of_pre (fun s hs => hs.2.1) fun hchanged =>
      triple_conseq (hrest _ changed hchanged) ?_ (fun _ _ => id) fun _ => id
    rintro s ⟨⟨s₀, ⟨hs₀, -⟩, hs⟩, -, hprepared⟩
    have hsame : ∀ f,
        ¬CertWrites ((calmWorld before caps stop op outcome).enforced stored) before f →
        f.isOwn = false ∨ f = .template → s.files f = before f := by
      intro f hf hown
      refine (hs.files f hf).trans (hs₀.files f ?_ ?_)
      · rintro rfl
        simp [EncryptionFile.isOwn] at hown
      · rintro rfl
        simp [EncryptionFile.isOwn] at hown
    refine ⟨hprepared, ⟨⟨?_, ?_, ?_, ?_⟩, ?_, ?_⟩⟩
    · exact hsame .dnsdistConf id (.inl rfl)
    · exact hsame .template id (.inr rfl)
    · exact hsame .envOverride id (.inl rfl)
    · exact hs.envBackup.trans hs₀.envBackup
    · exact hsame .dnscryptCert id (.inl rfl)
    · exact hsame .dnscryptKey id (.inl rfl)

end Attempt

end Calm

end AlderpointDNS.Encryption
