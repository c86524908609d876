import AlderpointDNS.Encryption.Deploy

/-!
# What a deployment of the encryption settings has written

`deploy_encryption` may raise anywhere.  From the settings and the files before it, this file says
which files it may have written by then, and which of them it has copied.

* `CertWrites`, `DnscryptWrites`, `MayWrite` — the files, by what asks for them.
* `Within` — only these files differ; one lemma for each way to write.
* `triple_backUpPair` — the pair that `cert_mode` names is copied where both files are there.
* `triple_generate`, …, `triple_applyOverride` — what each part writes.
* **`triple_attempt`** — what a deployment has written when it raises.

The copies to and from the backup directory are taken to succeed: `cert_backup` and `env_backup`
are set before the copy is made, so one that fails halfway is put back itself.
-/

namespace AlderpointDNS.Encryption

open Text Program

/-- The copies that a rollback relies on. -/
structure EncryptionWorld.CopiesSucceed (w : EncryptionWorld) : Prop where
  backUpCert : w.writes .backUpCert = .done
  backUpKey : w.writes .backUpKey = .done
  backUpOverride : w.writes .backUpOverride = .done
  restoreCert : w.writes .restoreCert = .done
  restoreKey : w.writes .restoreKey = .done

/-! ## The settings and files before a deployment -/

section Before

variable (stored : EncryptionSettings) (before : Files)

def HasCa : Prop := before .caCert ≠ none ∧ before .caKey ≠ none

def HasDnscrypt : Prop := before .dnscryptCert ≠ none ∧ before .dnscryptKey ≠ none

def HasUpload : Prop := before .pendingUploadCert ≠ none ∧ before .pendingUploadKey ≠ none

/-- The pair that `cert_mode` names. -/
def EncryptionSettings.targets : List EncryptionFile := [stored.activeCert, stored.activeKey]

/-- The pair is copied. -/
def SavesPair : Prop :=
  (stored.generates = true ∨ stored.certMode = "uploaded".toList) ∧
    ∀ f ∈ stored.targets, before f ≠ none

/-- What the pending action and the pending upload may write. -/
def CertWrites : EncryptionFile → Prop
  | .certDefault | .keyDefault => stored.generates = true
  | .caCert | .caKey =>
      stored.pendingCertAction = "generate_local_ca".toList ∧ ¬HasCa before
  | .caSerial => stored.pendingCertAction = "generate_local_ca".toList
  | .uploadedCert | .uploadedKey | .pendingUploadCert | .pendingUploadKey =>
      stored.certMode = "uploaded".toList ∧ HasUpload before
  | _ => False

/-- dnsdist.conf after the first migration. -/
def confParameterized : Option Str :=
  match parameterized (before .dnsdistConf) (before .template) with
  | .ok (some content) => some content
  | _ => before .dnsdistConf

/-- dnsdist.conf after both migrations. -/
def confMigrated : Option Str :=
  match altsvcMigrated (confParameterized before) (before .template) with
  | .ok (some content, _) => some content
  | _ => confParameterized before

/-- The deployment can get as far as the override. -/
structure Completes : Prop where
  pair : ∀ f ∈ stored.targets, before f ≠ none ∨ CertWrites stored before f
  parameterized : ∃ r, parameterized (before .dnsdistConf) (before .template) = .ok r
  altsvc : ∃ r, altsvcMigrated (confParameterized before) (before .template) = .ok r

/-- A migration writes dnsdist.conf. -/
def MigrationWrites : Prop :=
  (∃ content, parameterized (before .dnsdistConf) (before .template) = .ok (some content)) ∨
    (∃ r, parameterized (before .dnsdistConf) (before .template) = .ok r) ∧
      ∃ content note, altsvcMigrated (confParameterized before) (before .template) =
        .ok (some content, note)

/-- What is written up to the DNSCrypt certificate. -/
def DnscryptWrites : EncryptionFile → Prop
  | .providerPublic | .providerPrivate | .dnscryptCert | .dnscryptKey =>
      stored.dnscryptEnabled = ['1'] ∧ ¬HasDnscrypt before
  | f => CertWrites stored before f

/-- What is written up to the override. -/
def MayWrite : EncryptionFile → Prop
  | .dnsdistConf => MigrationWrites before
  | .confBackup | .altsvcBackup | .envBackup => True
  | f => DnscryptWrites stored before f

end Before

/-! ## What a program writes -/

/-- Only these files differ, and no local variable. -/
structure Within (W : EncryptionFile → Prop) (s₀ s : EncryptionState) : Prop where
  certBackup : s.certBackup = s₀.certBackup
  envBackup : s.envBackup = s₀.envBackup
  files : ∀ f, ¬W f → s.files f = s₀.files f

section Frame

variable {w : EncryptionWorld} {W W' : EncryptionFile → Prop} {s₀ s : EncryptionState}
  {P E : EncryptionState → Prop}

theorem Within.refl (s : EncryptionState) : Within W s s := ⟨rfl, rfl, fun _ _ => rfl⟩

theorem Within.mono (h : Within W s₀ s) (hW : ∀ f, W f → W' f) : Within W' s₀ s :=
  ⟨h.certBackup, h.envBackup, fun f hf => h.files f fun hf' => hf (hW f hf')⟩

theorem Within.update (h : Within W s₀ s) {f : EncryptionFile} (hf : W f) (content : Option Str) :
    Within W s₀ { s with files := Function.update s.files f content } where
  certBackup := h.certBackup
  envBackup := h.envBackup
  files g hg := by
    have hne : g ≠ f := fun hgf => hg (hgf ▸ hf)
    exact (Function.update_of_ne hne _ _).trans (h.files g hg)

theorem updated_self (s : EncryptionState) {f : EncryptionFile} {content : Option Str} :
    ({ s with files := Function.update s.files f content } : EncryptionState).files f = content :=
  Function.update_self _ _ _

theorem updated_of_ne (s : EncryptionState) {f g : EncryptionFile} {content : Option Str}
    (hne : g ≠ f) :
    ({ s with files := Function.update s.files f content } : EncryptionState).files g =
      s.files g :=
  Function.update_of_ne hne _ _

theorem triple_step (st : EncryptionStep) (hE : ∀ s, P s → E s) :
    Triple P (step w st) (fun _ => P) E := by
  unfold step
  split
  · exact triple_throw hE
  · exact triple_pure fun _ hs => hs

theorem triple_isFile (f : EncryptionFile) :
    Triple P (isFile f) (fun b s => P s ∧ b = (s.files f).isSome) E :=
  triple_modifyGet fun _ hs => ⟨hs, rfl⟩

theorem triple_readFile (f : EncryptionFile) (hE : ∀ s, P s → E s) :
    Triple P (readFile w f) (fun content s => P s ∧ s.files f = some content) E := by
  refine triple_bind (triple_get fun s hs => ⟨hs, rfl⟩ :
    Triple P get (fun a s => P s ∧ a = s) E) fun a => ?_
  split
  · rename_i content hcontent
    refine triple_pure fun s hs => ⟨hs.1, ?_⟩
    rw [← hs.2]
    exact hcontent
  · exact triple_throw fun s hs => hE s hs.1

theorem triple_putFile {Q : EncryptionState → Prop} {f : EncryptionFile} {content : Option Str}
    (h : ∀ s, P s → Q { s with files := Function.update s.files f content }) :
    Triple P (putFile f content) (fun _ => Q) E :=
  triple_modify h

theorem triple_atomicWrite {op : FileOp} {f : EncryptionFile} {content : Str}
    {Q : EncryptionState → Prop}
    (h : ∀ s, P s → Q { s with files := Function.update s.files f (some content) })
    (hP : ∀ s, P s → E s) (hQ : ∀ s, Q s → E s) :
    Triple P (atomicWrite w op f content) (fun _ => Q) E := by
  unfold atomicWrite
  split
  · exact triple_putFile h
  · exact triple_throw hP
  · exact triple_bind (triple_putFile h) fun _ => triple_throw hQ

theorem triple_writeFile {op : FileOp} {f : EncryptionFile} {content : Str}
    {Q : EncryptionState → Prop}
    (h : ∀ s, P s → Q { s with files := Function.update s.files f (some content) })
    (hP : ∀ s, P s → E s)
    (hpartway : ∀ s written, P s → E { s with files := Function.update s.files f (some written) }) :
    Triple P (writeFile w op f content) (fun _ => Q) E := by
  unfold writeFile
  split
  · exact triple_putFile h
  · exact triple_throw hP
  · rename_i written error _
    exact triple_bind (triple_putFile fun s hs => hpartway s written hs) fun _ =>
      triple_throw fun _ hs => hs

/-- A copy that only has to stay within the frame. -/
theorem within_copyFile {op : FileOp} {source target : EncryptionFile} (htarget : W target) :
    Triple (Within W s₀) (copyFile w op source target) (fun _ => Within W s₀) (Within W s₀) := by
  refine triple_bind (triple_readFile source fun _ hs => hs) fun content => ?_
  exact triple_writeFile (fun s hs => hs.1.update htarget _) (fun s hs => hs.1)
    fun s written hs => hs.1.update htarget _

theorem triple_readFile_some {f : EncryptionFile} (content : Str)
    (hsome : ∀ s, P s → s.files f = some content) :
    Triple P (readFile w f) (fun c s => P s ∧ c = content) E := by
  refine triple_bind (triple_get fun s hs => ⟨hs, rfl⟩ :
    Triple P get (fun a s => P s ∧ a = s) E) fun a => ?_
  refine triple_of_pre (p := a.files f = some content) (fun s hs => hs.2 ▸ hsome s hs.1)
    fun ha => ?_
  rw [ha]
  exact triple_pure fun s hs => ⟨hs.1, rfl⟩

theorem triple_readFile_there {f : EncryptionFile} (hthere : ∀ s, P s → s.files f ≠ none) :
    Triple P (readFile w f) (fun _ => P) E := by
  intro s hs
  obtain ⟨content, hcontent⟩ := Option.ne_none_iff_exists'.mp (hthere s hs)
  exact triple_conseq (triple_readFile_some (P := fun s' => s' = s) content
    (by rintro s' rfl; exact hcontent)) (fun _ => id) (fun _ s' hs' => hs'.1 ▸ hs) (fun _ => id)
    s rfl

/-- A copy that succeeds. -/
theorem triple_copyFile_done {op : FileOp} {source target : EncryptionFile} (content : Str)
    {Q : EncryptionState → Prop} (hdone : w.writes op = .done)
    (hsome : ∀ s, P s → s.files source = some content)
    (h : ∀ s, P s → Q { s with files := Function.update s.files target (some content) }) :
    Triple P (copyFile w op source target) (fun _ => Q) E := by
  refine triple_bind (triple_readFile_some content hsome) fun c => ?_
  rw [writeFile, hdone]
  refine triple_putFile fun s hs => ?_
  rw [hs.2]
  exact h s hs.1

theorem within_atomicWrite {op : FileOp} {f : EncryptionFile} (hf : W f) (content : Str) :
    Triple (Within W s₀) (atomicWrite w op f content) (fun _ => Within W s₀) (Within W s₀) :=
  triple_atomicWrite (fun _ hs => hs.update hf _) (fun _ hs => hs) fun _ hs => hs

theorem within_step (st : EncryptionStep) :
    Triple (Within W s₀) (step w st) (fun _ => Within W s₀) (Within W s₀) :=
  triple_step st fun _ hs => hs

end Frame

/-! ## The parts of a deployment -/

/-- A file that the administrator does not name. -/
def EncryptionFile.isOwn : EncryptionFile → Bool
  | .certBackup | .keyBackup | .confBackup | .altsvcBackup | .envBackup | .template => true
  | _ => false

theorem isOwn_fileAt (path : Str) : (fileAt path).isOwn = false := by
  rw [fileAt]
  cases hlookup : namedFiles.lookup path with
  | none => rfl
  | some f =>
      obtain ⟨before, after, hnamed, -⟩ := List.lookup_eq_some_iff.mp hlookup
      have hall : ∀ p ∈ namedFiles, p.2.isOwn = false := by decide +kernel
      exact hall (path, f) (by rw [hnamed]; simp)

theorem isOwn_of_mem_targets {cfg : EncryptionSettings} {f : EncryptionFile}
    (hf : f ∈ cfg.targets) : f.isOwn = false := by
  rcases List.mem_pair.mp hf with rfl | rfl
  · exact isOwn_fileAt _
  · exact isOwn_fileAt _

section Parts

variable {w : EncryptionWorld} {cfg : EncryptionSettings} {before : Files} {s₀ : EncryptionState}

/-- After the copies of the pair. -/
structure BackedUp (cfg : EncryptionSettings) (before : Files) (s : EncryptionState) : Prop where
  saved : SavesPair cfg before → s.certBackup = some (cfg.activeCert, cfg.activeKey) ∧
    s.files .certBackup = before cfg.activeCert ∧ s.files .keyBackup = before cfg.activeKey
  unsaved : ¬SavesPair cfg before → s.certBackup = none
  envBackup : s.envBackup = false
  files : ∀ f, f ≠ .certBackup → f ≠ .keyBackup → s.files f = before f

theorem savesPair_iff : SavesPair cfg before ↔
    (cfg.generates || cfg.certMode = "uploaded".toList) = true ∧
      (before cfg.activeCert).isSome = true ∧ (before cfg.activeKey).isSome = true := by
  rw [SavesPair, Bool.or_eq_true, decide_eq_true_eq]
  simp [EncryptionSettings.targets, Option.isSome_iff_ne_none]

theorem triple_copyPair (hcopies : w.CopiesSucceed) (hsaves : SavesPair cfg before)
    {E : EncryptionState → Prop} :
    Triple (fun s => s = ⟨before, none, false⟩) (copyPair w cfg) (fun _ => BackedUp cfg before)
      E := by
  obtain ⟨-, hcert, hkey⟩ := savesPair_iff.mp hsaves
  obtain ⟨cert, hcert⟩ := Option.isSome_iff_exists.mp hcert
  obtain ⟨key, hkey⟩ := Option.isSome_iff_exists.mp hkey
  have hne : cfg.activeKey ≠ .certBackup := by
    intro heq
    have hown : cfg.activeKey.isOwn = false := isOwn_fileAt _
    rw [heq] at hown
    exact Bool.noConfusion hown
  refine triple_bind (triple_modify fun s hs => ?_ : Triple _ _ (fun _ s => s =
    ⟨before, some (cfg.activeCert, cfg.activeKey), false⟩) E) fun _ => ?_
  · rw [hs]
  refine triple_bind (triple_copyFile_done cert hcopies.backUpCert ?_ fun s hs => ?_ :
    Triple _ _ (fun _ s => s = ⟨Function.update before .certBackup (some cert),
      some (cfg.activeCert, cfg.activeKey), false⟩) E) fun _ => ?_
  · rintro s rfl
    exact hcert
  · rw [hs]
  refine triple_copyFile_done key hcopies.backUpKey ?_ ?_
  · rintro s rfl
    exact (Function.update_of_ne hne _ _).trans hkey
  · rintro s rfl
    refine ⟨fun _ => ⟨rfl, ?_, ?_⟩, fun hsaves' => absurd hsaves hsaves', rfl, fun f hc hk => ?_⟩
    · rw [hcert]
      rfl
    · rw [hkey]
      rfl
    · exact (Function.update_of_ne hk _ _).trans (Function.update_of_ne hc _ _)

/-- The copies are made exactly where `SavesPair` says so. -/
theorem triple_backUpPair (hcopies : w.CopiesSucceed) {E : EncryptionState → Prop} :
    Triple (fun s => s = ⟨before, none, false⟩) (backUpPair w cfg)
      (fun _ => BackedUp cfg before) E := by
  have hnone : ¬SavesPair cfg before → ∀ s, s = (⟨before, none, false⟩ : EncryptionState) →
      BackedUp cfg before s := by
    rintro hsaves s rfl
    exact ⟨fun h => absurd h hsaves, fun _ => rfl, rfl, fun _ _ _ => rfl⟩
  refine triple_ite (fun htakes => ?_) fun htakes => ?_
  · refine triple_bind (triple_isFile _) fun b => triple_bind (triple_isFile _) fun b' => ?_
    refine triple_of_pre (p := b = (before cfg.activeCert).isSome ∧
      b' = (before cfg.activeKey).isSome) ?_ ?_
    · rintro s ⟨⟨rfl, hcert⟩, hkey⟩
      exact ⟨hcert, hkey⟩
    · rintro ⟨rfl, rfl⟩
      refine triple_conseq (R := fun s => s = ⟨before, none, false⟩) ?_ (fun s hs => hs.1.1)
        (fun _ _ => id) fun _ => id
      refine triple_ite (fun hboth => ?_) fun hboth => triple_pure (hnone fun hsaves => ?_)
      · rw [Bool.and_eq_true] at hboth
        exact triple_copyPair hcopies (savesPair_iff.mpr ⟨htakes, hboth⟩)
      · exact hboth (by rw [Bool.and_eq_true]; exact (savesPair_iff.mp hsaves).2)
  · refine triple_pure (hnone fun hsaves => htakes ?_)
    exact (savesPair_iff.mp hsaves).1

/-! ### Certificates -/

theorem triple_generateSelfSigned {W : EncryptionFile → Prop} (hcert : W .certDefault)
    (hkey : W .keyDefault) :
    Triple (Within W s₀) (generateSelfSigned w) (fun _ => Within W s₀) (Within W s₀) :=
  triple_bind (within_step _) fun _ => triple_bind (within_atomicWrite hcert _) fun _ =>
    within_atomicWrite hkey _

/-- Both files of the CA are left alone where both are there. -/
theorem triple_ensureLocalCa {W : EncryptionFile → Prop}
    (hca : W .caCert ∧ W .caKey ∨
      (¬W .caCert ∧ s₀.files .caCert ≠ none) ∧ ¬W .caKey ∧ s₀.files .caKey ≠ none) :
    Triple (Within W s₀) (ensureLocalCa w) (fun _ => Within W s₀) (Within W s₀) := by
  refine triple_bind (triple_isFile _) fun b => triple_bind (triple_isFile _) fun b' => ?_
  refine triple_ite (fun _ => triple_pure fun s hs => hs.1.1) fun hboth => ?_
  rcases hca with ⟨hcert, hkey⟩ | ⟨⟨hcert, hcert'⟩, hkey, hkey'⟩
  · refine triple_bind (triple_conseq (within_step _) (fun s hs => hs.1.1) (fun _ _ => id)
      fun _ => id) fun _ => ?_
    exact triple_bind (within_atomicWrite hcert _) fun _ => within_atomicWrite hkey _
  · rintro s ⟨⟨hs, rfl⟩, rfl⟩
    rw [hs.files _ hcert, hs.files _ hkey, Option.isSome_iff_ne_none.mpr hcert',
      Option.isSome_iff_ne_none.mpr hkey'] at hboth
    exact absurd rfl hboth

theorem triple_issueFromLocalCa {W : EncryptionFile → Prop} (hcert : W .certDefault)
    (hkey : W .keyDefault) (hserial : W .caSerial)
    (hca : W .caCert ∧ W .caKey ∨
      (¬W .caCert ∧ s₀.files .caCert ≠ none) ∧ ¬W .caKey ∧ s₀.files .caKey ≠ none) :
    Triple (Within W s₀) (issueFromLocalCa w) (fun _ => Within W s₀) (Within W s₀) := by
  refine triple_bind (triple_ensureLocalCa hca) fun _ => triple_bind (within_step _) fun _ => ?_
  refine triple_bind (triple_putFile fun s hs => hs.update hserial _) fun _ => ?_
  refine triple_bind (triple_readFile _ fun _ hs => hs) fun ca => ?_
  refine triple_bind (triple_conseq (within_atomicWrite hcert _) (fun s hs => hs.1)
    (fun _ _ => id) fun _ => id) fun _ => ?_
  exact within_atomicWrite hkey _

theorem triple_generate (hs₀ : BackedUp cfg before s₀) :
    Triple (Within (CertWrites cfg before) s₀) (generate w cfg)
      (fun _ => Within (CertWrites cfg before) s₀) (Within (CertWrites cfg before) s₀) := by
  refine triple_ite (fun hself => ?_) fun _ => triple_ite (fun hlocal => ?_) fun _ => ?_
  · have hgenerates : cfg.generates = true := by
      rw [EncryptionSettings.generates, decide_eq_true hself, Bool.true_or]
    exact triple_bind (triple_generateSelfSigned hgenerates hgenerates) fun _ =>
      triple_pure fun _ hs => hs
  · have hgenerates : cfg.generates = true := by
      rw [EncryptionSettings.generates, decide_eq_true hlocal, Bool.or_true]
    refine triple_bind (triple_issueFromLocalCa hgenerates hgenerates hlocal ?_) fun _ =>
      triple_pure fun _ hs => hs
    by_cases hca : HasCa before
    · refine .inr ⟨⟨fun h => h.2 hca, ?_⟩, fun h => h.2 hca, ?_⟩
      · rw [hs₀.files .caCert nofun nofun]
        exact hca.1
      · rw [hs₀.files .caKey nofun nofun]
        exact hca.2
    · exact .inl ⟨⟨hlocal, hca⟩, hlocal, hca⟩
  · exact triple_pure fun _ hs => hs

theorem triple_clearAction {W : EncryptionFile → Prop} :
    Triple (Within W s₀) (clearAction w cfg) (fun _ => Within W s₀) (Within W s₀) :=
  triple_ite (fun _ => triple_pure fun _ hs => hs) fun _ => within_step _

theorem triple_acceptUploaded {W : EncryptionFile → Prop} (hcert : W .uploadedCert)
    (hkey : W .uploadedKey) (cert key : Str) :
    Triple (Within W s₀) (acceptUploaded w cert key) (fun _ => Within W s₀) (Within W s₀) := by
  refine triple_bind (within_step _) fun _ => triple_ite (fun _ => ?_) fun _ => ?_
  · exact triple_bind (within_atomicWrite hcert _) fun _ => within_atomicWrite hkey _
  · exact triple_throw fun _ hs => hs

theorem triple_acceptUpload (hs₀ : BackedUp cfg before s₀) :
    Triple (Within (CertWrites cfg before) s₀) (acceptUpload w cfg)
      (fun _ => Within (CertWrites cfg before) s₀) (Within (CertWrites cfg before) s₀) := by
  refine triple_ite (fun hmode => ?_) fun _ => triple_pure fun _ hs => hs
  refine triple_bind (triple_isFile _) fun b => triple_bind (triple_isFile _) fun b' => ?_
  refine triple_ite (fun hboth => ?_) fun _ => triple_pure fun _ hs => hs.1.1
  refine triple_of_pre (p := HasUpload before) ?_ fun hupload => ?_
  · rintro s ⟨⟨hs, rfl⟩, rfl⟩
    rw [Bool.and_eq_true, Option.isSome_iff_ne_none, Option.isSome_iff_ne_none] at hboth
    by_contra hupload
    rw [hs.files .pendingUploadCert fun h => hupload h.2,
      hs.files .pendingUploadKey fun h => hupload h.2, hs₀.files .pendingUploadCert nofun nofun,
      hs₀.files .pendingUploadKey nofun nofun] at hboth
    exact hupload hboth
  · have hwrites : ∀ f ∈ [EncryptionFile.uploadedCert, .uploadedKey, .pendingUploadCert,
        .pendingUploadKey], CertWrites cfg before f := by
      intro f hf
      simp only [List.mem_cons, List.not_mem_nil, or_false] at hf
      rcases hf with rfl | rfl | rfl | rfl
      all_goals exact ⟨hmode, hupload⟩
    refine triple_bind (triple_conseq (triple_readFile _ fun _ hs => hs) (fun s hs => hs.1.1)
      (fun _ s hs => hs.1) fun _ => id) fun cert => ?_
    refine triple_bind (triple_conseq (triple_readFile _ fun _ hs => hs) (fun s hs => hs)
      (fun _ s hs => hs.1) fun _ => id) fun key => ?_
    refine triple_bind (triple_acceptUploaded (hwrites _ (by simp)) (hwrites _ (by simp)) cert key)
      fun _ => triple_bind (within_step _) fun _ => ?_
    refine triple_bind (triple_putFile fun s hs => hs.update (hwrites _ (by simp)) _) fun _ => ?_
    refine triple_bind (triple_putFile fun s hs => hs.update (hwrites _ (by simp)) _) fun _ => ?_
    exact triple_pure fun _ hs => hs

/-- What passes the checks of the pair was there, or has been written. -/
theorem triple_checkMaterial (hs₀ : BackedUp cfg before s₀) :
    Triple (Within (CertWrites cfg before) s₀) (checkMaterial w cfg)
      (fun _ s => (∀ f ∈ cfg.targets, before f ≠ none ∨ CertWrites cfg before f) ∧
        Within (CertWrites cfg before) s₀ s) (Within (CertWrites cfg before) s₀) := by
  refine triple_bind (triple_get fun s hs => ⟨hs, rfl⟩ :
    Triple _ get (fun a s => Within (CertWrites cfg before) s₀ s ∧ a = s) _) fun a => ?_
  split
  · rename_i cert key hcert hkey
    refine triple_ite (fun _ => triple_pure ?_) fun _ => triple_throw fun _ hs => hs.1
    rintro s ⟨hs, rfl⟩
    refine ⟨fun f hf => ?_, hs⟩
    have hthere : a.files f ≠ none := by
      rcases List.mem_pair.mp hf with rfl | rfl
      · rw [hcert]
        exact Option.some_ne_none _
      · rw [hkey]
        exact Option.some_ne_none _
    have hown := isOwn_of_mem_targets hf
    by_cases hwrites : CertWrites cfg before f
    · exact .inr hwrites
    · rw [hs.files f hwrites, hs₀.files f (by rintro rfl; exact Bool.noConfusion hown)
        (by rintro rfl; exact Bool.noConfusion hown)] at hthere
      exact .inl hthere
  · exact triple_throw fun _ hs => hs.1

/-! ### DNSCrypt -/

theorem triple_issueDnscryptCertificate {W : EncryptionFile → Prop} (hpublic : W .providerPublic)
    (hprivate : W .providerPrivate) (hcert : W .dnscryptCert) (hkey : W .dnscryptKey) :
    Triple (Within W s₀) (issueDnscryptCertificate w) (fun _ => Within W s₀) (Within W s₀) := by
  have hprovider : Triple (Within W s₀) (ensureDnscryptProviderKeys w) (fun _ => Within W s₀)
      (Within W s₀) := by
    refine triple_bind (triple_isFile _) fun b => triple_bind (triple_isFile _) fun b' => ?_
    refine triple_ite (fun _ => triple_pure fun s hs => hs.1.1) fun _ => ?_
    refine triple_bind (triple_conseq (within_step _) (fun s hs => hs.1.1) (fun _ _ => id)
      fun _ => id) fun _ => ?_
    split
    · exact triple_bind (within_atomicWrite hpublic _) fun _ => within_atomicWrite hprivate _
    · exact triple_throw fun _ hs => hs
  refine triple_bind hprovider fun _ => triple_bind (within_step _) fun _ => ?_
  split
  · exact triple_bind (within_atomicWrite hcert _) fun _ => within_atomicWrite hkey _
  · exact triple_throw fun _ hs => hs

/-- The certificate is issued where it is asked for and not there; an error only disables it. -/
theorem triple_issueDnscrypt (hs₀ : BackedUp cfg before s₀) {E : EncryptionState → Prop} :
    Triple (Within (CertWrites cfg before) s₀) (issueDnscrypt w cfg)
      (fun _ => Within (DnscryptWrites cfg before) s₀) E := by
  have hmono : ∀ s, Within (CertWrites cfg before) s₀ s →
      Within (DnscryptWrites cfg before) s₀ s := by
    intro s hs
    refine hs.mono fun f hf => ?_
    cases f with
    | providerPublic | providerPrivate | dnscryptCert | dnscryptKey => exact hf.elim
    | _ => exact hf
  refine triple_ite (fun henabled => ?_) fun _ => triple_pure hmono
  refine triple_bind (triple_isFile _) fun b => triple_bind (triple_isFile _) fun b' => ?_
  refine triple_ite (fun _ => triple_pure fun s hs => hmono s hs.1.1) fun hboth => ?_
  refine triple_of_pre (p := ¬HasDnscrypt before) ?_ fun hdnscrypt => ?_
  · rintro s ⟨⟨hs, rfl⟩, rfl⟩ ⟨hcert, hkey⟩
    rw [hs.files .dnscryptCert id, hs.files .dnscryptKey id, hs₀.files .dnscryptCert nofun nofun,
      hs₀.files .dnscryptKey nofun nofun, Option.isSome_iff_ne_none.mpr hcert,
      Option.isSome_iff_ne_none.mpr hkey] at hboth
    exact hboth rfl
  · have hwrites := And.intro henabled hdnscrypt
    refine triple_conseq (triple_tryCatch (triple_bind
      (triple_issueDnscryptCertificate hwrites hwrites hwrites hwrites) fun _ => triple_pure ?_)
      fun error => triple_pure ?_) (fun s hs => hmono s hs.1.1) (fun _ _ => id) fun _ => id
    · exact fun _ hs => hs
    · exact fun _ hs => hs

/-! ### dnsdist.conf -/

/-- Between the migrations and the override: the files so far, with dnsdist.conf as in `conf`. -/
structure Migrating (cfg : EncryptionSettings) (before : Files) (s₀ : EncryptionState)
    (conf : Option Str) (s : EncryptionState) : Prop where
  within : Within (MayWrite cfg before) s₀ s
  conf : s.files .dnsdistConf = conf
  template : s.files .template = before .template

theorem Within.mayWrite {s : EncryptionState} (hs : Within (DnscryptWrites cfg before) s₀ s) :
    Within (MayWrite cfg before) s₀ s := by
  refine hs.mono fun f hf => ?_
  cases f with
  | dnsdistConf | confBackup | altsvcBackup | envBackup => exact hf.elim
  | _ => exact hf

theorem Within.migrating {s : EncryptionState} (hs₀ : BackedUp cfg before s₀)
    (hs : Within (DnscryptWrites cfg before) s₀ s) :
    Migrating cfg before s₀ (before .dnsdistConf) s where
  within := hs.mayWrite
  conf := (hs.files .dnsdistConf id).trans (hs₀.files _ nofun nofun)
  template := (hs.files .template id).trans (hs₀.files _ nofun nofun)

/-- A copy of dnsdist.conf. -/
theorem triple_copyConf {op : FileOp} {conf : Option Str} {f : EncryptionFile}
    (hf : MayWrite cfg before f) (hconf : .dnsdistConf ≠ f) (htemplate : .template ≠ f) :
    Triple (Migrating cfg before s₀ conf) (copyFile w op .dnsdistConf f)
      (fun _ => Migrating cfg before s₀ conf) (Within (MayWrite cfg before) s₀) := by
  have hcopy : ∀ s, Migrating cfg before s₀ conf s → ∀ content, Migrating cfg before s₀ conf
      { s with files := Function.update s.files f content } := fun s hs content =>
    ⟨hs.within.update hf content, (updated_of_ne s hconf).trans hs.conf,
      (updated_of_ne s htemplate).trans hs.template⟩
  refine triple_bind (triple_readFile _ fun s hs => hs.within) fun content => ?_
  exact triple_writeFile (fun s hs => hcopy s hs.1 _) (fun s hs => hs.1.within)
    fun s written hs => (hcopy s hs.1 _).within

theorem triple_backUpConf {conf : Option Str} :
    Triple (Migrating cfg before s₀ conf) (backUpConf w) (fun _ => Migrating cfg before s₀ conf)
      (Within (MayWrite cfg before) s₀) := by
  refine triple_bind (triple_isFile _) fun b => triple_conseq (R := Migrating cfg before s₀ conf)
    (triple_ite (fun _ => ?_) fun _ => ?_) (fun s hs => hs.1) (fun _ _ => id) fun _ => id
  · exact triple_copyConf (f := .confBackup) trivial nofun nofun
  · exact triple_pure fun s hs => hs

/-- A file that is written over dnsdist.conf. -/
theorem triple_writeConf {op : FileOp} {conf : Option Str} {content : Str}
    (hwrites : MigrationWrites before) :
    Triple (Migrating cfg before s₀ conf) (writeFile w op .dnsdistConf content)
      (fun _ => Migrating cfg before s₀ (some content)) (Within (MayWrite cfg before) s₀) :=
  triple_writeFile
    (fun s hs => ⟨hs.within.update (f := .dnsdistConf) hwrites _, updated_self s,
      (updated_of_ne s (f := .dnsdistConf) (g := .template) nofun).trans hs.template⟩)
    (fun _ hs => hs.within) fun _ _ hs => hs.within.update (f := .dnsdistConf) hwrites _

theorem triple_ensureDnsdistConfParameterized :
    Triple (Migrating cfg before s₀ (before .dnsdistConf)) (ensureDnsdistConfParameterized w)
      (fun _ s => (∃ r, parameterized (before .dnsdistConf) (before .template) = .ok r) ∧
        Migrating cfg before s₀ (confParameterized before) s)
      (Within (MayWrite cfg before) s₀) := by
  refine triple_bind (triple_step _ fun s hs => hs.within) fun _ => ?_
  refine triple_bind (triple_get fun s hs => ⟨hs, rfl⟩ : Triple _ get (fun a s =>
    Migrating cfg before s₀ (before .dnsdistConf) s ∧ a = s) _) fun a => ?_
  refine triple_of_pre (p := a.files .dnsdistConf = before .dnsdistConf ∧
    a.files .template = before .template) ?_ ?_
  · rintro s ⟨hs, rfl⟩
    exact ⟨hs.conf, hs.template⟩
  rintro ⟨hconf, htemplate⟩
  rw [hconf, htemplate]
  split
  · exact triple_throw fun s hs => hs.1.within
  · rename_i hnone
    refine triple_pure fun s hs => ⟨⟨_, hnone⟩, ?_⟩
    rw [confParameterized, hnone]
    exact hs.1
  · rename_i content hsome
    have hafter : confParameterized before = some content := by rw [confParameterized, hsome]
    refine triple_bind (triple_conseq triple_backUpConf (fun s hs => hs.1) (fun _ _ => id)
      fun _ => id) fun _ => ?_
    refine triple_bind (triple_writeConf (.inl ⟨content, hsome⟩)) fun _ => triple_pure ?_
    intro s hs
    rw [hafter]
    exact ⟨⟨_, hsome⟩, hs⟩

theorem triple_ensureDohAltsvcMigration
    (hfirst : ∃ r, parameterized (before .dnsdistConf) (before .template) = .ok r) :
    Triple (Migrating cfg before s₀ (confParameterized before)) (ensureDohAltsvcMigration w)
      (fun _ s => (∃ r, altsvcMigrated (confParameterized before) (before .template) = .ok r) ∧
        Migrating cfg before s₀ (confMigrated before) s)
      (Within (MayWrite cfg before) s₀) := by
  refine triple_bind (triple_step _ fun s hs => hs.within) fun _ => ?_
  refine triple_bind (triple_get fun s hs => ⟨hs, rfl⟩ : Triple _ get (fun a s =>
    Migrating cfg before s₀ (confParameterized before) s ∧ a = s) _) fun a => ?_
  refine triple_of_pre (p := a.files .dnsdistConf = confParameterized before ∧
    a.files .template = before .template) ?_ ?_
  · rintro s ⟨hs, rfl⟩
    exact ⟨hs.conf, hs.template⟩
  rintro ⟨hconf, htemplate⟩
  rw [hconf, htemplate]
  split
  · exact triple_throw fun s hs => hs.1.within
  · rename_i note hnone
    refine triple_pure fun s hs => ⟨⟨_, hnone⟩, ?_⟩
    rw [confMigrated, hnone]
    exact hs.1
  · rename_i content note hsome
    have hwrites : MigrationWrites before := .inr ⟨hfirst, content, note, hsome⟩
    have hafter : confMigrated before = some content := by rw [confMigrated, hsome]
    refine triple_bind (triple_conseq (triple_copyConf (f := .altsvcBackup) trivial nofun nofun)
      (fun s hs => hs.1) (fun _ _ => id)
      fun _ => id) fun _ => ?_
    refine triple_bind (triple_writeConf hwrites) fun _ => ?_
    refine triple_bind (triple_step _ fun s hs => hs.within) fun _ => triple_ite (fun _ => ?_)
      fun _ => ?_
    · refine triple_pure fun s hs => ⟨⟨_, hsome⟩, ?_⟩
      rw [hafter]
      exact hs
    · refine triple_bind (triple_conseq (within_copyFile (W := MayWrite cfg before) hwrites)
        (fun s hs => hs.within) (fun _ _ => id) fun _ => id) fun _ => ?_
      exact triple_throw fun _ hs => hs

/-! ### The override -/

/-- What is known when a deployment raises. -/
structure Raised (cfg : EncryptionSettings) (before : Files) (s₀ s : EncryptionState) : Prop where
  certBackup : s.certBackup = s₀.certBackup
  files : ∀ f, f ≠ .envOverride → ¬MayWrite cfg before f → s.files f = s₀.files f
  override : s.files .envOverride = before .envOverride ∨
    Completes cfg before ∧ (before .envOverride ≠ none → s.envBackup = true)
  envBackup : s.envBackup = true → s.files .envBackup = before .envOverride ∧
    before .envOverride ≠ none ∧ Completes cfg before ∧ s.files .dnsdistConf = confMigrated before

theorem Within.raised {s : EncryptionState} (hs₀ : BackedUp cfg before s₀)
    (hs : Within (MayWrite cfg before) s₀ s) : Raised cfg before s₀ s where
  certBackup := hs.certBackup
  files f _ hf := hs.files f hf
  override := .inl ((hs.files .envOverride id).trans (hs₀.files _ nofun nofun))
  envBackup henv := by
    rw [hs.envBackup, hs₀.envBackup] at henv
    exact Bool.noConfusion henv

/-- The override may be written now: what was there is copied. -/
structure Overriding (cfg : EncryptionSettings) (before : Files) (s₀ s : EncryptionState) :
    Prop where
  raised : Raised cfg before s₀ s
  completes : Completes cfg before
  copied : before .envOverride ≠ none → s.envBackup = true

theorem triple_backUpOverride (hcopies : w.CopiesSucceed) (hs₀ : BackedUp cfg before s₀)
    (hcompletes : Completes cfg before) {E : EncryptionState → Prop} :
    Triple (Migrating cfg before s₀ (confMigrated before)) (backUpOverride w)
      (fun _ => Overriding cfg before s₀) E := by
  have hoverride : ∀ s, Migrating cfg before s₀ (confMigrated before) s →
      s.files .envOverride = before .envOverride := fun s hs =>
    (hs.within.files .envOverride id).trans (hs₀.files _ nofun nofun)
  refine triple_bind (triple_isFile _) fun b => triple_ite (fun hb => ?_) fun hb => ?_
  · refine triple_of_pre (p := ∃ content, before .envOverride = some content) ?_ ?_
    · rintro s ⟨hs, rfl⟩
      rw [hoverride s hs] at hb
      exact Option.isSome_iff_exists.mp hb
    rintro ⟨content, hcontent⟩
    refine triple_bind (triple_modify fun s hs => ⟨s, hs.1, rfl⟩ : Triple _ _ (fun _ s => ∃ s₁,
      Migrating cfg before s₀ (confMigrated before) s₁ ∧ s = { s₁ with envBackup := true }) E)
      fun _ => ?_
    refine triple_copyFile_done content hcopies.backUpOverride ?_ ?_
    · rintro s ⟨s₁, hs, rfl⟩
      exact (hoverride s₁ hs).trans hcontent
    · rintro s ⟨s₁, hs, rfl⟩
      refine ⟨⟨hs.within.certBackup, fun f hne hf => ?_, .inl ?_, fun _ => ⟨?_, ?_, ?_, ?_⟩⟩,
        hcompletes, fun _ => rfl⟩
      · have hne' : f ≠ .envBackup := fun heq => hf (heq ▸ trivial)
        exact (Function.update_of_ne hne' _ _).trans (hs.within.files f hf)
      · exact (updated_of_ne _ (f := .envBackup) (g := .envOverride) nofun).trans (hoverride s₁ hs)
      · rw [hcontent]
        exact updated_self _
      · rw [hcontent]
        exact Option.some_ne_none _
      · exact hcompletes
      · exact (updated_of_ne _ (f := .envBackup) (g := .dnsdistConf) nofun).trans hs.conf
  · refine triple_pure ?_
    rintro s ⟨hs, rfl⟩
    refine ⟨hs.within.raised hs₀, hcompletes, fun hne => ?_⟩
    rw [hoverride s hs] at hb
    exact absurd (Option.isSome_iff_ne_none.mpr hne) hb

theorem triple_activateOverride (cfg' : EncryptionSettings) (warnings : List Str) :
    Triple (Raised cfg before s₀) (activateOverride w cfg' warnings)
      (fun _ _ => True) (Raised cfg before s₀) := by
  have hstep : ∀ st, Triple (Raised cfg before s₀) (step w st) (fun _ => Raised cfg before s₀)
      (Raised cfg before s₀) := fun st => triple_step st fun _ hs => hs
  refine triple_bind (hstep _) fun _ => triple_bind (hstep _) fun _ => triple_bind (hstep _)
    fun _ => triple_bind (hstep _) fun _ => triple_ite (fun _ => ?_) fun _ => ?_
  · refine triple_bind (hstep _) fun _ => triple_ite (fun _ => ?_) fun _ => ?_
    · exact triple_pure fun _ _ => trivial
    · exact triple_throw fun _ hs => hs
  · exact triple_throw fun _ hs => hs

theorem triple_applyOverride (hcopies : w.CopiesSucceed) (hs₀ : BackedUp cfg before s₀)
    (hcompletes : Completes cfg before) (cfg' : EncryptionSettings) (changed : Bool)
    (warnings : List Str) :
    Triple (Migrating cfg before s₀ (confMigrated before)) (applyOverride w cfg' changed warnings)
      (fun _ _ => True) (Raised cfg before s₀) := by
  refine triple_bind (triple_step _ fun s hs => hs.within.raised hs₀) fun _ => ?_
  refine triple_bind (triple_get fun s hs => hs : Triple _ get (fun _ =>
    Migrating cfg before s₀ (confMigrated before)) _) fun a => ?_
  refine triple_ite (fun _ => triple_pure fun _ _ => trivial) fun _ => ?_
  refine triple_bind (triple_backUpOverride hcopies hs₀ hcompletes) fun _ => ?_
  refine triple_bind (triple_atomicWrite (Q := Raised cfg before s₀) ?_ (fun s hs => hs.raised)
    fun s hs => hs) fun _ => triple_activateOverride cfg' warnings
  intro s hs
  refine ⟨hs.raised.certBackup, fun f hne hf => ?_, .inr ⟨hs.completes, hs.copied⟩, fun henv => ?_⟩
  · exact (Function.update_of_ne hne _ _).trans (hs.raised.files f hne hf)
  · obtain ⟨hbackup, hthere, hcompletes, hconf⟩ := hs.raised.envBackup henv
    exact ⟨(updated_of_ne s (f := .envOverride) (g := .envBackup) nofun).trans hbackup, hthere,
      hcompletes, (updated_of_ne s (f := .envOverride) (g := .dnsdistConf) nofun).trans hconf⟩

/-! ### All of it -/

theorem certWrites_enforceCapabilities (stored : EncryptionSettings) (caps : Capabilities)
    (suffix : Str) :
    CertWrites (enforceCapabilities stored caps suffix).1 before = CertWrites stored before := by
  funext f
  cases f
  all_goals rfl

/-- What a flag enables is stored as enabled. -/
theorem enforceCapability_eq_one {suffix label flag : Str} {supported : Bool}
    (h : (enforceCapability suffix label flag supported).1 = ['1']) : flag = ['1'] := by
  rw [enforceCapability] at h
  split at h
  · cases h
  · exact h

theorem Within.raised_of_certs {s : EncryptionState} (hs₀ : BackedUp cfg before s₀)
    (hs : Within (CertWrites cfg before) s₀ s) : Raised cfg before s₀ s := by
  refine Within.raised hs₀ (Within.mayWrite (hs.mono fun f hf => ?_))
  cases f with
  | providerPublic | providerPrivate | dnscryptCert | dnscryptKey => exact hf.elim
  | _ => exact hf

theorem triple_prepareCertificates (hcopies : w.CopiesSucceed) :
    Triple (fun s => s = ⟨before, none, false⟩) (prepareCertificates w cfg)
      (fun _ s => ∃ s₀, (BackedUp cfg before s₀ ∧
        ∀ f ∈ cfg.targets, before f ≠ none ∨ CertWrites cfg before f) ∧
          Within (CertWrites cfg before) s₀ s)
      (fun s => ∃ s₀, BackedUp cfg before s₀ ∧ Raised cfg before s₀ s) := by
  refine triple_bind (triple_backUpPair hcopies) fun _ s₀ hs₀ => ?_
  refine (?_ : Triple (Within (CertWrites cfg before) s₀) _ _ _) s₀ (Within.refl s₀)
  refine triple_error (fun s (hs : Within (CertWrites cfg before) s₀ s) =>
    ⟨s₀, hs₀, hs.raised_of_certs hs₀⟩) ?_
  refine triple_bind (triple_generate hs₀) fun generated => triple_bind triple_clearAction
    fun _ => triple_bind (triple_acceptUpload hs₀) fun uploaded => ?_
  exact triple_bind (triple_checkMaterial hs₀) fun _ => triple_pure fun s hs =>
    ⟨s₀, ⟨hs₀, hs.1⟩, hs.2⟩

theorem triple_deployConfiguration (hcopies : w.CopiesSucceed) (hs₀ : BackedUp cfg before s₀)
    (hpair : ∀ f ∈ cfg.targets, before f ≠ none ∨ CertWrites cfg before f) (warnings : List Str)
    (changed : Bool) :
    Triple (Within (CertWrites cfg before) s₀) (deployConfiguration w cfg warnings changed)
      (fun _ _ => True) (Raised cfg before s₀) := by
  refine triple_bind (triple_issueDnscrypt hs₀) fun p => ?_
  refine triple_bind (triple_conseq triple_ensureDnsdistConfParameterized
    (fun s hs => hs.migrating hs₀) (fun _ _ => id) fun s hs => hs.raised hs₀) fun confChanged => ?_
  refine triple_and fun hfirst => ?_
  refine triple_bind (triple_conseq (triple_ensureDohAltsvcMigration hfirst) (fun _ => id)
    (fun _ _ => id) fun s hs => hs.raised hs₀) fun q => ?_
  refine triple_and fun hsecond => ?_
  exact triple_applyOverride hcopies hs₀ ⟨hpair, hfirst, hsecond⟩ _ _ _

/-- The settings of a deployment, without what the installed dnsdist does not support. -/
def EncryptionWorld.enforced (w : EncryptionWorld) (stored : EncryptionSettings) :
    EncryptionSettings :=
  (enforceCapabilities stored w.capabilities " for this deployment".toList).1

/-- **What a deployment has written when it raises.** -/
theorem triple_attempt (hcopies : w.CopiesSucceed) (stored : EncryptionSettings) :
    Triple (fun s => s = ⟨before, none, false⟩) (attempt w stored) (fun _ _ => True)
      (fun s => s = ⟨before, none, false⟩ ∨ ∃ s₀, BackedUp (w.enforced stored) before s₀ ∧
        Raised (w.enforced stored) before s₀ s) := by
  refine triple_bind (triple_step _ fun s hs => .inl hs) fun _ => ?_
  refine triple_error (fun s (hs : ∃ s₀, BackedUp (w.enforced stored) before s₀ ∧
    Raised (w.enforced stored) before s₀ s) => .inr hs) ?_
  refine triple_bind (triple_prepareCertificates hcopies) fun changed =>
    triple_exists fun s₀ => triple_and fun h => ?_
  exact triple_conseq (triple_deployConfiguration hcopies h.1 h.2 _ changed) (fun _ => id)
    (fun _ _ => id) fun s hs => ⟨s₀, h.1, hs⟩

end Parts

end AlderpointDNS.Encryption
