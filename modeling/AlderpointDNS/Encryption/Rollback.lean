import AlderpointDNS.Encryption.Written

/-!
# Rolling back a deployment of the encryption settings

What a deployment has written and not copied, its rollback leaves.  For the settings and the files
before a deployment, this file says when every rollback restores the files, wherever it raises.

* `SafeToRollBack` — the settings and files from which all that is written is copied.
* `triple_restorePair`, `triple_restoreOverride` — the two parts of a rollback.
* **`restored_of_safe`** — a safe deployment that is rolled back restores the watched files.
-/

namespace AlderpointDNS.Encryption

open Text Program

/-! ## The property -/

/-- dnsdist.conf, the override, and the certificates and keys under `CERT_DIR`. -/
def EncryptionFile.isWatched : EncryptionFile → Bool
  | .dnsdistConf | .envOverride => true
  | .certDefault | .keyDefault | .caCert | .caKey | .uploadedCert | .uploadedKey => true
  | .providerPublic | .providerPrivate | .dnscryptCert | .dnscryptKey => true
  | .other path => startsWith path (certDir ++ ['/'])
  | _ => false

/-- The watched files are what they were. -/
def Restored (before after : Files) : Prop := ∀ f, f.isWatched = true → after f = before f

section Safe

variable (stored : EncryptionSettings) (before : Files)

/-- The pair is copied, and nothing else is written that was not there. -/
structure SafeWithPair : Prop where
  pair : stored.generates = true →
    .certDefault ∈ stored.targets ∧ .keyDefault ∈ stored.targets
  ca : stored.pendingCertAction = "generate_local_ca".toList → HasCa before
  dnscrypt : stored.dnscryptEnabled = ['1'] → HasDnscrypt before
  conf : .dnsdistConf ∈ stored.targets ∨ ¬MigrationWrites before
  override : Completes stored before → before .envOverride ≠ none

/-- No pair is copied, and none is written. -/
structure SafeWithoutPair : Prop where
  generates : stored.generates = false
  uploaded : stored.certMode ≠ "uploaded".toList
  dnscrypt : stored.dnscryptEnabled = ['1'] → HasDnscrypt before
  conf : confMigrated before = before .dnsdistConf

/-- **Every rollback restores the files.**  Where no pair is copied, a rollback is recorded only
after the copy of the override. -/
structure SafeToRollBack : Prop where
  withPair : SavesPair stored before → SafeWithPair stored before
  withoutPair : ¬SavesPair stored before → before .envOverride ≠ none →
    Completes stored before → SafeWithoutPair stored before

end Safe

/-! ## The rollback -/

section Rollback

variable {w : EncryptionWorld} {stored : EncryptionSettings} {before : Files}
  {s₀ s s' : EncryptionState}

/-- Where the pair was copied, it is back, and nothing else has changed. -/
structure PairRestored (stored : EncryptionSettings) (before : Files) (s s' : EncryptionState) :
    Prop where
  certBackup : s'.certBackup = s.certBackup
  envBackup : s'.envBackup = s.envBackup
  targets : SavesPair stored before → ∀ f ∈ stored.targets, s'.files f = before f
  others : ∀ f, (SavesPair stored before → f ∉ stored.targets) → s'.files f = s.files f

theorem triple_restorePair (hcopies : w.CopiesSucceed) (hs₀ : BackedUp stored before s₀)
    (hs : Raised stored before s₀ s) :
    Triple (fun s' => s' = s) (restorePair w) (fun _ => PairRestored stored before s)
      (fun _ => False) := by
  refine triple_bind (triple_get fun s' hs' => ⟨hs', hs'⟩ :
    Triple _ get (fun a s' => a = s ∧ s' = s) _) fun a => triple_and fun ha => ?_
  subst ha
  rw [hs.certBackup]
  by_cases hsaves : SavesPair stored before
  · obtain ⟨hpair, hcert, hkey⟩ := hs₀.saved hsaves
    rw [hpair]
    obtain ⟨cert, hcert'⟩ := Option.ne_none_iff_exists'.mp (hsaves.2 stored.activeCert (by
      simp [EncryptionSettings.targets]))
    obtain ⟨key, hkey'⟩ := Option.ne_none_iff_exists'.mp (hsaves.2 stored.activeKey (by
      simp [EncryptionSettings.targets]))
    have hne : EncryptionFile.keyBackup ≠ stored.activeCert := by
      intro heq
      have hown : stored.activeCert.isOwn = false := isOwn_fileAt _
      rw [← heq] at hown
      exact Bool.noConfusion hown
    refine triple_bind (triple_copyFile_done cert hcopies.restoreCert ?_ fun s' hs' => ?_ :
      Triple _ _ (fun _ s' => s' = { a with
        files := Function.update a.files stored.activeCert (some cert) }) _) fun _ => ?_
    · rintro s' rfl
      rw [hs.files .certBackup (by simp) id, hcert, hcert']
    · rw [hs']
    refine triple_copyFile_done key hcopies.restoreKey ?_ ?_
    · rintro s' rfl
      refine (updated_of_ne a hne).trans ?_
      rw [hs.files .keyBackup (by simp) id, hkey, hkey']
    · rintro s' rfl
      refine ⟨rfl, rfl, fun _ f hf => ?_, fun f hf => ?_⟩
      · by_cases hkeyf : f = stored.activeKey
        · subst hkeyf
          rw [hkey']
          exact Function.update_self _ _ _
        · obtain rfl := (List.mem_pair.mp hf).resolve_right hkeyf
          rw [hcert']
          exact (Function.update_of_ne hkeyf _ _).trans (Function.update_self _ _ _)
      · have hf' := hf hsaves
        rw [EncryptionSettings.targets, List.mem_pair, not_or] at hf'
        exact (Function.update_of_ne hf'.2 _ _).trans (Function.update_of_ne hf'.1 _ _)
  · rw [hs₀.unsaved hsaves]
    refine triple_pure ?_
    rintro s' rfl
    exact ⟨rfl, rfl, fun h => absurd h hsaves, fun _ _ => rfl⟩

theorem triple_restoreOverride {content : Str} (hcontent : s.files .envBackup = some content) :
    Triple (fun s' => s' = s) (restoreOverride w)
      (fun _ s' => s'.files .envOverride = some content ∧
        ∀ f, f ≠ .envOverride → s'.files f = s.files f) (fun _ => True) := by
  refine triple_bind (triple_readFile_some content (by rintro s' rfl; exact hcontent))
    fun c => triple_conseq (R := fun s' => s' = s ∧ c = content) ?_ (fun _ => id) (fun _ _ => id)
      fun _ => id
  have hstep : ∀ st, Triple (fun s' => s'.files .envOverride = some content ∧
      ∀ f, f ≠ .envOverride → s'.files f = s.files f) (step w st) (fun _ s' =>
      s'.files .envOverride = some content ∧ ∀ f, f ≠ .envOverride → s'.files f = s.files f)
      (fun _ => True) := fun st => triple_step st fun _ _ => trivial
  refine triple_bind (triple_atomicWrite ?_ (fun _ _ => trivial) fun _ _ => trivial) fun _ =>
    triple_bind (hstep _) fun _ => triple_bind (hstep _) fun _ => hstep _
  rintro s' ⟨rfl, rfl⟩
  exact ⟨updated_self s', fun f hf => updated_of_ne s' hf⟩

theorem inCertDir_beq_of_ne {a b : String} (h : a ≠ b) :
    (inCertDir a == inCertDir b) = false := by
  rw [beq_eq_false_iff_ne, Ne, inCertDir, inCertDir, List.append_cancel_left_eq, List.cons.injEq,
    String.toList_inj, and_iff_right rfl]
  exact h

theorem certDir_append_ne_conf (rest : Str) :
    "/etc/alderpointdns/certs".toList ++ rest ≠ "/etc/dnsdist/dnsdist.conf".toList := by
  intro h
  rw [String.toList_ofList] at h
  rw [String.toList_ofList] at h
  simp at h

theorem certDir_append_ne_override (rest : Str) : "/etc/alderpointdns/certs".toList ++ rest
    ≠ "/etc/systemd/system/dnsdist.service.d/alderpointdns.conf".toList := by
  intro h
  rw [String.toList_ofList] at h
  rw [String.toList_ofList] at h
  simp at h

theorem lookup_cons_of_beq {α β : Type} [BEq α] {k a : α} {b : β} {entries : List (α × β)}
    (h : (k == a) = false) : ((a, b) :: entries).lookup k = entries.lookup k := by
  rw [List.lookup_cons, h]

/-- The first two of the named files are in other directories. -/
theorem lookup_inCertDir (name : String) :
    namedFiles.lookup (inCertDir name) = (namedFiles.drop 2).lookup (inCertDir name) := by
  have hconf : inCertDir name ≠ "/etc/dnsdist/dnsdist.conf".toList :=
    certDir_append_ne_conf ('/' :: name.toList)
  have hoverride : inCertDir name
      ≠ "/etc/systemd/system/dnsdist.service.d/alderpointdns.conf".toList :=
    certDir_append_ne_override ('/' :: name.toList)
  rw [namedFiles, lookup_cons_of_beq (beq_eq_false_iff_ne.mpr hconf),
    lookup_cons_of_beq (beq_eq_false_iff_ne.mpr hoverride), List.drop_succ_cons,
    List.drop_succ_cons, List.drop_zero]

theorem targets_of_uploaded (hmode : stored.certMode = "uploaded".toList) :
    stored.targets = [.uploadedCert, .uploadedKey] := by
  have hcert : fileAt uploadedCertPath = .uploadedCert := by
    rw [fileAt, uploadedCertPath, lookup_inCertDir, namedFiles, List.drop_succ_cons,
      List.drop_succ_cons, List.drop_zero, certPathDefault, keyPathDefault, uploadedCertPath]
    iterate 5 rw [lookup_cons_of_beq (inCertDir_beq_of_ne (by simp))]
    rw [List.lookup_cons_self, Option.getD_some]
  have hkey : fileAt uploadedKeyPath = .uploadedKey := by
    rw [fileAt, uploadedKeyPath, lookup_inCertDir, namedFiles, List.drop_succ_cons,
      List.drop_succ_cons, List.drop_zero, certPathDefault, keyPathDefault, uploadedCertPath,
      uploadedKeyPath]
    iterate 6 rw [lookup_cons_of_beq (inCertDir_beq_of_ne (by simp))]
    rw [List.lookup_cons_self, Option.getD_some]
  rw [EncryptionSettings.targets, EncryptionSettings.activeCert, EncryptionSettings.activeKey,
    resolveActiveCertPaths, if_pos hmode, hcert, hkey]

theorem generates_of_localCa (hlocal : stored.pendingCertAction = "generate_local_ca".toList) :
    stored.generates = true := by
  rw [EncryptionSettings.generates, decide_eq_true hlocal, Bool.or_true]

/-- A watched file that a safe deployment has written is one of the pair. -/
theorem SafeWithPair.notMem (hsafe : SafeWithPair stored before) {f : EncryptionFile}
    (hwatched : f.isWatched = true) (hf : f ∉ stored.targets) : ¬MayWrite stored before f := by
  intro hwrites
  cases f with
  | certDefault => exact hf (hsafe.pair hwrites).1
  | keyDefault => exact hf (hsafe.pair hwrites).2
  | caCert | caKey => exact hwrites.2 (hsafe.ca hwrites.1)
  | providerPublic | providerPrivate | dnscryptCert | dnscryptKey =>
      exact hwrites.2 (hsafe.dnscrypt hwrites.1)
  | dnsdistConf => exact hsafe.conf.elim hf fun h => h hwrites
  | uploadedCert | uploadedKey => exact hf (by simp [targets_of_uploaded hwrites.1])
  | envOverride | other => exact hwrites.elim
  | _ => exact Bool.noConfusion hwatched

/-- Without a pair, only dnsdist.conf may be written. -/
theorem SafeWithoutPair.notMem (hsafe : SafeWithoutPair stored before) {f : EncryptionFile}
    (hwatched : f.isWatched = true) (hf : f ≠ .dnsdistConf) : ¬MayWrite stored before f := by
  have hgenerates : stored.generates ≠ true := Bool.eq_false_iff.mp hsafe.generates
  intro hwrites
  cases f with
  | certDefault | keyDefault => exact hgenerates hwrites
  | caCert | caKey => exact hgenerates (generates_of_localCa hwrites.1)
  | providerPublic | providerPrivate | dnscryptCert | dnscryptKey =>
      exact hwrites.2 (hsafe.dnscrypt hwrites.1)
  | dnsdistConf => exact hf rfl
  | uploadedCert | uploadedKey => exact hsafe.uploaded hwrites.1
  | envOverride | other => exact hwrites.elim
  | _ => exact Bool.noConfusion hwatched

/-- What a watched file holds that is neither of the pair nor the override. -/
theorem files_of_safe (hsafe : SafeToRollBack stored before) (hs₀ : BackedUp stored before s₀)
    (hs : Raised stored before s₀ s) (hrolls : SavesPair stored before ∨ s.envBackup = true)
    {f : EncryptionFile} (hwatched : f.isWatched = true) (hne : f ≠ .envOverride)
    (hf : SavesPair stored before → f ∉ stored.targets) : s.files f = before f := by
  have hunwritten : ¬MayWrite stored before f → s.files f = before f := fun h =>
    (hs.files f hne h).trans (hs₀.files f (by rintro rfl; exact Bool.noConfusion hwatched)
      (by rintro rfl; exact Bool.noConfusion hwatched))
  by_cases hsaves : SavesPair stored before
  · exact hunwritten ((hsafe.withPair hsaves).notMem hwatched (hf hsaves))
  · obtain ⟨-, hthere, hcompletes, hconf⟩ := hs.envBackup (hrolls.resolve_left hsaves)
    have hwithout := hsafe.withoutPair hsaves hthere hcompletes
    by_cases hdnsdist : f = .dnsdistConf
    · rw [hdnsdist, hconf]
      exact hwithout.conf
    · exact hunwritten (hwithout.notMem hwatched hdnsdist)

/-- **A safe deployment that is rolled back restores the watched files.** -/
theorem restored_of_safe (hcopies : w.CopiesSucceed) (hsafe : SafeToRollBack stored before)
    (hs₀ : BackedUp stored before s₀) (hs : Raised stored before s₀ s) {message : Str}
    (hstatus : (rollBack w message s).1 = .rolledBack) :
    Restored before (rollBack w message s).2.2 := by
  have hpair := triple_restorePair hcopies hs₀ hs s rfl
  rcases hrun : restorePair w s with ⟨_ | _, s'⟩
  · rw [hrun] at hpair
    exact hpair.elim
  rw [hrun] at hpair
  have hpair : PairRestored stored before s s' := hpair
  simp only [rollBack, hrun] at hstatus ⊢
  by_cases henv : s.envBackup = true
  · rw [if_pos (hpair.envBackup.trans henv)] at hstatus ⊢
    obtain ⟨hbackup, hthere, hcompletes, hconf⟩ := hs.envBackup henv
    obtain ⟨content, hcontent⟩ := Option.ne_none_iff_exists'.mp hthere
    have hcopy : s'.files .envBackup = some content := by
      rw [hpair.others .envBackup fun _ hmem => Bool.noConfusion (isOwn_of_mem_targets hmem),
        hbackup, hcontent]
    have hoverride := triple_restoreOverride (w := w) hcopy s' rfl
    rcases hrun' : restoreOverride w s' with ⟨_ | _, t⟩
    · rw [hrun'] at hstatus
      exact nomatch hstatus
    rw [hrun'] at hoverride hstatus
    obtain ⟨hback, hothers⟩ := hoverride
    have hfiles : Restored before t.files := by
      intro f hwatched
      by_cases hne : f = .envOverride
      · rw [hne, hback, hcontent]
      rw [hothers f hne]
      by_cases hmem : SavesPair stored before ∧ f ∈ stored.targets
      · exact hpair.targets hmem.1 f hmem.2
      · have hmem' : SavesPair stored before → f ∉ stored.targets := fun h h' => hmem ⟨h, h'⟩
        rw [hpair.others f hmem']
        exact files_of_safe hsafe hs₀ hs (.inr henv) hwatched hne hmem'
    cases w.activeAfterRollback
    · exact hfiles
    · exact hfiles
  · rw [if_neg fun h => henv (hpair.envBackup.symm.trans h)] at hstatus ⊢
    by_cases hsome : s'.certBackup.isSome = true
    · rw [if_pos hsome]
      have hsaves : SavesPair stored before := by
        by_contra hsaves
        rw [hpair.certBackup, hs.certBackup, hs₀.unsaved hsaves] at hsome
        exact Bool.noConfusion hsome
      intro f hwatched
      by_cases hmem : f ∈ stored.targets
      · exact hpair.targets hsaves f hmem
      refine (hpair.others f fun _ => hmem).trans ?_
      by_cases hne : f = .envOverride
      · rw [hne]
        refine hs.override.resolve_right fun hwritten => henv (hwritten.2 ?_)
        exact (hsafe.withPair hsaves).override hwritten.1
      · exact files_of_safe hsafe hs₀ hs (.inl hsaves) hwatched hne fun _ => hmem
    · rw [if_neg hsome] at hstatus
      exact nomatch hstatus

end Rollback

end AlderpointDNS.Encryption
