import AlderpointDNS.Encryption.Exposed

/-!
# Which deployments a rollback undoes

A rollback that is recorded puts back the pair and the override, where they were copied.  Whatever
else a deployment may write, some deployment writes it and is then rolled back, and the file stays
as it was written.

* `left_of_restores` — where every rollback restores the files, what a deployment that raises may
  have written.
* `restores_generated`, `restores_dnscrypt`, `restores_conf`, … — one part of `SafeToRollBack` each.
* **`rollBack_restores_iff`** — every rollback restores the files exactly where this is safe.
* `override_left` — an override that was not there before is left behind.
-/

namespace AlderpointDNS.Encryption

open Text Program

/-- **Every deployment that is recorded as rolled back restores the watched files.** -/
def RollBackRestores (stored : EncryptionSettings) (before : Files) : Prop :=
  ∀ w : EncryptionWorld, w.CopiesSucceed → (deployEncryption w stored before).1 = .rolledBack →
    Restored before (deployEncryption w stored before).2.2

section Restores

variable {stored : EncryptionSettings} {before : Files} {caps : Capabilities}
  {stop : EncryptionStep} {op : FileOp} {outcome : WriteOutcome} {R : EncryptionState → Prop}

theorem calm_restoreOverride (h : Late stop op) {s : EncryptionState} {content : Str}
    (hcontent : s.files .envBackup = some content) :
    Triple (fun s' => s' = s) (restoreOverride (calmWorld before caps stop op outcome))
      (fun _ s' => ∀ f, f ≠ .envOverride → s'.files f = s.files f) (fun _ => False) := by
  refine triple_bind (triple_readFile_some content (by rintro s' rfl; exact hcontent)) fun c => ?_
  refine triple_bind (h.atomicWrite (by simp) ?_) fun _ => triple_bind (h.step (by simp)) fun _ =>
    triple_bind (h.step (by simp)) fun _ => h.step (by simp)
  rintro s' ⟨rfl, rfl⟩ f hf
  exact updated_of_ne s' hf

/-- What a deployment that raises may have written, where every rollback restores the files. -/
theorem left_of_restores (hrestores : RollBackRestores stored before) (h : Late stop op)
    (hattempt : Triple (fun s => s = ⟨before, none, false⟩)
      (attempt (calmWorld before caps stop op outcome) stored) (fun _ _ => False) R)
    (hrolls : ∀ s, R s → SavesPair stored before ∨ s.envBackup = true) :
    ∃ s, R s ∧ ∀ f, f.isWatched = true → (SavesPair stored before → f ∉ stored.targets) →
      (f = .envOverride → s.envBackup = false) → s.files f = before f := by
  have hcopies : (calmWorld before caps stop op outcome).CopiesSucceed := h.copies
  have hrestores := hrestores _ hcopies
  have hrun := triple_both (triple_attempt hcopies stored) hattempt _ ⟨rfl, rfl⟩
  rcases hend : attempt (calmWorld before caps stop op outcome) stored ⟨before, none, false⟩
    with ⟨message | _, s⟩
  swap
  · rw [hend] at hrun
    exact hrun.2.elim
  rw [hend] at hrun
  simp only [deployEncryption, hend] at hrestores
  obtain ⟨rfl | ⟨s₀, hs₀, hs⟩, hR⟩ := hrun
  · exact ⟨_, hR, fun _ _ _ _ => rfl⟩
  refine ⟨s, hR, fun f hwatched hf hoverride => ?_⟩
  have hpair := triple_restorePair hcopies hs₀ hs s rfl
  rcases hrun : restorePair (calmWorld before caps stop op outcome) s with ⟨_ | _, s'⟩
  · rw [hrun] at hpair
    exact hpair.elim
  rw [hrun] at hpair
  have hpair : PairRestored ((calmWorld before caps stop op outcome).enforced stored) before s s' :=
    hpair
  rw [← hpair.others f hf]
  simp only [rollBack, hrun] at hrestores
  by_cases henv : s.envBackup = true
  · rw [if_pos (hpair.envBackup.trans henv)] at hrestores
    obtain ⟨hbackup, hthere, -⟩ := hs.envBackup henv
    obtain ⟨content, hcontent⟩ := Option.ne_none_iff_exists'.mp hthere
    have hcopy : s'.files .envBackup = some content := by
      rw [hpair.others .envBackup fun _ hmem => Bool.noConfusion (isOwn_of_mem_targets hmem),
        hbackup, hcontent]
    have hback := (calm_restoreOverride h hcopy : Triple _ (restoreOverride
      (calmWorld before caps stop op outcome)) _ _) s' rfl
    rcases hrun' : restoreOverride (calmWorld before caps stop op outcome) s' with ⟨_ | _, t⟩
    · rw [hrun'] at hback
      exact hback.elim
    rw [hrun'] at hback hrestores
    rw [← hback f fun hne => Bool.noConfusion (henv.symm.trans (hoverride hne))]
    exact hrestores rfl f hwatched
  · rw [if_neg fun h => henv (hpair.envBackup.symm.trans h)] at hrestores
    have hsaves := (hrolls s hR).resolve_right henv
    have hsome : s'.certBackup.isSome = true := by
      rw [hpair.certBackup, hs.certBackup, (hs₀.saved hsaves).1]
      rfl
    rw [if_pos hsome] at hrestores
    exact hrestores rfl f hwatched

/-! ## A generated pair -/

theorem stop_attempt (h : Late .clearAction op) (hgenerates : stored.generates = true) :
    Triple (fun s => s = ⟨before, none, false⟩)
      (attempt (calmWorld before caps .clearAction op outcome) stored) (fun _ _ => False)
      (Issued stored before) := by
  refine triple_bind (h.step (by simp)) fun _ => triple_bind (triple_conseq
    (stop_prepareCertificates h rfl hgenerates) (fun _ => id) (fun _ _ => id) fun s hs => ?_)
    fun _ => triple_false
  exact ⟨hs.ca, hs.renewed⟩

/-- A file of the pair was there. -/
theorem notMem_targets (hsaves : SavesPair stored before) {f : EncryptionFile}
    (hf : before f = none) : f ∉ stored.targets := fun hmem => hsaves.2 f hmem hf

theorem restores_generated (hrestores : RollBackRestores stored before)
    (hsaves : SavesPair stored before) (hgenerates : stored.generates = true) :
    (.certDefault ∈ stored.targets ∧ .keyDefault ∈ stored.targets) ∧
      (stored.pendingCertAction = "generate_local_ca".toList → HasCa before) := by
  have hlate : Late .clearAction .conf := ⟨by simp, by simp⟩
  have hattempt : Triple (fun s => s = ⟨before, none, false⟩)
      (attempt (calmWorld before (onlyDnscrypt false) .clearAction .conf .done) stored)
      (fun _ _ => False) (Issued stored before) := stop_attempt hlate hgenerates
  obtain ⟨s, hs, hleft⟩ := left_of_restores hrestores hlate hattempt fun _ _ => .inl hsaves
  have hca : ∀ f, f.isWatched = true → f ≠ .envOverride → s.files f ≠ none → before f ≠ none := by
    intro f hwatched hne hthere hnone
    rw [hleft f hwatched (fun _ => notMem_targets hsaves hnone) fun heq => absurd heq hne] at hthere
    exact hthere hnone
  refine ⟨⟨?_, ?_⟩, fun hlocal => ⟨?_, ?_⟩⟩
  · by_contra hmem
    exact (hs.renewed hgenerates).1 (hleft .certDefault rfl (fun _ => hmem) nofun)
  · by_contra hmem
    exact (hs.renewed hgenerates).2 (hleft .keyDefault rfl (fun _ => hmem) nofun)
  · exact hca .caCert rfl nofun (hs.ca hlocal).1
  · exact hca .caKey rfl nofun (hs.ca hlocal).2

/-! ## DNSCrypt -/

theorem enforced_of_supported (henabled : stored.dnscryptEnabled = ['1']) :
    ((calmWorld before (onlyDnscrypt true) stop op outcome).enforced stored).dnscryptEnabled =
      ['1'] := by
  have hflag : (enforceCapability " for this deployment".toList "DNSCrypt".toList
      stored.dnscryptEnabled true).1 = ['1'] := by
    rw [enforceCapability, if_neg (by simp)]
    exact henabled
  exact hflag

theorem enforced_of_unsupported :
    ((calmWorld before (onlyDnscrypt false) stop op outcome).enforced stored).dnscryptEnabled ≠
      ['1'] := by
  intro henabled
  have hflag : (enforceCapability " for this deployment".toList "DNSCrypt".toList
      stored.dnscryptEnabled false).1 = ['1'] := henabled
  have hstored := enforceCapability_eq_one hflag
  rw [enforceCapability, if_pos ⟨hstored, rfl⟩] at hflag
  cases hflag

/-- The certificate is issued, and then the deployment raises. -/
theorem restores_dnscrypt (hrestores : RollBackRestores stored before)
    (hsaves : SavesPair stored before) (henabled : stored.dnscryptEnabled = ['1']) :
    HasDnscrypt before := by
  by_contra hdnscrypt
  have hlate : Late .readConf .conf := ⟨by simp, by simp⟩
  have hattempt : Triple (fun s => s = ⟨before, none, false⟩)
      (attempt (calmWorld before (onlyDnscrypt true) .readConf .conf .done) stored)
      (fun _ _ => False) fun s => s.files .dnscryptCert ≠ none ∧ s.files .dnscryptKey ≠ none := by
    refine calm_attempt hlate nofun (fun f hf => .inl (hsaves.2 f hf)) fun warnings changed _ => ?_
    refine triple_bind (triple_conseq (calm_issueDnscrypt hlate ?_ hdnscrypt rfl)
      (fun s hs => hs.unissued) (fun _ _ hs => hs) fun _ => id) fun p => ?_
    · exact enforced_of_supported henabled
    refine triple_bind (triple_bind (triple_conseq stop_step (fun s hs => ?_) (fun _ _ => id)
      fun _ => id) fun _ => triple_false) fun _ => triple_false
    exact ⟨hs.2.1.2, hs.2.2⟩
  obtain ⟨s, hs, hleft⟩ := left_of_restores hrestores hlate hattempt fun _ _ => .inl hsaves
  refine hdnscrypt ⟨fun hnone => hs.1 ?_, fun hnone => hs.2 ?_⟩
  · rw [hleft .dnscryptCert rfl (fun _ => notMem_targets hsaves hnone) nofun, hnone]
  · rw [hleft .dnscryptKey rfl (fun _ => notMem_targets hsaves hnone) nofun, hnone]

/-! ## dnsdist.conf -/

/-- The file of `calmWorld` that is written partway. -/
theorem partway_writeConf {w : EncryptionWorld} {content written : Str}
    {P : EncryptionState → Prop} (hpartway : w.writes op = .partway written []) :
    Triple P (writeFile w op .dnsdistConf content) (fun _ _ => False)
      fun s => s.files .dnsdistConf = some written := by
  rw [writeFile, hpartway]
  exact triple_bind (triple_putFile fun s _ => updated_self s) fun _ => triple_throw fun _ hs => hs

section Partway

variable {s₁ : EncryptionState}

theorem partway_ensureDnsdistConfParameterized {content written : Str}
    (hs₁ : Unmigrated before s₁)
    (hcontent : parameterized (before .dnsdistConf) (before .template) = .ok (some content)) :
    Triple (fun s => s = s₁) (ensureDnsdistConfParameterized
        (calmWorld before caps .daemonReload .conf (.partway written []))) (fun _ _ => False)
      fun s => s.files .dnsdistConf = some written := by
  refine triple_conseq (triple_parameterized rfl hs₁.template hcontent nofun fun content' _ => ?_)
    (by rintro s rfl; exact hs₁.migrated) (fun _ _ => id) fun _ => id
  exact triple_bind (calm_backUpConf nofun) fun _ => triple_bind (partway_writeConf rfl) fun _ =>
    triple_false

theorem partway_ensureDohAltsvcMigration {content note written : Str}
    (hs₁ : Unmigrated before s₁)
    (hcontent : altsvcMigrated (confParameterized before) (before .template) =
      .ok (some content, note)) :
    Triple (Migrated s₁ (confParameterized before)) (ensureDohAltsvcMigration
        (calmWorld before caps .daemonReload .altsvc (.partway written []))) (fun _ _ => False)
      fun s => s.files .dnsdistConf = some written := by
  refine triple_altsvc rfl hs₁.template hcontent (fun hnone => absurd hnone (by simp))
    fun content' _ => ?_
  cases hcurrent : confParameterized before with
  | none =>
      rw [hcurrent, altsvcMigrated] at hcontent
      cases hcontent
  | some current =>
      exact triple_bind (calm_copyConf (by simp) (by simp [lateFiles]) (by simp) (by simp)) fun _ =>
        triple_bind (partway_writeConf rfl) fun _ => triple_false

end Partway

/-- Where a migration writes dnsdist.conf, it may be written partway. -/
theorem restores_conf (hrestores : RollBackRestores stored before)
    (hsaves : SavesPair stored before) :
    .dnsdistConf ∈ stored.targets ∨ ¬MigrationWrites before := by
  by_contra hboth
  rw [not_or, not_not] at hboth
  obtain ⟨hmem, hwrites⟩ := hboth
  have hleft : ∀ op, Late .daemonReload op → ¬Triple (fun s => s = ⟨before, none, false⟩)
      (attempt (calmWorld before (onlyDnscrypt false) .daemonReload op
        (.partway (fresh before .dnsdistConf) [])) stored) (fun _ _ => False)
      fun s => s.files .dnsdistConf = some (fresh before .dnsdistConf) := by
    intro op hlate hattempt
    obtain ⟨s, hs, hleft⟩ := left_of_restores hrestores hlate hattempt fun _ _ => .inl hsaves
    rw [hleft .dnsdistConf rfl (fun _ => hmem) nofun] at hs
    exact fresh_ne before .dnsdistConf hs.symm
  have hpair : ∀ f ∈ stored.targets, before f ≠ none ∨ CertWrites stored before f :=
    fun f hf => .inl (hsaves.2 f hf)
  rcases hwrites with ⟨content, hcontent⟩ | ⟨hfirst, content, note, hcontent⟩
  · have hlate : Late .daemonReload .conf := ⟨by simp, by simp⟩
    refine hleft .conf hlate (calm_attempt hlate nofun hpair fun warnings changed _ => ?_)
    refine triple_bind (calm_skipDnscrypt enforced_of_unsupported) fun p s₁ hs₁ => ?_
    exact triple_bind (partway_ensureDnsdistConfParameterized hs₁.2.unissued.unmigrated hcontent)
      (fun _ => triple_false) s₁ rfl
  · have hlate : Late .daemonReload .altsvc := ⟨by simp, by simp⟩
    refine hleft .altsvc hlate (calm_attempt hlate nofun hpair fun warnings changed _ => ?_)
    refine triple_bind (calm_skipDnscrypt enforced_of_unsupported) fun p s₁ hs₁ => ?_
    have hun := hs₁.2.unissued.unmigrated
    refine (?_ : Triple (Migrated s₁ (before .dnsdistConf)) _ _ _) s₁ hun.migrated
    refine triple_bind (calm_ensureDnsdistConfParameterized nofun nofun rfl hun.template hfirst)
      fun confChanged => triple_and fun _ => ?_
    exact triple_bind (partway_ensureDohAltsvcMigration hun hcontent) fun _ => triple_false

/-! ## The override -/

/-- What a deployment may have written that raises after the override. -/
theorem overridden_of_restores (hrestores : RollBackRestores stored before)
    (h : Late .daemonReload op)
    (hconf : (calmWorld before caps .daemonReload op outcome).writes .conf = .done)
    (haltsvc : (calmWorld before caps .daemonReload op outcome).writes .altsvc = .done)
    (hcompletes : Completes stored before)
    (hrolls : SavesPair stored before ∨ before .envOverride ≠ none)
    {cfg : EncryptionSettings} {D : EncryptionState → Prop} (hD : ∀ s, D s → Unmigrated before s)
    (hdnscrypt : ∀ E, Triple
      (Ready ((calmWorld before caps .daemonReload op outcome).enforced stored) before)
      (issueDnscrypt (calmWorld before caps .daemonReload op outcome)
        ((calmWorld before caps .daemonReload op outcome).enforced stored))
      (fun p s => p.1 = cfg ∧ D s) E)
    (hchanged : renderEnvOverride cfg = (before .envOverride).getD [] →
      confMigrated before = before .dnsdistConf → stored.generates = true ∨
        (stored.certMode = "uploaded".toList ∧ HasUpload before)) :
    ∃ s₁ s, D s₁ ∧ Overridden s₁ (confMigrated before) s ∧ ∀ f, f.isWatched = true →
      (SavesPair stored before → f ∉ stored.targets) →
        (f = .envOverride → before .envOverride = none) → s.files f = before f := by
  have henv : ∀ s₁ s, D s₁ → Overridden s₁ (confMigrated before) s →
      s.envBackup = (before .envOverride).isSome := by
    intro s₁ s hs₁ hs
    rw [hs.saved.envBackup, (hD s₁ hs₁).override]
  have hattempt := calm_attempt h nofun hcompletes.pair fun warnings changed hiff =>
    calm_deployConfiguration h hconf haltsvc hcompletes hD (hdnscrypt _)
      (fun hsame => Bool.eq_false_iff.mp hsame.2.2 (hiff.mpr (hchanged hsame.1 hsame.2.1))) warnings
  have hrolls' : ∀ s, (∃ s₁, D s₁ ∧ Overridden s₁ (confMigrated before) s) →
      SavesPair stored before ∨ s.envBackup = true := by
    rintro s ⟨s₁, hs₁, hs⟩
    refine hrolls.imp_right fun hthere => ?_
    rw [henv s₁ s hs₁ hs]
    exact Option.isSome_iff_ne_none.mpr hthere
  obtain ⟨s, ⟨s₁, hs₁, hs⟩, hleft⟩ := left_of_restores hrestores h hattempt hrolls'
  refine ⟨s₁, s, hs₁, hs, fun f hwatched hf hoverride => hleft f hwatched hf fun heq => ?_⟩
  rw [henv s₁ s hs₁ hs, hoverride heq]
  rfl

theorem renderEnvOverride_ne_nil (cfg : EncryptionSettings) : renderEnvOverride cfg ≠ [] :=
  List.append_ne_nil_of_right_ne_nil _ (List.cons_ne_nil _ _)

/-- What is written without DNSCrypt. -/
theorem ready_of_restores (hrestores : RollBackRestores stored before)
    (hcompletes : Completes stored before)
    (hrolls : SavesPair stored before ∨ before .envOverride ≠ none)
    (hchanged : before .envOverride = none ∨ confMigrated before ≠ before .dnsdistConf ∨
      stored.generates = true ∨ (stored.certMode = "uploaded".toList ∧ HasUpload before)) :
    ∃ s₁ s, Prepared stored before s₁ ∧ Overridden s₁ (confMigrated before) s ∧
      ∀ f, f.isWatched = true → (SavesPair stored before → f ∉ stored.targets) →
        (f = .envOverride → before .envOverride = none) → s.files f = before f := by
  have hlate : Late .daemonReload .conf := ⟨by simp, by simp⟩
  have hdone : (calmWorld before (onlyDnscrypt false) .daemonReload .conf .done).writes .conf =
      .done := rfl
  have hchanged' : ∀ cfg, renderEnvOverride cfg = (before .envOverride).getD [] →
      confMigrated before = before .dnsdistConf → stored.generates = true ∨
        (stored.certMode = "uploaded".toList ∧ HasUpload before) := by
    intro cfg hsame hconf
    refine (hchanged.resolve_left fun hnone => ?_).resolve_left fun hne => hne hconf
    rw [hnone] at hsame
    exact renderEnvOverride_ne_nil cfg hsame
  obtain ⟨s₁, s, hs₁, hs⟩ := overridden_of_restores hrestores hlate hdone rfl hcompletes hrolls
    (fun s₁ hs₁ => hs₁.unissued.unmigrated) (fun E => triple_conseq
      (calm_skipDnscrypt enforced_of_unsupported) (fun s hs => hs)
      (fun p s hs => ⟨congrArg (·.1) hs.1, hs.2⟩) fun _ => id) (hchanged' _)
  refine ⟨s₁, s, ⟨fun f hf hw => hs₁.prepared.made f hf (hw.imp_right fun hwrites => ?_),
    hs₁.prepared.issued.ca, hs₁.prepared.issued.renewed⟩, hs⟩
  exact (certWrites_enforceCapabilities stored _ _).symm ▸ hwrites

theorem restores_override (hrestores : RollBackRestores stored before)
    (hsaves : SavesPair stored before) (hcompletes : Completes stored before) :
    before .envOverride ≠ none := by
  intro hnone
  obtain ⟨_, s, _, hs, hleft⟩ := ready_of_restores hrestores hcompletes (.inl hsaves) (.inl hnone)
  refine hs.override ?_
  rw [hleft .envOverride rfl (fun _ => notMem_targets hsaves hnone) fun _ => hnone, hnone]

/-! ## Without a copy of the pair -/

theorem join_cancel_left {sep line next next' : Str} {lines lines' : List Str}
    (h : join sep (line :: next :: lines) = join sep (line :: next' :: lines')) :
    join sep (next :: lines) = join sep (next' :: lines') := by
  simpa [join, List.intercalate_cons_cons] using h

theorem join_cancel_right {sep line line' next : Str} {lines : List Str}
    (h : join sep (line :: next :: lines) = join sep (line' :: next :: lines)) : line = line' := by
  simpa [join, List.intercalate_cons_cons] using h

/-- The override shows whether DNSCrypt is enabled. -/
theorem renderEnvOverride_ne {cfg : EncryptionSettings} (henabled : cfg.dnscryptEnabled = ['1']) :
    renderEnvOverride { cfg with dnscryptEnabled := ['0'] } ≠ renderEnvOverride cfg := by
  intro hsame
  have hlines := List.append_cancel_right hsame
  -- the lines before the one of DNSCrypt
  iterate 8 replace hlines := join_cancel_left hlines
  have hline := List.append_cancel_left (join_cancel_right hlines)
  rw [henabled] at hline
  cases hline

section WithoutPair

variable (hrestores : RollBackRestores stored before) (hsaves : ¬SavesPair stored before)
  (hthere : before .envOverride ≠ none) (hcompletes : Completes stored before)

include hrestores hsaves hthere hcompletes

/-- What no deployment that may be rolled back has written. -/
theorem unchanged_of_restores (hchanged : confMigrated before ≠ before .dnsdistConf ∨
      stored.generates = true ∨ (stored.certMode = "uploaded".toList ∧ HasUpload before)) :
    ∃ s₁, Prepared stored before s₁ ∧ confMigrated before = before .dnsdistConf ∧
      ∀ f, f.isWatched = true → f ∉ lateFiles → s₁.files f = before f := by
  obtain ⟨s₁, s, hs₁, hs, hleft⟩ := ready_of_restores hrestores hcompletes (.inr hthere)
    (.inr hchanged)
  have hsame : ∀ f, f.isWatched = true → f ≠ .envOverride → s.files f = before f :=
    fun f hwatched hne => hleft f hwatched (fun h => absurd h hsaves) fun heq => absurd heq hne
  refine ⟨s₁, hs₁, ?_, fun f hwatched hf => ?_⟩
  · rw [← hs.saved.conf, hsame .dnsdistConf rfl nofun]
  · rw [← hs.saved.others f hf]
    exact hsame f hwatched fun heq => hf (by rw [heq]; simp [lateFiles])

theorem restores_conf_same : confMigrated before = before .dnsdistConf := by
  by_contra hne
  obtain ⟨-, -, hsame, -⟩ := unchanged_of_restores hrestores hsaves hthere hcompletes (.inl hne)
  exact hne hsame

theorem restores_not_generates : stored.generates = false := by
  by_contra hgenerates
  rw [Bool.not_eq_false] at hgenerates
  obtain ⟨s₁, hs₁, -, hsame⟩ := unchanged_of_restores hrestores hsaves hthere hcompletes
    (.inr (.inl hgenerates))
  exact (hs₁.issued.renewed hgenerates).1 (hsame .certDefault rfl (by simp [lateFiles]))

theorem restores_not_uploaded : stored.certMode ≠ "uploaded".toList := by
  intro hmode
  have hmissing : ∃ f ∈ stored.targets, before f = none := by
    by_contra hall
    push Not at hall
    exact hsaves ⟨.inr hmode, hall⟩
  obtain ⟨f, hf, hnone⟩ := hmissing
  have hwrites := (hcompletes.pair f hf).resolve_left fun hne => hne hnone
  have hfile : f = .uploadedCert ∨ f = .uploadedKey := by
    rw [targets_of_uploaded hmode] at hf
    exact List.mem_pair.mp hf
  have hupload : HasUpload before := by
    rcases hfile with rfl | rfl
    · exact hwrites.2
    · exact hwrites.2
  obtain ⟨s₁, hs₁, -, hsame⟩ := unchanged_of_restores hrestores hsaves hthere hcompletes
    (.inr (.inr ⟨hmode, hupload⟩))
  refine hs₁.made f hf (.inr hwrites) ?_
  rcases hfile with rfl | rfl
  · rw [hsame .uploadedCert rfl (by simp [lateFiles]), hnone]
  · rw [hsame .uploadedKey rfl (by simp [lateFiles]), hnone]

/-- The certificate is issued, or disabled after half of it is written; one of the two changes the
override. -/
theorem restores_dnscrypt_same (henabled : stored.dnscryptEnabled = ['1']) :
    HasDnscrypt before := by
  by_contra hdnscrypt
  have hlate : Late .daemonReload .dnscryptKey := ⟨by simp, by simp⟩
  have hdone : ∀ outcome, (calmWorld before (onlyDnscrypt true) .daemonReload .dnscryptKey
      outcome).writes .conf = .done := fun _ => rfl
  have hsame : ∀ {s₁ s}, Overridden s₁ (confMigrated before) s → (∀ f, f.isWatched = true →
      (SavesPair stored before → f ∉ stored.targets) →
        (f = .envOverride → before .envOverride = none) → s.files f = before f) →
      ∀ f, f.isWatched = true → f ∉ lateFiles → s₁.files f = before f := by
    intro s₁ s hs hleft f hwatched hf
    rw [← hs.saved.others f hf]
    refine hleft f hwatched (fun h => absurd h hsaves) fun heq => absurd ?_ hf
    rw [heq]
    simp [lateFiles]
  have htext : ∀ outcome, ((calmWorld before (onlyDnscrypt true) .daemonReload .dnscryptKey
      outcome).enforced stored).dnscryptEnabled = ['1'] := fun outcome =>
    enforced_of_supported henabled
  by_cases htexts : renderEnvOverride ((calmWorld before (onlyDnscrypt true) .daemonReload
      .dnscryptKey .done).enforced stored) = (before .envOverride).getD []
  · -- the text of the deployment that disables DNSCrypt is another one
    have hother := renderEnvOverride_ne (htext (.refused []))
    obtain ⟨s₁, s, hs₁, hs, hleft⟩ := overridden_of_restores hrestores hlate
      (hdone (.refused [])) rfl hcompletes (.inr hthere)
      (fun s hs => Reissued.unmigrated hs) (fun E => triple_conseq (refused_issueDnscrypt hlate
        (htext _) hdnscrypt rfl) (fun s hs => hs.unissued) (fun _ _ hs => hs) fun _ => id)
      fun hsame => absurd (hsame.trans htexts.symm) hother
    exact hs₁.cert (hsame hs hleft .dnscryptCert rfl (by simp [lateFiles]))
  · obtain ⟨s₁, s, hs₁, hs, hleft⟩ := overridden_of_restores hrestores hlate
      (hdone .done) rfl hcompletes (.inr hthere)
      (fun s hs => hs.1.1.unmigrated) (fun E => triple_conseq (calm_issueDnscrypt hlate (htext _)
        hdnscrypt rfl) (fun s hs => hs.unissued) (fun p s hs => ⟨congrArg (·.1) hs.1, hs.2⟩)
        fun _ => id) fun hsame => absurd hsame htexts
    refine hdnscrypt ⟨?_, ?_⟩
    · rw [← hsame hs hleft .dnscryptCert rfl (by simp [lateFiles])]
      exact hs₁.1.2
    · rw [← hsame hs hleft .dnscryptKey rfl (by simp [lateFiles])]
      exact hs₁.2

end WithoutPair

/-! ## The condition -/

/-- What the installed dnsdist does not support only takes something away. -/
theorem SafeToRollBack.enforced (hsafe : SafeToRollBack stored before) (w : EncryptionWorld) :
    SafeToRollBack (w.enforced stored) before := by
  have hcompletes : Completes (w.enforced stored) before → Completes stored before := by
    intro h
    refine ⟨fun f hf => (h.pair f hf).imp_right fun hwrites => ?_, h.parameterized, h.altsvc⟩
    rwa [EncryptionWorld.enforced, certWrites_enforceCapabilities] at hwrites
  refine ⟨fun hsaves => ?_, fun hsaves hthere h => ?_⟩
  · have hpair := hsafe.withPair hsaves
    exact ⟨hpair.pair, hpair.ca, fun henabled => hpair.dnscrypt (enforceCapability_eq_one henabled),
      hpair.conf, fun h => hpair.override (hcompletes h)⟩
  · have hwithout := hsafe.withoutPair hsaves hthere (hcompletes h)
    exact ⟨hwithout.generates, hwithout.uploaded,
      fun henabled => hwithout.dnscrypt (enforceCapability_eq_one henabled), hwithout.conf⟩

/-- A deployment that does not raise is not rolled back. -/
theorem triple_attempt_status (w : EncryptionWorld) (stored : EncryptionSettings) :
    Triple (fun _ => True) (attempt w stored) (fun r _ => r.1 ≠ .rolledBack) (fun _ => True) := by
  refine triple_bind triple_true fun _ => triple_bind triple_true fun _ => ?_
  refine triple_bind triple_true fun _ => triple_bind triple_true fun _ =>
    triple_bind triple_true fun _ => triple_bind triple_true fun _ =>
    triple_bind triple_true fun _ => triple_ite (fun _ => triple_pure fun _ _ => nofun) fun _ => ?_
  refine triple_bind triple_true fun _ => triple_bind triple_true fun _ => ?_
  refine triple_bind triple_true fun _ => triple_bind triple_true fun _ =>
    triple_bind triple_true fun _ => triple_bind triple_true fun _ =>
    triple_ite (fun _ => ?_) fun _ => triple_throw fun _ _ => trivial
  refine triple_bind triple_true fun _ => triple_ite (fun _ => ?_) fun _ => ?_
  · exact triple_pure fun _ _ => nofun
  · exact triple_throw fun _ _ => trivial

/-- **Every rollback restores the files exactly where this is safe.** -/
theorem rollBack_restores_iff (stored : EncryptionSettings) (before : Files) :
    RollBackRestores stored before ↔ SafeToRollBack stored before := by
  constructor
  · intro hrestores
    refine ⟨fun hsaves => ⟨?_, ?_, ?_, ?_, ?_⟩, fun hsaves hthere hcompletes => ⟨?_, ?_, ?_, ?_⟩⟩
    · exact fun hgenerates => (restores_generated hrestores hsaves hgenerates).1
    · intro hlocal
      exact (restores_generated hrestores hsaves (generates_of_localCa hlocal)).2 hlocal
    · exact restores_dnscrypt hrestores hsaves
    · exact restores_conf hrestores hsaves
    · exact restores_override hrestores hsaves
    · exact restores_not_generates hrestores hsaves hthere hcompletes
    · exact restores_not_uploaded hrestores hsaves hthere hcompletes
    · exact restores_dnscrypt_same hrestores hsaves hthere hcompletes
    · exact restores_conf_same hrestores hsaves hthere hcompletes
  · intro hsafe w hcopies hstatus
    have hrun := (triple_attempt hcopies stored : Triple
      (fun s => s = (⟨before, none, false⟩ : EncryptionState)) _ _ _) _ rfl
    rcases hend : attempt w stored ⟨before, none, false⟩ with ⟨message | ⟨status, message⟩, s⟩
    · rw [hend] at hrun
      simp only [deployEncryption, hend] at hstatus ⊢
      obtain rfl | ⟨s₀, hs₀, hs⟩ := hrun
      · -- nothing has been written before the first statement raises
        cases hstatus
      · exact restored_of_safe hcopies (hsafe.enforced w) hs₀ hs hstatus
    · have hnot := triple_attempt_status w stored ⟨before, none, false⟩ trivial
      rw [hend] at hnot
      simp only [deployEncryption, hend] at hstatus
      exact absurd hstatus hnot

end Restores

/-! ## An override that is left behind -/

/-- A self-signed certificate is to be generated again. -/
def regenerating : EncryptionSettings where
  serverHostname := "dns.lan".toList
  bootstrapIp := "192.168.1.2".toList
  listenIpv4 := "0.0.0.0".toList
  listenIpv6 := []
  dohEnabled := ['1']
  doh3Enabled := ['0']
  dotEnabled := ['1']
  doqEnabled := ['0']
  dnscryptEnabled := ['0']
  dohPath := "/dns-query".toList
  dohPort := "443".toList
  doh3Port := "443".toList
  dotPort := "853".toList
  doqPort := "853".toList
  dnscryptPort := "8443".toList
  dnscryptProvider := []
  certMode := "self_signed".toList
  certPath := []
  keyPath := []
  pendingCertAction := "generate_self_signed".toList

/-- The pair is there, dnsdist.conf is current, and there is no override yet. -/
def installed : Files
  | .certDefault | .keyDefault => some ['x']
  | .dnsdistConf =>
      some (migrationMarker ++ "ALDERPOINTDNS_DNS_LISTEN_IPV4".toList ++ dohAltsvcMarkerBegin)
  | _ => none

/-- `systemctl daemon-reload` raises. -/
def reloadFails : EncryptionWorld :=
  calmWorld installed ⟨true, true, false, false, false⟩ .daemonReload .conf .done

/-- **An override that was not there before is left behind.** -/
theorem override_left :
    reloadFails.CopiesSucceed ∧
      (deployEncryption reloadFails regenerating installed).1 = .rolledBack ∧
      ¬Restored installed (deployEncryption reloadFails regenerating installed).2.2 := by
  have hrun : (deployEncryption reloadFails regenerating installed).1 = .rolledBack ∧
      (deployEncryption reloadFails regenerating installed).2.2 .envOverride ≠ none := by
    decide +kernel
  exact ⟨calm_copies (by simp), hrun.1, fun hrestored => hrun.2 (hrestored .envOverride rfl)⟩

end AlderpointDNS.Encryption
