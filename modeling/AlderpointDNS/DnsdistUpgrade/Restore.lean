import AlderpointDNS.DnsdistUpgrade.Install

/-!
# What a failed upgrade leaves behind

A failure is handled, and the backup brought back, only if it is an `UpgradeError`.  Each function
of the upgrade turns some of the ways in which its command can end into one, and lets the others
out: `Event.translated` says which.

* **`classified_perform`** — a step fails with an `UpgradeError` exactly if it has looked into what
  was run, read or written last.
* **`failed_upgrade_restores_iff`** — when the configuration is as it was backed up after a failure.
* `slow_check_leaves_configuration` — which it need not be.
-/

namespace AlderpointDNS.DnsdistUpgrade

open Text Program Archive

/-! ## Which failures are handled -/

def Raised.isUpgrade : Raised → Bool
  | .upgrade _ => true
  | _ => false

/-- What is reported as an `UpgradeError` when a function stops there: a result of its command that
it looks into, and those exceptions of `subprocess.run` that it catches. -/
def Event.translated : Event → Bool
  | .file _ ok => ok
  | .ran .showKeys (.finished code output) => code ≠ 0 || (fingerprints output).isSome
  | .ran _ (.finished ..) => true
  | .ran _ .undecodable => false
  | .ran .curl .timedOut => true
  | .ran .aptUpdate .timedOut => true
  | .ran .aptInstall .timedOut => true
  | .ran _ .timedOut => false
  | .ran .curl .failedToRun => false
  | .ran .aptUpdate .failedToRun => false
  | .ran .aptInstall .failedToRun => false
  | .ran .restart .failedToRun => false
  | .ran (.isActive _) .failedToRun => false
  | .ran _ .failedToRun => true

section Classified

variable {β α : Type}

/-- The last thing that was run, read or written is such an event. -/
def Translated (s : State β) : Prop := ∃ e ∈ s.log.getLast?, e.translated = true

/-- The last event is `e`. -/
def After (e : Event) (s : State β) : Prop := s.log.getLast? = some e

theorem translated_iff {e : Event} {s : State β} (h : After e s) :
    Translated s ↔ e.translated = true := by
  simp [Translated, show s.log.getLast? = some e from h]

/-- A function goes on only after an event that it has no objections to, and fails with an
`UpgradeError` exactly if it has looked into the last event. -/
def Classified (P : State β → Prop) (x : UpgradeM β α) : Prop :=
  Ends P x (fun _ => Translated) fun raised s => raised.isUpgrade = true ↔ Translated s

variable (w : World β)

theorem ends_run {P : State β → Prop} {F : Raised → State β → Prop} (command : Command) :
    Ends P (run w command) (fun outcome => After (.ran command outcome)) F :=
  ends_modifyGet fun _ _ => List.getLast?_concat ..

/-- A command, and what is made of its outcome. -/
theorem classified_run {P : State β → Prop} {command : Command} {f : Outcome → UpgradeM β α}
    (h : ∀ outcome, Classified (After (.ran command outcome)) (f outcome)) :
    Classified P (run w command >>= f) :=
  ends_bind (ends_run w command) h

/-- One classified function after another. -/
theorem classified_bind {P : State β → Prop} {γ : Type} {x : UpgradeM β α}
    {f : α → UpgradeM β γ} (hx : Classified P x) (hf : ∀ a, Classified Translated (f a)) :
    Classified P (x >>= f) :=
  ends_bind hx hf

theorem classified_pure {e : Event} {a : α} (h : e.translated = true) :
    Classified (β := β) (After e) (pure a) :=
  ends_pure fun _ hs => (translated_iff hs).mpr h

theorem classified_throw {e : Event} {raised : Raised} {Q : α → State β → Prop}
    (h : raised.isUpgrade = e.translated) : Ends (After e) (throw raised : UpgradeM β α) Q
      fun raised s => raised.isUpgrade = true ↔ Translated s :=
  ends_throw fun _ hs => by rw [translated_iff hs, h]

/-- A step that does not fail and leaves the record alone. -/
theorem ends_modifyGet_log {e : Event} {F : Raised → State β → Prop}
    {f : State β → α × State β} (h : ∀ s, (f s).2.log = s.log) :
    Ends (After e) (modifyGet f : UpgradeM β α) (fun _ => After e) F :=
  ends_modifyGet fun s hs => (congrArg List.getLast? (h s)).trans hs

/-- What is made of an outcome is an exception, and an `UpgradeError` if the outcome is looked
into. -/
def Throws (command : Command) (f : Outcome → UpgradeM β α) (outcome : Outcome) : Prop :=
  ∃ raised, f outcome = throw raised ∧
    raised.isUpgrade = Event.translated (.ran command outcome)

variable {P : State β → Prop}

/-- A command that has to end. -/
theorem classified_finished {command : Command} {f : Outcome → UpgradeM β α}
    (htimedOut : Throws command f .timedOut) (hfailedToRun : Throws command f .failedToRun)
    (hundecodable : Throws command f .undecodable)
    (h : ∀ code output,
      Classified (After (.ran command (.finished code output))) (f (.finished code output))) :
    Classified P (run w command >>= f) := by
  have hthrow : ∀ outcome, Throws command f outcome →
      Classified (After (.ran command outcome)) (f outcome) := by
    rintro outcome ⟨raised, heq, hraised⟩
    rw [heq]
    exact classified_throw hraised
  refine classified_run w fun outcome => ?_
  cases outcome with
  | finished code output => exact h code output
  | timedOut => exact hthrow _ htimedOut
  | failedToRun => exact hthrow _ hfailedToRun
  | undecodable => exact hthrow _ hundecodable

/-- An access to a file, and what is done then. -/
theorem classified_access {op : FileOp} {effect : Disk Str β → Option (Disk Str β)}
    {f : Unit → UpgradeM β α} (h : ∀ a, Classified (After (.file op true)) (f a)) :
    Classified P (access w op effect >>= f) := by
  refine ends_bind (ends_bind (Q := fun ok => After (.file op ok)) ?_ fun ok => ?_) h
  · refine ends_modifyGet fun s _ => ?_
    cases if w.accessible s.log op then effect s.disk else none with
    | none => exact List.getLast?_concat ..
    | some disk => exact List.getLast?_concat ..
  · cases ok with
    | true => exact ends_pure fun _ hs => hs
    | false => exact classified_throw rfl

/-! ## Each step -/

theorem classified_dnsdistCapabilities : Classified P (dnsdistCapabilities w) := by
  refine classified_run w fun outcome => ?_
  cases outcome with
  | finished code output => exact classified_pure rfl
  | timedOut => exact classified_throw rfl
  | failedToRun => exact classified_pure rfl
  | undecodable => exact classified_throw rfl

theorem classified_downloadSigningKey : Classified P (downloadSigningKey w) := by
  refine classified_finished w ⟨_, rfl, rfl⟩ ⟨_, rfl, rfl⟩ ⟨_, rfl, rfl⟩ fun code output => ?_
  refine ends_ite (fun _ => classified_throw rfl) fun _ => ?_
  refine ends_bind (ends_modifyGet_log fun _ => rfl) fun key => ?_
  cases key with
  | none => exact classified_throw rfl
  | some content =>
      exact ends_ite (fun _ => classified_throw rfl) fun _ => classified_pure rfl

theorem classified_verifySigningKey (expectedFingerprint : Str) :
    Classified P (verifySigningKey w expectedFingerprint) := by
  refine classified_access w fun _ => ?_
  refine ends_bind (ends_modifyGet_log fun _ => rfl) fun s => ?_
  refine ends_ite (fun _ => classified_throw rfl) fun _ => ?_
  refine classified_finished w ⟨_, rfl, rfl⟩ ⟨_, rfl, rfl⟩ ⟨_, rfl, rfl⟩ fun code output => ?_
  refine ends_ite (fun hcode => classified_throw ?_) fun hcode => ?_
  · simp [Event.translated, Raised.isUpgrade, hcode]
  · have hzero : code = 0 := not_not.mp hcode
    cases hgot : fingerprints output with
    | none => exact classified_throw (by simp [Event.translated, Raised.isUpgrade, hzero, hgot])
    | some got =>
        have htrue : Event.translated (.ran .showKeys (.finished code output)) = true := by
          simp [Event.translated, hgot]
        cases got with
        | nil => exact classified_throw htrue.symm
        | cons x xs =>
            exact ends_ite (fun _ => classified_throw htrue.symm) fun _ => classified_pure htrue

theorem classified_atomicWrite [DecidableEq β] (op : FileOp) (path : Path) (content : β) :
    Classified P (atomicWrite w op path content) := by
  rw [← bind_pure (atomicWrite w op path content)]
  exact classified_access w fun _ => classified_pure rfl

theorem classified_installKeyring [DecidableEq β] : Classified P (installKeyring w) := by
  refine classified_access w fun _ => ?_
  refine ends_bind (ends_modifyGet_log fun _ => rfl) fun s => ?_
  exact classified_atomicWrite w _ _ _

theorem classified_writeAptSources [DecidableEq β] : Classified P (writeAptSources w) :=
  classified_bind (classified_atomicWrite w _ _ _) fun _ => classified_atomicWrite w _ _ _

theorem classified_aptUpdate : Classified P (aptUpdate w) := by
  refine classified_finished w ⟨_, rfl, rfl⟩ ⟨_, rfl, rfl⟩ ⟨_, rfl, rfl⟩ fun code output => ?_
  exact ends_ite (fun _ => classified_throw rfl) fun _ => classified_pure rfl

theorem classified_aptPolicyCandidate : Classified P (aptPolicyCandidate w) := by
  refine classified_finished w ⟨_, rfl, rfl⟩ ⟨_, rfl, rfl⟩ ⟨_, rfl, rfl⟩ fun code output => ?_
  dsimp only
  cases (lineStarts output).findSome? candidateAt with
  | none => exact classified_throw rfl
  | some candidate =>
      refine ends_ite (fun _ => classified_throw rfl) fun _ => ?_
      exact ends_ite (fun _ => classified_throw rfl) fun _ => classified_pure rfl

theorem classified_simulateInstall : Classified P (simulateInstall w) := by
  refine classified_finished w ⟨_, rfl, rfl⟩ ⟨_, rfl, rfl⟩ ⟨_, rfl, rfl⟩ fun code output => ?_
  refine ends_ite (fun _ => classified_throw rfl) fun _ => ?_
  exact ends_ite (fun _ => classified_throw rfl) fun _ => classified_pure rfl

theorem classified_aptInstall : Classified P (aptInstall w) := by
  refine classified_finished w ⟨_, rfl, rfl⟩ ⟨_, rfl, rfl⟩ ⟨_, rfl, rfl⟩ fun code output => ?_
  exact ends_ite (fun _ => classified_throw rfl) fun _ => classified_pure rfl

/-- The version is asked for last. -/
theorem classified_checkCapabilities : Classified P (checkCapabilities w) := by
  refine classified_bind (classified_dnsdistCapabilities w) fun capabilities => ?_
  rw [dnsdistVersion, bind_assoc]
  refine classified_run w fun outcome => ?_
  have hend : ∀ (version : Str) {e : Event}, e.translated = true →
      Classified (After e) (do
        modify fun s : State β => { s with report :=
          { s.report with capabilitiesAfter := capabilities, versionAfter := version } }
        if hasRequiredCapabilities capabilities then pure ()
        else throw (Raised.upgrade (.missingCapabilities version capabilities))) := by
    intro version e he
    refine ends_bind (ends_modifyGet_log fun _ => rfl) fun _ => ?_
    exact ends_ite (fun _ => classified_pure he) fun _ => classified_throw he.symm
  cases outcome with
  | finished code output => exact hend _ rfl
  | timedOut => exact classified_throw rfl
  | failedToRun => exact hend _ rfl
  | undecodable => exact classified_throw rfl

theorem classified_checkConfig : Classified P (checkConfig w) := by
  refine classified_finished w ⟨_, rfl, rfl⟩ ⟨_, rfl, rfl⟩ ⟨_, rfl, rfl⟩ fun code output => ?_
  exact ends_ite (fun _ => classified_throw rfl) fun _ => classified_pure rfl

theorem classified_inactiveServices (services : List Str) :
    Classified Translated (inactiveServices w services) := by
  induction services with
  | nil => exact ends_pure fun _ hs => hs
  | cons service services ih =>
      refine classified_finished w ⟨_, rfl, rfl⟩ ⟨_, rfl, rfl⟩ ⟨_, rfl, rfl⟩ fun code output => ?_
      refine ends_bind (ends_weaken ih fun _ hs => (translated_iff hs).mpr rfl) fun failed => ?_
      exact ends_pure fun _ hs => hs

/-- By induction on how often the services are looked at. -/
theorem classified_awaitServices (n : ℕ) (failed : List Str) :
    Classified Translated (awaitServices w n failed) := by
  induction n generalizing failed with
  | zero => exact ends_throw fun _ hs => iff_of_true rfl hs
  | succ n ih =>
      refine classified_bind (classified_inactiveServices w requiredServices) fun failed => ?_
      exact ends_ite (fun _ => ends_pure fun _ hs => hs) fun _ => ih failed

theorem classified_restart : Classified P (restartDnsdistAndVerifyServices w) := by
  refine classified_finished w ⟨_, rfl, rfl⟩ ⟨_, rfl, rfl⟩ ⟨_, rfl, rfl⟩ fun code output => ?_
  refine ends_ite (fun _ => classified_throw rfl) fun _ => ?_
  refine ends_bind (ends_modifyGet_log fun _ => rfl) fun s => ?_
  exact ends_weaken (classified_awaitServices w _ []) fun _ hs => (translated_iff hs).mpr rfl

theorem classified_baselineDnsTest : Classified P (baselineDnsTest w) := by
  refine classified_finished w ⟨_, rfl, rfl⟩ ⟨_, rfl, rfl⟩ ⟨_, rfl, rfl⟩ fun code output => ?_
  exact ends_ite (fun _ => classified_throw rfl) fun _ => classified_pure rfl

/-- **Each step fails with an `UpgradeError` exactly if it has looked into the last event.** -/
theorem classified_perform [DecidableEq β] (expectedFingerprint : Str) (step : Step) :
    Classified P (perform w expectedFingerprint step) := by
  cases step with
  | downloadSigningKey => exact classified_downloadSigningKey w
  | verifySigningKey => exact classified_verifySigningKey w expectedFingerprint
  | installKeyring => exact classified_installKeyring w
  | writeAptSources => exact classified_writeAptSources w
  | aptUpdate => exact classified_aptUpdate w
  | aptPolicyCandidate =>
      exact classified_bind (classified_aptPolicyCandidate w) fun _ => ends_pure fun _ hs => hs
  | simulateInstall =>
      exact classified_bind (classified_simulateInstall w) fun _ => ends_pure fun _ hs => hs
  | aptInstall => exact classified_aptInstall w
  | checkCapabilities => exact classified_checkCapabilities w
  | checkConfig => exact classified_checkConfig w
  | restartDnsdistAndVerifyServices => exact classified_restart w
  | baselineDnsTest => exact classified_baselineDnsTest w

end Classified

/-! ## The backup -/

section Backup

variable {β : Type}

/-- The members of an archive are what stands on the disk. -/
theorem of_archiveOf (disk : Disk Str β) (source : Path) : Of disk (archiveOf disk source) := by
  intro m hm
  obtain ⟨p, -, hp⟩ := List.mem_filterMap.mp hm
  obtain ⟨entry, hentry, rfl⟩ := Option.map_eq_some_iff.mp hp
  exact hentry

/-- After the preparation the archive is that of the disk. -/
theorem ends_prepare [DecidableEq β] (w : World β) {P : State β → Prop}
    {F : Raised → State β → Prop} (hF : ∀ raised s, F raised s) :
    Ends P (prepare w) (fun archive s => ∀ ms ∈ archive, Of s.disk ms) F := by
  have hany : ∀ {α : Type} (x : UpgradeM β α), Ends (fun _ => True) x (fun _ _ => True) F := by
    intro α x s _
    rcases x s with ⟨e | a, s'⟩
    · exact hF e s'
    · trivial
  refine ends_weaken ?_ fun _ _ => trivial
  refine ends_bind (hany _) fun capabilities => ends_bind (hany _) fun version => ?_
  refine ends_bind (hany _) fun _ => ends_bind (hany _) fun _ => ends_bind (hany _) fun _ => ?_
  refine ends_ite (fun _ => ?_) fun _ => ?_
  · exact ends_bind (hany _) fun _ => ends_pure fun _ _ ms hms => nomatch hms
  · refine ends_bind (hany _) fun _ => ?_
    refine ends_bind (Q := fun archive s => Of s.disk archive) ?_ fun archive =>
      ends_pure fun s hs ms hms => ?_
    · refine ends_bind (Q := fun a s => a = s) (ends_modifyGet fun _ _ => rfl) fun s => ?_
      refine ends_ite (fun _ => ends_pure ?_) fun _ => ends_throw fun _ _ => hF _ _
      rintro _ rfl m hm
      obtain ⟨source, -, hm⟩ := List.mem_flatMap.mp hm
      exact of_archiveOf s.disk source m hm
    · rwa [← Option.some.inj hms]

end Backup

/-! ## After a failure -/

section Failure

variable {β : Type} [DecidableEq β] (w : World β) (expectedFingerprint : Str)

/-- From `start` on the steps succeed up to `step`, which fails and leaves `after`. -/
def FailsAt (start : State β) (step : Step) (raised : Raised) (after : State β) : Prop :=
  ∃ pre post before, steps = pre ++ step :: post
    ∧ pre.forM (perform w expectedFingerprint) start = (.ok ⟨⟩, before)
    ∧ perform w expectedFingerprint step before = (.error raised, after)

/-- A failure is handled exactly if the step has looked into the last event. -/
theorem isUpgrade_iff {start after : State β} {step : Step} {raised : Raised}
    (h : FailsAt w expectedFingerprint start step raised after) :
    raised.isUpgrade = true ↔ Translated after := by
  obtain ⟨-, -, before, -, -, hfails⟩ := h
  have hclass := classified_perform (P := fun _ => True) w expectedFingerprint step before trivial
  rwa [hfails] at hclass

/-- Where the function fails after the backup, and what is on the disk in the end. -/
theorem failsAt_of_installEnhancedDnsdist {s b s' : State β} {archive : Archive Str β}
    {raised : Raised} (hprepare : prepare w s = (.ok (some archive), b))
    (hfail : installEnhancedDnsdist w expectedFingerprint s = (.error raised, s')) :
    ∃ step cause after, FailsAt w expectedFingerprint b step cause after
      ∧ s'.disk = if cause.isUpgrade then (archive.extract (w.readable after.log) after.disk).2
        else after.disk := by
  rw [installEnhancedDnsdist, bind_apply, hprepare] at hfail
  dsimp only at hfail
  rw [bind_apply, tryCatch_apply, bind_apply] at hfail
  rcases hsteps : steps.forM (perform w expectedFingerprint) b with ⟨cause | a, after⟩
  · obtain ⟨pre, step, post, before, hsplit, hpre, hstep⟩ := forM_eq_error hsteps
    refine ⟨step, cause, after, ⟨pre, post, before, hsplit, hpre, hstep⟩, ?_⟩
    rw [hsteps] at hfail
    cases cause with
    | upgrade error => exact (congrArg State.disk (Prod.mk.inj hfail).2).symm
    | timeoutExpired => exact (congrArg State.disk (Prod.mk.inj hfail).2).symm
    | osError => exact (congrArg State.disk (Prod.mk.inj hfail).2).symm
    | unicodeDecodeError => exact (congrArg State.disk (Prod.mk.inj hfail).2).symm
    | indexError => exact (congrArg State.disk (Prod.mk.inj hfail).2).symm
  · rw [hsteps] at hfail
    exact nomatch (Prod.mk.inj hfail).1

/-- **When a failed upgrade leaves the configuration as it was backed up.**  Every path of it that
is not as it was when the step has failed has to be brought back: the step has turned its failure
into an `UpgradeError`, and the extraction of the backup reaches the path. -/
theorem failed_upgrade_restores_iff {s b s' : State β} {archive : Archive Str β}
    {raised : Raised} (hprepare : prepare w s = (.ok (some archive), b))
    (hfail : installEnhancedDnsdist w expectedFingerprint s = (.error raised, s')) :
    ∃ step cause after, FailsAt w expectedFingerprint b step cause after
      ∧ (Restored backedUpPaths b.disk s'.disk ↔ ∀ p ∈ backedUpPaths, ∀ q, p <+: q →
        after.disk.entry q ≠ b.disk.entry q →
          Translated after ∧ Reaches (archive.extract (w.readable after.log) after.disk).1 q) := by
  obtain ⟨step, cause, after, hfails, hdisk⟩ :=
    failsAt_of_installEnhancedDnsdist w expectedFingerprint hprepare hfail
  refine ⟨step, cause, after, hfails, ?_⟩
  have hof : Of b.disk archive := by
    have hends := ends_prepare (P := fun _ => True) (F := fun _ _ => True) w
      (fun _ _ => trivial) s trivial
    rw [hprepare] at hends
    exact hends archive rfl
  rw [hdisk]
  by_cases hcause : cause.isUpgrade = true
  · have htranslated := (isUpgrade_iff w expectedFingerprint hfails).mp hcause
    rw [if_pos hcause, restored_extract_iff hof]
    simp only [htranslated, true_and]
  · have htranslated := mt (isUpgrade_iff w expectedFingerprint hfails).mpr hcause
    rw [if_neg hcause]
    simp only [htranslated, false_and, imp_false, not_not, Restored]

end Failure

/-! ## A check that takes too long -/

/-- The configuration is the only thing on the disk. -/
def configDisk (config : String) : Disk Str Str :=
  (Disk.empty.place dnsdistConf (.file config.toList)).getD Disk.empty

/-- Everything goes well, and the installation writes another configuration; but the check of the
configuration does not end in time. -/
def slowCheck : World Str where
  unicode := { lower := id, idna := fun _ => none }
  readText := id
  size := List.length
  encode := String.toList
  osRelease := some ("debian".toList, "13".toList, "trixie".toList)
  resolves := true
  command log
    | .dnsdistVersion, disk =>
        if .ran .aptInstall (.finished 0 []) ∈ log then
          (.finished 0 "dnsdist 2.1.0 dns-over-quic dns-over-http3".toList, disk)
        else (.finished 0 "dnsdist 1.9.10".toList, disk)
    | .printArchitecture, disk => (.finished 0 "amd64".toList, disk)
    | .showKeys, disk => (.finished 0 "fpr:::::::::1B0C:".toList, disk)
    | .aptPolicy, disk =>
        (.finished 0 ("Candidate: 2.1.0\n 600 http://repo.powerdns.com/debian " ++
          "trixie-dnsdist-21/main amd64\n").toList, disk)
    | .aptInstall, _ => (.finished 0 [], configDisk "-- as packaged")
    | .checkConfig, disk => (.timedOut, disk)
    | _, disk => (.finished 0 [], disk)
  downloaded _ := some "-----BEGIN PGP PUBLIC KEY BLOCK-----".toList
  accessible _ _ := true
  backsUp := true
  rounds _ := 1
  readable _ := none

/-- Before the upgrade. -/
def configured : State Str :=
  { disk := configDisk "-- as deployed", key := none, log := [], report := {} }

/-- The exception, if there is one. -/
def raisedOf {α : Type} : Except Raised α → Option Raised
  | .error raised => some raised
  | .ok _ => none

/-- The upgrade gets past its backup and fails, and the configuration is the other one. -/
theorem slowCheck_run : ∃ archive b s', prepare slowCheck configured = (.ok (some archive), b)
    ∧ installEnhancedDnsdist slowCheck "1B0C".toList configured = (.error .timeoutExpired, s')
    ∧ b.disk.entry dnsdistConf = some (.file "-- as deployed".toList)
    ∧ s'.disk.entry dnsdistConf = some (.file "-- as packaged".toList) := by
  have hprepare : (prepare slowCheck configured).1.toOption.join.isSome = true := by
    decide +kernel
  have hfail : raisedOf (installEnhancedDnsdist slowCheck "1B0C".toList configured).1
      = some .timeoutExpired := by decide +kernel
  have hbefore : (prepare slowCheck configured).2.disk.entry dnsdistConf
      = some (.file "-- as deployed".toList) := by decide +kernel
  have hafter : (installEnhancedDnsdist slowCheck "1B0C".toList configured).2.disk.entry
      dnsdistConf = some (.file "-- as packaged".toList) := by decide +kernel
  rcases hp : prepare slowCheck configured with ⟨_ | _ | archive, b⟩
  · rw [hp] at hprepare
    cases hprepare
  · rw [hp] at hprepare
    cases hprepare
  · rcases hi : installEnhancedDnsdist slowCheck "1B0C".toList configured with ⟨raised | _, s'⟩
    · rw [hp] at hbefore
      rw [hi] at hafter hfail
      have hraised : raised = .timeoutExpired := Option.some.inj hfail
      exact ⟨archive, b, s', rfl, by rw [hraised], hbefore, hafter⟩
    · rw [hi] at hfail
      cases hfail

/-- The failed upgrade has left another configuration behind. -/
theorem slow_check_leaves_configuration :
    ¬ ∀ (w : World Str) (expectedFingerprint : Str) (s b s' : State Str) (archive : Archive Str Str)
      (raised : Raised), prepare w s = (.ok (some archive), b) →
        installEnhancedDnsdist w expectedFingerprint s = (.error raised, s') →
          Restored backedUpPaths b.disk s'.disk := by
  intro h
  obtain ⟨archive, b, s', hprepare, hfail, hbefore, hafter⟩ := slowCheck_run
  have hrestored := h _ _ _ _ _ _ _ hprepare hfail dnsdistConf (by decide) dnsdistConf
    List.prefix_rfl
  rw [hbefore, hafter] at hrestored
  exact absurd hrestored (by decide)

theorem failed_upgrade_restores_iff_slowCheck :
    ∃ (archive : Archive Str Str) (b s' : State Str),
    prepare slowCheck configured = (.ok (some archive), b)
    ∧ installEnhancedDnsdist slowCheck "1B0C".toList configured = (.error .timeoutExpired, s')
    ∧ ∃ step cause after, FailsAt slowCheck "1B0C".toList b step cause after
      ∧ (Restored backedUpPaths b.disk s'.disk ↔ ∀ p ∈ backedUpPaths, ∀ q, p <+: q →
        after.disk.entry q ≠ b.disk.entry q → Translated after
          ∧ Reaches (archive.extract (slowCheck.readable after.log) after.disk).1 q) := by
  obtain ⟨archive, b, s', hprepare, hfail, -, -⟩ := slowCheck_run
  exact ⟨archive, b, s', hprepare, hfail,
    failed_upgrade_restores_iff slowCheck "1B0C".toList hprepare hfail⟩

end AlderpointDNS.DnsdistUpgrade
