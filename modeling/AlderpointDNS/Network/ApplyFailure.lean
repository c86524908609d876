import AlderpointDNS.Network.Staging

/-!
# Errors of `apply_change`

Where `apply_change` raises, and what it leaves: the persistent configuration, the watchdog, and
the rollback state file.  Staging may break off anywhere in its effects, also in the middle of a
write.

* `applyEffects_eq_self_iff` — effects leave the configuration as it was just when each of them
  does;
* **`recovers_iff`** — when the configuration is as it was, or the watchdog restores it.
-/

namespace AlderpointDNS.Network.Staging

open Text TextFiles

/-! ## The errors -/

/-- A write and an append may break off. -/
inductive BreaksOff : Effect → Effect → Prop where
  | write (path : ConfigPath) (text : Str) (n : ℕ) :
      BreaksOff (.write path text) (.write path (text.take n))
  | append (path : ConfigPath) (text : Str) (n : ℕ) :
      BreaksOff (.append path text) (.append path (text.take n))

/-- What is done when staging raises. -/
inductive Interrupted : List Effect → List Effect → Prop where
  | before (effects : List Effect) : Interrupted effects []
  | during {e e' : Effect} (effects : List Effect) (h : BreaksOff e e') :
      Interrupted (e :: effects) [e']
  | later {effects done : List Effect} (e : Effect) (h : Interrupted effects done) :
      Interrupted (e :: effects) (e :: done)

/-- Where `apply_change` raises. -/
inductive Failure where
  /-- no backend, an invalid proposal, a change that is pending, or an error of the snapshot -/
  | beforeStaging
  /-- after these effects -/
  | staging (done : List Effect)
  /-- `schedule_rollback_timer` -/
  | scheduling
  /-- `_write_state_file`, before or after it has replaced the file -/
  | stateFile (replaced : Bool)
  /-- the commands of the backend, for NetworkManager after another `stage_networkmanager`; a
  `CalledProcessError` or something else -/
  | liveApply (restaged : List Effect) (calledProcessError : Bool)

/-- What an error leaves. -/
structure Aftermath where
  config : NetworkConfig
  watchdog : Bool
  /-- the snapshot in the rollback state file -/
  state : Option Snapshot

section Failures

variable (dump : Str → List (Str × NetplanValue) → Str) (created : ℕ) (active : List Str)
  (backend : Backend) (change : Change) (config : NetworkConfig)

/-- The effects of staging, and for NetworkManager those of staging again. -/
def Failure.Possible : Failure → Prop
  | .staging done => Interrupted (stageEffects dump active backend change config) done
  | .liveApply restaged _ =>
      Interrupted (if backend = .networkManager then nmEffects active change else []) restaged
  | _ => True

/-- `apply_change` up to its error. -/
def applyChange : Failure → Option Aftermath
  | .beforeStaging => some ⟨config, false, none⟩
  | .staging done => (applyEffects created done config).map fun left => ⟨left, false, none⟩
  | .scheduling =>
      (stage dump created active backend change config).map fun left => ⟨left, false, none⟩
  | .stateFile replaced =>
      (stage dump created active backend change config).map fun left =>
        ⟨left, true,
          if replaced then some (snapshotCurrent backend active change.interface config) else none⟩
  | .liveApply restaged calledProcessError => do
      let staged ← stage dump created active backend change config
      let left ← applyEffects created restaged staged
      let taken := snapshotCurrent backend active change.interface config
      -- only this error is handled: the change is rolled back at once
      return if calledProcessError then
          ⟨performRollback created backend change.interface taken left, true, none⟩
        else ⟨left, true, some taken⟩

/-- The configuration is as it was, or the watchdog finds the state file and restores it. -/
def Aftermath.Recovers (a : Aftermath) : Prop :=
  a.config = config ∨ a.watchdog = true ∧ ∃ taken, a.state = some taken ∧
    performRollback created backend change.interface taken a.config = config

/-- The configuration is what the effect leaves. -/
def AlreadyDone : Effect → Prop
  | .write path text => ∃ file, config.files path = some file ∧ file.text = text
  | .chmod path mode => ∀ file, config.files path = some file → file.mode = mode
  | .append path text => ∃ file, config.files path = some file ∧ text = []
  | .modify connection args =>
      ∀ profile, config.profiles connection = some profile → AlreadySet args profile

/-- The error comes before anything has changed, or there is a state file for a rollback that can
restore what was staged. -/
def RecoversWhen : Failure → Prop
  | .beforeStaging => True
  | .staging done => ∀ e ∈ done, AlreadyDone config e
  | .scheduling | .stateFile false =>
      ∀ e ∈ stageEffects dump active backend change config, AlreadyDone config e
  | .stateFile true | .liveApply _ false =>
      (∀ e ∈ stageEffects dump active backend change config, AlreadyDone config e) ∨
        Restorable active backend change config
  | .liveApply _ true => Restorable active backend change config

end Failures

/-! ## Effects that change nothing -/

section Effects

variable {created : ℕ} {config config' : NetworkConfig} {e e' : Effect} {effects : List Effect}

theorem apply_eq_self_iff (h : Effect.apply created config e = some config') :
    config' = config ↔ AlreadyDone config e := by
  have hfiles : ∀ files, ({ config with files := files } : NetworkConfig) = config ↔
      files = config.files := fun files =>
    ⟨congrArg NetworkConfig.files, fun heq => by rw [heq]⟩
  cases e with
  | write path text =>
      cases h
      exact (hfiles _).trans writeText_eq_self_iff
  | chmod path mode =>
      cases h
      exact (hfiles _).trans chmod_eq_self_iff
  | append path text =>
      cases h
      exact (hfiles _).trans appendText_eq_self_iff
  | modify connection args =>
      obtain ⟨profile, hprofile, rfl⟩ := Option.map_eq_some_iff.mp h
      rw [withProfile_eq_self_iff hprofile, setProperties_eq_self_iff, AlreadyDone]
      simp [hprofile]

/-- What an effect changes. -/
inductive Target where
  | text (path : ConfigPath)
  | mode (path : ConfigPath)
  | ending (path : ConfigPath)
  | properties (names : List NmProperty)

def Effect.target : Effect → Target
  | .write path _ => .text path
  | .chmod path _ => .mode path
  | .append path _ => .ending path
  | .modify _ args => .properties (args.map Prod.fst)

/-- The second effect does not touch what the first one has done. -/
def Target.Undisturbed : Target → Target → Prop
  | .text _, .mode _ => True
  | .text path, .ending path' | .mode path, .ending path' => path ≠ path'
  | .properties names, .properties names' => ∀ name ∈ names, name ∉ names'
  | _, _ => False

theorem lookup_of_not_mem {args : List (NmProperty × Str)} {property : NmProperty}
    (h : property ∉ args.map Prod.fst) : args.lookup property = none := by
  rw [List.lookup_eq_none_iff]
  intro arg harg
  rw [bne_iff_ne]
  rintro rfl
  exact h (List.mem_map_of_mem harg)

theorem mem_of_lookup {args : List (NmProperty × Str)} {property : NmProperty} {value : Str}
    (h : args.lookup property = some value) : property ∈ args.map Prod.fst := by
  by_contra hmem
  rw [lookup_of_not_mem hmem] at h
  cases h

/-- An effect has been done. -/
theorem alreadyDone_apply (happend : ∀ path text, e ≠ .append path text)
    (h : Effect.apply created config e = some config') : AlreadyDone config' e := by
  cases e with
  | write path text =>
      cases h
      exact ⟨_, Function.update_self .., rfl⟩
  | chmod path mode =>
      cases h
      intro file hfile
      dsimp only at hfile
      rw [TextFiles.chmod, Function.update_self] at hfile
      obtain ⟨file', -, rfl⟩ := Option.map_eq_some_iff.mp hfile
      rfl
  | append path text => exact absurd rfl (happend path text)
  | modify connection args =>
      obtain ⟨profile, -, rfl⟩ := Option.map_eq_some_iff.mp h
      intro profile' hprofile' property value hlookup
      dsimp only at hprofile'
      rw [Function.update_self, Option.some.injEq] at hprofile'
      rw [← hprofile', setProperties, hlookup]
      rfl

/-- Another effect leaves it done. -/
theorem alreadyDone_of_undisturbed (hundisturbed : e.target.Undisturbed e'.target)
    (hdone : AlreadyDone config e) (h : Effect.apply created config e' = some config') :
    AlreadyDone config' e := by
  cases e with
  | write path text =>
      obtain ⟨file, hfile, htext⟩ := hdone
      cases e' with
      | write path' text' => exact absurd hundisturbed id
      | chmod path' mode =>
          cases h
          by_cases hpath : path = path'
          · subst hpath
            refine ⟨{ file with mode := mode }, ?_, htext⟩
            dsimp only
            rw [TextFiles.chmod, Function.update_self, hfile, Option.map_some]
          · refine ⟨file, ?_, htext⟩
            dsimp only
            rw [TextFiles.chmod, Function.update_of_ne hpath, hfile]
      | append path' text' =>
          cases h
          refine ⟨file, ?_, htext⟩
          dsimp only
          rw [appendText, Function.update_of_ne hundisturbed, hfile]
      | modify connection args => exact absurd hundisturbed id
  | chmod path mode =>
      cases e' with
      | append path' text' =>
          cases h
          intro file hfile
          dsimp only at hfile
          rw [appendText, Function.update_of_ne hundisturbed] at hfile
          exact hdone file hfile
      | _ => exact absurd hundisturbed id
  | append path text => exact absurd hundisturbed id
  | modify connection args =>
      cases e' with
      | modify connection' args' =>
          obtain ⟨profile, hprofile, rfl⟩ := Option.map_eq_some_iff.mp h
          intro profile' hprofile' property value hlookup
          dsimp only at hprofile'
          by_cases hconnection : connection = connection'
          · subst hconnection
            rw [Function.update_self, Option.some.injEq] at hprofile'
            have hother := lookup_of_not_mem (hundisturbed property (mem_of_lookup hlookup))
            rw [← hprofile', setProperties, hother]
            exact hdone profile hprofile property value hlookup
          · rw [Function.update_of_ne hconnection] at hprofile'
            exact hdone profile' hprofile' property value hlookup
      | _ => exact absurd hundisturbed id

/-- Only an append may change again what it has done. -/
theorem not_append_of_undisturbed (h : e.target.Undisturbed e'.target) (path : ConfigPath)
    (text : Str) : e ≠ .append path text := by
  rintro rfl
  exact h

theorem applyEffects_cons (h : applyEffects created (e :: effects) config = some config') :
    ∃ next, Effect.apply created config e = some next ∧
      applyEffects created effects next = some config' := by
  rw [applyEffects, List.foldlM_cons] at h
  exact Option.bind_eq_some_iff.mp h

/-- The effects do not touch what those before them have done. -/
def Separate (effects : List Effect) : Prop :=
  (effects.map Effect.target).Pairwise Target.Undisturbed

theorem separate_cons : Separate (e :: effects) ↔
    (∀ e' ∈ effects, e.target.Undisturbed e'.target) ∧ Separate effects := by
  rw [Separate, List.map_cons, List.pairwise_cons, List.forall_mem_map, Separate]

/-- Effects leave done what none of them touches. -/
theorem alreadyDone_applyEffects (hkeep : ∀ e' ∈ effects, e.target.Undisturbed e'.target)
    (hdone : AlreadyDone config e) (h : applyEffects created effects config = some config') :
    AlreadyDone config' e := by
  induction effects generalizing config with
  | nil =>
      cases h
      exact hdone
  | cons e' effects ih =>
      obtain ⟨hfirst, hrest⟩ := List.forall_mem_cons.mp hkeep
      obtain ⟨next, hnext, h⟩ := applyEffects_cons h
      exact ih hrest (alreadyDone_of_undisturbed hfirst hdone hnext) h

/-- **Effects leave the configuration as it was just when each of them does.** -/
theorem applyEffects_eq_self_iff (hseparate : Separate effects)
    (h : applyEffects created effects config = some config') :
    config' = config ↔ ∀ e ∈ effects, AlreadyDone config e := by
  induction effects generalizing config with
  | nil =>
      cases h
      simp
  | cons e effects ih =>
      obtain ⟨hkeep, hseparate⟩ := separate_cons.mp hseparate
      obtain ⟨next, hnext, hlater⟩ := applyEffects_cons h
      rw [List.forall_mem_cons]
      constructor
      · rintro rfl
        -- what `e` has done is still there at the end, which is where it began
        have hdone : AlreadyDone config' e := by
          cases effects with
          | nil =>
              cases hlater
              exact (apply_eq_self_iff hnext).mp rfl
          | cons e' effects =>
              refine alreadyDone_applyEffects hkeep ?_ hlater
              refine alreadyDone_apply ?_ hnext
              exact not_append_of_undisturbed (hkeep e' List.mem_cons_self)
        have hsame : next = config' := (apply_eq_self_iff hnext).mpr hdone
        subst hsame
        exact ⟨hdone, (ih hseparate hlater).mp rfl⟩
      · rintro ⟨hdone, hrest⟩
        have hsame : next = config := (apply_eq_self_iff hnext).mpr hdone
        subst hsame
        exact (ih hseparate hlater).mpr hrest

/-- Effects that have been done. -/
theorem alreadyDone_of_applyEffects (hseparate : Separate effects)
    (happend : ∀ e ∈ effects, ∀ path text, e ≠ .append path text)
    (h : applyEffects created effects config = some config') :
    ∀ e ∈ effects, AlreadyDone config' e := by
  induction effects generalizing config with
  | nil => simp
  | cons e effects ih =>
      obtain ⟨hkeep, hseparate⟩ := separate_cons.mp hseparate
      obtain ⟨hfirst, hrest⟩ := List.forall_mem_cons.mp happend
      obtain ⟨next, hnext, h⟩ := applyEffects_cons h
      rw [List.forall_mem_cons]
      exact ⟨alreadyDone_applyEffects hkeep (alreadyDone_apply hfirst hnext) h,
        ih hseparate hrest h⟩

end Effects

/-! ## The effects of staging -/

section Staged

variable {dump : Str → List (Str × NetplanValue) → Str} {created : ℕ} {active : List Str}
  {backend : Backend} {change : Change} {config config' : NetworkConfig}

theorem separate_nmEffects : Separate (nmEffects active change) := by
  rw [nmEffects]
  generalize stagedConnection active change.interface = name
  cases change.ipv4 <;> cases change.ipv6 <;>
    simp [Separate, nmIpv4Args, nmIpv6Args, Effect.target, Target.Undisturbed]

/-- Staging touches nothing twice. -/
theorem separate_stageEffects : Separate (stageEffects dump active backend change config) := by
  unfold stageEffects
  cases hpath : stagedPath change.interface backend with
  | none => exact separate_nmEffects
  | some path =>
      dsimp only
      by_cases hsource : (if backend = .ifupdown then sourceEffects config.files else []) = []
      · rw [hsource]
        simp [Separate, Effect.target, Target.Undisturbed]
      · have hbackend : backend = .ifupdown := by
          by_contra hne
          rw [if_neg hne] at hsource
          exact hsource rfl
        rw [if_pos hbackend] at hsource
        obtain ⟨file, -, heffects⟩ := applyEffects_sourceEffects config hsource
        rw [if_pos hbackend, heffects]
        subst hbackend
        cases hpath
        simp [Separate, Effect.target, Target.Undisturbed]

/-- What breaks off touches what the whole effect touches. -/
theorem interrupted_targets {effects done : List Effect} (h : Interrupted effects done) :
    done.map Effect.target <+: effects.map Effect.target := by
  induction h with
  | before effects => exact List.nil_prefix
  | during effects h =>
      cases h with
      | write path text n => exact List.prefix_append [_] _
      | append path text n => exact List.prefix_append [_] _
  | later e h ih => exact List.cons_prefix_cons.mpr ⟨rfl, ih⟩

theorem separate_interrupted {effects done : List Effect} (h : Interrupted effects done)
    (hseparate : Separate effects) : Separate done :=
  hseparate.sublist (interrupted_targets h).sublist

/-- A command of nmcli does not break off. -/
theorem interrupted_modifications {name : Str} {commands : List (List (NmProperty × Str))}
    {done : List Effect} (h : Interrupted (modifications name commands) done) :
    done <+: modifications name commands := by
  have hmodify : ∀ e ∈ modifications name commands, ∃ args, e = .modify name args := by
    intro e he
    obtain ⟨args, -, rfl⟩ := List.mem_map.mp he
    exact ⟨args, rfl⟩
  generalize modifications name commands = effects at h hmodify ⊢
  induction h with
  | before effects => exact List.nil_prefix
  | during effects h =>
      obtain ⟨args, rfl⟩ := hmodify _ List.mem_cons_self
      cases h
  | later e h ih =>
      exact List.cons_prefix_cons.mpr
        ⟨rfl, ih fun e he => hmodify e (List.mem_cons_of_mem _ he)⟩

/-- **Staging again changes nothing.** -/
theorem restaged_eq {staged left : NetworkConfig} {restaged : List Effect}
    (hstage : stage dump created active backend change config = some staged)
    (hrestaged : Interrupted (if backend = .networkManager then nmEffects active change else [])
      restaged) (h : applyEffects created restaged staged = some left) : left = staged := by
  split_ifs at hrestaged with hbackend
  · subst hbackend
    have hsub : restaged <+: nmEffects active change := interrupted_modifications hrestaged
    have happend : ∀ e ∈ nmEffects active change, ∀ path text, e ≠ .append path text := by
      rintro e he path text rfl
      obtain ⟨args, -, hmodify⟩ := List.mem_map.mp he
      cases hmodify
    have hdone := alreadyDone_of_applyEffects separate_nmEffects happend hstage
    rw [applyEffects_eq_self_iff (separate_interrupted hrestaged separate_nmEffects) h]
    exact fun e he => hdone e (hsub.subset he)
  · cases hrestaged
    cases h
    rfl

/-- The watchdog is armed, and the state file is in place. -/
theorem recovers_armed_iff {left : NetworkConfig} (hprinted : config.Printed)
    (hstage : stage dump created active backend change config = some left) :
    Aftermath.Recovers created backend change config
        ⟨left, true, some (snapshotCurrent backend active change.interface config)⟩ ↔
      (∀ e ∈ stageEffects dump active backend change config, AlreadyDone config e) ∨
        Restorable active backend change config := by
  have hsame := applyEffects_eq_self_iff
    (@separate_stageEffects dump active backend change config) hstage
  have hrollback := performRollback_eq_self_iff hprinted hstage
  simp only [Aftermath.Recovers, Option.some.injEq, exists_eq_left', true_and]
  rw [hsame, hrollback]

/-- **When the persistent configuration is as it was after an error of `apply_change`, or there is
a watchdog that restores it.** -/
theorem recovers_iff (dump : Str → List (Str × NetplanValue) → Str) (created : ℕ)
    (active : List Str) (backend : Backend) (change : Change) (config : NetworkConfig)
    (failure : Failure) (a : Aftermath) (hprinted : config.Printed)
    (hpossible : failure.Possible dump active backend change config)
    (h : applyChange dump created active backend change config failure = some a) :
    a.Recovers created backend change config ↔
      RecoversWhen dump active backend change config failure := by
  have hunarmed : ∀ {left watchdog}, Aftermath.Recovers created backend change config
      ⟨left, watchdog, none⟩ ↔ left = config := by
    intro left watchdog
    simp [Aftermath.Recovers]
  have hseparate := @separate_stageEffects dump active backend change config
  cases failure with
  | beforeStaging =>
      cases h
      exact iff_of_true (hunarmed.mpr rfl) trivial
  | staging done =>
      obtain ⟨left, hleft, rfl⟩ := Option.map_eq_some_iff.mp h
      rw [hunarmed]
      exact applyEffects_eq_self_iff (separate_interrupted hpossible hseparate) hleft
  | scheduling =>
      obtain ⟨left, hleft, rfl⟩ := Option.map_eq_some_iff.mp h
      rw [hunarmed]
      exact applyEffects_eq_self_iff hseparate hleft
  | stateFile replaced =>
      obtain ⟨left, hleft, rfl⟩ := Option.map_eq_some_iff.mp h
      cases replaced with
      | false =>
          refine hunarmed.trans ?_
          exact applyEffects_eq_self_iff hseparate hleft
      | true => exact recovers_armed_iff hprinted hleft
  | liveApply restaged calledProcessError =>
      obtain ⟨staged, hstage, h⟩ := Option.bind_eq_some_iff.mp h
      obtain ⟨left, hleft, hraised⟩ := Option.bind_eq_some_iff.mp h
      obtain rfl := restaged_eq hstage hpossible hleft
      cases calledProcessError with
      | false =>
          cases hraised
          exact recovers_armed_iff hprinted hstage
      | true =>
          cases hraised
          refine hunarmed.trans ?_
          exact performRollback_eq_self_iff hprinted hstage

end Staged

/-- networkctl refuses the new configuration, and it is rolled back at once. -/
theorem recovers_networkd :
    ∃ a, applyChange (fun _ _ => []) 0o644 [] .networkd staticIpv4 networkdConfig
        (.liveApply [] true) = some a ∧
      a.Recovers 0o644 .networkd staticIpv4 networkdConfig :=
  ⟨_, rfl, (recovers_iff (fun _ _ => []) 0o644 [] .networkd staticIpv4 networkdConfig
    (.liveApply [] true) _ printed_networkdConfig (.before []) rfl).mpr restorable_networkdConfig⟩

/-- **`systemd-run` fails, and the staged file stays without a watchdog.** -/
theorem staged_without_watchdog :
    ∃ a, applyChange (fun _ _ => []) 0o644 [] .networkd staticIpv4 networkdConfig .scheduling
        = some a ∧ a.watchdog = false ∧ a.state = none ∧ a.config ≠ networkdConfig := by
  refine ⟨_, rfl, rfl, rfl, fun heq => ?_⟩
  have hfile := congrArg (fun config : NetworkConfig =>
    (config.files (.networkd "90-alderpointdns-eth0.network".toList)).isSome) heq
  exact absurd hfile (by decide +kernel)

end AlderpointDNS.Network.Staging
