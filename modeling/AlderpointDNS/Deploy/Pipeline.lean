import AlderpointDNS.Lib.Dict
import AlderpointDNS.Lib.Patterns
import Mathlib.Logic.Function.Basic

/-!
# The deployment pipeline and its rollback

`deploy` replaces the RPZ file, the cache options and the files of the dnsdist layer one after
another, each with a backup of its own, and its handler restores what the backups and flags tell it
to.  A call that raises is described by the point at which it does (`PipelinePoint`), and every step
of the handlers succeeds.  A backup file is named by the second in which it is made, so one of an
earlier deployment may be there already; nothing is assumed about what it holds.

* `withoutSerial_refresh` — `refresh_rpz_serial` changes the serial only;
* `layer_restored` — the files of the dnsdist layer are always restored;
* **`live_restored_iff`** — when the live files are what they were before the call.
* `live_not_restored` — calls after which they are not.

Not modelled: the other stages, which keep to files of their own, and the health checks.
-/

namespace AlderpointDNS

open Text

/-! ## The serial of the RPZ -/

/-- The zeros of the decimal digits of Unicode. -/
def decimalZeros : List ℕ :=
  [0x30, 0x660, 0x6f0, 0x7c0, 0x966, 0x9e6, 0xa66, 0xae6, 0xb66, 0xbe6, 0xc66, 0xce6, 0xd66, 0xde6,
    0xe50, 0xed0, 0xf20, 0x1040, 0x1090, 0x17e0, 0x1810, 0x1946, 0x19d0, 0x1a80, 0x1a90, 0x1b50,
    0x1bb0, 0x1c40, 0x1c50, 0xa620, 0xa8d0, 0xa900, 0xa9d0, 0xa9f0, 0xaa50, 0xabf0, 0xff10, 0x104a0,
    0x10d30, 0x11066, 0x110f0, 0x11136, 0x111d0, 0x112f0, 0x11450, 0x114d0, 0x11650, 0x116c0,
    0x11730, 0x118e0, 0x11950, 0x11c50, 0x11d50, 0x11da0, 0x11f50, 0x16a60, 0x16ac0, 0x16b50,
    0x1d7ce, 0x1d7d8, 0x1d7e2, 0x1d7ec, 0x1d7f6, 0x1e140, 0x1e2f0, 0x1e4f0, 0x1e950, 0x1fbf0]

/-- `\d`. -/
def isDecimal (c : Char) : Bool :=
  decimalZeros.any fun first => first ≤ c.toNat && c.toNat < first + 10

/-- `@\s+IN\s+SOA\s+localhost\.\s+hostmaster\.localhost\.\s+`. -/
def soaHead : Pattern :=
  .char '@' :: (.many isSpace :: word "IN" ++ .many isSpace :: word "SOA" ++
    .many isSpace :: word "localhost." ++ .many isSpace :: word "hostmaster.localhost." ++
    [.many isSpace])

/-- `\s+1h\s+15m\s+30d\s+2h`. -/
def soaTail : Pattern :=
  .many isSpace :: word "1h" ++ .many isSpace :: word "15m" ++ .many isSpace :: word "30d" ++
    .many isSpace :: word "2h"

def refreshRpzSerial (serial : ℕ) (text : Str) : Str :=
  match find soaHead [.many isDecimal] soaTail text with
  | none => text
  | some (a, _, b) => a ++ (Nat.toDigits 10 serial ++ b)

/-- A zone text up to its SOA serial. -/
def withoutSerial (text : Str) : Str × Option Str :=
  match find soaHead [.many isDecimal] soaTail text with
  | none => (text, none)
  | some (a, _, b) => (a, some b)

/-- Only the first character of an SOA line is `@`. -/
theorem soa_avoids : Avoids '@' (soaHead.tail ++ (.many isDecimal :: soaTail)) := by
  unfold Avoids
  decide

theorem digit_of_mem_toDigits {n : ℕ} {c : Char} (hc : c ∈ Nat.toDigits 10 n) :
    isDecimal c = true ∧ isSpace c = false := by
  have hdigit : c.isDigit = true := Nat.isDigit_of_mem_toDigits (by decide) (by decide) hc
  simp only [Char.isDigit, ge_iff_le, Bool.and_eq_true, decide_eq_true_eq, UInt32.le_iff_toNat_le]
    at hdigit
  have hlow : 0x30 ≤ c.toNat := hdigit.1
  have hhigh : c.toNat ≤ 0x39 := hdigit.2
  constructor
  · refine List.any_eq_true.mpr ⟨0x30, by simp [decimalZeros], ?_⟩
    simp only [Bool.and_eq_true, decide_eq_true_eq]
    omega
  · simp only [isSpace, Bool.or_eq_false_iff, Bool.and_eq_false_iff, decide_eq_false_iff_not]
    omega

/-- A serial ends the blanks before it. -/
theorem follows_toDigits (serial : ℕ) : Follows soaHead (Nat.toDigits 10 serial) := by
  intro p hp c hc
  have hlast : soaHead.getLast? = some (.many isSpace) := rfl
  cases hlast.symm.trans hp
  exact (digit_of_mem_toDigits (List.mem_of_mem_head? hc)).2

/-- **`refresh_rpz_serial` changes the serial only.** -/
theorem withoutSerial_refresh (serial : ℕ) (text : Str) :
    withoutSerial (refreshRpzSerial serial text) = withoutSerial text := by
  unfold refreshRpzSerial
  split
  · rfl
  · rename_i a d b hfind
    have hreplaced : find soaHead [.many isDecimal] soaTail
        (a ++ (Nat.toDigits 10 serial ++ b)) = some (a, Nat.toDigits 10 serial, b) :=
      find_replace soa_avoids hfind (follows_toDigits serial) Nat.toDigits_ne_nil
        fun c hc => (digit_of_mem_toDigits hc).1
    rw [withoutSerial, withoutSerial, hfind, hreplaced]

/-! ## Live files and backups -/

/-- The live files that the pipeline moves, and the `last-good` files by the second in their
names. -/
structure Appliance where
  rpz : Option Str
  cacheOptions : Option Str
  layer : Str → Option Str
  rpzBackup : ℕ → Option Str
  cacheBackup : ℕ → Option Str
  layerBackup : Str → ℕ → Option Str

/-- The same live files, the RPZ up to its serial. -/
structure Appliance.SameLive (a b : Appliance) : Prop where
  rpz : a.rpz.map withoutSerial = b.rpz.map withoutSerial
  cacheOptions : a.cacheOptions = b.cacheOptions
  layer : a.layer = b.layer

/-- A file of the dnsdist layer, and the second in which it is backed up. -/
structure LayerTarget where
  name : Str
  text : Str
  second : ℕ

/-- What a call of `deploy` has rendered, and the seconds of the names of its backups. -/
structure Deployment where
  second : ℕ
  rpzText : Str
  cacheSecond : ℕ
  cacheContent : Str
  targets : List LayerTarget
  distinct : (targets.map (·.name)).Nodup
  /-- the new serial of a restored RPZ -/
  rollbackSecond : ℕ

/-- Where `deploy` raises. -/
inductive PipelinePoint where
  /-- before the RPZ is backed up: sources, rendering, checks -/
  | preparing
  /-- in `shutil.copy2`, with the backup not yet opened or so many characters written -/
  | backingUp (copied : Option ℕ)
  /-- between the backup and the `os.replace` of the RPZ -/
  | backedUp
  /-- between that and the `os.replace` of the cache options -/
  | activated
  /-- in `deploy_cache_options`, where its own handler restores the cache options -/
  | cacheInstalled
  /-- in its `finally`, without an error before -/
  | cacheRecording
  /-- in `deploy_dnsdist_layer`, with so many files replaced, and perhaps one more backed up -/
  | layer (replaced : ℕ) (listed : Bool)
  /-- after all files -/
  | postcheck

/-! ## The stages -/

section Stages

variable (d : Deployment)

/-- The backup of the RPZ, if there is one to copy. -/
def backUpRpz (copied : Option ℕ) (s : Appliance) : Appliance :=
  match s.rpz, copied with
  | some text, some n =>
      { s with rpzBackup := Function.update s.rpzBackup d.second (some (text.take n)) }
  | _, _ => s

/-- The whole of it. -/
def backedUpRpz (s : Appliance) : Appliance := backUpRpz d (s.rpz.map (·.length)) s

def activateRpz (s : Appliance) : Appliance := { backedUpRpz d s with rpz := some d.rpzText }

/-- `deploy_cache_options`, from its backup to its `os.replace`. -/
def installCacheOptions (s : Appliance) : Appliance :=
  { s with
    cacheOptions := some d.cacheContent
    cacheBackup := match s.cacheOptions with
      | some text => Function.update s.cacheBackup d.cacheSecond (some text)
      | none => s.cacheBackup }

/-- The handler of `deploy_cache_options`: the backup, or no file. -/
def restoreCacheOptions (s : Appliance) : Appliance :=
  { s with cacheOptions := s.cacheBackup d.cacheSecond }

/-- An entry of `backups`: a file, and its backup if there was something to copy. -/
structure LayerBackup where
  name : Str
  second : Option ℕ
  deriving DecidableEq

/-- One round of the loop of `deploy_dnsdist_layer`, which may raise before it replaces the file. -/
def installTarget (state : Appliance × List LayerBackup) (target : LayerTarget × Bool) :
    Appliance × List LayerBackup :=
  let (s, backups) := state
  let (t, replaced) := target
  ({ s with
      layer := if replaced then Function.update s.layer t.name (some t.text) else s.layer
      layerBackup := match s.layer t.name with
        | some text =>
            Function.update s.layerBackup t.name
              (Function.update (s.layerBackup t.name) t.second (some text))
        | none => s.layerBackup },
    backups ++ [⟨t.name, (s.layer t.name).map fun _ => t.second⟩])

def installTargets (targets : List (LayerTarget × Bool)) (s : Appliance) :
    Appliance × List LayerBackup :=
  targets.foldl installTarget (s, [])

/-- One round of the loop of `_restore_dnsdist_backups`. -/
def restoreTarget (s : Appliance) (backup : LayerBackup) : Appliance :=
  { s with
    layer :=
      Function.update s.layer backup.name (backup.second.bind (s.layerBackup backup.name)) }

def restoreLayer (backups : List LayerBackup) (s : Appliance) : Appliance :=
  backups.foldl restoreTarget s

/-- The targets that the loop has reached. -/
def reachedTargets (replaced : ℕ) (listed : Bool) : List (LayerTarget × Bool) :=
  (d.targets.take replaced).map (·, true) ++
    if listed then ((d.targets.drop replaced).take 1).map (·, false) else []

/-- `deploy_dnsdist_layer` without an error: nothing is moved unless something has changed. -/
def deployDnsdistLayer (s : Appliance) : Appliance × List LayerBackup :=
  if d.targets.any fun t => s.layer t.name ≠ some t.text then
    installTargets (d.targets.map (·, true)) s
  else (s, [])

/-- The handler of `deploy`, with the `backups` of `dnsdist_layer` and, where
`cache_deployed_this_run`, the snapshot of the cache options. -/
def rollback (backups : List LayerBackup) (snapshot : Option (Option Str)) (s : Appliance) :
    Appliance :=
  let s := restoreLayer backups s
  let s := match s.rpzBackup d.second with
    | some text => { s with rpz := some (refreshRpzSerial d.rollbackSecond text) }
    | none => s
  match snapshot with
  | some options => { s with cacheOptions := options }
  | none => s

/-- The appliance after `deploy` has raised. -/
def deployFails (s : Appliance) : PipelinePoint → Appliance
  | .preparing => rollback d [] none s
  | .backingUp copied => rollback d [] none (backUpRpz d copied s)
  | .backedUp => rollback d [] none (backedUpRpz d s)
  | .activated => rollback d [] none (activateRpz d s)
  | .cacheInstalled =>
      rollback d [] none (restoreCacheOptions d (installCacheOptions d (activateRpz d s)))
  | .cacheRecording => rollback d [] none (installCacheOptions d (activateRpz d s))
  | .layer replaced listed =>
      let (s', backups) := installTargets (reachedTargets d replaced listed)
        (installCacheOptions d (activateRpz d s))
      rollback d [] (some (activateRpz d s).cacheOptions) (restoreLayer backups s')
  | .postcheck =>
      let (s', backups) := deployDnsdistLayer d (installCacheOptions d (activateRpz d s))
      rollback d backups (some (activateRpz d s).cacheOptions) s'

end Stages

/-! ## The dnsdist layer -/

/-- The parts of the appliance that the dnsdist layer leaves alone. -/
structure Appliance.SameOthers (a b : Appliance) : Prop where
  rpz : a.rpz = b.rpz
  cacheOptions : a.cacheOptions = b.cacheOptions
  rpzBackup : a.rpzBackup = b.rpzBackup
  cacheBackup : a.cacheBackup = b.cacheBackup

theorem sameOthers_restoreLayer (backups : List LayerBackup) (s : Appliance) :
    (restoreLayer backups s).SameOthers s := by
  induction backups generalizing s with
  | nil => exact ⟨rfl, rfl, rfl, rfl⟩
  | cons backup backups ih =>
      obtain ⟨hrpz, hoptions, hrpzBackup, hcacheBackup⟩ := ih (restoreTarget s backup)
      exact ⟨hrpz, hoptions, hrpzBackup, hcacheBackup⟩

theorem sameOthers_installTargets (targets : List (LayerTarget × Bool)) (s : Appliance) :
    (installTargets targets s).1.SameOthers s := by
  have hloop : ∀ (targets : List (LayerTarget × Bool)) (state : Appliance × List LayerBackup),
      (targets.foldl installTarget state).1.SameOthers state.1 := by
    intro targets
    induction targets with
    | nil => exact fun _ => ⟨rfl, rfl, rfl, rfl⟩
    | cons target targets ih =>
        intro state
        obtain ⟨hrpz, hoptions, hrpzBackup, hcacheBackup⟩ := ih (installTarget state target)
        exact ⟨hrpz, hoptions, hrpzBackup, hcacheBackup⟩
  exact hloop targets (s, [])

theorem sameOthers_restored (targets : List (LayerTarget × Bool)) (s : Appliance) :
    (restoreLayer (installTargets targets s).2 (installTargets targets s).1).SameOthers s := by
  have hinstalled := sameOthers_installTargets targets s
  have hrestored :=
    sameOthers_restoreLayer (installTargets targets s).2 (installTargets targets s).1
  exact ⟨hrestored.rpz.trans hinstalled.rpz, hrestored.cacheOptions.trans hinstalled.cacheOptions,
    hrestored.rpzBackup.trans hinstalled.rpzBackup,
    hrestored.cacheBackup.trans hinstalled.cacheBackup⟩

/-- What the two loops see of one file. -/
abbrev LayerView := Option Str × (ℕ → Option Str) × List LayerBackup

def installView (state : Appliance × List LayerBackup) (name : Str) : LayerView :=
  (state.1.layer name, state.1.layerBackup name, state.2.filter (·.name = name))

/-- One round of the first loop, at the file of the target. -/
def installedView (target : LayerTarget × Bool) (v : LayerView) : LayerView :=
  (if target.2 then some target.1.text else v.1,
    (match v.1 with
      | some text => Function.update v.2.1 target.1.second (some text)
      | none => v.2.1),
    v.2.2 ++ [⟨target.1.name, v.1.map fun _ => target.1.second⟩])

theorem local_installTarget :
    Local installView installTarget (fun target => some target.1.name) installedView := by
  rintro ⟨s, backups⟩ ⟨t, replaced⟩ name
  by_cases hname : t.name = name
  · subst hname
    cases hlive : s.layer t.name <;> cases replaced <;>
      simp [installView, installTarget, installedView, hlive]
  · have hne : name ≠ t.name := Ne.symm hname
    cases hlive : s.layer t.name <;> cases replaced <;>
      simp [installView, installTarget, hlive, hname, hne, Function.update_of_ne]

theorem local_restoreTarget : Local (fun (s : Appliance) name => (s.layer name, s.layerBackup name))
    restoreTarget (fun backup => some backup.name)
    (fun backup v => (backup.second.bind v.2, v.2)) := by
  intro s backup name
  by_cases hname : backup.name = name
  · subst hname
    simp [restoreTarget]
  · simp [restoreTarget, hname, Function.update_of_ne (Ne.symm hname)]

/-- **The files of the dnsdist layer are restored**, wherever its loop has got. -/
theorem layer_restored {targets : List (LayerTarget × Bool)}
    (hdistinct : (targets.map fun target => target.1.name).Nodup) (s : Appliance) :
    (restoreLayer (installTargets targets s).2 (installTargets targets s).1).layer = s.layer := by
  funext name
  have hview : installView (installTargets targets s) name = _ :=
    view_foldl local_installTarget name targets (s, [])
  have hrestore := congrArg Prod.fst
    (view_foldl local_restoreTarget name (installTargets targets s).2 (installTargets targets s).1)
  simp only [Option.some.injEq] at hview hrestore
  refine hrestore.trans ?_
  have hlayer := congrArg Prod.fst hview
  have hbackup := congrArg (·.2.1) hview
  have hentries := congrArg (·.2.2) hview
  simp only [installView] at hlayer hbackup hentries
  rw [hentries]
  by_cases hname : ∃ target ∈ targets, target.1.name = name
  · obtain ⟨target, htarget, rfl⟩ := hname
    rw [filter_key_eq_singleton hdistinct htarget] at hbackup ⊢
    simp only [List.foldl_cons, List.foldl_nil, installedView, List.filter_nil, List.nil_append]
      at hbackup ⊢
    rw [hbackup]
    cases hlive : s.layer target.1.name <;> simp
  · have hnone : targets.filter (fun target => target.1.name = name) = [] :=
      List.filter_eq_nil_iff.mpr fun target htarget h =>
        hname ⟨target, htarget, of_decide_eq_true h⟩
    rw [hnone] at hlayer ⊢
    exact hlayer

theorem nodup_reachedTargets (d : Deployment) (replaced : ℕ) (listed : Bool) :
    ((reachedTargets d replaced listed).map fun target => target.1.name).Nodup := by
  have hnames : (reachedTargets d replaced listed).map (fun target => target.1.name)
      = ((d.targets.take replaced) ++
          if listed then (d.targets.drop replaced).take 1 else []).map (·.name) := by
    cases listed <;> simp [reachedTargets, Function.comp_def]
  rw [hnames]
  refine d.distinct.sublist (List.Sublist.map _ ?_)
  nth_rewrite 3 [← List.take_append_drop replaced d.targets]
  refine (List.Sublist.refl _).append ?_
  split_ifs
  · exact List.take_sublist _ _
  · exact List.nil_sublist _

theorem sameOthers_deployDnsdistLayer (d : Deployment) (s : Appliance) :
    (deployDnsdistLayer d s).1.SameOthers s := by
  unfold deployDnsdistLayer
  split_ifs
  · exact sameOthers_installTargets _ s
  · exact ⟨rfl, rfl, rfl, rfl⟩

theorem layer_restored_deployed (d : Deployment) (s : Appliance) :
    (restoreLayer (deployDnsdistLayer d s).2 (deployDnsdistLayer d s).1).layer = s.layer := by
  have hdistinct : ((d.targets.map (·, true)).map fun target => target.1.name).Nodup := by
    simpa [Function.comp_def] using d.distinct
  unfold deployDnsdistLayer
  split_ifs
  · exact layer_restored hdistinct s
  · rfl

/-! ## When the live files are restored -/

/-- A backup of this second that is there before the call has the text of the live RPZ. -/
def NoStaleRpz (d : Deployment) (s : Appliance) : Prop :=
  ∀ text, s.rpzBackup d.second = some text →
    s.rpz.map withoutSerial = some (withoutSerial text)

def RpzRestored (d : Deployment) (s : Appliance) : PipelinePoint → Prop
  | .preparing => NoStaleRpz d s
  | .backingUp copied =>
      match s.rpz, copied with
      | some text, some n => withoutSerial (text.take n) = withoutSerial text
      | _, _ => NoStaleRpz d s
  | .backedUp => s.rpz.isSome = true ∨ s.rpzBackup d.second = none
  | _ => s.rpz.isSome = true

def CacheRestored (d : Deployment) (s : Appliance) : PipelinePoint → Prop
  | .cacheInstalled => s.cacheOptions.isSome = true ∨ s.cacheBackup d.cacheSecond = none
  | .cacheRecording => s.cacheOptions = some d.cacheContent
  | _ => True

section Rollback

variable (d : Deployment) (backups : List LayerBackup) (snapshot : Option (Option Str))
  (s : Appliance)

theorem rollback_layer :
    (rollback d backups snapshot s).layer = (restoreLayer backups s).layer := by
  cases hbackup : (restoreLayer backups s).rpzBackup d.second <;> cases snapshot <;>
    simp [rollback, hbackup]

theorem rollback_cacheOptions :
    (rollback d backups snapshot s).cacheOptions = snapshot.getD s.cacheOptions := by
  have hsame := (sameOthers_restoreLayer backups s).cacheOptions
  cases hbackup : (restoreLayer backups s).rpzBackup d.second <;> cases snapshot <;>
    simp [rollback, hbackup, hsame]

/-- The RPZ after the handler is the backup, if there is one. -/
theorem rollback_rpz : (rollback d backups snapshot s).rpz.map withoutSerial
    = match s.rpzBackup d.second with
      | some text => some (withoutSerial text)
      | none => s.rpz.map withoutSerial := by
  obtain ⟨hrpz, -, hrpzBackup, -⟩ := sameOthers_restoreLayer backups s
  rw [← hrpzBackup, ← hrpz]
  cases hbackup : (restoreLayer backups s).rpzBackup d.second <;> cases snapshot <;>
    simp [rollback, hbackup, withoutSerial_refresh]

end Rollback

section Stages

variable (d : Deployment) (s : Appliance)

@[simp] theorem backUpRpz_rpz (copied : Option ℕ) : (backUpRpz d copied s).rpz = s.rpz := by
  unfold backUpRpz
  split <;> rfl

@[simp] theorem backUpRpz_cacheOptions (copied : Option ℕ) :
    (backUpRpz d copied s).cacheOptions = s.cacheOptions := by
  unfold backUpRpz
  split <;> rfl

@[simp] theorem backUpRpz_layer (copied : Option ℕ) :
    (backUpRpz d copied s).layer = s.layer := by
  unfold backUpRpz
  split <;> rfl

@[simp] theorem backUpRpz_cacheBackup (copied : Option ℕ) :
    (backUpRpz d copied s).cacheBackup = s.cacheBackup := by
  unfold backUpRpz
  split <;> rfl

@[simp] theorem activateRpz_cacheOptions : (activateRpz d s).cacheOptions = s.cacheOptions :=
  backUpRpz_cacheOptions d s _

@[simp] theorem activateRpz_cacheBackup : (activateRpz d s).cacheBackup = s.cacheBackup :=
  backUpRpz_cacheBackup d s _

@[simp] theorem installed_layer :
    (installCacheOptions d (activateRpz d s)).layer = s.layer := backUpRpz_layer d s _

theorem backedUpRpz_backup : (backedUpRpz d s).rpzBackup d.second
    = match s.rpz with
      | some text => some text
      | none => s.rpzBackup d.second := by
  cases hrpz : s.rpz <;> simp [backedUpRpz, backUpRpz, hrpz]

/-- The handler restores the RPZ that the call has replaced if there was one. -/
theorem rpz_restored_iff_of_activated {t : Appliance} (backups : List LayerBackup)
    (snapshot : Option (Option Str)) (hrpz : t.rpz = (activateRpz d s).rpz)
    (hbackup : t.rpzBackup = (activateRpz d s).rpzBackup) :
    (rollback d backups snapshot t).rpz.map withoutSerial = s.rpz.map withoutSerial ↔
      s.rpz.isSome = true := by
  have hnew : (activateRpz d s).rpz = some d.rpzText := rfl
  have hold : (activateRpz d s).rpzBackup d.second = _ := backedUpRpz_backup d s
  rw [rollback_rpz, hbackup, hrpz, hnew, hold]
  cases s.rpz with
  | some text => simp
  | none => cases s.rpzBackup d.second <;> simp

theorem rpz_restored_iff (point : PipelinePoint) :
    (deployFails d s point).rpz.map withoutSerial = s.rpz.map withoutSerial ↔
      RpzRestored d s point := by
  have hstale : (match s.rpzBackup d.second with
      | some text => some (withoutSerial text)
      | none => s.rpz.map withoutSerial) = s.rpz.map withoutSerial ↔ NoStaleRpz d s := by
    unfold NoStaleRpz
    cases s.rpzBackup d.second with
    | none => simp
    | some text => simp [eq_comm]
  cases point with
  | preparing =>
      rw [deployFails, rollback_rpz]
      exact hstale
  | backingUp copied =>
      rw [deployFails, rollback_rpz, backUpRpz_rpz]
      unfold RpzRestored backUpRpz
      cases hrpz : s.rpz with
      | none =>
          rw [hrpz] at hstale
          exact hstale
      | some text =>
          rw [hrpz] at hstale
          cases copied with
          | none => exact hstale
          | some n => simp
  | backedUp =>
      rw [deployFails, rollback_rpz, backedUpRpz_backup, backedUpRpz, backUpRpz_rpz]
      unfold RpzRestored
      cases s.rpz with
      | none => cases s.rpzBackup d.second <;> simp
      | some text => simp
  | activated => exact rpz_restored_iff_of_activated d s [] none rfl rfl
  | cacheInstalled => exact rpz_restored_iff_of_activated d s [] none rfl rfl
  | cacheRecording => exact rpz_restored_iff_of_activated d s [] none rfl rfl
  | layer replaced listed =>
      have hrestored := sameOthers_restored (reachedTargets d replaced listed)
        (installCacheOptions d (activateRpz d s))
      exact rpz_restored_iff_of_activated d s [] _ hrestored.rpz hrestored.rpzBackup
  | postcheck =>
      have hdeployed := sameOthers_deployDnsdistLayer d (installCacheOptions d (activateRpz d s))
      exact rpz_restored_iff_of_activated d s _ _ hdeployed.rpz hdeployed.rpzBackup

theorem cache_restored_iff (point : PipelinePoint) :
    (deployFails d s point).cacheOptions = s.cacheOptions ↔ CacheRestored d s point := by
  cases point with
  | preparing => simp [deployFails, rollback_cacheOptions, CacheRestored]
  | backingUp copied => simp [deployFails, rollback_cacheOptions, CacheRestored]
  | backedUp => simp [deployFails, rollback_cacheOptions, CacheRestored, backedUpRpz]
  | activated => simp [deployFails, rollback_cacheOptions, CacheRestored]
  | cacheInstalled =>
      rw [deployFails, rollback_cacheOptions, Option.getD_none, restoreCacheOptions,
        installCacheOptions, activateRpz_cacheOptions, activateRpz_cacheBackup]
      unfold CacheRestored
      cases s.cacheOptions <;> simp
  | cacheRecording =>
      rw [deployFails, rollback_cacheOptions, Option.getD_none]
      exact eq_comm
  | layer replaced listed =>
      rw [deployFails, rollback_cacheOptions]
      simp [CacheRestored]
  | postcheck =>
      rw [deployFails, rollback_cacheOptions]
      simp [CacheRestored]

theorem layer_unchanged (point : PipelinePoint) : (deployFails d s point).layer = s.layer := by
  cases point with
  | preparing =>
      rw [deployFails, rollback_layer]
      rfl
  | backingUp copied =>
      rw [deployFails, rollback_layer]
      exact backUpRpz_layer d s copied
  | backedUp =>
      rw [deployFails, rollback_layer]
      exact backUpRpz_layer d s _
  | activated =>
      rw [deployFails, rollback_layer]
      exact backUpRpz_layer d s _
  | cacheInstalled =>
      rw [deployFails, rollback_layer]
      exact installed_layer d s
  | cacheRecording =>
      rw [deployFails, rollback_layer]
      exact installed_layer d s
  | layer replaced listed =>
      rw [deployFails, rollback_layer]
      exact (layer_restored (nodup_reachedTargets d replaced listed) _).trans (installed_layer d s)
  | postcheck =>
      rw [deployFails, rollback_layer]
      exact (layer_restored_deployed d _).trans (installed_layer d s)

end Stages

/-- **When the live files are what they were before the call.** -/
theorem live_restored_iff (d : Deployment) (s : Appliance) (point : PipelinePoint) :
    (deployFails d s point).SameLive s ↔ RpzRestored d s point ∧ CacheRestored d s point := by
  rw [← rpz_restored_iff, ← cache_restored_iff]
  constructor
  · rintro ⟨hrpz, hoptions, -⟩
    exact ⟨hrpz, hoptions⟩
  · rintro ⟨hrpz, hoptions⟩
    exact ⟨hrpz, hoptions, layer_unchanged d s point⟩

/-- A zone with one record. -/
def zoneText (serial record : String) : Str :=
  "$TTL 60\n@ IN SOA localhost. hostmaster.localhost. ".toList ++ serial.toList ++
    " 1h 15m 30d 2h\n@ IN NS localhost.\n".toList ++ record.toList ++ ['\n']

/-- The zone that one deployment has compiled. -/
def oneBlock : Deployment where
  second := 1790000000
  rpzText := zoneText "1790000000" "ads.example CNAME ."
  cacheSecond := 1790000002
  cacheContent := "max-cache-size 64m;\n".toList
  targets := []
  distinct := List.nodup_nil
  rollbackSecond := 1790000004

/-- No deployment before. -/
def newAppliance : Appliance where
  rpz := none
  cacheOptions := none
  layer := fun _ => none
  rpzBackup := fun _ => none
  cacheBackup := fun _ => none
  layerBackup := fun _ _ => none

/-- A deployment of the same second has left a backup of the zone before it. -/
def sameSecond : Appliance :=
  { newAppliance with
    rpz := some (zoneText "1790000000" "ads.example CNAME .")
    rpzBackup := fun _ => some (zoneText "1780000000" "old.example CNAME .") }

/-- A first deployment that fails after it has replaced the RPZ leaves the new one, and one that
fails in the second of the deployment before it brings back the zone before that. -/
theorem live_not_restored :
    ¬ (deployFails oneBlock newAppliance .activated).SameLive newAppliance ∧
      ¬ (deployFails oneBlock sameSecond .preparing).SameLive sameSecond := by
  have hfirst : newAppliance.rpz.isSome ≠ true := by decide
  have hstale : sameSecond.rpz.map withoutSerial
      ≠ some (withoutSerial (zoneText "1780000000" "old.example CNAME .")) := by
    decide +kernel
  refine ⟨fun h => hfirst ?_, fun h => hstale ?_⟩
  · exact (rpz_restored_iff oneBlock newAppliance .activated).mp h.rpz
  · exact (rpz_restored_iff oneBlock sameSecond .preparing).mp h.rpz _ rfl

end AlderpointDNS
