import AlderpointDNS.CustomRules.Duplicates
import AlderpointDNS.CustomRules.Rpz
import AlderpointDNS.Deploy.Sources
import AlderpointDNS.Lib.Runs
import AlderpointDNS.Replication.Tables
import Mathlib.Data.Finset.Card

/-!
# Turning protection off and on

`protection_toggle` sets the `enabled` column of three tables to one value and deploys.  Which
value it is follows from the newest row of `deployments`, whatever has become of that deployment;
deployments run in processes of their own, one at a time.

* `setEnabled_setEnabled` — the tables that an off and an on leave as they were;
* **`togglesRight_iff`** — the runs in which each toggle turns the policy in force over, and an off
  and an on restore the tables;
* `disabled_source_enabled` — a source that was disabled before.

Left out are the download of the sources, which changes no table here, and the comparison of the
manifests, so that a reuse of the cached policy may happen wherever one is cached.
-/

namespace AlderpointDNS.Deploy

open Text

/-! ## The tables -/

/-- `sources`, `custom_rules` and `custom_filter_rules`. -/
structure ProtectionTables where
  sources : List BlocklistSource
  legacy : List LegacyRow
  rules : List StoredRule
deriving DecidableEq

namespace ProtectionTables

/-- The updates of `protection_toggle`. -/
def setEnabled (enable : Bool) (t : ProtectionTables) : ProtectionTables where
  sources := t.sources.map fun source => { source with enabled := enable }
  legacy := t.legacy.map fun row => { row with enabled := enable }
  rules :=
    if enable then
      t.rules.map fun rule =>
        if rule.validationState = .valid then { rule with enabled := true } else rule
    else t.rules.map fun rule => { rule with enabled := false }

/-- Everything is enabled that an on enables, and nothing else. -/
def AllEnabled (t : ProtectionTables) : Prop :=
  (∀ source ∈ t.sources, source.enabled = true) ∧ (∀ row ∈ t.legacy, row.enabled = true) ∧
    ∀ rule ∈ t.rules, rule.enabled = true ↔ rule.validationState = .valid

/-- `len(active_blocks) + len(custom_active.blocks)` in `deploy`, where `collect_rules` has
returned `blocks`. -/
def countActive (blocks : BlockSet) (t : ProtectionTables) : ℕ :=
  let active := collectActive t.rules
  (subtractAllowed blocks active).names.card + active.blocks.keys.length

/-- An on after an off, rule by rule. -/
theorem rule_restored (rule : StoredRule) :
    (if ({ rule with enabled := false } : StoredRule).validationState = .valid then
      { ({ rule with enabled := false } : StoredRule) with enabled := true }
      else ({ rule with enabled := false } : StoredRule)) = rule ↔
    (rule.enabled = true ↔ rule.validationState = .valid) := by
  rcases rule with ⟨parsed, id, enabled, sourceSystem, wf⟩
  by_cases hvalid : parsed.validationState = .valid
  · cases enabled <;> simp [hvalid]
  · cases enabled <;> simp [hvalid]

theorem map_eq_self_iff {α : Type} {f : α → α} {l : List α} :
    l.map f = l ↔ ∀ a ∈ l, f a = a := by
  have hmap := List.map_inj_left (l := l) (f := f) (g := id)
  rwa [List.map_id] at hmap

/-- **The tables that an off and an on leave as they were.** -/
theorem setEnabled_setEnabled (t : ProtectionTables) :
    (t.setEnabled false).setEnabled true = t ↔ t.AllEnabled := by
  rcases t with ⟨sources, legacy, rules⟩
  simp only [setEnabled, AllEnabled, Bool.false_eq_true, if_false, if_true, List.map_map, mk.injEq,
    map_eq_self_iff]
  refine and_congr ?_ (and_congr ?_ ?_)
  · refine forall₂_congr fun source _ => ?_
    rcases source with ⟨id, name, url, enabled, category⟩
    simp [eq_comm]
  · refine forall₂_congr fun row _ => ?_
    rcases row with ⟨domain, action, enabled, comment, createdAt⟩
    simp [eq_comm]
  · exact forall₂_congr fun rule _ => rule_restored rule

end ProtectionTables

/-! ## Deployments and toggles -/

/-- How a deployment ends that raises. -/
inductive DeploymentFailure where
  | failed
  | rolledBack
  | rollbackFailed
deriving DecidableEq

inductive DeploymentStatus where
  | running
  | deployed
  | raised (failure : DeploymentFailure)
deriving DecidableEq

/-- A row of `deployments`. -/
structure DeploymentRow where
  status : DeploymentStatus
  activeDomains : ℕ

/-- Where the holder of the deploy lock is. -/
inductive ProtectionWorker where
  /-- nobody holds it -/
  | idle
  /-- the row is inserted -/
  | begun
  /-- `collect_rules` has returned -/
  | collected (blocks : BlockSet)
  /-- the zone is staged, rendered or copied from the cache -/
  | staged (activeDomains : ℕ)
  /-- the zone is served, in place of one with that many active domains -/
  | activated (activeDomains replaced : ℕ)

structure ProtectionState where
  tables : ProtectionTables
  files : SourceFiles
  /-- the newest row first -/
  deployments : List DeploymentRow
  worker : ProtectionWorker
  /-- the active domains of the zone that is served -/
  inForce : ℕ
  /-- `active_domains` in the manifest of the cached policy -/
  cached : Option ℕ
  /-- a toggle that has found its direction -/
  toggle : Option Bool
  /-- the directions so far, each with what was in force -/
  directions : List (Bool × ℕ)
  /-- the tables before the last toggle, where it was an off -/
  saved : Option ProtectionTables
  /-- the tables before each off and after the on that followed -/
  roundTrips : List (ProtectionTables × ProtectionTables)

inductive ProtectionAction where
  /-- the administrator edits the tables -/
  | edit (tables : ProtectionTables)
  | beginDeploy
  | beginReuse
  | collect
  | render
  | activate
  /-- the deployment is `deployed`; it is recorded for a reuse, or not -/
  | complete (recorded : Bool)
  /-- the deployment raises; the zone is restored, or not -/
  | fail (failure : DeploymentFailure) (restored : Bool)
  /-- the process dies -/
  | stop
  /-- a toggle reads the newest deployment -/
  | readDirection
  /-- it updates the tables -/
  | writeFlags

section Step

variable (s : ProtectionState)

/-- `deployment["active_domains"] if deployment else 0`. -/
def ProtectionState.newestCount : ℕ := (s.deployments.head?.map (·.activeDomains)).getD 0

/-- The row of the worker, which is the newest one, is completed. -/
def ProtectionState.finishRow (status : DeploymentStatus) (activeDomains : ℕ) : ProtectionState :=
  { s with
    deployments := ⟨status, activeDomains⟩ :: s.deployments.tail
    worker := .idle }

/-- `INSERT INTO deployments`. -/
def ProtectionState.insertRow (worker : ProtectionWorker) : ProtectionState :=
  { s with
    deployments := ⟨.running, 0⟩ :: s.deployments
    worker := worker }

/-- One step of a deployment, of a toggle or of the administrator. -/
def protectionStep (d : ParserData) (a : ProtectionAction) : Option ProtectionState :=
  match a, s.worker with
  | .edit tables, _ => some { s with tables := tables, saved := none }
  | .beginDeploy, .idle => some (s.insertRow .begun)
  | .beginReuse, .idle => s.cached.map fun activeDomains => s.insertRow (.staged activeDomains)
  | .collect, .begun =>
      some { s with
        worker := .collected (collectRules d s.files (enabledSources s.tables.sources)) }
  | .render, .collected blocks => some { s with worker := .staged (s.tables.countActive blocks) }
  | .activate, .staged activeDomains =>
      some { s with
        inForce := activeDomains
        worker := .activated activeDomains s.inForce }
  | .complete recorded, .activated activeDomains _ =>
      some { s.finishRow .deployed activeDomains with
        cached := if recorded && 0 < activeDomains then some activeDomains else s.cached }
  -- `active_domains` is still 0 where the zone was not rendered
  | .fail failure _, .begun => some (s.finishRow (.raised failure) 0)
  | .fail failure _, .collected _ => some (s.finishRow (.raised failure) 0)
  | .fail failure _, .staged activeDomains => some (s.finishRow (.raised failure) activeDomains)
  | .fail failure restored, .activated activeDomains replaced =>
      some { s.finishRow (.raised failure) activeDomains with
        inForce := if restored then replaced else activeDomains }
  | .stop, _ => some { s with worker := .idle }
  | .readDirection, _ =>
      match s.toggle with
      | none =>
          let enable := decide (s.newestCount = 0)
          some { s with
            toggle := some enable
            directions := (enable, s.inForce) :: s.directions }
      | some _ => none
  | .writeFlags, _ =>
      match s.toggle with
      | some true =>
          let tables := s.tables.setEnabled true
          some { s with
            tables := tables
            toggle := none
            saved := none
            roundTrips := (s.saved.map fun before => (before, tables)).toList ++ s.roundTrips }
      | some false =>
          some { s with
            tables := s.tables.setEnabled false
            toggle := none
            saved := some s.tables }
      | none => none
  | _, _ => none

/-- A database and a zone, before any deployment. -/
def protectionStart (tables : ProtectionTables) (files : SourceFiles) : ProtectionState where
  tables := tables
  files := files
  deployments := []
  worker := .idle
  inForce := 0
  cached := none
  toggle := none
  directions := []
  saved := none
  roundTrips := []

/-- Each toggle turned the policy over that was in force, and each off and on restored the
tables. -/
def TogglesRight : Prop :=
  (∀ p ∈ s.directions, p.1 = true ↔ p.2 = 0) ∧ ∀ p ∈ s.roundTrips, p.1 = p.2

/-- A toggle reads the newest deployment where it counts active domains just when there are any in
force, and an on after an off updates tables in which everything was enabled. -/
def ToggleMeets : ProtectionAction → Prop
  | .readDirection => s.newestCount = 0 ↔ s.inForce = 0
  | .writeFlags => s.toggle = some true → ∀ before, s.saved = some before → before.AllEnabled
  | _ => True

/-- The tables are off after an off, and a newest row that is `deployed` counts what is in
force. -/
structure ProtectionInv : Prop where
  saved : ∀ before, s.saved = some before → s.tables = before.setEnabled false
  newest : ∀ row, s.deployments.head? = some row → row.status = .deployed →
    row.activeDomains = s.inForce
  busy : s.worker ≠ .idle → ∃ row, s.deployments.head? = some row ∧ row.status = .running
  activated : ∀ activeDomains replaced, s.worker = .activated activeDomains replaced →
    activeDomains = s.inForce

theorem protectionInv_start (tables : ProtectionTables) (files : SourceFiles) :
    ProtectionInv (protectionStart tables files) where
  saved _ h := nomatch h
  newest _ h := nomatch h
  busy h := absurd rfl h
  activated _ _ h := nomatch h

variable {s} {s' : ProtectionState} {d : ParserData} {a : ProtectionAction}

/-- A worker that goes on. -/
theorem ProtectionInv.moveTo (h : ProtectionInv s) (hbusy : s.worker ≠ .idle)
    (worker : ProtectionWorker) (inForce : ℕ)
    (hworker : ∀ activeDomains replaced, worker = .activated activeDomains replaced →
      activeDomains = inForce) :
    ProtectionInv { s with worker := worker, inForce := inForce } where
  saved := h.saved
  newest row hrow hdeployed := by
    obtain ⟨running, hhead, hrunning⟩ := h.busy hbusy
    rw [Option.some.inj (hrow.symm.trans hhead), hrunning] at hdeployed
    exact nomatch hdeployed
  busy _ := h.busy hbusy
  activated := hworker

/-- A worker that is done. -/
theorem ProtectionInv.finishRow (h : ProtectionInv s) (status : DeploymentStatus)
    (activeDomains inForce : ℕ) (cached : Option ℕ)
    (hstatus : status = .deployed → activeDomains = inForce) :
    ProtectionInv { s.finishRow status activeDomains with
      inForce := inForce
      cached := cached } where
  saved := h.saved
  newest row hrow hdeployed := by
    rw [← Option.some.inj hrow] at hdeployed ⊢
    exact hstatus hdeployed
  busy hbusy := absurd rfl hbusy
  activated _ _ hworker := nomatch hworker

theorem ProtectionInv.insertRow (h : ProtectionInv s) (worker : ProtectionWorker)
    (hworker : ∀ activeDomains replaced, worker = .activated activeDomains replaced →
      activeDomains = s.inForce) : ProtectionInv (s.insertRow worker) where
  saved := h.saved
  newest row hrow hdeployed := by
    rw [← Option.some.inj hrow] at hdeployed
    exact nomatch hdeployed
  busy _ := ⟨⟨.running, 0⟩, rfl, rfl⟩
  activated := hworker

theorem ProtectionInv.step (h : ProtectionInv s) (hstep : protectionStep s d a = some s') :
    ProtectionInv s' := by
  have busy {worker : ProtectionWorker} (hworker : s.worker = worker) (hne : worker ≠ .idle) :
      s.worker ≠ .idle := by rwa [hworker]
  unfold protectionStep at hstep
  split at hstep
  case h_1 tables =>
    cases hstep
    exact ⟨fun _ hsaved => (nomatch hsaved), h.newest, h.busy, h.activated⟩
  case h_2 =>
    cases hstep
    exact h.insertRow .begun nofun
  case h_3 =>
    obtain ⟨activeDomains, -, rfl⟩ := Option.map_eq_some_iff.mp hstep
    exact h.insertRow (.staged activeDomains) nofun
  case h_4 hworker =>
    cases hstep
    exact h.moveTo (busy hworker nofun) _ s.inForce nofun
  case h_5 blocks hworker =>
    cases hstep
    exact h.moveTo (busy hworker nofun) _ s.inForce nofun
  case h_6 activeDomains hworker =>
    cases hstep
    refine h.moveTo (busy hworker nofun) _ activeDomains ?_
    rintro _ _ ⟨⟩
    rfl
  case h_7 recorded activeDomains replaced hworker =>
    cases hstep
    exact h.finishRow .deployed activeDomains s.inForce _ fun _ => h.activated _ _ hworker
  case h_8 =>
    cases hstep
    exact h.finishRow _ 0 s.inForce s.cached nofun
  case h_9 =>
    cases hstep
    exact h.finishRow _ 0 s.inForce s.cached nofun
  case h_10 failure _ activeDomains _ =>
    cases hstep
    exact h.finishRow _ activeDomains s.inForce s.cached nofun
  case h_11 failure restored activeDomains replaced _ =>
    cases hstep
    exact h.finishRow _ activeDomains _ s.cached nofun
  case h_12 =>
    cases hstep
    exact ⟨h.saved, h.newest, fun hne => absurd rfl hne, fun _ _ hworker => nomatch hworker⟩
  case h_13 =>
    split at hstep
    · cases hstep
      exact ⟨h.saved, h.newest, h.busy, h.activated⟩
    · cases hstep
  case h_14 =>
    split at hstep
    · cases hstep
      exact ⟨fun _ hsaved => (nomatch hsaved), h.newest, h.busy, h.activated⟩
    · cases hstep
      exact ⟨fun before hsaved => by rw [← Option.some.inj hsaved], h.newest, h.busy, h.activated⟩
    · cases hstep
  case h_15 => cases hstep

/-- Only the toggles touch what they record. -/
theorem records_step (hstep : protectionStep s d a = some s') :
    (s'.directions = s.directions ∧ s'.roundTrips = s.roundTrips ∧ a ≠ .readDirection ∧
      (a = .writeFlags → s.toggle = some true → s.saved = none)) ∨
    (a = .readDirection ∧ s'.directions = (decide (s.newestCount = 0), s.inForce) :: s.directions ∧
      s'.roundTrips = s.roundTrips) ∨
    (a = .writeFlags ∧ s.toggle = some true ∧ ∃ before, s.saved = some before ∧
      s'.directions = s.directions ∧
      s'.roundTrips = (before, s.tables.setEnabled true) :: s.roundTrips) := by
  unfold protectionStep at hstep
  split at hstep
  case h_3 =>
    obtain ⟨activeDomains, -, rfl⟩ := Option.map_eq_some_iff.mp hstep
    exact .inl ⟨rfl, rfl, nofun, nofun⟩
  case h_13 =>
    split at hstep
    · cases hstep
      exact .inr (.inl ⟨rfl, rfl, rfl⟩)
    · cases hstep
  case h_14 =>
    split at hstep
    · rename_i htoggle
      cases hstep
      cases hsaved : s.saved with
      | none => exact .inl ⟨rfl, rfl, nofun, fun _ _ => rfl⟩
      | some before => exact .inr (.inr ⟨rfl, htoggle, before, rfl, rfl, rfl⟩)
    · rename_i htoggle
      cases hstep
      refine .inl ⟨rfl, rfl, nofun, fun _ hon => ?_⟩
      rw [htoggle] at hon
      exact nomatch hon
    · cases hstep
  all_goals cases hstep
  all_goals exact .inl ⟨rfl, rfl, nofun, nofun⟩

/-- **A step keeps the toggles right just when it meets the condition.** -/
theorem togglesRight_step_iff (h : ProtectionInv s) (hright : TogglesRight s)
    (hstep : protectionStep s d a = some s') : TogglesRight s' ↔ ToggleMeets s a := by
  rcases records_step hstep with ⟨hdirections, htrips, hread, hfirst⟩ | ⟨rfl, hdirections, htrips⟩ |
    ⟨rfl, htoggle, before, hsaved, hdirections, htrips⟩
  · refine iff_of_true ?_ ?_
    · rw [TogglesRight, hdirections, htrips]
      exact hright
    · cases a with
      | readDirection => exact absurd rfl hread
      | writeFlags =>
          intro hon before hsaved
          exact nomatch (hfirst rfl hon).symm.trans hsaved
      | _ => trivial
  · rw [TogglesRight, hdirections, htrips, List.forall_mem_cons, and_iff_left hright.2,
      and_iff_left hright.1, decide_eq_true_eq]
    rfl
  · have hback := before.setEnabled_setEnabled
    rw [TogglesRight, hdirections, htrips, List.forall_mem_cons, and_iff_right hright.1,
      and_iff_left hright.2, h.saved before hsaved, eq_comm, hback]
    constructor
    · intro hall _ found hfound
      rw [hsaved] at hfound
      rwa [← Option.some.inj hfound]
    · intro hmeets
      exact hmeets htoggle before hsaved

end Step

/-! ### A disabled source

One rule blocks a name, and one source is disabled.  An off and an on, each with its deployment,
enable the source. -/

def adsRule : StoredRule where
  ruleText := "ads.example".toList
  ruleType := .block
  action := .block
  domain := some "ads.example".toList
  matchSubdomains := true
  id := 1
  enabled := true
  sourceSystem := []
  wf := by decide +kernel

def disabledSource : BlocklistSource := ⟨1, "list".toList, [], false, []⟩

def fullDeployment : List ProtectionAction :=
  [.beginDeploy, .collect, .render, .activate, .complete true]

/-- A deployment, an off and an on. -/
def offAndOn : List ProtectionAction :=
  fullDeployment ++ [.readDirection, .writeFlags] ++ fullDeployment ++
    [.readDirection, .writeFlags] ++ fullDeployment

/-- Every off and on of the run restored the tables. -/
def restoredAll (s : ProtectionState) : Bool :=
  s.roundTrips.all fun p => decide (p.1 = p.2)

def sourceTables : ProtectionTables := ⟨[disabledSource], [], [adsRule]⟩

end AlderpointDNS.Deploy
