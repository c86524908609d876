import AlderpointDNS.Lib.Tables
import AlderpointDNS.Lib.Text
import AlderpointDNS.Upstream.Resolvers
import Mathlib.Data.Rat.Init

/-!
# Probes of the resolvers

`upstream_probe_loop` reads an enabled row, probes it over the network and calls
`record_probe_result`, which updates the row that has the id by then.  Meanwhile resolvers are added,
changed, disabled and deleted.  An action is what one connection does up to its commit, and a
failed probe reads the count of failures before it writes; any number of probes are on their way.

A request that is refused writes nothing and is no action; when one is, is the matter of
`Resolvers`.  Where `init_db` fills an empty table, it adds rows as `add_resolver` does.

`incarnation` and `shown` are not in the table: how often an id has been given out, and the probe
that the status of a row comes from.

* `ProbeState.Current` — a probe is one of the row that has its id, as it is configured.
* `Undisturbed` — the rows that are being probed keep their endpoint, and their ids.
* `mixUp_of_disturbed` — otherwise a row can be shown the result of another one.
* **`shown_right_iff`** — every status comes from a probe of the row that it is shown for, exactly if no
  row is disturbed.
* `old_endpoint_shown` — a resolver gets another address while it is probed.
-/

namespace AlderpointDNS.Upstream

open Runs Text

/-! ## The probe columns -/

inductive ProbeStatus where
  | checking
  | healthy
  | failed
  | disabled
  deriving DecidableEq

/-- The columns `probe_…` of a row. -/
structure ProbeColumns where
  status : ProbeStatus
  message : Str
  latencyMs : Option ℚ
  checkedAt : Option Str
  failureCount : ℕ
  deriving DecidableEq

/-- `_reset_probe_state`, and the columns of a new row. -/
def resetColumns (enabled : Bool) : ProbeColumns :=
  if enabled then ⟨.checking, [], none, none, 0⟩ else ⟨.disabled, "Disabled".toList, none, none, 0⟩

/-- `UPSTREAM_PROBE_FAILURE_THRESHOLD`. -/
def failureThreshold : ℕ := 3

def succeededColumns (latencyMs : ℚ) (ts : Str) : ProbeColumns :=
  ⟨.healthy, "Direct probe succeeded".toList, some latencyMs, some ts, 0⟩

/-- `failures` is the count that has been read; the message has been redacted. -/
def failedColumns (failures : ℕ) (message ts : Str) : ProbeColumns :=
  if failureThreshold ≤ failures + 1 then
    ⟨.failed, message.take 400, none, some ts, failures + 1⟩
  else
    ⟨.checking, "Probe failed ".toList ++ Nat.toDigits 10 (failures + 1) ++ ['/'] ++
      Nat.toDigits 10 failureThreshold ++ "; waiting for confirmation".toList, none, some ts,
      failures + 1⟩

/-! ## The table -/

/-- What a probe makes use of: everything but the name. -/
def Settings.endpoint (settings : Settings) : Settings := { settings with name := "" }

namespace ResolverTable

/-- The id of the next row. -/
def nextId (t : ResolverTable) : ℕ := nextRowid (t.rows.map (·.id))

theorem lt_nextId {t : ResolverTable} {r : Resolver} (hr : r ∈ t.rows) : r.id < t.nextId :=
  lt_nextRowid (List.mem_map_of_mem hr)

/-- The `INSERT` of `add_resolver`. -/
def addRow (t : ResolverTable) (settings : Settings) (enabled : Bool) : ResolverTable where
  rows := t.rows ++ [{
    id := t.nextId
    settings := settings
    enabled := enabled
    position := (t.rows.map (·.position)).foldl max 0 + 1 }]
  key := by
    rw [List.map_append, List.nodup_append]
    refine ⟨t.key, by simp, ?_⟩
    intro id hid id' hid' heq
    obtain ⟨r, hr, rfl⟩ := List.mem_map.mp hid
    obtain rfl : id' = t.nextId := by simpa using hid'
    exact (lt_nextId hr).ne heq

/-- `SELECT … WHERE id=? AND enabled=1`. -/
def enabledRow (t : ResolverTable) (id : ℕ) : Option Resolver :=
  t.rows.find? fun r => r.id = id && r.enabled

end ResolverTable

/-! ## The states -/

/-- A row that has been read, as the incarnation of its id that it was. -/
structure Probe where
  row : Resolver
  incarnation : ℕ
  deriving DecidableEq

/-- Where a probe is. -/
inductive ProbePhase where
  | idle
  | running (probe : Probe)
  /-- `record_probe_result` has read the count of failures -/
  | failing (probe : Probe) (failures : ℕ)

/-- The probe that is on its way. -/
def ProbePhase.probe : ProbePhase → Option Probe
  | .idle => none
  | .running probe | .failing probe _ => some probe

/-- The table with the probe columns of each row, and where each probe is. -/
structure ProbeState where
  resolvers : ResolverTable
  columns : ℕ → ProbeColumns
  phase : ℕ → ProbePhase
  incarnation : ℕ → ℕ
  shown : ℕ → Option Probe

/-- What can happen; `i` is the number of a probe. -/
inductive ProbeAction where
  | addResolver (settings : Settings) (enabled : Bool)
  | request (request : Request)
  | read (i id : ℕ)
  | succeed (i : ℕ) (latencyMs : ℚ) (ts : Str)
  | countFailures (i : ℕ)
  | fail (i : ℕ) (message ts : Str)

namespace ProbeState

/-- The columns are written, for the probe that they come from. -/
def setColumns (s : ProbeState) (id : ℕ) (columns : ProbeColumns) (probe : Option Probe) :
    ProbeState :=
  { s with
    columns := Function.update s.columns id columns
    shown := Function.update s.shown id probe }

def move (s : ProbeState) (i : ℕ) (phase : ProbePhase) : ProbeState :=
  { s with phase := Function.update s.phase i phase }

/-- `add_resolver`. -/
def add (s : ProbeState) (settings : Settings) (enabled : Bool) : ProbeState :=
  let id := s.resolvers.nextId
  { s.setColumns id (resetColumns enabled) none with
    resolvers := s.resolvers.addRow settings enabled
    incarnation := Function.update s.incarnation id (s.incarnation id + 1) }

/-- The writes of `set_enabled`, `update_resolver` and `delete_resolver`. -/
def write (s : ProbeState) (request : Request) : ProbeState :=
  let s := { s with resolvers := request.write s.resolvers }
  match request with
  | .setEnabled id enabled | .updateResolver id _ enabled =>
      s.setColumns id (resetColumns enabled) none
  | .deleteResolver _ => s

/-- `UPDATE … WHERE id=? AND enabled=1`. -/
def record (s : ProbeState) (probe : Probe) (columns : ProbeColumns) : ProbeState :=
  if (s.resolvers.enabledRow probe.row.id).isSome then
    s.setColumns probe.row.id columns (some probe)
  else s

end ProbeState

/-- One action; `redact` is `_redact_probe_message`. -/
def probeStep (redact : Str → Str) (s : ProbeState) : ProbeAction → Option ProbeState
  | .addResolver settings enabled => some (s.add settings enabled)
  | .request request => some (s.write request)
  | .read i id =>
      match s.phase i, s.resolvers.enabledRow id with
      | .idle, some row => some (s.move i (.running ⟨row, s.incarnation id⟩))
      | _, _ => none
  | .succeed i latencyMs ts =>
      match s.phase i with
      | .running probe => some ((s.record probe (succeededColumns latencyMs ts)).move i .idle)
      | _ => none
  | .countFailures i =>
      match s.phase i with
      | .running probe =>
          if (s.resolvers.enabledRow probe.row.id).isSome then
            some (s.move i (.failing probe (s.columns probe.row.id).failureCount))
          else some (s.move i .idle)
      | _ => none
  | .fail i message ts =>
      match s.phase i with
      | .failing probe failures =>
          some ((s.record probe (failedColumns failures (redact message) ts)).move i .idle)
      | _ => none

/-- No probe has begun, and none has recorded anything yet. -/
def idleState (t : ResolverTable) (columns : ℕ → ProbeColumns) : ProbeState where
  resolvers := t
  columns := columns
  phase := fun _ => .idle
  incarnation := fun _ => 0
  shown := fun _ => none

/-! ## Rows that keep their settings -/

namespace ResolverTable

variable {t : ResolverTable}

/-- Renumbering keeps the settings. -/
theorem settings_of_mem_renumber {r : Resolver} (h : r ∈ t.renumber.rows) :
    ∃ r' ∈ t.rows, r'.id = r.id ∧ r'.settings = r.settings := by
  have hfold : ∀ (l : List (Resolver × ℕ)) (t : ResolverTable),
      r ∈ (l.foldl (fun t entry => t.setPosition entry.1.id entry.2) t).rows →
      ∃ r' ∈ t.rows, r'.id = r.id ∧ r'.settings = r.settings := by
    intro l
    induction l with
    | nil => exact fun t hr => ⟨r, hr, rfl, rfl⟩
    | cons entry l ih =>
        intro t hr
        obtain ⟨r', hr', hid, hsettings⟩ := ih _ hr
        obtain ⟨r'', hr'', rfl⟩ := List.mem_map.mp hr'
        refine ⟨r'', hr'', ?_⟩
        split_ifs at hid hsettings
        · exact ⟨hid, hsettings⟩
        · exact ⟨hid, hsettings⟩
  exact hfold _ t h

end ResolverTable

/-- Only `update_resolver` changes settings. -/
theorem Request.settings_of_mem_write {t : ResolverTable} {request : Request} {r : Resolver}
    (h : r ∈ (request.write t).rows) :
    (∃ r' ∈ t.rows, r'.id = r.id ∧ r'.settings = r.settings) ∨
      ∃ enabled, request = .updateResolver r.id r.settings enabled ∧ t.HasId r.id := by
  cases request with
  | setEnabled id enabled =>
      obtain ⟨r', hr', rfl⟩ := List.mem_map.mp h
      refine Or.inl ⟨r', hr', ?_⟩
      split_ifs
      · exact ⟨rfl, rfl⟩
      · exact ⟨rfl, rfl⟩
  | updateResolver id settings enabled =>
      obtain ⟨r', hr', rfl⟩ := List.mem_map.mp h
      by_cases hid : r'.id = id
      · subst hid
        rw [if_pos rfl]
        exact Or.inr ⟨enabled, rfl, r', hr', rfl⟩
      · rw [if_neg hid]
        exact Or.inl ⟨r', hr', rfl, rfl⟩
  | deleteResolver id =>
      obtain ⟨r', hr', hsame⟩ := ResolverTable.settings_of_mem_renumber h
      exact Or.inl ⟨r', List.mem_of_mem_filter hr', hsame⟩

/-! ## Probes of the row that has the id -/

namespace ProbeState

/-- Nothing but the name of the row has been changed since the probe read it. -/
structure Current (s : ProbeState) (probe : Probe) : Prop where
  seen : probe.incarnation ≤ s.incarnation probe.row.id
  same : ∀ r ∈ s.resolvers.rows, r.id = probe.row.id → probe.incarnation = s.incarnation r.id ∧
    probe.row.settings.endpoint = r.settings.endpoint

/-- The probe is on its way. -/
def InFlight (s : ProbeState) (probe : Probe) : Prop := ∃ i, (s.phase i).probe = some probe

/-- Every status comes from a probe of the row as it is. -/
def ShownRight (s : ProbeState) : Prop :=
  ∀ r ∈ s.resolvers.rows, ∀ probe, s.shown r.id = some probe → probe.row.id = r.id ∧
    probe.incarnation = s.incarnation r.id ∧ probe.row.settings.endpoint = r.settings.endpoint

/-- What the steps keep. -/
structure ProbeInvariant (s : ProbeState) : Prop where
  shown : ∀ id probe, s.shown id = some probe → probe.row.id = id ∧ s.Current probe
  inFlight : ∀ probe, s.InFlight probe → s.Current probe

theorem ProbeInvariant.shownRight {s : ProbeState} (h : s.ProbeInvariant) : s.ShownRight := by
  intro r hr probe hprobe
  obtain ⟨hid, hcurrent⟩ := h.shown r.id probe hprobe
  exact ⟨hid, hcurrent.same r hr hid.symm⟩

end ProbeState

/-- A row that is being probed keeps its endpoint, and the id of a probe that is on its way is not
given out again. -/
def Undisturbed (s : ProbeState) : ProbeAction → Prop
  | .addResolver _ _ => ∀ probe, s.InFlight probe → probe.row.id ≠ s.resolvers.nextId
  | .request (.updateResolver id settings _) => ∀ probe, s.InFlight probe → probe.row.id = id →
      s.resolvers.HasId id → probe.row.settings.endpoint = settings.endpoint
  | _ => True

/-! ## What the steps keep -/

namespace ProbeState

variable {s : ProbeState} {probe : Probe} {request : Request}

@[simp] theorem write_resolvers : (s.write request).resolvers = request.write s.resolvers := by
  cases request <;> rfl

@[simp] theorem write_incarnation : (s.write request).incarnation = s.incarnation := by
  cases request <;> rfl

@[simp] theorem write_phase : (s.write request).phase = s.phase := by
  cases request <;> rfl

theorem shown_write {id : ℕ} (h : (s.write request).shown id = some probe) :
    s.shown id = some probe ∧ ∀ settings enabled, request ≠ .updateResolver id settings enabled := by
  cases request with
  | setEnabled id' enabled =>
      by_cases hid : id = id'
      · simp [write, setColumns, hid] at h
      · simp only [write, setColumns, Function.update_of_ne hid] at h
        exact ⟨h, by simp⟩
  | updateResolver id' settings enabled =>
      by_cases hid : id = id'
      · simp [write, setColumns, hid] at h
      · simp only [write, setColumns, Function.update_of_ne hid] at h
        exact ⟨h, by simp [Ne.symm hid]⟩
  | deleteResolver id' => exact ⟨h, by simp⟩

/-- The table is what matters. -/
theorem Current.of_eq {s' : ProbeState} (h : s.Current probe)
    (hresolvers : s'.resolvers = s.resolvers) (hincarnation : s'.incarnation = s.incarnation) :
    s'.Current probe := by
  constructor
  · rw [hincarnation]
    exact h.seen
  · rw [hresolvers, hincarnation]
    exact h.same

/-- A probe stays one of its row unless `update_resolver` gives the row another endpoint. -/
theorem Current.write (h : s.Current probe) (hsame : ∀ settings enabled,
    request = .updateResolver probe.row.id settings enabled → s.resolvers.HasId probe.row.id →
      probe.row.settings.endpoint = settings.endpoint) : (s.write request).Current probe := by
  refine ⟨by rw [write_incarnation]; exact h.seen, fun r hr hid => ?_⟩
  rw [write_resolvers] at hr
  rw [write_incarnation]
  rcases Request.settings_of_mem_write hr with ⟨r', hr', hid', hsettings⟩ | ⟨enabled, rfl, hhas⟩
  · obtain ⟨hincarnation, hendpoint⟩ := h.same r' hr' (hid'.trans hid)
    rw [← hid', ← hsettings]
    exact ⟨hincarnation, hendpoint⟩
  · obtain ⟨r', hr', hid'⟩ := hhas
    have hincarnation := (h.same r' hr' (hid'.trans hid)).1
    rw [hid'] at hincarnation
    refine ⟨hincarnation, hsame r.settings enabled ?_ ⟨r', hr', hid'.trans hid⟩⟩
    rw [hid]

theorem ProbeInvariant.write (h : s.ProbeInvariant) (hok : Undisturbed s (.request request)) :
    (s.write request).ProbeInvariant := by
  constructor
  · intro id probe hprobe
    obtain ⟨hshown, hother⟩ := shown_write hprobe
    obtain ⟨hid, hcurrent⟩ := h.shown id probe hshown
    refine ⟨hid, hcurrent.write fun settings enabled hrequest => ?_⟩
    exact absurd (hid ▸ hrequest) (hother settings enabled)
  · intro probe hprobe
    have hflight : s.InFlight probe := by
      obtain ⟨i, hi⟩ := hprobe
      rw [write_phase] at hi
      exact ⟨i, hi⟩
    refine (h.inFlight probe hflight).write fun settings enabled hrequest hhas => ?_
    subst hrequest
    exact hok probe hflight rfl hhas

/-- A new row has a new id, or at least another incarnation of it. -/
theorem Current.add {settings : Settings} {enabled : Bool} (h : s.Current probe)
    (hid : probe.row.id ≠ s.resolvers.nextId) : (s.add settings enabled).Current probe := by
  refine ⟨?_, fun r hr hrow => ?_⟩
  · show probe.incarnation ≤ Function.update s.incarnation s.resolvers.nextId _ probe.row.id
    rw [Function.update_of_ne hid]
    exact h.seen
  have hne : r.id ≠ s.resolvers.nextId := fun heq => hid (hrow.symm.trans heq)
  rcases List.mem_append.mp hr with hr | hr
  · obtain ⟨hincarnation, hendpoint⟩ := h.same r hr hrow
    refine ⟨?_, hendpoint⟩
    show probe.incarnation = Function.update s.incarnation s.resolvers.nextId _ r.id
    rw [Function.update_of_ne hne]
    exact hincarnation
  · obtain rfl := List.mem_singleton.mp hr
    exact absurd rfl hne

theorem ProbeInvariant.add {settings : Settings} {enabled : Bool} (h : s.ProbeInvariant)
    (hok : Undisturbed s (.addResolver settings enabled)) :
    (s.add settings enabled).ProbeInvariant := by
  constructor
  · intro id probe hprobe
    have hne : id ≠ s.resolvers.nextId := by
      rintro rfl
      simp [ProbeState.add, setColumns] at hprobe
    have hshown : s.shown id = some probe := by
      simpa [ProbeState.add, setColumns, Function.update_of_ne hne] using hprobe
    obtain ⟨hid, hcurrent⟩ := h.shown id probe hshown
    exact ⟨hid, hcurrent.add (hid ▸ hne)⟩
  · intro probe hprobe
    exact (h.inFlight probe hprobe).add (hok probe hprobe)

/-- A status is recorded for the probe that it comes from. -/
theorem ProbeInvariant.record (h : s.ProbeInvariant) (hcurrent : s.Current probe)
    (columns : ProbeColumns) : (s.record probe columns).ProbeInvariant := by
  unfold ProbeState.record
  split_ifs
  · constructor
    · intro id probe' hprobe'
      by_cases hid : id = probe.row.id
      · subst hid
        simp only [setColumns, Function.update_self, Option.some.injEq] at hprobe'
        subst hprobe'
        exact ⟨rfl, hcurrent.of_eq rfl rfl⟩
      · simp only [setColumns, Function.update_of_ne hid] at hprobe'
        obtain ⟨hrow, hcurrent'⟩ := h.shown id probe' hprobe'
        exact ⟨hrow, hcurrent'.of_eq rfl rfl⟩
    · exact fun probe' hprobe' => (h.inFlight probe' hprobe').of_eq rfl rfl
  · exact h

theorem ProbeInvariant.move (h : s.ProbeInvariant) {i : ℕ} {phase : ProbePhase}
    (hphase : ∀ probe, phase.probe = some probe → s.Current probe) :
    (s.move i phase).ProbeInvariant := by
  constructor
  · intro id probe hprobe
    obtain ⟨hrow, hcurrent⟩ := h.shown id probe hprobe
    exact ⟨hrow, hcurrent.of_eq rfl rfl⟩
  · rintro probe ⟨j, hj⟩
    by_cases hji : j = i
    · subst hji
      simp only [ProbeState.move, Function.update_self] at hj
      exact (hphase probe hj).of_eq rfl rfl
    · simp only [ProbeState.move, Function.update_of_ne hji] at hj
      exact (h.inFlight probe ⟨j, hj⟩).of_eq rfl rfl

theorem ProbeInvariant.move_idle (h : s.ProbeInvariant) (i : ℕ) :
    (s.move i .idle).ProbeInvariant :=
  h.move fun _ hprobe => by cases hprobe

/-- A row that has just been read. -/
theorem current_read {id : ℕ} {row : Resolver} (h : s.resolvers.enabledRow id = some row) :
    s.Current ⟨row, s.incarnation id⟩ := by
  have hmem : row ∈ s.resolvers.rows := List.mem_of_find?_eq_some h
  have hid : row.id = id := by
    have hfound := List.find?_some h
    simp only [Bool.and_eq_true, decide_eq_true_eq] at hfound
    exact hfound.1
  refine ⟨by rw [hid], fun r hr hrow => ?_⟩
  obtain rfl := List.inj_on_of_nodup_map s.resolvers.key hr hmem hrow
  exact ⟨by rw [hid], rfl⟩

end ProbeState

/-! ## Runs -/

variable {redact : Str → Str} {s s' : ProbeState} {action : ProbeAction}

/-- **What each action keeps.** -/
theorem invariant_of_probeStep (hs : s.ProbeInvariant) (hok : Undisturbed s action)
    (h : probeStep redact s action = some s') : s'.ProbeInvariant := by
  cases action with
  | addResolver settings enabled =>
      cases h
      exact hs.add hok
  | request request =>
      cases h
      exact hs.write hok
  | read i id =>
      rw [probeStep] at h
      split at h
      · rename_i row _ hrow
        cases h
        refine hs.move fun probe hprobe => ?_
        cases hprobe
        exact ProbeState.current_read hrow
      · cases h
  | succeed i latencyMs ts =>
      rw [probeStep] at h
      split at h
      · rename_i probe hphase
        cases h
        have hcurrent := hs.inFlight probe ⟨i, by rw [hphase]; rfl⟩
        exact (hs.record hcurrent _).move_idle i
      · cases h
  | countFailures i =>
      rw [probeStep] at h
      split at h
      · rename_i probe hphase
        have hcurrent := hs.inFlight probe ⟨i, by rw [hphase]; rfl⟩
        split_ifs at h
        · cases h
          refine hs.move fun probe' hprobe' => ?_
          cases hprobe'
          exact hcurrent
        · cases h
          exact hs.move_idle i
      · cases h
  | fail i message ts =>
      rw [probeStep] at h
      split at h
      · rename_i probe failures hphase
        cases h
        have hcurrent := hs.inFlight probe ⟨i, by rw [hphase]; rfl⟩
        exact (hs.record hcurrent _).move_idle i
      · cases h

theorem invariant_idleState (t : ResolverTable) (columns : ℕ → ProbeColumns) :
    (idleState t columns).ProbeInvariant := by
  refine ⟨fun id probe h => ?_, ?_⟩
  · cases h
  · rintro probe ⟨i, hi⟩
    cases hi

/-! ## Mixing up -/

/-- A probe that is on its way comes to an end, or a resolver is enabled or disabled. -/
def ProbeAction.isHarmless : ProbeAction → Bool
  | .succeed _ _ _ | .countFailures _ | .fail _ _ _ | .request (.setEnabled _ _) => true
  | _ => false

theorem undisturbed_of_isHarmless (h : action.isHarmless = true) : Undisturbed s action := by
  cases action with
  | request request =>
      cases request with
      | setEnabled id enabled => trivial
      | updateResolver id settings enabled => cases h
      | deleteResolver id => trivial
  | addResolver settings enabled => cases h
  | _ => trivial

/-- Whatever the probes on their way turn out to be, their results are shown for the rows that they
are about. -/
def SafeToRecord (redact : Str → Str) (s : ProbeState) : Prop :=
  ∀ actions s', (∀ action ∈ actions, action.isHarmless = true) →
    run (probeStep redact) s actions = some s' → s'.ShownRight

theorem ProbeState.ProbeInvariant.safeToRecord (h : s.ProbeInvariant) : SafeToRecord redact s := by
  intro actions s' hharmless hrun
  have hok : StepsMeet (probeStep redact) Undisturbed s actions :=
    stepsMeet_of_forall fun action haction _ => undisturbed_of_isHarmless (hharmless action haction)
  exact (run_invariant (fun _ _ _ hs hok h => invariant_of_probeStep hs hok h) actions s s' h hok
    hrun).shownRight

/-- What comes of a result that is recorded for another row than the probe was of. -/
theorem not_shownRight_record (columns : ProbeColumns) {probe : Probe} {r : Resolver} {i : ℕ}
    (hr : r ∈ s.resolvers.rows) (hid : r.id = probe.row.id) (henabled : r.enabled = true)
    (hother : ¬(probe.incarnation = s.incarnation r.id ∧
      probe.row.settings.endpoint = r.settings.endpoint)) :
    ¬((s.record probe columns).move i .idle).ShownRight := by
  have hfound : (s.resolvers.enabledRow probe.row.id).isSome = true := by
    rw [ResolverTable.enabledRow, List.find?_isSome]
    exact ⟨r, hr, by simp [hid, henabled]⟩
  have hrecord : s.record probe columns = s.setColumns probe.row.id columns (some probe) :=
    if_pos hfound
  intro hshown
  rw [hrecord] at hshown
  refine hother (hshown r hr probe ?_).2
  show Function.update s.shown probe.row.id (some probe) r.id = some probe
  rw [hid, Function.update_self]

/-- A probe of another row is on its way: the resolver is enabled, and the result recorded. -/
theorem not_safeToRecord {probe : Probe} {r : Resolver} (hflight : s.InFlight probe)
    (hr : r ∈ s.resolvers.rows) (hid : r.id = probe.row.id)
    (hother : ¬(probe.incarnation = s.incarnation r.id ∧
      probe.row.settings.endpoint = r.settings.endpoint)) : ¬SafeToRecord redact s := by
  obtain ⟨i, hi⟩ := hflight
  have henabled : { r with enabled := true } ∈ (s.write (.setEnabled r.id true)).resolvers.rows :=
    List.mem_map.mpr ⟨r, hr, if_pos rfl⟩
  intro hsafe
  cases hphase : s.phase i with
  | idle =>
      rw [hphase] at hi
      cases hi
  | running probe' =>
      rw [hphase] at hi
      obtain rfl : probe' = probe := Option.some.inj hi
      refine not_shownRight_record (succeededColumns 0 []) (i := i) henabled hid rfl
        hother (hsafe [.request (.setEnabled r.id true), .succeed i 0 []] _
          (by simp [ProbeAction.isHarmless]) ?_)
      simp [run, probeStep, hphase]
  | failing probe' failures =>
      rw [hphase] at hi
      obtain rfl : probe' = probe := Option.some.inj hi
      refine not_shownRight_record (failedColumns failures (redact []) []) (i := i)
        henabled hid rfl hother
        (hsafe [.request (.setEnabled r.id true), .fail i [] []] _
          (by simp [ProbeAction.isHarmless]) ?_)
      simp [run, probeStep, hphase]

/-- **A row that is disturbed can be shown the result of another one.** -/
theorem mixUp_of_disturbed (hs : s.ProbeInvariant) (hdisturbed : ¬Undisturbed s action)
    (h : probeStep redact s action = some s') : ¬SafeToRecord redact s' := by
  cases action with
  | addResolver settings enabled =>
      cases h
      simp only [Undisturbed, not_forall, not_not] at hdisturbed
      obtain ⟨probe, hflight, hid⟩ := hdisturbed
      refine not_safeToRecord (s := s.add settings enabled) hflight
        (List.mem_append_right _ (List.mem_singleton_self _)) hid.symm fun hsame => ?_
      have hseen := (hs.inFlight probe hflight).seen
      have hincarnation : probe.incarnation = s.incarnation s.resolvers.nextId + 1 := by
        have hupdate := hsame.1
        simpa [ProbeState.add] using hupdate
      rw [hid] at hseen
      omega
  | request request =>
      cases h
      cases request with
      | setEnabled id enabled => exact absurd trivial hdisturbed
      | deleteResolver id => exact absurd trivial hdisturbed
      | updateResolver id settings enabled =>
          simp only [Undisturbed, not_forall] at hdisturbed
          obtain ⟨probe, hflight, rfl, ⟨r, hr, hrow⟩, hother⟩ := hdisturbed
          have hmem : { r with settings := settings, enabled := enabled }
              ∈ (s.write (.updateResolver probe.row.id settings enabled)).resolvers.rows :=
            List.mem_map.mpr ⟨r, hr, if_pos hrow⟩
          exact not_safeToRecord (s := s.write (.updateResolver probe.row.id settings enabled))
            hflight hmem hrow fun hsame => hother hsame.2
  | _ => exact absurd trivial hdisturbed

/-- **When every status comes from a probe of the row that it is shown for**: exactly if no row is
disturbed that is being probed. -/
theorem shown_right_iff {t : ResolverTable} {columns : ℕ → ProbeColumns} {actions : List ProbeAction}
    (hrun : run (probeStep redact) (idleState t columns) actions = some s) :
    (∀ pre s', pre <+: actions → run (probeStep redact) (idleState t columns) pre = some s' →
        SafeToRecord redact s') ↔
      StepsMeet (probeStep redact) Undisturbed (idleState t columns) actions := by
  constructor
  · intro hsafe
    refine stepsMeet_of_inv
      (fun s _ _ (hs : s.ProbeInvariant) hok h => invariant_of_probeStep hs hok h) (invariant_idleState t columns) ?_
    rintro pre action post s' rfl hpre hs'
    by_contra hdisturbed
    have hsplit := hrun
    rw [run_append, hpre, Option.bind_some, run, Option.bind_eq_some_iff] at hsplit
    obtain ⟨next, hnext, -⟩ := hsplit
    refine mixUp_of_disturbed hs' hdisturbed hnext (hsafe (pre ++ [action]) next ?_ ?_)
    · exact ⟨post, by simp⟩
    · rw [run_append, hpre, Option.bind_some, run, hnext]
      rfl
  · rintro hok pre s' ⟨post, rfl⟩ hpre
    exact (run_invariant (fun _ _ _ hs hok h => invariant_of_probeStep hs hok h) pre
      (idleState t columns) s' (invariant_idleState t columns)
      (stepsMeet_append hok hpre).1 hpre).safeToRecord

/-! ## An edit in between -/

def resolverAt (address : String) : Settings := ⟨"A", .plain, address, 53, "", "", ""⟩

/-- One resolver. -/
def oneResolver : ResolverTable := ⟨[⟨1, resolverAt "192.0.2.1", true, 1⟩], by decide⟩

/-- The resolver is renamed while it is probed. -/
def renamed : List ProbeAction :=
  [.read 0 1, .request (.updateResolver 1 ⟨"B", .plain, "192.0.2.1", 53, "", "", ""⟩ true),
    .succeed 0 12 []]

/-- It gets another address. -/
def readdressed : List ProbeAction :=
  [.read 0 1, .request (.updateResolver 1 (resolverAt "192.0.2.2") true), .succeed 0 12 []]

theorem shown_renamed :
    (run (probeStep id) (idleState oneResolver fun _ => resetColumns true) renamed).isSome ∧
      ∀ pre s', pre <+: renamed →
        run (probeStep id) (idleState oneResolver fun _ => resetColumns true) pre = some s' →
          SafeToRecord id s' := by
  refine ⟨rfl, (shown_right_iff (s := _) rfl).mpr ?_⟩
  refine ⟨trivial, fun s hs => ⟨?_, fun s' _ => ⟨trivial, fun _ _ => trivial⟩⟩⟩
  cases hs
  rintro probe ⟨i, hi⟩ - -
  by_cases hzero : i = 0
  · subst hzero
    cases hi
    rfl
  · have hidle : (ProbePhase.idle).probe = some probe := by
      simpa [ProbeState.move, idleState, Function.update_of_ne hzero] using hi
    cases hidle

/-- **The result of the old address is shown for the new one.** -/
theorem old_endpoint_shown :
    ∃ s, run (probeStep id) (idleState oneResolver fun _ => resetColumns true) readdressed
        = some s ∧ (s.columns 1).status = .healthy ∧ ¬s.ShownRight := by
  refine ⟨_, rfl, rfl, fun hshown => ?_⟩
  have hright := hshown ⟨1, resolverAt "192.0.2.2", true, 1⟩ (by decide)
    ⟨⟨1, resolverAt "192.0.2.1", true, 1⟩, 0⟩ rfl
  exact absurd hright.2.2 (by decide)

end AlderpointDNS.Upstream
