import AlderpointDNS.Lib.Runs
import Mathlib.Data.List.Nodup
import Mathlib.Logic.Function.Basic
import Mathlib.Tactic.Common

/-!
# Enabling and disabling upstream resolvers

`set_enabled`, `update_resolver` and `delete_resolver` each run on a connection of their own.  The
lookup of the row and the count of `_would_leave_zero_enabled` are SELECTs outside a transaction;
the writes, from the first one to `commit`, are one transaction.  `upstreamStep` is one of these
steps of one request, and the steps of several requests come in any order.

The values of a request have passed `validate_resolver`.  The probe columns are left out, and the
steps end at an empty table, which `init_db` would fill: no resolver is enabled in it.

* `enabledId_write` — what a commit does to the enabled resolvers;
* `enabled_of_run`, `enabled_of_run_of_single` — when a resolver stays enabled;
* `exists_race` — requests that together disable every enabled resolver can all pass the count;
* **`anyEnabled_iff`** — the requests that never leave zero enabled resolvers.
* `both_disabled` — two requests, each of which counts the resolver of the other.
-/

namespace AlderpointDNS.Upstream

/-! ## The table -/

inductive Protocol where
  | plain
  | dot
  | doh
  deriving DecidableEq

/-- What `validate_resolver` returns, but for `enabled`. -/
structure Settings where
  name : String
  protocol : Protocol
  address : String
  port : ℕ
  dohPath : String
  tlsHostname : String
  bootstrapIps : String
  deriving DecidableEq

/-- A row of `upstream_resolvers`. -/
structure Resolver where
  id : ℕ
  settings : Settings
  enabled : Bool
  position : ℕ
  deriving DecidableEq

/-- The table `upstream_resolvers`, with its primary key. -/
structure ResolverTable where
  rows : List Resolver
  key : (rows.map (·.id)).Nodup

namespace ResolverTable

theorem updateRow_id {id : ℕ} {f : Resolver → Resolver} (hf : ∀ r, (f r).id = r.id)
    (r : Resolver) : (if r.id = id then f r else r).id = r.id := by
  split_ifs
  · exact hf r
  · rfl

/-- `UPDATE … WHERE id=?`, of other columns than `id`. -/
def updateRow (t : ResolverTable) (id : ℕ) (f : Resolver → Resolver) (hf : ∀ r, (f r).id = r.id) :
    ResolverTable where
  rows := t.rows.map fun r => if r.id = id then f r else r
  key := by
    rw [List.map_map, List.map_congr_left fun r _ => by exact updateRow_id hf r]
    exact t.key

/-- `DELETE … WHERE id=?`. -/
def deleteRow (t : ResolverTable) (id : ℕ) : ResolverTable where
  rows := t.rows.filter (·.id ≠ id)
  key := t.key.sublist (List.filter_sublist.map _)

/-- `ORDER BY position, id`. -/
def ordered (t : ResolverTable) : List Resolver :=
  t.rows.mergeSort fun r s => r.position < s.position || (r.position = s.position && r.id ≤ s.id)

def setPosition (t : ResolverTable) (id pos : ℕ) : ResolverTable :=
  t.updateRow id (fun r => { r with position := pos }) fun _ => rfl

def renumber (t : ResolverTable) : ResolverTable :=
  (t.ordered.zipIdx 1).foldl (fun t (row, pos) => t.setPosition row.id pos) t

/-- There is a row with this id. -/
def HasId (t : ResolverTable) (id : ℕ) : Prop := ∃ r ∈ t.rows, r.id = id

/-- There is an enabled row with this id. -/
def EnabledId (t : ResolverTable) (id : ℕ) : Prop := ∃ r ∈ t.rows, r.id = id ∧ r.enabled = true

/-- At least one resolver is enabled. -/
def AnyEnabled (t : ResolverTable) : Prop := ∃ id, t.EnabledId id

/-- `_would_leave_zero_enabled`. -/
def wouldLeaveZeroEnabled (t : ResolverTable) (id : ℕ) (disabling : Bool) : Bool :=
  disabling && t.rows.countP (fun r => r.id ≠ id && r.enabled) == 0

variable {t : ResolverTable}

theorem EnabledId.hasId {id : ℕ} (h : t.EnabledId id) : t.HasId id := by
  obtain ⟨r, hr, hid, -⟩ := h
  exact ⟨r, hr, hid⟩

theorem HasId.ne_nil {id : ℕ} (h : t.HasId id) : t.rows ≠ [] := by
  obtain ⟨r, hr, -⟩ := h
  exact List.ne_nil_of_mem hr

theorem hasId_updateRow {id b : ℕ} {f : Resolver → Resolver} (hf : ∀ r, (f r).id = r.id) :
    (t.updateRow id f hf).HasId b ↔ t.HasId b := by
  simp [HasId, updateRow, updateRow_id hf]

theorem enabledId_updateRow {id b : ℕ} {f : Resolver → Resolver} (hf : ∀ r, (f r).id = r.id) :
    (t.updateRow id f hf).EnabledId b ↔ (b ≠ id ∧ t.EnabledId b) ∨
      (b = id ∧ ∃ r ∈ t.rows, r.id = id ∧ (f r).enabled = true) := by
  constructor
  · rintro ⟨s, hs, hb, henabled⟩
    obtain ⟨r, hr, rfl⟩ := List.mem_map.mp hs
    split_ifs at hb henabled with hid
    · exact Or.inr ⟨hb.symm.trans ((hf r).trans hid), r, hr, hid, henabled⟩
    · exact Or.inl ⟨hb ▸ hid, r, hr, hb, henabled⟩
  · rintro (⟨hne, r, hr, rfl, henabled⟩ | ⟨rfl, r, hr, hid, henabled⟩)
    · exact ⟨r, List.mem_map.mpr ⟨r, hr, if_neg hne⟩, rfl, henabled⟩
    · exact ⟨f r, List.mem_map.mpr ⟨r, hr, if_pos hid⟩, (hf r).trans hid, henabled⟩

theorem exists_mem_deleteRow {id b : ℕ} {P : Resolver → Prop} :
    (∃ r ∈ (t.deleteRow id).rows, r.id = b ∧ P r) ↔ b ≠ id ∧ ∃ r ∈ t.rows, r.id = b ∧ P r := by
  simp only [deleteRow, List.mem_filter, decide_eq_true_eq]
  constructor
  · rintro ⟨r, ⟨hr, hne⟩, rfl, hP⟩
    exact ⟨hne, r, hr, rfl, hP⟩
  · rintro ⟨hne, r, hr, rfl, hP⟩
    exact ⟨r, ⟨hr, hne⟩, rfl, hP⟩

theorem hasId_deleteRow {id b : ℕ} : (t.deleteRow id).HasId b ↔ b ≠ id ∧ t.HasId b := by
  have h : (∃ r ∈ (t.deleteRow id).rows, r.id = b ∧ True) ↔ _ := exists_mem_deleteRow
  simpa only [HasId, and_true] using h

theorem enabledId_deleteRow {id b : ℕ} :
    (t.deleteRow id).EnabledId b ↔ b ≠ id ∧ t.EnabledId b := exists_mem_deleteRow

theorem setPosition_ids {id pos b : ℕ} : ((t.setPosition id pos).HasId b ↔ t.HasId b) ∧
    ((t.setPosition id pos).EnabledId b ↔ t.EnabledId b) := by
  refine ⟨hasId_updateRow _, (enabledId_updateRow _).trans ⟨?_, fun h => ?_⟩⟩
  · rintro (⟨-, h⟩ | ⟨rfl, h⟩)
    · exact h
    · exact h
  · by_cases hb : b = id
    · exact Or.inr ⟨hb, hb ▸ h⟩
    · exact Or.inl ⟨hb, h⟩

/-- Renumbering changes positions only. -/
theorem renumber_ids {b : ℕ} :
    (t.renumber.HasId b ↔ t.HasId b) ∧ (t.renumber.EnabledId b ↔ t.EnabledId b) := by
  have hfold : ∀ (l : List (Resolver × ℕ)) (t : ResolverTable),
      ((l.foldl (fun t (row, pos) => t.setPosition row.id pos) t).HasId b ↔ t.HasId b) ∧
        ((l.foldl (fun t (row, pos) => t.setPosition row.id pos) t).EnabledId b
          ↔ t.EnabledId b) := by
    intro l
    induction l with
    | nil => exact fun _ => ⟨Iff.rfl, Iff.rfl⟩
    | cons entry l ih =>
        intro t
        exact ⟨(ih _).1.trans setPosition_ids.1, (ih _).2.trans setPosition_ids.2⟩
  exact hfold _ t

/-- The count of `_would_leave_zero_enabled` finds another enabled resolver. -/
theorem wouldLeaveZeroEnabled_eq_false {id : ℕ} :
    t.wouldLeaveZeroEnabled id true = false ↔ ∃ b, b ≠ id ∧ t.EnabledId b := by
  rw [wouldLeaveZeroEnabled, Bool.true_and, beq_eq_false_iff_ne, ← Nat.pos_iff_ne_zero,
    List.countP_pos_iff]
  constructor
  · rintro ⟨r, hr, hand⟩
    rw [Bool.and_eq_true, decide_eq_true_eq] at hand
    exact ⟨r.id, hand.1, r, hr, rfl, hand.2⟩
  · rintro ⟨b, hne, r, hr, rfl, henabled⟩
    exact ⟨r, hr, by simp [hne, henabled]⟩

end ResolverTable

/-! ## Requests -/

/-- A call of one of the three functions. -/
inductive Request where
  | setEnabled (id : ℕ) (enabled : Bool)
  | updateResolver (id : ℕ) (settings : Settings) (enabled : Bool)
  | deleteResolver (id : ℕ)
  deriving DecidableEq

/-- Where a request is. -/
inductive RequestPhase where
  | start
  /-- before `_would_leave_zero_enabled(…, disabling=…)` -/
  | guarded (disabling : Bool)
  | checked
  | done
  deriving DecidableEq

namespace Request

def resolverId : Request → ℕ
  | setEnabled id _ | updateResolver id _ _ | deleteResolver id => id

/-- The row is enabled after the writes of the request. -/
def enabling : Request → Bool
  | setEnabled _ enabled | updateResolver _ _ enabled => enabled
  | deleteResolver _ => false

/-- The SELECT before the count, and which `disabling` it leads to. -/
def lookup (t : ResolverTable) : Request → RequestPhase
  | setEnabled _ enabled => .guarded (!enabled)
  | updateResolver id _ enabled =>
      -- "resolver not found"
      if t.rows.any (·.id == id) then .guarded (!enabled) else .done
  | deleteResolver id =>
      match t.rows.find? (·.id == id) with
      | some row => .guarded row.enabled
      | none => .checked

/-- The writes of the request. -/
def write (t : ResolverTable) : Request → ResolverTable
  | setEnabled id enabled => t.updateRow id (fun r => { r with enabled := enabled }) fun _ => rfl
  | updateResolver id settings enabled =>
      t.updateRow id (fun r => { r with settings := settings, enabled := enabled }) fun _ => rfl
  | deleteResolver id => (t.deleteRow id).renumber

variable {t : ResolverTable} {request : Request}

theorem enabledId_write {b : ℕ} : (request.write t).EnabledId b ↔
    (b ≠ request.resolverId ∧ t.EnabledId b) ∨
      (b = request.resolverId ∧ request.enabling = true ∧ t.HasId b) := by
  have hrow : ∀ id enabled, (b = id ∧ ∃ r ∈ t.rows, r.id = id ∧ enabled = true) ↔
      (b = id ∧ enabled = true ∧ t.HasId b) := by
    intro id enabled
    constructor
    · rintro ⟨rfl, r, hr, hid, henabled⟩
      exact ⟨rfl, henabled, r, hr, hid⟩
    · rintro ⟨rfl, henabled, r, hr, hid⟩
      exact ⟨rfl, r, hr, hid, henabled⟩
  cases request with
  | setEnabled id enabled =>
      rw [write, ResolverTable.enabledId_updateRow]
      exact or_congr_right (hrow id enabled)
  | updateResolver id settings enabled =>
      rw [write, ResolverTable.enabledId_updateRow]
      exact or_congr_right (hrow id enabled)
  | deleteResolver id =>
      refine (ResolverTable.renumber_ids.2.trans ResolverTable.enabledId_deleteRow).trans ?_
      simp [resolverId, enabling]

theorem hasId_of_write {b : ℕ} (h : (request.write t).HasId b) : t.HasId b := by
  cases request with
  | setEnabled id enabled => rwa [write, ResolverTable.hasId_updateRow] at h
  | updateResolver id settings enabled => rwa [write, ResolverTable.hasId_updateRow] at h
  | deleteResolver id =>
      exact (ResolverTable.hasId_deleteRow.mp (ResolverTable.renumber_ids.1.mp h)).2

/-- A request other than `delete_resolver` finds its row. -/
theorem lookup_of_hasId (h : t.HasId request.resolverId) (hdelete : request ≠ .deleteResolver
    request.resolverId) : request.lookup t = .guarded (!request.enabling) := by
  obtain ⟨r, hr, hid⟩ := h
  cases request with
  | setEnabled id enabled => rfl
  | updateResolver id settings enabled =>
      have hany : t.rows.any (·.id == id) = true :=
        List.any_eq_true.mpr ⟨r, hr, beq_iff_eq.mpr hid⟩
      rw [lookup, if_pos hany]
      rfl
  | deleteResolver id => exact absurd rfl hdelete

/-- A request that disables an enabled resolver is guarded. -/
theorem lookup_of_enabledId (hdisabling : request.enabling = false)
    (h : t.EnabledId request.resolverId) : request.lookup t = .guarded true := by
  cases request with
  | setEnabled id enabled =>
      cases hdisabling
      exact lookup_of_hasId h.hasId nofun
  | updateResolver id settings enabled =>
      cases hdisabling
      exact lookup_of_hasId h.hasId nofun
  | deleteResolver id =>
      obtain ⟨r, hr, hid, henabled⟩ := h
      cases hfind : t.rows.find? (·.id == id) with
      | none => exact absurd (beq_iff_eq.mpr hid) (List.find?_eq_none.mp hfind r hr)
      | some row =>
          have hfound : row.id = id := by simpa using List.find?_some hfind
          have hrow : row = r := List.inj_on_of_nodup_map t.key (List.mem_of_find?_eq_some hfind)
            hr (hfound.trans hid.symm)
          rw [lookup, hfind]
          exact congrArg RequestPhase.guarded (hrow ▸ henabled)

end Request

/-! ## Interleavings -/

/-- The committed table, and where each request is. -/
structure UpstreamState where
  resolvers : ResolverTable
  phase : ℕ → RequestPhase

/-- What can happen next, to the request of that number. -/
inductive UpstreamAction where
  | begin (i : ℕ)
  | count (i : ℕ)
  | commit (i : ℕ)
  /-- the connection is closed without a commit -/
  | fail (i : ℕ)

/-- A request moves on. -/
def UpstreamState.move (s : UpstreamState) (i : ℕ) (phase : RequestPhase) : UpstreamState :=
  { s with phase := Function.update s.phase i phase }

namespace UpstreamState

variable {s : UpstreamState} {i : ℕ} {phase : RequestPhase}

@[simp] theorem move_resolvers : (s.move i phase).resolvers = s.resolvers := rfl

@[simp] theorem move_phase : (s.move i phase).phase i = phase := Function.update_self _ _ _

theorem move_phase_of_ne {j : ℕ} (h : j ≠ i) : (s.move i phase).phase j = s.phase j :=
  Function.update_of_ne h _ _

end UpstreamState

/-- No request has begun. -/
def initialState (t : ResolverTable) : UpstreamState :=
  { resolvers := t, phase := fun _ => .start }

variable (requests : List Request)

/-- One step of one request. -/
def upstreamStep (s : UpstreamState) : UpstreamAction → Option UpstreamState
  | .begin i =>
      match requests[i]?, s.phase i with
      | some request, .start =>
          if s.resolvers.rows = [] then none else some (s.move i (request.lookup s.resolvers))
      | _, _ => none
  | .count i =>
      match requests[i]?, s.phase i with
      | some request, .guarded disabling =>
          if s.resolvers.wouldLeaveZeroEnabled request.resolverId disabling then
            some (s.move i .done)
          else some (s.move i .checked)
      | _, _ => none
  | .commit i =>
      match requests[i]?, s.phase i with
      | some request, .checked =>
          some ({ s with resolvers := request.write s.resolvers }.move i .done)
      | _, _ => none
  | .fail i => some (s.move i .done)

/-- Some request enables the resolver. -/
def Enables (id : ℕ) : Prop :=
  ∃ request ∈ requests, request.resolverId = id ∧ request.enabling = true

/-- Some request disables or deletes the resolver. -/
def Disables (id : ℕ) : Prop :=
  ∃ request ∈ requests, request.resolverId = id ∧ request.enabling = false

/-- The requests that cannot leave zero enabled resolvers: an enabled resolver is left alone, or
only one is enabled and none of the others is enabled by one request and disabled by another. -/
def Safe (t : ResolverTable) : Prop :=
  (∃ id, t.EnabledId id ∧ ¬ Disables requests id) ∨
    ∃ a, (∀ id, t.EnabledId id → id = a) ∧
      ∀ id, id ≠ a → t.HasId id → Enables requests id → ¬ Disables requests id

variable {requests}

/-- **What one step does.** -/
theorem step_cases {s s' : UpstreamState} {action : UpstreamAction}
    (h : upstreamStep requests s action = some s') :
    (∃ i request, requests[i]? = some request ∧ s' = s.move i (request.lookup s.resolvers)) ∨
    (∃ i request disabling, requests[i]? = some request ∧ s.phase i = .guarded disabling ∧
      s.resolvers.wouldLeaveZeroEnabled request.resolverId disabling = false ∧
      s' = s.move i .checked) ∨
    (∃ i request, requests[i]? = some request ∧ s.phase i = .checked ∧
      s' = { s with resolvers := request.write s.resolvers }.move i .done) ∨
    ∃ i, s' = s.move i .done := by
  cases action with
  | begin i =>
      rw [upstreamStep] at h
      split at h
      · rename_i request hrequest _
        split_ifs at h
        exact Or.inl ⟨i, request, hrequest, (Option.some.inj h).symm⟩
      · cases h
  | count i =>
      rw [upstreamStep] at h
      split at h
      · rename_i request disabling hrequest hphase
        split_ifs at h with hzero
        · exact Or.inr (Or.inr (Or.inr ⟨i, (Option.some.inj h).symm⟩))
        · exact Or.inr (Or.inl ⟨i, request, disabling, hrequest, hphase,
            Bool.eq_false_iff.mpr hzero, (Option.some.inj h).symm⟩)
      · cases h
  | commit i =>
      rw [upstreamStep] at h
      split at h
      · rename_i request hrequest hphase
        exact Or.inr (Or.inr (Or.inl ⟨i, request, hrequest, hphase, (Option.some.inj h).symm⟩))
      · cases h
  | fail i => exact Or.inr (Or.inr (Or.inr ⟨i, (Option.some.inj h).symm⟩))

/-! ## Requests that are safe -/

/-- A resolver that no request disables stays enabled. -/
theorem enabled_of_run {t : ResolverTable} {id : ℕ} (henabled : t.EnabledId id)
    (hleft : ¬ Disables requests id) {actions : List UpstreamAction} {s : UpstreamState}
    (hrun : Runs.run (upstreamStep requests) (initialState t) actions = some s) :
    s.resolvers.EnabledId id := by
  have hstep : ∀ s action s', s.resolvers.EnabledId id →
      upstreamStep requests s action = some s' → s'.resolvers.EnabledId id := by
    intro s action s' hs h
    rcases step_cases h with ⟨i, request, -, rfl⟩ | ⟨i, request, disabling, -, -, -, rfl⟩ |
      ⟨i, request, hrequest, -, rfl⟩ | ⟨i, rfl⟩
    · exact hs
    · exact hs
    · refine Request.enabledId_write.mpr ?_
      by_cases hid : id = request.resolverId
      · cases henabling : request.enabling with
        | true => exact Or.inr ⟨hid, rfl, hs.hasId⟩
        | false =>
            exact absurd ⟨request, List.mem_of_getElem? hrequest, hid.symm, henabling⟩ hleft
      · exact Or.inl ⟨hid, hs⟩
    · exact hs
  exact Runs.invariant_of_run hstep actions _ s henabled hrun

/-- The guard of a disabling request is behind it, or it has none. -/
def Unguarded : RequestPhase → Prop
  | .checked | .guarded false => True
  | _ => False

/-- What holds while `a` was the only enabled resolver at the start: the others that are enabled
stay so, and a request that is about to disable `a` has left one of them behind. -/
structure Guarded (requests : List Request) (t : ResolverTable) (a : ℕ) (s : UpstreamState) :
    Prop where
  hasId : ∀ id, s.resolvers.HasId id → t.HasId id
  left : ∀ id, id ≠ a → s.resolvers.EnabledId id → ¬ Disables requests id
  any : s.resolvers.AnyEnabled
  other : ∀ i request, requests[i]? = some request → Unguarded (s.phase i) →
    request.resolverId = a → request.enabling = false → ∃ id, id ≠ a ∧ s.resolvers.EnabledId id

/-- A step that leaves the table alone. -/
theorem Guarded.move {t : ResolverTable} {a : ℕ} {s : UpstreamState}
    (h : Guarded requests t a s) {i : ℕ} {phase : RequestPhase}
    (hphase : ∀ request, requests[i]? = some request → Unguarded phase → request.resolverId = a →
      request.enabling = false → ∃ id, id ≠ a ∧ s.resolvers.EnabledId id) :
    Guarded requests t a (s.move i phase) := by
  refine ⟨h.hasId, h.left, h.any, fun j request hrequest hunguarded => ?_⟩
  by_cases hj : j = i
  · subst hj
    rw [UpstreamState.move_phase] at hunguarded
    exact hphase request hrequest hunguarded
  · rw [UpstreamState.move_phase_of_ne hj] at hunguarded
    exact h.other j request hrequest hunguarded

/-- The commit of a request. -/
theorem Guarded.write {t : ResolverTable} {a : ℕ} {s : UpstreamState}
    (hsafe : ∀ id, id ≠ a → t.HasId id → Enables requests id → ¬ Disables requests id)
    (h : Guarded requests t a s) {i : ℕ} {request : Request}
    (hrequest : requests[i]? = some request) (hphase : s.phase i = .checked) :
    Guarded requests t a { s with resolvers := request.write s.resolvers } := by
  have hmem : request ∈ requests := List.mem_of_getElem? hrequest
  -- the other enabled resolvers stay enabled
  have hkeep : (∃ id, id ≠ a ∧ s.resolvers.EnabledId id) →
      ∃ id, id ≠ a ∧ (request.write s.resolvers).EnabledId id := by
    rintro ⟨id, hne, henabled⟩
    refine ⟨id, hne, Request.enabledId_write.mpr ?_⟩
    by_cases hid : id = request.resolverId
    · cases henabling : request.enabling with
      | true => exact Or.inr ⟨hid, rfl, henabled.hasId⟩
      | false => exact absurd ⟨request, hmem, hid.symm, henabling⟩ (h.left id hne henabled)
    · exact Or.inl ⟨hid, henabled⟩
  refine ⟨fun id hid => h.hasId id (Request.hasId_of_write hid), ?_, ?_, ?_⟩
  · intro id hne henabled
    rcases Request.enabledId_write.mp henabled with ⟨-, hold⟩ | ⟨hid, henabling, hhas⟩
    · exact h.left id hne hold
    · exact hsafe id hne (h.hasId id hhas) ⟨request, hmem, hid.symm, henabling⟩
  · obtain ⟨id, henabled⟩ := h.any
    by_cases hne : id = a
    · by_cases hid : id = request.resolverId
      · cases henabling : request.enabling with
        | true =>
            exact ⟨id, Request.enabledId_write.mpr (Or.inr ⟨hid, henabling, henabled.hasId⟩)⟩
        | false =>
            obtain ⟨b, -, hb⟩ := hkeep (h.other i request hrequest (hphase ▸ trivial)
              (hid.symm.trans hne) henabling)
            exact ⟨b, hb⟩
      · exact ⟨id, Request.enabledId_write.mpr (Or.inl ⟨hid, henabled⟩)⟩
    · obtain ⟨b, -, hb⟩ := hkeep ⟨id, hne, henabled⟩
      exact ⟨b, hb⟩
  · intro j other hother hunguarded hid henabling
    exact hkeep (h.other j other hother hunguarded hid henabling)

/-- A request for `a` that goes on without a guard has found `a` disabled. -/
theorem exists_other_of_lookup {t : ResolverTable} {request : Request} (hany : t.AnyEnabled)
    (henabling : request.enabling = false) (hunguarded : Unguarded (request.lookup t)) :
    ∃ id, id ≠ request.resolverId ∧ t.EnabledId id := by
  obtain ⟨id, henabled⟩ := hany
  refine ⟨id, fun hid => ?_, henabled⟩
  rw [Request.lookup_of_enabledId henabling (hid ▸ henabled)] at hunguarded
  exact hunguarded

theorem guarded_step {t : ResolverTable} {a : ℕ}
    (hsafe : ∀ id, id ≠ a → t.HasId id → Enables requests id → ¬ Disables requests id)
    {s s' : UpstreamState} {action : UpstreamAction} (h : Guarded requests t a s)
    (hstep : upstreamStep requests s action = some s') : Guarded requests t a s' := by
  rcases step_cases hstep with ⟨i, request, hrequest, rfl⟩ |
    ⟨i, request, disabling, hrequest, hphase, hcount, rfl⟩ | ⟨i, request, hrequest, hphase, rfl⟩ |
    ⟨i, rfl⟩
  · refine h.move fun other hother hunguarded hid henabling => ?_
    obtain rfl : request = other := Option.some.inj (hrequest.symm.trans hother)
    exact hid ▸ exists_other_of_lookup h.any henabling hunguarded
  · refine h.move fun other hother _ hid henabling => ?_
    obtain rfl : request = other := Option.some.inj (hrequest.symm.trans hother)
    cases disabling with
    | true => exact hid ▸ ResolverTable.wouldLeaveZeroEnabled_eq_false.mp hcount
    | false => exact h.other i request hrequest (hphase ▸ trivial) hid henabling
  · exact (h.write hsafe hrequest hphase).move fun _ _ hunguarded => absurd hunguarded id
  · exact h.move fun _ _ hunguarded => absurd hunguarded id

/-- Where only `a` is enabled at the start, and no other resolver is enabled and disabled. -/
theorem enabled_of_run_of_single {t : ResolverTable} {a : ℕ} (hany : t.AnyEnabled)
    (hsingle : ∀ id, t.EnabledId id → id = a)
    (hsafe : ∀ id, id ≠ a → t.HasId id → Enables requests id → ¬ Disables requests id)
    {actions : List UpstreamAction} {s : UpstreamState}
    (hrun : Runs.run (upstreamStep requests) (initialState t) actions = some s) :
    s.resolvers.AnyEnabled := by
  have hinit : Guarded requests t a (initialState t) :=
    ⟨fun _ => id, fun id hne henabled => absurd (hsingle id henabled) hne, hany,
      fun _ _ _ hunguarded => absurd hunguarded id⟩
  have hinv := Runs.invariant_of_run (fun s action s' => guarded_step hsafe) actions _ s hinit hrun
  exact hinv.any

/-! ## Requests that race -/

/-- The request disables an enabled resolver and has not begun. -/
def Ready (requests : List Request) (s : UpstreamState) (i : ℕ) : Prop :=
  s.phase i = .start ∧ ∃ request, requests[i]? = some request ∧ request.enabling = false ∧
    s.resolvers.EnabledId request.resolverId

/-- Two resolvers are enabled. -/
def TwoEnabled (t : ResolverTable) : Prop :=
  ∃ a b, a ≠ b ∧ t.EnabledId a ∧ t.EnabledId b

theorem begin_count {s : UpstreamState} {i : ℕ} (htwo : TwoEnabled s.resolvers)
    (hready : Ready requests s i) :
    Runs.run (upstreamStep requests) s [.begin i, .count i]
      = some ((s.move i (.guarded true)).move i .checked) := by
  obtain ⟨hphase, request, hrequest, henabling, henabled⟩ := hready
  have hrows := henabled.hasId.ne_nil
  have hother : ∃ id, id ≠ request.resolverId ∧ s.resolvers.EnabledId id := by
    obtain ⟨a, b, hne, ha, hb⟩ := htwo
    by_cases h : a = request.resolverId
    · exact ⟨b, fun hb' => hne (h.trans hb'.symm), hb⟩
    · exact ⟨a, h, ha⟩
  have hcount := ResolverTable.wouldLeaveZeroEnabled_eq_false.mpr hother
  have hlookup := Request.lookup_of_enabledId henabling henabled
  simp [Runs.run, upstreamStep, hrequest, hphase, hrows, hlookup, hcount]

/-- All of them pass the count, since none has written yet. -/
theorem exists_checked (l : List ℕ) (hnodup : l.Nodup) (s : UpstreamState)
    (htwo : TwoEnabled s.resolvers) (hready : ∀ i ∈ l, Ready requests s i) :
    ∃ actions s', Runs.run (upstreamStep requests) s actions = some s' ∧
      s'.resolvers = s.resolvers ∧ (∀ i ∈ l, s'.phase i = .checked) ∧
      ∀ i, i ∉ l → s'.phase i = s.phase i := by
  induction l generalizing s with
  | nil => exact ⟨[], s, rfl, rfl, by simp, fun _ _ => rfl⟩
  | cons i l ih =>
      obtain ⟨hi, hnodup⟩ := List.nodup_cons.mp hnodup
      obtain ⟨hready_i, hready⟩ := List.forall_mem_cons.mp hready
      have hothers : ∀ j, j ≠ i →
          ((s.move i (.guarded true)).move i .checked).phase j = s.phase j := fun j hj => by
        rw [UpstreamState.move_phase_of_ne hj, UpstreamState.move_phase_of_ne hj]
      have hready' : ∀ j ∈ l,
          Ready requests ((s.move i (.guarded true)).move i .checked) j := fun j hj => by
        have hne : j ≠ i := fun h => hi (h ▸ hj)
        exact ⟨(hothers j hne).trans (hready j hj).1, (hready j hj).2⟩
      obtain ⟨actions, s', hrun, hrows, hchecked, hrest⟩ := ih hnodup
        ((s.move i (.guarded true)).move i .checked) htwo hready'
      refine ⟨[.begin i, .count i] ++ actions, s', ?_, hrows, ?_, ?_⟩
      · rw [Runs.run_append, begin_count htwo hready_i, Option.bind_some, hrun]
      · refine List.forall_mem_cons.mpr ⟨?_, hchecked⟩
        rw [hrest i hi, UpstreamState.move_phase]
      · intro j hj
        obtain ⟨hne, hj⟩ := not_or.mp (mt List.mem_cons.mpr hj)
        rw [hrest j hj, hothers j hne]

/-- Then all of them write. -/
theorem exists_committed (l : List ℕ) (hnodup : l.Nodup) (s : UpstreamState)
    (hchecked : ∀ i ∈ l, s.phase i = .checked ∧
      ∃ request, requests[i]? = some request ∧ request.enabling = false) :
    ∃ actions s', Runs.run (upstreamStep requests) s actions = some s' ∧
      ∀ id, s'.resolvers.EnabledId id → s.resolvers.EnabledId id ∧
        ∀ i ∈ l, ∀ request, requests[i]? = some request → id ≠ request.resolverId := by
  induction l generalizing s with
  | nil => exact ⟨[], s, rfl, fun id h => ⟨h, by simp⟩⟩
  | cons i l ih =>
      obtain ⟨hi, hnodup⟩ := List.nodup_cons.mp hnodup
      obtain ⟨⟨hphase, request, hrequest, henabling⟩, hchecked⟩ := List.forall_mem_cons.mp hchecked
      have hchecked' : ∀ j ∈ l,
          ({ s with resolvers := request.write s.resolvers }.move i .done).phase j = .checked ∧
            ∃ request, requests[j]? = some request ∧ request.enabling = false := fun j hj => by
        have hne : j ≠ i := fun h => hi (h ▸ hj)
        rw [UpstreamState.move_phase_of_ne hne]
        exact hchecked j hj
      obtain ⟨actions, s', hrun, hids⟩ := ih hnodup _ hchecked'
      refine ⟨.commit i :: actions, s', ?_, fun id hid => ?_⟩
      · rw [Runs.run, upstreamStep, hrequest, hphase]
        exact hrun
      · obtain ⟨henabled, hl⟩ := hids id hid
        rcases Request.enabledId_write.mp henabled with ⟨hne, henabled⟩ | ⟨-, habs, -⟩
        · refine ⟨henabled, List.forall_mem_cons.mpr ⟨fun other hother => ?_, hl⟩⟩
          obtain rfl : request = other := Option.some.inj (hrequest.symm.trans hother)
          exact hne
        · rw [henabling] at habs
          cases habs

/-- **Requests that together disable all of several enabled resolvers leave zero enabled.** -/
theorem exists_race {s : UpstreamState} (htwo : TwoEnabled s.resolvers)
    (hready : ∀ id, s.resolvers.EnabledId id → ∃ i request, requests[i]? = some request ∧
      s.phase i = .start ∧ request.resolverId = id ∧ request.enabling = false) :
    ∃ actions s', Runs.run (upstreamStep requests) s actions = some s' ∧
      ¬ s'.resolvers.AnyEnabled := by
  classical
  let l := (List.range requests.length).filter fun i => Ready requests s i
  have hmem : ∀ i ∈ l, Ready requests s i := fun i hi =>
    of_decide_eq_true (List.mem_filter.mp hi).2
  have hnodup : l.Nodup := List.nodup_range.filter _
  obtain ⟨checks, s₁, hchecks, hrows, hchecked, -⟩ := exists_checked l hnodup s htwo hmem
  obtain ⟨commits, s₂, hcommits, hids⟩ := exists_committed l hnodup s₁ fun i hi => by
    obtain ⟨-, request, hrequest, henabling, -⟩ := hmem i hi
    exact ⟨hchecked i hi, request, hrequest, henabling⟩
  refine ⟨checks ++ commits, s₂, ?_, ?_⟩
  · rw [Runs.run_append, hchecks, Option.bind_some, hcommits]
  · rintro ⟨id, hid⟩
    obtain ⟨henabled, hnot⟩ := hids id hid
    rw [hrows] at henabled
    obtain ⟨i, request, hrequest, hphase, rfl, henabling⟩ := hready id henabled
    refine hnot i (List.mem_filter.mpr ⟨?_, ?_⟩) request hrequest rfl
    · exact List.mem_range.mpr (List.getElem?_eq_some_iff.mp hrequest).1
    · exact decide_eq_true ⟨hphase, request, hrequest, henabling, henabled⟩

/-- A request enables the resolver `b`, which gives two enabled resolvers. -/
theorem exists_enabled {t : ResolverTable} {b : ℕ} (hb : t.HasId b)
    (henables : Enables requests b) :
    ∃ actions s i request, Runs.run (upstreamStep requests) (initialState t) actions = some s ∧
      requests[i]? = some request ∧ request.enabling = true ∧
      (∀ id, s.resolvers.EnabledId id ↔ t.EnabledId id ∨ id = b) ∧
      ∀ j, j ≠ i → s.phase j = .start := by
  obtain ⟨request, hmem, rfl, henabling⟩ := henables
  obtain ⟨i, hrequest⟩ := List.mem_iff_getElem?.mp hmem
  have hrows := hb.ne_nil
  have hlookup : request.lookup t = .guarded false := by
    have hdelete : request ≠ .deleteResolver request.resolverId := fun h => by
      rw [h] at henabling
      cases henabling
    rw [Request.lookup_of_hasId hb hdelete, henabling]
    rfl
  have hguard : t.wouldLeaveZeroEnabled request.resolverId false = false := rfl
  refine ⟨[.begin i, .count i, .commit i],
    { ((initialState t).move i (.guarded false)).move i .checked with
      resolvers := request.write t }.move i .done, i, request, ?_, hrequest, henabling, ?_, ?_⟩
  · simp [Runs.run, upstreamStep, initialState, hrequest, hrows, hlookup, hguard]
  · intro id
    refine Request.enabledId_write.trans ⟨?_, ?_⟩
    · rintro (⟨-, h⟩ | ⟨h, -, -⟩)
      · exact Or.inl h
      · exact Or.inr h
    · intro h
      by_cases hid : id = request.resolverId
      · exact Or.inr ⟨hid, henabling, hid ▸ hb⟩
      · exact Or.inl ⟨hid, h.resolve_right hid⟩
  · intro j hj
    rw [UpstreamState.move_phase_of_ne hj]
    exact (UpstreamState.move_phase_of_ne hj).trans (UpstreamState.move_phase_of_ne hj)

/-! ## Which requests never leave zero enabled -/

/-- **The requests that never leave zero enabled resolvers.** -/
theorem anyEnabled_iff (requests : List Request) {t : ResolverTable} (hany : t.AnyEnabled) :
    (∀ actions s, Runs.run (upstreamStep requests) (initialState t) actions = some s →
      s.resolvers.AnyEnabled) ↔ Safe requests t := by
  constructor
  · intro h
    by_contra hsafe
    obtain ⟨hall, hsingle⟩ := not_or.mp hsafe
    have hdisables : ∀ id, t.EnabledId id → Disables requests id := fun id henabled => by
      by_contra hleft
      exact hall ⟨id, henabled, hleft⟩
    -- a state with two enabled resolvers, each of which a request that has not begun disables
    have hstart : ∃ actions s,
        Runs.run (upstreamStep requests) (initialState t) actions = some s ∧
        TwoEnabled s.resolvers ∧
        ∀ id, s.resolvers.EnabledId id → ∃ i request, requests[i]? = some request ∧
          s.phase i = .start ∧ request.resolverId = id ∧ request.enabling = false := by
      by_cases htwo : TwoEnabled t
      · refine ⟨[], initialState t, rfl, htwo, fun id henabled => ?_⟩
        obtain ⟨request, hmem, hid, henabling⟩ := hdisables id henabled
        obtain ⟨i, hrequest⟩ := List.mem_iff_getElem?.mp hmem
        exact ⟨i, request, hrequest, rfl, hid, henabling⟩
      · obtain ⟨a, ha⟩ := hany
        have honly : ∀ id, t.EnabledId id → id = a := fun id henabled => by
          by_contra hne
          exact htwo ⟨id, a, hne, henabled, ha⟩
        obtain ⟨b, hne, hb, henables, hdisables_b⟩ : ∃ b, b ≠ a ∧ t.HasId b ∧
            Enables requests b ∧ Disables requests b := by
          by_contra hnone
          refine hsingle ⟨a, honly, fun b hne hb henables hdisables => ?_⟩
          exact hnone ⟨b, hne, hb, henables, hdisables⟩
        obtain ⟨actions, s, i, enabler, hrun, henabler, hi, hids, hstart⟩ :=
          exists_enabled hb henables
        refine ⟨actions, s, hrun, ⟨b, a, hne, (hids b).mpr (Or.inr rfl),
          (hids a).mpr (Or.inl ha)⟩, fun id henabled => ?_⟩
        obtain ⟨request, hmem, hid, henabling⟩ : Disables requests id := by
          rcases (hids id).mp henabled with hold | rfl
          · exact hdisables id hold
          · exact hdisables_b
        obtain ⟨j, hrequest⟩ := List.mem_iff_getElem?.mp hmem
        refine ⟨j, request, hrequest, hstart j fun hj => ?_, hid, henabling⟩
        obtain rfl : enabler = request :=
          Option.some.inj (henabler.symm.trans (hj ▸ hrequest))
        rw [hi] at henabling
        cases henabling
    obtain ⟨prefixActions, s, hrun, htwo, hready⟩ := hstart
    obtain ⟨race, s', hrace, hnone⟩ := exists_race htwo hready
    refine hnone (h (prefixActions ++ race) s' ?_)
    rw [Runs.run_append, hrun, Option.bind_some, hrace]
  · rintro (⟨id, henabled, hleft⟩ | ⟨a, honly, hsafe⟩) actions s hrun
    · exact ⟨id, enabled_of_run henabled hleft hrun⟩
    · exact enabled_of_run_of_single hany honly hsafe hrun

/-- Two plain resolvers, both enabled. -/
def twoResolvers : ResolverTable where
  rows :=
    [⟨1, ⟨"Quad9", .plain, "9.9.9.9", 53, "", "", ""⟩, true, 1⟩,
      ⟨2, ⟨"Cloudflare", .plain, "1.1.1.1", 53, "", "", ""⟩, true, 2⟩]
  key := by decide

/-- Disabling the first resolver never leaves zero enabled. -/
theorem anyEnabled_iff_twoResolvers :
    twoResolvers.AnyEnabled ∧
      ((∀ actions s, Runs.run (upstreamStep [.setEnabled 1 false]) (initialState twoResolvers)
        actions = some s → s.resolvers.AnyEnabled) ↔ Safe [.setEnabled 1 false] twoResolvers) := by
  have hany : twoResolvers.AnyEnabled := ⟨1, twoResolvers.rows.head (by simp [twoResolvers]),
    List.head_mem _, rfl, rfl⟩
  exact ⟨hany, anyEnabled_iff _ hany⟩

/-- Each of two requests disables one resolver after it has counted the other. -/
theorem both_disabled : twoResolvers.AnyEnabled ∧ ∃ actions s,
    Runs.run (upstreamStep [.setEnabled 1 false, .setEnabled 2 false]) (initialState twoResolvers)
      actions = some s ∧ ¬ s.resolvers.AnyEnabled := by
  have hany : twoResolvers.AnyEnabled := ⟨1, twoResolvers.rows.head (by simp [twoResolvers]),
    List.head_mem _, rfl, rfl⟩
  refine ⟨hany, [.begin 0, .begin 1, .count 0, .count 1, .commit 0, .commit 1], _, rfl, ?_⟩
  rintro ⟨id, r, hr, -, henabled⟩
  have hnone : ∀ r ∈ ((Request.setEnabled 2 false).write
      ((Request.setEnabled 1 false).write twoResolvers)).rows, r.enabled = false := by decide
  rw [hnone r hr] at henabled
  cases henabled

end AlderpointDNS.Upstream
