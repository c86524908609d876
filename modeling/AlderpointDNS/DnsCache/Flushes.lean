import AlderpointDNS.Domains
import AlderpointDNS.Lib.Runs
import Mathlib.Data.List.Nodup

/-!
# Flushing the cache

`request_flush` records a request, and `process_pending_flush` executes the newest one that is
pending and marks the others as skipped.  Its runs are serialized by the deploy lock; requests are
made at any time, also during a run, and a run may be killed before it commits.

* `selected_newest` — a run takes the newest pending request;
* `invariant_step` — what each step keeps;
* **`flushes_accounted`** — what becomes of every request.
* `name_superseded` — a request that is skipped for one that does not cover it.
-/

namespace AlderpointDNS.DnsCache

open Text

/-! ## Requests -/

/-- A name of labels of at most 63 characters. -/
def isFlushTarget (target : Str) : Bool :=
  (split '.' target).all fun part => part ≠ [] && part.length ≤ 63

abbrev FlushTarget := { target : Str // isFlushTarget target = true }

/-- The scope and the target of a request.  With the scope `all` the target is not looked at. -/
inductive FlushRequest where
  | all (target : Option Str)
  | name (target : FlushTarget)
  | tree (target : FlushTarget)
  deriving DecidableEq

/-- What `request_flush` makes of a target. -/
def flushTarget (u : UnicodeData) (scope : Str) (target : Option Str) :
    Except Str FlushTarget :=
  if strip (target.getD []) = [] then
    .error ("flush scope '".toList ++ scope ++ "' requires a target name".toList)
  else
    let target := u.toLower ((strip (target.getD [])).rdropWhile (· = '.'))
    if h : isFlushTarget target = true then .ok ⟨target, h⟩
    else .error "invalid target name".toList

/-- The checks of `request_flush`; an error is the text of a `DNSCacheError`. -/
def requestFlush (u : UnicodeData) (scope : Str) (target : Option Str) :
    Except Str FlushRequest :=
  if scope = "all".toList then .ok (.all target)
  else if scope = "name".toList then (flushTarget u scope target).map .name
  else if scope = "tree".toList then (flushTarget u scope target).map .tree
  else .error ("unknown flush scope '".toList ++ scope ++ ['\''])

/-- The command that executes a request. -/
def rndcCommand : FlushRequest → List Str
  | .all _ => ["rndc".toList, "flush".toList]
  | .name target => ["rndc".toList, "flushname".toList, target]
  | .tree target => ["rndc".toList, "flushtree".toList, target]

/-! ## The table and the runs -/

/-- A run of `process_pending_flush`: the row that it has selected, and how many rows there were. -/
structure FlushRun where
  row : ℕ
  request : FlushRequest
  began : ℕ
  deriving DecidableEq

/-- `dns_cache_flushes.status`, where a request that was skipped remembers the run. -/
inductive FlushStatus where
  | pending
  /-- `completed` or `failed` -/
  | executed (ok : Bool)
  | skipped (run : FlushRun)
  deriving DecidableEq

/-- A row of `dns_cache_flushes`. -/
structure FlushRow where
  id : ℕ
  request : FlushRequest
  status : FlushStatus
  deriving DecidableEq

/-- The table, the run that holds the lock, what `rndc` was called with, and the runs that have
committed. -/
structure FlushState where
  rows : List FlushRow
  current : Option FlushRun
  commands : List (List Str)
  finished : List FlushRun
  deriving DecidableEq

def FlushState.fresh : FlushState := { rows := [], current := none, commands := [], finished := [] }

inductive FlushAction where
  /-- `request_flush` -/
  | request (scope : Str) (target : Option Str)
  /-- `process_pending_flush` gets the lock and selects its row -/
  | select
  /-- it has called `rndc`, with this success, and commits -/
  | finish (ok : Bool)
  /-- it is killed, before or after it has called `rndc` -/
  | crash (called : Bool)

/-- The newest pending row. -/
def newestPending (s : FlushState) : Option FlushRow :=
  (s.rows.filter (·.status = .pending)).getLast?

/-- The two updates at the end of a run. -/
def settle (run : FlushRun) (ok : Bool) (row : FlushRow) : FlushRow :=
  if row.id = run.row then { row with status := .executed ok }
  else if row.status = .pending then { row with status := .skipped run }
  else row

def flushStep (u : UnicodeData) (s : FlushState) : FlushAction → Option FlushState
  | .request scope target =>
      match requestFlush u scope target with
      | .ok request => some { s with rows := s.rows ++ [⟨s.rows.length, request, .pending⟩] }
      | .error _ => some s
  | .select =>
      if s.current.isSome then none
      else some { s with
        current := (newestPending s).map fun row => ⟨row.id, row.request, s.rows.length⟩ }
  | .finish ok =>
      s.current.map fun run =>
        { rows := s.rows.map (settle run ok)
          current := none
          commands := s.commands ++ [rndcCommand run.request]
          finished := s.finished ++ [run] }
  | .crash called =>
      s.current.map fun run =>
        { s with
          current := none
          commands := if called then s.commands ++ [rndcCommand run.request] else s.commands }

/-- The request that an action has made, if it is accepted. -/
def accepted (u : UnicodeData) : FlushAction → Option FlushRequest
  | .request scope target => (requestFlush u scope target).toOption
  | .select => none
  | .finish _ => none
  | .crash _ => none

/-! ## What becomes of a request -/

/-- The row has been executed. -/
def Executed (s : FlushState) (id : ℕ) : Prop :=
  ∃ row ∈ s.rows, row.id = id ∧ ∃ ok, row.status = .executed ok

/-- No request is dropped: what is executed was given to `rndc`; what was skipped by a run gave way
to the request that the run has executed, and that one is newer, if both were there when the run
began; and what was there when a run began is not pending after it. -/
structure NothingDropped (s : FlushState) : Prop where
  executed : ∀ row ∈ s.rows, ∀ ok, row.status = .executed ok →
    rndcCommand row.request ∈ s.commands
  skipped : ∀ row ∈ s.rows, ∀ run, row.status = .skipped run →
    Executed s run.row ∧ (row.id < run.began → row.id < run.row)
  finished : ∀ run ∈ s.finished, Executed s run.row ∧
    ∀ row ∈ s.rows, row.id < run.began → row.status ≠ .pending

/-- One request covers another. -/
def Covers : FlushRequest → FlushRequest → Prop
  | .all _, _ => True
  | .tree tree, .name target => tree.1 = target.1 ∨ tree.1 ∈ parents target.1
  | .tree tree, .tree target => tree.1 = target.1 ∨ tree.1 ∈ parents target.1
  | .tree _, .all _ => False
  | .name name, request => request = .name name

/-- A request that is no longer pending is executed or covered by one that is. -/
def CoveredIfSkipped (s : FlushState) : Prop :=
  ∀ row ∈ s.rows, row.status = .pending ∨ Executed s row.id ∨
    ∃ other ∈ s.rows, Executed s other.id ∧ Covers other.request row.request

/-- What a run has selected. -/
structure Selected (s : FlushState) (run : FlushRun) : Prop where
  began : run.began ≤ s.rows.length
  row : run.row < run.began
  request : ∀ row ∈ s.rows, row.id = run.row → row.request = run.request
  newest : ∀ row ∈ s.rows, row.status = .pending → row.id < run.began → row.id ≤ run.row

/-- What each step keeps. -/
structure FlushInvariant (s : FlushState) : Prop extends NothingDropped s where
  ids : s.rows.map (·.id) = List.range s.rows.length
  current : ∀ run ∈ s.current, Selected s run
  began : ∀ run ∈ s.finished, run.began ≤ s.rows.length

variable {u : UnicodeData}

/-! ## Rows -/

theorem id_lt {s : FlushState} (h : FlushInvariant s) {row : FlushRow} (hrow : row ∈ s.rows) :
    row.id < s.rows.length := by
  have hid : row.id ∈ s.rows.map (·.id) := List.mem_map_of_mem hrow
  rw [h.ids] at hid
  exact List.mem_range.mp hid

theorem exists_row {s : FlushState} (h : FlushInvariant s) {i : ℕ} (hi : i < s.rows.length) :
    ∃ row ∈ s.rows, row.id = i := by
  have hmem : i ∈ s.rows.map (·.id) := h.ids ▸ List.mem_range.mpr hi
  exact List.mem_map.mp hmem

/-- A run takes the newest pending request. -/
theorem selected_newest {s : FlushState} (h : FlushInvariant s) {row : FlushRow}
    (hnewest : newestPending s = some row) :
    Selected s ⟨row.id, row.request, s.rows.length⟩ := by
  have hmem : row ∈ s.rows := (List.mem_filter.mp (List.mem_of_getLast? hnewest)).1
  have hsorted : s.rows.Pairwise fun a b => a.id < b.id := by
    have hrange := List.pairwise_lt_range (n := s.rows.length)
    rw [← h.ids] at hrange
    exact List.pairwise_map.mp hrange
  constructor
  · exact le_rfl
  · exact id_lt h hmem
  · intro other hother hid
    have hnodup : (s.rows.map (·.id)).Nodup := h.ids ▸ List.nodup_range
    rw [List.inj_on_of_nodup_map hnodup hother hmem hid]
  · intro other hother hpending _
    obtain ⟨init, hinit⟩ := List.getLast?_eq_some_iff.mp hnewest
    have hfilter := hsorted.sublist (List.filter_sublist (p := (·.status = .pending)))
    have hotherFilter : other ∈ s.rows.filter (·.status = .pending) :=
      List.mem_filter.mpr ⟨hother, decide_eq_true hpending⟩
    rw [hinit] at hfilter hotherFilter
    rcases List.mem_append.mp hotherFilter with hother | hother
    · exact ((List.pairwise_append.mp hfilter).2.2 other hother row (by simp)).le
    · rw [List.mem_singleton.mp hother]

/-! ## What a run leaves -/

theorem settle_id (run : FlushRun) (ok : Bool) (row : FlushRow) : (settle run ok row).id = row.id := by
  unfold settle
  split_ifs
  · rfl
  · rfl
  · rfl

theorem settle_request (run : FlushRun) (ok : Bool) (row : FlushRow) :
    (settle run ok row).request = row.request := by
  unfold settle
  split_ifs
  · rfl
  · rfl
  · rfl

theorem settle_ne_pending (run : FlushRun) (ok : Bool) (row : FlushRow) :
    (settle run ok row).status ≠ .pending := by
  unfold settle
  split_ifs with hid hpending
  · simp
  · simp
  · exact hpending

/-- The state after a run. -/
def finishRun (s : FlushState) (run : FlushRun) (ok : Bool) : FlushState :=
  { rows := s.rows.map (settle run ok)
    current := none
    commands := s.commands ++ [rndcCommand run.request]
    finished := s.finished ++ [run] }

theorem executed_finishRun {s : FlushState} {i : ℕ} (run : FlushRun) (ok : Bool)
    (h : Executed s i) : Executed (finishRun s run ok) i := by
  obtain ⟨row, hrow, hid, ok', hstatus⟩ := h
  refine ⟨settle run ok row, List.mem_map_of_mem hrow, (settle_id run ok row).trans hid, ?_⟩
  unfold settle
  split_ifs with hrun hpending
  · exact ⟨ok, rfl⟩
  · rw [hstatus] at hpending
    cases hpending
  · exact ⟨ok', hstatus⟩

/-- The selected request is executed. -/
theorem executed_selected {s : FlushState} (h : FlushInvariant s) {run : FlushRun}
    (hselected : Selected s run) (ok : Bool) : Executed (finishRun s run ok) run.row := by
  obtain ⟨row, hrow, hid⟩ := exists_row h (hselected.row.trans_le hselected.began)
  refine ⟨settle run ok row, List.mem_map_of_mem hrow, (settle_id run ok row).trans hid, ok, ?_⟩
  rw [settle, if_pos hid]

theorem invariant_finishRun {s : FlushState} (h : FlushInvariant s) {run : FlushRun}
    (hselected : Selected s run) (ok : Bool) : FlushInvariant (finishRun s run ok) := by
  have hlength : (finishRun s run ok).rows.length = s.rows.length := List.length_map _
  constructor
  · constructor
    · intro row hrow ok' hstatus
      obtain ⟨old, hold, rfl⟩ := List.mem_map.mp hrow
      rw [settle_request]
      by_cases hid : old.id = run.row
      · rw [hselected.request old hold hid]
        exact List.mem_append_right _ (List.mem_singleton_self _)
      · -- the row was executed by an earlier run
        refine List.mem_append_left _ (h.executed old hold ok' ?_)
        unfold settle at hstatus
        split_ifs at hstatus
        exact hstatus
    · intro row hrow run' hstatus
      obtain ⟨old, hold, rfl⟩ := List.mem_map.mp hrow
      rw [settle_id]
      unfold settle at hstatus
      split_ifs at hstatus with hid hpending
      · cases hstatus
        refine ⟨executed_selected h hselected ok, fun hlt => ?_⟩
        exact lt_of_le_of_ne (hselected.newest old hold hpending hlt) hid
      · exact (h.skipped old hold run' hstatus).imp_left (executed_finishRun run ok)
    · intro run' hrun'
      have hsettled : ∀ row ∈ (finishRun s run ok).rows, row.status ≠ .pending := by
        intro row hrow
        obtain ⟨old, -, rfl⟩ := List.mem_map.mp hrow
        exact settle_ne_pending run ok old
      refine ⟨?_, fun row hrow _ => hsettled row hrow⟩
      rcases List.mem_append.mp hrun' with hrun' | hrun'
      · exact executed_finishRun run ok (h.finished run' hrun').1
      · rw [List.mem_singleton.mp hrun']
        exact executed_selected h hselected ok
  · have hids : (finishRun s run ok).rows.map (·.id) = s.rows.map (·.id) := by
      show (s.rows.map (settle run ok)).map (·.id) = _
      rw [List.map_map]
      exact List.map_congr_left fun row _ => settle_id run ok row
    rw [hids, h.ids, hlength]
  · intro run' hrun'
    cases hrun'
  · intro run' hrun'
    rw [hlength]
    rcases List.mem_append.mp hrun' with hrun' | hrun'
    · exact h.began run' hrun'
    · rw [List.mem_singleton.mp hrun']
      exact hselected.began

/-! ## What a request changes -/

/-- The state with another request. -/
def withRequest (s : FlushState) (request : FlushRequest) : FlushState :=
  { s with rows := s.rows ++ [⟨s.rows.length, request, .pending⟩] }

theorem mem_withRequest {s : FlushState} {request : FlushRequest} {row : FlushRow}
    (h : row ∈ (withRequest s request).rows) :
    row ∈ s.rows ∨ row.id = s.rows.length ∧ row.status = .pending := by
  rcases List.mem_append.mp h with h | h
  · exact Or.inl h
  · rw [List.mem_singleton.mp h]
    exact Or.inr ⟨rfl, rfl⟩

theorem executed_withRequest {s : FlushState} {i : ℕ} (request : FlushRequest)
    (h : Executed s i) : Executed (withRequest s request) i := by
  obtain ⟨row, hrow, hexecuted⟩ := h
  exact ⟨row, List.mem_append_left _ hrow, hexecuted⟩

theorem invariant_withRequest {s : FlushState} (h : FlushInvariant s) (request : FlushRequest) :
    FlushInvariant (withRequest s request) := by
  have hlength : (withRequest s request).rows.length = s.rows.length + 1 := by
    simp [withRequest]
  constructor
  · constructor
    · intro row hrow ok hstatus
      rcases mem_withRequest hrow with hrow | ⟨-, hpending⟩
      · exact h.executed row hrow ok hstatus
      · rw [hpending] at hstatus
        cases hstatus
    · intro row hrow run hstatus
      rcases mem_withRequest hrow with hrow | ⟨-, hpending⟩
      · exact (h.skipped row hrow run hstatus).imp_left (executed_withRequest request)
      · rw [hpending] at hstatus
        cases hstatus
    · intro run hrun
      refine ⟨executed_withRequest request (h.finished run hrun).1, fun row hrow hlt => ?_⟩
      rcases mem_withRequest hrow with hrow | ⟨hid, -⟩
      · exact (h.finished run hrun).2 row hrow hlt
      · -- the run began before the request
        have hbegan := h.began run hrun
        omega
  · rw [hlength, List.range_succ, ← h.ids]
    simp [withRequest]
  · intro run hrun
    have hselected := h.current run hrun
    constructor
    · rw [hlength]
      exact hselected.began.trans (Nat.le_succ _)
    · exact hselected.row
    · intro row hrow hid
      rcases mem_withRequest hrow with hrow | ⟨hlast, -⟩
      · exact hselected.request row hrow hid
      · have hbegan := hselected.began
        have hrunRow := hselected.row
        omega
    · intro row hrow hpending hlt
      rcases mem_withRequest hrow with hrow | ⟨hlast, -⟩
      · exact hselected.newest row hrow hpending hlt
      · have hbegan := hselected.began
        omega
  · intro run hrun
    rw [hlength]
    exact (h.began run hrun).trans (Nat.le_succ _)

/-! ## Runs -/

theorem invariant_step {s s' : FlushState} {a : FlushAction} (h : FlushInvariant s)
    (hstep : flushStep u s a = some s') : FlushInvariant s' := by
  cases a with
  | request scope target =>
      rw [flushStep] at hstep
      cases hrequest : requestFlush u scope target with
      | error message =>
          rw [hrequest] at hstep
          exact Option.some.inj hstep ▸ h
      | ok request =>
          rw [hrequest] at hstep
          exact Option.some.inj hstep ▸ invariant_withRequest h request
  | select =>
      rw [flushStep] at hstep
      split_ifs at hstep
      cases hstep
      refine ⟨⟨h.executed, h.skipped, h.finished⟩, h.ids, ?_, h.began⟩
      intro run hrun
      obtain ⟨row, hnewest, rfl⟩ := Option.map_eq_some_iff.mp hrun
      have hselected := selected_newest h hnewest
      exact ⟨hselected.began, hselected.row, hselected.request, hselected.newest⟩
  | finish ok =>
      obtain ⟨run, hrun, rfl⟩ := Option.map_eq_some_iff.mp hstep
      exact invariant_finishRun h (h.current run hrun) ok
  | crash called =>
      obtain ⟨run, -, rfl⟩ := Option.map_eq_some_iff.mp hstep
      refine ⟨⟨fun row hrow ok hstatus => ?_, h.skipped, h.finished⟩, h.ids, ?_, h.began⟩
      · have hcommand := h.executed row hrow ok hstatus
        show _ ∈ if called then _ else _
        split_ifs
        · exact List.mem_append_left _ hcommand
        · exact hcommand
      · intro run' hrun'
        cases hrun'

/-- Each step records the request that is accepted, and no other. -/
theorem requests_step {s s' : FlushState} {a : FlushAction}
    (hstep : flushStep u s a = some s') :
    s'.rows.map (·.request) = s.rows.map (·.request) ++ (accepted u a).toList := by
  cases a with
  | request scope target =>
      rw [flushStep] at hstep
      unfold accepted
      cases hrequest : requestFlush u scope target with
      | error message =>
          rw [hrequest] at hstep
          cases hstep
          simp [hrequest, Except.toOption]
      | ok request =>
          rw [hrequest] at hstep
          cases hstep
          simp [hrequest, Except.toOption]
  | select =>
      rw [flushStep] at hstep
      split_ifs at hstep
      cases hstep
      simp [accepted]
  | finish ok =>
      obtain ⟨run, -, rfl⟩ := Option.map_eq_some_iff.mp hstep
      simp [accepted, Function.comp_def, settle_request]
  | crash called =>
      obtain ⟨run, -, rfl⟩ := Option.map_eq_some_iff.mp hstep
      simp [accepted]

theorem requests_run (actions : List FlushAction) : ∀ {s s' : FlushState},
    Runs.run (flushStep u) s actions = some s' →
      s'.rows.map (·.request) = s.rows.map (·.request) ++ actions.filterMap (accepted u) := by
  induction actions with
  | nil =>
      intro s s' hrun
      cases hrun
      simp
  | cons a actions ih =>
      intro s s' hrun
      rw [Runs.run, Option.bind_eq_some_iff] at hrun
      obtain ⟨t, ht, hrun⟩ := hrun
      rw [ih hrun, requests_step ht, List.append_assoc, List.filterMap_cons]
      cases accepted u a with
      | none => simp
      | some request => simp

theorem invariant_fresh : FlushInvariant .fresh := by
  refine ⟨⟨?_, ?_, ?_⟩, rfl, ?_, ?_⟩
  all_goals simp [FlushState.fresh]

/-- **What becomes of every request**: it stays in the table, and none is dropped. -/
theorem flushes_accounted (u : UnicodeData) {actions : List FlushAction} {s : FlushState}
    (hrun : Runs.run (flushStep u) .fresh actions = some s) :
    s.rows.map (·.request) = actions.filterMap (accepted u) ∧ NothingDropped s := by
  refine ⟨requests_run actions hrun, ?_⟩
  have hinvariant : FlushInvariant s := Runs.invariant_of_run (fun s a s' => invariant_step)
    actions .fresh s invariant_fresh hrun
  exact hinvariant.toNothingDropped

/-- The tables, for texts that are ASCII. -/
def asciiNames : UnicodeData where
  lower := fun s => s
  idna := fun s => some s

/-- Two names are flushed, and one run follows. -/
def twoNames : List FlushAction :=
  [.request "name".toList (some "a.example".toList),
    .request "name".toList (some "b.example".toList), .select, .finish true]

/-- The table after that. -/
def twoNamesEnd : FlushState where
  rows :=
    [⟨0, .name ⟨"a.example".toList, by decide⟩,
        .skipped ⟨1, .name ⟨"b.example".toList, by decide⟩, 2⟩⟩,
      ⟨1, .name ⟨"b.example".toList, by decide⟩, .executed true⟩]
  current := none
  commands := [["rndc".toList, "flushname".toList, "b.example".toList]]
  finished := [⟨1, .name ⟨"b.example".toList, by decide⟩, 2⟩]

theorem twoNames_accounted :
    twoNamesEnd.rows.map (·.request) = twoNames.filterMap (accepted asciiNames) ∧
      NothingDropped twoNamesEnd :=
  flushes_accounted asciiNames (by decide +kernel)

/-- The first name is superseded by the second one, which does not cover it. -/
theorem name_superseded : Runs.run (flushStep asciiNames) .fresh twoNames = some twoNamesEnd ∧
    ¬CoveredIfSkipped twoNamesEnd := by
  refine ⟨by decide +kernel, fun h => ?_⟩
  have hfirst : ¬Executed twoNamesEnd 0 := by
    rintro ⟨row, hrow, hid, ok, hstatus⟩
    simp only [twoNamesEnd, List.mem_cons, List.not_mem_nil, or_false] at hrow
    rcases hrow with rfl | rfl
    · cases hstatus
    · cases hid
  rcases h _ List.mem_cons_self with hpending | hexecuted | ⟨other, hother, hexecuted, hcovers⟩
  · cases hpending
  · exact hfirst hexecuted
  · simp only [twoNamesEnd, List.mem_cons, List.not_mem_nil, or_false] at hother
    rcases hother with rfl | rfl
    · exact hfirst hexecuted
    · exact absurd (show FlushRequest.name _ = FlushRequest.name _ from hcovers) (by decide +kernel)

end AlderpointDNS.DnsCache
