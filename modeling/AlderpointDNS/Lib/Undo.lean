import AlderpointDNS.Lib.Upsert
import Mathlib.Data.List.Pairwise

/-!
# Undo logs

What a loop that writes rows has to remember so that it can be undone.  For a table to which it
only adds, the ids of the new rows (`Added`).  For one that it updates by key, the keys of the new
rows and each row that it overwrites, as it was just before (`UpsertLog`).

* `Added.undo` — without the remembered ids the table is what it was.
* **`undo_contents_iff`** — overwritten rows are put back in the order in which they were
  remembered, so a row ends as it was before its last update; this is how it began just when the
  update before the last one writes what the row held.
-/

/-! ## Added rows -/

/-- `now` has the rows of `before`, and then rows with the ids `ids`, which were free. -/
def Added {R : Type} (rowid : R → ℕ) (before now : List R) (ids : List ℕ) : Prop :=
  ∃ added, now = before ++ added ∧ added.map rowid = ids ∧ ∀ r ∈ before, rowid r ∉ ids

namespace Added

variable {R : Type} {rowid : R → ℕ} {before now : List R} {ids : List ℕ}

theorem refl (rows : List R) : Added rowid rows rows [] :=
  ⟨[], (List.append_nil rows).symm, rfl, fun _ _ => List.not_mem_nil⟩

/-- One more row, with an id that is free. -/
theorem concat (h : Added rowid before now ids) {r : R} (hr : ∀ s ∈ now, rowid s ≠ rowid r) :
    Added rowid before (now ++ [r]) (ids ++ [rowid r]) := by
  obtain ⟨added, rfl, rfl, hbefore⟩ := h
  refine ⟨added ++ [r], by simp, by simp, fun s hs => ?_⟩
  rw [List.mem_append, List.mem_singleton]
  rintro (hmem | hmem)
  · exact hbefore s hs hmem
  · exact hr s (List.mem_append_left _ hs) hmem

/-- The deletion of the remembered ids. -/
theorem undo (h : Added rowid before now ids) :
    now.filter (fun r => rowid r ∉ ids) = before := by
  obtain ⟨added, rfl, rfl, hbefore⟩ := h
  have hgone : added.filter (fun r => decide (rowid r ∉ added.map rowid)) = [] := by
    rw [List.filter_eq_nil_iff]
    intro r hr
    simpa using ⟨r, hr, rfl⟩
  have hkept : before.filter (fun r => decide (rowid r ∉ added.map rowid)) = before := by
    rw [List.filter_eq_self]
    intro r hr
    simpa using hbefore r hr
  rw [List.filter_append, hkept, hgone, List.append_nil]

/-- The rows that were there before are still there, and none of them is remembered. -/
theorem fresh (h : Added rowid before now ids) :
    before <+: now ∧ ∀ r ∈ before, rowid r ∉ ids := by
  obtain ⟨added, rfl, -, hfresh⟩ := h
  exact ⟨List.prefix_append _ _, hfresh⟩

theorem length_le (h : Added rowid before now ids) : before.length ≤ now.length := by
  obtain ⟨added, rfl, -, -⟩ := h
  simp

theorem mem (h : Added rowid before now ids) {id : ℕ} (hid : id ∈ ids) :
    ∃ r ∈ now, rowid r = id := by
  obtain ⟨added, rfl, rfl, -⟩ := h
  obtain ⟨r, hr, rfl⟩ := List.mem_map.mp hid
  exact ⟨r, List.mem_append_right _ hr, rfl⟩

end Added

/-- At most one row is inserted, with the next rowid. -/
def Inserts {R : Type} (rowid : R → ℕ) (rows rows' : List R) : Prop :=
  rows' = rows ∨ ∃ r, rows' = rows ++ [r] ∧ rowid r = nextRowid (rows.map rowid)

/-- `lastrowid` of the insertion between the two tables, if there was one. -/
def insertedIds {R : Type} (rowid : R → ℕ) (rows rows' : List R) : List ℕ :=
  (rows'.drop rows.length).map rowid

/-- An insertion whose `lastrowid` is remembered. -/
theorem Added.insert {R : Type} {rowid : R → ℕ} {before now now' : List R} {ids : List ℕ}
    (h : Added rowid before now ids) (hinserts : Inserts rowid now now') :
    Added rowid before now' (ids ++ insertedIds rowid now now') := by
  rcases hinserts with rfl | ⟨r, rfl, hr⟩
  · simpa [insertedIds] using h
  · have hfresh : ∀ s ∈ now, rowid s ≠ rowid r := by
      intro s hs
      rw [hr]
      exact (lt_nextRowid (List.mem_map_of_mem hs)).ne
    simpa [insertedIds] using h.concat hfresh

/-- After the largest rowid comes the next one. -/
theorem nextRowid_concat (ids : List ℕ) :
    nextRowid (ids ++ [nextRowid ids]) = nextRowid ids + 1 := by
  simp only [nextRowid, List.foldl_append, List.foldl_cons, List.foldl_nil]
  omega

/-! ## Updates by key -/

/-- The keys of the rows that were added, and the overwritten rows. -/
structure UpsertLog (R K : Type) where
  added : List K := []
  updated : List R := []

namespace RowWriter

variable {R U K C : Type} [DecidableEq K] (w : RowWriter R U K)

/-- What an update adds to the log. -/
def logUpsert (rows : List R) (log : UpsertLog R K) (u : U) : UpsertLog R K :=
  match rows.find? fun r => w.key r = w.target u with
  | some r => { log with updated := log.updated ++ [r] }
  | none => if w.skip u rows then log else { log with added := log.added ++ [w.target u] }

/-- One update of a table, with its log. -/
def loggedUpsert (s : KeyedRows w.key × UpsertLog R K) (u : U) :
    KeyedRows w.key × UpsertLog R K :=
  (w.upsert s.1 u, w.logUpsert s.1.1 s.2 u)

theorem foldl_loggedUpsert_fst (s : KeyedRows w.key × UpsertLog R K) (us : List U) :
    (us.foldl w.loggedUpsert s).1 = us.foldl w.upsert s.1 := by
  induction us generalizing s with
  | nil => rfl
  | cons u us ih => exact ih (w.loggedUpsert s u)

/-- Where no update is skipped, the keys are those of the rows and of the updates. -/
theorem exists_key_foldl (hskip : ∀ u rows, w.skip u rows = false) (us : List U)
    (t : KeyedRows w.key) (k : K) : (∃ r ∈ (us.foldl w.upsert t).1, w.key r = k) ↔
      (∃ r ∈ t.1, w.key r = k) ∨ ∃ u ∈ us, w.target u = k := by
  rw [foldl_upsert_val, exists_key_iff_holds, Holds]
  refine or_congr_right ⟨?_, ?_⟩
  · rintro ⟨before, u, after, rfl, hu, -⟩
    exact ⟨u, by simp, hu⟩
  · rintro ⟨u, hu, hkey⟩
    obtain ⟨before, after, rfl⟩ := List.append_of_mem hu
    exact ⟨before, u, after, rfl, hkey, hskip _ _⟩

/-- How overwritten rows are put back: `back` gives the row the contents of the old one. -/
structure Restorer (C : Type) where
  content : R → C
  back : R → R → R
  key_back : ∀ old r, w.key (back old r) = w.key r
  content_back : ∀ old r, w.key old = w.key r → content (back old r) = content old

/-- The last update but one of a key. -/
def beforeLast (us : List U) (k : K) : Option U := (us.reverse.filter (w.target · = k))[1]?

theorem beforeLast_concat (us : List U) (u : U) (k : K) :
    w.beforeLast (us ++ [u]) k
      = if w.target u = k then w.lastWrite us k else w.beforeLast us k := by
  rw [beforeLast, lastWrite, List.reverse_append, List.reverse_singleton, List.singleton_append,
    List.filter_cons]
  split_ifs with h h' h'
  · rw [List.getElem?_cons_succ, ← List.head?_filter, List.head?_eq_getElem?]
  · exact absurd (of_decide_eq_true h) h'
  · exact absurd (decide_eq_true h') h
  · rfl

theorem lastWrite_of_beforeLast {us : List U} {k : K} {u : U} (h : w.beforeLast us k = some u) :
    ∃ v, w.lastWrite us k = some v := by
  obtain ⟨hlt, -⟩ := List.getElem?_eq_some_iff.mp h
  rw [lastWrite, ← List.head?_filter]
  exact ⟨_, List.head?_eq_some_head (List.ne_nil_of_length_pos (by omega))⟩

/-- The row just before its last update. -/
def previous (us : List U) (r : R) : R := (w.beforeLast us (w.key r)).elim r (w.write · r)

/-- Rows and log after updates of `before`: the rows of `before` are overwritten, those behind
them have remembered keys, and the last row that is remembered for a row of `before` is the one
before its last update. -/
structure UndoInv (before : List R) (us : List U) (rows : List R) (log : UpsertLog R K) : Prop where
  rows : ∃ added, rows = before.map (w.overwrite us) ++ added ∧
    ∀ r ∈ added, w.key r ∈ log.added
  fresh : ∀ r ∈ before, w.key r ∉ log.added
  last : ∀ r ∈ before, (log.updated.filter (w.key · = w.key r)).getLast?
    = (w.lastWrite us (w.key r)).map fun _ => w.previous us r

variable {w}

theorem UndoInv.nil (before : List R) : w.UndoInv before [] before {} where
  rows := ⟨[], by rw [List.append_nil]; exact (List.map_id' before).symm, by simp⟩
  fresh := by simp
  last := by simp [lastWrite]

/-- No row has the key of the update. -/
theorem present_eq_false {rows : List R} {u : U}
    (h : rows.find? (fun r => w.key r = w.target u) = none) : w.present rows u = false := by
  rw [List.find?_eq_none] at h
  exact List.any_eq_false.mpr h

/-- A row is found by its key. -/
theorem find_key {rows : List R}
    (hunique : rows.Pairwise fun r s => decide (w.key r = w.key s) = false) {r : R} (hr : r ∈ rows)
    {k : K} (hk : w.key r = k) : rows.find? (fun s => w.key s = k) = some r := by
  cases hfind : rows.find? fun s => w.key s = k with
  | none =>
      have := List.find?_eq_none.mp hfind r hr
      simp [hk] at this
  | some s =>
      have hs := List.mem_of_find?_eq_some hfind
      have hkey := List.find?_some hfind
      rw [decide_eq_true_eq] at hkey
      by_contra hne
      have hsymm : Std.Symm fun r s : R => decide (w.key r = w.key s) = false :=
        ⟨fun r s hrs => by simpa only [eq_comm] using hrs⟩
      have := hunique.forall hs hr fun heq => hne (by rw [heq])
      simp [hkey, hk] at this

/-- One more update. -/
theorem UndoInv.concat {before : List R} {us : List U} {rows : List R} {log : UpsertLog R K}
    (hunique : before.Pairwise fun r s => decide (w.key r = w.key s) = false)
    (h : w.UndoInv before us rows log) (u : U) :
    w.UndoInv before (us ++ [u]) (w.upsertRows rows u) (w.logUpsert rows log u) := by
  obtain ⟨added, rfl, hadded⟩ := h.rows
  have hoverwrite : (before.map (w.overwrite us)).map (w.writeRow u)
      = before.map (w.overwrite (us ++ [u])) := by
    rw [List.map_map]
    exact List.map_congr_left fun r _ => w.writeRow_overwrite us u r
  cases hfind : (before.map (w.overwrite us) ++ added).find? fun r => w.key r = w.target u with
  | none =>
      have habsent := present_eq_false hfind
      have hother : ∀ r ∈ before, w.target u ≠ w.key r := by
        intro r hr heq
        have := List.find?_eq_none.mp hfind (w.overwrite us r)
          (List.mem_append_left _ (List.mem_map_of_mem hr))
        simp [key_overwrite, heq] at this
      have hsame : before.map (w.overwrite us) = before.map (w.overwrite (us ++ [u])) := by
        rw [← hoverwrite, w.map_writeRow_of_absent]
        exact List.any_eq_false.mpr fun r hr => List.any_eq_false.mp habsent r
          (List.mem_append_left _ hr)
      have hlast : ∀ r ∈ before, (log.updated.filter (w.key · = w.key r)).getLast?
          = (w.lastWrite (us ++ [u]) (w.key r)).map fun _ => w.previous (us ++ [u]) r := by
        intro r hr
        simp only [lastWrite_concat, previous, beforeLast_concat, if_neg (hother r hr)]
        exact h.last r hr
      unfold upsertRows logUpsert
      rw [hfind, habsent]
      simp only [Bool.false_eq_true, if_false]
      split_ifs
      · exact ⟨⟨added, by rw [hsame], hadded⟩, h.fresh, hlast⟩
      · refine ⟨⟨added ++ [w.fresh u], by rw [hsame, List.append_assoc], ?_⟩, ?_, hlast⟩
        · intro r hr
          rw [List.mem_append]
          rcases List.mem_append.mp hr with hr | hr
          · exact .inl (hadded r hr)
          · exact .inr (by simp [List.mem_singleton.mp hr, w.key_fresh])
        · intro r hr
          rw [List.mem_append, List.mem_singleton]
          exact fun hmem => hmem.elim (h.fresh r hr) fun heq => hother r hr heq.symm
  | some old =>
      have hold := List.find?_some hfind
      rw [decide_eq_true_eq] at hold
      have hpresent : w.present (before.map (w.overwrite us) ++ added) u = true :=
        List.any_eq_true.mpr ⟨old, List.mem_of_find?_eq_some hfind, by simp [hold]⟩
      unfold upsertRows logUpsert
      rw [hfind, hpresent]
      simp only [if_true]
      refine ⟨⟨added.map (w.writeRow u), by rw [List.map_append, hoverwrite], ?_⟩, h.fresh, ?_⟩
      · intro r hr
        obtain ⟨r', hr', rfl⟩ := List.mem_map.mp hr
        rw [key_writeRow]
        exact hadded r' hr'
      · intro r hr
        simp only [List.filter_append, lastWrite_concat, previous, beforeLast_concat]
        by_cases hkey : w.target u = w.key r
        · -- the row that is found is that of `r`
          have hfound : old = w.overwrite us r := by
            have hr' : before.find? (fun s => w.key s = w.target u) = some r :=
              find_key hunique hr hkey.symm
            rw [List.find?_append, List.find?_map] at hfind
            simp only [Function.comp_def, key_overwrite, hr', Option.map_some, Option.some_or,
              Option.some.injEq] at hfind
            exact hfind.symm
          simp only [hfound, key_overwrite, hkey, decide_true, List.filter_cons, List.filter_nil,
            if_true, List.getLast?_concat, Option.map_some]
          rfl
        · have hne : w.key old ≠ w.key r := hold ▸ hkey
          simp only [hne, hkey, decide_false, List.filter_cons, List.filter_nil, Bool.false_eq_true,
            if_false, List.append_nil]
          exact h.last r hr

theorem UndoInv.foldl (t : KeyedRows w.key) (us : List U) :
    w.UndoInv t.1 us (us.foldl w.loggedUpsert (t, {})).1.1 (us.foldl w.loggedUpsert (t, {})).2 := by
  induction us using List.reverseRecOn with
  | nil => exact UndoInv.nil t.1
  | append_singleton us u ih =>
      rw [List.foldl_concat]
      exact ih.concat t.2 u

/-! ### The way back -/

variable (restorer : w.Restorer C)

/-- Put a row back, if it has the key of the old one. -/
def Restorer.putBack (r old : R) : R := if w.key r = w.key old then restorer.back old r else r

/-- Delete the added rows, then put the overwritten ones back in the order of the log. -/
def Restorer.undo (log : UpsertLog R K) (rows : List R) : List R :=
  log.updated.foldl (fun rows old => rows.map (restorer.putBack · old))
    (rows.filter fun r => w.key r ∉ log.added)

theorem Restorer.key_putBack (r old : R) : w.key (restorer.putBack r old) = w.key r := by
  unfold putBack
  split_ifs
  · exact restorer.key_back old r
  · rfl

theorem Restorer.key_foldl_putBack (olds : List R) (r : R) :
    w.key (olds.foldl restorer.putBack r) = w.key r := by
  induction olds generalizing r with
  | nil => rfl
  | cons old olds ih => rw [List.foldl_cons, ih, restorer.key_putBack]

/-- A row ends with the contents of the last old row of its key. -/
theorem Restorer.content_foldl (olds : List R) (r : R) :
    restorer.content (olds.foldl restorer.putBack r)
      = ((olds.filter (w.key · = w.key r)).getLast?.elim (restorer.content r)
          restorer.content) := by
  induction olds using List.reverseRecOn with
  | nil => rfl
  | append_singleton olds old ih =>
      rw [List.foldl_concat, List.filter_append]
      have hfold := restorer.key_foldl_putBack olds r
      by_cases hkey : w.key old = w.key r
      · have hback : restorer.putBack (olds.foldl restorer.putBack r) old
            = restorer.back old (olds.foldl restorer.putBack r) := if_pos (hfold.trans hkey.symm)
        rw [hback, restorer.content_back old _ (hkey.trans hfold.symm)]
        simp [hkey]
      · have hback : restorer.putBack (olds.foldl restorer.putBack r) old
            = olds.foldl restorer.putBack r := if_neg fun h => hkey (h.symm.trans hfold)
        rw [hback, ih]
        simp [hkey]

theorem Restorer.undo_foldl_map (olds rows : List R) :
    olds.foldl (fun rows old => rows.map (restorer.putBack · old)) rows
      = rows.map fun r => olds.foldl restorer.putBack r := by
  induction olds generalizing rows with
  | nil => simp
  | cons old olds ih => rw [List.foldl_cons, ih, List.map_map]; rfl

theorem Restorer.undo_eq (log : UpsertLog R K) (rows : List R) : restorer.undo log rows
    = (rows.filter fun r => w.key r ∉ log.added).map fun r =>
        log.updated.foldl restorer.putBack r :=
  restorer.undo_foldl_map log.updated _

/-- The undo leaves the rows whose keys were not added, under their keys. -/
theorem Restorer.forall₂_undo (log : UpsertLog R K) (rows : List R) {p : R → Bool}
    (hp : ∀ r, p r = true ↔ w.key r ∉ log.added) :
    List.Forall₂ (fun r r' => w.key r' = w.key r) (rows.filter p) (restorer.undo log rows) := by
  have hfilter : rows.filter p = rows.filter fun r => w.key r ∉ log.added :=
    List.filter_congr fun r _ => Bool.eq_iff_iff.mpr ((hp r).trans decide_eq_true_iff.symm)
  rw [undo_eq, hfilter, List.forall₂_map_right_iff]
  exact List.forall₂_same.mpr fun r _ => restorer.key_foldl_putBack log.updated r

/-- The undo of a table. -/
def Restorer.undoRows (log : UpsertLog R K) (t : KeyedRows w.key) : KeyedRows w.key :=
  ⟨restorer.undo log t.1, by
    rw [undo_eq, List.pairwise_map]
    simp only [key_foldl_putBack]
    exact t.2.filter _⟩

/-- **What the undo leaves: the old rows, each as it was just before its last update.** -/
theorem Restorer.undo_contents (t : KeyedRows w.key) (us : List U) :
    let s := us.foldl w.loggedUpsert (t, {})
    (restorer.undo s.2 s.1.1).map restorer.content
      = t.1.map fun r => restorer.content (w.previous us r) := by
  intro s
  have h := UndoInv.foldl t us
  obtain ⟨added, hrows, hadded⟩ := h.rows
  have hfilter : s.1.1.filter (fun r => w.key r ∉ s.2.added) = t.1.map (w.overwrite us) := by
    have hgone : added.filter (fun r => decide (w.key r ∉ s.2.added)) = [] := by
      rw [List.filter_eq_nil_iff]
      intro r hr
      simpa using hadded r hr
    have hkept : (t.1.map (w.overwrite us)).filter (fun r => decide (w.key r ∉ s.2.added))
        = t.1.map (w.overwrite us) := by
      rw [List.filter_eq_self, List.forall_mem_map]
      intro r hr
      rw [key_overwrite]
      exact decide_eq_true (h.fresh r hr)
    rw [show s.1.1 = _ from hrows, List.filter_append, hkept, hgone, List.append_nil]
  rw [restorer.undo_eq, hfilter, List.map_map, List.map_map]
  refine List.map_congr_left fun r hr => ?_
  change restorer.content (s.2.updated.foldl restorer.putBack (w.overwrite us r)) = _
  rw [restorer.content_foldl, key_overwrite, h.last r hr]
  cases hlast : w.lastWrite us (w.key r) with
  | some v => rfl
  | none =>
      -- without an update there is none before the last one either
      have hbefore : w.beforeLast us (w.key r) = none := by
        by_contra hsome
        obtain ⟨u, hu⟩ := Option.ne_none_iff_exists'.mp hsome
        obtain ⟨v, hv⟩ := w.lastWrite_of_beforeLast hu
        rw [hlast] at hv
        cases hv
      rw [Option.map_none, overwrite, previous, hlast, hbefore]
      rfl

/-- **The undo leaves the old contents just when the update before the last one of each row
writes what the row held.** -/
theorem Restorer.undo_contents_iff (t : KeyedRows w.key) (us : List U) :
    let s := us.foldl w.loggedUpsert (t, {})
    (restorer.undo s.2 s.1.1).map restorer.content = t.1.map restorer.content ↔
      ∀ r ∈ t.1, ∀ u, w.beforeLast us (w.key r) = some u →
        restorer.content (w.write u r) = restorer.content r := by
  intro s
  rw [show (restorer.undo s.2 s.1.1).map restorer.content = _ from restorer.undo_contents t us,
    List.map_inj_left]
  refine forall₂_congr fun r _ => ?_
  unfold previous
  cases w.beforeLast us (w.key r) with
  | none => simp
  | some u => simp

end RowWriter
