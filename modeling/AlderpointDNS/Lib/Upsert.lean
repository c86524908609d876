import AlderpointDNS.Lib.Tables
import Mathlib.Data.List.Induction

/-!
# Loops that write rows

Two kinds of rounds.  A round that only adds (`Grows`) changes nothing when it is idle, and
otherwise makes the state larger.  A round that writes by key works on a table whose rows have a
key (`KeyedRows`): it overwrites the row of the update's key, and where there is none it adds a
row or, when `skip` says so, leaves the table alone.  An overwritten row shows only the last update
of its key.

* **`Grows.foldl_eq_iff`** — a loop of rounds that only add changes nothing just when each of them
  is idle at the start.
* `foldl_of_covered` — updates that add no row overwrite each row with the last one for it.
* **`foldl_upsert_eq_iff`** — when a list of updates leaves the table as it was.
* **`foldl_again_iff`** — when it does so the second time.
-/

/-! ## Rounds that only add -/

/-- An idle round changes nothing, every other one makes the state larger. -/
structure Grows {σ α : Type} (f : σ → α → σ) (size : σ → ℕ) (idle : σ → α → Prop) : Prop where
  same : ∀ s a, idle s a → f s a = s
  larger : ∀ s a, ¬idle s a → size s < size (f s a)

namespace Grows

variable {σ α : Type} {f : σ → α → σ} {size : σ → ℕ} {idle : σ → α → Prop}

theorem foldl_same (h : Grows f size idle) {l : List α} {s : σ} (hl : ∀ a ∈ l, idle s a) :
    l.foldl f s = s := by
  induction l with
  | nil => rfl
  | cons a l ih =>
      obtain ⟨ha, hl⟩ := List.forall_mem_cons.mp hl
      rw [List.foldl_cons, h.same s a ha]
      exact ih hl

theorem size_le (h : Grows f size idle) (s : σ) (a : α) : size s ≤ size (f s a) := by
  by_cases ha : idle s a
  · rw [h.same s a ha]
  · exact (h.larger s a ha).le

theorem size_le_foldl (h : Grows f size idle) (l : List α) (s : σ) :
    size s ≤ size (l.foldl f s) := by
  induction l generalizing s with
  | nil => exact le_rfl
  | cons a l ih => exact (h.size_le s a).trans (ih _)

theorem foldl_larger (h : Grows f size idle) {l : List α} {s : σ}
    (hl : ¬∀ a ∈ l, idle s a) : size s < size (l.foldl f s) := by
  induction l with
  | nil => exact absurd (fun a ha => nomatch ha) hl
  | cons a l ih =>
      rw [List.foldl_cons]
      by_cases ha : idle s a
      · rw [h.same s a ha]
        exact ih fun hrest => hl (List.forall_mem_cons.mpr ⟨ha, hrest⟩)
      · exact (h.larger s a ha).trans_le (h.size_le_foldl l _)

/-- **A loop changes nothing just when each round is idle at the start.** -/
theorem foldl_eq_iff (h : Grows f size idle) {l : List α} {s : σ} :
    l.foldl f s = s ↔ ∀ a ∈ l, idle s a := by
  refine ⟨fun heq => ?_, h.foldl_same⟩
  by_contra hl
  have hlarger := h.foldl_larger hl
  rw [heq] at hlarger
  exact lt_irrefl _ hlarger

end Grows

/-! ## Rounds that write by key -/

/-- A table with a unique key. -/
abbrev KeyedRows {R K : Type} [DecidableEq K] (key : R → K) :=
  LegalRows fun r s => decide (key r = key s)

/-- How updates `U` write to rows `R` with keys `K`. -/
structure RowWriter (R U K : Type) where
  key : R → K
  target : U → K
  /-- the row that the update makes of the existing one -/
  write : U → R → R
  fresh : U → R
  /-- no row is added although there is none with the key -/
  skip : U → List R → Bool
  key_write : ∀ u r, key (write u r) = key r
  key_fresh : ∀ u, key (fresh u) = target u
  write_write : ∀ u v r, write u (write v r) = write u r

namespace RowWriter

variable {R U K : Type} [DecidableEq K] (w : RowWriter R U K)

/-- A row with the key of the update exists. -/
def present (rows : List R) (u : U) : Bool := rows.any fun r => w.key r = w.target u

/-- Overwrite the row with the key of the update. -/
def writeRow (u : U) (r : R) : R := if w.key r = w.target u then w.write u r else r

/-- The rows after one update. -/
def upsertRows (rows : List R) (u : U) : List R :=
  if w.present rows u then rows.map (w.writeRow u)
  else if w.skip u rows then rows
  else rows ++ [w.fresh u]

theorem key_writeRow (u : U) (r : R) : w.key (w.writeRow u r) = w.key r := by
  unfold writeRow
  split_ifs
  · exact w.key_write u r
  · rfl

theorem pairwise_upsertRows (t : KeyedRows w.key) (u : U) :
    (w.upsertRows t.1 u).Pairwise fun r s => decide (w.key r = w.key s) = false := by
  unfold upsertRows
  split_ifs with hpresent
  · simpa only [List.pairwise_map, key_writeRow] using t.2
  · exact t.2
  · refine LegalRows.pairwise_concat t.2 ?_
    rw [w.key_fresh]
    exact hpresent

/-- One update of a table. -/
def upsert (t : KeyedRows w.key) (u : U) : KeyedRows w.key :=
  ⟨w.upsertRows t.1 u, w.pairwise_upsertRows t u⟩

/-! ### The last update of a key -/

/-- The last update of a key. -/
def lastWrite (us : List U) (k : K) : Option U := us.reverse.find? (w.target · = k)

/-- What overwriting makes of a row. -/
def overwrite (us : List U) (r : R) : R := (w.lastWrite us (w.key r)).elim r (w.write · r)

theorem lastWrite_concat (us : List U) (u : U) (k : K) :
    w.lastWrite (us ++ [u]) k = if w.target u = k then some u else w.lastWrite us k := by
  rw [lastWrite, List.reverse_append, List.reverse_singleton, List.singleton_append,
    List.find?_cons]
  split_ifs with h <;> simp [h, lastWrite]

theorem key_overwrite (us : List U) (r : R) : w.key (w.overwrite us r) = w.key r := by
  unfold overwrite
  cases w.lastWrite us (w.key r) with
  | none => rfl
  | some u => exact w.key_write u r

/-- One more update, seen at a row. -/
theorem writeRow_overwrite (us : List U) (u : U) (r : R) :
    w.writeRow u (w.overwrite us r) = w.overwrite (us ++ [u]) r := by
  rw [writeRow, key_overwrite, overwrite, overwrite, lastWrite_concat]
  by_cases h : w.key r = w.target u
  · rw [if_pos h, if_pos h.symm]
    cases w.lastWrite us (w.key r) with
    | none => rfl
    | some v => exact w.write_write u v r
  · rw [if_neg h, if_neg (Ne.symm h)]

theorem present_map_overwrite (rows : List R) (us : List U) (u : U) :
    w.present (rows.map (w.overwrite us)) u = w.present rows u := by
  simp only [present, List.any_map, Function.comp_def, key_overwrite]

/-- Where no row has the key, there is nothing to overwrite. -/
theorem map_writeRow_of_absent {rows : List R} {u : U} (h : w.present rows u = false) :
    rows.map (w.writeRow u) = rows := by
  rw [present, List.any_eq_false] at h
  refine (List.map_congr_left fun r hr => ?_).trans (List.map_id rows)
  exact if_neg fun hkey => h r hr (decide_eq_true hkey)

/-! ### Updates that add no row -/

/-- After the updates `us` the update `u` finds its row, or is skipped. -/
def CoveredAt (rows : List R) (us : List U) (u : U) : Prop :=
  w.present rows u = true ∨ w.skip u (rows.map (w.overwrite us)) = true

/-- No update adds a row. -/
def Covered (rows : List R) (us : List U) : Prop :=
  ∀ before u after, us = before ++ u :: after → w.CoveredAt rows before u

theorem covered_nil (rows : List R) : w.Covered rows [] := by
  intro before u after h
  exact absurd h.symm (List.append_ne_nil_of_right_ne_nil _ (List.cons_ne_nil _ _))

theorem covered_concat {rows : List R} {us : List U} {u : U} :
    w.Covered rows (us ++ [u]) ↔ w.Covered rows us ∧ w.CoveredAt rows us u := by
  constructor
  · intro h
    refine ⟨fun before v after hus => ?_, h us u [] rfl⟩
    refine h before v (after ++ [u]) ?_
    rw [hus, List.append_assoc, List.cons_append]
  · rintro ⟨hus, hu⟩ before v after hsplit
    rcases List.eq_nil_or_concat after with rfl | ⟨after, v', rfl⟩
    · obtain ⟨rfl, hv⟩ := List.append_inj' hsplit rfl
      cases hv
      exact hu
    · rw [List.concat_eq_append, ← List.cons_append, ← List.append_assoc] at hsplit
      exact hus before v after (List.append_inj' hsplit rfl).1

/-- **Updates that add no row overwrite each row with the last update for it.** -/
theorem foldl_of_covered {rows : List R} {us : List U} (h : w.Covered rows us) :
    us.foldl w.upsertRows rows = rows.map (w.overwrite us) := by
  induction us using List.reverseRecOn with
  | nil => exact (List.map_id' rows).symm
  | append_singleton us u ih =>
      obtain ⟨hus, hu⟩ := w.covered_concat.mp h
      have hwrite : (rows.map (w.overwrite us)).map (w.writeRow u)
          = rows.map (w.overwrite (us ++ [u])) := by
        rw [List.map_map]
        exact List.map_congr_left fun r _ => w.writeRow_overwrite us u r
      rw [List.foldl_concat, ih hus, upsertRows, ← hwrite]
      split_ifs with hpresent hskip
      · rfl
      · exact (w.map_writeRow_of_absent (Bool.eq_false_iff.mpr hpresent)).symm
      · rw [present_map_overwrite] at hpresent
        exact absurd (hu.resolve_left hpresent) hskip

theorem length_upsertRows_le (rows : List R) (u : U) :
    rows.length ≤ (w.upsertRows rows u).length := by
  unfold upsertRows
  split_ifs <;> simp

/-- A table that has not grown has got no row. -/
theorem covered_of_length {rows : List R} {us : List U}
    (h : (us.foldl w.upsertRows rows).length ≤ rows.length) : w.Covered rows us := by
  induction us using List.reverseRecOn with
  | nil => exact w.covered_nil rows
  | append_singleton us u ih =>
      rw [List.foldl_concat] at h
      have hus : w.Covered rows us := ih ((w.length_upsertRows_le _ u).trans h)
      refine w.covered_concat.mpr ⟨hus, ?_⟩
      rw [w.foldl_of_covered hus, upsertRows, present_map_overwrite] at h
      unfold CoveredAt
      split_ifs at h with hpresent hskip
      · exact Or.inl hpresent
      · exact Or.inr hskip
      · rw [List.length_append, List.length_map] at h
        exact absurd h (Nat.not_succ_le_self _)

/-- The updates add no row, and the last update of each row writes what it holds. -/
structure Settled (rows : List R) (us : List U) : Prop where
  covered : w.Covered rows us
  same : ∀ r ∈ rows, w.overwrite us r = r

theorem foldl_upsert_val (t : KeyedRows w.key) (us : List U) :
    (us.foldl w.upsert t).1 = us.foldl w.upsertRows t.1 := by
  induction us generalizing t with
  | nil => rfl
  | cons u us ih => exact ih (w.upsert t u)

/-- **When updates leave the table as it was.** -/
theorem foldl_upsert_eq_iff (t : KeyedRows w.key) (us : List U) :
    us.foldl w.upsert t = t ↔ w.Settled t.1 us := by
  rw [Subtype.ext_iff, foldl_upsert_val]
  constructor
  · intro h
    have hcovered : w.Covered t.1 us := w.covered_of_length (le_of_eq (congrArg _ h))
    rw [w.foldl_of_covered hcovered] at h
    exact ⟨hcovered, List.map_inj_left.mp (h.trans (List.map_id' _).symm)⟩
  · rintro ⟨hcovered, hsame⟩
    rw [w.foldl_of_covered hcovered]
    exact (List.map_congr_left hsame).trans (List.map_id' _)

/-! ### The same updates again -/

/-- A row has the key, or an update with the key is not skipped when its turn comes. -/
def Holds (rows : List R) (us : List U) (k : K) : Prop :=
  (∃ r ∈ rows, w.key r = k) ∨
    ∃ before u after, us = before ++ u :: after ∧ w.target u = k ∧
      w.skip u (before.foldl w.upsertRows rows) = false

theorem present_iff {rows : List R} {u : U} :
    w.present rows u = true ↔ ∃ r ∈ rows, w.key r = w.target u := by
  simp [present]

theorem exists_key_upsertRows {rows : List R} {u : U} {k : K} :
    (∃ r ∈ w.upsertRows rows u, w.key r = k) ↔
      (∃ r ∈ rows, w.key r = k) ∨ w.target u = k ∧ w.skip u rows = false := by
  unfold upsertRows
  split_ifs with hpresent hskip
  · obtain ⟨r, hr, hkey⟩ := w.present_iff.mp hpresent
    have hkeys : (∃ r ∈ rows.map (w.writeRow u), w.key r = k) ↔ ∃ r ∈ rows, w.key r = k := by
      simp only [List.mem_map, exists_exists_and_eq_and, key_writeRow]
    rw [hkeys]
    exact ⟨Or.inl, fun h => h.elim id fun hu => ⟨r, hr, hkey.trans hu.1⟩⟩
  · simp [hskip]
  · rw [Bool.not_eq_true] at hskip
    simp only [List.mem_append, List.mem_singleton, or_and_right, exists_or, exists_eq_left,
      w.key_fresh, hskip, and_true]

/-- The keys of the rows in the end. -/
theorem exists_key_iff_holds {rows : List R} {us : List U} {k : K} :
    (∃ r ∈ us.foldl w.upsertRows rows, w.key r = k) ↔ w.Holds rows us k := by
  induction us using List.reverseRecOn with
  | nil => simp [Holds]
  | append_singleton us u ih =>
      rw [List.foldl_concat, exists_key_upsertRows, ih]
      constructor
      · rintro ((hrows | ⟨before, v, after, rfl, hv⟩) | hu)
        · exact Or.inl hrows
        · exact Or.inr ⟨before, v, after ++ [u], by simp, hv⟩
        · exact Or.inr ⟨us, u, [], rfl, hu⟩
      · rintro (hrows | ⟨before, v, after, hsplit, hv⟩)
        · exact Or.inl (Or.inl hrows)
        · rcases List.eq_nil_or_concat after with rfl | ⟨after, v', rfl⟩
          · obtain ⟨rfl, hu⟩ := List.append_inj' hsplit rfl
            cases hu
            exact Or.inr hv
          · rw [List.concat_eq_append, ← List.cons_append, ← List.append_assoc] at hsplit
            exact Or.inl (Or.inr ⟨before, v, after, (List.append_inj' hsplit rfl).1, hv⟩)

theorem overwrite_concat_of_ne {us : List U} {u : U} {r : R} (h : w.target u ≠ w.key r) :
    w.overwrite (us ++ [u]) r = w.overwrite us r := by
  rw [overwrite, lastWrite_concat, if_neg h, overwrite]

/-- In the end each row holds what the last update of its key writes. -/
theorem overwrite_foldl (hfresh : ∀ u, w.write u (w.fresh u) = w.fresh u) (rows : List R)
    (us : List U) : ∀ r ∈ us.foldl w.upsertRows rows, w.overwrite us r = r := by
  induction us using List.reverseRecOn with
  | nil => exact fun r _ => rfl
  | append_singleton us u ih =>
      -- a row with another key is as it was
      have hother : ∀ r ∈ us.foldl w.upsertRows rows, w.target u ≠ w.key r →
          w.overwrite (us ++ [u]) r = r := fun r hr hkey =>
        (w.overwrite_concat_of_ne hkey).trans (ih r hr)
      rw [List.foldl_concat, upsertRows]
      split_ifs with hpresent hskip
      · intro _ hmem
        obtain ⟨r, hr, rfl⟩ := List.mem_map.mp hmem
        by_cases hkey : w.key r = w.target u
        · rw [writeRow, if_pos hkey, overwrite, lastWrite_concat, w.key_write, if_pos hkey.symm]
          exact w.write_write u u r
        · rw [writeRow, if_neg hkey]
          exact hother r hr (Ne.symm hkey)
      · exact fun r hr => hother r hr fun hkey => hpresent (w.present_iff.mpr ⟨r, hr, hkey.symm⟩)
      · intro r hr
        rcases List.mem_append.mp hr with hr | hr
        · exact hother r hr fun hkey => hpresent (w.present_iff.mpr ⟨r, hr, hkey.symm⟩)
        · rw [List.mem_singleton.mp hr, overwrite, lastWrite_concat, w.key_fresh, if_pos rfl]
          exact hfresh u

/-- A row whose key no update has is as it was. -/
theorem mem_of_mem_foldl {rows : List R} {us : List U} {r : R}
    (hmem : r ∈ us.foldl w.upsertRows rows) (h : w.lastWrite us (w.key r) = none) : r ∈ rows := by
  induction us using List.reverseRecOn generalizing r with
  | nil => exact hmem
  | append_singleton us u ih =>
      rw [lastWrite_concat] at h
      split_ifs at h with hkey
      rw [List.foldl_concat, upsertRows] at hmem
      split_ifs at hmem with hpresent hskip
      · obtain ⟨r, hr, rfl⟩ := List.mem_map.mp hmem
        rw [key_writeRow] at hkey h
        rw [writeRow, if_neg (Ne.symm hkey)]
        exact ih hr h
      · exact ih hmem h
      · rcases List.mem_append.mp hmem with hr | hr
        · exact ih hr h
        · rw [List.mem_singleton.mp hr, w.key_fresh] at hkey
          exact absurd rfl hkey

/-- **When the same updates again change nothing**: each of them has a row, or finds a reason to be
skipped in what the updates before it have left of the rows. -/
theorem foldl_again_iff (hfresh : ∀ u, w.write u (w.fresh u) = w.fresh u) (t : KeyedRows w.key)
    (us : List U) :
    us.foldl w.upsert (us.foldl w.upsert t) = us.foldl w.upsert t ↔
      ∀ before u after, us = before ++ u :: after → w.Holds t.1 us (w.target u) ∨
        w.skip u ((us.foldl w.upsertRows t.1).map (w.overwrite before)) = true := by
  rw [foldl_upsert_eq_iff, foldl_upsert_val]
  constructor
  · intro h before u after hsplit
    rw [← exists_key_iff_holds, ← present_iff]
    exact h.covered before u after hsplit
  · intro h
    refine ⟨fun before u after hsplit => ?_, w.overwrite_foldl hfresh t.1 us⟩
    rw [CoveredAt, present_iff, exists_key_iff_holds]
    exact h before u after hsplit

end RowWriter
