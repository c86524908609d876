import Mathlib.Data.List.Perm.Basic
import Mathlib.Data.Option.Basic
import Mathlib.Order.Lattice
import Mathlib.Logic.Function.Basic

/-!
# Tables with uniqueness constraints

A table is a list of rows in which no two rows conflict (`LegalRows`, which carries the proof);
`conflict` is the table's uniqueness constraint.  An insertion of a conflicting row fails, and so
does a row that the table rejects on its own, which is `none` in a list of incoming rows.

* **`insertAll_eq_some`** — inserting rows succeeds with `t'` exactly when `t'` is the old rows
  followed by the new ones.
* `replace_rows` — the rows of a table can be inserted into an empty one, in the same order.
* **`foldlM_update`** — a loop over distinct tables that updates one at a time, and may fail,
  does to each table what its own round does.
-/

/-- A list of rows in which no two conflict. -/
abbrev LegalRows {R : Type} (conflict : R → R → Bool) :=
  { rows : List R // rows.Pairwise fun r s => conflict r s = false }

namespace LegalRows

variable {R : Type} {conflict : R → R → Bool}

/-- The table without rows. -/
def empty : LegalRows conflict := ⟨[], List.Pairwise.nil⟩

theorem pairwise_concat {rows : List R} {r : R}
    (hrows : rows.Pairwise fun r s => conflict r s = false)
    (hr : ¬ rows.any (conflict · r) = true) :
    (rows ++ [r]).Pairwise fun r s => conflict r s = false := by
  rw [List.pairwise_append]
  refine ⟨hrows, List.pairwise_singleton _ _, ?_⟩
  intro s hs r' hr'
  rw [List.mem_singleton.mp hr']
  rw [List.any_eq_true] at hr
  exact Bool.eq_false_iff.mpr fun h => hr ⟨s, hs, h⟩

/-- Insert one row. -/
def insert (t : LegalRows conflict) (r : R) : Option (LegalRows conflict) :=
  if h : t.1.any (conflict · r) = true then none else some ⟨t.1 ++ [r], pairwise_concat t.2 h⟩

theorem insert_eq_some {t t' : LegalRows conflict} {r : R} (h : t.insert r = some t') :
    t'.1 = t.1 ++ [r] := by
  unfold insert at h
  split_ifs at h
  cases h
  rfl

/-- Insert rows in order. -/
def insertAll (t : LegalRows conflict) : List (Option R) → Option (LegalRows conflict)
  | [] => some t
  | none :: _ => none
  | some r :: rs => (t.insert r).bind fun t' => insertAll t' rs

/-- Delete all rows, then insert. -/
def replace (rows : List (Option R)) : Option (LegalRows conflict) := empty.insertAll rows

/-- **Insertion succeeds exactly with the old rows followed by the new ones.** -/
theorem insertAll_eq_some (rows : List (Option R)) (t t' : LegalRows conflict) :
    t.insertAll rows = some t' ↔ t'.1.map some = t.1.map some ++ rows := by
  induction rows generalizing t with
  | nil =>
      rw [insertAll, Option.some.injEq, List.append_nil,
        (List.map_injective_iff.mpr (Option.some_injective R)).eq_iff, Subtype.ext_iff]
      exact eq_comm
  | cons row rows ih =>
      cases row with
      | none =>
          simp only [insertAll, reduceCtorEq, false_iff]
          intro h
          have : none ∈ t'.1.map some := by
            rw [h]
            simp
          simp at this
      | some r =>
          unfold insertAll insert
          split_ifs with hconf
          · simp only [Option.bind_none, reduceCtorEq, false_iff]
            intro h
            -- the rows of `t'` start with those of `t` and `r`, which conflict
            have hsplit : ∃ rest, t'.1 = t.1 ++ r :: rest := by
              obtain ⟨l, m, hlm, hl, hm⟩ := List.map_eq_append_iff.mp h
              obtain ⟨r', rest, rfl, hr', -⟩ := List.map_eq_cons_iff.mp hm
              rw [Option.some.injEq] at hr'
              rw [(List.map_injective_iff.mpr (Option.some_injective R)) hl, hr'] at hlm
              exact ⟨rest, hlm⟩
            obtain ⟨rest, hrest⟩ := hsplit
            obtain ⟨s, hs, hsr⟩ := List.any_eq_true.mp hconf
            have hlegal := t'.2
            rw [hrest, List.pairwise_append] at hlegal
            rw [hlegal.2.2 s hs r List.mem_cons_self] at hsr
            cases hsr
          · rw [Option.bind_some, ih]
            simp

theorem replace_eq_some (rows : List (Option R)) (t : LegalRows conflict) :
    replace rows = some t ↔ t.1.map some = rows := by
  rw [replace, insertAll_eq_some]
  rfl

/-- A table's rows can be inserted again. -/
theorem replace_rows (t : LegalRows conflict) : replace (t.1.map some) = some t :=
  (replace_eq_some _ t).mpr rfl

theorem insertAll_append (t : LegalRows conflict) (l m : List (Option R)) :
    t.insertAll (l ++ m) = (t.insertAll l).bind fun t' => t'.insertAll m := by
  induction l generalizing t with
  | nil => rfl
  | cons row l ih =>
      cases row with
      | none => rfl
      | some r =>
          rw [List.cons_append, insertAll, insertAll, Option.bind_assoc]
          exact congrArg _ (funext fun t' => ih t')

/-- Insertions one after the other are one insertion. -/
theorem foldlM_insertAll {β : Type} (rowsOf : β → List (Option R)) (bs : List β)
    (t : LegalRows conflict) :
    bs.foldlM (fun t b => t.insertAll (rowsOf b)) t = t.insertAll (bs.flatMap rowsOf) := by
  induction bs generalizing t with
  | nil => rfl
  | cons b bs ih =>
      rw [List.foldlM_cons, List.flatMap_cons, insertAll_append]
      exact congrArg _ (funext fun t' => ih t')

/-- The order of the insertions does not matter. -/
theorem replace_perm {l l' : List (Option R)} (hsymm : ∀ r s, conflict r s = conflict s r)
    (h : l.Perm l') {t : LegalRows conflict} (ht : replace l = some t) :
    ∃ t' : LegalRows conflict, replace l' = some t' ∧ t'.1.Perm t.1 := by
  rw [replace_eq_some] at ht
  have hrows : (l'.filterMap id).Perm t.1 := by
    have hperm := (h.symm.filterMap id)
    rw [← ht] at hperm
    simpa [List.filterMap_map] using hperm
  have hsome : (l'.filterMap id).map some = l' := by
    rw [List.map_filterMap_some_eq_filter_map_isSome, List.map_id]
    refine List.filter_eq_self.mpr fun row hrow => ?_
    have hmem := h.mem_iff.mpr hrow
    rw [← ht] at hmem
    obtain ⟨r, -, rfl⟩ := List.mem_map.mp hmem
    rfl
  have hlegal : (l'.filterMap id).Pairwise fun r s => conflict r s = false :=
    (hrows.pairwise_iff fun {r s} hrs => (hsymm s r).trans hrs).mpr t.2
  exact ⟨⟨l'.filterMap id, hlegal⟩, (replace_eq_some _ _).mpr hsome, hrows⟩

/-- Rows written back as a whole, unless two of them conflict. -/
def check (rows : List R) : Option (LegalRows conflict) :=
  if h : rows.Pairwise fun r s => conflict r s = false then some ⟨rows, h⟩ else none

theorem check_eq_some {rows : List R} {t : LegalRows conflict} (h : check rows = some t) :
    t.1 = rows := by
  unfold check at h
  split_ifs at h
  cases h
  rfl

/-- Delete the rows that do not satisfy `p`. -/
def filter (p : R → Bool) (t : LegalRows conflict) : LegalRows conflict :=
  ⟨t.1.filter p, t.2.filter p⟩

/-- Change every row without touching what the constraint reads. -/
def map (f : R → R) (hf : ∀ r s, conflict (f r) (f s) = conflict r s) (t : LegalRows conflict) :
    LegalRows conflict :=
  ⟨t.1.map f, by simpa only [List.pairwise_map, hf] using t.2⟩

end LegalRows

/-! ## Loops over tables -/

/-- **A loop over distinct keys, seen at every key.** -/
theorem foldlM_update {κ : Type} [DecidableEq κ] {ν : κ → Type} {g : (k : κ) → ν k → Option (ν k)}
    {l : List κ} (hl : l.Nodup) (s s' : (k : κ) → ν k) :
    l.foldlM (fun s k => (g k (s k)).map (Function.update s k)) s = some s' ↔
      ∀ k, if k ∈ l then g k (s k) = some (s' k) else s' k = s k := by
  induction l generalizing s with
  | nil =>
      simp only [List.foldlM_nil, Option.pure_def, Option.some.injEq, List.not_mem_nil, if_false]
      exact ⟨fun h k => by rw [h], fun h => (funext h).symm⟩
  | cons k₀ l ih =>
      obtain ⟨hk₀, hl⟩ := List.nodup_cons.mp hl
      rw [List.foldlM_cons]
      cases hg : g k₀ (s k₀) with
      | none =>
          simp only [Option.map_none, Option.bind_eq_bind, Option.bind_none, reduceCtorEq,
            false_iff]
          intro h
          have := h k₀
          rw [if_pos List.mem_cons_self, hg] at this
          cases this
      | some v =>
          rw [Option.map_some, Option.bind_eq_bind, Option.bind_some, ih hl]
          refine forall_congr' fun k => ?_
          by_cases hk : k = k₀
          · subst hk
            rw [if_neg hk₀, if_pos List.mem_cons_self, Function.update_self, hg, Option.some.injEq]
            exact eq_comm
          · simp only [List.mem_cons, hk, false_or, Function.update_of_ne hk]

/-! ## Row ids -/

/-- The rowid of a new row: one above the largest. -/
def nextRowid (ids : List ℕ) : ℕ := ids.foldl max 0 + 1

theorem le_foldl_max {l : List ℕ} {i : ℕ} (h : i ∈ l) : i ≤ l.foldl max 0 := by
  rw [(List.perm_cons_erase h).foldl_eq 0, List.foldl_cons, max_comm, List.foldl_assoc]
  exact le_max_left _ _

theorem lt_nextRowid {ids : List ℕ} {i : ℕ} (h : i ∈ ids) : i < nextRowid ids :=
  Nat.lt_succ_of_le (le_foldl_max h)
