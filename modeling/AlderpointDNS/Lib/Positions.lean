import Mathlib.Data.List.Basic

/-!
# Removal by position

The entries of a list are removed by their positions, and a removal moves the later entries down.
Positions that were read once are still right when they are used from the last to the first.

* `positions` — the positions of the entries of a kind;
* **`removals_spec`** — removals of entries of a kind, from the last to the first, find them and
  leave the others in their order;
* `remove_positions` — after the removals at all positions of the kind the others are left.
-/

namespace Positions

variable {α : Type}

/-- The list without the entry at the position. -/
def removeAt (l : List α) (i : ℕ) : Option (List α) :=
  if i < l.length then some (l.eraseIdx i) else none

/-- The entries of a kind with their positions. -/
def located (p : α → Bool) (l : List α) : List (α × ℕ) := l.zipIdx.filter fun entry => p entry.1

/-- The positions of a kind. -/
def positions (p : α → Bool) (l : List α) : List ℕ := (located p l).map (·.2)

example : (positions (· % 2 = 0) [4, 5, 6, 7, 8]).reverse.foldlM removeAt [4, 5, 6, 7, 8]
    = some [5, 7] := by decide

variable {p : α → Bool} {l : List α} {i : ℕ} {a : α}

theorem mem_positions (h : i ∈ positions p l) : ∃ a, l[i]? = some a ∧ p a = true := by
  obtain ⟨⟨a, j⟩, hentry, rfl⟩ := List.mem_map.mp h
  obtain ⟨hmem, hp⟩ := List.mem_filter.mp hentry
  exact ⟨a, List.mem_zipIdx_iff_getElem?.mp hmem, hp⟩

theorem positions_pairwise (p : α → Bool) (l : List α) : (positions p l).Pairwise (· < ·) := by
  have hall : (l.zipIdx.map (·.2)).Pairwise (· < ·) := by
    rw [List.zipIdx_map_snd]
    exact List.pairwise_lt_range'
  exact hall.sublist (List.filter_sublist.map _)

theorem map_fst_located (p : α → Bool) (l : List α) :
    (located p l).map (·.1) = l.filter p := by
  conv_rhs => rw [← List.zipIdx_map_fst 0 l, List.filter_map]
  rfl

theorem length_positions (p : α → Bool) (l : List α) : (positions p l).length = l.countP p := by
  rw [List.countP_eq_length_filter, ← map_fst_located, positions, List.length_map, List.length_map]

/-! ## Removals -/

/-- The entries before and after a position. -/
theorem split_at (h : l[i]? = some a) :
    i < l.length ∧ l = l.take i ++ a :: l.drop (i + 1) ∧
      l.eraseIdx i = l.take i ++ l.drop (i + 1) := by
  obtain ⟨hi, rfl⟩ := List.getElem?_eq_some_iff.mp h
  refine ⟨hi, ?_, List.eraseIdx_eq_take_drop_succ l i⟩
  rw [← List.drop_eq_getElem_cons hi, List.take_append_drop]

theorem removeAt_eq (h : l[i]? = some a) : removeAt l i = some (l.eraseIdx i) :=
  if_pos (split_at h).1

/-- The removal of an entry of the kind. -/
theorem eraseIdx_spec (h : l[i]? = some a) (ha : p a = true) :
    (l.eraseIdx i).filter (fun b => !p b) = l.filter (fun b => !p b) ∧
      (l.eraseIdx i).countP p + 1 = l.countP p := by
  obtain ⟨-, hsplit, herase⟩ := split_at h
  rw [herase]
  conv => enter [1, 2]; rw [hsplit]
  conv => enter [2, 2]; rw [hsplit]
  simp [ha]
  omega

/-- **Removals from the last position to the first** leave the entries of the other kind. -/
theorem removals_spec {is : List ℕ} (hdesc : is.Pairwise (· > ·))
    (hkind : ∀ i ∈ is, ∃ a, l[i]? = some a ∧ p a = true) :
    ∃ l', is.foldlM removeAt l = some l' ∧
      l'.filter (fun b => !p b) = l.filter (fun b => !p b) ∧
      l'.countP p + is.length = l.countP p := by
  induction is generalizing l with
  | nil => exact ⟨l, rfl, rfl, rfl⟩
  | cons j is ih =>
      rw [List.pairwise_cons] at hdesc
      rw [List.forall_mem_cons] at hkind
      obtain ⟨⟨a, hj, ha⟩, hkind⟩ := hkind
      obtain ⟨hothers, hcount⟩ := eraseIdx_spec hj ha
      -- the positions before the removed one keep their entries
      have hrest : ∀ i ∈ is, ∃ b, (l.eraseIdx j)[i]? = some b ∧ p b = true := by
        intro i hi
        rw [List.getElem?_eraseIdx_of_lt (hdesc.1 i hi)]
        exact hkind i hi
      obtain ⟨l', hfold, hothers', hcount'⟩ := ih hdesc.2 hrest
      refine ⟨l', ?_, hothers'.trans hothers, ?_⟩
      · rw [List.foldlM_cons, removeAt_eq hj]
        exact hfold
      · rw [List.length_cons]
        omega

/-- The positions of a kind from the last to the first, as far as one gets. -/
theorem take_positions (p : α → Bool) (l : List α) (k : ℕ) :
    ∃ l', ((positions p l).reverse.take k).foldlM removeAt l = some l' ∧
      l'.filter (fun b => !p b) = l.filter (fun b => !p b) ∧
      l'.countP p + ((positions p l).reverse.take k).length = l.countP p := by
  refine removals_spec ?_ fun i hi => ?_
  · exact (List.pairwise_reverse.mpr (positions_pairwise p l)).sublist (List.take_sublist _ _)
  · exact mem_positions (List.mem_reverse.mp (List.mem_of_mem_take hi))

/-- **All of a kind are removed**, and nothing else. -/
theorem remove_positions (p : α → Bool) (l : List α) :
    (positions p l).reverse.foldlM removeAt l = some (l.filter fun b => !p b) := by
  obtain ⟨l', hfold, hothers, hcount⟩ := take_positions p l (positions p l).reverse.length
  rw [List.take_length] at hfold hcount
  rw [List.length_reverse, length_positions] at hcount
  have hnone : l'.filter (fun b => !p b) = l' := by
    refine List.filter_eq_self.mpr fun b hb => ?_
    have := List.countP_eq_zero.mp (show l'.countP p = 0 by omega) b hb
    simpa using this
  rw [hfold, ← hothers, hnone]

end Positions
