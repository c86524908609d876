import AlderpointDNS.Lib.Dict
import Mathlib.Algebra.BigOperators.Group.List.Basic
import Mathlib.Algebra.GroupWithZero.Nat

/-!
# Counters that are added up

A table of counters has a row for each key, and a write adds its values to the row of its key,
column by column.  Who reads the table sums a column over all rows, so what matters of a write is
what it adds to these sums.

* `sumOf_insert` — the sum over a dictionary after a value was set;
* **`total_addRow`** — a write adds its own value to the sum of each column, whatever its key;
* `tally` — a loop that adds up amounts under their labels, and `tally_apply`, what it makes.
-/

namespace Dict

variable {κ β : Type} [DecidableEq κ]

/-- The sum of a quantity over the values. -/
def sumOf (g : β → ℕ) (d : Dict κ β) : ℕ := (d.entries.map fun entry => g entry.2).sum

theorem sumOf_insert (g : β → ℕ) (d : Dict κ β) (k : κ) (b : β) :
    sumOf g (d.insert k b) + ((d.lookup k).map g).getD 0 = d.sumOf g + g b := by
  simp only [sumOf, AList.entries_insert, List.map_cons, List.sum_cons]
  by_cases hk : k ∈ d
  · obtain ⟨old, before, after, _, hentries, herase⟩ :=
      List.exists_of_kerase (AList.mem_keys.mp hk)
    have hold : d.lookup k = some old :=
      AList.mem_lookup_iff.mpr (by rw [hentries]; simp)
    rw [herase, hold, hentries]
    simp only [List.map_append, List.map_cons, List.sum_append, List.sum_cons, Option.map_some,
      Option.getD_some]
    omega
  · rw [List.kerase_of_notMem_keys hk, AList.lookup_eq_none.mpr hk, Option.map_none,
      Option.getD_none]
    omega

end Dict

namespace Counters

variable {κ χ : Type} [DecidableEq κ]

/-- Add the values to the row of the key, which is made where there is none. -/
def addRow (rows : Dict κ (χ → ℕ)) (k : κ) (values : χ → ℕ) : Dict κ (χ → ℕ) :=
  rows.upsert k fun old => old.elim values fun row c => row c + values c

/-- A column, summed over all rows. -/
def total (rows : Dict κ (χ → ℕ)) (c : χ) : ℕ := rows.sumOf fun row => row c

/-- **A write adds its values to the sums of the columns.** -/
theorem total_addRow (rows : Dict κ (χ → ℕ)) (k : κ) (values : χ → ℕ) (c : χ) :
    total (addRow rows k values) c = total rows c + values c := by
  have hsum := Dict.sumOf_insert (fun row : χ → ℕ => row c) rows k
    ((rows.lookup k).elim values fun row c => row c + values c)
  rw [total, total, addRow, Dict.upsert]
  cases hlookup : rows.lookup k with
  | none =>
      rw [hlookup, Option.map_none, Option.getD_none] at hsum
      exact hsum
  | some row =>
      rw [hlookup] at hsum
      simp only [Option.map_some, Option.getD_some, Option.elim_some] at hsum ⊢
      omega

theorem total_foldl_addRow {ι : Type} (key : ι → κ) (values : ι → χ → ℕ) (items : List ι)
    (rows : Dict κ (χ → ℕ)) (c : χ) :
    total (items.foldl (fun rows i => addRow rows (key i) (values i)) rows) c
      = total rows c + (items.map fun i => values i c).sum := by
  induction items generalizing rows with
  | nil => rfl
  | cons i items ih =>
      rw [List.foldl_cons, ih, total_addRow, List.map_cons, List.sum_cons, Nat.add_assoc]

variable [DecidableEq χ]

/-- `sums[label(i)] = sums.get(label(i), 0) + amount(i)`, for all items. -/
def tally {ι : Type} (label : ι → χ) (amount : ι → ℕ) (items : List ι) (sums : χ → ℕ) : χ → ℕ :=
  items.foldl (fun sums i => Function.update sums (label i) (sums (label i) + amount i)) sums

theorem tally_apply {ι : Type} (label : ι → χ) (amount : ι → ℕ) (items : List ι) (sums : χ → ℕ)
    (c : χ) : tally label amount items sums c
      = sums c + (items.map fun i => if label i = c then amount i else 0).sum := by
  induction items generalizing sums with
  | nil => rfl
  | cons i items ih =>
      rw [tally, List.foldl_cons, ← tally, ih, List.map_cons, List.sum_cons]
      by_cases hi : label i = c
      · rw [if_pos hi, ← hi, Function.update_self]
        omega
      · rw [if_neg hi, Function.update_of_ne (Ne.symm hi)]
        omega

end Counters
