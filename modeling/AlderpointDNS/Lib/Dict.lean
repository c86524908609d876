import Mathlib.Data.List.AList
import Mathlib.Data.List.Sort
import Mathlib.Data.List.Induction
import Mathlib.Data.Finset.Basic
import Mathlib.Data.Finset.Insert
import Mathlib.Order.Bounds.Basic

/-!
# Dictionaries, sorted enumeration, and folds that touch one key at a time

Three small tools for code that aggregates rows into dictionaries and then walks them.

* `Dict` is Mathlib's `AList`; `upsert` is `setdefault` followed by an in-place change.
* `sortedSet` enumerates a finite set in order (`sorted(s)`), by insertion sort so that it
  evaluates.
* **`Local`** says that a step changes the *view* of a state at one key only, and there as a
  function of the old view.  `view_foldl` turns a loop over rows into one fold per key, and
  `view_foldl_nodup` turns a loop over distinct keys into a single application per key.  Every
  loop over a dictionary is reasoned about through these two lemmas.
-/

/-- A dictionary with keys in `κ` and values in `β`. -/
abbrev Dict (κ β : Type) := AList (fun _ : κ => β)

namespace Dict

variable {κ β : Type} [DecidableEq κ]

/-- Replace the value at `k` by a function of what is there. -/
def upsert (d : Dict κ β) (k : κ) (f : Option β → β) : Dict κ β := d.insert k (f (d.lookup k))

theorem lookup_insert' (d : Dict κ β) (k k' : κ) (b : β) :
    (d.insert k b).lookup k' = if k = k' then some b else d.lookup k' := by
  by_cases h : k = k'
  · subst h; simp
  · rw [if_neg h, AList.lookup_insert_ne (Ne.symm h)]

theorem lookup_erase' (d : Dict κ β) (k k' : κ) :
    (d.erase k).lookup k' = if k = k' then none else d.lookup k' := by
  by_cases h : k = k'
  · subst h; simp
  · rw [if_neg h, AList.lookup_erase_ne (Ne.symm h)]

/-- The keys after `for k in ks: d.pop(k, None)`. -/
theorem isSome_lookup_foldl_erase (d : Dict κ β) (ks : List κ) (k : κ) :
    ((ks.foldl (fun d k => d.erase k) d).lookup k).isSome = true ↔
      (d.lookup k).isSome = true ∧ k ∉ ks := by
  induction ks generalizing d with
  | nil => simp
  | cons k' ks ih =>
      rw [List.foldl_cons, ih, lookup_erase']
      by_cases hk : k' = k
      · simp [hk]
      · simp [hk, Ne.symm hk]

theorem lookup_upsert (d : Dict κ β) (k k' : κ) (f : Option β → β) :
    (d.upsert k f).lookup k' = if k = k' then some (f (d.lookup k')) else d.lookup k' := by
  rw [upsert, lookup_insert']
  split_ifs with h
  · rw [h]
  · rfl

/-- `for x in xs: d.setdefault(key(x), []).append(x)`. -/
def group {ι : Type} (key : ι → κ) (d : Dict κ (List ι)) (xs : List ι) : Dict κ (List ι) :=
  xs.foldl (fun d x => d.upsert (key x) fun old => old.getD [] ++ [x]) d

/-- **A dictionary of lists holds, under each key, the items of the key in order.** -/
theorem lookup_group {ι : Type} (key : ι → κ) (d : Dict κ (List ι)) (xs : List ι) (k : κ) :
    (d.group key xs).lookup k = if ∃ x ∈ xs, key x = k
      then some ((d.lookup k).getD [] ++ xs.filter fun x => key x = k) else d.lookup k := by
  induction xs generalizing d with
  | nil => simp [group]
  | cons x xs ih =>
      rw [group, List.foldl_cons, ← group, ih, lookup_upsert]
      by_cases hx : key x = k
      · simp only [hx, if_true, Option.getD_some, List.mem_cons, exists_eq_or_imp, true_or,
          decide_true, List.filter_cons_of_pos, List.append_assoc, List.singleton_append]
        split_ifs with hxs
        · rfl
        · have : xs.filter (fun y => key y = k) = [] := by
            rw [List.filter_eq_nil_iff]
            exact fun y hy h => hxs ⟨y, hy, by simpa using h⟩
          rw [this]
      · simp [hx]

theorem mem_keys_iff (d : Dict κ β) (k : κ) : k ∈ d.keys ↔ (d.lookup k).isSome = true := by
  rw [AList.lookup_isSome, AList.mem_keys]

theorem lookup_eq_none_of_notMem {d : Dict κ β} {k : κ} (h : k ∉ d.keys) : d.lookup k = none := by
  rw [mem_keys_iff] at h
  simpa using h

end Dict

/-! ## Sorted enumeration -/

section Sorted

variable {α : Type} [LinearOrder α]

/-- `sorted(xs)`. -/
def sorted (xs : List α) : List α := xs.insertionSort (· ≤ ·)

@[simp] theorem mem_sorted {xs : List α} {a : α} : a ∈ sorted xs ↔ a ∈ xs :=
  List.mem_insertionSort _

theorem sorted_nodup {xs : List α} (h : xs.Nodup) : (sorted xs).Nodup :=
  (List.perm_insertionSort _ xs).nodup_iff.mpr h

theorem sorted_perm_eq {xs ys : List α} (h : xs.Perm ys) : sorted xs = sorted ys := by
  refine List.Perm.eq_of_pairwise (fun a b _ _ (h : a ≤ b) => le_antisymm h) ?_ ?_ ?_
  · exact List.pairwise_insertionSort _ xs
  · exact List.pairwise_insertionSort _ ys
  · exact ((List.perm_insertionSort _ xs).trans h).trans (List.perm_insertionSort _ ys).symm

theorem sorted_eq_iff {xs ys : List α} : sorted xs = sorted ys ↔ xs.Perm ys := by
  constructor
  · intro h
    have hxs := List.perm_insertionSort (· ≤ ·) xs
    rw [← sorted, h] at hxs
    exact hxs.symm.trans (List.perm_insertionSort _ ys)
  · exact sorted_perm_eq

/-- `sorted(s)` for a set. -/
def sortedSet (s : Finset α) : List α :=
  Quot.liftOn s.val sorted fun _ _ h => sorted_perm_eq h

@[simp] theorem mem_sortedSet {s : Finset α} {a : α} : a ∈ sortedSet s ↔ a ∈ s := by
  obtain ⟨⟨xs⟩, hs⟩ := s
  exact mem_sorted

theorem sortedSet_nodup (s : Finset α) : (sortedSet s).Nodup := by
  obtain ⟨⟨xs⟩, hs⟩ := s
  exact sorted_nodup hs

theorem sortedSet_pairwise (s : Finset α) : (sortedSet s).Pairwise (· ≤ ·) := by
  obtain ⟨⟨xs⟩, hs⟩ := s
  exact List.pairwise_insertionSort _ xs

/-- `sorted(s)[0]` is the least element. -/
theorem head?_sortedSet {s : Finset α} {a : α} :
    (sortedSet s).head? = some a ↔ IsLeast (s : Set α) a := by
  have hp := sortedSet_pairwise s
  have hmem : ∀ b, b ∈ sortedSet s ↔ b ∈ s := fun b => mem_sortedSet
  cases hl : sortedSet s with
  | nil =>
      rw [hl] at hmem
      simp only [List.head?_nil, reduceCtorEq, false_iff]
      exact fun h => List.not_mem_nil ((hmem a).mpr h.1)
  | cons b l =>
      rw [hl] at hp hmem
      rw [List.head?_cons, Option.some.injEq]
      have hleast : IsLeast (s : Set α) b := by
        refine ⟨(hmem b).mp List.mem_cons_self, fun c hc => ?_⟩
        rcases List.mem_cons.mp ((hmem c).mpr hc) with rfl | hc
        · exact le_rfl
        · exact (List.pairwise_cons.mp hp).1 c hc
      exact ⟨fun h => h ▸ hleast, fun h => hleast.unique h⟩

/-- `ORDER BY` a key. -/
def sortBy {β : Type} (key : β → α) (xs : List β) : List β :=
  xs.insertionSort fun a b => key a ≤ key b

theorem sortBy_perm {β : Type} (key : β → α) (xs : List β) : (sortBy key xs).Perm xs :=
  List.perm_insertionSort _ xs

theorem sortBy_pairwise {β : Type} (key : β → α) (xs : List β) :
    (sortBy key xs).Pairwise fun a b => key a ≤ key b := by
  have : Std.Total fun a b => key a ≤ key b := ⟨fun a b => le_total (key a) (key b)⟩
  have : IsTrans β fun a b => key a ≤ key b := ⟨fun _ _ _ => le_trans⟩
  exact List.pairwise_insertionSort _ xs

/-- Two arrangements of the same rows by one key agree on whatever the key determines. -/
theorem map_eq_of_sorted {β γ : Type} {key : β → α} (g : β → γ) {xs ys : List β} (h : xs.Perm ys)
    (hx : xs.Pairwise fun a b => key a ≤ key b) (hy : ys.Pairwise fun a b => key a ≤ key b)
    (hg : ∀ a ∈ xs, ∀ b ∈ xs, key a = key b → g a = g b) : xs.map g = ys.map g := by
  have hkeys : xs.map key = ys.map key := by
    refine List.Perm.eq_of_pairwise (fun a b _ _ (h : a ≤ b) => le_antisymm h) ?_ ?_ (h.map key)
    · exact List.pairwise_map.mpr hx
    · exact List.pairwise_map.mpr hy
  refine List.ext_getElem (by simpa using h.length_eq) fun i hi hi' => ?_
  rw [List.getElem_map, List.getElem_map]
  refine hg _ (List.getElem_mem _) _ (h.mem_iff.mpr (List.getElem_mem _)) ?_
  have hi₁ := List.getElem_of_eq hkeys (by simpa using hi)
  rwa [List.getElem_map, List.getElem_map] at hi₁

end Sorted

/-! ## Folds that touch one key at a time -/

section LocalFold

variable {σ ι κ ν : Type} [DecidableEq κ]

/-- Processing `i` changes the view of the state only at the key of `i`, by `g i`. -/
def Local (view : σ → κ → ν) (step : σ → ι → σ) (key : ι → Option κ) (g : ι → ν → ν) : Prop :=
  ∀ s i k, view (step s i) k = if key i = some k then g i (view s k) else view s k

/-- **A loop, seen at one key**, is the loop over the items of that key. -/
theorem view_foldl {view : σ → κ → ν} {step : σ → ι → σ} {key : ι → Option κ} {g : ι → ν → ν}
    (h : Local view step key g) (k : κ) (l : List ι) (s : σ) :
    view (l.foldl step s) k
      = (l.filter (fun i => key i = some k)).foldl (fun v i => g i v) (view s k) := by
  induction l generalizing s with
  | nil => rfl
  | cons i l ih =>
      rw [List.foldl_cons, ih, h]
      by_cases hi : key i = some k
      · simp [hi]
      · simp [hi]

/-- A fold is any function that satisfies its equations on `[]` and on appending. -/
theorem foldl_eq_of_append {f : List ι → ν} {g : ν → ι → ν}
    (happ : ∀ l i, f (l ++ [i]) = g (f l) i) (l : List ι) : l.foldl g (f []) = f l := by
  induction l using List.reverseRecOn with
  | nil => rfl
  | append_singleton l i ih => rw [List.foldl_append, ih, happ]; rfl

/-- A loop over distinct keys applies each key's change once. -/
theorem view_foldl_nodup {view : σ → κ → ν} {step : σ → κ → σ} {g : κ → ν → ν}
    (h : Local view step some g) {l : List κ} (hl : l.Nodup) (k : κ) (s : σ) :
    view (l.foldl step s) k = if k ∈ l then g k (view s k) else view s k := by
  have hfilter : l.filter (fun i => (some i : Option κ) = some k) = if k ∈ l then [k] else [] := by
    simp only [Option.some.injEq]
    rw [List.filter_eq, List.Nodup.count hl]
    split_ifs <;> simp
  rw [view_foldl h, hfilter]
  split_ifs <;> rfl

/-- In a list with distinct keys, one item has the key of `i`. -/
theorem filter_key_eq_singleton {key : ι → κ} {l : List ι} (hl : (l.map key).Nodup) {i : ι}
    (hi : i ∈ l) : l.filter (fun j => key j = key i) = [i] := by
  induction l with
  | nil => cases hi
  | cons j l ih =>
      rw [List.map_cons, List.nodup_cons] at hl
      rcases List.mem_cons.mp hi with rfl | hi
      · have hrest : l.filter (fun j => key j = key i) = [] :=
          List.filter_eq_nil_iff.mpr fun j hj h =>
            hl.1 (of_decide_eq_true h ▸ List.mem_map_of_mem hj)
        simp only [List.filter_cons, decide_true, if_true, hrest]
      · have hne : key j ≠ key i := fun h => hl.1 (h ▸ List.mem_map_of_mem hi)
        rw [List.filter_cons_of_neg (by simpa using hne), ih hl.2 hi]

end LocalFold
