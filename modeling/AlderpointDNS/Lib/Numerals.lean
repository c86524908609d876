import Mathlib.Algebra.Order.Ring.Nat
import Mathlib.Data.List.Basic
import Mathlib.Data.List.Induction
import Mathlib.Tactic.Ring

/-!
# Positional numerals of a fixed width

`digits b k n` are the last `k` digits of `n` in base `b`, the most significant first, and
`value b init ds` reads digits after a number that has been read already.

* **`value_digits`** — reading the printed digits gives the number back, modulo `b ^ k`.
* `digits_inj` — below `b ^ k` the digits determine the number.
* `digits_value`, `value_inj` — and the digits are those of the number that they are read as.
-/

namespace Numerals

/-- The last `k` digits of `n`. -/
def digits (b k n : ℕ) : List ℕ := (List.range k).map fun i => n / b ^ (k - 1 - i) % b

/-- `for d in ds: n = n * b + d`. -/
def value (b init : ℕ) (ds : List ℕ) : ℕ := ds.foldl (fun n d => n * b + d) init

@[simp] theorem length_digits (b k n : ℕ) : (digits b k n).length = k := by simp [digits]

@[simp] theorem value_nil (b init : ℕ) : value b init [] = init := rfl

theorem value_append (b init : ℕ) (ds es : List ℕ) :
    value b init (ds ++ es) = value b (value b init ds) es :=
  List.foldl_append

theorem value_replicate_zero (b init k : ℕ) :
    value b init (List.replicate k 0) = init * b ^ k := by
  induction k with
  | zero => simp
  | succ k ih =>
      rw [List.replicate_succ', value_append, ih, pow_succ, ← Nat.mul_assoc]
      simp [value]

/-- The last digit is split off. -/
theorem digits_succ (b k n : ℕ) : digits b (k + 1) n = digits b k (n / b) ++ [n % b] := by
  simp only [digits, List.range_succ, List.map_append, List.map_cons, List.map_nil,
    Nat.add_sub_cancel, Nat.sub_self, pow_zero, Nat.div_one]
  congr 1
  refine List.map_congr_left fun i hi => ?_
  have hik : i < k := List.mem_range.mp hi
  have hexp : k - i = k - 1 - i + 1 := by omega
  rw [hexp, Nat.pow_succ', Nat.div_div_eq_div_mul]

theorem lt_of_mem_digits {b k n d : ℕ} (hb : 0 < b) (h : d ∈ digits b k n) : d < b := by
  obtain ⟨i, -, rfl⟩ := List.mem_map.mp h
  exact Nat.mod_lt _ hb

/-- **Reading the printed digits gives the number back.** -/
theorem value_digits (b k init n : ℕ) :
    value b init (digits b k n) = init * b ^ k + n % b ^ k := by
  induction k generalizing n with
  | zero => simp [digits, Nat.mod_one]
  | succ k ih =>
      rw [digits_succ, value_append, ih]
      have hmod : n % b ^ (k + 1) = n % b + b * (n / b % b ^ k) := by
        rw [Nat.pow_succ', Nat.mod_mul]
      simp only [value, List.foldl_cons, List.foldl_nil]
      rw [hmod]
      ring

theorem digits_inj {b k n m : ℕ} (hn : n < b ^ k) (hm : m < b ^ k)
    (h : digits b k n = digits b k m) : n = m := by
  have hvalue := congrArg (value b 0) h
  rwa [value_digits, value_digits, Nat.zero_mul, Nat.zero_add, Nat.zero_add,
    Nat.mod_eq_of_lt hn, Nat.mod_eq_of_lt hm] at hvalue

theorem value_lt {b : ℕ} {ds : List ℕ} (hds : ∀ d ∈ ds, d < b) :
    value b 0 ds < b ^ ds.length := by
  induction ds using List.reverseRecOn with
  | nil => simp
  | append_singleton ds d ih =>
      have hlt := ih fun e he => hds e (List.mem_append_left _ he)
      have hd := hds d (by simp)
      rw [value_append, List.length_append, List.length_singleton, Nat.pow_succ]
      calc value b (value b 0 ds) [d] = value b 0 ds * b + d := rfl
        _ < value b 0 ds * b + b := by omega
        _ = (value b 0 ds + 1) * b := by ring
        _ ≤ b ^ ds.length * b := Nat.mul_le_mul_right b hlt

theorem digits_value {b : ℕ} {ds : List ℕ} (hds : ∀ d ∈ ds, d < b) :
    digits b ds.length (value b 0 ds) = ds := by
  induction ds using List.reverseRecOn with
  | nil => rfl
  | append_singleton ds d ih =>
      have hd : d < b := hds d (by simp)
      have hstep : value b 0 (ds ++ [d]) = d + b * value b 0 ds := by
        rw [value_append, Nat.mul_comm, Nat.add_comm]
        rfl
      rw [List.length_append, List.length_singleton, digits_succ, hstep,
        Nat.add_mul_div_left _ _ (by omega), Nat.div_eq_of_lt hd, Nat.zero_add,
        Nat.add_mul_mod_self_left, Nat.mod_eq_of_lt hd,
        ih fun e he => hds e (List.mem_append_left _ he)]

theorem value_inj {b : ℕ} {ds es : List ℕ} (hds : ∀ d ∈ ds, d < b) (hes : ∀ e ∈ es, e < b)
    (hlen : ds.length = es.length) (h : value b 0 ds = value b 0 es) : ds = es := by
  rw [← digits_value hds, ← digits_value hes, hlen, h]

end Numerals
