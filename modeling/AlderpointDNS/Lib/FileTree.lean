import Mathlib.Data.List.Infix
import Mathlib.Tactic.Common

/-!
# File trees

A file tree gives each path, a list of names from the root, what stands there; below a missing path
everything is missing.  `graft` puts a tree in the place of another, and everything that removes,
copies or moves a file or a directory with what is in it is a graft.

A graft at `p` is read off in two ways: below `p` it is the new tree (`graft_append`), and below a
path that is `Apart` from `p`, with neither of the two below the other, it is the old one
(`subtree_graft_of_apart`).
-/

inductive Entry (γ : Type) where
  | dir
  | file (content : γ)
  deriving DecidableEq

/-- What stands at each path. -/
@[ext] structure FileTree (ν γ : Type) where
  entry : List ν → Option (Entry γ)
  closed : ∀ q r, entry q = none → entry (q ++ r) = none

namespace FileTree

variable {ν γ : Type}

/-- Neither of two paths is below the other. -/
def Apart (p q : List ν) : Prop := ¬ p <+: q ∧ ¬ q <+: p

theorem Apart.symm {p q : List ν} (h : Apart p q) : Apart q p := ⟨h.2, h.1⟩

theorem Apart.append {p q : List ν} (h : Apart p q) (r : List ν) : Apart p (q ++ r) := by
  refine ⟨fun hpr => ?_, fun hrp => h.2 ((List.prefix_append q r).trans hrp)⟩
  exact (List.prefix_or_prefix_of_prefix hpr (List.prefix_append q r)).elim h.1 h.2

/-- The empty tree, also what stands below a missing path. -/
def empty : FileTree ν γ where
  entry _ := none
  closed _ _ _ := rfl

/-- A tree of one file. -/
def ofFile (content : γ) : FileTree ν γ where
  entry
    | [] => some (.file content)
    | _ :: _ => none
  closed q r h := by
    cases q with
    | nil => exact absurd h (by simp)
    | cons _ _ => rfl

/-- A tree of one empty directory. -/
def ofDir : FileTree ν γ where
  entry
    | [] => some .dir
    | _ :: _ => none
  closed q r h := by
    cases q with
    | nil => exact absurd h (by simp)
    | cons _ _ => rfl

theorem entry_ofFile_of_ne_nil {content : γ} {q : List ν} (h : q ≠ []) :
    (ofFile content).entry q = none := by
  cases q with
  | nil => exact absurd rfl h
  | cons _ _ => rfl

theorem entry_ofDir_of_ne_nil {q : List ν} (h : q ≠ []) :
    (ofDir : FileTree ν γ).entry q = none := by
  cases q with
  | nil => exact absurd rfl h
  | cons _ _ => rfl

/-- What stands below `p`. -/
def subtree (t : FileTree ν γ) (p : List ν) : FileTree ν γ where
  entry q := t.entry (p ++ q)
  closed q r h := by
    rw [← List.append_assoc]
    exact t.closed _ _ h

variable [DecidableEq ν]

instance (p q : List ν) : Decidable (Apart p q) := inferInstanceAs (Decidable (_ ∧ _))

/-- `t` with `new` in the place of what stands below `p`, and with the missing parents of it. -/
def graft (t : FileTree ν γ) (p : List ν) (new : FileTree ν γ) : FileTree ν γ where
  entry q :=
    if p <+: q then new.entry (q.drop p.length)
    else if q <+: p ∧ t.entry q = none ∧ new.entry [] ≠ none then some .dir
    else t.entry q
  closed q r h := by
    by_cases hq : p <+: q
    · rw [if_pos hq] at h
      rw [if_pos (hq.trans (List.prefix_append q r)), List.drop_append_of_le_length hq.length_le]
      exact new.closed _ _ h
    · rw [if_neg hq] at h
      split_ifs at h with hparent
      by_cases hr : p <+: q ++ r
      · have hqp : q <+: p :=
          (List.prefix_or_prefix_of_prefix hr (List.prefix_append q r)).resolve_left hq
        have hnew : new.entry [] = none := by
          by_contra hne
          exact hparent ⟨hqp, h, hne⟩
        rw [if_pos hr]
        exact new.closed [] _ hnew
      · rw [if_neg hr, if_neg fun hqr => hparent
          ⟨(List.prefix_append q r).trans hqr.1, h, hqr.2.2⟩]
        exact t.closed _ _ h

/-- `p` and what stands below it, removed. -/
def remove (t : FileTree ν γ) (p : List ν) : FileTree ν γ := t.graft p empty

/-- `p` with what stands below it, moved to `p'`. -/
def rename (t : FileTree ν γ) (p p' : List ν) : FileTree ν γ :=
  (t.remove p).graft p' (t.subtree p)

/-- The missing proper parents of `p`, those of at most `n` names, as directories. -/
def makeParents (t : FileTree ν γ) (n : ℕ) (p : List ν) : FileTree ν γ where
  entry q := if q <+: p ∧ q ≠ p ∧ t.entry q = none ∧ q.length ≤ n then some .dir else t.entry q
  closed q r h := by
    split_ifs at h with hparent
    rw [if_neg]
    · exact t.closed q r h
    · rintro ⟨hqr, hne, -, hlen⟩
      have hbelow : q <+: q ++ r := List.prefix_append q r
      refine hparent ⟨hbelow.trans hqr, ?_, h, hbelow.length_le.trans hlen⟩
      rintro rfl
      exact hne (hqr.eq_of_length_le hbelow.length_le)

variable {t new : FileTree ν γ} {p q r : List ν}

omit [DecidableEq ν] in
theorem subtree_append : t.subtree (p ++ q) = (t.subtree p).subtree q := by
  ext r : 2
  simp [subtree]

omit [DecidableEq ν] in
theorem subtree_eq_empty (h : t.entry p = none) : t.subtree p = empty := by
  ext r : 2
  exact t.closed p r h

omit [DecidableEq ν] in
theorem entry_eq_of_subtree {t' : FileTree ν γ} (h : t.subtree p = t'.subtree p) :
    t.entry p = t'.entry p := by
  have hroot := congrArg (fun s => s.entry []) h
  simpa [subtree] using hroot

@[simp] theorem subtree_graft_self : (t.graft p new).subtree p = new := by
  ext r : 2
  simp [subtree, graft]

theorem graft_of_apart (h : Apart p q) : (t.graft p new).entry q = t.entry q := by
  rw [graft]
  simp [h.1, h.2]

theorem graft_append : (t.graft p new).entry (p ++ r) = new.entry r := by
  rw [graft]
  simp

theorem graft_self : (t.graft p new).entry p = new.entry [] := by
  have h : (t.graft p new).entry (p ++ []) = new.entry [] := graft_append
  rwa [List.append_nil] at h

/-- A directory that has to be made is above the place of a graft. -/
theorem graft_cases (t new : FileTree ν γ) (h : ¬ p <+: q) : (t.graft p new).entry q = t.entry q ∨
    q <+: p ∧ t.entry q = none ∧ (t.graft p new).entry q = some .dir := by
  by_cases hparent : q <+: p ∧ t.entry q = none ∧ new.entry [] ≠ none
  · refine Or.inr ⟨hparent.1, hparent.2.1, ?_⟩
    rw [graft]
    exact (if_neg h).trans (if_pos hparent)
  · refine Or.inl ?_
    rw [graft]
    exact (if_neg h).trans (if_neg hparent)

theorem subtree_graft_of_apart (h : Apart p q) : (t.graft p new).subtree q = t.subtree q := by
  ext r : 2
  exact graft_of_apart (h.append r)

/-- A graft of what is there already. -/
theorem graft_subtree (h : t.entry p ≠ none) : t.graft p (t.subtree p) = t := by
  ext q : 2
  rw [graft]
  by_cases hq : p <+: q
  · obtain ⟨r, rfl⟩ := hq
    simp [subtree]
  · have hparent : ¬ (q <+: p ∧ t.entry q = none ∧ (t.subtree p).entry [] ≠ none) := by
      rintro ⟨⟨r, rfl⟩, hnone, -⟩
      exact h (t.closed q r hnone)
    simp only [if_neg hq, if_neg hparent]

@[simp] theorem subtree_remove_self : (t.remove p).subtree p = empty := subtree_graft_self

theorem subtree_remove_of_apart (h : Apart p q) : (t.remove p).subtree q = t.subtree q :=
  subtree_graft_of_apart h

@[simp] theorem subtree_rename_self : (t.rename p q).subtree q = t.subtree p := subtree_graft_self

theorem subtree_rename_of_apart (hp : Apart p r) (hq : Apart q r) :
    (t.rename p q).subtree r = t.subtree r := by
  rw [rename, subtree_graft_of_apart hq, subtree_remove_of_apart hp]

/-- Making parents of `p` changes proper parents of `p` only. -/
theorem subtree_makeParents {n : ℕ} (h : q <+: p → q = p) :
    (t.makeParents n p).subtree q = t.subtree q := by
  ext r : 2
  refine if_neg fun hr => hr.2.1 ?_
  obtain rfl := h ((List.prefix_append q r).trans hr.1)
  exact hr.1.eq_of_length_le (List.prefix_append q r).length_le

end FileTree
