import AlderpointDNS.Lib.Dict
import AlderpointDNS.Lib.FileTree

/-!
# Disks, and archives of parts of them

A disk gives what stands at each of finitely many paths, and the parent of everything on it is a
directory.  An archive is the list of what stood at and below some roots; extracting it puts the
members back one after the other, and stops at the first that cannot be put where it belongs, since
a file stands where a directory has to be or a directory where a file has to be.

* **`entry_extract`** — extraction brings back what stood at the paths that it reaches and leaves
  everything else.
* **`restored_extract_iff`** — so it restores the roots exactly if it reaches every path at which
  they have changed.
-/

/-- What stands at each path. -/
structure Disk (ν γ : Type) [DecidableEq ν] where
  entries : Dict (List ν) (Entry γ)
  parents : ∀ q x, (entries.lookup (q ++ [x])).isSome → entries.lookup q = some .dir

namespace Disk

variable {ν γ : Type} [DecidableEq ν]

def entry (d : Disk ν γ) (q : List ν) : Option (Entry γ) := d.entries.lookup q

/-- The empty disk. -/
def empty : Disk ν γ := ⟨∅, fun _ _ h => by simp at h⟩

/-- What is above something is a directory. -/
theorem entry_of_prefix (d : Disk ν γ) {p q : List ν} (hp : p <+: q) (hne : p ≠ q) {e : Entry γ}
    (hq : d.entry q = some e) : d.entry p = some .dir := by
  obtain ⟨r, rfl⟩ := hp
  induction r using List.reverseRecOn generalizing e with
  | nil => exact absurd (List.append_nil p).symm hne
  | append_singleton r x ih =>
      have hdir : d.entry (p ++ r) = some .dir := by
        refine d.parents (p ++ r) x ?_
        rw [List.append_assoc]
        exact Option.isSome_iff_exists.mpr ⟨e, hq⟩
      by_cases hr : r = []
      · rwa [hr, List.append_nil] at hdir
      · exact ih (by simpa using hr) hdir

/-! ## Putting an entry on a disk -/

/-- `e` can be put at `q`: the parent is a directory, and no entry of the other kind is there. -/
def CanPut (d : Disk ν γ) (q : List ν) (e : Entry γ) : Prop :=
  (q ≠ [] → d.entry q.dropLast = some .dir) ∧ ∀ e' ∈ d.entry q, (e' = .dir ↔ e = .dir)

instance [DecidableEq γ] (d : Disk ν γ) (q : List ν) (e : Entry γ) : Decidable (d.CanPut q e) :=
  inferInstanceAs (Decidable (_ ∧ _))

variable [DecidableEq γ]

/-- `mkdir` or a write; `none` is an `OSError`. -/
def put (d : Disk ν γ) (q : List ν) (e : Entry γ) : Option (Disk ν γ) :=
  if h : d.CanPut q e then
    some {
      entries := d.entries.insert q e
      parents := by
        intro p x hx
        rw [Dict.lookup_insert'] at hx ⊢
        by_cases hq : q = p ++ [x]
        · have hparent : d.entry p = some .dir := by
            have := h.1 (by simp [hq])
            rwa [hq, List.dropLast_concat] at this
          have hne : q ≠ p := fun hqp => by simp [hqp] at hq
          rwa [if_neg hne]
        · rw [if_neg hq] at hx
          have hparent := d.parents p x hx
          by_cases hp : q = p
          · rw [if_pos hp, (h.2 .dir (by rw [hp]; exact hparent)).mp rfl]
          · rwa [if_neg hp] }
  else none

theorem entry_put {d d' : Disk ν γ} {q : List ν} {e : Entry γ} (h : d.put q e = some d')
    (p : List ν) : d'.entry p = if p = q then some e else d.entry p := by
  rw [put] at h
  split at h
  · rw [← Option.some.inj h]
    show (d.entries.insert q e).lookup p = _
    rw [Dict.lookup_insert']
    simp only [eq_comm, entry]
  · exact nomatch h

/-- `makedirs(q, exist_ok=True)`. -/
def makeDirs (d : Disk ν γ) (q : List ν) : Option (Disk ν γ) :=
  q.inits.foldlM (fun d p => d.put p .dir) d

/-- The missing parents are made, and then the entry. -/
def place (d : Disk ν γ) (q : List ν) (e : Entry γ) : Option (Disk ν γ) :=
  (d.makeDirs q.dropLast).bind (·.put q e)

theorem entry_foldlM_put {ps : List (List ν)} {d d' : Disk ν γ}
    (h : ps.foldlM (fun d p => d.put p .dir) d = some d') (p : List ν) :
    d'.entry p = if p ∈ ps then some .dir else d.entry p := by
  induction ps generalizing d with
  | nil =>
      rw [← Option.some.inj h, if_neg List.not_mem_nil]
  | cons q ps ih =>
      rw [List.foldlM_cons, Option.bind_eq_bind, Option.bind_eq_some_iff] at h
      obtain ⟨d₁, hput, h⟩ := h
      rw [ih h, entry_put hput]
      by_cases hp : p = q <;> by_cases hps : p ∈ ps <;> simp [hp, hps]

theorem entry_place {d d' : Disk ν γ} {q : List ν} {e : Entry γ} (h : d.place q e = some d')
    (p : List ν) : d'.entry p =
      if p = q then some e else if p <+: q.dropLast then some .dir else d.entry p := by
  rw [place, Option.bind_eq_some_iff] at h
  obtain ⟨d₁, hdirs, hput⟩ := h
  rw [entry_put hput, entry_foldlM_put hdirs]
  simp only [List.mem_inits]

end Disk

/-! ## Archives -/

/-- The members of a tar file, in its order. -/
abbrev Archive (ν γ : Type) := List (List ν × Entry γ)

namespace Archive

/-- A path is reached when it or something below it is extracted. -/
def Reaches {ν : Type} (paths : List (List ν)) (p : List ν) : Prop := ∃ q ∈ paths, p <+: q

theorem reaches_cons {ν : Type} {q : List ν} {paths : List (List ν)} {p : List ν} :
    Reaches (q :: paths) p ↔ p <+: q ∨ Reaches paths p := by
  simp only [Reaches, List.mem_cons, exists_eq_or_imp]

variable {ν γ : Type} [DecidableEq ν] [DecidableEq γ]

/-- The paths that are reached, and what is on the disk then.  No more than `limit` members are
extracted before something else goes wrong. -/
def extract : Option ℕ → Archive ν γ → Disk ν γ → List (List ν) × Disk ν γ
  | some 0, _, d => ([], d)
  | _, [], d => ([], d)
  | limit, (q, e) :: ms, d =>
      match d.place q e with
      | none => ([], d)
      | some d' =>
          let rest := extract (limit.map (· - 1)) ms d'
          (q :: rest.1, rest.2)

/-- What stood on the disk that the archive was made of. -/
def Of (saved : Disk ν γ) (ms : Archive ν γ) : Prop := ∀ m ∈ ms, saved.entry m.1 = some m.2

instance (paths : List (List ν)) (p : List ν) : Decidable (Reaches paths p) :=
  inferInstanceAs (Decidable (∃ q ∈ paths, p <+: q))

/-- One member puts back what stood at its path and above it. -/
theorem entry_place_of {saved d d' : Disk ν γ} {q : List ν} {e : Entry γ}
    (hq : saved.entry q = some e) (h : d.place q e = some d') (p : List ν) :
    d'.entry p = if p <+: q then saved.entry p else d.entry p := by
  rw [Disk.entry_place h]
  by_cases heq : p = q
  · rw [if_pos heq, heq, if_pos List.prefix_rfl, hq]
  · rw [if_neg heq]
    by_cases hp : p <+: q
    · have hparents : p <+: q.dropLast := by
        rcases List.eq_nil_or_concat' q with rfl | ⟨q', x, rfl⟩
        · exact absurd (List.prefix_nil.mp hp) heq
        · rw [List.dropLast_concat]
          exact (List.prefix_concat_iff.mp hp).resolve_left heq
      rw [if_pos hparents, if_pos hp, saved.entry_of_prefix hp heq hq]
    · rw [if_neg fun hdrop => hp (hdrop.trans q.dropLast_prefix), if_neg hp]

/-- **What extraction brings back.** -/
theorem entry_extract {saved : Disk ν γ} {ms : Archive ν γ} (hms : Of saved ms) (limit : Option ℕ)
    (d : Disk ν γ) (p : List ν) : (extract limit ms d).2.entry p = if
      Reaches (extract limit ms d).1 p then saved.entry p else d.entry p := by
  have hnone : ¬ Reaches ([] : List (List ν)) p := fun ⟨_, hq, _⟩ => nomatch hq
  induction ms generalizing limit d with
  | nil =>
      have hnil : extract limit ([] : Archive ν γ) d = ([], d) := by
        rcases limit with _ | _ | n <;> rfl
      rw [hnil, if_neg hnone]
  | cons m ms ih =>
      have hrest : Of saved ms := fun m' hm' => hms m' (List.mem_cons_of_mem m hm')
      obtain ⟨q, e⟩ := m
      by_cases hlimit : limit = some 0
      · have hstop : extract limit ((q, e) :: ms) d = ([], d) := by rw [hlimit]; rfl
        rw [hstop, if_neg hnone]
      · cases hplace : d.place q e with
        | none =>
            have hstop : extract limit ((q, e) :: ms) d = ([], d) := by
              rcases limit with _ | _ | n <;> simp_all [extract]
            rw [hstop, if_neg hnone]
        | some d' =>
            have hgoes : extract limit ((q, e) :: ms) d
                = (q :: (extract (limit.map (· - 1)) ms d').1,
                  (extract (limit.map (· - 1)) ms d').2) := by
              rcases limit with _ | _ | n <;> simp_all [extract]
            rw [hgoes]
            simp only [reaches_cons]
            rw [ih hrest, entry_place_of (hms (q, e) List.mem_cons_self) hplace]
            by_cases hq : p <+: q <;>
              by_cases hr : Reaches (extract (limit.map (· - 1)) ms d').1 p <;> simp [hq, hr]

/-- What stands at and below the roots is what stood there. -/
def Restored (roots : List (List ν)) (saved d : Disk ν γ) : Prop :=
  ∀ p ∈ roots, ∀ q, p <+: q → d.entry q = saved.entry q

/-- **When the roots are restored.** -/
theorem restored_extract_iff {roots : List (List ν)} {saved : Disk ν γ} {ms : Archive ν γ}
    (hms : Of saved ms) (limit : Option ℕ) (d : Disk ν γ) :
    Restored roots saved (extract limit ms d).2 ↔ ∀ p ∈ roots, ∀ q, p <+: q →
      d.entry q ≠ saved.entry q → Reaches (extract limit ms d).1 q := by
  refine forall₄_congr fun p _ q _ => ?_
  rw [entry_extract hms]
  by_cases hq : Reaches (extract limit ms d).1 q
  · simp [hq]
  · rw [if_neg hq]
    exact ⟨fun h hne => absurd h hne, fun h => not_not.mp fun hne => hq (h hne)⟩

end Archive
