import AlderpointDNS.Lib.Text

/-!
# Text files

Files with a text and a mode, each at a path.  They are written as text: a file that is there
keeps its mode, and a new one gets what the umask leaves.  Reading a file as text turns each kind
of line end into a line feed, which `universalNewlines_eq_self` says when that loses nothing.

* `restore` — writes the texts of a snapshot back, and removes a staged file that it does not have;
* **`restore_eq_iff`** — when this gives the files back that the snapshot was taken of.
-/

namespace TextFiles

open Text

@[ext] structure TextFile where
  text : Str
  mode : ℕ
  deriving DecidableEq

/-- What stands at each path. -/
abbrev Files (π : Type) := π → Option TextFile

/-! ## Line ends -/

/-- What reading as text makes of the line ends. -/
def universalNewlines : Str → Str
  | [] => []
  | '\r' :: '\n' :: cs => '\n' :: universalNewlines cs
  | c :: cs => (if c = '\r' then '\n' else c) :: universalNewlines cs

theorem cr_notMem_universalNewlines (s : Str) : '\r' ∉ universalNewlines s := by
  fun_induction universalNewlines s with
  | case1 => exact List.not_mem_nil
  | case2 cs ih => simpa using ih
  | case3 c cs _ ih =>
      split_ifs with hc
      · simpa using ih
      · simpa [eq_comm, hc] using ih

/-- **Nothing is lost just when there is no carriage return.** -/
theorem universalNewlines_eq_self {s : Str} : universalNewlines s = s ↔ '\r' ∉ s := by
  constructor
  · intro h
    rw [← h]
    exact cr_notMem_universalNewlines s
  · intro h
    fun_induction universalNewlines s with
    | case1 => rfl
    | case2 cs ih => simp at h
    | case3 c cs _ ih =>
        rw [List.mem_cons, not_or] at h
        rw [if_neg (Ne.symm h.1), ih h.2]

/-! ## Reading -/

variable {π : Type}

/-- `path.read_text()`. -/
def readText (files : Files π) (p : π) : Option Str :=
  (files p).map fun file => universalNewlines file.text

/-- The texts of the files that `taken` selects. -/
def snapshot (taken : π → Bool) (files : Files π) (p : π) : Option Str :=
  if taken p then readText files p else none

theorem snapshot_none {taken : π → Bool} (h : ∀ p, taken p = false) (files : Files π) :
    snapshot taken files = fun _ => none := by
  funext p
  rw [snapshot, h p, if_neg Bool.false_ne_true]

/-! ## Writing -/

/-- The mode that writing leaves; `created` is that of a new file. -/
def modeAfter (created : ℕ) (file : Option TextFile) : ℕ := file.elim created (·.mode)

variable [DecidableEq π]

/-- `path.write_text(text)`. -/
def writeText (created : ℕ) (p : π) (text : Str) (files : Files π) : Files π :=
  Function.update files p (some ⟨text, modeAfter created (files p)⟩)

/-- `path.open("a").write(text)`. -/
def appendText (created : ℕ) (p : π) (text : Str) (files : Files π) : Files π :=
  Function.update files p
    (some ⟨(files p).elim text (·.text ++ text), modeAfter created (files p)⟩)

/-- `os.chmod(path, mode)`. -/
def chmod (p : π) (mode : ℕ) (files : Files π) : Files π :=
  Function.update files p ((files p).map fun file => { file with mode := mode })

/-- `path.unlink(missing_ok=True)`. -/
def unlink (p : π) (files : Files π) : Files π := Function.update files p none

/-- A file that is written as it was. -/
theorem writeText_eq_self_iff {created : ℕ} {p : π} {text : Str} {files : Files π} :
    writeText created p text files = files ↔ ∃ file, files p = some file ∧ file.text = text := by
  rw [writeText, Function.update_eq_self_iff]
  cases files p with
  | none => simp
  | some file =>
      rw [Option.some.injEq, TextFile.ext_iff]
      simp [modeAfter, eq_comm]

theorem chmod_eq_self_iff {p : π} {mode : ℕ} {files : Files π} :
    chmod p mode files = files ↔ ∀ file, files p = some file → file.mode = mode := by
  rw [chmod, Function.update_eq_self_iff]
  cases files p with
  | none => simp
  | some file =>
      rw [Option.map_some, Option.some.injEq, TextFile.ext_iff]
      simp [eq_comm]

theorem appendText_eq_self_iff {created : ℕ} {p : π} {text : Str} {files : Files π} :
    appendText created p text files = files ↔ ∃ file, files p = some file ∧ text = [] := by
  rw [appendText, Function.update_eq_self_iff]
  cases files p with
  | none => simp
  | some file =>
      rw [Option.some.injEq, TextFile.ext_iff]
      simp [modeAfter]

/-! ## Restoring -/

/-- Every text of a snapshot is written to its path. -/
def rewrite (created : ℕ) (texts : π → Option Str) (files : Files π) : Files π := fun p =>
  match texts p with
  | none => files p
  | some text => writeText created p text files p

/-- The texts are written back, and the file at `staged` goes if it is not among them. -/
def restore (created : ℕ) (texts : π → Option Str) (staged : π) (files : Files π) : Files π :=
  if texts staged = none then unlink staged (rewrite created texts files)
  else rewrite created texts files

section Restore

variable {created mode : ℕ} {taken : π → Bool} {staged : π} {files files' : Files π}

theorem restore_apply (texts : π → Option Str) (p : π) :
    restore created texts staged files' p =
      match texts p with
      | none => if p = staged then none else files' p
      | some text => some ⟨text, modeAfter created (files' p)⟩ := by
  unfold restore
  cases htext : texts p with
  | none =>
      by_cases hp : p = staged
      · subst hp
        rw [if_pos htext, unlink, Function.update_self, if_pos rfl]
      · split_ifs with hstaged
        · rw [unlink, Function.update_of_ne hp, rewrite, htext]
        · rw [rewrite, htext]
  | some text =>
      have hwritten : rewrite created texts files' p = some ⟨text, modeAfter created (files' p)⟩ := by
        rw [rewrite, htext]
        exact Function.update_self ..
      by_cases hstaged : texts staged = none
      · have hp : p ≠ staged := by
          rintro rfl
          rw [hstaged] at htext
          cases htext
        rw [if_pos hstaged, unlink, Function.update_of_ne hp, hwritten]
      · rw [if_neg hstaged, hwritten]

/-- What a change of the taken files leaves: the staged file has a mode of its own, and of the
others at most the text is new. -/
structure Stages (taken : π → Bool) (staged : π) (mode : ℕ) (files files' : Files π) : Prop where
  taken_staged : taken staged = true
  others : ∀ p, taken p = false → files' p = files p
  modes : ∀ p, p ≠ staged → (files' p).map (·.mode) = (files p).map (·.mode)
  mode_staged : (files' staged).map (·.mode) = some mode

theorem modeAfter_eq {file : Option TextFile} {m : ℕ} (h : file.map (·.mode) = some m) :
    modeAfter created file = m := by
  obtain ⟨file', rfl, hmode⟩ := Option.map_eq_some_iff.mp h
  exact hmode

/-- A file is written and gets its mode. -/
theorem stages_write (htaken : taken staged = true) (text : Str) :
    Stages taken staged mode files (chmod staged mode (writeText created staged text files)) where
  taken_staged := htaken
  others := fun p hp => by
    have hne : p ≠ staged := by
      rintro rfl
      rw [htaken] at hp
      cases hp
    rw [chmod, writeText, Function.update_of_ne hne, Function.update_of_ne hne]
  modes := fun p hp => by
    rw [chmod, writeText, Function.update_of_ne hp, Function.update_of_ne hp]
  mode_staged := by
    rw [chmod, writeText, Function.update_self, Function.update_self]
    rfl

/-- Another file is appended to. -/
theorem Stages.append (h : Stages taken staged mode files files') {p : π} (htaken : taken p = true)
    (hne : p ≠ staged) {file : TextFile} (hfile : files p = some file) (text : Str) :
    Stages taken staged mode files (appendText created p text files') where
  taken_staged := h.taken_staged
  others := fun q hq => by
    have hqp : q ≠ p := by
      rintro rfl
      rw [htaken] at hq
      cases hq
    rw [appendText, Function.update_of_ne hqp, h.others q hq]
  modes := fun q hq => by
    by_cases hqp : q = p
    · subst hqp
      have hmode := h.modes q hq
      rw [hfile, Option.map_some] at hmode
      rw [appendText, Function.update_self, Option.map_some, modeAfter_eq hmode, hfile,
        Option.map_some]
    · rw [appendText, Function.update_of_ne hqp, h.modes q hq]
  mode_staged := by
    rw [appendText, Function.update_of_ne hne.symm, h.mode_staged]

/-- What is restored at one path. -/
theorem restore_apply_eq_iff (h : Stages taken staged mode files files') (p : π) :
    restore created (snapshot taken files) staged files' p = files p ↔
      ∀ file, files p = some file → (taken p = true → '\r' ∉ file.text) ∧
        (p = staged → file.mode = mode) := by
  rw [restore_apply, snapshot, readText]
  by_cases htaken : taken p = true
  · rw [if_pos htaken]
    cases hfile : files p with
    | none =>
        have hgone : p ≠ staged → files' p = none := fun hp => by
          have hmode := h.modes p hp
          rwa [hfile, Option.map_none, Option.map_eq_none_iff] at hmode
        by_cases hp : p = staged
        · simp [hp]
        · simp [hp, hgone hp]
    | some file =>
        have hmode : modeAfter created (files' p) = if p = staged then mode else file.mode := by
          have hnew : (files' p).map (·.mode) = some (if p = staged then mode else file.mode) := by
            split_ifs with hp
            · rw [hp]
              exact h.mode_staged
            · rw [h.modes p hp, hfile, Option.map_some]
          exact modeAfter_eq hnew
        simp only [Option.map_some, Option.some.injEq, forall_eq', htaken, forall_const]
        rw [TextFile.ext_iff, hmode, universalNewlines_eq_self]
        refine and_congr_right fun _ => ?_
        by_cases hp : p = staged
        · simp [hp, eq_comm]
        · simp [hp]
  · have hp : p ≠ staged := by
      rintro rfl
      exact htaken h.taken_staged
    have hfalse : taken p = false := by simpa using htaken
    simp [hfalse, hp, h.others p hfalse]

/-- **When the snapshot gives the files back.** -/
theorem restore_eq_iff (h : Stages taken staged mode files files') :
    restore created (snapshot taken files) staged files' = files ↔
      (∀ p file, taken p = true → files p = some file → '\r' ∉ file.text) ∧
        ∀ file, files staged = some file → file.mode = mode := by
  rw [funext_iff]
  simp only [restore_apply_eq_iff h]
  constructor
  · intro hall
    exact ⟨fun p file htaken hfile => (hall p file hfile).1 htaken,
      fun file hfile => (hall staged file hfile).2 rfl⟩
  · rintro ⟨htexts, hmode⟩ p file hfile
    refine ⟨fun htaken => htexts p file htaken hfile, ?_⟩
    rintro rfl
    exact hmode file hfile

end Restore

end TextFiles
