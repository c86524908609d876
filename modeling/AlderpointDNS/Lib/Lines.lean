import AlderpointDNS.Lib.Dict
import AlderpointDNS.Lib.Text

/-!
# Texts of lines

A text that is written line by line and read back by `splitlines`.  A line that has no line break of
its own (`OneLine`) is read as it was written, and whatever is read is one line.

* **`splitlines_linesText`** — the lines are read back;
* `oneLine_of_mem_splitlines` — a line that is read has no line break;
* `lookup_foldl_insert`, `lookup_of_mem` — a dictionary that is filled from entries with different
  keys, and the entries themselves.
-/

namespace Text

/-- There is no line boundary in the text. -/
def OneLine (s : Str) : Prop := ∀ c ∈ s, isLineBreak c = false

instance (s : Str) : Decidable (OneLine s) := List.decidableBAll _ s

/-- `"\n".join(lines) + "\n"`. -/
def linesText (lines : List Str) : Str := join ['\n'] lines ++ ['\n']

theorem OneLine.append {s t : Str} (hs : OneLine s) (ht : OneLine t) : OneLine (s ++ t) := by
  intro c hc
  rcases List.mem_append.mp hc with hc | hc
  · exact hs c hc
  · exact ht c hc

theorem OneLine.subset {s t : Str} (ht : OneLine t) (h : s ⊆ t) : OneLine s :=
  fun c hc => ht c (h hc)

theorem OneLine.newline_notMem {s : Str} (h : OneLine s) : '\n' ∉ s := by
  intro hmem
  exact absurd (h '\n' hmem) (by decide)

theorem linesText_cons (line : Str) {lines : List Str} (h : lines ≠ []) :
    linesText (line :: lines) = line ++ '\n' :: linesText lines := by
  obtain ⟨next, rest, rfl⟩ := List.exists_cons_of_ne_nil h
  simp [linesText, join, List.intercalate_cons_cons]

/-- **Lines without line breaks are read back.** -/
theorem splitlines_linesText {lines : List Str} (h : ∀ line ∈ lines, OneLine line)
    (hne : lines ≠ []) : splitlines (linesText lines) = lines := by
  induction lines with
  | nil => exact absurd rfl hne
  | cons line lines ih =>
      obtain ⟨hline, hlines⟩ := List.forall_mem_cons.mp h
      by_cases hnil : lines = []
      · subst hnil
        have htext : linesText [line] = line ++ '\n' :: [] := by simp [linesText, join]
        rw [htext, splitlines_append hline]
        rfl
      · rw [linesText_cons line hnil, splitlines_append hline, ih hlines hnil]

theorem split_linesText {lines : List Str} (h : ∀ line ∈ lines, '\n' ∉ line) (hne : lines ≠ []) :
    split '\n' (linesText lines) = lines ++ [[]] :=
  split_join_append h hne

theorem oneLine_of_mem_splitlines {s : Str} :
    ∀ line ∈ splitlines s, OneLine line := by
  induction s using splitlines.induct with
  | case1 => simp [splitlines]
  | case2 cs ih =>
      rw [splitlines]
      exact List.forall_mem_cons.mpr ⟨fun c hc => absurd hc List.not_mem_nil, ih⟩
  | case3 c cs hcrlf hbreak ih =>
      rw [splitlines, if_pos hbreak]
      · exact List.forall_mem_cons.mpr ⟨fun c hc => absurd hc List.not_mem_nil, ih⟩
      · exact hcrlf
  | case4 c cs hcrlf hbreak hnil ih =>
      rw [splitlines, if_neg hbreak, hnil]
      · simpa [OneLine] using hbreak
      · exact hcrlf
  | case5 c cs hcrlf hbreak line lines hcons ih =>
      rw [splitlines, if_neg hbreak, hcons]
      · rw [hcons] at ih
        obtain ⟨hline, hlines⟩ := List.forall_mem_cons.mp ih
        refine List.forall_mem_cons.mpr ⟨?_, hlines⟩
        exact List.forall_mem_cons.mpr ⟨by simpa using hbreak, hline⟩
      · exact hcrlf

theorem mem_join_of_mem {c : Char} {sep w : Str} {ws : List Str} (hc : c ∈ w) (hw : w ∈ ws) :
    c ∈ join sep ws := by
  induction ws with
  | nil => cases hw
  | cons v ws ih =>
      cases ws with
      | nil =>
          rw [List.mem_singleton.mp hw] at hc
          simpa [join] using hc
      | cons u ws =>
          rw [join, List.intercalate_cons_cons]
          rcases List.mem_cons.mp hw with rfl | hw
          · simp [hc]
          · exact List.mem_append_right _ (ih hw)

theorem mem_of_mem_split {sep c : Char} {s w : Str} (hw : w ∈ split sep s) (hc : c ∈ w) : c ∈ s := by
  rw [← join_split sep s]
  exact mem_join_of_mem hc hw

end Text

namespace Dict

variable {κ β : Type} [DecidableEq κ] [BEq κ] [LawfulBEq κ]

/-- A dictionary filled from entries with different keys. -/
theorem lookup_foldl_insert {entries : List (κ × β)} (h : (entries.map Prod.fst).Nodup)
    (d : Dict κ β) (k : κ) :
    (entries.foldl (fun d entry => d.insert entry.1 entry.2) d).lookup k
      = (entries.lookup k).or (d.lookup k) := by
  induction entries generalizing d with
  | nil => rfl
  | cons entry entries ih =>
      rw [List.map_cons, List.nodup_cons] at h
      rw [List.foldl_cons, ih h.2, lookup_insert', List.lookup_cons]
      by_cases hk : entry.1 = k
      · have hnone : entries.lookup k = none :=
          List.lookup_eq_none_iff.mpr fun e he => by
            rw [bne_iff_ne]
            rintro rfl
            exact h.1 (hk ▸ List.mem_map_of_mem he)
        simp [hk, hnone]
      · simp [hk, beq_false_of_ne (Ne.symm hk)]

omit [DecidableEq κ] in
theorem lookup_of_mem {entries : List (κ × β)} (h : (entries.map Prod.fst).Nodup) {e : κ × β}
    (he : e ∈ entries) : entries.lookup e.1 = some e.2 := by
  induction entries with
  | nil => cases he
  | cons entry entries ih =>
      rw [List.map_cons, List.nodup_cons] at h
      rw [List.lookup_cons]
      rcases List.mem_cons.mp he with rfl | he
      · simp
      · have hne : e.1 ≠ entry.1 := fun heq => h.1 (heq ▸ List.mem_map_of_mem he)
        rw [beq_false_of_ne hne]
        exact ih h.2 he

end Dict
