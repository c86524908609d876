import Mathlib.Data.List.Basic

/-!
# Frames of a stream that arrives in chunks

A reader looks at the front of its buffer; it waits for more, or it takes some elements away, with
or without a result.  `drain` goes on until the reader waits, and `received` does so after each
chunk, with the rest of the buffer carried over to the next one.

* **`received_take`** — where a reader never decides otherwise on less than it decides on all that
  is still to come (`Persistent`), its results over the chunks begin with the result of that
  decision, wherever the chunks end;
* `received_of_silent` — a stream out of which no prefix makes a result;
* **`received_eq_drain`** — a stream on which the reader is persistent as far as it gives results is
  read alike in one piece and in chunks.
-/

namespace Framing

variable {α β : Type}

/-- What a reader does with a buffer that is not empty. -/
inductive Look (α : Type) where
  | wait
  /-- `extra + 1` elements are taken away. -/
  | take (extra : ℕ) (result : Option α)

variable (look : List β → Look α)

/-- The results out of a buffer, and the rest that the reader waits with. -/
def drain : List β → List α × List β
  | [] => ([], [])
  | b :: bs =>
      match look (b :: bs) with
      | .wait => ([], b :: bs)
      | .take extra result =>
          (result.toList ++ (drain (bs.drop extra)).1, (drain (bs.drop extra)).2)
termination_by buffer => buffer.length
decreasing_by all_goals simp only [List.length_drop, List.length_cons]; omega

/-- The results over the chunks that are still to come. -/
def received (buffer : List β) : List (List β) → List α
  | [] => []
  | chunk :: chunks =>
      (drain look (buffer ++ chunk)).1 ++ received (drain look (buffer ++ chunk)).2 chunks

/-- The results out of a buffer and over the chunks after it. -/
def results (buffer : List β) (chunks : List (List β)) : List α :=
  (drain look buffer).1 ++ received look (drain look buffer).2 chunks

variable {look}

@[simp] theorem drain_nil : drain look [] = ([], []) := by rw [drain]

theorem drain_wait {buffer : List β} (h : look buffer = .wait) :
    drain look buffer = ([], buffer) := by
  cases buffer with
  | nil => exact drain_nil
  | cons b bs => rw [drain, h]

theorem drain_take {buffer : List β} (hne : buffer ≠ []) {extra : ℕ} {result : Option α}
    (h : look buffer = .take extra result) :
    drain look buffer = (result.toList ++ (drain look (buffer.drop (extra + 1))).1,
      (drain look (buffer.drop (extra + 1))).2) := by
  cases buffer with
  | nil => exact absurd rfl hne
  | cons b bs => rw [drain, h, List.drop_succ_cons]

@[simp] theorem received_cons (buffer chunk : List β) (chunks : List (List β)) :
    received look buffer (chunk :: chunks) = results look (buffer ++ chunk) chunks := rfl

@[simp] theorem results_nil (buffer : List β) : results look buffer [] = (drain look buffer).1 := by
  rw [results, received, List.append_nil]

theorem results_wait {buffer : List β} (h : look buffer = .wait) (chunks : List (List β)) :
    results look buffer chunks = received look buffer chunks := by
  rw [results, drain_wait h, List.nil_append]

theorem results_take {buffer : List β} (hne : buffer ≠ []) {extra : ℕ} {result : Option α}
    (h : look buffer = .take extra result) (chunks : List (List β)) :
    results look buffer chunks
      = result.toList ++ results look (buffer.drop (extra + 1)) chunks := by
  rw [results, drain_take hne h, results, List.append_assoc]

/-! ## Decisions that do not depend on what has arrived -/

/-- On each beginning of the stream the reader waits, or does what it does on the whole stream. -/
def Persistent (look : List β → Look α) (stream : List β) : Prop :=
  ∀ pre post, pre ++ post = stream → pre ≠ [] →
    look pre = .wait ∨ look pre = look stream ∧
      ∀ extra result, look stream = .take extra result → extra < pre.length

/-- **The first result of a stream does not depend on the chunks.** -/
theorem received_take {stream : List β} (hpers : Persistent look stream) {extra : ℕ}
    {result : Option α} (hlook : look stream = .take extra result) :
    ∀ (chunks : List (List β)) (buffer : List β), buffer ++ chunks.flatten = stream → buffer ≠ [] →
      ∃ buffer' chunks', buffer' ++ chunks'.flatten = stream.drop (extra + 1)
        ∧ results look buffer chunks = result.toList ++ results look buffer' chunks' := by
  intro chunks
  induction chunks with
  | nil =>
      intro buffer hstream hne
      rw [List.flatten_nil, List.append_nil] at hstream
      subst hstream
      exact ⟨buffer.drop (extra + 1), [], by simp, results_take hne hlook []⟩
  | cons chunk chunks ih =>
      intro buffer hstream hne
      rcases hpers buffer _ hstream hne with hwait | ⟨hsame, hfits⟩
      · have hmore : buffer ++ chunk ++ chunks.flatten = stream := by
          rw [← hstream, List.flatten_cons, List.append_assoc]
        rw [results_wait hwait, received_cons]
        exact ih (buffer ++ chunk) hmore (by simp [hne])
      · have hlen : extra + 1 ≤ buffer.length := hfits extra result hlook
        refine ⟨buffer.drop (extra + 1), chunk :: chunks, ?_, results_take hne (hsame.trans hlook) _⟩
        rw [← hstream, List.drop_append_of_le_length hlen]

/-! ## Streams without results -/

section Silent

variable {silent : List β → Prop}
    (hsilent : ∀ stream, silent stream → ∀ pre post, pre ++ post = stream → pre ≠ [] →
      look pre = .wait ∨ ∃ extra, look pre = .take extra none ∧ extra < pre.length
        ∧ silent (stream.drop (extra + 1)))

include hsilent

/-- A stream stays silent when the reader drains what has arrived of it. -/
theorem drain_of_silent : ∀ (n : ℕ) (buffer rest : List β), buffer.length ≤ n →
    silent (buffer ++ rest) →
      (drain look buffer).1 = [] ∧ silent ((drain look buffer).2 ++ rest) := by
  intro n
  induction n with
  | zero =>
      intro buffer rest hn h
      have hnil : buffer = [] := List.length_eq_zero_iff.mp (by omega)
      subst hnil
      simpa using h
  | succ n ih =>
      intro buffer rest hn h
      by_cases hne : buffer = []
      · subst hne
        simpa using h
      · rcases hsilent _ h buffer rest rfl hne with hwait | ⟨extra, htake, hfits, hnext⟩
        · rw [drain_wait hwait]
          exact ⟨rfl, h⟩
        · rw [List.drop_append_of_le_length (by omega)] at hnext
          rw [drain_take hne htake]
          exact ih _ rest (by rw [List.length_drop]; omega) hnext

theorem received_of_silent : ∀ (chunks : List (List β)) (buffer : List β),
    silent (buffer ++ chunks.flatten) → received look buffer chunks = [] := by
  intro chunks
  induction chunks with
  | nil => intro buffer _; rfl
  | cons chunk chunks ih =>
      intro buffer h
      rw [List.flatten_cons, ← List.append_assoc] at h
      obtain ⟨hnone, hrest⟩ := drain_of_silent hsilent _ (buffer ++ chunk) _ (Nat.le_refl _) h
      rw [received_cons, results, hnone, ih _ hrest, List.append_nil]

theorem results_of_silent {chunks : List (List β)} {buffer : List β}
    (h : silent (buffer ++ chunks.flatten)) : results look buffer chunks = [] := by
  obtain ⟨hnone, hrest⟩ := drain_of_silent hsilent _ buffer _ (Nat.le_refl _) h
  rw [results, hnone, received_of_silent hsilent _ _ hrest, List.append_nil]

end Silent

/-! ## Streams that are read alike in one piece and in chunks -/

/-- The reader is persistent until the stream is silent. -/
inductive Settled (look : List β → Look α) (silent : List β → Prop) : List β → Prop where
  | silent {stream : List β} : silent stream → Settled look silent stream
  | take {stream : List β} {extra : ℕ} {result : Option α} :
      stream ≠ [] → Persistent look stream → look stream = .take extra result →
      Settled look silent (stream.drop (extra + 1)) → Settled look silent stream

/-- **A settled stream is read alike in one piece and in chunks.** -/
theorem results_eq_drain {silent : List β → Prop}
    (hsilent : ∀ stream, silent stream → ∀ pre post, pre ++ post = stream → pre ≠ [] →
      look pre = .wait ∨ ∃ extra, look pre = .take extra none ∧ extra < pre.length
        ∧ silent (stream.drop (extra + 1)))
    {stream : List β} (h : Settled look silent stream) :
    ∀ (chunks : List (List β)) (buffer : List β), buffer ++ chunks.flatten = stream →
      results look buffer chunks = (drain look stream).1 := by
  induction h with
  | @silent stream hs =>
      intro chunks buffer hstream
      have hwhole : (drain look stream).1 = [] :=
        (drain_of_silent hsilent _ stream [] (Nat.le_refl _) (by rwa [List.append_nil])).1
      rw [hwhole]
      exact results_of_silent hsilent (hstream ▸ hs)
  | @take stream extra result hne hpers hlook _ ih =>
      intro chunks
      induction chunks with
      | nil =>
          intro buffer hstream
          rw [List.flatten_nil, List.append_nil] at hstream
          rw [hstream, results_nil]
      | cons chunk chunks ihchunks =>
          intro buffer hstream
          by_cases hbuffer : buffer = []
          · subst hbuffer
            have hmore : chunk ++ chunks.flatten = stream := by
              rw [← hstream, List.flatten_cons, List.nil_append]
            rw [results, drain_nil, List.nil_append, received_cons, List.nil_append]
            exact ihchunks chunk hmore
          · obtain ⟨buffer', chunks', hrest, hresults⟩ :=
              received_take hpers hlook (chunk :: chunks) buffer hstream hbuffer
            rw [hresults, ih chunks' buffer' hrest, drain_take hne hlook]

theorem received_eq_drain {silent : List β → Prop}
    (hsilent : ∀ stream, silent stream → ∀ pre post, pre ++ post = stream → pre ≠ [] →
      look pre = .wait ∨ ∃ extra, look pre = .take extra none ∧ extra < pre.length
        ∧ silent (stream.drop (extra + 1)))
    {stream : List β} (h : Settled look silent stream) {chunks : List (List β)}
    (hstream : chunks.flatten = stream) :
    received look [] chunks = (drain look stream).1 := by
  have hresults := results_eq_drain hsilent h chunks [] hstream
  rwa [results, drain_nil, List.nil_append] at hresults

end Framing
