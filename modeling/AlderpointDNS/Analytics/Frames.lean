import AlderpointDNS.Lib.DnsMessage
import AlderpointDNS.Lib.Framing

/-!
# The frames of dnsdist's messages

dnsdist sends each message after its length.  `iter_frames` takes the length from two bytes, or from
four if the first two are zero, and drops a byte where it finds no length it can use.  With two or
three bytes there it does not wait for the four.

* `frameLook` — one round of the loop of `iter_frames`;
* `OneReading` — on the way through the stream no length is met that needs four bytes, but for one
  whose frame the stream does not complete in either reading;
* `settled_of_oneReading`, `oneReading_of_independent` — the two directions;
* **`frames_independent_iff`** — the frames do not depend on the chunks exactly for the streams with
  one reading, and messages of 1 to 65535 bytes always arrive, each once and in order.
-/

namespace AlderpointDNS.Analytics

open Framing Numerals DnsMessage

abbrev Bytes := List UInt8

/-! ## `iter_frames` -/

/-- `MAX_FRAME_BYTES`. -/
def maxFrameBytes : ℕ := 1024 * 1024

/-- `struct.unpack("!H", ..)` and `struct.unpack("!I", ..)`. -/
def unpack (bytes : Bytes) : ℕ := value 256 0 (bytes.map UInt8.toNat)

/-- The length, and the number of bytes that it takes. -/
def frameHeader (buffer : Bytes) : ℕ × ℕ :=
  let length := unpack (buffer.take 2)
  if length = 0 ∧ 4 ≤ buffer.length then (unpack (buffer.take 4), 4) else (length, 2)

/-- One round of the loop of `iter_frames`. -/
def frameLook (buffer : Bytes) : Look Bytes :=
  if buffer.length < 2 then .wait
  else
    let length := (frameHeader buffer).1
    let header := (frameHeader buffer).2
    if length = 0 ∨ maxFrameBytes < length then .take 0 none
    else if buffer.length < header + length then .wait
    else .take (header + length - 1) (some ((buffer.drop header).take length))

/-- `iter_frames`: the frames, and what it leaves in the buffer. -/
def iterFrames (buffer : Bytes) : List Bytes × Bytes := drain frameLook buffer

/-- The frames that `handle_client` gets for the chunks that it receives, as long as no frame makes
the decoder fail: then it clears the buffer. -/
def chunkFrames (chunks : List Bytes) : List Bytes := received frameLook [] chunks

/-- A message after its length in two bytes. -/
def framed (message : Bytes) : Bytes := bigEndian 2 message.length ++ message

/-! ## One round, by what stands at the front -/

theorem unpack_pair (a b : UInt8) : unpack [a, b] = a.toNat * 256 + b.toNat := by
  simp [unpack, value]

theorem unpack_zeros (x y : UInt8) : unpack [0, 0, x, y] = unpack [x, y] := by
  simp [unpack, value]

theorem unpack_pair_le (a b : UInt8) : unpack [a, b] ≤ 65535 := by
  have ha := a.toNat_lt
  have hb := b.toNat_lt
  rw [unpack_pair]
  omega

theorem unpack_pair_eq_zero {a b : UInt8} : unpack [a, b] = 0 ↔ a = 0 ∧ b = 0 := by
  rw [unpack_pair, ← UInt8.toNat_inj, ← UInt8.toNat_inj]
  simp

theorem not_tooLong (a b : UInt8) : ¬ maxFrameBytes < unpack [a, b] := by
  have hle := unpack_pair_le a b
  have hmax : maxFrameBytes = 1048576 := rfl
  omega

@[simp] theorem frameLook_one (a : UInt8) : frameLook [a] = .wait := by simp [frameLook]

/-- A length in two bytes. -/
theorem frameLook_pair {a b : UInt8} (h : unpack [a, b] ≠ 0) (rest : Bytes) :
    frameLook (a :: b :: rest) = if rest.length < unpack [a, b] then .wait
      else .take (unpack [a, b] + 1) (some (rest.take (unpack [a, b]))) := by
  have hheader : frameHeader (a :: b :: rest) = (unpack [a, b], 2) := by
    simp [frameHeader, h]
  have hlen : ¬ (a :: b :: rest).length < 2 := by simp
  have hsmall : ¬ (unpack [a, b] = 0 ∨ maxFrameBytes < unpack [a, b]) := by
    simp [h, not_tooLong a b]
  simp only [frameLook, if_neg hlen, hheader, if_neg hsmall]
  have hshort : (a :: b :: rest).length < 2 + unpack [a, b] ↔ rest.length < unpack [a, b] := by
    simp only [List.length_cons]
    omega
  rw [if_congr hshort rfl rfl, show 2 + unpack [a, b] - 1 = unpack [a, b] + 1 by omega]
  rfl

/-- Two zero bytes, and less than two more. -/
theorem frameLook_few {rest : Bytes} (h : rest.length < 2) :
    frameLook (0 :: 0 :: rest) = .take 0 none := by
  have hheader : frameHeader (0 :: 0 :: rest) = (0, 2) := by
    have hfew : ¬ 4 ≤ rest.length + 2 := by omega
    simp [frameHeader, unpack, value, hfew]
  simp [frameLook, hheader]

/-- Two zero bytes, and a length in the next two. -/
theorem frameLook_quad (x y : UInt8) (more : Bytes) :
    frameLook (0 :: 0 :: x :: y :: more) = if unpack [x, y] = 0 then .take 0 none
      else if more.length < unpack [x, y] then .wait
      else .take (unpack [x, y] + 3) (some (more.take (unpack [x, y]))) := by
  have hheader : frameHeader (0 :: 0 :: x :: y :: more) = (unpack [x, y], 4) := by
    simp [frameHeader, unpack_zeros, unpack_pair]
  have hlen : ¬ (0 :: 0 :: x :: y :: more).length < 2 := by simp
  simp only [frameLook, if_neg hlen, hheader]
  by_cases hzero : unpack [x, y] = 0
  · simp [hzero]
  · have hsmall : ¬ (unpack [x, y] = 0 ∨ maxFrameBytes < unpack [x, y]) := by
      simp [hzero, not_tooLong x y]
    have hshort : (0 :: 0 :: x :: y :: more).length < 4 + unpack [x, y]
        ↔ more.length < unpack [x, y] := by
      simp only [List.length_cons]
      omega
    rw [if_neg hsmall, if_neg hzero, if_congr hshort rfl rfl,
      show 4 + unpack [x, y] - 1 = unpack [x, y] + 3 by omega]
    rfl

theorem frameLook_zeros (more : Bytes) : frameLook (0 :: 0 :: 0 :: 0 :: more) = .take 0 none := by
  rw [frameLook_quad, if_pos (unpack_pair_eq_zero.mpr ⟨rfl, rfl⟩)]

/-! ## Streams with one reading -/

/-- Read from the front, a length that needs four bytes occurs only where the stream ends before
the frame does, the first of the zero bytes dropped or not. -/
def OneReading : Bytes → Prop
  | a :: b :: rest =>
      if unpack [a, b] ≠ 0 then OneReading (rest.drop (unpack [a, b]))
      else
        match rest with
        | x :: y :: more =>
            if unpack [x, y] = 0 then OneReading (b :: x :: y :: more)
            else if x = 0 then more.length < y.toNat
            else more.length + 1 < x.toNat
        | _ => True
  | _ => True
termination_by stream => stream.length
decreasing_by
  · simp only [List.length_drop, List.length_cons]; omega
  · simp only [List.length_cons]; omega

/-- Streams in which no frame is completed, however their chunks end. -/
inductive Starved : Bytes → Prop where
  | short {stream : Bytes} : stream.length < 2 → Starved stream
  | frame {a b : UInt8} {rest : Bytes} :
      rest.length < unpack [a, b] → Starved (a :: b :: rest)
  | zeros {x : UInt8} {rest : Bytes} : rest.length < x.toNat → Starved (0 :: 0 :: x :: rest)
  | quad {y : UInt8} {rest : Bytes} : rest.length < y.toNat → Starved (0 :: 0 :: 0 :: y :: rest)

/-- However much of such a stream has arrived, there is no frame in it. -/
theorem frameLook_of_starved {stream : Bytes} (h : Starved stream) {pre post : Bytes}
    (hstream : pre ++ post = stream) (hne : pre ≠ []) :
    frameLook pre = .wait ∨ ∃ extra, frameLook pre = .take extra none ∧ extra < pre.length
      ∧ Starved (stream.drop (extra + 1)) := by
  cases h with
  | short hlen =>
      subst hstream
      obtain ⟨a, rfl⟩ : ∃ a, pre = [a] := by
        rw [← List.length_eq_one_iff]
        have hpos := List.length_pos_iff.mpr hne
        rw [List.length_append] at hlen
        omega
      exact .inl (frameLook_one a)
  | @frame a b rest hlen =>
      match pre, hstream with
      | [a'], _ => exact .inl (frameLook_one a')
      | a' :: b' :: p, hstream =>
          obtain ⟨rfl, rfl, rfl⟩ : a' = a ∧ b' = b ∧ p ++ post = rest := by simpa using hstream
          rw [List.length_append] at hlen
          left
          rw [frameLook_pair (by omega), if_pos (by omega)]
  | @zeros x rest hlen =>
      have hnext : Starved (0 :: x :: rest) := .frame (by rw [unpack_pair]; simpa using hlen)
      match pre, hstream with
      | [a'], _ => exact .inl (frameLook_one a')
      | [a', b'], hstream =>
          obtain ⟨rfl, rfl, -⟩ : a' = 0 ∧ b' = 0 ∧ post = x :: rest := by simpa using hstream
          exact .inr ⟨0, frameLook_few (by simp), by simp, hnext⟩
      | [a', b', x'], hstream =>
          obtain ⟨rfl, rfl, rfl, -⟩ : a' = 0 ∧ b' = 0 ∧ x' = x ∧ post = rest := by
            simpa using hstream
          exact .inr ⟨0, frameLook_few (by simp), by simp, hnext⟩
      | a' :: b' :: x' :: y :: p, hstream =>
          obtain ⟨rfl, rfl, rfl, rfl⟩ : a' = 0 ∧ b' = 0 ∧ x' = x ∧ y :: (p ++ post) = rest := by
            simpa using hstream
          rw [List.length_cons, List.length_append] at hlen
          have hunpack := unpack_pair x' y
          left
          rw [frameLook_quad, if_neg (by omega), if_pos (by omega)]
  | @quad y rest hlen =>
      have hnext : Starved (0 :: 0 :: y :: rest) := .zeros hlen
      match pre, hstream with
      | [a'], _ => exact .inl (frameLook_one a')
      | [a', b'], hstream =>
          obtain ⟨rfl, rfl, -⟩ : a' = 0 ∧ b' = 0 ∧ post = 0 :: y :: rest := by simpa using hstream
          exact .inr ⟨0, frameLook_few (by simp), by simp, hnext⟩
      | [a', b', x'], hstream =>
          obtain ⟨rfl, rfl, rfl, -⟩ : a' = 0 ∧ b' = 0 ∧ x' = 0 ∧ post = y :: rest := by
            simpa using hstream
          exact .inr ⟨0, frameLook_few (by simp), by simp, hnext⟩
      | a' :: b' :: x' :: y' :: p, hstream =>
          obtain ⟨rfl, rfl, rfl, rfl, rfl⟩ : a' = 0 ∧ b' = 0 ∧ x' = 0 ∧ y' = y ∧ p ++ post = rest := by
            simpa using hstream
          rw [List.length_append] at hlen
          have hunpack := unpack_pair 0 y'
          left
          rw [frameLook_quad, if_neg (by simp at hunpack; omega), if_pos (by simp at hunpack; omega)]

/-! ## Chunks of a stream with one reading -/

/-- A length in two bytes is read alike on every beginning of the stream. -/
theorem persistent_pair {a b : UInt8} (h : unpack [a, b] ≠ 0) {rest : Bytes}
    (hcomplete : unpack [a, b] ≤ rest.length) : Persistent frameLook (a :: b :: rest) := by
  have hwhole : frameLook (a :: b :: rest)
      = .take (unpack [a, b] + 1) (some (rest.take (unpack [a, b]))) := by
    rw [frameLook_pair h, if_neg (by omega)]
  rw [Persistent, hwhole]
  intro pre post hstream hne
  match pre, hstream with
  | [a'], _ => exact .inl (frameLook_one a')
  | a' :: b' :: p, hstream =>
      obtain ⟨rfl, rfl, rfl⟩ : a' = a ∧ b' = b ∧ p ++ post = rest := by simpa using hstream
      rw [frameLook_pair h]
      by_cases hshort : p.length < unpack [a', b']
      · exact .inl (if_pos hshort)
      · right
        rw [if_neg hshort, List.take_append_of_le_length (by omega)]
        refine ⟨rfl, fun extra result heq => ?_⟩
        cases heq
        simp only [List.length_cons]
        omega

/-- Zero bytes are dropped on every beginning of the stream. -/
theorem persistent_zeros (more : Bytes) : Persistent frameLook (0 :: 0 :: 0 :: 0 :: more) := by
  rw [Persistent, frameLook_zeros]
  intro pre post hstream hne
  have hfits : ∀ extra (result : Option Bytes), Look.take 0 none = .take extra result →
      extra < pre.length := by
    intro extra result heq
    cases heq
    exact List.length_pos_iff.mpr hne
  match pre, hstream with
  | [a'], _ => exact .inl (frameLook_one a')
  | [a', b'], hstream =>
      obtain ⟨rfl, rfl, -⟩ : a' = 0 ∧ b' = 0 ∧ post = 0 :: 0 :: more := by simpa using hstream
      exact .inr ⟨frameLook_few (by simp), hfits⟩
  | [a', b', x'], hstream =>
      obtain ⟨rfl, rfl, -⟩ : a' = 0 ∧ b' = 0 ∧ x' = 0 ∧ post = 0 :: more := by simpa using hstream
      exact .inr ⟨frameLook_few (by simp), hfits⟩
  | a' :: b' :: x' :: y' :: p, hstream =>
      obtain ⟨rfl, rfl, rfl, rfl, -⟩ : a' = 0 ∧ b' = 0 ∧ x' = 0 ∧ y' = 0 ∧ p ++ post = more := by
        simpa using hstream
      exact .inr ⟨frameLook_zeros p, hfits⟩

/-- So are two zero bytes at the end of the stream, with less than two more after them. -/
theorem persistent_few {rest : Bytes} (h : rest.length < 2) :
    Persistent frameLook (0 :: 0 :: rest) := by
  rw [Persistent, frameLook_few h]
  intro pre post hstream hne
  match pre, hstream with
  | [a'], _ => exact .inl (frameLook_one a')
  | a' :: b' :: p, hstream =>
      obtain ⟨rfl, rfl, rfl⟩ : a' = 0 ∧ b' = 0 ∧ p ++ post = rest := by simpa using hstream
      rw [List.length_append] at h
      refine .inr ⟨frameLook_few (by omega), fun extra result heq => ?_⟩
      cases heq
      simp

/-- What stands behind two zero bytes. -/
theorem oneReading_zeros {x y : UInt8} {more : Bytes} :
    OneReading (0 :: 0 :: x :: y :: more) ↔
      if unpack [x, y] = 0 then OneReading (0 :: x :: y :: more)
      else if x = 0 then more.length < y.toNat
      else more.length + 1 < x.toNat := by
  have hzero : unpack [0, 0] = 0 := unpack_pair_eq_zero.mpr ⟨rfl, rfl⟩
  rw [OneReading, if_neg (not_not_intro hzero)]

theorem oneReading_pair {a b : UInt8} (h : unpack [a, b] ≠ 0) {rest : Bytes} :
    OneReading (a :: b :: rest) ↔ OneReading (rest.drop (unpack [a, b])) := by
  conv_lhs => rw [OneReading.eq_def]
  simp only [if_pos h]

theorem oneReading_short {stream : Bytes} (h : stream.length < 2) : OneReading stream := by
  match stream, h with
  | [], _ => rw [OneReading] <;> simp
  | [a], _ => rw [OneReading] <;> simp

theorem oneReading_few {rest : Bytes} (h : rest.length < 2) : OneReading (0 :: 0 :: rest) := by
  have hzero : unpack [0, 0] = 0 := unpack_pair_eq_zero.mpr ⟨rfl, rfl⟩
  match rest, h with
  | [], _ =>
      rw [OneReading]
      · rw [if_neg (not_not_intro hzero)]
        trivial
      · simp
  | [x], _ =>
      rw [OneReading]
      · rw [if_neg (not_not_intro hzero)]
        trivial
      · simp

/-- A stream with one reading is read alike, until it is starved. -/
theorem settled_of_oneReading : ∀ (n : ℕ) (stream : Bytes), stream.length ≤ n →
    OneReading stream → Settled frameLook Starved stream := by
  intro n
  induction n with
  | zero =>
      intro stream hn _
      exact .silent (.short (by omega))
  | succ n ih =>
      intro stream hn h
      match stream with
      | [] => exact .silent (.short (by simp))
      | [a] => exact .silent (.short (by simp))
      | a :: b :: rest =>
          simp only [List.length_cons] at hn
          by_cases hlength : unpack [a, b] = 0
          · obtain ⟨rfl, rfl⟩ := unpack_pair_eq_zero.mp hlength
            match rest with
            | [] =>
                exact .take (by simp) (persistent_few (by simp)) (frameLook_few (by simp))
                  (.silent (.short (by simp)))
            | [x] =>
                refine .take (by simp) (persistent_few (by simp)) (frameLook_few (by simp)) ?_
                refine ih _ (by simpa using hn) ?_
                by_cases hx : unpack [0, x] = 0
                · obtain ⟨-, rfl⟩ := unpack_pair_eq_zero.mp hx
                  exact oneReading_few (by simp)
                · exact (oneReading_pair hx).mpr (oneReading_short (by simp))
            | x :: y :: more =>
                rw [oneReading_zeros] at h
                split_ifs at h with hzero hx
                · obtain ⟨rfl, rfl⟩ := unpack_pair_eq_zero.mp hzero
                  exact .take (by simp) (persistent_zeros more) (frameLook_zeros more)
                    (ih _ (by simpa using hn) h)
                · subst hx
                  exact .silent (.quad h)
                · exact .silent (.zeros h)
          · by_cases hcomplete : unpack [a, b] ≤ rest.length
            · rw [oneReading_pair hlength] at h
              have hlook := frameLook_pair hlength rest
              rw [if_neg (by omega)] at hlook
              refine .take (by simp) (persistent_pair hlength hcomplete) hlook ?_
              rw [List.drop_succ_cons, List.drop_succ_cons]
              refine ih _ ?_ h
              rw [List.length_drop]
              omega
            · exact .silent (.frame (by omega))

/-- **A stream with one reading is read alike in one piece and in chunks.** -/
theorem chunkFrames_of_oneReading {stream : Bytes} (h : OneReading stream) {chunks : List Bytes}
    (hchunks : chunks.flatten = stream) : chunkFrames chunks = (iterFrames stream).1 :=
  received_eq_drain (fun _ hs _ _ hstream hne => frameLook_of_starved hs hstream hne)
    (settled_of_oneReading _ stream (Nat.le_refl _) h) hchunks

/-! ## Streams with two readings -/

/-- The frames do not depend on where the chunks end; no chunk is empty, as an empty one is the end
of the stream. -/
def Independent (stream : Bytes) : Prop :=
  ∀ chunks : List Bytes, (∀ chunk ∈ chunks, chunk ≠ []) → chunks.flatten = stream →
    chunkFrames chunks = (iterFrames stream).1

/-- What is behind a frame is read alike too. -/
theorem Independent.behind_frame {a b : UInt8} (h : unpack [a, b] ≠ 0) {rest : Bytes}
    (hcomplete : unpack [a, b] ≤ rest.length) (hind : Independent (a :: b :: rest)) :
    Independent (rest.drop (unpack [a, b])) := by
  intro chunks hne hchunks
  have hlook : frameLook (a :: b :: rest.take (unpack [a, b]))
      = .take (unpack [a, b] + 1) (some (rest.take (unpack [a, b]))) := by
    rw [frameLook_pair h, List.length_take, if_neg (by omega), List.take_take, Nat.min_self]
  have hwhole : frameLook (a :: b :: rest)
      = .take (unpack [a, b] + 1) (some (rest.take (unpack [a, b]))) := by
    rw [frameLook_pair h, if_neg (by omega)]
  have hnil : (a :: b :: rest.take (unpack [a, b])).drop (unpack [a, b] + 1 + 1) = [] := by
    simp
  have hall := hind ((a :: b :: rest.take (unpack [a, b])) :: chunks) (by simpa using hne)
    (by simp [hchunks])
  rw [chunkFrames, received_cons, List.nil_append, results_take (by simp) hlook, hnil, results,
    drain_nil, List.nil_append, iterFrames, drain_take (by simp) hwhole, List.drop_succ_cons,
    List.drop_succ_cons] at hall
  exact List.append_cancel_left hall

/-- What is behind a byte that is dropped is read alike too. -/
theorem Independent.behind_zero {more : Bytes} (hind : Independent (0 :: 0 :: 0 :: 0 :: more)) :
    Independent (0 :: 0 :: 0 :: more) := by
  intro chunks hne hchunks
  match chunks with
  | chunk :: chunks =>
      obtain ⟨c, cs, rfl⟩ := List.exists_cons_of_ne_nil (hne chunk (by simp))
      rw [List.flatten_cons, List.cons_append, List.cons.injEq] at hchunks
      obtain ⟨rfl, hrest⟩ := hchunks
      have hlook : frameLook (0 :: 0 :: cs) = .take 0 none := by
        match cs, hrest with
        | [], _ => exact frameLook_few (by simp)
        | [x], _ => exact frameLook_few (by simp)
        | x :: y :: p, hrest =>
            obtain ⟨rfl, rfl, -⟩ : x = 0 ∧ y = 0 ∧ p ++ chunks.flatten = more := by
              simpa using hrest
            exact frameLook_zeros p
      have hall := hind ((0 :: 0 :: cs) :: chunks)
        (fun chunk hchunk => by
          rcases List.mem_cons.mp hchunk with rfl | hchunk
          · simp
          · exact hne chunk (List.mem_cons_of_mem _ hchunk))
        (by simp [hrest])
      rw [chunkFrames, received_cons, List.nil_append, results_take (by simp) hlook, iterFrames,
        drain_take (by simp) (frameLook_zeros more)] at hall
      rw [chunkFrames, received_cons, List.nil_append]
      exact hall

/-- The frames when the first of two zero bytes has been dropped before the next two arrive. -/
theorem Independent.drop_zero {x y : UInt8} {more : Bytes}
    (hind : Independent (0 :: 0 :: x :: y :: more)) :
    (drain frameLook (0 :: x :: y :: more)).1 = (drain frameLook (0 :: 0 :: x :: y :: more)).1 := by
  have hall := hind [[0, 0], x :: y :: more] (by simp) (by simp)
  rw [chunkFrames, received_cons, List.nil_append, results_take (by simp) (frameLook_few (by simp)),
    show ([0, 0] : Bytes).drop (0 + 1) = [0] from rfl, results_wait (frameLook_one 0),
    received_cons, results_nil] at hall
  exact hall

/-- The frames of a stream that begins with a length in two bytes. -/
theorem frames_pair {a b : UInt8} (h : unpack [a, b] ≠ 0) {rest : Bytes} :
    (drain frameLook (a :: b :: rest)).1.head?
      = if rest.length < unpack [a, b] then none else some (rest.take (unpack [a, b])) := by
  have hlook := frameLook_pair h rest
  split_ifs at hlook ⊢
  · rw [drain_wait hlook]
    rfl
  · rw [drain_take (by simp) hlook]
    rfl

/-- The frames of a stream that begins with a length in four bytes. -/
theorem frames_quad {x y : UInt8} (h : unpack [x, y] ≠ 0) {more : Bytes} :
    (drain frameLook (0 :: 0 :: x :: y :: more)).1.head?
      = if more.length < unpack [x, y] then none else some (more.take (unpack [x, y])) := by
  have hlook := frameLook_quad x y more
  rw [if_neg h] at hlook
  split_ifs at hlook ⊢
  · rw [drain_wait hlook]
    rfl
  · rw [drain_take (by simp) hlook]
    rfl

/-- A stream that is read alike however it is cut has one reading. -/
theorem oneReading_of_independent : ∀ (n : ℕ) (stream : Bytes), stream.length ≤ n →
    Independent stream → OneReading stream := by
  intro n
  induction n with
  | zero =>
      intro stream hn _
      exact oneReading_short (by omega)
  | succ n ih =>
      intro stream hn hind
      match stream with
      | [] => exact oneReading_short (by simp)
      | [a] => exact oneReading_short (by simp)
      | a :: b :: rest =>
          simp only [List.length_cons] at hn
          by_cases hlength : unpack [a, b] = 0
          · obtain ⟨rfl, rfl⟩ := unpack_pair_eq_zero.mp hlength
            match rest with
            | [] => exact oneReading_few (by simp)
            | [x] => exact oneReading_few (by simp)
            | x :: y :: more =>
                rw [oneReading_zeros]
                have hdrop := congrArg List.head? hind.drop_zero
                split_ifs with hzero hx
                · obtain ⟨rfl, rfl⟩ := unpack_pair_eq_zero.mp hzero
                  exact ih _ (by simpa using hn) hind.behind_zero
                · -- the four-byte length is the second byte of it: a longer frame one byte on
                  subst hx
                  by_contra hlong
                  have hy : unpack [0, y] = y.toNat := by simp [unpack_pair]
                  obtain ⟨z, more, rfl⟩ : ∃ z more', more = z :: more' :=
                    List.exists_cons_of_length_pos (by omega)
                  have hpair := unpack_pair y z
                  have hcomplete : ¬(z :: more).length < unpack [0, y] := by rwa [hy]
                  rw [frames_quad (by omega), frames_quad hzero, if_neg hcomplete, hy] at hdrop
                  split_ifs at hdrop with hshort
                  have hlengths := congrArg List.length (Option.some.inj hdrop)
                  simp only [List.length_take, List.length_cons] at hlengths hlong
                  omega
                · -- the two-byte length is the first byte of it: a shorter frame one byte on
                  by_contra hlong
                  have hpair := unpack_pair x y
                  have hfirst : unpack [0, x] = x.toNat := by simp [unpack_pair]
                  have hpos : x.toNat ≠ 0 := fun h => hx (UInt8.toNat_inj.mp h)
                  rw [frames_pair (by omega), frames_quad hzero] at hdrop
                  simp only [List.length_cons, hfirst] at hdrop
                  rw [if_neg (by omega)] at hdrop
                  split_ifs at hdrop with hshort
                  have hlengths := congrArg List.length (Option.some.inj hdrop)
                  simp only [List.length_take, List.length_cons] at hlengths
                  omega
          · rw [oneReading_pair hlength]
            by_cases hcomplete : unpack [a, b] ≤ rest.length
            · refine ih _ ?_ (hind.behind_frame hlength hcomplete)
              rw [List.length_drop]
              omega
            · rw [List.drop_eq_nil_of_le (by omega)]
              exact oneReading_short (by simp)

/-! ## Messages -/

/-- The messages that dnsdist sends. -/
def Sendable (message : Bytes) : Prop := message ≠ [] ∧ message.length ≤ 65535

theorem framed_eq {message : Bytes} (h : Sendable message) :
    ∃ a b, framed message = a :: b :: message ∧ unpack [a, b] = message.length := by
  obtain ⟨a, b, hbytes⟩ := List.length_eq_two.mp (length_bigEndian 2 message.length)
  have hvalue : unpack (bigEndian 2 message.length) = message.length :=
    value_bigEndian (by have hle := h.2; omega)
  rw [hbytes] at hvalue
  exact ⟨a, b, by rw [framed, hbytes]; rfl, hvalue⟩

/-- Framed messages have one reading, and it is the messages. -/
theorem oneReading_framed {messages : List Bytes} (h : ∀ message ∈ messages, Sendable message) :
    OneReading (messages.map framed).flatten ∧
      (iterFrames (messages.map framed).flatten).1 = messages := by
  induction messages with
  | nil => exact ⟨oneReading_short (by simp), by simp [iterFrames]⟩
  | cons message messages ih =>
      obtain ⟨hone, hframes⟩ := ih fun m hm => h m (List.mem_cons_of_mem _ hm)
      have hmessage := h message List.mem_cons_self
      obtain ⟨a, b, hframed, hunpack⟩ := framed_eq hmessage
      have hpos : unpack [a, b] ≠ 0 := by
        rw [hunpack]
        exact fun hzero => hmessage.1 (List.length_eq_zero_iff.mp hzero)
      have hstream : ((message :: messages).map framed).flatten
          = a :: b :: (message ++ (messages.map framed).flatten) := by
        rw [List.map_cons, List.flatten_cons, hframed, List.cons_append, List.cons_append]
      have hlook := frameLook_pair hpos (message ++ (messages.map framed).flatten)
      rw [hunpack, List.take_left, List.length_append, if_neg (by omega)] at hlook
      rw [hstream]
      constructor
      · rw [oneReading_pair hpos, hunpack, List.drop_left]
        exact hone
      · rw [iterFrames, drain_take (by simp) hlook, List.drop_succ_cons, List.drop_succ_cons,
          List.drop_left]
        exact congrArg (message :: ·) hframes

/-- If the stream is a sequence of framed messages, these are what the chunks give. -/
def MessagesArrive (stream : Bytes) : Prop :=
  ∀ messages : List Bytes, (∀ message ∈ messages, Sendable message) →
    stream = (messages.map framed).flatten →
      ∀ chunks : List Bytes, chunks.flatten = stream → chunkFrames chunks = messages

/-- **When the frames do not depend on the chunks**: exactly for the streams with one reading; and
messages always arrive, each once and in order. -/
theorem frames_independent_iff (stream : Bytes) :
    (Independent stream ↔ OneReading stream) ∧ MessagesArrive stream := by
  constructor
  · constructor
    · exact oneReading_of_independent _ stream (Nat.le_refl _)
    · intro h chunks _ hchunks
      exact chunkFrames_of_oneReading h hchunks
  · rintro messages hmessages rfl chunks hchunks
    obtain ⟨hone, hframes⟩ := oneReading_framed hmessages
    rw [chunkFrames_of_oneReading hone hchunks, hframes]

/-- **A length in four bytes, cut after the first two.** -/
theorem quad_length_cut : ¬∀ stream : Bytes, Independent stream := by
  intro h
  have hdrop := congrArg List.head? (h [0, 0, 0, 1, 7]).drop_zero
  have hone : unpack [0, 1] = 1 := by simp [unpack_pair]
  have hmany : unpack [1, 7] = 263 := by simp [unpack_pair]
  rw [frames_quad (by rw [hmany]; decide), frames_quad (by rw [hone]; decide), hone, hmany] at hdrop
  cases hdrop

end AlderpointDNS.Analytics
