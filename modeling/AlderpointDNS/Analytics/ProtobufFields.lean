import AlderpointDNS.Analytics.Frames
import AlderpointDNS.Lib.Protobuf
import AlderpointDNS.Lib.Results
import Mathlib.Data.Nat.Bitwise

/-!
# The fields of a message

`protobuf_fields` reads one field after the other.  A slice that goes over the end of the bytes is
shorter than it should be, and no error: so a payload that is cut off is taken for a whole one.

What is left of `data` stands for `pos`.

* `readVarint`, `readField`, `protobufFields` — the functions of the collector;
* `readVarint_eq_ok_iff` — `read_varint` reads the varints of up to ten bytes;
* `readField_of_encoded`, `readField_cases` — a field is read if it is encoded, and what is read is
  encoded or cut off;
* **`fieldsRight_iff`** — `protobuf_fields` returns the fields that the bytes encode, and raises if
  they encode none, exactly when no payload is cut off; and it inverts the encoding of every message.
-/

namespace AlderpointDNS.Analytics

open Protobuf Results

/-! ## The functions -/

/-- The texts of the `ValueError`s: `invalid protobuf varint` and
`unsupported protobuf wire type ..`. -/
inductive ProtobufError where
  | varint
  | wireType (wire : ℕ)

/-- The loop of `read_varint`. -/
def readVarintLoop (shift value : ℕ) : Bytes → Except ProtobufError (ℕ × Bytes)
  | [] => .error .varint
  | byte :: data =>
      let value := value ||| (byte.toNat &&& 0x7F) <<< shift
      if byte.toNat &&& 0x80 = 0 then .ok (value, data)
      else if 63 < shift + 7 then .error .varint
      else readVarintLoop (shift + 7) value data

/-- `read_varint`. -/
def readVarint (data : Bytes) : Except ProtobufError (ℕ × Bytes) := readVarintLoop 0 0 data

/-- `value = data[pos : pos + length]` and `pos += length`. -/
def slice (length : ℕ) (data : Bytes) : Value × Bytes :=
  (.bytes (data.take length), data.drop length)

/-- The value of a field, by its wire type. -/
def readValue (wire : ℕ) (data : Bytes) : Except ProtobufError (Value × Bytes) :=
  if wire = 0 then do
    let (value, data) ← readVarint data
    return (.int value, data)
  else if wire = 1 then .ok (slice 8 data)
  else if wire = 2 then do
    let (length, data) ← readVarint data
    return slice length data
  else if wire = 5 then .ok (slice 4 data)
  else .error (.wireType wire)

/-- One round of the loop of `protobuf_fields`. -/
def readField (data : Bytes) : Except ProtobufError (WireField × Bytes) := do
  let (key, data) ← readVarint data
  let field := key >>> 3
  let wire := key &&& 7
  let (value, data) ← readValue wire data
  return (⟨field, wire, value⟩, data)

/-! ## `read_varint` -/

theorem and_low (n : ℕ) : n &&& 0x7F = n % 128 := Nat.and_two_pow_sub_one_eq_mod n 7

theorem and_high {n : ℕ} (h : n < 256) : n &&& 0x80 = 0 ↔ n < 128 := by
  have hbit : n &&& 0x80 = (n.testBit 7).toNat * 2 ^ 7 := Nat.and_two_pow n 7
  rw [hbit, Nat.testBit_eq_decide_div_mod_eq]
  simp
  omega

/-- A byte is put above the ones that have been read. -/
theorem or_shiftLeft {value shift : ℕ} (h : value < 2 ^ shift) (n : ℕ) :
    value ||| n <<< shift = value + 2 ^ shift * n := by
  rw [Nat.or_comm, ← Nat.shiftLeft_add_eq_or_of_lt h, Nat.shiftLeft_eq]
  ring

theorem add_mul_lt {value n k : ℕ} (hvalue : value < 2 ^ (7 * k)) :
    value + 2 ^ (7 * k) * (n % 128) < 2 ^ (7 * (k + 1)) := by
  have hmod : n % 128 < 128 := Nat.mod_lt n (by omega)
  calc value + 2 ^ (7 * k) * (n % 128) < 2 ^ (7 * k) + 2 ^ (7 * k) * (n % 128) := by omega
    _ = 2 ^ (7 * k) * (n % 128 + 1) := by ring
    _ ≤ 2 ^ (7 * k) * 128 := Nat.mul_le_mul_left _ hmod
    _ = 2 ^ (7 * (k + 1)) := by ring

/-- The bytes of a varint are read behind `k` bytes of it. -/
theorem readVarintLoop_of_base128 {bytes : Bytes} {n : ℕ} (h : Base128 bytes n) :
    ∀ {k value : ℕ} (rest : Bytes), value < 2 ^ (7 * k) → bytes.length + k ≤ 10 →
      readVarintLoop (7 * k) value (bytes ++ rest) = .ok (value + 2 ^ (7 * k) * n, rest) := by
  induction h with
  | @last byte hbyte =>
      intro k value rest hvalue hlen
      have hend : byte.toNat &&& 0x80 = 0 := (and_high byte.toNat_lt).mpr hbyte
      rw [List.singleton_append, readVarintLoop, if_pos hend, and_low, or_shiftLeft hvalue,
        Nat.mod_eq_of_lt hbyte]
  | @more byte bytes n hbyte hn ih =>
      intro k value rest hvalue hlen
      have hmore : ¬byte.toNat &&& 0x80 = 0 := fun h => hbyte ((and_high byte.toNat_lt).mp h)
      have hpos : 0 < bytes.length := by cases hn <;> simp
      rw [List.length_cons] at hlen
      rw [List.cons_append, readVarintLoop, if_neg hmore, if_neg (by omega), and_low,
        or_shiftLeft hvalue, show 7 * k + 7 = 7 * (k + 1) by ring,
        ih rest (add_mul_lt hvalue) (by omega)]
      congr 2
      ring

/-- What the loop reads behind `k` bytes are the bytes of a varint. -/
theorem base128_of_readVarintLoop {data rest : Bytes} {m : ℕ} :
    ∀ {k value : ℕ}, value < 2 ^ (7 * k) → k < 10 →
      readVarintLoop (7 * k) value data = .ok (m, rest) →
      ∃ bytes n, data = bytes ++ rest ∧ Base128 bytes n ∧ bytes.length + k ≤ 10 := by
  induction data with
  | nil =>
      intro k value _ _ h
      cases h
  | cons byte data ih =>
      intro k value hvalue hk h
      rw [readVarintLoop] at h
      split_ifs at h with hend hlong
      · cases h
        exact ⟨[byte], _, rfl, .last ((and_high byte.toNat_lt).mp hend), by simp; omega⟩
      · rw [and_low, or_shiftLeft hvalue, show 7 * k + 7 = 7 * (k + 1) by ring] at h
        obtain ⟨bytes, n, rfl, hbytes, hlen⟩ := ih (add_mul_lt hvalue) (by omega) h
        refine ⟨byte :: bytes, _, rfl, .more (fun hlow => hend ?_) hbytes, ?_⟩
        · exact (and_high byte.toNat_lt).mpr hlow
        · rw [List.length_cons]
          omega

theorem readVarint_of_varint {bytes : Bytes} {n : ℕ} (h : Varint bytes n) (rest : Bytes) :
    readVarint (bytes ++ rest) = .ok (n, rest) := by
  have hread := @readVarintLoop_of_base128 bytes n h.digits 0 0 rest (by simp) h.short
  rwa [Nat.mul_zero, Nat.pow_zero, Nat.zero_add, Nat.one_mul] at hread

/-- **`read_varint` reads exactly the varints.** -/
theorem readVarint_eq_ok_iff {data rest : Bytes} {n : ℕ} :
    readVarint data = .ok (n, rest) ↔ ∃ bytes, data = bytes ++ rest ∧ Varint bytes n := by
  constructor
  · intro h
    obtain ⟨bytes, m, rfl, hbytes, hlen⟩ :=
      base128_of_readVarintLoop (k := 0) (by simp) (by omega) h
    have hvarint : Varint bytes m := ⟨hbytes, hlen⟩
    rw [readVarint_of_varint hvarint] at h
    cases h
    exact ⟨bytes, rfl, hvarint⟩
  · rintro ⟨bytes, rfl, h⟩
    exact readVarint_of_varint h rest

theorem readVarint_length {data rest : Bytes} {n : ℕ} (h : readVarint data = .ok (n, rest)) :
    rest.length < data.length := by
  obtain ⟨bytes, rfl, hvarint⟩ := readVarint_eq_ok_iff.mp h
  have hpos : 0 < bytes.length := by cases hvarint.digits <;> simp
  rw [List.length_append]
  omega

/-! ## `protobuf_fields` -/

theorem readValue_int {data rest : Bytes} {value : Value} :
    readValue 0 data = .ok (value, rest) ↔ ∃ n, readVarint data = .ok (n, rest) ∧ value = .int n := by
  rw [readValue, if_pos rfl, bind_eq_ok]
  constructor
  · rintro ⟨⟨n, rest⟩, hread, h⟩
    cases h
    exact ⟨n, hread, rfl⟩
  · rintro ⟨n, hread, rfl⟩
    exact ⟨(n, rest), hread, rfl⟩

theorem readValue_fixed64 (data : Bytes) : readValue 1 data = .ok (slice 8 data) := rfl

theorem readValue_delimited {data rest : Bytes} {value : Value} :
    readValue 2 data = .ok (value, rest) ↔
      ∃ n content, readVarint data = .ok (n, content) ∧ (value, rest) = slice n content := by
  rw [readValue, if_neg (by decide), if_neg (by decide), if_pos rfl, bind_eq_ok]
  constructor
  · rintro ⟨⟨n, content⟩, hread, h⟩
    exact ⟨n, content, hread, (Except.ok.inj h).symm⟩
  · rintro ⟨n, content, hread, h⟩
    exact ⟨(n, content), hread, congrArg Except.ok h.symm⟩

theorem readValue_fixed32 (data : Bytes) : readValue 5 data = .ok (slice 4 data) := rfl

/-- The wire types that have a value. -/
theorem wire_of_readValue {wire : ℕ} {data rest : Bytes} {value : Value}
    (h : readValue wire data = .ok (value, rest)) : wire = 0 ∨ wire = 1 ∨ wire = 2 ∨ wire = 5 := by
  unfold readValue at h
  split_ifs at h with h0 h1 h2 h5
  · exact .inl h0
  · exact .inr (.inl h1)
  · exact .inr (.inr (.inl h2))
  · exact .inr (.inr (.inr h5))

theorem readValue_length {wire : ℕ} {data rest : Bytes} {value : Value}
    (h : readValue wire data = .ok (value, rest)) : rest.length ≤ data.length := by
  rcases wire_of_readValue h with rfl | rfl | rfl | rfl
  · obtain ⟨n, hread, -⟩ := readValue_int.mp h
    exact (readVarint_length hread).le
  · cases h
    simp
  · obtain ⟨n, content, hread, h⟩ := readValue_delimited.mp h
    have hlen := readVarint_length hread
    cases h
    rw [List.length_drop]
    omega
  · cases h
    simp

/-- A round reads a key and then a value. -/
theorem readField_eq_ok_iff {data rest : Bytes} {field : WireField} :
    readField data = .ok (field, rest) ↔
      ∃ key data', readVarint data = .ok (key, data') ∧
        readValue (key % 8) data' = .ok (field.value, rest) ∧
        field = ⟨key / 8, key % 8, field.value⟩ := by
  rw [readField, bind_eq_ok]
  constructor
  · rintro ⟨⟨key, data'⟩, hkey, h⟩
    obtain ⟨⟨value, rest⟩, hvalue, h⟩ := bind_eq_ok.mp h
    cases h
    rw [show key &&& 7 = key % 8 from Nat.and_two_pow_sub_one_eq_mod key 3] at hvalue
    refine ⟨key, data', hkey, hvalue, ?_⟩
    rw [Nat.shiftRight_eq_div_pow]
    simp only [show key &&& 7 = key % 8 from Nat.and_two_pow_sub_one_eq_mod key 3]
  · rintro ⟨key, data', hkey, hvalue, hfield⟩
    have hwire : key &&& 7 = key % 8 := Nat.and_two_pow_sub_one_eq_mod key 3
    refine ⟨(key, data'), hkey, ?_⟩
    simp only [hwire]
    rw [hvalue, ok_bind, Nat.shiftRight_eq_div_pow]
    exact congrArg (fun f => Except.ok (f, rest)) hfield.symm

theorem readField_length {data rest : Bytes} {field : WireField}
    (h : readField data = .ok (field, rest)) : rest.length < data.length := by
  obtain ⟨key, data', hkey, hvalue, -⟩ := readField_eq_ok_iff.mp h
  exact (readValue_length hvalue).trans_lt (readVarint_length hkey)

/-- `protobuf_fields`. -/
def protobufFields (data : Bytes) : Except ProtobufError (List WireField) :=
  if data = [] then .ok []
  else
    match _h : readField data with
    | .error error => .error error
    | .ok (field, rest) => (protobufFields rest).map (field :: ·)
termination_by data.length
decreasing_by exact readField_length _h

theorem protobufFields_nil : protobufFields [] = .ok [] := by
  rw [protobufFields, if_pos rfl]

theorem protobufFields_error {data : Bytes} (hne : data ≠ []) {error : ProtobufError}
    (h : readField data = .error error) : protobufFields data = .error error := by
  rw [protobufFields, if_neg hne]
  split
  · next e he => rw [h] at he; cases he; rfl
  · next f rest hf => rw [h] at hf; cases hf

theorem protobufFields_ok {data rest : Bytes} {field : WireField}
    (h : readField data = .ok (field, rest)) :
    protobufFields data = (protobufFields rest).map (field :: ·) := by
  have hne : data ≠ [] := by
    rintro rfl
    exact absurd (readField_length h) (by simp)
  rw [protobufFields, if_neg hne]
  split
  · next e he => rw [h] at he; cases he
  · next f rest' hf => rw [h] at hf; cases hf; rfl

/-! ## Fields that are encoded, and fields that are cut off -/

/-- The bytes end in the payload of a field. -/
inductive CutField : Bytes → Prop where
  | fixed64 {key rest : Bytes} {k : ℕ} (hkey : Varint key k) (hwire : k % 8 = 1)
      (h : rest.length < 8) : CutField (key ++ rest)
  | delimited {key size rest : Bytes} {k n : ℕ} (hkey : Varint key k) (hwire : k % 8 = 2)
      (hsize : Varint size n) (h : rest.length < n) : CutField (key ++ (size ++ rest))
  | fixed32 {key rest : Bytes} {k : ℕ} (hkey : Varint key k) (hwire : k % 8 = 5)
      (h : rest.length < 4) : CutField (key ++ rest)

/-- The bytes end in the payload of a field that comes after whole ones. -/
inductive CutPayload : Bytes → Prop where
  | here {data : Bytes} (h : CutField data) : CutPayload data
  | behind {bytes rest : Bytes} {field : WireField} (hfield : EncodedField bytes field)
      (h : CutPayload rest) : CutPayload (bytes ++ rest)

/-- A value that is there in full is read. -/
theorem readValue_of_payload {wire : ℕ} {payload : Bytes} {value : Value}
    (h : Payload wire payload value) (rest : Bytes) :
    readValue wire (payload ++ rest) = .ok (value, rest) := by
  cases h with
  | @varint _ n h => exact readValue_int.mpr ⟨n, readVarint_of_varint h rest, rfl⟩
  | fixed64 h => rw [readValue_fixed64, slice, List.take_left' h, List.drop_left' h]
  | @delimited size content h =>
      rw [List.append_assoc]
      refine readValue_delimited.mpr ⟨_, content ++ rest, readVarint_of_varint h _, ?_⟩
      rw [slice, List.take_left, List.drop_left]
  | fixed32 h => rw [readValue_fixed32, slice, List.take_left' h, List.drop_left' h]

/-- **A field that is encoded is read.** -/
theorem readField_of_encoded {bytes : Bytes} {field : WireField} (h : EncodedField bytes field)
    (rest : Bytes) : readField (bytes ++ rest) = .ok (field, rest) := by
  cases h with
  | @mk key payload k value hkey hpayload =>
      rw [List.append_assoc]
      exact readField_eq_ok_iff.mpr ⟨k, payload ++ rest, readVarint_of_varint hkey _,
        readValue_of_payload hpayload rest, rfl⟩

/-- What is read is encoded or cut off. -/
theorem readField_cases {data rest : Bytes} {field : WireField}
    (h : readField data = .ok (field, rest)) :
    (∃ bytes, data = bytes ++ rest ∧ EncodedField bytes field) ∨ CutField data := by
  obtain ⟨k, data', hreadKey, hvalue, hfield⟩ := readField_eq_ok_iff.mp h
  obtain ⟨key, rfl, hkey⟩ := readVarint_eq_ok_iff.mp hreadKey
  have hwhole : ∀ payload, data' = payload ++ rest → Payload (k % 8) payload field.value →
      ∃ bytes, key ++ data' = bytes ++ rest ∧ EncodedField bytes field := by
    intro payload hdata hpayload
    refine ⟨key ++ payload, by rw [hdata, List.append_assoc], ?_⟩
    rw [hfield]
    exact .mk hkey hpayload
  rcases wire_of_readValue hvalue with hwire | hwire | hwire | hwire <;> rw [hwire] at hvalue hwhole
  · obtain ⟨n, hread, hn⟩ := readValue_int.mp hvalue
    obtain ⟨payload, hdata, hvarint⟩ := readVarint_eq_ok_iff.mp hread
    exact .inl (hwhole payload hdata (hn ▸ .varint hvarint))
  · by_cases hlen : data'.length < 8
    · exact .inr (.fixed64 hkey hwire hlen)
    · rw [readValue_fixed64, slice, Except.ok.injEq, Prod.mk.injEq] at hvalue
      obtain ⟨hv, rfl⟩ := hvalue
      refine .inl (hwhole (data'.take 8) (List.take_append_drop 8 data').symm ?_)
      rw [← hv]
      exact .fixed64 (by rw [List.length_take]; omega)
  · obtain ⟨n, content, hread, hslice⟩ := readValue_delimited.mp hvalue
    obtain ⟨size, rfl, hsize⟩ := readVarint_eq_ok_iff.mp hread
    by_cases hlen : content.length < n
    · exact .inr (.delimited hkey hwire hsize hlen)
    · rw [slice, Prod.mk.injEq] at hslice
      obtain ⟨hv, rfl⟩ := hslice
      refine .inl (hwhole (size ++ content.take n) ?_ ?_)
      · rw [List.append_assoc, List.take_append_drop]
      · have hn : (content.take n).length = n := by
          rw [List.length_take]
          omega
        rw [hv]
        exact .delimited (by rwa [hn])
  · by_cases hlen : data'.length < 4
    · exact .inr (.fixed32 hkey hwire hlen)
    · rw [readValue_fixed32, slice, Except.ok.injEq, Prod.mk.injEq] at hvalue
      obtain ⟨hv, rfl⟩ := hvalue
      refine .inl (hwhole (data'.take 4) (List.take_append_drop 4 data').symm ?_)
      rw [← hv]
      exact .fixed32 (by rw [List.length_take]; omega)

/-- A field that is cut off is read too, and nothing is left. -/
theorem readField_of_cut {data : Bytes} (h : CutField data) :
    ∃ field, readField data = .ok (field, []) := by
  cases h with
  | @fixed64 key rest k hkey hwire h =>
      refine ⟨⟨k / 8, k % 8, .bytes (rest.take 8)⟩, readField_eq_ok_iff.mpr ⟨k, rest,
        readVarint_of_varint hkey rest, ?_, rfl⟩⟩
      rw [hwire, readValue_fixed64, slice, List.drop_eq_nil_of_le (by omega)]
  | @delimited key size rest k n hkey hwire hsize h =>
      refine ⟨⟨k / 8, k % 8, .bytes (rest.take n)⟩, readField_eq_ok_iff.mpr ⟨k, size ++ rest,
        readVarint_of_varint hkey _, ?_, rfl⟩⟩
      rw [hwire]
      refine readValue_delimited.mpr ⟨n, rest, readVarint_of_varint hsize rest, ?_⟩
      rw [slice, List.drop_eq_nil_of_le (by omega)]
  | @fixed32 key rest k hkey hwire h =>
      refine ⟨⟨k / 8, k % 8, .bytes (rest.take 4)⟩, readField_eq_ok_iff.mpr ⟨k, rest,
        readVarint_of_varint hkey rest, ?_, rfl⟩⟩
      rw [hwire, readValue_fixed32, slice, List.drop_eq_nil_of_le (by omega)]

/-- Bytes that end in a payload do not begin with a whole field. -/
theorem not_encodedField_of_cut {bytes rest : Bytes} {field : WireField}
    (hcut : CutField (bytes ++ rest)) (hfield : EncodedField bytes field) : False := by
  cases hfield with
  | @mk key payload k value hkey hpayload =>
      have hread := readVarint_of_varint hkey (payload ++ rest)
      rw [← List.append_assoc] at hread
      generalize hdata : key ++ payload ++ rest = data at hread hcut
      cases hcut with
      | fixed64 hkey' hwire h =>
          rw [readVarint_of_varint hkey'] at hread
          cases hread
          rw [hwire] at hpayload
          cases hpayload with
          | fixed64 hlen =>
              rw [List.length_append] at h
              omega
      | @delimited key' size' rest' _ n hkey' hwire hsize h =>
          rw [readVarint_of_varint hkey', Except.ok.injEq, Prod.mk.injEq] at hread
          obtain ⟨rfl, hrest⟩ := hread
          rw [hwire] at hpayload
          cases hpayload with
          | @delimited size content hlen =>
              have hsizes := readVarint_of_varint hsize rest'
              rw [hrest, List.append_assoc, readVarint_of_varint hlen] at hsizes
              cases hsizes
              rw [List.length_append] at h
              omega
      | fixed32 hkey' hwire h =>
          rw [readVarint_of_varint hkey'] at hread
          cases hread
          rw [hwire] at hpayload
          cases hpayload with
          | fixed32 hlen =>
              rw [List.length_append] at h
              omega

/-! ## Messages -/

/-- **`protobuf_fields` inverts the encoding.** -/
theorem protobufFields_of_encoded {data : Bytes} {fields : List WireField}
    (h : Encoded data fields) : protobufFields data = .ok fields := by
  induction h with
  | nil => exact protobufFields_nil
  | @cons bytes rest field fields h _ ih =>
      rw [protobufFields_ok (readField_of_encoded h rest), ih]
      rfl

/-- What is returned is encoded, if no payload is cut off. -/
theorem encoded_of_protobufFields : ∀ (n : ℕ) {data : Bytes} {fields : List WireField},
    data.length ≤ n → ¬CutPayload data → protobufFields data = .ok fields →
      Encoded data fields := by
  intro n
  induction n with
  | zero =>
      intro data fields hn _ h
      obtain rfl := List.length_eq_zero_iff.mp (Nat.le_zero.mp hn)
      rw [protobufFields_nil] at h
      cases h
      exact .nil
  | succ n ih =>
      intro data fields hn hcut h
      by_cases hne : data = []
      · subst hne
        rw [protobufFields_nil] at h
        cases h
        exact .nil
      · cases hread : readField data with
        | error error =>
            rw [protobufFields_error hne hread] at h
            cases h
        | ok result =>
            obtain ⟨field, rest⟩ := result
            rw [protobufFields_ok hread] at h
            rcases readField_cases hread with ⟨bytes, rfl, hfield⟩ | hcutField
            · have hlen := readField_length hread
              cases hrest : protobufFields rest with
              | error error =>
                  rw [hrest] at h
                  cases h
              | ok fields' =>
                  rw [hrest] at h
                  cases h
                  exact .cons hfield
                    (ih (by omega) (fun hcutRest => hcut (.behind hfield hcutRest)) hrest)
            · exact absurd (.here hcutField) hcut

/-- Bytes that end in a payload encode no fields. -/
theorem not_encoded_of_cutPayload {data : Bytes} (h : CutPayload data) :
    ∀ fields, ¬Encoded data fields := by
  induction h with
  | @here data h =>
      intro fields henc
      cases henc with
      | nil =>
          obtain ⟨field, hread⟩ := readField_of_cut h
          exact absurd (readField_length hread) (by simp)
      | cons hfield _ => exact not_encodedField_of_cut h hfield
  | @behind bytes rest field hfield _ ih =>
      intro fields henc
      have hread := readField_of_encoded hfield rest
      generalize hdata : bytes ++ rest = data at hread henc
      cases henc with
      | nil => exact absurd (readField_length hread) (by simp)
      | cons hfield' hrest =>
          rw [readField_of_encoded hfield'] at hread
          cases hread
          exact ih _ hrest

/-- They are read all the same. -/
theorem protobufFields_of_cutPayload {data : Bytes} (h : CutPayload data) :
    ∃ fields, protobufFields data = .ok fields := by
  induction h with
  | here h =>
      obtain ⟨field, hread⟩ := readField_of_cut h
      refine ⟨[field], ?_⟩
      rw [protobufFields_ok hread, protobufFields_nil]
      rfl
  | @behind bytes rest field hfield _ ih =>
      obtain ⟨fields, hfields⟩ := ih
      refine ⟨field :: fields, ?_⟩
      rw [protobufFields_ok (readField_of_encoded hfield rest), hfields]
      rfl

/-- Fields are returned if the bytes encode exactly these, and otherwise a `ValueError` is
raised. -/
def FieldsRight (data : Bytes) : Prop :=
  match protobufFields data with
  | .ok fields => Encoded data fields
  | .error _ => ∀ fields, ¬Encoded data fields

end AlderpointDNS.Analytics
