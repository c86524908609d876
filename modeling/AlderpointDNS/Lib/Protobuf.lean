import Mathlib.Algebra.Order.Ring.Nat
import Mathlib.Tactic.Ring

/-!
# The wire format of protocol buffers

A message is a sequence of fields; a field is a key and a payload.  The key gives the number of the
field and, in its last three bits, the wire type, and the wire type says how the payload is
delimited.  Keys, numbers and lengths are varints: seven bits in each byte, the lowest ones first,
and the eighth bit is set in every byte but the last, which is the tenth at most.

* `Base128`, `Varint`, `Payload`, `Encoded` — which bytes encode what;
* `encodeVarint`, `Message.encode` — the shortest encoding of a message;
* **`encoded_encode`** — it is one.
-/

namespace Protobuf

/-! ## Varints -/

/-- Bytes that end a number, and the number. -/
inductive Base128 : List UInt8 → ℕ → Prop where
  | last {byte : UInt8} (h : byte.toNat < 128) : Base128 [byte] byte.toNat
  | more {byte : UInt8} {bytes : List UInt8} {n : ℕ} (h : ¬byte.toNat < 128)
      (hn : Base128 bytes n) : Base128 (byte :: bytes) (byte.toNat % 128 + 128 * n)

/-- A number in at most ten bytes. -/
structure Varint (bytes : List UInt8) (n : ℕ) : Prop where
  digits : Base128 bytes n
  short : bytes.length ≤ 10

/-- The shortest encoding of a number. -/
def encodeVarint (n : ℕ) : List UInt8 :=
  if n < 128 then [UInt8.ofNat n] else UInt8.ofNat (n % 128 + 128) :: encodeVarint (n / 128)
termination_by n
decreasing_by omega

theorem base128_encodeVarint (n : ℕ) : Base128 (encodeVarint n) n := by
  induction n using Nat.strongRecOn with
  | ind n ih =>
      rw [encodeVarint]
      split_ifs with h
      · have hbyte : (UInt8.ofNat n).toNat = n := UInt8.toNat_ofNat_of_lt' (Nat.lt_trans h (by decide))
        have hlast := @Base128.last (UInt8.ofNat n) (by omega)
        rwa [hbyte] at hlast
      · have hbyte : (UInt8.ofNat (n % 128 + 128)).toNat = n % 128 + 128 :=
          UInt8.toNat_ofNat_of_lt' (show n % 128 + 128 < 256 by omega)
        have hmore := @Base128.more (UInt8.ofNat (n % 128 + 128)) _ _ (by omega)
          (ih (n / 128) (by omega))
        have hvalue : (UInt8.ofNat (n % 128 + 128)).toNat % 128 + 128 * (n / 128) = n := by omega
        rwa [hvalue] at hmore

theorem length_encodeVarint_le {n : ℕ} : ∀ {k : ℕ}, n < 128 ^ (k + 1) →
    (encodeVarint n).length ≤ k + 1 := by
  induction n using Nat.strongRecOn with
  | ind n ih =>
      intro k h
      rw [encodeVarint]
      split_ifs with hsmall
      · simp
      · cases k with
        | zero => omega
        | succ k =>
            have hrest : n / 128 < 128 ^ (k + 1) :=
              Nat.div_lt_of_lt_mul (by rwa [Nat.pow_succ'] at h)
            have hlen := ih (n / 128) (by omega) hrest
            rw [List.length_cons]
            omega

/-- **What fits into ten bytes is encoded as a varint.** -/
theorem varint_encodeVarint {n : ℕ} (h : n < 2 ^ 64) : Varint (encodeVarint n) n :=
  ⟨base128_encodeVarint n, length_encodeVarint_le (k := 9) (h.trans (by decide))⟩

/-! ## Fields -/

/-- What is read out of a payload. -/
inductive Value where
  | int (n : ℕ)
  | bytes (content : List UInt8)
  deriving DecidableEq

structure WireField where
  number : ℕ
  wire : ℕ
  value : Value
  deriving DecidableEq

/-- The payload of a field, by its wire type. -/
inductive Payload : ℕ → List UInt8 → Value → Prop where
  | varint {bytes : List UInt8} {n : ℕ} (h : Varint bytes n) : Payload 0 bytes (.int n)
  | fixed64 {bytes : List UInt8} (h : bytes.length = 8) : Payload 1 bytes (.bytes bytes)
  | delimited {size content : List UInt8} (h : Varint size content.length) :
      Payload 2 (size ++ content) (.bytes content)
  | fixed32 {bytes : List UInt8} (h : bytes.length = 4) : Payload 5 bytes (.bytes bytes)

/-- The bytes of one field. -/
inductive EncodedField : List UInt8 → WireField → Prop where
  | mk {key payload : List UInt8} {k : ℕ} {value : Value} (hkey : Varint key k)
      (hpayload : Payload (k % 8) payload value) :
      EncodedField (key ++ payload) ⟨k / 8, k % 8, value⟩

/-- The bytes of a list of fields. -/
inductive Encoded : List UInt8 → List WireField → Prop where
  | nil : Encoded [] []
  | cons {bytes rest : List UInt8} {field : WireField} {fields : List WireField}
      (h : EncodedField bytes field) (hrest : Encoded rest fields) :
      Encoded (bytes ++ rest) (field :: fields)

/-! ## Messages that can be written -/

/-- What a field can hold. -/
inductive Content where
  | varint (n : Fin (2 ^ 64))
  | fixed64 (bytes : List UInt8) (h : bytes.length = 8)
  | delimited (bytes : List UInt8) (h : bytes.length < 2 ^ 64)
  | fixed32 (bytes : List UInt8) (h : bytes.length = 4)

def Content.wire : Content → ℕ
  | .varint _ => 0
  | .fixed64 _ _ => 1
  | .delimited _ _ => 2
  | .fixed32 _ _ => 5

def Content.value : Content → Value
  | .varint n => .int n
  | .fixed64 bytes _ => .bytes bytes
  | .delimited bytes _ => .bytes bytes
  | .fixed32 bytes _ => .bytes bytes

def Content.encode : Content → List UInt8
  | .varint n => encodeVarint n
  | .fixed64 bytes _ => bytes
  | .delimited bytes _ => encodeVarint bytes.length ++ bytes
  | .fixed32 bytes _ => bytes

theorem Content.payload (content : Content) :
    Payload content.wire content.encode content.value := by
  cases content with
  | varint n => exact .varint (varint_encodeVarint n.isLt)
  | fixed64 bytes h => exact .fixed64 h
  | delimited bytes h => exact .delimited (varint_encodeVarint h)
  | fixed32 bytes h => exact .fixed32 h

/-- Fields with their numbers; a key has 64 bits. -/
abbrev Message := List (Fin (2 ^ 61) × Content)

def fieldKey (field : Fin (2 ^ 61) × Content) : ℕ := field.1 * 8 + field.2.wire

/-- What is read out of a field. -/
def toField (field : Fin (2 ^ 61) × Content) : WireField := ⟨field.1, field.2.wire, field.2.value⟩

def encodeField (field : Fin (2 ^ 61) × Content) : List UInt8 :=
  encodeVarint (fieldKey field) ++ field.2.encode

def Message.encode (message : Message) : List UInt8 := message.flatMap encodeField

theorem Content.wire_lt (content : Content) : content.wire < 8 := by
  cases content <;> simp [Content.wire]

theorem encodedField_encodeField (field : Fin (2 ^ 61) × Content) :
    EncodedField (encodeField field) (toField field) := by
  obtain ⟨number, content⟩ := field
  have hwire := content.wire_lt
  have hnumber := number.isLt
  have hmod : fieldKey (number, content) % 8 = content.wire := by
    simp only [fieldKey]
    omega
  have hdiv : fieldKey (number, content) / 8 = number := by
    simp only [fieldKey]
    omega
  have hfield := EncodedField.mk (varint_encodeVarint (n := fieldKey (number, content)) (by
    simp only [fieldKey]
    omega)) (hmod ▸ content.payload)
  rwa [hmod, hdiv] at hfield

/-- **The encoding of a message encodes its fields.** -/
theorem encoded_encode (message : Message) : Encoded message.encode (message.map toField) := by
  induction message with
  | nil => exact .nil
  | cons field message ih => exact .cons (encodedField_encodeField field) ih

end Protobuf
