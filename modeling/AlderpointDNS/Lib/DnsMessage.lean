import AlderpointDNS.Lib.Numerals

/-!
# DNS messages

The format of DNS messages on the wire.  A name is a list of labels that ends with the root or with
a compression pointer, a record says how long its data is, and a message counts its questions and
its records.  What cannot be written in this format cannot be built here.

* `value_bigEndian` — the bytes of a number are read back.
* `terminator_pointer` — a pointer is told from the length of a label by its first byte.
* `Message.encode` — the bytes of a message.
-/

namespace DnsMessage

open Numerals

/-! ## Numbers -/

instance neZeroSize : NeZero 65536 := ⟨by decide⟩

/-- The `k` bytes of a number, the most significant one first. -/
def bigEndian (k n : ℕ) : List UInt8 := (digits 256 k n).map UInt8.ofNat

@[simp] theorem length_bigEndian (k n : ℕ) : (bigEndian k n).length = k := by
  simp [bigEndian]

/-- **The bytes of a number are read back.** -/
theorem value_bigEndian {k n : ℕ} (h : n < 256 ^ k) :
    value 256 0 ((bigEndian k n).map UInt8.toNat) = n := by
  have hbytes : (bigEndian k n).map UInt8.toNat = digits 256 k n := by
    rw [bigEndian, List.map_map]
    refine (List.map_congr_left fun d hd => ?_).trans (List.map_id _)
    have hlt : d < 256 := lt_of_mem_digits (by omega) hd
    show (UInt8.ofNat d).toNat = d
    exact UInt8.toNat_ofNat_of_lt' hlt
  rw [hbytes, value_digits, Nat.zero_mul, Nat.zero_add, Nat.mod_eq_of_lt h]

/-! ## Names -/

/-- A label of 1 to 63 bytes. -/
structure Label where
  bytes : List UInt8
  pos : 0 < bytes.length
  le : bytes.length ≤ 63

def Label.encode (label : Label) : List UInt8 := UInt8.ofNat label.bytes.length :: label.bytes

theorem Label.toNat_length (label : Label) :
    (UInt8.ofNat label.bytes.length).toNat = label.bytes.length := by
  have hle := label.le
  exact UInt8.toNat_ofNat_of_lt' (show label.bytes.length < 256 by omega)

/-- A name: its labels, and the offset that the rest of it is found at if it is compressed. -/
structure Name where
  labels : List Label
  pointer : Option (Fin 16384)

/-- What a name ends with. -/
def terminator : Option (Fin 16384) → List UInt8
  | none => [0]
  | some target => bigEndian 2 (49152 + target)

def Name.encode (name : Name) : List UInt8 :=
  name.labels.flatMap Label.encode ++ terminator name.pointer

/-- A pointer begins with two bits that the length of a label does not have. -/
theorem terminator_pointer (target : Fin 16384) :
    ∃ b c : UInt8, terminator (some target) = [b, c] ∧ 192 ≤ b.toNat := by
  refine ⟨_, _, rfl, ?_⟩
  have htarget := target.isLt
  have hlt : (49152 + (target : ℕ)) / 256 ^ 1 % 256 < 256 := by omega
  show 192 ≤ (UInt8.ofNat ((49152 + (target : ℕ)) / 256 ^ 1 % 256)).toNat
  rw [UInt8.toNat_ofNat_of_lt' hlt]
  omega

/-! ## Records -/

/-- The data of a record, with its type. -/
inductive RecordData where
  | a (ip : Fin (2 ^ 32))
  | aaaa (ip : Fin (2 ^ 128))
  | other (rtype : Fin 65536) (bytes : List UInt8) (notA : rtype ≠ 1) (notAaaa : rtype ≠ 28)
      (short : bytes.length < 65536)

def RecordData.type : RecordData → ℕ
  | .a _ => 1
  | .aaaa _ => 28
  | .other rtype _ _ _ _ => rtype

def RecordData.encode : RecordData → List UInt8
  | .a ip => bigEndian 4 ip
  | .aaaa ip => bigEndian 16 ip
  | .other _ bytes _ _ _ => bytes

theorem RecordData.type_lt (data : RecordData) : data.type < 65536 := by
  cases data with
  | a ip => show 1 < 65536; omega
  | aaaa ip => show 28 < 65536; omega
  | other rtype bytes notA notAaaa short => exact rtype.isLt

theorem RecordData.length_lt (data : RecordData) : data.encode.length < 65536 := by
  cases data with
  | a ip => simp [encode]
  | aaaa ip => simp [encode]
  | other rtype bytes notA notAaaa short => exact short

structure ResourceRecord where
  name : Name
  rclass : Fin 65536
  ttl : Fin (2 ^ 32)
  data : RecordData

/-- The ten bytes between the name and the data. -/
def ResourceRecord.fixed (record : ResourceRecord) : List UInt8 :=
  bigEndian 2 record.data.type ++ bigEndian 2 record.rclass ++ bigEndian 4 record.ttl ++
    bigEndian 2 record.data.encode.length

def ResourceRecord.encode (record : ResourceRecord) : List UInt8 :=
  record.name.encode ++ record.fixed ++ record.data.encode

@[simp] theorem ResourceRecord.length_fixed (record : ResourceRecord) :
    record.fixed.length = 10 := by
  simp [fixed]

/-! ## Messages -/

structure Question where
  name : Name
  qtype : Fin 65536
  qclass : Fin 65536

def Question.encode (question : Question) : List UInt8 :=
  question.name.encode ++ (bigEndian 2 question.qtype ++ bigEndian 2 question.qclass)

/-- A message; `rest` holds the records behind the answers. -/
structure Message where
  id : Fin 65536
  flags : Fin 65536
  questions : List Question
  answers : List ResourceRecord
  nscount : Fin 65536
  arcount : Fin 65536
  rest : List UInt8
  questions_lt : questions.length < 65536
  answers_lt : answers.length < 65536

/-- `NOERROR` is 0. -/
def Message.rcode (message : Message) : ℕ := (message.flags : ℕ) &&& 0x000F

/-- The QR bit is set. -/
def Message.IsResponse (message : Message) : Prop := (message.flags : ℕ) &&& 0x8000 ≠ 0

instance (message : Message) : Decidable message.IsResponse := inferInstanceAs (Decidable (_ ≠ _))

def Message.header (message : Message) : List UInt8 :=
  bigEndian 2 message.id ++ bigEndian 2 message.flags ++ bigEndian 2 message.questions.length ++
    bigEndian 2 message.answers.length ++ bigEndian 2 message.nscount ++
    bigEndian 2 message.arcount

@[simp] theorem Message.length_header (message : Message) : message.header.length = 12 := by
  simp [header]

def Message.encode (message : Message) : List UInt8 :=
  message.header ++ (message.questions.flatMap Question.encode ++
    (message.answers.flatMap ResourceRecord.encode ++ message.rest))

end DnsMessage
