import AlderpointDNS.Lib.Ipaddress
import AlderpointDNS.Lib.Numerals
import AlderpointDNS.Lib.Results

/-!
# DNS responses

The decoder of the responses that the direct probe of a resolver gets: `_validate_dns_response`
checks the header and the questions, and `_extract_dns_addresses` reads the addresses of the
answers.  A packet is what a resolver has sent, any list of bytes.

What Python raises is an `Exception`; `byteAt`, `unpackHeader`, `unpackAnswer` and `ipAddressOfBytes`
raise where the indexing, `struct.unpack` and `ipaddress.ip_address` do.

* `skipDnsName_cases` — skipping a name ends behind the name, or with `UpstreamDNSError`;
* `validateDnsResponse_graceful` — the first function raises nothing else;
* **`responses_graceful_iff`** — the second one raises nothing else exactly when no address of an
  answer is cut off by the end of the packet.
* `half_address` — two bytes of an IPv4 address.
-/

namespace AlderpointDNS.Upstream

open Ipaddress Numerals Results

/-! ## What Python provides -/

/-- The exceptions of the decoder, and of what it calls. -/
inductive Exception where
  /-- `UpstreamDNSError` -/
  | upstreamDNS (message : String)
  /-- `IndexError` -/
  | index
  /-- `struct.error` -/
  | struct
  /-- a plain `ValueError` -/
  | value
  deriving DecidableEq

/-- `packet[offset]`. -/
def byteAt (packet : List UInt8) (offset : ℕ) : Except Exception ℕ :=
  match packet[offset]? with
  | some b => .ok b.toNat
  | none => .error .index

/-- The number in the `k` bytes from `i` on, the most significant one first. -/
def number (bytes : List UInt8) (i k : ℕ) : ℕ :=
  value 256 0 (((bytes.drop i).take k).map UInt8.toNat)

/-- The fields of a header that are read. -/
structure DnsHeader where
  rid : ℕ
  flags : ℕ
  qdcount : ℕ
  ancount : ℕ

/-- `struct.unpack("!HHHHHH", …)`. -/
def unpackHeader (bytes : List UInt8) : Except Exception DnsHeader :=
  if bytes.length = 12 then
    .ok ⟨number bytes 0 2, number bytes 2 2, number bytes 4 2, number bytes 6 2⟩
  else .error .struct

/-- `struct.unpack("!HHIH", …)`: the type and the length of the data. -/
def unpackAnswer (bytes : List UInt8) : Except Exception (ℕ × ℕ) :=
  if bytes.length = 10 then .ok (number bytes 0 2, number bytes 8 2) else .error .struct

/-- `ipaddress.ip_address` of packed bytes. -/
def ipAddressOfBytes (bytes : List UInt8) : Except Exception IpAddress :=
  if bytes.length = 4 then .ok (.v4 (number bytes 0 4))
  else if bytes.length = 16 then .ok (.v6 (number bytes 0 16) none)
  else .error .value

/-! ## The decoder -/

/-- `_skip_dns_name`. -/
def skipDnsName (packet : List UInt8) (offset : ℕ) : Except Exception ℕ :=
  if packet.length ≤ offset then .error (.upstreamDNS "truncated DNS response")
  else do
    let length ← byteAt packet offset
    if length &&& 0xC0 = 0xC0 then return offset + 2
    else if length = 0 then return offset + 1
    else skipDnsName packet (offset + 1 + length)
termination_by packet.length - offset

/-- The loop of `_validate_dns_response` over the questions. -/
def checkQuestions (packet : List UInt8) : ℕ → ℕ → Except Exception ℕ
  | 0, offset => .ok offset
  | n + 1, offset => do
      let offset ← skipDnsName packet offset
      if packet.length < offset + 4 then .error (.upstreamDNS "truncated DNS question")
      else checkQuestions packet n (offset + 4)

/-- `_validate_dns_response`. -/
def validateDnsResponse (packet : List UInt8) (queryId : ℤ) (requireAnswer : Bool) :
    Except Exception Unit :=
  if packet.length < 12 then .error (.upstreamDNS "truncated DNS response")
  else do
    let header ← unpackHeader (packet.take 12)
    if (header.rid : ℤ) ≠ queryId then .error (.upstreamDNS "mismatched DNS response")
    else if header.flags &&& 0x8000 = 0 then
      .error (.upstreamDNS "DNS response bit was not set")
    else if header.flags &&& 0x000F ≠ 0 then
      .error (.upstreamDNS s!"DNS response rcode {header.flags &&& 0x000F}")
    else if requireAnswer && header.ancount < 1 then
      .error (.upstreamDNS "DNS response contained no answers")
    else
      discard (checkQuestions packet header.qdcount 12)

/-- The loop of `_extract_dns_addresses` over the questions. -/
def skipQuestions (packet : List UInt8) : ℕ → ℕ → Except Exception ℕ
  | 0, offset => .ok offset
  | n + 1, offset => do
      let offset ← skipDnsName packet offset
      skipQuestions packet n (offset + 4)

/-- An answer holds an address of the type that was asked for. -/
def isAddress (qtype : ℤ) (rtype rdlength : ℕ) : Bool :=
  (rtype : ℤ) = qtype && (qtype = 1 && rdlength = 4 || qtype = 28 && rdlength = 16)

/-- The last statement of the loop over the answers. -/
def appendAddress (qtype : ℤ) (rtype rdlength : ℕ) (rdata : List UInt8)
    (addresses : List Text.Str) : Except Exception (List Text.Str) :=
  if isAddress qtype rtype rdlength then do
    let address ← ipAddressOfBytes rdata
    return addresses ++ [address.str]
  else return addresses

/-- The loop over the answers. -/
def answerAddresses (packet : List UInt8) (qtype : ℤ) :
    ℕ → ℕ → List Text.Str → Except Exception (List Text.Str)
  | 0, _, addresses => .ok addresses
  | n + 1, offset, addresses => do
      let offset ← skipDnsName packet offset
      if packet.length < offset + 10 then .error (.upstreamDNS "truncated DNS answer")
      else do
        let (rtype, rdlength) ← unpackAnswer ((packet.drop offset).take 10)
        let addresses ← appendAddress qtype rtype rdlength
          ((packet.drop (offset + 10)).take rdlength) addresses
        answerAddresses packet qtype n (offset + 10 + rdlength) addresses

/-- `_extract_dns_addresses`. -/
def extractDnsAddresses (packet : List UInt8) (queryId qtype : ℤ) :
    Except Exception (List Text.Str) := do
  validateDnsResponse packet queryId false
  let header ← unpackHeader (packet.take 12)
  let offset ← skipQuestions packet header.qdcount 12
  answerAddresses packet qtype header.ancount offset []

/-! ## Where names and answers end -/

/-- A name that begins at the first offset is over at the second one.  It ends with a byte 0 or with
a compression pointer, whose second byte need not be there; other bytes are lengths of labels. -/
inductive NameEnds (packet : List UInt8) : ℕ → ℕ → Prop
  | pointer {o : ℕ} {b : UInt8} (hbyte : packet[o]? = some b) (hpointer : 192 ≤ b.toNat) :
      NameEnds packet o (o + 2)
  | root {o : ℕ} {b : UInt8} (hbyte : packet[o]? = some b) (hroot : b.toNat = 0) :
      NameEnds packet o (o + 1)
  | label {o o' : ℕ} {b : UInt8} (hbyte : packet[o]? = some b) (hpos : 0 < b.toNat)
      (hlabel : b.toNat < 192) (rest : NameEnds packet (o + 1 + b.toNat) o') :
      NameEnds packet o o'

/-- So many questions follow one another, all of them in the packet. -/
inductive QuestionsEnd (packet : List UInt8) : ℕ → ℕ → ℕ → Prop
  | nil {o : ℕ} : QuestionsEnd packet 0 o o
  | cons {n o o' stop : ℕ} (hname : NameEnds packet o o') (hinside : o' + 4 ≤ packet.length)
      (rest : QuestionsEnd packet n (o' + 4) stop) : QuestionsEnd packet (n + 1) o stop

/-- The type of the answer whose name ends at `o`. -/
def answerType (packet : List UInt8) (o : ℕ) : ℕ := number ((packet.drop o).take 10) 0 2

/-- The length of its data. -/
def answerLength (packet : List UInt8) (o : ℕ) : ℕ := number ((packet.drop o).take 10) 8 2

/-- So many answers follow one another; the data of the last one may be cut off. -/
inductive AnswersEnd (packet : List UInt8) : ℕ → ℕ → ℕ → Prop
  | nil {o : ℕ} : AnswersEnd packet 0 o o
  | cons {n o o' stop : ℕ} (hname : NameEnds packet o o') (hinside : o' + 10 ≤ packet.length)
      (rest : AnswersEnd packet n (o' + 10 + answerLength packet o') stop) :
      AnswersEnd packet (n + 1) o stop

/-- The answer whose name ends at `o` is an address of the type that was asked for, and the packet
ends before it does; what is left of it is no address of the other version. -/
structure CutAddress (packet : List UInt8) (qtype : ℤ) (o : ℕ) : Prop where
  inside : o + 10 ≤ packet.length
  isAddress : isAddress qtype (answerType packet o) (answerLength packet o) = true
  cut : packet.length < o + 10 + answerLength packet o
  left : packet.length ≠ o + 14

/-- The header of a response to the query, without an error code. -/
structure AcceptsHeader (packet : List UInt8) (queryId : ℤ) : Prop where
  length : 12 ≤ packet.length
  id : (number (packet.take 12) 0 2 : ℤ) = queryId
  response : number (packet.take 12) 2 2 &&& 0x8000 ≠ 0
  rcode : number (packet.take 12) 2 2 &&& 0x000F = 0

/-- A response to the query, with an address of an answer that is cut off. -/
def EndsInAddress (packet : List UInt8) (queryId qtype : ℤ) : Prop :=
  AcceptsHeader packet queryId ∧
    ∃ start, QuestionsEnd packet (number (packet.take 12) 4 2) 12 start ∧
      ∃ n < number (packet.take 12) 6 2, ∃ o o', AnswersEnd packet n start o ∧
        NameEnds packet o o' ∧ CutAddress packet qtype o'

/-! ## Skipping names -/

/-- Nothing but `UpstreamDNSError` is raised. -/
def Graceful {α : Type} (result : Except Exception α) : Prop :=
  ∀ e, result = .error e → ∃ message, e = .upstreamDNS message

theorem graceful_ok {α : Type} (a : α) : Graceful (.ok a : Except Exception α) :=
  fun _ h => by cases h

theorem graceful_upstreamDNS {α : Type} (message : String) :
    Graceful (.error (.upstreamDNS message) : Except Exception α) := fun e h => by
  cases h
  exact ⟨message, rfl⟩

theorem isPointer_iff : ∀ n < 256, (n &&& 0xC0 = 0xC0) ↔ 192 ≤ n := by decide +kernel

theorem skipDnsName_of_end {packet : List UInt8} {o : ℕ} (h : packet.length ≤ o) :
    skipDnsName packet o = .error (.upstreamDNS "truncated DNS response") := by
  rw [skipDnsName, if_pos h]

theorem skipDnsName_of_byte {packet : List UInt8} {o : ℕ} {b : UInt8}
    (h : packet[o]? = some b) : skipDnsName packet o =
      if 192 ≤ b.toNat then .ok (o + 2) else if b.toNat = 0 then .ok (o + 1)
      else skipDnsName packet (o + 1 + b.toNat) := by
  have hlt : o < packet.length := (List.getElem?_eq_some_iff.mp h).1
  have hpointer := isPointer_iff b.toNat (UInt8.toNat_lt b)
  rw [skipDnsName, if_neg (Nat.not_le.mpr hlt), byteAt, h]
  simp only [← hpointer]
  rfl

/-- **Skipping a name.** -/
theorem skipDnsName_cases (packet : List UInt8) (o : ℕ) :
    (∃ o', NameEnds packet o o' ∧ skipDnsName packet o = .ok o') ∨
      skipDnsName packet o = .error (.upstreamDNS "truncated DNS response") := by
  induction hn : packet.length - o using Nat.strong_induction_on generalizing o with
  | _ n ih =>
      cases hbyte : packet[o]? with
      | none => exact Or.inr (skipDnsName_of_end (List.getElem?_eq_none_iff.mp hbyte))
      | some b =>
          have hlt : o < packet.length := (List.getElem?_eq_some_iff.mp hbyte).1
          rw [skipDnsName_of_byte hbyte]
          split_ifs with hpointer hroot
          · exact Or.inl ⟨o + 2, .pointer hbyte hpointer, rfl⟩
          · exact Or.inl ⟨o + 1, .root hbyte hroot, rfl⟩
          · have hpos : 0 < b.toNat := Nat.pos_of_ne_zero hroot
            have hless : packet.length - (o + 1 + b.toNat) < n := by omega
            rcases ih _ hless (o + 1 + b.toNat) rfl with ⟨o', hname, hok⟩ | herror
            · exact Or.inl ⟨o', .label hbyte hpos (Nat.not_le.mp hpointer) hname, hok⟩
            · exact Or.inr herror

theorem skipDnsName_of_nameEnds {packet : List UInt8} {o o' : ℕ} (h : NameEnds packet o o') :
    skipDnsName packet o = .ok o' := by
  induction h with
  | pointer hbyte hpointer => rw [skipDnsName_of_byte hbyte, if_pos hpointer]
  | @root o b hbyte hroot =>
      have hpointer : ¬192 ≤ b.toNat := by omega
      rw [skipDnsName_of_byte hbyte, if_neg hpointer, if_pos hroot]
  | @label o o' b hbyte hpos hlabel rest ih =>
      rw [skipDnsName_of_byte hbyte, if_neg (Nat.not_le.mpr hlabel), if_neg (by omega), ih]

/-! ## Questions -/

theorem checkQuestions_of_questionsEnd {packet : List UInt8} {n o stop : ℕ}
    (h : QuestionsEnd packet n o stop) : checkQuestions packet n o = .ok stop := by
  induction h with
  | nil => rfl
  | @cons n o o' stop hname hinside rest ih =>
      rw [checkQuestions, skipDnsName_of_nameEnds hname]
      exact (if_neg (Nat.not_lt.mpr hinside)).trans ih

theorem skipQuestions_of_questionsEnd {packet : List UInt8} {n o stop : ℕ}
    (h : QuestionsEnd packet n o stop) : skipQuestions packet n o = .ok stop := by
  induction h with
  | nil => rfl
  | cons hname hinside rest ih =>
      rw [skipQuestions, skipDnsName_of_nameEnds hname]
      exact ih

theorem checkQuestions_cases (packet : List UInt8) (n o : ℕ) :
    (∃ stop, QuestionsEnd packet n o stop) ∨
      ∃ message, checkQuestions packet n o = .error (.upstreamDNS message) := by
  induction n generalizing o with
  | zero => exact Or.inl ⟨o, .nil⟩
  | succ n ih =>
      rcases skipDnsName_cases packet o with ⟨o', hname, hok⟩ | herror
      · by_cases hinside : packet.length < o' + 4
        · refine Or.inr ⟨"truncated DNS question", ?_⟩
          rw [checkQuestions, hok]
          exact if_pos hinside
        · rcases ih (o' + 4) with ⟨stop, hstop⟩ | ⟨message, herror⟩
          · exact Or.inl ⟨stop, .cons hname (Nat.not_lt.mp hinside) hstop⟩
          · refine Or.inr ⟨message, ?_⟩
            rw [checkQuestions, hok]
            exact (if_neg hinside).trans herror
      · refine Or.inr ⟨"truncated DNS response", ?_⟩
        rw [checkQuestions, herror]
        rfl

theorem unpackHeader_take {packet : List UInt8} (h : 12 ≤ packet.length) :
    unpackHeader (packet.take 12) = .ok ⟨number (packet.take 12) 0 2, number (packet.take 12) 2 2,
      number (packet.take 12) 4 2, number (packet.take 12) 6 2⟩ :=
  if_pos (List.length_take_of_le h)

/-- The response is accepted, or the error is an `UpstreamDNSError`. -/
theorem validateDnsResponse_cases (packet : List UInt8) (queryId : ℤ) (requireAnswer : Bool) :
    (AcceptsHeader packet queryId ∧ ∃ start,
      QuestionsEnd packet (number (packet.take 12) 4 2) 12 start) ∨
      ∃ message, validateDnsResponse packet queryId requireAnswer
        = .error (.upstreamDNS message) := by
  rw [validateDnsResponse]
  by_cases hlength : packet.length < 12
  · exact Or.inr ⟨_, if_pos hlength⟩
  · rw [if_neg hlength, unpackHeader_take (Nat.not_lt.mp hlength), ok_bind]
    split_ifs with hid hresponse hrcode hanswer
    · exact Or.inr ⟨_, rfl⟩
    · exact Or.inr ⟨_, rfl⟩
    · exact Or.inr ⟨_, rfl⟩
    · exact Or.inr ⟨_, rfl⟩
    · rcases checkQuestions_cases packet (number (packet.take 12) 4 2) 12 with
        hstop | ⟨message, herror⟩
      · exact Or.inl ⟨⟨Nat.not_lt.mp hlength, not_not.mp hid, hresponse, not_not.mp hrcode⟩, hstop⟩
      · refine Or.inr ⟨message, ?_⟩
        rw [herror]
        rfl

theorem validateDnsResponse_of_accepts {packet : List UInt8} {queryId : ℤ}
    (h : AcceptsHeader packet queryId) {start : ℕ}
    (hstart : QuestionsEnd packet (number (packet.take 12) 4 2) 12 start) :
    validateDnsResponse packet queryId false = .ok () := by
  rw [validateDnsResponse, if_neg (Nat.not_lt.mpr h.length), unpackHeader_take h.length, ok_bind,
    if_neg (not_not.mpr h.id), if_neg h.response, if_neg (not_not.mpr h.rcode), if_neg (by simp),
    checkQuestions_of_questionsEnd hstart]
  rfl

/-- **`_validate_dns_response` returns or raises `UpstreamDNSError`.** -/
theorem validateDnsResponse_graceful (packet : List UInt8) (queryId : ℤ) (requireAnswer : Bool) :
    Graceful (validateDnsResponse packet queryId requireAnswer) := by
  rw [validateDnsResponse]
  by_cases hlength : packet.length < 12
  · rw [if_pos hlength]
    exact graceful_upstreamDNS _
  · rw [if_neg hlength, unpackHeader_take (Nat.not_lt.mp hlength), ok_bind]
    split_ifs
    · exact graceful_upstreamDNS _
    · exact graceful_upstreamDNS _
    · exact graceful_upstreamDNS _
    · exact graceful_upstreamDNS _
    · rcases checkQuestions_cases packet (number (packet.take 12) 4 2) 12 with
        ⟨stop, hstop⟩ | ⟨message, herror⟩
      · rw [checkQuestions_of_questionsEnd hstop]
        exact graceful_ok _
      · rw [herror]
        exact graceful_upstreamDNS message

/-! ## Answers -/

theorem NameEnds.lt_length {packet : List UInt8} {o o' : ℕ} (h : NameEnds packet o o') :
    o < packet.length := by
  cases h with
  | pointer hbyte _ => exact (List.getElem?_eq_some_iff.mp hbyte).1
  | root hbyte _ => exact (List.getElem?_eq_some_iff.mp hbyte).1
  | label hbyte _ _ _ => exact (List.getElem?_eq_some_iff.mp hbyte).1

theorem AnswersEnd.lt_length {packet : List UInt8} {n o stop : ℕ}
    (h : AnswersEnd packet n o stop) (hstop : stop < packet.length) : o < packet.length := by
  cases h with
  | nil => exact hstop
  | cons hname _ _ => exact hname.lt_length

/-- The address that is read of an answer, unless it is cut off. -/
theorem readAddress_cases {packet : List UInt8} {qtype : ℤ} {o : ℕ} (hinside : o + 10 ≤ packet.length)
    (haddress : isAddress qtype (answerType packet o) (answerLength packet o) = true) :
    CutAddress packet qtype o ∧ ipAddressOfBytes
        ((packet.drop (o + 10)).take (answerLength packet o)) = .error .value ∨
      ¬CutAddress packet qtype o ∧ ∃ address, ipAddressOfBytes
        ((packet.drop (o + 10)).take (answerLength packet o)) = .ok address := by
  have hrdlength : answerLength packet o = 4 ∨ answerLength packet o = 16 := by
    simp only [isAddress, Bool.and_eq_true, Bool.or_eq_true, decide_eq_true_eq] at haddress
    exact haddress.2.imp And.right And.right
  have hleft : ((packet.drop (o + 10)).take (answerLength packet o)).length
      = min (answerLength packet o) (packet.length - (o + 10)) := by
    rw [List.length_take, List.length_drop]
  by_cases hcut : CutAddress packet qtype o
  · refine Or.inl ⟨hcut, ?_⟩
    have hshort := hcut.cut
    have hother := hcut.left
    rw [ipAddressOfBytes, hleft, if_neg (by omega), if_neg (by omega)]
  · refine Or.inr ⟨hcut, ?_⟩
    have hwhole : ¬packet.length < o + 10 + answerLength packet o ∨ packet.length = o + 14 := by
      by_contra h
      obtain ⟨hshort, hother⟩ := not_or.mp h
      exact hcut ⟨hinside, haddress, not_not.mp hshort, hother⟩
    rw [ipAddressOfBytes, hleft]
    split_ifs with hfour hsixteen
    · exact ⟨_, rfl⟩
    · exact ⟨_, rfl⟩
    · omega

/-- What one round of the loop over the answers comes to. -/
theorem answerAddresses_succ {packet : List UInt8} (qtype : ℤ) {o o' : ℕ}
    (hname : NameEnds packet o o') (hinside : o' + 10 ≤ packet.length) (n : ℕ)
    (addresses : List Text.Str) :
    CutAddress packet qtype o' ∧
        answerAddresses packet qtype (n + 1) o addresses = .error .value ∨
      ¬CutAddress packet qtype o' ∧ ∃ addresses', answerAddresses packet qtype (n + 1) o addresses
        = answerAddresses packet qtype n (o' + 10 + answerLength packet o') addresses' := by
  have hunpack : unpackAnswer ((packet.drop o').take 10)
      = .ok (answerType packet o', answerLength packet o') := by
    refine if_pos ?_
    rw [List.length_take, List.length_drop]
    omega
  rw [answerAddresses, skipDnsName_of_nameEnds hname, ok_bind, if_neg (Nat.not_lt.mpr hinside),
    hunpack, ok_bind]
  dsimp only
  rw [appendAddress]
  by_cases haddress : isAddress qtype (answerType packet o') (answerLength packet o') = true
  · rw [if_pos haddress]
    rcases readAddress_cases hinside haddress with ⟨hcut, herror⟩ | ⟨hcut, address, hok⟩
    · rw [herror]
      exact Or.inl ⟨hcut, rfl⟩
    · rw [hok]
      exact Or.inr ⟨hcut, addresses ++ [address.str], rfl⟩
  · rw [if_neg haddress]
    exact Or.inr ⟨fun hcut => haddress hcut.isAddress, addresses, rfl⟩

/-- An address that is cut off raises a plain `ValueError`. -/
theorem answerAddresses_of_cut {packet : List UInt8} {qtype : ℤ} {k o o₁ o' : ℕ}
    (hanswers : AnswersEnd packet k o o₁) (hname : NameEnds packet o₁ o')
    (hcut : CutAddress packet qtype o') {n : ℕ} (hk : k < n) (addresses : List Text.Str) :
    answerAddresses packet qtype n o addresses = .error .value := by
  induction hanswers generalizing n addresses with
  | nil =>
      obtain ⟨m, rfl⟩ := Nat.exists_eq_add_of_lt hk
      rcases answerAddresses_succ qtype hname hcut.inside (0 + m) addresses with
        ⟨-, herror⟩ | ⟨hnot, -⟩
      · exact herror
      · exact absurd hcut hnot
  | @cons k o o₂ stop hfirst hinside rest ih =>
      obtain ⟨m, rfl⟩ : ∃ m, n = m + 1 := ⟨n - 1, by omega⟩
      have hnext := rest.lt_length hname.lt_length
      rcases answerAddresses_succ qtype hfirst hinside m addresses with
        ⟨hfirstCut, -⟩ | ⟨-, addresses', hrest⟩
      · exact absurd hnext (Nat.not_lt.mpr hfirstCut.cut.le)
      · rw [hrest]
        exact ih hname (Nat.lt_of_succ_lt_succ hk) addresses'

/-- Nothing else raises anything but `UpstreamDNSError`. -/
theorem answerAddresses_error {packet : List UInt8} {qtype : ℤ} {n o : ℕ}
    {addresses : List Text.Str} {e : Exception}
    (h : answerAddresses packet qtype n o addresses = .error e) :
    (∃ message, e = .upstreamDNS message) ∨ ∃ k < n, ∃ o₁ o', AnswersEnd packet k o o₁ ∧
      NameEnds packet o₁ o' ∧ CutAddress packet qtype o' := by
  induction n generalizing o addresses with
  | zero => cases h
  | succ n ih =>
      rcases skipDnsName_cases packet o with ⟨o', hname, hok⟩ | herror
      · by_cases hinside : packet.length < o' + 10
        · rw [answerAddresses, hok] at h
          replace h := (if_pos hinside).symm.trans h
          cases h
          exact Or.inl ⟨_, rfl⟩
        · rcases answerAddresses_succ qtype hname (Nat.not_lt.mp hinside) n addresses with
            ⟨hcut, -⟩ | ⟨-, addresses', hrest⟩
          · exact Or.inr ⟨0, Nat.succ_pos n, o, o', .nil, hname, hcut⟩
          · rw [hrest] at h
            rcases ih h with hmessage | ⟨k, hk, o₁, o₂, hanswers, hlast, hcut⟩
            · exact Or.inl hmessage
            · exact Or.inr ⟨k + 1, Nat.succ_lt_succ hk, o₁, o₂,
                .cons hname (Nat.not_lt.mp hinside) hanswers, hlast, hcut⟩
      · rw [answerAddresses, herror] at h
        cases h
        exact Or.inl ⟨_, rfl⟩

/-! ## Which packets raise nothing else -/

theorem extractDnsAddresses_of_accepts {packet : List UInt8} {queryId : ℤ}
    (h : AcceptsHeader packet queryId) {start : ℕ}
    (hstart : QuestionsEnd packet (number (packet.take 12) 4 2) 12 start) (qtype : ℤ) :
    extractDnsAddresses packet queryId qtype
      = answerAddresses packet qtype (number (packet.take 12) 6 2) start [] := by
  rw [extractDnsAddresses, validateDnsResponse_of_accepts h hstart, ok_bind,
    unpackHeader_take h.length, ok_bind, skipQuestions_of_questionsEnd hstart, ok_bind]

theorem extractDnsAddresses_graceful_iff (packet : List UInt8) (queryId qtype : ℤ) :
    Graceful (extractDnsAddresses packet queryId qtype)
      ↔ ¬EndsInAddress packet queryId qtype := by
  constructor
  · rintro hgraceful ⟨haccepts, start, hstart, k, hk, o, o', hanswers, hname, hcut⟩
    have hvalue : extractDnsAddresses packet queryId qtype = .error .value :=
      (extractDnsAddresses_of_accepts haccepts hstart qtype).trans
        (answerAddresses_of_cut hanswers hname hcut hk [])
    obtain ⟨message, hmessage⟩ := hgraceful _ hvalue
    cases hmessage
  · intro hends e herror
    rcases validateDnsResponse_cases packet queryId false with
      ⟨haccepts, start, hstart⟩ | ⟨message, hinvalid⟩
    · rw [extractDnsAddresses_of_accepts haccepts hstart] at herror
      rcases answerAddresses_error herror with hmessage | hcut
      · exact hmessage
      · exact absurd ⟨haccepts, start, hstart, hcut⟩ hends
    · rw [extractDnsAddresses, hinvalid] at herror
      cases herror
      exact ⟨message, rfl⟩

/-- **Which packets make the decoder raise nothing but `UpstreamDNSError`**: those in which no
address of an answer is cut off. -/
theorem responses_graceful_iff (packet : List UInt8) (queryId qtype : ℤ) :
    ((∀ requireAnswer, Graceful (validateDnsResponse packet queryId requireAnswer)) ∧
      Graceful (extractDnsAddresses packet queryId qtype))
      ↔ ¬EndsInAddress packet queryId qtype :=
  (and_iff_right (validateDnsResponse_graceful packet queryId)).trans
    (extractDnsAddresses_graceful_iff packet queryId qtype)

/-- A response to the query 0x1234 with one answer: the root has an A record, of which two bytes
have arrived. -/
def halfAddress : List UInt8 :=
  [0x12, 0x34, 0x81, 0x80, 0, 0, 0, 1, 0, 0, 0, 0] ++ [0, 0, 1, 0, 1, 0, 0, 0, 60, 0, 4] ++ [10, 0]

/-- The address raises a plain `ValueError`. -/
theorem half_address :
    ¬((∀ requireAnswer, Graceful (validateDnsResponse halfAddress 0x1234 requireAnswer)) ∧
      Graceful (extractDnsAddresses halfAddress 0x1234 1)) := by
  rintro ⟨-, hgraceful⟩
  have haccepts : AcceptsHeader halfAddress 0x1234 :=
    ⟨by decide, by decide, by decide, by decide⟩
  have hname : NameEnds halfAddress 12 13 := .root rfl rfl
  have hcut : CutAddress halfAddress 1 13 := ⟨by decide, by decide, by decide, by decide⟩
  refine (extractDnsAddresses_graceful_iff halfAddress 0x1234 1).mp hgraceful
    ⟨haccepts, 12, .nil, 0, by decide, 12, 13, .nil, hname, hcut⟩

end AlderpointDNS.Upstream
