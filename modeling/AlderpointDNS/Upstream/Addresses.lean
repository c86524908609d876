import AlderpointDNS.Lib.DnsMessage
import AlderpointDNS.Upstream.Responses

/-!
# The addresses of a response

The query that a probe sends, and what `_extract_dns_addresses` finds in a well formed response to
it.

* `nameEnds_encode` — the decoder finds the end of every name.
* `answerAddresses_encode` — it reads the records one behind the other.
* **`extractDnsAddresses_encode`** — it returns the addresses of the answers of the type that was
  asked for, in their order, or raises an error if the response carries an error code.
* `nameError_refused` — a response that says that the name does not exist.
-/

namespace AlderpointDNS.Upstream

open DnsMessage Ipaddress Numerals Results Text

/-! ## The query -/

/-- One label: `bytes([len(part)])` and `part.encode("ascii")` raise a `ValueError`. -/
def encodePart (part : Str) : Except Exception (List UInt8) :=
  if 255 < part.length then .error .value
  else if isAscii part then
    .ok (UInt8.ofNat part.length :: part.map fun c => UInt8.ofNat c.toNat)
  else .error .value

/-- `_build_dns_query`; the last argument is `time.monotonic_ns()`. -/
def buildDnsQuery (qname : Str) (qtype : ℤ) (queryId : Option ℤ) (monotonicNs : ℤ) :
    Except Exception (ℤ × List UInt8) := do
  let qid := queryId.getD monotonicNs % 65536
  let labels ← (split '.' (qname.rdropWhile (· = '.'))).mapM encodePart
  if 0 ≤ qtype ∧ qtype < 65536 then
    return (qid, bigEndian 2 qid.toNat ++ bigEndian 2 0x0100 ++ bigEndian 2 1 ++ bigEndian 2 0 ++
      bigEndian 2 0 ++ bigEndian 2 0 ++ labels.flatten ++ [0] ++ bigEndian 2 qtype.toNat ++
      bigEndian 2 1)
  else .error .struct

/-! ## The answers -/

/-- The address that a record gives. -/
def recordAddress (record : ResourceRecord) : Option IpAddress :=
  match record.data with
  | .a ip => some (.v4 ip)
  | .aaaa ip => some (.v6 ip none)
  | .other _ _ _ _ _ => none

/-- The addresses of the answers of a type, in their order. -/
def addressesOf (qtype : ℤ) (answers : List ResourceRecord) : List Str :=
  (answers.filter fun record => (record.data.type : ℤ) = qtype).filterMap fun record =>
    (recordAddress record).map IpAddress.str

/-! ## Reading what was written -/

theorem number_append {pre bytes post : List UInt8} {i k : ℕ} (hi : pre.length = i)
    (hk : bytes.length = k) :
    number (pre ++ (bytes ++ post)) i k = value 256 0 (bytes.map UInt8.toNat) := by
  subst hi hk
  rw [number, List.drop_left, List.take_left]

theorem number_bigEndian (pre post : List UInt8) {i k n : ℕ} (hi : pre.length = i)
    (hn : n < 256 ^ k) : number (pre ++ (bigEndian k n ++ post)) i k = n := by
  rw [number_append hi (length_bigEndian k n), value_bigEndian hn]

theorem getElem?_append_cons {pre post : List UInt8} {b : UInt8} :
    (pre ++ b :: post)[pre.length]? = some b := by
  simp

/-- **The end of a name** is found behind its last label and its terminator. -/
theorem nameEnds_encode (labels : List Label) (pointer : Option (Fin 16384))
    (pre post : List UInt8) :
    NameEnds (pre ++ (labels.flatMap Label.encode ++ terminator pointer ++ post)) pre.length
      (pre.length + (labels.flatMap Label.encode ++ terminator pointer).length) := by
  induction labels generalizing pre with
  | nil =>
      cases pointer with
      | none => exact .root getElem?_append_cons rfl
      | some target =>
          obtain ⟨b, c, hterminator, hpointer⟩ := terminator_pointer target
          show NameEnds (pre ++ (terminator (some target) ++ post)) pre.length
            (pre.length + (terminator (some target)).length)
          rw [hterminator]
          exact .pointer getElem?_append_cons hpointer
  | cons label labels ih =>
      have hpos := label.pos
      have hle := label.le
      have hlength := label.toNat_length
      have hrest := ih (pre ++ label.encode)
      have hpacket : pre ++ ((label :: labels).flatMap Label.encode ++ terminator pointer ++ post)
          = pre ++ label.encode ++ (labels.flatMap Label.encode ++ terminator pointer ++ post) := by
        simp [List.flatMap_cons]
      have hstart : (pre ++ label.encode).length = pre.length + 1 + label.bytes.length := by
        simp [Label.encode]
        omega
      have hstop : (pre ++ label.encode).length
            + (labels.flatMap Label.encode ++ terminator pointer).length
          = pre.length + ((label :: labels).flatMap Label.encode ++ terminator pointer).length := by
        simp [List.flatMap_cons]
        omega
      rw [hstop, hstart] at hrest
      rw [hpacket]
      refine .label (b := UInt8.ofNat label.bytes.length) ?_ ?_ ?_ ?_
      · simp [Label.encode]
      · omega
      · omega
      · rw [hlength]
        exact hrest

theorem nameEnds_name (name : Name) (pre post : List UInt8) :
    NameEnds (pre ++ (name.encode ++ post)) pre.length (pre.length + name.encode.length) :=
  nameEnds_encode name.labels name.pointer pre post

/-! ## Questions -/

theorem questionsEnd_encode (questions : List Question) (pre post : List UInt8) :
    QuestionsEnd (pre ++ (questions.flatMap Question.encode ++ post)) questions.length pre.length
      (pre.length + (questions.flatMap Question.encode).length) := by
  induction questions generalizing pre with
  | nil => exact .nil
  | cons question questions ih =>
      have hrest := ih (pre ++ question.encode)
      have hname := nameEnds_name question.name pre (bigEndian 2 question.qtype ++
        bigEndian 2 question.qclass ++ (questions.flatMap Question.encode ++ post))
      have hpacket : pre ++ ((question :: questions).flatMap Question.encode ++ post)
          = pre ++ question.encode ++ (questions.flatMap Question.encode ++ post) := by
        simp [List.flatMap_cons]
      have hpacket' : pre ++ (question.name.encode ++ (bigEndian 2 question.qtype ++
            bigEndian 2 question.qclass ++ (questions.flatMap Question.encode ++ post)))
          = pre ++ question.encode ++ (questions.flatMap Question.encode ++ post) := by
        simp [Question.encode]
      have hlength : question.encode.length = question.name.encode.length + 4 := by
        simp [Question.encode]
      have hstop : (pre ++ question.encode).length + (questions.flatMap Question.encode).length
          = pre.length + ((question :: questions).flatMap Question.encode).length := by
        simp [List.flatMap_cons]
        omega
      rw [hpacket'] at hname
      rw [hpacket, ← hstop]
      refine .cons hname ?_ ?_
      · simp [hlength]
        omega
      · rw [List.length_append, hlength, ← Nat.add_assoc] at hrest
        rw [List.length_append, hlength, ← Nat.add_assoc]
        exact hrest

/-! ## Records -/

theorem unpackAnswer_fixed (record : ResourceRecord) :
    unpackAnswer record.fixed = .ok (record.data.type, record.data.encode.length) := by
  have htype : number record.fixed 0 2 = record.data.type := by
    have hread := number_bigEndian [] (bigEndian 2 record.rclass ++
      (bigEndian 4 record.ttl ++ bigEndian 2 record.data.encode.length)) rfl
      (show record.data.type < 256 ^ 2 from record.data.type_lt)
    simpa [ResourceRecord.fixed] using hread
  have hlength : number record.fixed 8 2 = record.data.encode.length := by
    have hread := number_bigEndian (bigEndian 2 record.data.type ++
      bigEndian 2 record.rclass ++ bigEndian 4 record.ttl) [] (i := 8) (by simp)
      (show record.data.encode.length < 256 ^ 2 from record.data.length_lt)
    simpa [ResourceRecord.fixed] using hread
  rw [unpackAnswer, if_pos record.length_fixed, htype, hlength]

theorem ipAddressOfBytes_four {n : ℕ} (h : n < 2 ^ 32) :
    ipAddressOfBytes (bigEndian 4 n) = .ok (.v4 n) := by
  have hread := number_bigEndian [] [] (i := 0) (k := 4) (n := n) rfl h
  rw [List.nil_append, List.append_nil] at hread
  rw [ipAddressOfBytes, if_pos (length_bigEndian 4 n), hread]

theorem ipAddressOfBytes_sixteen {n : ℕ} (h : n < 2 ^ 128) :
    ipAddressOfBytes (bigEndian 16 n) = .ok (.v6 n none) := by
  have hread := number_bigEndian [] [] (i := 0) (k := 16) (n := n) rfl h
  have hlong : (bigEndian 16 n).length ≠ 4 := by simp
  rw [List.nil_append, List.append_nil] at hread
  rw [ipAddressOfBytes, if_neg hlong, if_pos (length_bigEndian 16 n), hread]

/-- **What one record adds**: its address, if it is of the type that was asked for. -/
theorem appendAddress_record (qtype : ℤ) (record : ResourceRecord) (addresses : List Str) :
    appendAddress qtype record.data.type record.data.encode.length record.data.encode addresses
      = .ok (addresses ++ addressesOf qtype [record]) := by
  obtain ⟨name, rclass, ttl, data⟩ := record
  rw [appendAddress]
  by_cases htype : (data.type : ℤ) = qtype
  · cases data with
    | a ip =>
        obtain rfl : (1 : ℤ) = qtype := htype
        have haddress : isAddress 1 (RecordData.a ip).type (RecordData.a ip).encode.length = true := by
          simp [isAddress, RecordData.type, RecordData.encode]
        rw [if_pos haddress]
        show (ipAddressOfBytes (bigEndian 4 ip) >>= fun address =>
          pure (addresses ++ [address.str])) = _
        rw [ipAddressOfBytes_four ip.isLt]
        rfl
    | aaaa ip =>
        obtain rfl : (28 : ℤ) = qtype := htype
        have haddress : isAddress 28 (RecordData.aaaa ip).type
            (RecordData.aaaa ip).encode.length = true := by
          simp [isAddress, RecordData.type, RecordData.encode]
        rw [if_pos haddress]
        show (ipAddressOfBytes (bigEndian 16 ip) >>= fun address =>
          pure (addresses ++ [address.str])) = _
        rw [ipAddressOfBytes_sixteen ip.isLt]
        rfl
    | other rtype bytes notA notAaaa short =>
        have hnone : addressesOf qtype [⟨name, rclass, ttl, .other rtype bytes notA notAaaa short⟩]
            = [] := by
          simp [addressesOf, List.filterMap_filter, recordAddress]
        have hone : ¬qtype = 1 := fun hq => notA (Fin.ext (by
          have hrtype : ((rtype : ℕ) : ℤ) = qtype := htype
          show (rtype : ℕ) = 1
          omega))
        have htwentyEight : ¬qtype = 28 := fun hq => notAaaa (Fin.ext (by
          have hrtype : ((rtype : ℕ) : ℤ) = qtype := htype
          show (rtype : ℕ) = 28
          omega))
        rw [if_neg (by simp [isAddress, hone, htwentyEight]), hnone, List.append_nil]
        rfl
  · have hnone : addressesOf qtype [⟨name, rclass, ttl, data⟩] = [] := by
      simp [addressesOf, htype]
    rw [if_neg (by simp [isAddress, htype]), hnone, List.append_nil]
    rfl

theorem addressesOf_cons (qtype : ℤ) (record : ResourceRecord) (answers : List ResourceRecord) :
    addressesOf qtype (record :: answers)
      = addressesOf qtype [record] ++ addressesOf qtype answers := by
  rw [addressesOf, ← List.singleton_append, List.filter_append, List.filterMap_append]
  rfl

/-- One round of the loop over the answers. -/
theorem answerAddresses_record (qtype : ℤ) (record : ResourceRecord) (pre post : List UInt8)
    (n : ℕ) (addresses : List Str) :
    answerAddresses (pre ++ (record.encode ++ post)) qtype (n + 1) pre.length addresses
      = answerAddresses (pre ++ (record.encode ++ post)) qtype n
          (pre.length + record.encode.length) (addresses ++ addressesOf qtype [record]) := by
  have hname := nameEnds_name record.name pre (record.fixed ++ (record.data.encode ++ post))
  have hpacket : pre ++ (record.encode ++ post)
      = pre ++ record.name.encode ++ (record.fixed ++ (record.data.encode ++ post)) := by
    simp [ResourceRecord.encode]
  have hpacket' : pre ++ (record.encode ++ post)
      = pre ++ record.name.encode ++ record.fixed ++ (record.data.encode ++ post) := by
    simp [ResourceRecord.encode]
  have hfixed : ((pre ++ (record.encode ++ post)).drop
      (pre.length + record.name.encode.length)).take 10 = record.fixed := by
    rw [hpacket, ← List.length_append, List.drop_left,
      List.take_left' (ResourceRecord.length_fixed record)]
  have hdata : ((pre ++ (record.encode ++ post)).drop
      (pre.length + record.name.encode.length + 10)).take record.data.encode.length
      = record.data.encode := by
    have hlength : pre.length + record.name.encode.length + 10
        = (pre ++ record.name.encode ++ record.fixed).length := by
      simp
      omega
    rw [hpacket', hlength, List.drop_left, List.take_left]
  have hinside : ¬(pre ++ (record.encode ++ post)).length
      < pre.length + record.name.encode.length + 10 := by
    rw [hpacket']
    simp
    omega
  have hstop : pre.length + record.name.encode.length + 10 + record.data.encode.length
      = pre.length + record.encode.length := by
    simp [ResourceRecord.encode]
    omega
  rw [← List.append_assoc, ← hpacket] at hname
  rw [answerAddresses, skipDnsName_of_nameEnds hname, ok_bind, if_neg hinside, hfixed,
    unpackAnswer_fixed, ok_bind]
  dsimp only
  rw [hdata, appendAddress_record, ok_bind, hstop]

/-- **The loop over the answers.** -/
theorem answerAddresses_encode (qtype : ℤ) (answers : List ResourceRecord) (pre post : List UInt8)
    (addresses : List Str) :
    answerAddresses (pre ++ (answers.flatMap ResourceRecord.encode ++ post)) qtype answers.length
      pre.length addresses = .ok (addresses ++ addressesOf qtype answers) := by
  induction answers generalizing pre addresses with
  | nil =>
      show Except.ok addresses = Except.ok (addresses ++ [])
      rw [List.append_nil]
  | cons record answers ih =>
      have hpacket : pre ++ ((record :: answers).flatMap ResourceRecord.encode ++ post)
          = pre ++ (record.encode ++ (answers.flatMap ResourceRecord.encode ++ post)) := by
        simp [List.flatMap_cons]
      rw [hpacket, List.length_cons, answerAddresses_record, ← List.append_assoc,
        ← List.length_append, ih, addressesOf_cons qtype record answers, List.append_assoc]

/-! ## Responses -/

theorem take_header (response : Message) : response.encode.take 12 = response.header :=
  List.take_left' response.length_header

/-- The four fields of the header that are read. -/
theorem number_header (response : Message) :
    number response.header 0 2 = response.id ∧ number response.header 2 2 = response.flags ∧
      number response.header 4 2 = response.questions.length ∧
      number response.header 6 2 = response.answers.length := by
  have hread (pre post : List UInt8) {i n : ℕ} (hi : pre.length = i) (hn : n < 65536) :
      number (pre ++ (bigEndian 2 n ++ post)) i 2 = n := number_bigEndian pre post hi hn
  refine ⟨?_, ?_, ?_, ?_⟩
  · simpa [Message.header] using hread [] _ rfl response.id.isLt
  · simpa [Message.header] using hread (bigEndian 2 response.id) _ (by simp) response.flags.isLt
  · simpa [Message.header] using hread (bigEndian 2 response.id ++ bigEndian 2 response.flags) _
      (by simp) response.questions_lt
  · simpa [Message.header] using hread (bigEndian 2 response.id ++ bigEndian 2 response.flags ++
      bigEndian 2 response.questions.length) _ (by simp) response.answers_lt

theorem acceptsHeader_encode {response : Message} (hresponse : response.IsResponse)
    (hrcode : response.rcode = 0) : AcceptsHeader response.encode response.id := by
  obtain ⟨hid, hflags, -, -⟩ := number_header response
  refine ⟨?_, ?_, ?_, ?_⟩
  · simp [Message.encode]
  · rw [take_header, hid]
  · rw [take_header, hflags]
    exact hresponse
  · rw [take_header, hflags]
    exact hrcode

theorem validateDnsResponse_rcode {response : Message} (hresponse : response.IsResponse)
    (hrcode : response.rcode ≠ 0) (requireAnswer : Bool) :
    validateDnsResponse response.encode response.id requireAnswer
      = .error (.upstreamDNS s!"DNS response rcode {response.rcode}") := by
  have hlong : 12 ≤ response.encode.length := by simp [Message.encode]
  obtain ⟨hid, hflags, -, -⟩ := number_header response
  rw [validateDnsResponse, if_neg (Nat.not_lt.mpr hlong), unpackHeader_take hlong, ok_bind,
    take_header, hid, hflags]
  rw [if_neg (not_not.mpr rfl), if_neg hresponse]
  exact if_pos hrcode

/-- A message is a response to a packet: it has its id, and the QR bit. -/
structure RespondsTo (response : Message) (query : List UInt8) : Prop where
  isResponse : response.IsResponse
  id : bigEndian 2 response.id = query.take 2

/-- The id that a query was built with is that of its responses. -/
theorem RespondsTo.id_eq {qname : Str} {qtype : ℤ} {queryId : Option ℤ} {monotonicNs qid : ℤ}
    {query : List UInt8} {response : Message} (h : RespondsTo response query)
    (hquery : buildDnsQuery qname qtype queryId monotonicNs = .ok (qid, query)) :
    (response.id : ℤ) = qid := by
  obtain ⟨labels, -, hpacket⟩ := bind_eq_ok.mp hquery
  split_ifs at hpacket with hqtype
  cases hpacket
  have hrange : 0 ≤ queryId.getD monotonicNs % 65536 := Int.emod_nonneg _ (by decide)
  have hbytes := h.id
  have hlt : (queryId.getD monotonicNs % 65536).toNat < 256 ^ 2 := by omega
  simp only [List.append_assoc] at hbytes
  rw [List.take_left' (length_bigEndian 2 _)] at hbytes
  have hvalue := congrArg (fun bytes => value 256 0 (bytes.map UInt8.toNat)) hbytes
  rw [value_bigEndian (show (response.id : ℕ) < 256 ^ 2 from response.id.isLt),
    value_bigEndian hlt] at hvalue
  omega

/-- **What the decoder finds in a response** to a query. -/
theorem extractDnsAddresses_encode {qname : Str} {qtype : ℤ} {queryId : Option ℤ}
    {monotonicNs qid : ℤ} {query : List UInt8}
    (hquery : buildDnsQuery qname qtype queryId monotonicNs = .ok (qid, query))
    {response : Message} (hresponse : RespondsTo response query) :
    extractDnsAddresses response.encode qid qtype =
      if response.rcode = 0 then .ok (addressesOf qtype response.answers)
      else .error (.upstreamDNS s!"DNS response rcode {response.rcode}") := by
  rw [← hresponse.id_eq hquery]
  split_ifs with hrcode
  · obtain ⟨-, -, hquestions, hanswers⟩ := number_header response
    have hstart : QuestionsEnd response.encode (number (response.encode.take 12) 4 2) 12
        (12 + (response.questions.flatMap Question.encode).length) := by
      have hends := questionsEnd_encode response.questions response.header
        (response.answers.flatMap ResourceRecord.encode ++ response.rest)
      rw [take_header, hquestions]
      rwa [response.length_header] at hends
    have hloop := answerAddresses_encode qtype response.answers
      (response.header ++ response.questions.flatMap Question.encode) response.rest []
    rw [List.length_append, response.length_header, List.append_assoc] at hloop
    rw [extractDnsAddresses_of_accepts (acceptsHeader_encode hresponse.isResponse hrcode) hstart,
      take_header, hanswers]
    exact hloop
  · rw [extractDnsAddresses, validateDnsResponse_rcode hresponse.isResponse hrcode]
    rfl

/-! ## Two responses -/

/-- The name `a.b`. -/
def shortName : Name where
  labels := [⟨[97], by decide, by decide⟩, ⟨[98], by decide, by decide⟩]
  pointer := none

/-- An alias, with the name of the question by a pointer and `c` in front of it, and the address of
that name. -/
def aliasResponse : Message where
  id := 0x1234
  flags := 0x8180
  questions := [⟨shortName, 1, 1⟩]
  answers := [⟨⟨[], some 12⟩, 1, 60, .other 5 [1, 99, 0xC0, 12] (by decide) (by decide) (by decide)⟩,
    ⟨⟨[⟨[99], by decide, by decide⟩], some 12⟩, 1, 60, .a 0x0A000001⟩]
  nscount := 0
  arcount := 0
  rest := []
  questions_lt := by decide
  answers_lt := by decide

/-- The name does not exist. -/
def nameErrorResponse : Message where
  id := 0x1234
  flags := 0x8183
  questions := [⟨shortName, 1, 1⟩]
  answers := []
  nscount := 0
  arcount := 0
  rest := []
  questions_lt := by decide
  answers_lt := by decide

/-- The query for `a.b`. -/
def shortQuery : List UInt8 :=
  [0x12, 0x34, 1, 0, 0, 1, 0, 0, 0, 0, 0, 0, 1, 97, 1, 98, 0, 0, 1, 0, 1]

theorem buildDnsQuery_short :
    buildDnsQuery "a.b".toList 1 (some 0x1234) 0 = .ok (0x1234, shortQuery) := by
  decide +kernel

theorem extractDnsAddresses_alias :
    extractDnsAddresses aliasResponse.encode 0x1234 1 = .ok ["10.0.0.1".toList] :=
  (extractDnsAddresses_encode buildDnsQuery_short ⟨by decide, by decide⟩).trans (by decide +kernel)

/-- **An error code is an error**, not an empty list of addresses. -/
theorem nameError_refused :
    buildDnsQuery "a.b".toList 1 (some 0x1234) 0 = .ok (0x1234, shortQuery) ∧
      RespondsTo nameErrorResponse shortQuery ∧
      extractDnsAddresses nameErrorResponse.encode 0x1234 1
        ≠ .ok (addressesOf 1 nameErrorResponse.answers) := by
  refine ⟨buildDnsQuery_short, ⟨by decide, by decide⟩, fun h => ?_⟩
  have hrefused : (extractDnsAddresses nameErrorResponse.encode 0x1234 1).toOption = none := by
    decide +kernel
  rw [h] at hrefused
  cases hrefused

end AlderpointDNS.Upstream
