import AlderpointDNS.LocalDns.Answers
import AlderpointDNS.LocalDns.Links

/-!
# The check after a deployment

`validate_dns_results` asks the server for every enabled host and for the reverse name of its
address.  The server's answers are those of the zones that were just written.

* `zoneAnswers`, `validateDnsResults` — the answers of the zones, and the check;
* **`validate_of_links`** — the check accepts the zones of a table in which nothing is hidden and
  every linked host has its PTR;
* **`validate_accepts`** — along a run whose operations meet `LinkOk` every linked host has its
  PTR, and the check accepts;
* `disabled_ptr` — a PTR toggled off under its host.
-/

namespace AlderpointDNS.LocalDns

open Text Ipaddress

/-! ## The check -/

/-- The zone with the longest name that a name ends in. -/
def consultedZone (files : List ZoneFile) (name : Str) : Option ZoneFile :=
  (name :: parents name).findSome? fun zone => files.find? (·.zone = zone)

/-- The records of a type that an authoritative server of the zones has for a name. -/
def zoneAnswers (files : List ZoneFile) (name : Str) (type : RecordType) : List Str :=
  ((consultedZone files name).elim [] fun z =>
    (z.apex ++ z.records).filter fun l =>
      absoluteName z.zone l.owner = name && l.type = type.text).map (·.data)

/-- `dig_contains` of the records that `dig +short` prints. -/
def digContains (u : UnicodeData) (answers : List Str) (expected : Str) : Bool :=
  let stdout := (answers.map (· ++ ['\n'])).flatten
  isSubstring (u.toLower (expected.rdropWhile (· = '.')))
    (u.toLower (stdout.rdropWhile fun c => c = '.' || c = '\n'))

/-- `SELECT fqdn FROM local_dns_records WHERE id=?` of `ptr_record_id`, unless that is zero. -/
def linkedRow (rows : List DnsRecord) (r : DnsRecord) : Option DnsRecord :=
  (r.ptrRecordId.filter (· ≠ 0)).bind fun id => rows.find? (·.id = id)

/-- `validate_dns_results`: whether it returns. -/
def validateDnsResults (u : UnicodeData) (files : List ZoneFile) (rows : List DnsRecord) : Bool :=
  ((rows.filter fun r => r.enabled && r.recordType.isAddress).take 20).all fun r =>
    digContains u (zoneAnswers files r.fqdn r.recordType) r.value
      && (linkedRow rows r).all fun _ => (ptrFqdn r.value).any fun reverse =>
        digContains u (zoneAnswers files reverse .ptr) r.fqdn

/-! ## Answers -/

/-- A line of an answer is found in it. -/
theorem digContains_of_mem {u : UnicodeData} {answers : List Str} {expected w : Str}
    (hw : w ∈ answers) (hline : '\n' ∉ w)
    (hexpected : expected.rdropWhile (· = '.') = w.rdropWhile (· = '.'))
    (hascii : ∀ a ∈ answers, isAscii a = true) : digContains u answers expected = true := by
  have hdropped : w.rdropWhile (· = '.') <+: w := List.rdropWhile_prefix _ _
  have hwAscii : isAscii (w.rdropWhile (· = '.')) = true :=
    List.all_eq_true.mpr fun c hc => List.all_eq_true.mp (hascii w hw) c (hdropped.subset hc)
  have houtAscii : isAscii ((answers.map (· ++ ['\n'])).flatten.rdropWhile
      fun c => c = '.' || c = '\n') = true := by
    refine List.all_eq_true.mpr fun c hc => ?_
    have hc := (List.rdropWhile_prefix _ _).subset hc
    obtain ⟨l, hl, hcl⟩ := List.mem_flatten.mp hc
    obtain ⟨a, ha, rfl⟩ := List.mem_map.mp hl
    rcases List.mem_append.mp hcl with hca | hca
    · exact List.all_eq_true.mp (hascii a ha) c hca
    · rw [List.mem_singleton.mp hca]
      decide
  have hinfix : w.rdropWhile (· = '.') <:+: (answers.map (· ++ ['\n'])).flatten.rdropWhile
      fun c => c = '.' || c = '\n' := by
    by_cases hne : w.rdropWhile (· = '.') = []
    · rw [hne]
      exact List.nil_infix
    · obtain ⟨before, after, rfl⟩ := List.append_of_mem hw
      obtain ⟨dots, hdots⟩ := hdropped
      have hout : ((before ++ w :: after).map (· ++ ['\n'])).flatten
          = ((before.map (· ++ ['\n'])).flatten ++ w.rdropWhile (· = '.'))
            ++ (dots ++ '\n' :: (after.map (· ++ ['\n'])).flatten) := by
        conv_lhs => rw [← hdots]
        simp
      have hlast := List.rdropWhile_last_not (fun c : Char => decide (c = '.')) w hne
      have hchar : (fun c : Char => decide (c = '.') || decide (c = '\n'))
          (((before.map (· ++ ['\n'])).flatten ++ w.rdropWhile (· = '.')).getLast
            (List.append_ne_nil_of_right_ne_nil _ hne)) = false := by
        rw [List.getLast_append_of_ne_nil _ hne]
        have hmem : (w.rdropWhile (· = '.')).getLast hne ∈ w :=
          (List.rdropWhile_prefix _ _).subset (List.getLast_mem hne)
        have hnl : (w.rdropWhile (· = '.')).getLast hne ≠ '\n' := fun h => hline (h ▸ hmem)
        simpa [hnl] using hlast
      rw [hout]
      refine List.IsInfix.trans ⟨(before.map (· ++ ['\n'])).flatten, [], List.append_nil _⟩ ?_
      exact (prefix_rdropWhile_append _ hchar _).isInfix
  rw [digContains, hexpected, isSubstring_iff, UnicodeData.toLower, UnicodeData.toLower,
    if_pos hwAscii, if_pos houtAscii]
  exact hinfix.map _

/-- The zone with the longest name is consulted. -/
theorem consultedZone_eq {files : List ZoneFile} (hnodup : (files.map (·.zone)).Nodup)
    {z : ZoneFile} (hz : z ∈ files) {name : Str} (hin : inZone name z.zone = true)
    (hlongest : ∀ z' ∈ files, inZone name z'.zone = true → z'.zone.length ≤ z.zone.length) :
    consultedZone files name = some z := by
  have hmem : z.zone ∈ name :: parents name :=
    List.mem_cons.mpr ((inZone_iff.mp hin).imp Eq.symm id)
  have horder : (name :: parents name).Pairwise fun a b => b ∈ parents a :=
    List.Pairwise.cons (fun _ h => h) (parents_pairwise name)
  have hfind : files.find? (·.zone = z.zone) = some z := by
    cases hfind : files.find? (·.zone = z.zone) with
    | none => simpa using List.find?_eq_none.mp hfind z hz
    | some z' =>
        have hzone : z'.zone = z.zone := by simpa using List.find?_some hfind
        rw [List.inj_on_of_nodup_map hnodup (List.mem_of_find?_eq_some hfind) hz hzone]
  obtain ⟨deeper, higher, hsplit⟩ := List.append_of_mem hmem
  have hnone : deeper.findSome? (fun zone => files.find? (·.zone = zone)) = none := by
    refine List.findSome?_eq_none_iff.mpr fun zone hzone => List.find?_eq_none.mpr fun z' hz' => ?_
    rw [decide_eq_true_eq]
    rintro rfl
    rw [hsplit, List.pairwise_append] at horder
    have hbelow := horder.2.2 z'.zone hzone z.zone List.mem_cons_self
    have hin' : inZone name z'.zone = true := by
      have : z'.zone ∈ name :: parents name := by simp [hsplit, hzone]
      exact inZone_iff.mpr ((List.mem_cons.mp this).imp Eq.symm id)
    have := (inZone_total hin hin').mpr hbelow
    have := hlongest z' hz' hin'
    omega
  rw [consultedZone, hsplit, List.findSome?_append, hnone, List.findSome?_cons, hfind]
  rfl

section Table

variable {domain : Domain} {defaultTtl serial : ℕ} {rows : RecordRows}

theorem consultedZone_mem {files : List ZoneFile} {name : Str} {z : ZoneFile}
    (h : consultedZone files name = some z) : z ∈ files := by
  obtain ⟨zone, -, hfind⟩ := List.exists_of_findSome?_eq_some h
  exact List.mem_of_find?_eq_some hfind

variable (defaultTtl serial) in
/-- The answers for a record's name and type have the record among them. -/
theorem mem_zoneAnswers (h : Unshadowed domain.1 rows.1) {r : DnsRecord} (hr : r ∈ rows.1)
    (henabled : r.enabled = true) :
    ∃ z, (recordLine z r).data
      ∈ zoneAnswers (zoneFiles domain defaultTtl serial rows.1) r.fqdn r.recordType := by
  obtain ⟨z, hz, hin, hl, hlongest⟩ :=
    h.answerable defaultTtl serial hr henabled
  refine ⟨z.zone, ?_⟩
  rw [zoneAnswers, consultedZone_eq h.nodup hz hin hlongest]
  refine List.mem_map_of_mem (List.mem_filter.mpr ⟨List.mem_append_right _ hl, ?_⟩)
  rw [Bool.and_eq_true, decide_eq_true_eq, decide_eq_true_eq]
  exact ⟨absolute_relName r.named hin, rfl⟩

theorem apex_of_mem {z : ZoneFile} (hz : z ∈ zoneFiles domain defaultTtl serial rows.1) :
    z.apex = apexLines z.zone serial := by
  rcases List.mem_append.mp hz with hz | hz
  · obtain ⟨zone, rs, -, rfl⟩ := mem_filesOf.mp hz
    rfl
  · obtain ⟨zone, rs, -, rfl⟩ := mem_filesOf.mp hz
    rfl

/-- The only apex line of a record's type is the glue. -/
theorem isAscii_apexLines {zone : Str} {l : ZoneLine} {type : RecordType}
    (hl : l ∈ apexLines zone serial) (htype : l.type = type.text) : isAscii l.data = true := by
  have htext : type.text ≠ "SOA".toList ∧ type.text ≠ "NS".toList := by
    cases type <;> decide
  simp only [apexLines, List.mem_cons, List.not_mem_nil, or_false] at hl
  rcases hl with rfl | rfl | rfl
  · exact absurd htype.symm htext.1
  · exact absurd htype.symm htext.2
  · decide

/-- All answers are ASCII when the values of the records are. -/
theorem isAscii_zoneAnswers (hascii : ∀ r ∈ rows.1, r.enabled = true → isAscii r.value = true)
    (name : Str) (type : RecordType) :
    ∀ a ∈ zoneAnswers (zoneFiles domain defaultTtl serial rows.1) name type,
      isAscii a = true := by
  intro a ha
  obtain ⟨l, hl, rfl⟩ := List.mem_map.mp ha
  cases hz : consultedZone (zoneFiles domain defaultTtl serial rows.1) name with
  | none =>
      rw [hz] at hl
      cases hl
  | some z =>
      rw [hz, Option.elim_some, List.mem_filter, Bool.and_eq_true, decide_eq_true_eq,
        decide_eq_true_eq] at hl
      obtain ⟨hl, -, htype⟩ := hl
      have hz := consultedZone_mem hz
      rcases List.mem_append.mp hl with hl | hl
      · rw [apex_of_mem hz] at hl
        exact isAscii_apexLines hl htype
      · obtain ⟨r, hr, henabled, -, rfl⟩ := exists_record hz hl
        have hvalue := hascii r hr henabled
        unfold recordLine
        dsimp only
        split_ifs
        · rw [isAscii, List.all_append, Bool.and_eq_true]
          exact ⟨hvalue, by decide⟩
        · exact hvalue

/-! ## The check along a run -/

/-- Every linked enabled host has its PTR among the enabled records. -/
def PtrKept (rows : List DnsRecord) : Prop :=
  ∀ r ∈ rows, r.enabled = true → r.recordType.isAddress = true →
    ∀ q ∈ rows, r.ptrRecordId = some q.id → ∃ p ∈ rows, IsPtrOf p r

/-- Nothing is hidden, and the values are ASCII on one line. -/
structure Servable (domain : Str) (rows : List DnsRecord) : Prop where
  unshadowed : Unshadowed domain rows
  ascii : ∀ r ∈ rows, r.enabled = true → isAscii r.value = true
  line : ∀ r ∈ rows, r.enabled = true → '\n' ∉ r.value

theorem linkedRow_mem {r q : DnsRecord} (h : linkedRow rows.1 r = some q) :
    q ∈ rows.1 ∧ r.ptrRecordId = some q.id := by
  obtain ⟨id, hid, hfind⟩ := Option.bind_eq_some_iff.mp h
  have hqid : q.id = id := by simpa using List.find?_some hfind
  exact ⟨List.mem_of_find?_eq_some hfind, hqid ▸ (Option.filter_eq_some_iff.mp hid).1⟩

/-- **The check accepts a servable table whose hosts have their PTRs.** -/
theorem validate_of_links (u : UnicodeData) (hservable : Servable domain.1 rows.1)
    (hptr : PtrKept rows.1) :
    validateDnsResults u (zoneFiles domain defaultTtl serial rows.1) rows.1 = true := by
  refine List.all_eq_true.mpr fun r hr => ?_
  obtain ⟨hr, hrow⟩ := List.mem_filter.mp (List.mem_of_mem_take hr)
  obtain ⟨henabled, haddress⟩ := Bool.and_eq_true_iff.mp hrow
  rw [Bool.and_eq_true]
  constructor
  · obtain ⟨zone, hmem⟩ := mem_zoneAnswers defaultTtl serial hservable.unshadowed hr henabled
    have hdata : (recordLine zone r).data = r.value := by
      cases htype : r.recordType <;> simp_all [recordLine, RecordType.isAddress]
    rw [hdata] at hmem
    exact digContains_of_mem hmem (hservable.line r hr henabled) rfl
      (isAscii_zoneAnswers hservable.ascii _ _)
  · rw [Option.all_eq_true]
    intro q hq
    obtain ⟨hq, hlink⟩ := linkedRow_mem hq
    obtain ⟨p, hp, henabled', htype, hreverse, hvalue⟩ := hptr r hr henabled haddress q hq hlink
    obtain ⟨zone, hmem⟩ := mem_zoneAnswers defaultTtl serial hservable.unshadowed hp henabled'
    have hdata : (recordLine zone p).data = r.fqdn ++ ['.'] := by
      simp [recordLine, htype, hvalue]
    rw [hdata, htype] at hmem
    rw [hreverse, Option.any_some]
    refine digContains_of_mem hmem ?_ ?_ (isAscii_zoneAnswers hservable.ascii _ _)
    · have hline := hservable.line p hp henabled'
      rw [hvalue] at hline
      simp [hline]
    · rw [List.rdropWhile_concat_pos _ _ _ (by decide)]

end Table

/-- **Under `LinkOk` every linked host keeps its PTR, and the check accepts what is servable.** -/
theorem validate_accepts (d : LocalDnsData) (internalDomain : Str) (domain : Domain)
    (defaultTtl serial : ℕ) (actions : List LocalDnsAction) (rows : RecordRows)
    (hok : Runs.StepsMeet (localStep d internalDomain) (LinkOk d.toUnicodeData) LegalRows.empty
      actions)
    (hrun : localRun d internalDomain actions = some rows) :
    PtrKept rows.1 ∧ (Servable domain.1 rows.1 →
      validateDnsResults d.toUnicodeData (zoneFiles domain defaultTtl serial rows.1) rows.1
        = true) := by
  have hlinks : LinksMatch rows.1 :=
    Runs.run_invariant (fun _ _ _ => linksMatch_step) actions LegalRows.empty rows
      (by simp [LinksMatch, LegalRows.empty]) hok hrun
  have hptr : PtrKept rows.1 := fun r hr henabled haddress q hq hlink =>
    ⟨q, hq, hlinks r hr henabled haddress q hq hlink⟩
  exact ⟨hptr, fun hservable => validate_of_links d.toUnicodeData hservable hptr⟩

/-- Two hosts with their PTRs are answered. -/
theorem validate_accepts_hosts :
    ∃ rows : RecordRows, localRun asciiLocalData homeArpa.1 hostActions = some rows
      ∧ PtrKept rows.1
      ∧ validateDnsResults asciiLocalData.toUnicodeData (zoneFiles homeArpa 300 1 rows.1) rows.1
        = true := by
  have hrun : ∃ rows : RecordRows, localRun asciiLocalData homeArpa.1 hostActions = some rows
      ∧ (((zoneFiles homeArpa 300 1 rows.1).map (·.zone)).Nodup
        ∧ ∀ r ∈ rows.1, r.enabled = true → Answerable (zoneFiles homeArpa 300 1 rows.1) r)
      ∧ ∀ r ∈ rows.1, r.enabled = true → isAscii r.value = true ∧ r.value.all (· ≠ '\n') = true := by
    have : (localRun asciiLocalData homeArpa.1 hostActions).any (fun rows : RecordRows =>
        decide ((((zoneFiles homeArpa 300 1 rows.1).map (·.zone)).Nodup
          ∧ ∀ r ∈ rows.1, r.enabled = true → Answerable (zoneFiles homeArpa 300 1 rows.1) r)
        ∧ ∀ r ∈ rows.1, r.enabled = true →
          isAscii r.value = true ∧ r.value.all (· ≠ '\n') = true)) = true := by
      decide +kernel
    obtain ⟨rows, hrun, h⟩ := (Option.any_eq_true _ _).mp this
    exact ⟨rows, hrun, of_decide_eq_true h⟩
  obtain ⟨rows, hrun, ⟨hnodup, hanswer⟩, hplain⟩ := hrun
  have hlink : ((localStep asciiLocalData homeArpa.1 LegalRows.empty
      (.addHost "a".toList [] "10.0.0.1".toList (some 300) [] true false)).all fun rows =>
        rows.1.all fun r => r.ptrRecordId ≠ some (nextId rows.1)
          && r.ptrRecordId ≠ some (nextId rows.1 + 1)) = true := by
    decide +kernel
  have hok : Runs.StepsMeet (localStep asciiLocalData homeArpa.1)
      (LinkOk asciiLocalData.toUnicodeData) LegalRows.empty hostActions := by
    refine ⟨by simp [LinkOk, LegalRows.empty], fun s hs => ⟨fun r hr _ _ => ?_, ?_⟩⟩
    swap
    · exact fun _ _ => trivial
    rw [hs, Option.all_some, List.all_eq_true] at hlink
    have := hlink r hr
    rw [Bool.and_eq_true, decide_eq_true_eq, decide_eq_true_eq] at this
    exact ⟨this.1, fun _ => this.2⟩
  obtain ⟨hptr, haccept⟩ :=
    validate_accepts asciiLocalData homeArpa.1 homeArpa 300 1 hostActions rows hok hrun
  refine ⟨rows, hrun, hptr, haccept ⟨unshadowed_of_answerable hnodup hanswer, ?_, ?_⟩⟩
  · exact fun r hr henabled => (hplain r hr henabled).1
  · intro r hr henabled hmem
    have := List.all_eq_true.mp (hplain r hr henabled).2 _ hmem
    simp at this

/-- A host with its PTR, which is then toggled off. -/
def disabledPtrActions : List LocalDnsAction :=
  [.addHost "nas".toList [] "192.168.1.5".toList (some 300) [] true false, .toggleRecord 2]

/-- **A PTR toggled off under its host** makes the check fail. -/
theorem disabled_ptr :
    ¬ ∀ (d : LocalDnsData) (internalDomain : Str) (domain : Domain) (defaultTtl serial : ℕ)
        (actions : List LocalDnsAction) (rows : RecordRows),
        localRun d internalDomain actions = some rows → PtrKept rows.1
          ∧ validateDnsResults d.toUnicodeData (zoneFiles domain defaultTtl serial rows.1) rows.1
            = true := by
  intro h
  have hbad : (localRun asciiLocalData homeArpa.1 disabledPtrActions).any
      (fun rows : RecordRows => !validateDnsResults asciiLocalData.toUnicodeData
        (zoneFiles homeArpa 300 1 rows.1) rows.1) = true := by
    decide +kernel
  obtain ⟨rows, hrun, hbad⟩ := (Option.any_eq_true _ _).mp hbad
  rw [(h _ _ homeArpa 300 1 _ rows hrun).2] at hbad
  cases hbad

end AlderpointDNS.LocalDns
