import AlderpointDNS.LocalDns.Zones

/-!
# Hosts and their PTR rows

`add_host` writes the row id of the PTR it makes into the host's row (`ptr_record_id`).  Nothing
maintains that link: rows on both sides are edited, toggled and deleted by themselves, and the id
of a deleted last row is given to the next row.

* **`linksMatch_step`** — the operations that keep every enabled host linked to its own enabled
  PTR, or to no row at all.
* **`delete_takes_created`** — as long as no new row gets the id of a dangling link, a deletion
  takes along the PTR that `add_host` made for the row and nothing else.
* `delete_takes_stranger` — a PTR deleted by itself, and its id given to another host.
-/

namespace AlderpointDNS.LocalDns

open Text Ipaddress

/-! ## Links to the right PTR -/

/-- A row with these columns is the enabled PTR of a host with that name and address. -/
def PtrMatches (enabled : Bool) (type : RecordType) (fqdn value hostFqdn hostValue : Str) : Prop :=
  enabled = true ∧ type = .ptr ∧ ptrFqdn hostValue = some fqdn ∧ value = hostFqdn

/-- `q` is the enabled PTR of the host `r`. -/
def IsPtrOf (q r : DnsRecord) : Prop :=
  PtrMatches q.enabled q.recordType q.fqdn q.value r.fqdn r.value

/-- Every enabled host that is linked to a row is linked to its PTR. -/
def LinksMatch (rows : List DnsRecord) : Prop :=
  ∀ r ∈ rows, r.enabled = true → r.recordType.isAddress = true →
    ∀ q ∈ rows, r.ptrRecordId = some q.id → IsPtrOf q r

/-- No operation breaks a link of an enabled host: a new row does not get the id of a dangling
link, an edited or enabled host agrees with the PTR that it is linked to, and an edited or disabled
PTR agrees with the enabled hosts that are linked to it. -/
def LinkOk (u : UnicodeData) (rows : RecordRows) : LocalDnsAction → Prop
  | .addHost _ _ _ _ _ autoPtr _ =>
      ∀ r ∈ rows.1, r.enabled = true → r.recordType.isAddress = true →
        r.ptrRecordId ≠ some (nextId rows.1)
          ∧ (autoPtr = true → r.ptrRecordId ≠ some (nextId rows.1 + 1))
  | .addRecord type fqdn value _ _ enabled _ =>
      ∀ r ∈ rows.1, r.enabled = true → r.recordType.isAddress = true →
        r.ptrRecordId = some (nextId rows.1) →
          ∀ name value', normalizeDomain u fqdn = some name →
            validateValue u type value = some value' →
              PtrMatches enabled type name.1 value' r.fqdn r.value
  | .updateRecord id type fqdn value _ _ enabled _ =>
      ∀ name value', normalizeDomain u fqdn = some name →
        validateValue u type value = some value' → ∀ t ∈ rows.1, t.id = id →
          (enabled = true → type.isAddress = true → ∀ q ∈ rows.1, t.ptrRecordId = some q.id →
            q.id ≠ id ∧ PtrMatches q.enabled q.recordType q.fqdn q.value name.1 value')
          ∧ ∀ r ∈ rows.1, r.enabled = true → r.recordType.isAddress = true → r.id ≠ id →
            r.ptrRecordId = some id → PtrMatches enabled type name.1 value' r.fqdn r.value
  | .toggleRecord id => ∀ t ∈ rows.1, t.id = id →
      (t.enabled = false → t.recordType.isAddress = true → ∀ q ∈ rows.1,
        t.ptrRecordId = some q.id → IsPtrOf q t)
      ∧ (t.enabled = true → t.recordType = .ptr → ∀ r ∈ rows.1, r.enabled = true →
        r.recordType.isAddress = true → r.ptrRecordId ≠ some id)
  | .deleteRecord _ => True

theorem LinksMatch.mono {rows rows' : List DnsRecord} (h : ∀ r ∈ rows', r ∈ rows)
    (hrows : LinksMatch rows) : LinksMatch rows' := fun r hr henabled haddress q hq hlink =>
  hrows r (h r hr) henabled haddress q (h q hq) hlink

theorem IsPtrOf.not_isAddress {q r : DnsRecord} (h : IsPtrOf q r) :
    q.recordType.isAddress = false := by
  rw [h.2.1]
  rfl

/-- A new row without a link. -/
theorem LinksMatch.concat {rows : List DnsRecord} {n : DnsRecord} (hrows : LinksMatch rows)
    (hn : n.ptrRecordId = none)
    (hlink : ∀ r ∈ rows, r.enabled = true → r.recordType.isAddress = true →
      r.ptrRecordId = some n.id → IsPtrOf n r) : LinksMatch (rows ++ [n]) := by
  intro r hr henabled haddress q hq hrq
  have hr' : r ∈ rows := by
    rcases List.mem_append.mp hr with hr | hr
    · exact hr
    · rw [List.mem_singleton.mp hr, hn] at hrq
      cases hrq
  rcases List.mem_append.mp hq with hq | hq
  · exact hrows r hr' henabled haddress q hq hrq
  · rw [List.mem_singleton.mp hq] at hrq ⊢
    exact hlink r hr' henabled haddress hrq

/-- A row changed in its place. -/
theorem LinksMatch.replace {rows : RecordRows} {id : ℕ} {f : DnsRecord → DnsRecord}
    (hid : ∀ r, (f r).id = r.id) (hlink : ∀ r, (f r).ptrRecordId = r.ptrRecordId)
    (hrows : LinksMatch rows.1)
    (hhost : ∀ t ∈ rows.1, t.id = id → (f t).enabled = true → (f t).recordType.isAddress = true →
      ∀ q ∈ rows.1, t.ptrRecordId = some q.id → q.id ≠ id ∧ IsPtrOf q (f t))
    (hptr : ∀ t ∈ rows.1, t.id = id → ∀ r ∈ rows.1, r.enabled = true →
      r.recordType.isAddress = true → r.id ≠ id → r.ptrRecordId = some id → IsPtrOf (f t) r) :
    LinksMatch (rows.1.map fun r => if r.id = id then f r else r) := by
  intro r' hr' henabled haddress q' hq' hrq
  obtain ⟨r, hr, rfl⟩ := List.mem_map.mp hr'
  obtain ⟨q, hq, rfl⟩ := List.mem_map.mp hq'
  have hqid : (if q.id = id then f q else q).id = q.id := by
    split_ifs
    · exact hid q
    · rfl
  rw [hqid] at hrq
  by_cases hrid : r.id = id
  · simp only [hrid, if_true] at henabled haddress hrq ⊢
    rw [hlink] at hrq
    obtain ⟨hne, hmatch⟩ := hhost r hr hrid henabled haddress q hq hrq
    rw [if_neg hne]
    exact hmatch
  · simp only [hrid, if_false] at henabled haddress hrq ⊢
    split_ifs with hq₀
    · exact hptr q hq hq₀ r hr henabled haddress hrid (hq₀ ▸ hrq)
    · exact hrows r hr henabled haddress q hq hrq

/-- A host with its PTR, under ids that no enabled host's link names. -/
theorem LinksMatch.host {rows : RecordRows} {host ptr : DnsRecord} {p : DnsRecord → Bool}
    (hrows : LinksMatch rows.1) (hhost : host.id = nextId rows.1)
    (hptr : ptr.id = nextId rows.1 + 1) (hnone : ptr.ptrRecordId = none) (hmatch : IsPtrOf ptr host)
    (hlink : ∀ r ∈ rows.1, r.enabled = true → r.recordType.isAddress = true →
      r.ptrRecordId ≠ some host.id ∧ r.ptrRecordId ≠ some ptr.id) :
    LinksMatch (rows.1.filter p ++ [{ host with ptrRecordId := some ptr.id }, ptr]) := by
  intro r hr henabled haddress q hq hrq
  simp only [List.mem_append, List.mem_cons, List.not_mem_nil, or_false] at hr hq
  rcases hr with hr | rfl | rfl
  · have hr := List.mem_of_mem_filter hr
    obtain ⟨hne, hne'⟩ := hlink r hr henabled haddress
    rcases hq with hq | rfl | rfl
    · exact hrows r hr henabled haddress q (List.mem_of_mem_filter hq) hrq
    · exact absurd hrq hne
    · exact absurd hrq hne'
  · have hid : ptr.id = q.id := Option.some.inj hrq
    rcases hq with hq | rfl | rfl
    · have := id_lt_nextId (List.mem_of_mem_filter hq)
      omega
    · exact absurd (hid.symm.trans hptr) (by change host.id ≠ _; omega)
    · exact hmatch
  · rw [hnone] at hrq
    cases hrq

variable {d : LocalDnsData} {internalDomain : Str}

theorem isPtrOf_hostPtr {id hostId : ℕ} {owner zone : Str} {label : Label} {localDomain : Domain}
    {ip : IpAddress} {ttl ttl' : ℕ} {comment : Str} {autoPtr : Bool}
    (hp : (ipAddress ip.str).bind ptrOwner = some (owner, zone)) :
    IsPtrOf (hostPtr id owner zone (label.1 ++ '.' :: localDomain.1) ttl (isName_ptrOwner_bind hp))
      (newHost hostId label localDomain ip ttl' comment autoPtr) := by
  refine ⟨rfl, rfl, ?_, rfl⟩
  change ptrFqdn ip.str = some (owner ++ '.' :: zone)
  rw [ptrFqdn, hp]
  rfl

/-- **An operation under `LinkOk` keeps the links of enabled hosts right.** -/
theorem linksMatch_step {rows rows' : RecordRows} {a : LocalDnsAction} (hrows : LinksMatch rows.1)
    (hok : LinkOk d.toUnicodeData rows a) (h : localStep d internalDomain rows a = some rows') :
    LinksMatch rows'.1 := by
  cases a with
  | addHost hostname dom address ttl comment autoPtr override =>
      obtain ⟨⟨ms, t⟩, hop, rfl⟩ := Option.map_eq_some_iff.mp h
      obtain ⟨label, localDomain, ip, ttl', -, hadd⟩ := addHost_spec hop
      split_ifs at hadd with hauto
      · obtain ⟨owner, zone, hp, -, hadd⟩ := hadd
        rw [hadd]
        refine hrows.host rfl rfl rfl (isPtrOf_hostPtr hp) fun r hr henabled haddress => ?_
        exact ⟨(hok r hr henabled haddress).1, (hok r hr henabled haddress).2 hauto⟩
      · rw [hadd]
        exact hrows.concat rfl fun r hr henabled haddress hlink =>
          absurd hlink (hok r hr henabled haddress).1
  | addRecord type fqdn value ttl comment enabled override =>
      obtain ⟨⟨ms, t⟩, hop, rfl⟩ := Option.map_eq_some_iff.mp h
      obtain ⟨name, value', ttl', hname, hvalue, -, hadd⟩ := addRecord_spec hop
      rw [hadd]
      exact hrows.concat rfl fun r hr henabled haddress hlink =>
        hok r hr henabled haddress hlink name value' hname hvalue
  | updateRecord id type fqdn value ttl comment enabled override =>
      obtain ⟨⟨ms, t⟩, hop, rfl⟩ := Option.map_eq_some_iff.mp h
      obtain ⟨name, value', ttl', hname, hvalue, -, hedit⟩ := updateRecord_spec hop
      rw [hedit]
      refine hrows.replace (fun _ => rfl) (fun _ => rfl) ?_ ?_
      · intro t ht hid henabled haddress q hq hlink
        exact (hok name value' hname hvalue t ht hid).1 henabled haddress q hq hlink
      · intro t ht hid r hr henabled haddress hne hlink
        exact (hok name value' hname hvalue t ht hid).2 r hr henabled haddress hne hlink
  | toggleRecord id =>
      cases h
      have hkeep := @LinksMatch.replace rows id fun r => { r with enabled := !r.enabled }
      refine hkeep (fun _ => rfl) (fun _ => rfl) hrows ?_ ?_
      · intro t ht hid henabled haddress q hq hlink
        have hmatch := (hok t ht hid).1 (by simpa using henabled) haddress q hq hlink
        refine ⟨fun hqid => ?_, hmatch⟩
        rw [id_inj hq ht (hqid.trans hid.symm)] at hmatch
        have hptr := hmatch.not_isAddress
        rw [haddress] at hptr
        cases hptr
      · intro t ht hid r hr henabled haddress hne hlink
        have hmatch := hrows r hr henabled haddress t ht (hid ▸ hlink)
        exact absurd hlink ((hok t ht hid).2 hmatch.1 hmatch.2.1 r hr henabled haddress)
  | deleteRecord id =>
      cases h
      exact hrows.mono fun r hr => (mem_deleteRecord.mp hr).1

/-! ## What a deletion takes along -/

/-- The table, with the pairs of rows that one `add_host` made and that are both still there. -/
structure TracedRows where
  rows : RecordRows
  created : List (ℕ × ℕ)

/-- The two rows of `add_host`. -/
def LocalDnsAction.creates (rows : RecordRows) : LocalDnsAction → List (ℕ × ℕ)
  | .addHost _ _ _ _ _ true _ => [(nextId rows.1, nextId rows.1 + 1)]
  | _ => []

/-- An operation, with the pairs kept up. -/
def tracedStep (d : LocalDnsData) (internalDomain : Str) (s : TracedRows) (a : LocalDnsAction) :
    Option TracedRows :=
  (localStep d internalDomain s.rows a).map fun rows =>
    { rows := rows
      created := (s.created.filter fun p =>
        (rows.1.any (·.id = p.1)) && rows.1.any (·.id = p.2)) ++ a.creates s.rows }

/-- Operations on the empty table. -/
def tracedRun (d : LocalDnsData) (internalDomain : Str) (actions : List LocalDnsAction) :
    Option TracedRows :=
  Runs.run (tracedStep d internalDomain) ⟨LegalRows.empty, []⟩ actions

/-- No new row gets the id that a dangling link names. -/
def FreshIds (s : TracedRows) : LocalDnsAction → Prop
  | .addHost _ _ _ _ _ autoPtr _ => ∀ r ∈ s.rows.1, r.ptrRecordId ≠ some (nextId s.rows.1)
      ∧ (autoPtr = true → r.ptrRecordId ≠ some (nextId s.rows.1 + 1))
  | .addRecord .. => ∀ r ∈ s.rows.1, r.ptrRecordId ≠ some (nextId s.rows.1)
  | .updateRecord .. | .toggleRecord _ | .deleteRecord _ => True

/-- A link to a row of the table was made by `add_host` together with the row. -/
def LinksCreated (s : TracedRows) : Prop :=
  ∀ r ∈ s.rows.1, ∀ q ∈ s.rows.1, r.ptrRecordId = some q.id → (r.id, q.id) ∈ s.created

/-- A pair of rows that stay stays. -/
theorem mem_created {s : TracedRows} {rows : RecordRows} {r q r' q' : DnsRecord}
    {new : List (ℕ × ℕ)} (h : (r.id, q.id) ∈ s.created) (hr : r' ∈ rows.1) (hq : q' ∈ rows.1)
    (hrid : r'.id = r.id) (hqid : q'.id = q.id) :
    (r'.id, q'.id) ∈ (s.created.filter fun p =>
      (rows.1.any (·.id = p.1)) && rows.1.any (·.id = p.2)) ++ new := by
  refine List.mem_append_left _ (List.mem_filter.mpr ⟨hrid ▸ hqid ▸ h, ?_⟩)
  simp only [Bool.and_eq_true, List.any_eq_true, decide_eq_true_eq]
  exact ⟨⟨r', hr, rfl⟩, q', hq, rfl⟩

/-- An operation that keeps rows in their places keeps the pairs. -/
theorem LinksCreated.of_origin {s : TracedRows} {rows : RecordRows} {new : List (ℕ × ℕ)}
    (hs : LinksCreated s)
    (h : ∀ r' ∈ rows.1, ∃ r ∈ s.rows.1, r'.id = r.id ∧ r'.ptrRecordId = r.ptrRecordId) :
    LinksCreated ⟨rows, (s.created.filter fun p =>
      (rows.1.any (·.id = p.1)) && rows.1.any (·.id = p.2)) ++ new⟩ := by
  intro r' hr' q' hq' hlink
  obtain ⟨r, hr, hrid, hrlink⟩ := h r' hr'
  obtain ⟨q, hq, hqid, -⟩ := h q' hq'
  rw [hrlink, hqid] at hlink
  exact mem_created (hs r hr q hq hlink) hr' hq' hrid hqid

/-- A new row without a link, under a fresh id. -/
theorem LinksCreated.concat {s : TracedRows} {rows : RecordRows} {n : DnsRecord}
    {new : List (ℕ × ℕ)} (hs : LinksCreated s) (hadd : rows.1 = s.rows.1 ++ [n])
    (hn : n.ptrRecordId = none) (hfresh : ∀ r ∈ s.rows.1, r.ptrRecordId ≠ some n.id) :
    LinksCreated ⟨rows, (s.created.filter fun p =>
      (rows.1.any (·.id = p.1)) && rows.1.any (·.id = p.2)) ++ new⟩ := by
  intro r hr q hq hlink
  have hmem : ∀ t ∈ rows.1, t ∈ s.rows.1 ∨ t = n := fun t ht => by simpa [hadd] using ht
  rcases hmem r hr with hr₀ | rfl
  · rcases hmem q hq with hq₀ | rfl
    · exact mem_created (hs r hr₀ q hq₀ hlink) hr hq rfl rfl
    · exact absurd hlink (hfresh r hr₀)
  · rw [hn] at hlink
    cases hlink

/-- A new host with its PTR, under fresh ids. -/
theorem LinksCreated.host {s : TracedRows} {rows : RecordRows} {host ptr : DnsRecord}
    {p : DnsRecord → Bool} (hs : LinksCreated s)
    (hadd : rows.1 = s.rows.1.filter p ++ [{ host with ptrRecordId := some ptr.id }, ptr])
    (hnone : ptr.ptrRecordId = none)
    (hfresh : ∀ r ∈ s.rows.1, r.ptrRecordId ≠ some host.id ∧ r.ptrRecordId ≠ some ptr.id) :
    LinksCreated ⟨rows, (s.created.filter fun p =>
      (rows.1.any (·.id = p.1)) && rows.1.any (·.id = p.2)) ++ [(host.id, ptr.id)]⟩ := by
  have hmem : ∀ t ∈ rows.1, t ∈ s.rows.1 ∨ t = { host with ptrRecordId := some ptr.id }
      ∨ t = ptr := by
    intro t ht
    rw [hadd] at ht
    rcases List.mem_append.mp ht with ht | ht
    · exact Or.inl (List.mem_of_mem_filter ht)
    · exact Or.inr (by simpa using ht)
  intro r hr q hq hlink
  rcases hmem r hr with hr₀ | rfl | rfl
  · rcases hmem q hq with hq₀ | rfl | rfl
    · exact mem_created (hs r hr₀ q hq₀ hlink) hr hq rfl rfl
    · exact absurd hlink (hfresh r hr₀).1
    · exact absurd hlink (hfresh r hr₀).2
  · have hid : ptr.id = q.id := Option.some.inj hlink
    rw [← hid]
    exact List.mem_append_right _ (List.mem_singleton_self _)
  · rw [hnone] at hlink
    cases hlink

/-- **An operation under `FreshIds` keeps the links those of `add_host`.** -/
theorem linksCreated_step {s s' : TracedRows} {a : LocalDnsAction} (hs : LinksCreated s)
    (hok : FreshIds s a) (h : tracedStep d internalDomain s a = some s') : LinksCreated s' := by
  obtain ⟨rows, hstep, rfl⟩ := Option.map_eq_some_iff.mp h
  cases a with
  | addHost hostname dom address ttl comment autoPtr override =>
      obtain ⟨⟨ms, t⟩, hop, rfl⟩ := Option.map_eq_some_iff.mp hstep
      obtain ⟨label, localDomain, ip, ttl', -, hadd⟩ := addHost_spec hop
      cases autoPtr with
      | true =>
          obtain ⟨owner, zone, hp, -, hadd⟩ := hadd
          exact hs.host hadd rfl fun r hr => ⟨(hok r hr).1, (hok r hr).2 rfl⟩
      | false => exact hs.concat hadd rfl fun r hr => (hok r hr).1
  | addRecord type fqdn value ttl comment enabled override =>
      obtain ⟨⟨ms, t⟩, hop, rfl⟩ := Option.map_eq_some_iff.mp hstep
      obtain ⟨name, value', ttl', -, -, -, hadd⟩ := addRecord_spec hop
      exact hs.concat hadd rfl hok
  | updateRecord id type fqdn value ttl comment enabled override =>
      obtain ⟨⟨ms, t⟩, hop, rfl⟩ := Option.map_eq_some_iff.mp hstep
      obtain ⟨name, value', ttl', -, -, -, hedit⟩ := updateRecord_spec hop
      refine hs.of_origin fun r' hr' => ?_
      rw [hedit] at hr'
      obtain ⟨r, hr, rfl⟩ := List.mem_map.mp hr'
      refine ⟨r, hr, ?_⟩
      split_ifs
      · exact ⟨rfl, rfl⟩
      · exact ⟨rfl, rfl⟩
  | toggleRecord id =>
      cases hstep
      refine hs.of_origin fun r' hr' => ?_
      obtain ⟨r, hr, rfl⟩ := List.mem_map.mp hr'
      refine ⟨r, hr, ?_⟩
      split_ifs
      · exact ⟨rfl, rfl⟩
      · exact ⟨rfl, rfl⟩
  | deleteRecord id =>
      cases hstep
      exact hs.of_origin fun r hr => ⟨r, (mem_deleteRecord.mp hr).1, rfl, rfl⟩

/-- **A deletion takes along what `add_host` made for the row, and nothing else.** -/
theorem delete_takes_created (d : LocalDnsData) (internalDomain : Str)
    (actions : List LocalDnsAction) (s : TracedRows)
    (hok : Runs.StepsMeet (tracedStep d internalDomain) FreshIds ⟨LegalRows.empty, []⟩ actions)
    (hrun : tracedRun d internalDomain actions = some s) (id : ℕ) :
    (∀ r ∈ (deleteRecord id s.rows).1, r ∈ s.rows.1 ∧ r.id ≠ id)
      ∧ ∀ r ∈ s.rows.1, r ∉ (deleteRecord id s.rows).1 → r.id = id ∨ (id, r.id) ∈ s.created := by
  have hlinks : LinksCreated s :=
    Runs.run_invariant (fun _ _ _ => linksCreated_step) actions _ s
      (by simp [LinksCreated, LegalRows.empty]) hok hrun
  refine ⟨fun r hr => ⟨(mem_deleteRecord.mp hr).1, (mem_deleteRecord.mp hr).2.1⟩,
    fun r hr hgone => ?_⟩
  by_contra hother
  rw [not_or] at hother
  refine hgone (mem_deleteRecord.mpr ⟨hr, hother.1, fun t ht hid hlink => ?_⟩)
  exact absurd (hid ▸ hlinks t ht r hr hlink) hother.2

/-- A host, its PTR deleted by itself, and another host that gets the PTR's id. -/
def reuseActions : List LocalDnsAction :=
  [.addHost "a".toList [] "10.0.0.1".toList (some 300) [] true false,
   .deleteRecord 2,
   .addRecord .a "b.home.arpa".toList "10.0.0.2".toList (some 300) [] true false]

/-- Two hosts with their PTRs. -/
def hostActions : List LocalDnsAction :=
  [.addHost "a".toList [] "10.0.0.1".toList (some 300) [] true false,
   .addHost "b".toList [] "10.0.0.2".toList (some 300) [] true false]

/-- The first of two hosts is deleted. -/
theorem delete_takes_created_hosts :
    ∃ s, tracedRun asciiLocalData homeArpa.1 hostActions = some s
      ∧ (∀ r ∈ (deleteRecord 1 s.rows).1, r ∈ s.rows.1 ∧ r.id ≠ 1)
      ∧ ∀ r ∈ s.rows.1, r ∉ (deleteRecord 1 s.rows).1 → r.id = 1 ∨ (1, r.id) ∈ s.created := by
  have hrun : (tracedRun asciiLocalData homeArpa.1 hostActions).isSome = true := by decide +kernel
  have hfresh : ((tracedStep asciiLocalData homeArpa.1 ⟨LegalRows.empty, []⟩
      (.addHost "a".toList [] "10.0.0.1".toList (some 300) [] true false)).all fun s =>
        s.rows.1.all fun r => r.ptrRecordId ≠ some (nextId s.rows.1)
          && r.ptrRecordId ≠ some (nextId s.rows.1 + 1)) = true := by
    decide +kernel
  refine ⟨_, Option.eq_some_of_isSome hrun, delete_takes_created asciiLocalData homeArpa.1
    hostActions _ ?_ (Option.eq_some_of_isSome hrun) 1⟩
  refine ⟨by simp [FreshIds, LegalRows.empty], fun s hs => ⟨fun r hr => ?_, fun _ _ => trivial⟩⟩
  rw [hs, Option.all_some, List.all_eq_true] at hfresh
  have := hfresh r hr
  rw [Bool.and_eq_true, decide_eq_true_eq, decide_eq_true_eq] at this
  exact ⟨this.1, fun _ => this.2⟩

/-- **A deletion takes another host along** that got the id of the deleted PTR. -/
theorem delete_takes_stranger :
    ¬ ∀ (d : LocalDnsData) (internalDomain : Str) (actions : List LocalDnsAction) (s : TracedRows),
        tracedRun d internalDomain actions = some s → ∀ id,
          (∀ r ∈ (deleteRecord id s.rows).1, r ∈ s.rows.1 ∧ r.id ≠ id)
            ∧ ∀ r ∈ s.rows.1, r ∉ (deleteRecord id s.rows).1 →
              r.id = id ∨ (id, r.id) ∈ s.created := by
  intro h
  have hbad : (tracedRun asciiLocalData homeArpa.1 reuseActions).any
      (fun s : TracedRows => s.rows.1.any fun r => r.id ≠ 1 && !s.created.contains (1, r.id)
        && (deleteRecord 1 s.rows).1.all (·.id ≠ r.id)) = true := by
    decide +kernel
  obtain ⟨s, hrun, hs⟩ := (Option.any_eq_true _ _).mp hbad
  obtain ⟨r, hr, hbad⟩ := List.any_eq_true.mp hs
  simp only [Bool.and_eq_true, decide_eq_true_eq, Bool.not_eq_true', List.all_eq_true,
    List.contains_eq_mem, decide_eq_false_iff_not] at hbad
  rcases (h _ _ _ s hrun 1).2 r hr fun hmem => hbad.2 r hmem rfl with hid | hcreated
  · exact hbad.1.1 hid
  · exact hbad.1.2 hcreated

end AlderpointDNS.LocalDns
