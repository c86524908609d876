import AlderpointDNS.LocalDns.Zones

/-!
# A name with a CNAME has nothing else

`record_findings` compares a new or edited record with the others, but `toggle_record` compares
nothing, and nobody compares a CNAME with the records that `render_zone` adds to a zone by itself.

* **`cnameAlone_zoneFiles`** — when the zones of a table obey the rule.
* **`cnameAlone_iff`** — along a run the zones obey the rule exactly when no operation enables a
  CNAME at the apex or the glue name of its zone, and none toggles a CNAME on at the name of
  another enabled record.
* `disabled_twins` — two disabled CNAMEs of one name, toggled on one after the other.
-/

namespace AlderpointDNS.LocalDns

open Text Ipaddress

/-! ## The rule in a zone file -/

/-- No owner has a CNAME and another record. -/
def CnameAlone (z : ZoneFile) : Prop :=
  (z.apex ++ z.records).Pairwise fun l m =>
    absoluteName z.zone l.owner = absoluteName z.zone m.owner →
      l.type ≠ "CNAME".toList ∧ m.type ≠ "CNAME".toList

instance (z : ZoneFile) : Decidable (CnameAlone z) :=
  inferInstanceAs (Decidable (List.Pairwise _ _))

theorem mem_apexLines {zone : Str} {serial : ℕ} {l : ZoneLine}
    (hl : l ∈ apexLines zone serial) : l.type ≠ "CNAME".toList
      ∧ (absoluteName zone l.owner = zone ∨ absoluteName zone l.owner = localNs ++ '.' :: zone) := by
  simp only [apexLines, List.mem_cons, List.not_mem_nil, or_false] at hl
  rcases hl with rfl | rfl | rfl
  · exact ⟨(by decide : "SOA".toList ≠ "CNAME".toList), Or.inl rfl⟩
  · exact ⟨(by decide : "NS".toList ≠ "CNAME".toList), Or.inl rfl⟩
  · exact ⟨(by decide : "A".toList ≠ "CNAME".toList), Or.inr rfl⟩

theorem exists_apexLines {zone name : Str} (serial : ℕ)
    (h : name = zone ∨ name = localNs ++ '.' :: zone) :
    ∃ l ∈ apexLines zone serial, absoluteName zone l.owner = name := by
  rcases h with rfl | rfl
  · exact ⟨_, List.mem_cons_self, rfl⟩
  · exact ⟨_, List.mem_cons_of_mem _ (List.mem_cons_of_mem _ List.mem_cons_self), rfl⟩

theorem text_eq_cname (t : RecordType) : t.text = "CNAME".toList ↔ t = .cname := by
  cases t <;> decide

theorem type_recordLine {zone : Str} {r : DnsRecord} :
    (recordLine zone r).type = "CNAME".toList ↔ r.recordType = .cname :=
  text_eq_cname r.recordType

/-- The rule in the zone file of records that are in the zone. -/
theorem cnameAlone_renderZone {zone : Str} {rs : List DnsRecord} {serial defaultTtl : ℕ}
    (hzone : ∀ r ∈ rs, inZone r.fqdn zone = true) :
    CnameAlone (renderZone zone rs serial defaultTtl) ↔
      (∀ r ∈ rs, r.recordType = .cname → r.fqdn ≠ zone ∧ r.fqdn ≠ localNs ++ '.' :: zone)
        ∧ rs.Pairwise fun r s =>
          r.fqdn = s.fqdn → r.recordType ≠ .cname ∧ s.recordType ≠ .cname := by
  have howner : ∀ r ∈ rs, absoluteName zone (recordLine zone r).owner = r.fqdn := fun r hr =>
    absolute_relName r.named (hzone r hr)
  have hapex : (apexLines zone serial).Pairwise fun l m =>
      absoluteName zone l.owner = absoluteName zone m.owner →
        l.type ≠ "CNAME".toList ∧ m.type ≠ "CNAME".toList := by
    refine List.pairwise_of_forall_mem_list fun l hl m hm _ => ?_
    exact ⟨(mem_apexLines hl).1, (mem_apexLines hm).1⟩
  unfold CnameAlone renderZone
  rw [List.pairwise_append, and_iff_right hapex, and_comm]
  refine and_congr ?_ ?_
  · simp only [List.mem_map, forall_exists_index, and_imp, forall_apply_eq_imp_iff₂]
    constructor
    · intro h r hr hcname
      by_contra hne
      rw [not_and_or, not_not, not_not] at hne
      obtain ⟨l, hl, hname⟩ := exists_apexLines serial hne
      exact (h l hl r hr (hname.trans (howner r hr).symm)).2 (type_recordLine.mpr hcname)
    · intro h l hl r hr hname
      obtain ⟨htype, hapexName⟩ := mem_apexLines hl
      refine ⟨htype, fun hcname => ?_⟩
      have hne := h r hr (type_recordLine.mp hcname)
      rw [hname, howner r hr] at hapexName
      exact hapexName.elim hne.1 hne.2
  · rw [List.pairwise_map]
    refine List.Pairwise.iff_of_mem fun {r s} hr hs => ?_
    rw [howner r hr, howner s hs, ne_eq, ne_eq, type_recordLine, type_recordLine]

/-! ## The rule in a table -/

/-- The apex of the zone of a name, or the name of its name server. -/
def reservedName (domain fqdn : Str) : Bool :=
  fqdn = domain || fqdn = localNs ++ '.' :: domain
    || !inZone fqdn domain && ((split '.' fqdn).length < 3 || firstLabel fqdn = localNs)

theorem reservedName_iff (r : DnsRecord) (domain : Str) :
    reservedName domain r.fqdn = true ↔ r.fqdn = forwardZoneForFqdn r.fqdn domain
      ∨ r.fqdn = localNs ++ '.' :: forwardZoneForFqdn r.fqdn domain := by
  unfold reservedName forwardZoneForFqdn
  by_cases hin : inZone r.fqdn domain = true
  · simp [hin]
  · have hdomain : r.fqdn ≠ domain := fun h => hin (inZone_iff.mpr (Or.inl h))
    have hglue : r.fqdn ≠ localNs ++ '.' :: domain := fun h =>
      hin (inZone_iff.mpr (Or.inr ((mem_parents _ _).mpr ⟨localNs, h.symm⟩)))
    rw [if_neg hin]
    by_cases hlabels : (split '.' r.fqdn).length < 3
    · simp [hin, hlabels]
    · have hne : r.fqdn ≠ parentName r.fqdn := by
        refine (ne_of_mem_parents ?_).symm
        rw [r.parents_fqdn]
        exact List.mem_cons_self
      have hfirst : firstLabel r.fqdn = localNs ↔
          r.fqdn = localNs ++ '.' :: parentName r.fqdn := by
        constructor
        · intro h
          rw [← h, firstLabel_parentName (dot_mem_of_isName r.named)]
        · intro h
          rw [h, firstLabel_append (by decide)]
      simp [hin, hlabels, hdomain, hglue, hne, hfirst]

/-- What the rule needs of a table. -/
def CnameRows (domain : Str) (rows : List DnsRecord) : Prop :=
  ∀ r ∈ rows, r.enabled = true → r.recordType = .cname →
    reservedName domain r.fqdn = false
      ∧ ∀ s ∈ rows, s.enabled = true → s.recordType ≠ .ptr → s.fqdn = r.fqdn → s = r

theorem rows_nodup (rows : RecordRows) : rows.1.Nodup := by
  refine rows.2.imp fun {r s} h heq => ?_
  simp [recordConflict, heq] at h

/-- **The zones of a table obey the rule.** -/
theorem cnameAlone_zoneFiles (domain : Domain) (defaultTtl serial : ℕ) (rows : RecordRows) :
    (∀ z ∈ zoneFiles domain defaultTtl serial rows.1, CnameAlone z) ↔
      CnameRows domain.1 rows.1 := by
  have hnodup : (forwardRecords rows.1).Nodup :=
    (((sortBy_perm _ _).nodup_iff.mpr ((rows_nodup rows).filter _))).filter _
  have hforward (zone : Str) : CnameAlone (renderZone zone
      ((forwardRecords rows.1).filter fun r => forwardZoneForFqdn r.fqdn domain.1 = zone)
      serial defaultTtl) ↔ _ := cnameAlone_renderZone fun r hr => by
    rw [← (mem_forwardZone.mp hr).2.2.2]
    exact r.inZone_forwardZone domain.1
  constructor
  · intro h r hr henabled hcname
    have hptr : r.recordType ≠ .ptr := by rw [hcname]; decide
    have hmem := mem_forwardZone.mpr
      ⟨hr, henabled, hptr, (rfl : forwardZoneForFqdn r.fqdn domain.1 = _)⟩
    obtain ⟨hname, hpair⟩ := (hforward (forwardZoneForFqdn r.fqdn domain.1)).mp
      (h _ (List.mem_append_left _ (mem_filesOf.mpr ⟨_, _, lookup_forwardZones.mpr
        ⟨Or.inr ⟨r, List.mem_of_mem_filter hmem, rfl⟩, rfl⟩, rfl⟩)))
    refine ⟨?_, fun s hs henabled' hptr' hfqdn => ?_⟩
    · rw [Bool.eq_false_iff, ne_eq, reservedName_iff, not_or]
      exact hname r hmem hcname
    · by_contra hne
      have hmem' := mem_forwardZone.mpr
        ⟨hs, henabled', hptr', congrArg (forwardZoneForFqdn · domain.1) hfqdn⟩
      have hsymm : Std.Symm fun r s : DnsRecord =>
          r.fqdn = s.fqdn → r.recordType ≠ .cname ∧ s.recordType ≠ .cname :=
        ⟨fun r s hrs hsr => (hrs hsr.symm).symm⟩
      exact (hpair.forall hmem' hmem hne hfqdn).2 hcname
  · intro h z hz
    rcases List.mem_append.mp hz with hz | hz
    · obtain ⟨zone, rs, hrs, rfl⟩ := mem_filesOf.mp hz
      obtain ⟨-, rfl⟩ := lookup_forwardZones.mp hrs
      rw [hforward]
      constructor
      · intro r hr hcname
        obtain ⟨hr, henabled, -, hzone⟩ := mem_forwardZone.mp hr
        have hname := (h r hr henabled hcname).1
        rwa [Bool.eq_false_iff, ne_eq, reservedName_iff, not_or, hzone] at hname
      · refine List.Nodup.pairwise_of_forall_ne (hnodup.filter _) fun r hr s hs hne hfqdn => ?_
        obtain ⟨hr, henabled, hptr, -⟩ := mem_forwardZone.mp hr
        obtain ⟨hs, henabled', hptr', -⟩ := mem_forwardZone.mp hs
        exact ⟨fun hcname => hne ((h r hr henabled hcname).2 s hs henabled' hptr' hfqdn.symm).symm,
          fun hcname => hne ((h s hs henabled' hcname).2 r hr henabled hptr hfqdn)⟩
    · obtain ⟨zone, rs, hrs, rfl⟩ := mem_filesOf.mp hz
      obtain ⟨-, rfl⟩ := lookup_reverseZones.mp hrs
      have hptr : ∀ r ∈ (reverseRecords rows.1).filter fun r => parentName r.fqdn = zone,
          r.recordType ≠ .cname := by
        intro r hr
        rw [(mem_reverseZone.mp hr).2.2.1]
        decide
      refine (cnameAlone_renderZone fun r hr => ?_).mpr ⟨fun r hr hcname => ?_, ?_⟩
      · rw [← (mem_reverseZone.mp hr).2.2.2]
        exact r.inZone_parentName
      · exact absurd hcname (hptr r hr)
      · exact List.pairwise_of_forall_mem_list fun r hr s hs _ => ⟨hptr r hr, hptr s hs⟩

/-! ## The rule along a run -/

/-- Names on both sides of the CNAME rule do not mix, enabled or not. -/
def CnameSeparate (rows : List DnsRecord) : Prop :=
  ∀ r ∈ rows, ∀ s ∈ rows, r.fqdn = s.fqdn → (r.recordType = .cname ↔ s.recordType = .cname)

/-- The CNAME that an operation enables is not at a reserved name, and `toggle_record` finds no
other enabled record at its name. -/
def CnameOk (u : UnicodeData) (domain : Str) (rows : RecordRows) : LocalDnsAction → Prop
  | .addRecord type fqdn _ _ _ enabled _ => type = .cname → enabled = true →
      ∀ name, normalizeDomain u fqdn = some name → reservedName domain name.1 = false
  | .updateRecord id type fqdn _ _ _ enabled _ => type = .cname → enabled = true →
      (∃ r ∈ rows.1, r.id = id) →
        ∀ name, normalizeDomain u fqdn = some name → reservedName domain name.1 = false
  | .toggleRecord id => ∀ r ∈ rows.1, r.id = id → r.recordType = .cname → r.enabled = false →
      reservedName domain r.fqdn = false ∧ ∀ s ∈ rows.1, s.enabled = true → s.fqdn ≠ r.fqdn
  | .addHost .. | .deleteRecord _ => True

/-- Rows are written at names that are clear of all other rows. -/
structure Writes (rows rows' : List DnsRecord) (written : DnsRecord → Prop) : Prop where
  old : ∀ r ∈ rows', r ∈ rows ∨ written r
  mem : ∀ r, written r → r ∈ rows'
  clear : ∀ w, written w → ∀ r ∈ rows', r ≠ w → r.fqdn = w.fqdn →
    r.enabled = false ∧ (r.recordType = .cname ↔ w.recordType = .cname)

theorem Writes.separate {rows rows' : List DnsRecord} {written : DnsRecord → Prop}
    (h : Writes rows rows' written) (hrows : CnameSeparate rows) : CnameSeparate rows' := by
  intro r hr s hs hfqdn
  by_cases hne : r = s
  · rw [hne]
  · rcases h.old r hr with hr' | hr'
    · rcases h.old s hs with hs' | hs'
      · exact hrows r hr' s hs' hfqdn
      · exact (h.clear s hs' r hr hne hfqdn).2
    · exact (h.clear r hr' s hs (Ne.symm hne) hfqdn.symm).2.symm

theorem Writes.cnameRows_iff {domain : Str} {rows rows' : List DnsRecord}
    {written : DnsRecord → Prop} (h : Writes rows rows' written) (hrows : CnameRows domain rows) :
    CnameRows domain rows' ↔ ∀ w, written w → w.enabled = true → w.recordType = .cname →
      reservedName domain w.fqdn = false := by
  constructor
  · exact fun h' w hw henabled hcname => (h' w (h.mem w hw) henabled hcname).1
  · intro hwritten r hr henabled hcname
    rcases h.old r hr with hold | hw
    · refine ⟨(hrows r hold henabled hcname).1, fun s hs henabled' hptr hfqdn => ?_⟩
      rcases h.old s hs with hs' | hs'
      · exact (hrows r hold henabled hcname).2 s hs' henabled' hptr hfqdn
      · by_contra hne
        rw [(h.clear s hs' r hr (Ne.symm hne) hfqdn.symm).1] at henabled
        cases henabled
    · refine ⟨hwritten r hw henabled hcname, fun s hs henabled' _ hfqdn => ?_⟩
      by_contra hne
      rw [(h.clear r hw s hs hne hfqdn).1] at henabled'
      cases henabled'

/-- A row behind the others, at a clear name. -/
theorem Writes.concat {rows : List DnsRecord} {w : DnsRecord}
    (h : Clear rows w.fqdn w.recordType none) : Writes rows (rows ++ [w]) (· = w) where
  old r hr := by simpa using hr
  mem r hr := by simp [hr]
  clear := by
    rintro w rfl r hr hne hfqdn
    have hr : r ∈ rows := by simpa [hne] using hr
    exact h r hr hfqdn (by simp)

/-- A host and its PTR behind the others, at clear names. -/
theorem Writes.host {rows old : List DnsRecord} {host ptr : DnsRecord} {link : Option ℕ}
    (hold : ∀ r ∈ old, r ∈ rows) (hhost : Clear rows host.fqdn host.recordType none)
    (hptr : Clear (rows ++ [host]) ptr.fqdn ptr.recordType none) (henabled : host.enabled = true) :
    Writes rows (old ++ [{ host with ptrRecordId := link }, ptr])
      (fun w => w = { host with ptrRecordId := link } ∨ w = ptr) where
  old r hr := by
    rcases List.mem_append.mp hr with hr | hr
    · exact Or.inl (hold r hr)
    · exact Or.inr (by simpa using hr)
  mem r hr := by
    rcases hr with rfl | rfl <;> simp
  clear := by
    -- the host is enabled, so the PTR is at another name
    have hne : host.fqdn ≠ ptr.fqdn := fun h => by
      have := (hptr host (by simp) h (by simp)).1
      rw [henabled] at this
      cases this
    rintro w (rfl | rfl) r hr hrw hname
    · rcases List.mem_append.mp hr with hr | hr
      · exact hhost r (hold r hr) hname (by simp)
      · simp only [List.mem_cons, hrw, List.not_mem_nil, or_false, false_or] at hr
        rw [hr] at hname
        exact absurd hname.symm hne
    · rcases List.mem_append.mp hr with hr | hr
      · exact hptr r (by simp [hold r hr]) hname (by simp)
      · simp only [List.mem_cons, hrw, List.not_mem_nil, or_false] at hr
        rw [hr] at hname
        exact absurd hname hne

/-- A row changed in its place, to a clear name. -/
theorem Writes.update {rows : List DnsRecord} {id : ℕ} {edit : DnsRecord → DnsRecord} {fqdn : Str}
    {type : RecordType} (hfqdn : ∀ r, (edit r).fqdn = fqdn)
    (htype : ∀ r, (edit r).recordType = type) (h : Clear rows fqdn type (some id))
    (hinj : ∀ r ∈ rows, ∀ s ∈ rows, r.id = s.id → r = s) :
    Writes rows (rows.map fun r => if r.id = id then edit r else r)
      (fun w => ∃ r ∈ rows, r.id = id ∧ w = edit r) where
  old r hr := by
    obtain ⟨s, hs, rfl⟩ := List.mem_map.mp hr
    split_ifs with hsid
    · exact Or.inr ⟨s, hs, hsid, rfl⟩
    · exact Or.inl hs
  mem := by
    rintro _ ⟨r, hr, hrid, rfl⟩
    exact List.mem_map.mpr ⟨r, hr, if_pos hrid⟩
  clear := by
    rintro _ ⟨w, hw, hwid, rfl⟩ r hr hne hname
    obtain ⟨s, hs, rfl⟩ := List.mem_map.mp hr
    split_ifs at hne hname ⊢ with hsid
    · exact absurd (congrArg edit (hinj s hs w hw (hsid.trans hwid.symm))) hne
    · rw [hfqdn] at hname
      rw [htype]
      exact h s hs hname fun heq => hsid (Option.some.inj heq).symm

theorem CnameRows.mono {domain : Str} {rows rows' : List DnsRecord} (h : ∀ r ∈ rows', r ∈ rows)
    (hrows : CnameRows domain rows) : CnameRows domain rows' := fun r hr henabled hcname =>
  ⟨(hrows r (h r hr) henabled hcname).1, fun s hs =>
    (hrows r (h r hr) henabled hcname).2 s (h s hs)⟩

/-! ### One operation -/

theorem mem_toggleRecord {rows : RecordRows} {id : ℕ} {r : DnsRecord} :
    r ∈ (toggleRecord id rows).1 ↔ (r ∈ rows.1 ∧ r.id ≠ id)
      ∨ ∃ s ∈ rows.1, s.id = id ∧ r = { s with enabled := !s.enabled } := by
  unfold toggleRecord LegalRows.map
  rw [List.mem_map]
  constructor
  · rintro ⟨s, hs, rfl⟩
    split_ifs with hid
    · exact Or.inr ⟨s, hs, hid, rfl⟩
    · exact Or.inl ⟨hs, hid⟩
  · rintro (⟨hr, hid⟩ | ⟨s, hs, hid, rfl⟩)
    · exact ⟨r, hr, if_neg hid⟩
    · exact ⟨s, hs, if_pos hid⟩

theorem toggleRecord_separate {rows : RecordRows} {id : ℕ} (h : CnameSeparate rows.1) :
    CnameSeparate (toggleRecord id rows).1 := by
  -- every row keeps its name and its type
  have horigin : ∀ r ∈ (toggleRecord id rows).1,
      ∃ s ∈ rows.1, r.fqdn = s.fqdn ∧ r.recordType = s.recordType := by
    intro r hr
    rcases mem_toggleRecord.mp hr with ⟨hr, -⟩ | ⟨s, hs, -, rfl⟩
    · exact ⟨r, hr, rfl, rfl⟩
    · exact ⟨s, hs, rfl, rfl⟩
  intro r hr s hs hfqdn
  obtain ⟨r₀, hr₀, hrf, hrt⟩ := horigin r hr
  obtain ⟨s₀, hs₀, hsf, hst⟩ := horigin s hs
  rw [hrt, hst]
  exact h r₀ hr₀ s₀ hs₀ (by rw [← hrf, ← hsf, hfqdn])

theorem toggleRecord_cnameRows_iff {u : UnicodeData} {domain : Str} {rows : RecordRows} {id : ℕ}
    (hsep : CnameSeparate rows.1) (hrows : CnameRows domain rows.1) :
    CnameRows domain (toggleRecord id rows).1 ↔ CnameOk u domain rows (.toggleRecord id) := by
  constructor
  · intro h r hr hid hcname henabled
    obtain ⟨hname, hunique⟩ := h { r with enabled := !r.enabled }
      (mem_toggleRecord.mpr (Or.inr ⟨r, hr, hid, rfl⟩)) (by simp [henabled]) hcname
    refine ⟨hname, fun s hs henabled' hfqdn => ?_⟩
    by_cases hsid : s.id = id
    · rw [id_inj hs hr (hsid.trans hid.symm), henabled] at henabled'
      cases henabled'
    · have hptr : s.recordType ≠ .ptr := by
        rw [(hsep s hs r hr hfqdn).mpr hcname]
        decide
      have heq := hunique s (mem_toggleRecord.mpr (Or.inl ⟨hs, hsid⟩)) henabled' hptr hfqdn
      exact hsid ((congrArg DnsRecord.id heq).trans hid)
  · intro hok r' hr' henabled hcname
    rcases mem_toggleRecord.mp hr' with ⟨hr, hrid⟩ | ⟨r, hr, hrid, rfl⟩
    · refine ⟨(hrows r' hr henabled hcname).1, fun s' hs' henabled' hptr hfqdn => ?_⟩
      rcases mem_toggleRecord.mp hs' with ⟨hs, -⟩ | ⟨s, hs, hsid, rfl⟩
      · exact (hrows r' hr henabled hcname).2 s' hs henabled' hptr hfqdn
      · have hdisabled : s.enabled = false := by simpa using henabled'
        exact absurd hfqdn.symm ((hok s hs hsid
          ((hsep s hs r' hr hfqdn).mpr hcname) hdisabled).2 r' hr henabled)
    · have hdisabled : r.enabled = false := by simpa using henabled
      obtain ⟨hname, hclear⟩ := hok r hr hrid hcname hdisabled
      refine ⟨hname, fun s' hs' henabled' _ hfqdn => ?_⟩
      rcases mem_toggleRecord.mp hs' with ⟨hs, -⟩ | ⟨s, hs, hsid, rfl⟩
      · exact absurd hfqdn (hclear s' hs henabled')
      · rw [id_inj hs hr (hsid.trans hrid.symm)]

variable {d : LocalDnsData} {internalDomain : Str}

theorem addressType_ne_cname (ip : IpAddress) :
    (if ip.isV4 then RecordType.a else .aaaa) ≠ .cname := by
  split_ifs <;> decide

/-- **What an operation writes**, for the operations that compare, and what it needs to obey the
rule. -/
theorem localStep_writes {rows rows' : RecordRows} {a : LocalDnsAction} (domain : Str)
    (hchecked : a.checked = true) (htoggle : ∀ id, a ≠ .toggleRecord id)
    (hdelete : ∀ id, a ≠ .deleteRecord id) (h : localStep d internalDomain rows a = some rows') :
    ∃ written, Writes rows.1 rows'.1 written
      ∧ ((∀ w, written w → w.enabled = true → w.recordType = .cname →
          reservedName domain w.fqdn = false) ↔ CnameOk d.toUnicodeData domain rows a) := by
  cases a with
  | addHost hostname dom address ttl comment autoPtr override =>
      obtain ⟨⟨ms, t⟩, hop, rfl⟩ := Option.map_eq_some_iff.mp h
      obtain ⟨label, localDomain, ip, ttl', ⟨-, hrow⟩, hrows⟩ := addHost_spec hop
      have hoverride : override = false := by simpa [LocalDnsAction.checked] using hchecked
      split_ifs at hrows with hauto
      · obtain ⟨owner, zone, hp, hclear', hrows⟩ := hrows
        rw [hrows]
        refine ⟨_, Writes.host (fun r hr => List.mem_of_mem_filter hr) (hrow.clear hoverride)
          (hclear' hoverride) rfl, fun _ => trivial, ?_⟩
        rintro - w (rfl | rfl) - hcname
        · exact absurd hcname (addressType_ne_cname ip)
        · cases hcname
      · rw [hrows]
        refine ⟨_, Writes.concat (hrow.clear hoverride), fun _ => trivial, ?_⟩
        rintro - w rfl - hcname
        exact absurd hcname (addressType_ne_cname ip)
  | addRecord type fqdn value ttl comment enabled override =>
      obtain ⟨⟨ms, t⟩, hop, rfl⟩ := Option.map_eq_some_iff.mp h
      obtain ⟨name, value', ttl', hname, -, hrow, hrows⟩ := addRecord_spec hop
      have hoverride : override = false := by simpa [LocalDnsAction.checked] using hchecked
      rw [hrows]
      refine ⟨_, Writes.concat (hrow.clear hoverride), ?_⟩
      constructor
      · intro hw htype henabled name' hname'
        rw [hname, Option.some.injEq] at hname'
        rw [← hname']
        exact hw _ rfl henabled htype
      · rintro hok w rfl henabled htype
        exact hok htype henabled name hname
  | updateRecord id type fqdn value ttl comment enabled override =>
      obtain ⟨⟨ms, t⟩, hop, rfl⟩ := Option.map_eq_some_iff.mp h
      obtain ⟨name, value', ttl', hname, -, hrow, hrows⟩ := updateRecord_spec hop
      have hoverride : override = false := by simpa [LocalDnsAction.checked] using hchecked
      rw [hrows]
      refine ⟨_, Writes.update (fun _ => rfl) (fun _ => rfl) (hrow.clear hoverride)
        fun r hr s hs => id_inj hr hs, ?_⟩
      constructor
      · rintro hw htype henabled ⟨r, hr, hid⟩ name' hname'
        rw [hname, Option.some.injEq] at hname'
        rw [← hname']
        exact hw _ ⟨r, hr, hid, rfl⟩ henabled htype
      · rintro hok _ ⟨r, hr, hid, rfl⟩ henabled htype
        exact hok htype henabled ⟨r, hr, hid⟩ name hname
  | toggleRecord id => exact absurd rfl (htoggle id)
  | deleteRecord id => exact absurd rfl (hdelete id)

/-- No operation mixes the two sides of the CNAME rule at a name. -/
theorem localStep_separate {rows rows' : RecordRows} {a : LocalDnsAction}
    (hsep : CnameSeparate rows.1) (hchecked : a.checked = true)
    (h : localStep d internalDomain rows a = some rows') : CnameSeparate rows'.1 := by
  by_cases htoggle : ∃ id, a = .toggleRecord id
  · obtain ⟨id, rfl⟩ := htoggle
    cases h
    exact toggleRecord_separate hsep
  · by_cases hdelete : ∃ id, a = .deleteRecord id
    · obtain ⟨id, rfl⟩ := hdelete
      cases h
      exact fun r hr s hs => hsep r (mem_deleteRecord.mp hr).1 s (mem_deleteRecord.mp hs).1
    · obtain ⟨written, hw, -⟩ := localStep_writes [] hchecked
        (not_exists.mp htoggle) (not_exists.mp hdelete) h
      exact hw.separate hsep

/-- **An operation keeps the rule exactly under `CnameOk`.** -/
theorem localStep_cnameRows_iff {rows rows' : RecordRows} {a : LocalDnsAction} {domain : Str}
    (hsep : CnameSeparate rows.1) (hrows : CnameRows domain rows.1) (hchecked : a.checked = true)
    (h : localStep d internalDomain rows a = some rows') :
    CnameRows domain rows'.1 ↔ CnameOk d.toUnicodeData domain rows a := by
  by_cases htoggle : ∃ id, a = .toggleRecord id
  · obtain ⟨id, rfl⟩ := htoggle
    cases h
    exact toggleRecord_cnameRows_iff hsep hrows
  · by_cases hdelete : ∃ id, a = .deleteRecord id
    · obtain ⟨id, rfl⟩ := hdelete
      cases h
      exact iff_of_true (hrows.mono fun r hr => (mem_deleteRecord.mp hr).1) trivial
    · obtain ⟨written, hw, hok⟩ := localStep_writes domain hchecked
        (not_exists.mp htoggle) (not_exists.mp hdelete) h
      rw [hw.cnameRows_iff hrows, hok]

/-! ### Runs -/

/-- A host and a name for it. -/
def exampleActions : List LocalDnsAction :=
  [.addHost "nas".toList [] "192.168.1.5".toList (some 300) [] true false,
   .addRecord .cname "files.home.arpa".toList "nas.home.arpa".toList (some 300) [] true false]

/-- Two disabled names for different hosts, both toggled on. -/
def twinActions : List LocalDnsAction :=
  [.addRecord .cname "www.home.arpa".toList "a.home.arpa".toList (some 300) [] false false,
   .addRecord .cname "www.home.arpa".toList "b.home.arpa".toList (some 300) [] false false,
   .toggleRecord 1, .toggleRecord 2]

/-- **Along a run the zones obey the rule exactly when every operation meets `CnameOk`.** -/
theorem cnameAlone_iff (d : LocalDnsData) (internalDomain : Str) (domain : Domain)
    (defaultTtl serial : ℕ) (actions : List LocalDnsAction) (rows : RecordRows)
    (hchecked : ∀ a ∈ actions, a.checked = true)
    (hrun : localRun d internalDomain actions = some rows) :
    (∀ before reached, before <+: actions → localRun d internalDomain before = some reached →
        ∀ z ∈ zoneFiles domain defaultTtl serial reached.1, CnameAlone z)
      ↔ Runs.StepsMeet (localStep d internalDomain) (CnameOk d.toUnicodeData domain.1)
          LegalRows.empty actions := by
  have hempty : CnameSeparate (LegalRows.empty : RecordRows).1
      ∧ CnameRows domain.1 (LegalRows.empty : RecordRows).1 := by
    simp [CnameSeparate, CnameRows, LegalRows.empty]
  have hiff := @Runs.stepsMeet_iff_forall_reached RecordRows LocalDnsAction
    (localStep d internalDomain) (CnameOk d.toUnicodeData domain.1) (fun a => a.checked = true)
    (fun rows => CnameSeparate rows.1) (fun rows => CnameRows domain.1 rows.1)
    (fun _ _ _ => localStep_separate) (fun _ _ _ => localStep_cnameRows_iff) actions
    LegalRows.empty rows hempty.1 hempty.2 hchecked hrun
  simp only [cnameAlone_zoneFiles]
  exact hiff.symm

/-- The rule holds with a host and a CNAME beside it. -/
theorem cnameAlone_iff_host :
    (∀ before reached, before <+: exampleActions →
        localRun asciiLocalData homeArpa.1 before = some reached →
        ∀ z ∈ zoneFiles homeArpa 300 1 reached.1, CnameAlone z)
      ↔ Runs.StepsMeet (localStep asciiLocalData homeArpa.1)
          (CnameOk asciiLocalData.toUnicodeData homeArpa.1) LegalRows.empty exampleActions :=
  have hrun : (localRun asciiLocalData homeArpa.1 exampleActions).isSome = true := by
    decide +kernel
  cnameAlone_iff asciiLocalData homeArpa.1 homeArpa 300 1 exampleActions _ (by decide)
    (Option.eq_some_of_isSome hrun)

/-- **Two CNAMEs of one name**, entered while disabled and then toggled on. -/
theorem disabled_twins :
    ¬ ∀ (d : LocalDnsData) (internalDomain : Str) (domain : Domain) (defaultTtl serial : ℕ)
        (actions : List LocalDnsAction) (rows : RecordRows),
        (∀ a ∈ actions, a.checked = true) → localRun d internalDomain actions = some rows →
          ∀ z ∈ zoneFiles domain defaultTtl serial rows.1, CnameAlone z := by
  intro h
  have hbad : (localRun asciiLocalData homeArpa.1 twinActions).any
      (fun rows : RecordRows =>
        !decide (∀ z ∈ zoneFiles homeArpa 300 1 rows.1, CnameAlone z)) = true := by
    decide +kernel
  obtain ⟨rows, hrun, hz⟩ := (Option.any_eq_true _ _).mp hbad
  rw [Bool.not_eq_true', decide_eq_false_iff_not] at hz
  exact hz (h asciiLocalData homeArpa.1 homeArpa 300 1 twinActions rows (by decide) hrun)

end AlderpointDNS.LocalDns
