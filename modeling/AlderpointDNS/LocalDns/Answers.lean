import AlderpointDNS.LocalDns.Zones

/-!
# Which zone answers for a record

An authoritative server consults the longest zone name that a name ends in.  A record is written
into the zone that it picks by itself (`recordZone`), so it is answered when no other record makes
a deeper zone above it, and when no reverse zone has the name of a forward zone.

* `exists_zone_iff` — the names of the zones;
* `zone_of_line` — the line of a record stands in the zone it picks only;
* `nodup_zones_iff`, `answerable_iff` — the two halves;
* **`allAnswerable_iff`** — the zones have distinct names and every enabled record is answered
  exactly when the table is `Unshadowed`.
-/

namespace AlderpointDNS.LocalDns

open Text

/-- The longest zone name that the record's name ends in is that of a zone with the record. -/
def Answerable (files : List ZoneFile) (r : DnsRecord) : Prop :=
  ∃ z ∈ files, inZone r.fqdn z.zone = true ∧ recordLine z.zone r ∈ z.records
    ∧ ∀ z' ∈ files, inZone r.fqdn z'.zone = true → z'.zone.length ≤ z.zone.length

instance (files : List ZoneFile) (r : DnsRecord) : Decidable (Answerable files r) :=
  inferInstanceAs (Decidable (∃ z ∈ files, _))

/-- The zone of `build_zone_files` that a record is written into. -/
def recordZone (domain : Str) (r : DnsRecord) : Str :=
  if r.recordType = .ptr then parentName r.fqdn else forwardZoneForFqdn r.fqdn domain

theorem recordZone_ptr {domain : Str} {r : DnsRecord} (h : r.recordType = .ptr) :
    recordZone domain r = parentName r.fqdn := if_pos h

theorem recordZone_forward {domain : Str} {r : DnsRecord} (h : r.recordType ≠ .ptr) :
    recordZone domain r = forwardZoneForFqdn r.fqdn domain := if_neg h

theorem inZone_recordZone (domain : Str) (r : DnsRecord) :
    inZone r.fqdn (recordZone domain r) = true := by
  unfold recordZone
  split_ifs
  · exact r.inZone_parentName
  · exact r.inZone_forwardZone domain

/-! ## The zones and their lines -/

section Files

variable {domain : Domain} {defaultTtl serial : ℕ} {rows : RecordRows}

variable (domain defaultTtl serial) in
/-- Every record stands in the zone it picks. -/
theorem exists_file {r : DnsRecord} (hr : r ∈ rows.1) (henabled : r.enabled = true) :
    ∃ z ∈ zoneFiles domain defaultTtl serial rows.1,
      z.zone = recordZone domain.1 r ∧ recordLine z.zone r ∈ z.records := by
  by_cases hptr : r.recordType = .ptr
  · have hmem := mem_reverseZone.mpr ⟨hr, henabled, hptr, (rfl : parentName r.fqdn = _)⟩
    refine ⟨_, List.mem_append_right _ (mem_filesOf.mpr ⟨_, _, lookup_reverseZones.mpr
      ⟨⟨r, List.mem_of_mem_filter hmem, rfl⟩, rfl⟩, rfl⟩), (recordZone_ptr hptr).symm, ?_⟩
    exact List.mem_map_of_mem hmem
  · have hmem := mem_forwardZone.mpr
      ⟨hr, henabled, hptr, (rfl : forwardZoneForFqdn r.fqdn domain.1 = _)⟩
    refine ⟨_, List.mem_append_left _ (mem_filesOf.mpr ⟨_, _, lookup_forwardZones.mpr
      ⟨Or.inr ⟨r, List.mem_of_mem_filter hmem, rfl⟩, rfl⟩, rfl⟩),
      (recordZone_forward hptr).symm, ?_⟩
    exact List.mem_map_of_mem hmem

theorem exists_zone_iff {name : Str} :
    (∃ z ∈ zoneFiles domain defaultTtl serial rows.1, z.zone = name) ↔
      name = domain.1 ∨ ∃ r ∈ rows.1, r.enabled = true ∧ recordZone domain.1 r = name := by
  constructor
  · rintro ⟨z, hz, rfl⟩
    rcases List.mem_append.mp hz with hz | hz
    · obtain ⟨zone, rs, hrs, rfl⟩ := mem_filesOf.mp hz
      rcases (lookup_forwardZones.mp hrs).1 with hzone | ⟨r, hr, hzone⟩
      · exact Or.inl hzone
      · obtain ⟨hr, henabled, hptr⟩ := mem_forwardRecords.mp hr
        exact Or.inr ⟨r, hr, henabled, (recordZone_forward hptr).trans hzone⟩
    · obtain ⟨zone, rs, hrs, rfl⟩ := mem_filesOf.mp hz
      obtain ⟨r, hr, hzone⟩ := (lookup_reverseZones.mp hrs).1
      obtain ⟨hr, henabled, hptr⟩ := mem_reverseRecords.mp hr
      exact Or.inr ⟨r, hr, henabled, (recordZone_ptr hptr).trans hzone⟩
  · rintro (rfl | ⟨r, hr, henabled, rfl⟩)
    · exact ⟨_, List.mem_append_left _ (mem_filesOf.mpr ⟨_, _, lookup_forwardZones.mpr
        ⟨Or.inl rfl, rfl⟩, rfl⟩), rfl⟩
    · obtain ⟨z, hz, hzone, -⟩ := exists_file domain defaultTtl serial hr henabled
      exact ⟨z, hz, hzone⟩

/-- The lines of a zone are those of records that pick it. -/
theorem exists_record {z : ZoneFile} {l : ZoneLine}
    (hz : z ∈ zoneFiles domain defaultTtl serial rows.1) (hl : l ∈ z.records) :
    ∃ r ∈ rows.1, r.enabled = true ∧ recordZone domain.1 r = z.zone
      ∧ recordLine z.zone r = l := by
  rcases List.mem_append.mp hz with hz | hz
  · obtain ⟨zone, rs, hrs, rfl⟩ := mem_filesOf.mp hz
    obtain ⟨-, rfl⟩ := lookup_forwardZones.mp hrs
    obtain ⟨r, hr, rfl⟩ := List.mem_map.mp hl
    obtain ⟨hr, henabled, hptr, hzone⟩ := mem_forwardZone.mp hr
    exact ⟨r, hr, henabled, (recordZone_forward hptr).trans hzone, rfl⟩
  · obtain ⟨zone, rs, hrs, rfl⟩ := mem_filesOf.mp hz
    obtain ⟨-, rfl⟩ := lookup_reverseZones.mp hrs
    obtain ⟨r, hr, rfl⟩ := List.mem_map.mp hl
    obtain ⟨hr, henabled, hptr, hzone⟩ := mem_reverseZone.mp hr
    exact ⟨r, hr, henabled, (recordZone_ptr hptr).trans hzone, rfl⟩

theorem text_injective : Function.Injective RecordType.text := by
  intro s t
  cases s <;> cases t <;> decide

/-- Records with one line in a zone have one key. -/
theorem sameKey_of_recordLine {zone : Str} {r s : DnsRecord} (hr : inZone r.fqdn zone = true)
    (hs : inZone s.fqdn zone = true) (h : recordLine zone r = recordLine zone s) :
    r.sameKey s = true := by
  simp only [recordLine, ZoneLine.mk.injEq] at h
  obtain ⟨howner, -, htype, hdata⟩ := h
  have htype := text_injective htype
  have hfqdn : r.fqdn = s.fqdn := by
    rw [← absolute_relName r.named hr, howner, absolute_relName s.named hs]
  have hvalue : r.value = s.value := by
    rw [htype] at hdata
    split_ifs at hdata
    · exact List.append_cancel_right hdata
    · exact hdata
  simp [DnsRecord.sameKey, hfqdn, htype, hvalue]

theorem key_inj {r s : DnsRecord} (hr : r ∈ rows.1) (hs : s ∈ rows.1) (h : r.sameKey s = true) :
    r = s := by
  by_contra hne
  have hkey : rows.1.Pairwise fun r s => r.sameKey s = false := rows.2.imp fun {r s} h =>
    (Bool.or_eq_false_iff.mp h).2
  have hsymm : Std.Symm fun r s : DnsRecord => r.sameKey s = false := ⟨fun r s hrs => by
    simpa only [DnsRecord.sameKey, eq_comm] using hrs⟩
  rw [hkey.forall hr hs hne] at h
  cases h

/-- **The line of a record stands in the zone it picks only.** -/
theorem zone_of_line {z : ZoneFile} {r : DnsRecord}
    (hz : z ∈ zoneFiles domain defaultTtl serial rows.1) (hr : r ∈ rows.1)
    (hin : inZone r.fqdn z.zone = true) (hl : recordLine z.zone r ∈ z.records) :
    z.zone = recordZone domain.1 r := by
  obtain ⟨s, hs, -, hzone, hline⟩ := exists_record hz hl
  have hsin : inZone s.fqdn z.zone = true := by
    rw [← hzone]
    exact inZone_recordZone domain.1 s
  rw [← hzone, key_inj hs hr (sameKey_of_recordLine hsin hin hline)]

/-! ## The two halves -/

/-- Zones above one name are ordered by their lengths. -/
theorem inZone_total {name a b : Str} (ha : inZone name a = true) (hb : inZone name b = true) :
    a.length < b.length ↔ a ∈ parents b := by
  have hlt : ∀ {p q : Str}, p ∈ parents q → p.length < q.length := fun h => by
    have := ((mem_parents _ _).mp h).length_le
    rw [List.length_cons] at this
    omega
  refine ⟨fun h => ?_, hlt⟩
  rcases inZone_iff.mp ha with rfl | ha
  · rcases inZone_iff.mp hb with rfl | hb
    · omega
    · have := hlt hb
      omega
  · rcases inZone_iff.mp hb with rfl | hb
    · exact ha
    · rcases parents_total ha hb with rfl | hab | hba
      · omega
      · exact hab
      · have := hlt hba
        omega

/-- **A record is answered exactly when no zone lies below its own.** -/
theorem answerable_iff {r : DnsRecord} (hr : r ∈ rows.1) (henabled : r.enabled = true) :
    Answerable (zoneFiles domain defaultTtl serial rows.1) r ↔
      ∀ name, inZone r.fqdn name = true → recordZone domain.1 r ∈ parents name →
        name ≠ domain.1 ∧ ∀ s ∈ rows.1, s.enabled = true → recordZone domain.1 s ≠ name := by
  have hown := inZone_recordZone domain.1 r
  have hnone (name : Str) : (name ≠ domain.1
      ∧ ∀ s ∈ rows.1, s.enabled = true → recordZone domain.1 s ≠ name) ↔
        ¬ ∃ z ∈ zoneFiles domain defaultTtl serial rows.1, z.zone = name := by
    rw [exists_zone_iff, not_or]
    simp only [not_exists, not_and, ne_eq]
  simp only [hnone]
  constructor
  · rintro ⟨z, hz, hin, hl, hlongest⟩ name hname hdeeper ⟨z', hz', rfl⟩
    rw [zone_of_line hz hr hin hl] at hlongest
    have := hlongest z' hz' hname
    have := (inZone_total hown hname).mpr hdeeper
    omega
  · intro h
    obtain ⟨z, hz, hzone, hl⟩ := exists_file domain defaultTtl serial hr henabled
    refine ⟨z, hz, hzone ▸ hown, hl, fun z' hz' hin => ?_⟩
    by_contra hlt
    rw [not_le, hzone] at hlt
    exact h z'.zone hin ((inZone_total hown hin).mp hlt) ⟨z', hz', rfl⟩

/-- **The zones have distinct names exactly when no reverse zone is a forward zone.** -/
theorem nodup_zones_iff :
    ((zoneFiles domain defaultTtl serial rows.1).map (·.zone)).Nodup ↔
      ∀ p ∈ rows.1, p.enabled = true → p.recordType = .ptr → parentName p.fqdn ≠ domain.1
        ∧ ∀ r ∈ rows.1, r.enabled = true → r.recordType ≠ .ptr →
          forwardZoneForFqdn r.fqdn domain.1 ≠ parentName p.fqdn := by
  have hfiles (zones : Dict Str (List DnsRecord)) :
      (filesOf zones serial defaultTtl).map (·.zone) = sorted zones.keys := by
    rw [filesOf, List.map_map]
    exact List.map_id _
  have hkeys {zones : Dict Str (List DnsRecord)} {zone : Str} :
      zone ∈ sorted zones.keys ↔ ∃ rs, zones.lookup zone = some rs := by
    rw [mem_sorted, Dict.mem_keys_iff, Option.isSome_iff_exists]
  rw [zoneFiles, List.map_append, hfiles, hfiles, List.nodup_append]
  rw [and_iff_right (sorted_nodup (AList.keys_nodup _)),
    and_iff_right (sorted_nodup (AList.keys_nodup _))]
  constructor
  · intro h p hp henabled hptr
    have hreverse : parentName p.fqdn ∈ sorted (reverseZones rows.1).keys :=
      hkeys.mpr ⟨_, lookup_reverseZones.mpr
        ⟨⟨p, mem_reverseRecords.mpr ⟨hp, henabled, hptr⟩, rfl⟩, rfl⟩⟩
    refine ⟨fun heq => ?_, fun r hr henabled' hptr' heq => ?_⟩
    · exact h _ (hkeys.mpr ⟨_, lookup_forwardZones.mpr ⟨Or.inl heq, rfl⟩⟩) _ hreverse rfl
    · exact h _ (hkeys.mpr ⟨_, lookup_forwardZones.mpr
        ⟨Or.inr ⟨r, mem_forwardRecords.mpr ⟨hr, henabled', hptr'⟩, heq⟩, rfl⟩⟩) _ hreverse rfl
  · rintro h zone hforward _ hreverse rfl
    obtain ⟨_, hforward⟩ := hkeys.mp hforward
    obtain ⟨_, hreverse⟩ := hkeys.mp hreverse
    obtain ⟨p, hp, rfl⟩ := (lookup_reverseZones.mp hreverse).1
    obtain ⟨hp, henabled, hptr⟩ := mem_reverseRecords.mp hp
    rcases (lookup_forwardZones.mp hforward).1 with heq | ⟨r, hr, heq⟩
    · exact (h p hp henabled hptr).1 heq
    · obtain ⟨hr, henabled', hptr'⟩ := mem_forwardRecords.mp hr
      exact (h p hp henabled hptr).2 r hr henabled' hptr' heq

end Files

/-! ## Tables without shadows -/

/-- No record hides another one or a zone. -/
structure Unshadowed (domain : Str) (rows : List DnsRecord) : Prop where
  /-- The parent of a PTR record's name is no forward zone. -/
  apart : ∀ p ∈ rows, p.enabled = true → p.recordType = .ptr → parentName p.fqdn ≠ domain
    ∧ ∀ r ∈ rows, r.enabled = true → r.recordType ≠ .ptr →
      forwardZoneForFqdn r.fqdn domain ≠ parentName p.fqdn
  /-- Inside the internal domain no PTR record makes a zone above a host or CNAME. -/
  inside : ∀ r ∈ rows, r.enabled = true → r.recordType ≠ .ptr → inZone r.fqdn domain = true →
    ∀ p ∈ rows, p.enabled = true → p.recordType = .ptr → domain ∈ parents (parentName p.fqdn) →
      inZone r.fqdn (parentName p.fqdn) = false
  /-- A name written into the zone of its parent is not a zone itself. -/
  outside : ∀ r ∈ rows, r.enabled = true →
    (r.recordType = .ptr ∨ inZone r.fqdn domain = false ∧ 3 ≤ (split '.' r.fqdn).length) →
      r.fqdn ≠ domain ∧ ∀ s ∈ rows, s.enabled = true → recordZone domain s ≠ r.fqdn

theorem recordZone_of_outside {domain : Str} {r : DnsRecord}
    (h : r.recordType = .ptr ∨ inZone r.fqdn domain = false ∧ 3 ≤ (split '.' r.fqdn).length) :
    recordZone domain r = parentName r.fqdn := by
  by_cases hptr : r.recordType = .ptr
  · exact recordZone_ptr hptr
  · obtain ⟨hin, hlabels⟩ := h.resolve_left hptr
    rw [recordZone_forward hptr, forwardZoneForFqdn, hin, if_neg Bool.false_ne_true,
      if_neg (by omega)]

/-- The only zone name below the parent of a name is the name itself. -/
theorem eq_of_parentName_mem {r : DnsRecord} {name : Str} (hin : inZone r.fqdn name = true)
    (hdeeper : parentName r.fqdn ∈ parents name) : name = r.fqdn := by
  rcases inZone_iff.mp hin with h | h
  · exact h.symm
  · rw [r.parents_fqdn] at h
    rcases List.mem_cons.mp h with rfl | h
    · exact absurd rfl (ne_of_mem_parents hdeeper)
    · exact absurd rfl (ne_of_mem_parents (parents_trans hdeeper h))

theorem inZone_trans {name a b : Str} (ha : inZone name a = true) (hb : b ∈ parents a) :
    inZone name b = true := by
  rcases inZone_iff.mp ha with rfl | ha
  · exact inZone_iff.mpr (Or.inr hb)
  · exact inZone_iff.mpr (Or.inr (parents_trans hb ha))

section Tables

variable {domain : Domain} {defaultTtl serial : ℕ} {rows : RecordRows}

theorem unshadowed_of_answerable
    (hnodup : ((zoneFiles domain defaultTtl serial rows.1).map (·.zone)).Nodup)
    (hanswer : ∀ r ∈ rows.1, r.enabled = true →
      Answerable (zoneFiles domain defaultTtl serial rows.1) r) :
    Unshadowed domain.1 rows.1 := by
  have hnone := fun r hr henabled => (answerable_iff hr henabled).mp (hanswer r hr henabled)
  refine ⟨nodup_zones_iff.mp hnodup, fun r hr henabled hptr hin p hp henabled' hptr' hdeeper => ?_,
    fun r hr henabled hout => ?_⟩
  · by_contra hshadow
    have hzone : recordZone domain.1 r = domain.1 := by
      rw [recordZone_forward hptr, forwardZoneForFqdn, if_pos hin]
    rw [← hzone] at hdeeper
    exact (hnone r hr henabled (parentName p.fqdn) (Bool.eq_true_of_not_eq_false hshadow)
      hdeeper).2 p hp henabled' (recordZone_ptr hptr')
  · refine hnone r hr henabled r.fqdn (inZone_iff.mpr (Or.inl rfl)) ?_
    rw [recordZone_of_outside hout, r.parents_fqdn]
    exact List.mem_cons_self

theorem Unshadowed.nodup (h : Unshadowed domain.1 rows.1) :
    ((zoneFiles domain defaultTtl serial rows.1).map (·.zone)).Nodup :=
  nodup_zones_iff.mpr h.apart

variable (defaultTtl serial) in
theorem Unshadowed.answerable (h : Unshadowed domain.1 rows.1) {r : DnsRecord} (hr : r ∈ rows.1)
    (henabled : r.enabled = true) :
    Answerable (zoneFiles domain defaultTtl serial rows.1) r := by
  refine (answerable_iff hr henabled).mpr fun name hname hdeeper => ?_
  by_cases hout : r.recordType = .ptr
      ∨ inZone r.fqdn domain.1 = false ∧ 3 ≤ (split '.' r.fqdn).length
  · rw [recordZone_of_outside hout] at hdeeper
    rw [eq_of_parentName_mem hname hdeeper]
    exact h.outside r hr henabled hout
  · rw [not_or, not_and, not_le] at hout
    obtain ⟨hptr, hin⟩ := hout
    rw [recordZone_forward hptr, forwardZoneForFqdn] at hdeeper
    by_cases hdom : inZone r.fqdn domain.1 = true
    · rw [if_pos hdom] at hdeeper
      refine ⟨(ne_of_mem_parents hdeeper).symm, fun s hs henabled' hzone => ?_⟩
      by_cases hptr' : s.recordType = .ptr
      · rw [recordZone_ptr hptr'] at hzone
        subst hzone
        rw [h.inside r hr henabled hptr hdom s hs henabled' hptr' hdeeper] at hname
        cases hname
      · -- a forward zone below the internal domain would be that of a name inside it
        have hsin := inZone_trans (hzone ▸ inZone_recordZone domain.1 s) hdeeper
        rw [recordZone_forward hptr', forwardZoneForFqdn, if_pos hsin] at hzone
        exact ne_of_mem_parents hdeeper hzone
    · rw [if_neg hdom] at hdeeper
      rw [if_pos (hin (Bool.eq_false_iff.mpr hdom))] at hdeeper
      rcases inZone_iff.mp hname with hname | hname
      · exact absurd hname (ne_of_mem_parents hdeeper)
      · exact absurd rfl (ne_of_mem_parents (parents_trans hdeeper hname))

end Tables

/-- **The zones have distinct names and every enabled record is answered exactly when no record
hides another.** -/
theorem allAnswerable_iff (domain : Domain) (defaultTtl serial : ℕ) (rows : RecordRows) :
    (((zoneFiles domain defaultTtl serial rows.1).map (·.zone)).Nodup
      ∧ ∀ r ∈ rows.1, r.enabled = true →
        Answerable (zoneFiles domain defaultTtl serial rows.1) r)
      ↔ Unshadowed domain.1 rows.1 :=
  ⟨fun h => unshadowed_of_answerable h.1 h.2,
    fun h => ⟨h.nodup, fun _ hr henabled => h.answerable defaultTtl serial hr henabled⟩⟩

/-- Two hosts, the second one below the first. -/
def nestedActions : List LocalDnsAction :=
  [.addRecord .a "x.example.com".toList "10.0.0.1".toList (some 300) [] true false,
   .addRecord .a "y.x.example.com".toList "10.0.0.2".toList (some 300) [] true false]

/-- **A host hides the host above it**: its zone has that host's name. -/
theorem nested_hosts :
    ¬ ∀ (domain : Domain) (defaultTtl serial : ℕ) (rows : RecordRows),
        ((zoneFiles domain defaultTtl serial rows.1).map (·.zone)).Nodup
          ∧ ∀ r ∈ rows.1, r.enabled = true →
            Answerable (zoneFiles domain defaultTtl serial rows.1) r := by
  intro h
  have hbad : (localRun asciiLocalData homeArpa.1 nestedActions).any
      (fun rows : RecordRows => rows.1.any fun r => r.enabled
        && !decide (Answerable (zoneFiles homeArpa 300 1 rows.1) r)) = true := by
    decide +kernel
  obtain ⟨rows, -, hr⟩ := (Option.any_eq_true _ _).mp hbad
  obtain ⟨r, hr, hbad⟩ := List.any_eq_true.mp hr
  rw [Bool.and_eq_true, Bool.not_eq_true', decide_eq_false_iff_not] at hbad
  exact hbad.2 ((h homeArpa 300 1 rows).2 r hr hbad.1)

end AlderpointDNS.LocalDns
