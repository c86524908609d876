import AlderpointDNS.Importer.ZoneText
import AlderpointDNS.CustomRules.Precedence

/-!
# What the rows of a zone file denote

A row of `parse_zone_text` denotes the record of its line if the owner, the type and the target are
those of `Reading.record`.

* `zoneOwner_eq_masterName_iff` — when the parser and the rules read an owner alike: `@` and names
  without a dot need the same origin, and other names their last dot and one before it.
* `masterData_eq_iff` — when they read a target alike: the data of an address has no dot at its
  end, and a name has one.
* **`zone_rows_denote_iff`** — the rows that denote the record of their line.
-/

namespace AlderpointDNS.Importer

open Text LocalDns

/-! ## Names -/

/-- A name with labels neither starts nor ends with a dot. -/
theorem ends_of_hasLabels {t : Str} (h : [] ∉ split '.' t) :
    (∀ c ∈ t.head?, (decide (c = '.')) = false) ∧ ∀ c ∈ t.getLast?, (decide (c = '.')) = false := by
  constructor
  · intro c hc
    obtain ⟨t', rfl⟩ := List.head?_eq_some_iff.mp hc
    refine decide_eq_false ?_
    rintro rfl
    exact h (split_cons_sep '.' t' ▸ List.mem_cons_self)
  · intro c hc
    obtain ⟨t', rfl⟩ := List.getLast?_eq_some_iff.mp hc
    refine decide_eq_false ?_
    rintro rfl
    have hsplit : split '.' (t' ++ ['.']) = split '.' t' ++ [[]] := split_append_sep '.' t' []
    exact h (by simp [hsplit])

theorem endsWith_dot_iff {name : Str} : endsWith name ['.'] = true ↔ ∃ t, name = t ++ ['.'] := by
  rw [endsWith, List.isSuffixOf_iff_suffix]
  exact exists_congr fun t => eq_comm

/-- Without white space, stripping takes the last dot. -/
theorem stripBy_strip_name {name : Str} (hspace : ∀ c ∈ name, isSpace c = false)
    (hlabels : hasLabels name = true) : stripBy (· = '.') (strip name) = trimDot name := by
  have hends := ends_of_hasLabels (of_decide_eq_true hlabels)
  have hself := stripBy_eq_self_of_ends hends.1 hends.2
  rw [strip, stripBy_eq_self hspace]
  by_cases hdot : endsWith name ['.'] = true
  · obtain ⟨t, rfl⟩ := endsWith_dot_iff.mp hdot
    have htrim : trimDot (t ++ ['.']) = t := by rw [trimDot, if_pos hdot, List.dropLast_concat]
    rw [htrim] at hself hends ⊢
    have hne : t ≠ [] := by
      rintro rfl
      exact absurd hlabels (by decide)
    have hdrop : (t ++ ['.']).dropWhile (fun c => decide (c = '.')) = t ++ ['.'] := by
      obtain ⟨c, cs, rfl⟩ := List.exists_cons_of_ne_nil hne
      exact List.dropWhile_cons_of_neg (by simpa using hends.1 c rfl)
    have hkeep : t.rdropWhile (fun c => decide (c = '.')) = t :=
      List.rdropWhile_eq_self_iff.mpr fun hne => by
        simpa using hends.2 _ (List.getLast?_eq_some_getLast hne)
    rw [stripBy, hdrop, List.rdropWhile_concat_pos _ _ _ (by decide), hkeep]
  · rw [trimDot, if_neg hdot] at hself ⊢
    exact hself

/-! ### Labels and domains -/

/-- A label starts with a letter or a digit. -/
theorem label_cons (label : Label) : ∃ c cs, label.1 = c :: cs ∧ isAlnum c = true := by
  have h := label.2
  simp only [matchesLabelRe, LocalDns.isLabel, Bool.and_eq_true, decide_eq_true_eq] at h
  obtain ⟨c, cs, hcs⟩ := List.exists_cons_of_ne_nil h.1.1.1.1
  have hc : isAlnum c = true := by simpa [hcs] using h.1.2
  have hprefix : dropNewline label.1 <+: label.1 := by
    unfold dropNewline
    split_ifs
    · exact List.dropLast_prefix _
    · exact List.prefix_rfl
  obtain ⟨rest, hrest⟩ := hprefix
  exact ⟨c, cs ++ rest, by rw [← hrest, hcs, List.cons_append], hc⟩

theorem isAlnum_spec {c : Char} (h : isAlnum c = true) :
    c.toNat < 128 ∧ c.toLower = c ∧ isSpace c = false ∧ c ≠ '.' := by
  have key : ∀ k : Fin 128, isAlnum (Char.ofNat k) = true → (Char.ofNat k).toLower = Char.ofNat k ∧
      isSpace (Char.ofNat k) = false ∧ Char.ofNat k ≠ '.' := by decide +kernel
  have hc : c.toNat < 128 := by
    simp only [isAlnum, Ipaddress.isDecDigit, Bool.or_eq_true, Bool.and_eq_true,
      decide_eq_true_eq] at h
    rcases h with h | h
    · exact Nat.lt_of_le_of_lt (show c.toNat ≤ 'z'.toNat from h.2) (by decide)
    · exact Nat.lt_of_le_of_lt (show c.toNat ≤ '9'.toNat from h.2) (by decide)
  have hkey := key ⟨c.toNat, hc⟩
  rw [Char.ofNat_toNat] at hkey
  exact ⟨hc, hkey h⟩

/-- What `DOMAIN_RE` matches before a final newline. -/
theorem domain_spec (d : Domain) : [] ∉ split '.' (dropNewline d.1) ∧
    ∀ c ∈ dropNewline d.1, isAlnum c = true ∨ c = '-' ∨ c = '.' := by
  have h := d.2
  simp only [LocalDns.matchesDomainRe, Bool.and_eq_true, List.all_eq_true] at h
  refine ⟨fun hnil => absurd (h.1.2 [] hnil) (by decide), fun c hc => ?_⟩
  by_cases hdot : c = '.'
  · exact Or.inr (Or.inr hdot)
  · obtain ⟨w, hw, hcw⟩ := mem_of_split hdot hc
    have hlabel := h.1.2 w hw
    simp only [LocalDns.isLabel, Bool.and_eq_true, List.all_eq_true] at hlabel
    have hchar := hlabel.1.1.2 c hcw
    simp only [Bool.or_eq_true, decide_eq_true_eq] at hchar
    tauto

/-- A domain is its text before a final newline, perhaps with the newline. -/
theorem dropNewline_cases (s : Str) : s = dropNewline s ∨ s = dropNewline s ++ ['\n'] := by
  unfold dropNewline
  split_ifs with h
  · obtain ⟨t, rfl⟩ := List.getLast?_eq_some_iff.mp h
    exact Or.inr (by rw [List.dropLast_concat])
  · exact Or.inl rfl

/-- The first label of a domain. -/
theorem isLabel_of_domain {label : Label} {zone : Str}
    (h : LocalDns.matchesDomainRe (label.1 ++ '.' :: zone) = true) :
    LocalDns.isLabel label.1 = true := by
  obtain ⟨z, hz⟩ := dropNewline_dot label.1 zone
  simp only [LocalDns.matchesDomainRe, hz, split_append_sep,
    split_of_not_mem (dot_not_mem_label label.2), Bool.and_eq_true, List.all_eq_true] at h
  exact h.1.2 label.1 (by simp)

/-! ### A label before an origin -/

theorem mem_complete {origin : Domain} {label : Label} {c : Char}
    (hc : c ∈ complete origin label.1) : c.toNat < 128 ∧ c.toLower = c := by
  have hcases : isAlnum c = true ∨ c = '-' ∨ c = '\n' ∨ c = '.' := by
    rcases List.mem_append.mp hc with hc | hc
    · have := mem_of_matchesLabelRe label.2 hc
      tauto
    · rcases List.mem_cons.mp hc with hc | hc
      · exact Or.inr (Or.inr (Or.inr hc))
      · have := (domain_spec origin).2 c hc
        tauto
  rcases hcases with hc | rfl | rfl | rfl
  · exact ⟨(isAlnum_spec hc).1, (isAlnum_spec hc).2.1⟩
  all_goals decide

/-- The completed name has nothing at its ends that is stripped. -/
theorem complete_ends (origin : Domain) (label : Label) :
    (∀ c ∈ (complete origin label.1).head?, isSpace c = false ∧ c ≠ '.') ∧
      ∀ c ∈ (complete origin label.1).getLast?, isSpace c = false ∧ c ≠ '.' := by
  obtain ⟨hnil, hchars⟩ := domain_spec origin
  constructor
  · intro b hb
    obtain ⟨c, cs, hlabel, hc⟩ := label_cons label
    rw [complete, hlabel] at hb
    cases hb
    exact (isAlnum_spec hc).2.2
  · intro b hb
    have hne : dropNewline origin.1 ≠ [] := by
      intro hempty
      rw [hempty] at hnil
      exact hnil (by decide)
    rw [complete, List.getLast?_append_of_ne_nil _ (by simp), List.getLast?_cons_of_ne_nil hne]
      at hb
    have hdot : b ≠ '.' := of_decide_eq_false ((ends_of_hasLabels hnil).2 b hb)
    refine ⟨?_, hdot⟩
    rcases hchars b (List.mem_of_getLast? hb) with hb | rfl | hb
    · exact (isAlnum_spec hb).2.2.1
    · decide
    · exact absurd hb hdot

/-- Stripping takes a final newline from a name. -/
theorem strip_dropNewline {s : Str} (hhead : ∀ c ∈ (dropNewline s).head?, isSpace c = false)
    (hlast : ∀ c ∈ (dropNewline s).getLast?, isSpace c = false) : strip s = dropNewline s := by
  have hself : strip (dropNewline s) = dropNewline s := stripBy_eq_self_of_ends hhead hlast
  rcases dropNewline_cases s with heq | heq
  · rwa [← heq] at hself ⊢
  · cases hcons : dropNewline s with
    | nil =>
        rw [heq, hcons]
        decide
    | cons c cs =>
        have hspace : isSpace c = false := hhead c (by rw [hcons]; rfl)
        rw [hcons, strip, stripBy, List.dropWhile_cons_of_neg (by simp [hspace])] at hself
        rw [heq, hcons, strip, stripBy, List.cons_append,
          List.dropWhile_cons_of_neg (by simp [hspace]), ← List.cons_append,
          List.rdropWhile_concat_pos _ _ _ (by decide)]
        exact hself

theorem dropNewline_label_origin (origin : Domain) (label : Label) :
    dropNewline (label.1 ++ '.' :: origin.1) = complete origin label.1 := by
  have hne : origin.1 ≠ [] := domain_ne (by decide) origin
  rw [dropNewline_append (by simp), ← List.singleton_append, dropNewline_append hne]
  rfl

/-- A final newline of the origin is stripped. -/
theorem strip_label_origin (origin : Domain) (label : Label) :
    strip (label.1 ++ '.' :: origin.1) = complete origin label.1 := by
  obtain ⟨hhead, hlast⟩ := complete_ends origin label
  rw [← dropNewline_label_origin] at hhead hlast ⊢
  exact strip_dropNewline (fun c hc => (hhead c hc).1) fun c hc => (hlast c hc).1

section Unicode

variable {u : UnicodeData}

/-- `normalize_domain` is the regular expression on the encoded name. -/
theorem normalizeDomain_eq (value : Str) :
    LocalDns.normalizeDomain u value
      = (idnaEncode u (u.toLower (stripBy (· = '.') (strip value)))).bind toDomain := by
  rw [LocalDns.normalizeDomain]
  split_ifs with hlocal
  · have hencode : idnaEncode u "local".toList = some "local".toList := by
      rw [idnaEncode, if_neg (by decide +kernel), if_neg (by decide +kernel),
        if_pos (by decide +kernel)]
    rw [hlocal, hencode, Option.bind_some, toDomain, dif_neg (by decide +kernel)]
  · rfl

theorem toDomain_eq_some_iff {s : Str} {d : Domain} : toDomain s = some d ↔ s = d.1 := by
  unfold toDomain
  split_ifs with h
  · rw [Option.some_inj]
    exact ⟨fun heq => congrArg Subtype.val heq, fun heq => Subtype.ext heq⟩
  · constructor
    · intro hnone
      cases hnone
    · rintro rfl
      exact absurd d.2 h

/-- The owner of a name that is not `@`. -/
theorem zoneOwner_eq {origin : Domain} {name : Str} (hat : name ≠ ['@'])
    (hspace : ∀ c ∈ name, isSpace c = false) (hlabels : hasLabels name = true) :
    zoneOwner u origin name
      = if '.' ∈ u.toLower (trimDot name) then (encodeName u (trimDot name)).bind toDomain
        else (validateLabel u (u.toLower (trimDot name))).bind fun label =>
          LocalDns.normalizeDomain u (label.1 ++ '.' :: origin.1) := by
  have hne : origin.1 ≠ [] := domain_ne (by decide) origin
  rw [zoneOwner, if_neg hat, normalizeFqdn, stripBy_strip_name hspace hlabels]
  by_cases hdot : '.' ∈ u.toLower (trimDot name)
  · rw [if_neg fun h => h.2 hdot, if_pos hdot, normalizeDomain_eq, encodeName]
  · rw [if_pos ⟨hne, hdot⟩, if_neg hdot]

theorem validateLabel_val {value : Str} {label : Label} (h : validateLabel u value = some label) :
    u.toLower (stripBy (· = '.') (strip value)) = label.1 := by
  unfold validateLabel at h
  generalize u.toLower (stripBy (· = '.') (strip value)) = text at h ⊢
  by_cases hmatch : matchesLabelRe text = true
  · rw [dif_pos hmatch] at h
    rw [← Option.some.inj h]
  · rw [dif_neg hmatch] at h
    cases h

/-- ASCII text is not changed. -/
theorem idnaEncode_ascii {s t : Str} (hascii : isAscii s = true) (h : idnaEncode u s = some t) :
    t = s := by
  rw [idnaEncode, if_neg (by simp [hascii])] at h
  split_ifs at h with hnil hlabels
  · rw [hnil]
    exact (Option.some.inj h).symm
  · exact (Option.some.inj h).symm

/-- A label before the origin is completed by `normalize_domain` as it is written. -/
theorem normalizeDomain_label {label : Label} {origin d : Domain}
    (h : LocalDns.normalizeDomain u (label.1 ++ '.' :: origin.1) = some d) :
    d.1 = complete origin label.1 := by
  obtain ⟨hhead, hlast⟩ := complete_ends origin label
  have hdots : stripBy (· = '.') (complete origin label.1) = complete origin label.1 :=
    stripBy_eq_self_of_ends (fun b hb => decide_eq_false (hhead b hb).2)
      fun b hb => decide_eq_false (hlast b hb).2
  obtain ⟨hascii, hself⟩ := u.toLower_eq_self fun b hb => mem_complete hb
  rw [normalizeDomain_eq, strip_label_origin, hdots, hself] at h
  obtain ⟨t, ht, hd⟩ := Option.bind_eq_some_iff.mp h
  rw [← toDomain_eq_some_iff.mp hd, idnaEncode_ascii hascii ht]

theorem length_lt_complete (origin : Domain) (name : Str) :
    name.length < (complete origin name).length := by
  rw [complete, List.length_append, List.length_cons]
  omega

/-! ## Owners -/

/-- A name without a dot is a label, completed with the origin of the parser. -/
theorem zoneOwner_label {origin d : Domain} {name : Str} (hat : name ≠ ['@'])
    (hspace : ∀ c ∈ name, isSpace c = false) (hlabels : hasLabels name = true)
    (hdot : '.' ∉ u.toLower (trimDot name)) (h : zoneOwner u origin name = some d) :
    ∃ label, encodeName u (trimDot name) = some label ∧ d.1 = complete origin label ∧
      '.' ∉ label := by
  rw [zoneOwner_eq hat hspace hlabels, if_neg hdot] at h
  obtain ⟨label, hlabel, hd⟩ := Option.bind_eq_some_iff.mp h
  have hcomplete := normalizeDomain_label hd
  have hmatch := d.2
  rw [hcomplete, complete] at hmatch
  have hislabel := isLabel_of_domain hmatch
  refine ⟨label.1, ?_, hcomplete, dot_not_mem_label label.2⟩
  have hvalid := validateLabel_val hlabel
  have hascii : isAscii label.1 = true := by
    refine List.all_eq_true.mpr fun c hc => decide_eq_true ?_
    rcases mem_of_matchesLabelRe label.2 hc with hc | rfl | rfl
    · exact (isAlnum_spec hc).1
    all_goals decide
  simp only [LocalDns.isLabel, Bool.and_eq_true, decide_eq_true_eq] at hislabel
  have hlength : label.1.length < 64 := by omega
  rw [encodeName, hvalid, idnaEncode, if_neg (by simp [hascii]), if_neg hislabel.1.1.1.1,
    if_pos (by simp [split_of_not_mem (dot_not_mem_label label.2), hlength])]

/-- The parser, from its origin, and the rules, from theirs, read an owner alike: `@` and a label
from the same origin, and any other name if it ends in a dot. -/
def OwnerAlike (u : UnicodeData) (origin origin' : Domain) (name : Str) : Prop :=
  if name = ['@'] then origin = origin'
  else hasLabels name = true ∧
    if endsWith name ['.'] then '.' ∈ u.toLower (trimDot name)
    else '.' ∉ u.toLower (trimDot name) ∧ dropNewline origin.1 = dropNewline origin'.1

/-- **When the parser and the rules read an owner alike.** -/
theorem zoneOwner_eq_masterName_iff {origin origin' d : Domain} {name : Str}
    (hspace : ∀ c ∈ name, isSpace c = false) (h : zoneOwner u origin name = some d) :
    masterName u origin' name = some d ↔ OwnerAlike u origin origin' name := by
  unfold masterName OwnerAlike
  by_cases hat : name = ['@']
  · rw [zoneOwner, if_pos hat] at h
    rw [if_pos hat, if_pos hat, ← h, Option.some_inj, eq_comm]
  rw [if_neg hat, if_neg hat]
  by_cases hlabels : hasLabels name = true
  swap
  · simp [hlabels]
  rw [if_neg (by simp [hlabels]), and_iff_right hlabels]
  by_cases hdot : '.' ∈ u.toLower (trimDot name)
  · rw [zoneOwner_eq hat hspace hlabels, if_pos hdot] at h
    by_cases hend : endsWith name ['.'] = true
    · simp only [hend, if_true, h, hdot]
    · -- the parser takes the name as it is, and the completed name is longer
      obtain ⟨s, hs, hd⟩ := Option.bind_eq_some_iff.mp h
      have hlength := length_lt_complete origin' s
      simp only [hend, Bool.false_eq_true, if_false, hs, Option.bind_some, toDomain_eq_some_iff,
        hdot, not_true, false_and, iff_false, ← toDomain_eq_some_iff.mp hd]
      intro heq
      rw [heq] at hlength
      omega
  · obtain ⟨label, hlabel, hd, hnodot⟩ := zoneOwner_label hat hspace hlabels hdot h
    by_cases hend : endsWith name ['.'] = true
    · -- a single label is not a domain
      simp only [hend, if_true, hlabel, Option.bind_some, toDomain_eq_some_iff, hdot, iff_false, hd]
      rintro heq
      rw [heq] at hnodot
      exact hnodot (by simp [complete])
    · simp only [hend, Bool.false_eq_true, if_false, hlabel, Option.bind_some,
        toDomain_eq_some_iff, hd, hdot, not_false_eq_true, true_and, complete,
        List.append_cancel_left_eq, List.cons.injEq, true_and]
      exact eq_comm

/-! ## Targets -/

/-- The parser and the rules read a target alike. -/
def TargetAlike (recordType : RecordType) (data : Str) : Prop :=
  if recordType.isAddress then endsWith data ['.'] = false
  else data = ['.'] ∨ endsWith data ['.'] = true ∧ hasLabels data = true

theorem rdropWhile_of_hasLabels {t : Str} (h : [] ∉ split '.' t) :
    t.rdropWhile (fun c => decide (c = '.')) = t :=
  List.rdropWhile_eq_self_iff.mpr fun hne => by
    simpa using (ends_of_hasLabels h).2 _ (List.getLast?_eq_some_getLast hne)

/-- **When the parser and the rules read a target alike.** -/
theorem masterData_eq_iff {origin : Domain} {recordType : RecordType} {data : Str} :
    masterData origin recordType data = some (data.rdropWhile (· = '.'))
      ↔ TargetAlike recordType data := by
  unfold masterData TargetAlike
  by_cases haddress : recordType.isAddress = true
  · rw [if_pos haddress, if_pos haddress, Option.some_inj, eq_comm, List.rdropWhile_eq_self_iff,
      ← Bool.not_eq_true, endsWith_dot_iff]
    constructor
    · rintro h ⟨t, rfl⟩
      exact h (by simp) (by simp)
    · intro h hne hlast
      exact h ⟨data.dropLast, by
        rw [← of_decide_eq_true hlast, List.dropLast_append_getLast hne]⟩
  rw [if_neg haddress, if_neg haddress]
  by_cases hat : data = ['@']
  · subst hat
    rw [if_pos rfl, Option.some_inj]
    exact iff_of_false (domain_ne (by decide) origin) (by decide)
  rw [if_neg hat]
  by_cases hroot : data = ['.']
  · subst hroot
    simp
  rw [if_neg hroot, or_iff_right hroot]
  by_cases hlabels : hasLabels data = true
  swap
  · simp [hlabels]
  rw [if_neg (by simp [hlabels]), and_iff_left hlabels]
  have hself := rdropWhile_of_hasLabels (of_decide_eq_true hlabels)
  by_cases hend : endsWith data ['.'] = true
  · obtain ⟨t, rfl⟩ := endsWith_dot_iff.mp hend
    rw [trimDot, if_pos hend, List.dropLast_concat] at hself
    rw [if_pos hend, List.dropLast_concat, List.rdropWhile_concat_pos _ _ _ (by decide), hself]
    exact iff_of_true rfl hend
  · -- the completed name is longer
    rw [trimDot, if_neg hend] at hself
    rw [if_neg hend, hself, Option.some_inj]
    have hlength := length_lt_complete origin data
    exact iff_of_false (fun heq => by rw [heq] at hlength; omega) hend

/-! ## The rows -/

theorem matchZoneLine_rdropWhile (line : Str) :
    matchZoneLine (line.rdropWhile isSpace) = matchZoneLine line := by
  unfold matchZoneLine
  rw [words_rdropWhile]

/-- The words that `ZONE_LINE_RE` matches: if the rules find the fields of a record among them,
they are the same fields, and a name among the fields is a time to live or a class. -/
theorem words_of_matchZoneLine {line name data : Str} {ttl : Option Str} {recordType : RecordType}
    (h : matchZoneLine line = some (name, ttl, recordType, data)) :
    ∃ ws, words line = name :: ws ∧ (∀ f, masterFields ws = some f → f = (recordType, data)) ∧
      ∀ f, masterFields (name :: ws) = some f →
        f = (recordType, data) ∧ (isMasterTtl name || isMasterClass name) = true := by
  unfold matchZoneLine at h
  split at h
  · rename_i n type d hwords
    obtain ⟨t, ht, heq⟩ := Option.map_eq_some_iff.mp h
    cases heq
    refine ⟨[type, data], hwords, fun f hf => ?_, fun f hf => ?_⟩
    · simpa [masterFields, ht, eq_comm] using hf
    · simp only [masterFields, ht, Option.map_some] at hf
      split_ifs at hf with hfirst
      exact ⟨(Option.some.inj hf).symm, hfirst⟩
  · rename_i n x type d hwords
    have hfields : typeToken type = some recordType ∧ n = name ∧ d = data := by
      split_ifs at h
      all_goals
        obtain ⟨t, ht, heq⟩ := Option.map_eq_some_iff.mp h
        cases heq
        exact ⟨ht, rfl, rfl⟩
    obtain ⟨ht, rfl, rfl⟩ := hfields
    refine ⟨[x, type, d], hwords, fun f hf => ?_, fun f hf => ?_⟩
    · simp only [masterFields, ht, Option.map_some] at hf
      split_ifs at hf
      exact (Option.some.inj hf).symm
    · simp only [masterFields, ht, Option.map_some] at hf
      split_ifs at hf with hfirst
      refine ⟨(Option.some.inj hf).symm, ?_⟩
      rcases Bool.or_eq_true_iff.mp hfirst with hfirst | hfirst
      · rw [(Bool.and_eq_true_iff.mp hfirst).1, Bool.true_or]
      · rw [(Bool.and_eq_true_iff.mp hfirst).1, Bool.or_true]
  · rename_i n y x type d hwords
    split_ifs at h
    obtain ⟨t, ht, heq⟩ := Option.map_eq_some_iff.mp h
    cases heq
    refine ⟨[y, x, type, data], hwords, fun f hf => ?_, fun f hf => ?_⟩
    · simp only [masterFields, ht, Option.map_some] at hf
      split_ifs at hf
      exact (Option.some.inj hf).symm
    · cases hf
  · cases h

/-- A line that gives a row. -/
theorem zoneStep_row {origin origin' : Domain} {raw : Str} {row : ZoneRow}
    (h : zoneStep u origin raw = some (origin', some row)) :
    (partition ';' raw).1.head? ≠ some '$' ∧
      ∃ name ttl data,
        matchZoneLine (partition ';' raw).1 = some (name, ttl, row.recordType, data) ∧
          zoneOwner u origin name = some row.fqdn ∧ row.target = data.rdropWhile (· = '.') := by
  simp only [zoneStep, matchZoneLine_rdropWhile] at h
  split_ifs at h with hempty horigin hrest hdollar
  · cases h
  · obtain ⟨o, -, heq⟩ := Option.map_eq_some_iff.mp h
    cases heq
  · cases h
  · refine ⟨fun hhead => hdollar ?_, ?_⟩
    · obtain ⟨rest, hrest⟩ := List.head?_eq_some_iff.mp hhead
      obtain ⟨kept, hkept⟩ := prefix_rdropWhile_append (p := isSpace) (x := ['$']) (by simp)
        (by decide) rest
      rw [hrest, ← List.singleton_append, ← hkept]
      rfl
    · cases hmatch : matchZoneLine (partition ';' raw).1 with
      | none =>
          rw [hmatch] at h
          cases h
      | some groups =>
          obtain ⟨name, ttl, recordType, data⟩ := groups
          rw [hmatch] at h
          obtain ⟨fqdn, hfqdn, heq⟩ := Option.map_eq_some_iff.mp h
          cases heq
          exact ⟨name, ttl, data, rfl, hfqdn, rfl⟩

/-- The characters that `I` and `N` are in any case. -/
theorem mem_of_toUpper {c : Char} (h : c.toUpper ∈ ['I', 'N']) :
    c = 'I' ∨ c = 'N' ∨ c = 'i' ∨ c = 'n' := by
  by_cases hlower : 97 ≤ c.toNat ∧ c.toNat ≤ 122
  · have key : ∀ k : Fin 26, (Char.ofNat (97 + k)).toUpper ∈ ['I', 'N'] →
        Char.ofNat (97 + k) = 'i' ∨ Char.ofNat (97 + k) = 'n' := by decide
    have hc : Char.ofNat (97 + (c.toNat - 97)) = c := by
      rw [Nat.add_sub_cancel' hlower.1, Char.ofNat_toNat]
    have hkey := key ⟨c.toNat - 97, by omega⟩
    simp only [hc] at hkey
    exact Or.inr (Or.inr (hkey h))
  · have hself : c.toUpper = c := dif_neg hlower
    rw [hself] at h
    rcases List.mem_pair.mp h with h | h
    · exact Or.inl h
    · exact Or.inr (Or.inl h)

/-- A time to live and a class are labels without a dot. -/
theorem ownerAlike_of_field (origin : Domain) {name : Str} (hne : name ≠ [])
    (h : (isMasterTtl name || isMasterClass name) = true) : OwnerAlike u origin origin name := by
  have hchars : ∀ c ∈ name, c.toNat < 128 ∧ c ≠ '.' ∧ c ≠ '@' ∧ c.toLower ≠ '.' := by
    intro c hc
    rcases Bool.or_eq_true_iff.mp h with h | h
    · have hdigit := List.all_eq_true.mp (Bool.and_eq_true_iff.mp h).2 c hc
      obtain ⟨hascii, hlower, -, hdot⟩ := isAlnum_spec (c := c) (by simp [isAlnum, hdigit])
      refine ⟨hascii, hdot, ?_, by rwa [hlower]⟩
      rintro rfl
      exact absurd hdigit (by decide)
    · have hmem := List.mem_map_of_mem (f := Char.toUpper) hc
      rw [of_decide_eq_true h] at hmem
      rcases mem_of_toUpper hmem with rfl | rfl | rfl | rfl
      all_goals decide
  have hdot : '.' ∉ name := fun hmem => (hchars _ hmem).2.1 rfl
  have hend : endsWith name ['.'] ≠ true := by
    intro hend
    obtain ⟨t, rfl⟩ := endsWith_dot_iff.mp hend
    exact hdot (by simp)
  have htrim : trimDot name = name := if_neg hend
  have hlabels : hasLabels name = true := by
    rw [hasLabels, htrim, split_of_not_mem hdot]
    exact decide_eq_true (by simpa [eq_comm] using hne)
  have hlower : '.' ∉ u.toLower name := by
    have hascii : isAscii name = true :=
      List.all_eq_true.mpr fun c hc => decide_eq_true (hchars c hc).1
    rw [UnicodeData.toLower, if_pos hascii]
    intro hmem
    obtain ⟨c, hc, heq⟩ := List.mem_map.mp hmem
    exact (hchars c hc).2.2.2 heq
  have hat : name ≠ ['@'] := by
    rintro rfl
    exact (hchars '@' (by simp)).2.2.1 rfl
  unfold OwnerAlike
  rw [if_neg hat, if_neg hend, htrim]
  exact ⟨hlabels, hlower, rfl⟩

namespace Reading

theorem record_eq_some_iff {r : Reading} {raw : Str} {owner : Domain} {recordType : RecordType}
    {target : Str} : r.record u raw = some (owner, recordType, target) ↔
      (r.depth = 0 ∧ isPlain (partition ';' raw).1 = true ∧
          (partition ';' raw).1.head? ≠ some '$') ∧
        r.ownerOf u (partition ';' raw).1 = some owner ∧
        ∃ data, masterFields (fieldsOf (partition ';' raw).1) = some (recordType, data) ∧
          masterData r.origin recordType data = some target := by
  unfold record
  dsimp only
  split_ifs with hform
  · constructor
    · intro h
      cases h
    · rintro ⟨⟨hdepth, hplain, hdollar⟩, -⟩
      rcases hform with h | h | h
      · omega
      · rw [hplain] at h
        cases h
      · exact absurd h hdollar
  · simp only [not_or, Bool.not_eq_false, Nat.pos_iff_ne_zero, not_not] at hform
    rw [and_iff_right hform]
    simp only [Option.bind_eq_bind, Option.bind_eq_some_iff, Option.pure_def, Option.some_inj,
      Prod.mk.injEq, Prod.exists]
    constructor
    · rintro ⟨o, ho, t, data, hfields, target', htarget, rfl, rfl, rfl⟩
      exact ⟨ho, data, hfields, htarget⟩
    · rintro ⟨ho, data, hfields, htarget⟩
      exact ⟨owner, ho, recordType, data, hfields, target, htarget, rfl, rfl, rfl⟩

end Reading

end Unicode

namespace ReadRow

variable (u : UnicodeData) (x : ReadRow)

/-- The row is the record of its line. -/
def Denotes : Prop := x.reading.record u x.line = some (x.row.fqdn, x.row.recordType, x.row.target)

/-- The line is not inside of parentheses, has none, and no quotes or escapes; its fields are those
of a record, with a target that is read alike.  Its owner is read alike too, or the line has no
owner and its first field is the last owner. -/
def Readable : Prop :=
  let line := (partition ';' x.line).1
  x.reading.depth = 0 ∧ isPlain line = true ∧
    (∃ recordType data, masterFields (fieldsOf line) = some (recordType, data) ∧
      TargetAlike recordType data) ∧
    if isContinued line then x.reading.owner = masterName u x.origin ((words line).headD [])
    else OwnerAlike u x.origin x.reading.origin ((words line).headD [])

variable {u x}

/-- The row that a line gives. -/
theorem denotes_iff {origin' : Domain}
    (h : zoneStep u x.origin x.line = some (origin', some x.row)) :
    x.Denotes u ↔ x.Readable u := by
  obtain ⟨hdollar, name, ttl, data, hmatch, howner, htarget⟩ := zoneStep_row h
  obtain ⟨ws, hwords, htail, hall⟩ := words_of_matchZoneLine hmatch
  obtain ⟨hne, hspace⟩ := mem_words (hwords ▸ List.mem_cons_self)
  -- the fields that the rules find are those of the row
  have hfields : ∀ f, masterFields (fieldsOf (partition ';' x.line).1) = some f →
      f = (x.row.recordType, data) ∧ (isContinued (partition ';' x.line).1 = true →
        (isMasterTtl name || isMasterClass name) = true) := by
    intro f hf
    rw [fieldsOf, hwords] at hf
    split_ifs at hf with hcontinued
    · exact ⟨(hall f hf).1, fun _ => (hall f hf).2⟩
    · exact ⟨htail f hf, fun hcontinued' => absurd hcontinued' hcontinued⟩
  have htargets : (∃ d, masterFields (fieldsOf (partition ';' x.line).1)
        = some (x.row.recordType, d) ∧
        masterData x.reading.origin x.row.recordType d = some x.row.target) ↔
      ∃ t d, masterFields (fieldsOf (partition ';' x.line).1) = some (t, d) ∧
        TargetAlike t d := by
    rw [htarget]
    constructor
    · rintro ⟨d, hf, hd⟩
      cases (hfields _ hf).1
      exact ⟨x.row.recordType, data, hf, masterData_eq_iff.mp hd⟩
    · rintro ⟨t, d, hf, hd⟩
      cases (hfields _ hf).1
      exact ⟨data, hf, masterData_eq_iff.mpr hd⟩
  unfold Denotes Readable
  dsimp only
  rw [Reading.record_eq_some_iff, and_iff_left hdollar, and_assoc, htargets, and_comm (b := ∃ _, _),
    hwords, List.headD_cons]
  refine and_congr_right fun _ => and_congr_right fun _ => and_congr_right ?_
  rintro ⟨t, d, hf, -⟩
  rw [Reading.ownerOf, hwords, List.headD_cons]
  split_ifs with hcontinued
  · have halike := ownerAlike_of_field (u := u) x.origin hne ((hfields _ hf).2 hcontinued)
    rw [(zoneOwner_eq_masterName_iff hspace howner).mpr halike]
  · exact zoneOwner_eq_masterName_iff hspace howner

end ReadRow

section Unicode

variable {u : UnicodeData}

/-! ## The zone file -/

/-- The loop with the readings returns the rows of the loop without. -/
theorem zoneRows_eq_readRows (origin : Domain) (reading : Reading) (lines : List Str) :
    zoneRows u origin lines = (readRows u origin reading lines).map (List.map ReadRow.row) := by
  induction lines generalizing origin reading with
  | nil => rfl
  | cons raw lines ih =>
      rw [zoneRows, readRows]
      cases hstep : zoneStep u origin raw with
      | none => rfl
      | some result =>
          obtain ⟨origin', row⟩ := result
          simp only [Option.bind_eq_bind, Option.bind_some, ih origin' (reading.next u raw)]
          cases readRows u origin' (reading.next u raw) lines with
          | none => rfl
          | some rows => cases row with
            | none => rfl
            | some row => rfl

/-- Each row comes from its line. -/
theorem zoneStep_of_mem {origin : Domain} {reading : Reading} {lines : List Str}
    {xs : List ReadRow} (h : readRows u origin reading lines = some xs) {x : ReadRow}
    (hx : x ∈ xs) :
    ∃ origin', zoneStep u x.origin x.line = some (origin', some x.row) := by
  induction lines generalizing origin reading xs with
  | nil =>
      cases h
      cases hx
  | cons raw lines ih =>
      rw [readRows] at h
      obtain ⟨⟨origin', row⟩, hstep, h⟩ := Option.bind_eq_some_iff.mp h
      obtain ⟨rows, hrows, heq⟩ := Option.bind_eq_some_iff.mp h
      cases heq
      rcases List.mem_append.mp hx with hx | hx
      · obtain ⟨row', hrow, rfl⟩ := List.mem_map.mp hx
        cases Option.mem_toList.mp hrow
        exact ⟨origin', hstep⟩
      · exact ih hrows hx

/-- **The rows of a zone file that denote the record of their line.** -/
theorem zone_rows_denote_iff (u : UnicodeData) (text defaultDomain : Str) :
    parseZoneText u text defaultDomain
        = (readZone u text defaultDomain).map (List.map ReadRow.row) ∧
      ∀ xs ∈ readZone u text defaultDomain, ∀ x ∈ xs, x.Denotes u ↔ x.Readable u := by
  constructor
  · rw [parseZoneText, readZone, Option.map_bind]
    exact congrArg _ (funext fun domain => zoneRows_eq_readRows domain _ _)
  · intro xs hxs x hx
    obtain ⟨domain, -, hrows⟩ := Option.bind_eq_some_iff.mp hxs
    obtain ⟨origin', hstep⟩ := zoneStep_of_mem hrows hx
    exact ReadRow.denotes_iff hstep

end Unicode

/-! ### A target without a dot at its end -/

def exampleCom : Domain := ⟨"example.com".toList, by decide +kernel⟩

/-- `www CNAME host` in the zone `example.com`. -/
def wwwCname : ReadRow where
  row := {
    fqdn := ⟨"www.example.com".toList, by decide +kernel⟩
    recordType := .cname
    target := "host".toList
    ttl := "300".toList }
  origin := exampleCom
  reading := { origin := exampleCom }
  line := "www CNAME host".toList

/-- The name is completed with the origin, and the target is not. -/
theorem relative_target_not_completed :
    readZone asciiData "www CNAME host".toList "example.com".toList = some [wwwCname] ∧
      wwwCname.reading.record asciiData wwwCname.line
        = some (wwwCname.row.fqdn, .cname, "host.example.com".toList) ∧
      ¬ wwwCname.Denotes asciiData := by
  have hrecord : wwwCname.reading.record asciiData wwwCname.line
      = some (wwwCname.row.fqdn, .cname, "host.example.com".toList) := by decide +kernel
  refine ⟨by decide +kernel, hrecord, fun hdenotes => ?_⟩
  rw [ReadRow.Denotes, hrecord] at hdenotes
  exact absurd hdenotes (by decide +kernel)

end AlderpointDNS.Importer
