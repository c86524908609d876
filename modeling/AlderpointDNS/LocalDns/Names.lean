import AlderpointDNS.Domains

/-!
# Names of local DNS records

The validation of names in `local_dns.py`.  `isName` is what the name of every record satisfies:
two or more labels that `LABEL_RE` matches.

* `isName_domain`, `isName_host`, `isName_ptrOwner` — the three ways in which a record gets its
  name;
* **`pre_of_isName`** — what stands before a zone in such a name can be written relative to it.
-/

namespace AlderpointDNS.LocalDns

open Text Ipaddress

/-- `[a-z0-9]`. -/
def isAlnum (c : Char) : Bool := ('a' ≤ c && c ≤ 'z') || isDecDigit c

/-- `[a-z0-9](?:[a-z0-9-]{0,61}[a-z0-9])?`. -/
def isLabel (w : Str) : Bool :=
  w ≠ [] && w.length ≤ 63 && w.all (fun c => isAlnum c || c = '-')
    && w.head?.all isAlnum && w.getLast?.all isAlnum

/-- `$` also matches before a final newline. -/
def dropNewline (s : Str) : Str := if s.getLast? = some '\n' then s.dropLast else s

/-- `LABEL_RE.match`. -/
def matchesLabelRe (s : Str) : Bool := isLabel (dropNewline s)

/-- `DOMAIN_RE.match`. -/
def matchesDomainRe (s : Str) : Bool :=
  2 ≤ (split '.' (dropNewline s)).length && (split '.' (dropNewline s)).all isLabel
    && (dropNewline s).length ≤ 253

/-- `.encode("idna").decode("ascii")`: ASCII text only has the lengths of its labels checked. -/
def idnaEncode (u : UnicodeData) (s : Str) : Option Str :=
  if !isAscii s then u.idna s
  else if s = [] then some []
  else if (split '.' s).dropLast.all (fun w => w ≠ [] && w.length < 64)
    && (split '.' s).getLast?.all (·.length < 64) then some s
  else none

/-- A name that `DOMAIN_RE` matches. -/
abbrev Domain := { s : Str // matchesDomainRe s = true }

/-- `DEFAULT_DOMAIN`. -/
def homeArpa : Domain := ⟨"home.arpa".toList, by decide +kernel⟩

/-- `normalize_domain`. -/
def normalizeDomain (u : UnicodeData) (value : Str) : Option Domain :=
  let domain := u.toLower (stripBy (· = '.') (strip value))
  if domain = "local".toList then none
  else (idnaEncode u domain).bind fun domain =>
    if h : matchesDomainRe domain = true then some ⟨domain, h⟩ else none

/-- A name that `LABEL_RE` matches. -/
abbrev Label := { s : Str // matchesLabelRe s = true }

/-- `validate_label`. -/
def validateLabel (u : UnicodeData) (value : Str) : Option Label :=
  let label := u.toLower (stripBy (· = '.') (strip value))
  if h : matchesLabelRe label = true then some ⟨label, h⟩ else none

/-- `validate_ttl` of what `int` makes of the value. -/
def validateTtl (ttl : Option ℤ) : Option ℕ :=
  ttl.bind fun ttl => if ttl < 30 ∨ 86400 < ttl then none else some ttl.toNat

/-- The decimal labels of an IPv4 address, the last octet first. -/
def reverseOctets (ip : ℕ) : List Str := (List.range 4).map fun i => decimal (ip / 256 ^ i % 256)

/-- The labels of an IPv6 address, the last nibble first. -/
def reverseNibbles (ip : ℕ) : List Str := (List.range 32).map fun i => [hexDigit (ip / 16 ^ i % 16)]

/-- `ptr_owner_for_ip` of a parsed address.  An address with a scope id has no reverse pointer. -/
def ptrOwner : IpAddress → Option (Str × Str)
  | .v4 ip =>
      some ((reverseOctets ip).headD [],
        join ['.'] ((reverseOctets ip).tail ++ ["in-addr".toList, "arpa".toList]))
  | .v6 ip none =>
      some ((reverseNibbles ip).headD [],
        join ['.'] ((reverseNibbles ip).tail ++ ["ip6".toList, "arpa".toList]))
  | .v6 _ (some _) => none

/-- `f"{owner}.{zone}"` of `ptr_owner_for_ip`. -/
def ptrFqdn (address : Str) : Option Str :=
  ((ipAddress address).bind ptrOwner).map fun p => p.1 ++ '.' :: p.2

/-! ## Names of records -/

/-- Two or more labels. -/
def isName (s : Str) : Bool :=
  2 ≤ (split '.' (dropNewline s)).length && (split '.' (dropNewline s)).all matchesLabelRe

theorem dot_mem_of_isName {s : Str} (h : isName s = true) : '.' ∈ s := by
  by_contra hdot
  have hdrop : '.' ∉ dropNewline s := by
    unfold dropNewline
    split_ifs
    · exact fun hmem => hdot (List.dropLast_subset _ hmem)
    · exact hdot
  simp [isName, split_of_not_mem hdrop] at h

theorem dropNewline_of_ne {s : Str} (h : s.getLast? ≠ some '\n') : dropNewline s = s := if_neg h

theorem dropNewline_append {s t : Str} (h : t ≠ []) :
    dropNewline (s ++ t) = s ++ dropNewline t := by
  unfold dropNewline
  rw [List.getLast?_append_of_ne_nil _ h]
  split_ifs
  · exact List.dropLast_append_of_ne_nil h
  · rfl

theorem dropNewline_dot (pre zone : Str) :
    ∃ z, dropNewline (pre ++ '.' :: zone) = pre ++ '.' :: z := by
  rw [dropNewline_append (by simp)]
  cases zone with
  | nil => exact ⟨[], rfl⟩
  | cons c zone =>
      rw [← List.singleton_append, dropNewline_append (by simp)]
      exact ⟨_, rfl⟩

theorem isLabel_dropNewline {w : Str} (h : isLabel w = true) : dropNewline w = w := by
  refine dropNewline_of_ne fun hlast => ?_
  simp only [isLabel, Bool.and_eq_true] at h
  have hend := h.2
  rw [hlast] at hend
  exact absurd hend (by decide)

theorem matchesLabelRe_of_isLabel {w : Str} (h : isLabel w = true) : matchesLabelRe w = true := by
  rw [matchesLabelRe, isLabel_dropNewline h, h]

theorem isName_domain (domain : Domain) : isName domain.1 = true := by
  have h := domain.2
  simp only [matchesDomainRe, Bool.and_eq_true, List.all_eq_true] at h
  simp only [isName, Bool.and_eq_true, List.all_eq_true]
  exact ⟨h.1.1, fun w hw => matchesLabelRe_of_isLabel (h.1.2 w hw)⟩

theorem domain_ne {s : Str} (h : matchesDomainRe s = false) (domain : Domain) : domain.1 ≠ s := by
  rintro rfl
  rw [domain.2] at h
  cases h

/-- The characters of a label. -/
theorem mem_of_matchesLabelRe {w : Str} (h : matchesLabelRe w = true) {c : Char} (hc : c ∈ w) :
    isAlnum c = true ∨ c = '-' ∨ c = '\n' := by
  simp only [matchesLabelRe, isLabel, Bool.and_eq_true, List.all_eq_true] at h
  have hall := h.1.1.2
  unfold dropNewline at hall
  split_ifs at hall with hlast
  · obtain ⟨t, rfl⟩ := List.getLast?_eq_some_iff.mp hlast
    rw [List.dropLast_concat] at hall
    rcases List.mem_append.mp hc with hc | hc
    · have := hall c hc
      simp only [Bool.or_eq_true, decide_eq_true_eq] at this
      tauto
    · rw [List.mem_singleton.mp hc]
      exact Or.inr (Or.inr rfl)
  · have := hall c hc
    simp only [Bool.or_eq_true, decide_eq_true_eq] at this
    tauto

theorem dot_not_mem_label {w : Str} (h : matchesLabelRe w = true) : '.' ∉ w := by
  intro hc
  rcases mem_of_matchesLabelRe h hc with hc | hc | hc
  · exact absurd hc (by decide)
  · exact absurd hc (by decide)
  · exact absurd hc (by decide)

theorem isName_host (label : Label) (domain : Domain) :
    isName (label.1 ++ '.' :: domain.1) = true := by
  have hdom := isName_domain domain
  simp only [isName, Bool.and_eq_true, decide_eq_true_eq, List.all_eq_true] at hdom
  have hne : domain.1 ≠ [] := domain_ne (by decide) domain
  have hdrop : dropNewline (label.1 ++ '.' :: domain.1)
      = label.1 ++ '.' :: dropNewline domain.1 := by
    rw [dropNewline_append (by simp), ← List.singleton_append, dropNewline_append hne]
    rfl
  simp only [isName, hdrop, split_append_sep, split_of_not_mem (dot_not_mem_label label.2),
    Bool.and_eq_true, decide_eq_true_eq, List.all_eq_true, List.singleton_append, List.length_cons,
    List.forall_mem_cons]
  exact ⟨by omega, label.2, hdom.2⟩

/-! ### Reverse names -/

theorem isLabel_decimal {n : ℕ} (hn : n < 256) : isLabel (decimal n) = true := by
  have h1000 : n < 1000 := by omega
  have hdigit : ∀ c ∈ decimal n, isAlnum c = true := fun c hc => by
    rw [isAlnum, isDecDigit_of_mem_decimal h1000 hc, Bool.or_true]
  obtain ⟨c, cs, heq, -, hlen, -⟩ := decimal_head_spec h1000
  have hall : (decimal n).all (fun c => isAlnum c || c = '-') = true :=
    List.all_eq_true.mpr fun c hc => by simp [hdigit c hc]
  have hhead : (decimal n).head?.all isAlnum = true := by
    cases h : (decimal n).head? with
    | none => rfl
    | some c => exact hdigit c (List.mem_of_head? h)
  have hlast : (decimal n).getLast?.all isAlnum = true := by
    cases h : (decimal n).getLast? with
    | none => rfl
    | some c => exact hdigit c (List.mem_of_getLast? h)
  have hne : decimal n ≠ [] := by simp [heq]
  have hshort : (decimal n).length ≤ 63 := by
    rw [heq, List.length_cons]
    omega
  simp [isLabel, hne, hshort, hall, hhead, hlast]

theorem isLabel_hexDigit : ∀ n < 16, isLabel [hexDigit n] = true := by decide +kernel

theorem isName_join {parts : List Str} (hparts : ∀ w ∈ parts, isLabel w = true)
    (hlen : 2 ≤ parts.length) : isName (join ['.'] parts) = true := by
  have hlabel : ∀ w ∈ parts, matchesLabelRe w = true := fun w hw =>
    matchesLabelRe_of_isLabel (hparts w hw)
  have hsplit : split '.' (join ['.'] parts) = parts :=
    split_join (fun w hw => dot_not_mem_label (hlabel w hw)) (by rintro rfl; simp at hlen)
  have hdrop : dropNewline (join ['.'] parts) = join ['.'] parts := by
    refine dropNewline_of_ne fun hlast => ?_
    have hmem : ∃ w ∈ split '.' (join ['.'] parts), '\n' ∈ w :=
      mem_of_split (by decide) (List.mem_of_getLast? hlast)
    obtain ⟨w, hw, hc⟩ := hmem
    rw [hsplit] at hw
    have := hparts w hw
    simp only [isLabel, Bool.and_eq_true, List.all_eq_true] at this
    exact absurd (this.1.1.2 _ hc) (by decide)
  simp only [isName, hdrop, hsplit, Bool.and_eq_true, decide_eq_true_eq, List.all_eq_true]
  exact ⟨hlen, hlabel⟩

/-- A reverse name is the labels of the address before those of its zone. -/
theorem reverse_eq_join {labels suffix : List Str} (hne : labels ≠ []) (hne' : suffix ≠ []) :
    labels.headD [] ++ '.' :: join ['.'] (labels.tail ++ suffix) = join ['.'] (labels ++ suffix) := by
  obtain ⟨w, ws, rfl⟩ := List.exists_cons_of_ne_nil hne
  rw [List.headD_cons, List.tail_cons, join, join, List.cons_append,
    List.intercalate_cons_of_ne_nil (by simp [hne'])]
  simp

theorem isName_reverse {labels suffix : List Str} (hlabels : ∀ w ∈ labels, isLabel w = true)
    (hsuffix : ∀ w ∈ suffix, isLabel w = true) (hne : labels ≠ []) (hne' : suffix ≠ []) :
    isName (labels.headD [] ++ '.' :: join ['.'] (labels.tail ++ suffix)) = true := by
  rw [reverse_eq_join hne hne']
  refine isName_join (fun v hv => ?_) ?_
  · exact (List.mem_append.mp hv).elim (hlabels v) (hsuffix v)
  · have := List.length_pos_of_ne_nil hne
    have := List.length_pos_of_ne_nil hne'
    rw [List.length_append]
    omega

theorem isName_ptrOwner {ip : IpAddress} {owner zone : Str}
    (h : ptrOwner ip = some (owner, zone)) : isName (owner ++ '.' :: zone) = true := by
  cases ip with
  | v4 ip =>
      cases h
      refine isName_reverse ?_ (by decide) (by simp [reverseOctets]) (by simp)
      intro w hw
      obtain ⟨i, -, rfl⟩ := List.mem_map.mp hw
      exact isLabel_decimal (Nat.mod_lt _ (by decide))
  | v6 ip scope =>
      cases scope with
      | none =>
          cases h
          refine isName_reverse ?_ (by decide) (by simp [reverseNibbles]) (by simp)
          intro w hw
          obtain ⟨i, -, rfl⟩ := List.mem_map.mp hw
          exact isLabel_hexDigit _ (Nat.mod_lt _ (by decide))
      | some scope => cases h

theorem isName_ptrOwner_bind {ip : Option IpAddress} {owner zone : Str}
    (h : ip.bind ptrOwner = some (owner, zone)) : isName (owner ++ '.' :: zone) = true := by
  obtain ⟨ip, -, h⟩ := Option.bind_eq_some_iff.mp h
  exact isName_ptrOwner h

/-! ### Names relative to a zone -/

/-- What stands before a zone is not empty, not `@`, and does not end in a dot. -/
theorem pre_of_isName {pre zone : Str} (h : isName (pre ++ '.' :: zone) = true) :
    pre ≠ [] ∧ pre ≠ ['@'] ∧ pre.getLast? ≠ some '.' := by
  obtain ⟨z, hz⟩ := dropNewline_dot pre zone
  simp only [isName, hz, split_append_sep, Bool.and_eq_true, List.all_eq_true] at h
  have hpre := fun w hw => h.2 w (List.mem_append_left _ hw)
  refine ⟨?_, ?_, ?_⟩
  · rintro rfl
    exact absurd (hpre [] (by decide)) (by decide)
  · rintro rfl
    exact absurd (hpre ['@'] (by decide)) (by decide)
  · intro hlast
    obtain ⟨p, rfl⟩ := List.getLast?_eq_some_iff.mp hlast
    rw [split_append_sep] at hpre
    exact absurd (hpre [] (by simp [split])) (by decide)

end AlderpointDNS.LocalDns
