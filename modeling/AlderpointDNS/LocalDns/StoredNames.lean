import AlderpointDNS.Importer.ZoneRecords
import Mathlib.Algebra.Order.BigOperators.Group.List

/-!
# Names that are normalized again

A name in the table is a domain of `normalize_domain`, a label of `validate_label` before such a
domain, or the reverse name of an address.  `IsFinal` says that `normalize_domain` leaves the name
as it is.

* **`normalizeDomain_stored`** — what `normalize_domain` makes of a stored name: the name without
  a final newline, if it is a domain;
* `normalizeDomain_eq_self_iff` — it keeps exactly the names of at most 253 characters without a
  newline;
* `isFinal_host_iff`, `isFinal_ptrOwner` — the names of `add_host`.
-/

namespace AlderpointDNS.LocalDns

open Text Ipaddress
open Importer (toDomain toDomain_eq_some_iff normalizeDomain_eq complete complete_ends mem_complete
  domain_spec ends_of_hasLabels isAlnum_spec strip_dropNewline dropNewline_label_origin
  idnaEncode_ascii)

/-- A domain, or a label before a domain. -/
def IsStoredName (s : Str) : Prop :=
  ∃ domain : Domain, s = domain.1 ∨ ∃ label : Label, s = label.1 ++ '.' :: domain.1

/-- A name on one line that is not too long. -/
structure IsFinal (s : Str) : Prop where
  name : isName s = true
  line : '\n' ∉ s
  length : s.length ≤ 253

/-! ## Normalizing again -/

/-- A stored name without its final newline is plain, also at its ends. -/
theorem storedName_spec {s : Str} (h : IsStoredName s) :
    (∀ c ∈ dropNewline s, c.toNat < 128 ∧ c.toLower = c) ∧
      (∀ c ∈ (dropNewline s).head?, isSpace c = false ∧ c ≠ '.') ∧
      ∀ c ∈ (dropNewline s).getLast?, isSpace c = false ∧ c ≠ '.' := by
  obtain ⟨domain, rfl | ⟨label, rfl⟩⟩ := h
  · obtain ⟨hnil, hchars⟩ := domain_spec domain
    obtain ⟨hhead, hlast⟩ := ends_of_hasLabels hnil
    have hspace : ∀ c ∈ dropNewline domain.1, c ≠ '.' → isSpace c = false := by
      intro c hc hdot
      rcases hchars c hc with hc | rfl | hc
      · exact (isAlnum_spec hc).2.2.1
      · decide
      · exact absurd hc hdot
    refine ⟨fun c hc => ?_, fun c hc => ?_, fun c hc => ?_⟩
    · rcases hchars c hc with hc | rfl | rfl
      · exact ⟨(isAlnum_spec hc).1, (isAlnum_spec hc).2.1⟩
      all_goals decide
    · have hdot : c ≠ '.' := of_decide_eq_false (hhead c hc)
      exact ⟨hspace c (List.mem_of_mem_head? hc) hdot, hdot⟩
    · have hdot : c ≠ '.' := of_decide_eq_false (hlast c hc)
      exact ⟨hspace c (List.mem_of_getLast? hc) hdot, hdot⟩
  · rw [dropNewline_label_origin]
    exact ⟨fun c hc => mem_complete hc, complete_ends domain label⟩

section Unicode

variable {u : UnicodeData} {s : Str}

/-- The labels of a domain are short enough to be encoded. -/
theorem idnaEncode_domain (domain : Domain) (hascii : isAscii domain.1 = true)
    (hline : dropNewline domain.1 = domain.1) : idnaEncode u domain.1 = some domain.1 := by
  have h := domain.2
  simp only [LocalDns.matchesDomainRe, hline, Bool.and_eq_true, decide_eq_true_eq, List.all_eq_true]
    at h
  have hlabel : ∀ w ∈ split '.' domain.1, w ≠ [] ∧ w.length < 64 := by
    intro w hw
    have hlabel := h.1.2 w hw
    simp only [LocalDns.isLabel, Bool.and_eq_true, decide_eq_true_eq] at hlabel
    exact ⟨hlabel.1.1.1.1, by omega⟩
  have hne : domain.1 ≠ [] := domain_ne (by decide) domain
  rw [idnaEncode, if_neg (by simp [hascii]), if_neg hne, if_pos]
  rw [Bool.and_eq_true, List.all_eq_true]
  refine ⟨fun w hw => ?_, ?_⟩
  · simpa using hlabel w (List.dropLast_subset _ hw)
  · cases hlast : (split '.' domain.1).getLast? with
    | none => rfl
    | some w => exact decide_eq_true (hlabel w (List.mem_of_getLast? hlast)).2

/-- **A stored name loses its final newline.** -/
theorem normalizeDomain_stored (h : IsStoredName s) :
    LocalDns.normalizeDomain u s = toDomain (dropNewline s) := by
  obtain ⟨hchars, hhead, hlast⟩ := storedName_spec h
  have hdots : stripBy (· = '.') (dropNewline s) = dropNewline s :=
    stripBy_eq_self_of_ends (fun c hc => decide_eq_false (hhead c hc).2)
      fun c hc => decide_eq_false (hlast c hc).2
  obtain ⟨hascii, hlower⟩ := u.toLower_eq_self hchars
  rw [normalizeDomain_eq, strip_dropNewline (fun c hc => (hhead c hc).1) fun c hc => (hlast c hc).1,
    hdots, hlower]
  cases hdomain : toDomain (dropNewline s) with
  | none =>
      rw [Option.bind_eq_none_iff]
      intro t ht
      rw [idnaEncode_ascii hascii ht, hdomain]
  | some domain =>
      have hself := toDomain_eq_some_iff.mp hdomain
      have hline : dropNewline domain.1 = domain.1 := by
        refine dropNewline_of_ne fun hnewline => ?_
        rw [← hself] at hnewline
        exact absurd (hlast _ hnewline).1 (by decide)
      rw [hself] at hascii ⊢
      rw [idnaEncode_domain domain hascii hline, Option.bind_some, ← hself, hdomain]

theorem matchesLabelRe_line {w : Str} (h : matchesLabelRe w = true) (hline : '\n' ∉ w) :
    LocalDns.isLabel w = true := by
  rwa [matchesLabelRe, dropNewline_of_ne fun hlast => hline (List.mem_of_getLast? hlast)] at h

theorem matchesDomainRe_of_isFinal (h : IsFinal s) : LocalDns.matchesDomainRe s = true := by
  have hself : dropNewline s = s :=
    dropNewline_of_ne fun hlast => h.line (List.mem_of_getLast? hlast)
  have hname := h.name
  simp only [isName, hself, Bool.and_eq_true, List.all_eq_true] at hname
  simp only [LocalDns.matchesDomainRe, hself, Bool.and_eq_true, List.all_eq_true, decide_eq_true_eq]
  refine ⟨⟨of_decide_eq_true hname.1, fun w hw => matchesLabelRe_line (hname.2 w hw) ?_⟩, h.length⟩
  intro hmem
  refine h.line ?_
  rw [← join_split '.' s]
  exact (infix_join hw).subset hmem

theorem isFinal_domain_iff (domain : Domain) : IsFinal domain.1 ↔ '\n' ∉ domain.1 := by
  refine ⟨fun h => h.line, fun h => ⟨isName_domain domain, h, ?_⟩⟩
  have hmatch := domain.2
  simp only [LocalDns.matchesDomainRe, Bool.and_eq_true, decide_eq_true_eq,
    dropNewline_of_ne fun hlast => h (List.mem_of_getLast? hlast)] at hmatch
  exact hmatch.2

/-- What a stored name is normalized to is final. -/
theorem isFinal_of_normalizeDomain (h : IsStoredName s) {domain : Domain}
    (hdomain : LocalDns.normalizeDomain u s = some domain) : IsFinal domain.1 := by
  rw [normalizeDomain_stored h, toDomain_eq_some_iff] at hdomain
  rw [isFinal_domain_iff]
  intro hmem
  obtain ⟨hchars, -, hlast⟩ := storedName_spec h
  rw [hdomain] at hlast
  have hself : dropNewline domain.1 = domain.1 := by
    refine dropNewline_of_ne fun hnewline => ?_
    exact absurd (hlast _ hnewline).1 (by decide)
  rcases (domain_spec domain).2 '\n' (by rwa [hself]) with hc | hc | hc
  · exact absurd hc (by decide)
  · exact absurd hc (by decide)
  · exact absurd hc (by decide)

/-- **Exactly the final names are kept.** -/
theorem normalizeDomain_eq_self_iff (h : IsStoredName s) :
    (LocalDns.normalizeDomain u s).map (·.1) = some s ↔ IsFinal s := by
  constructor
  · intro hself
    obtain ⟨domain, hdomain, rfl⟩ := Option.map_eq_some_iff.mp hself
    exact isFinal_of_normalizeDomain h hdomain
  · intro hfinal
    have hself : dropNewline s = s :=
      dropNewline_of_ne fun hlast => hfinal.line (List.mem_of_getLast? hlast)
    rw [normalizeDomain_stored h, hself,
      toDomain_eq_some_iff (d := ⟨s, matchesDomainRe_of_isFinal hfinal⟩).mpr rfl]
    rfl

end Unicode

/-! ## The names of `add_host` -/

theorem isFinal_host_iff (label : Label) (domain : Domain) :
    IsFinal (label.1 ++ '.' :: domain.1) ↔
      '\n' ∉ label.1 ∧ '\n' ∉ domain.1 ∧ (label.1 ++ '.' :: domain.1).length ≤ 253 := by
  have hline : '\n' ∉ label.1 ++ '.' :: domain.1 ↔ '\n' ∉ label.1 ∧ '\n' ∉ domain.1 := by
    simp
  constructor
  · intro h
    obtain ⟨hlabel, hdomain⟩ := hline.mp h.line
    exact ⟨hlabel, hdomain, h.length⟩
  · rintro ⟨hlabel, hdomain, hlength⟩
    exact ⟨isName_host label domain, hline.mpr ⟨hlabel, hdomain⟩, hlength⟩

/-- Labels with dots between them. -/
theorem isFinal_join {parts : List Str} (hparts : ∀ w ∈ parts, LocalDns.isLabel w = true)
    (hlen : 2 ≤ parts.length) (hsum : (parts.map fun w => w.length + 1).sum ≤ 253) :
    IsFinal (join ['.'] parts) := by
  refine ⟨isName_join hparts hlen, fun hmem => ?_, ?_⟩
  · rcases mem_join hmem with hmem | ⟨w, hw, hmem⟩
    · exact absurd hmem (by decide)
    · have hlabel := hparts w hw
      simp only [LocalDns.isLabel, Bool.and_eq_true, List.all_eq_true] at hlabel
      exact absurd (hlabel.1.1.2 _ hmem) (by decide)
  · have hle : ∀ ws : List Str, (join ['.'] ws).length ≤ (ws.map fun w => w.length + 1).sum := by
      intro ws
      induction ws with
      | nil => exact Nat.zero_le _
      | cons w ws ih =>
          cases ws with
          | nil =>
              simp [join]
          | cons v vs =>
              rw [join, List.intercalate_cons_cons, ← join, List.length_append, List.length_append,
                List.map_cons, List.sum_cons, List.length_singleton]
              omega
    exact (hle parts).trans hsum

theorem length_decimal_le {n : ℕ} (hn : n < 256) : (decimal n).length ≤ 3 := by
  obtain ⟨c, cs, heq, -, hlen, -⟩ := decimal_head_spec (show n < 1000 by omega)
  rw [heq, List.length_cons]
  omega

/-- **The reverse name of an address is final.** -/
theorem isFinal_ptrOwner {ip : IpAddress} {owner zone : Str}
    (h : ptrOwner ip = some (owner, zone)) : IsFinal (owner ++ '.' :: zone) := by
  cases ip with
  | v4 ip =>
      cases h
      rw [reverse_eq_join (by simp [reverseOctets]) (by simp)]
      refine isFinal_join (fun w hw => ?_) (by simp) ?_
      · rcases List.mem_append.mp hw with hw | hw
        · obtain ⟨i, -, rfl⟩ := List.mem_map.mp hw
          exact isLabel_decimal (Nat.mod_lt _ (by decide))
        · exact (by decide : ∀ w ∈ ["in-addr".toList, "arpa".toList], LocalDns.isLabel w) w hw
      · have hoctets : ((reverseOctets ip).map fun w => w.length + 1).sum ≤ 4 * 4 := by
          refine (List.sum_le_card_nsmul _ 4 fun k hk => ?_).trans (by simp [reverseOctets])
          obtain ⟨w, hw, rfl⟩ := List.mem_map.mp hk
          obtain ⟨i, -, rfl⟩ := List.mem_map.mp hw
          exact Nat.succ_le_succ (length_decimal_le (Nat.mod_lt _ (by decide)))
        rw [List.map_append, List.sum_append]
        exact (Nat.add_le_add_right hoctets _).trans (by decide)
  | v6 ip scope =>
      cases scope with
      | none =>
          cases h
          rw [reverse_eq_join (by simp [reverseNibbles]) (by simp)]
          refine isFinal_join (fun w hw => ?_) (by simp) ?_
          · rcases List.mem_append.mp hw with hw | hw
            · obtain ⟨i, -, rfl⟩ := List.mem_map.mp hw
              exact isLabel_hexDigit _ (Nat.mod_lt _ (by decide))
            · exact (by decide : ∀ w ∈ ["ip6".toList, "arpa".toList], LocalDns.isLabel w) w hw
          · simp [reverseNibbles, Function.comp_def]
      | some scope => cases h

end AlderpointDNS.LocalDns
