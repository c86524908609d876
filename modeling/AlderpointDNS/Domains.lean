import AlderpointDNS.Lib.Ipaddress

/-!
# Domain names

`normalizeDomain` is `alderpointdns_compiler.normalize_domain`: the one gate every custom rule
and every blocklist entry passes.  What it lets through matches `DOMAIN_RE`, modelled by
`matchesDomainRe` on the labels of the name.

Two of its steps depend on Unicode tables (`str.lower` and the IDNA codec); they are the fields
of `UnicodeData` and are only consulted for text that is not ASCII.
-/

namespace AlderpointDNS

open Text Ipaddress

/-- The Unicode-table-driven operations, consulted for non-ASCII text only. -/
structure UnicodeData where
  /-- `str.lower`. -/
  lower : Str → Str
  /-- `value.encode("idna").decode("ascii")`, `none` for a `UnicodeError`. -/
  idna : Str → Option Str

/-- `str.lower`: ASCII by the ASCII rule, the rest by the tables. -/
def UnicodeData.toLower (u : UnicodeData) (s : Str) : Str :=
  if isAscii s then s.map Char.toLower else u.lower s

theorem UnicodeData.toLower_eq_self (u : UnicodeData) {s : Str}
    (h : ∀ c ∈ s, c.toNat < 128 ∧ c.toLower = c) : isAscii s = true ∧ u.toLower s = s := by
  have hascii : isAscii s = true := List.all_eq_true.mpr fun c hc => decide_eq_true (h c hc).1
  refine ⟨hascii, ?_⟩
  rw [UnicodeData.toLower, if_pos hascii]
  exact (List.map_congr_left fun c hc => (h c hc).2).trans (List.map_id s)

/-- `[a-z0-9_]`. -/
def isLabelEdge (c : Char) : Bool := ('a' ≤ c && c ≤ 'z') || isDecDigit c || c = '_'

/-- `[a-z0-9_](?:[a-z0-9_-]{0,61}[a-z0-9_])?`. -/
def isLabel (w : Str) : Bool :=
  w ≠ [] && w.length ≤ 63 && w.all (fun c => isLabelEdge c || c = '-')
    && w.head?.all isLabelEdge && w.getLast?.all isLabelEdge

/-- `DOMAIN_RE.match(value + ".")`: two or more labels, at most 253 characters. -/
def matchesDomainRe (value : Str) : Bool :=
  2 ≤ (split '.' value).length && (split '.' value).all isLabel && value.length ≤ 253

/-- `_looks_like_ip_literal`. -/
def looksLikeIpLiteral (value : Str) : Bool :=
  if value.contains ':' then true
  else if !value.contains '.' then false
  else (split '.' value).all fun part => part = [] || part.all isDecDigit

/-- The last two checks of `normalize_domain`: `DOMAIN_RE`, and not an IP literal. -/
def checkDomain (value : Str) : Option Str :=
  if !matchesDomainRe value then none
  else if looksLikeIpLiteral value && (ipAddress value).isSome then none
  else some value

/-- `normalize_domain`. -/
def normalizeDomain (u : UnicodeData) (raw : Str) : Option Str :=
  let value := u.toLower (stripBy (· = '.') (strip raw))
  if value = [] || 253 < value.length then none
  -- "://" contains both of the characters tested one by one
  else if value.contains '/' || value.contains ':' || value.contains '@' then none
  else if isAscii value then checkDomain value
  else (u.idna value).bind checkDomain

theorem checkDomain_matches {v value : Str} (h : checkDomain v = some value) :
    matchesDomainRe value = true := by
  unfold checkDomain at h
  split_ifs at h with h1 h2
  cases h
  simpa using h1

/-- Everything `normalize_domain` returns matches `DOMAIN_RE`. -/
theorem normalizeDomain_matches {u : UnicodeData} {raw value : Str}
    (h : normalizeDomain u raw = some value) : matchesDomainRe value = true := by
  unfold normalizeDomain at h
  dsimp only at h
  split_ifs at h with h1 h2 h3
  · exact checkDomain_matches h
  · obtain ⟨v, -, hv⟩ := Option.bind_eq_some_iff.mp h
    exact checkDomain_matches hv

/-! ## The characters of a domain name -/

/-- `[a-z0-9_-]` or a dot. -/
def isDomainChar (c : Char) : Bool := isLabelEdge c || c = '-' || c = '.'

theorem mem_of_split {sep c : Char} (hc : c ≠ sep) :
    ∀ {s : Str}, c ∈ s → ∃ w ∈ split sep s, c ∈ w
  | [], h => by simp at h
  | d :: s, h => by
      by_cases hd : d = sep
      · subst hd
        have hs : c ∈ s := by
          rcases List.mem_cons.mp h with h | h
          · exact absurd h hc
          · exact h
        obtain ⟨w, hw, hcw⟩ := mem_of_split hc hs
        exact ⟨w, by rw [split_cons_sep]; exact List.mem_cons_of_mem _ hw, hcw⟩
      · obtain ⟨v, vs, hv⟩ := List.exists_cons_of_ne_nil (split_ne_nil sep s)
        rw [split_cons_of_ne hd, hv, List.modifyHead_cons]
        rcases List.mem_cons.mp h with rfl | h
        · exact ⟨c :: v, by simp, by simp⟩
        · obtain ⟨w, hw, hcw⟩ := mem_of_split hc h
          rw [hv] at hw
          rcases List.mem_cons.mp hw with rfl | hw
          · exact ⟨d :: w, by simp, by simp [hcw]⟩
          · exact ⟨w, by simp [hw], hcw⟩

/-- Every character of a name that matches `DOMAIN_RE` is a domain character. -/
theorem isDomainChar_of_mem {value : Str} (h : matchesDomainRe value = true) {c : Char}
    (hc : c ∈ value) : isDomainChar c = true := by
  by_cases hdot : c = '.'
  · simp [isDomainChar, hdot]
  · obtain ⟨w, hw, hcw⟩ := mem_of_split hdot hc
    simp only [matchesDomainRe, Bool.and_eq_true, List.all_eq_true] at h
    have hl := h.1.2 w hw
    simp only [isLabel, Bool.and_eq_true, List.all_eq_true] at hl
    have := hl.1.1.2 c hcw
    simp only [isDomainChar, Bool.or_eq_true] at this ⊢
    exact Or.inl this

theorem matchesDomainRe_ne_nil {value : Str} (h : matchesDomainRe value = true) : value ≠ [] := by
  rintro rfl
  exact absurd h (by decide)

example : matchesDomainRe "ads.example.com".toList = true := by decide +kernel

end AlderpointDNS
