import AlderpointDNS.Lib.Patterns
import Mathlib.Data.List.TakeDrop

/-!
# URLs

The part of Python's `urllib.parse` for URLs with a host: `urlparse`, and the `hostname` and `port`
of its result.  `lower` is `str.lower`, and `checkNetloc` stands for the checks of a network
location that need Unicode tables or differ between Python versions: the brackets around an IPv6
address, and the characters that normalization turns into delimiters.  A `ValueError` is `none`.
-/

namespace Urls

open Text

/-- `_UNSAFE_URL_BYTES_TO_REMOVE`. -/
def isUnsafe (c : Char) : Bool := c = '\t' || c = '\r' || c = '\n'

/-- `_WHATWG_C0_CONTROL_OR_SPACE`. -/
def isControlOrSpace (c : Char) : Bool := c.toNat ≤ 0x20

def isAsciiAlpha (c : Char) : Bool := ('a' ≤ c && c ≤ 'z') || ('A' ≤ c && c ≤ 'Z')

/-- `scheme_chars`. -/
def isSchemeChar (c : Char) : Bool :=
  isAsciiAlpha c || ('0' ≤ c && c ≤ '9') || c = '+' || c = '-' || c = '.'

/-- A `ParseResult`. -/
structure ParsedUrl where
  scheme : Str
  netloc : Str
  path : Str
  params : Str
  query : Str
  fragment : Str
  deriving DecidableEq

/-- The text before the first `sep` and the text after it. -/
def cut (sep : Char) (s : Str) : Str × Str :=
  (s.takeWhile (· ≠ sep), (s.dropWhile (· ≠ sep)).drop 1)

/-- The scheme, and what follows it. -/
def splitScheme (lower : Str → Str) (url : Str) : Str × Str :=
  if url.contains ':' && url.head?.any isAsciiAlpha && (cut ':' url).1.all isSchemeChar then
    (lower (cut ':' url).1, (cut ':' url).2)
  else ([], url)

/-- The network location, and what follows it. -/
def splitNetloc (url : Str) : Str × Str :=
  if startsWith url ['/', '/'] then
    (url.drop 2).span fun c => !(c = '/' || c = '?' || c = '#')
  else ([], url)

/-- `_splitparams`: the last segment is cut at its first semicolon. -/
def splitParams (path : Str) : Str × Str :=
  let lastSegment := path.rtakeWhile (· ≠ '/')
  (path.rdropWhile (· ≠ '/') ++ (cut ';' lastSegment).1, (cut ';' lastSegment).2)

/-- `urlparse(url)`, for the schemes that have parameters. -/
def urlparse (lower : Str → Str) (checkNetloc : Str → Bool) (url : Str) : Option ParsedUrl :=
  let url := (url.dropWhile isControlOrSpace).filter (!isUnsafe ·)
  let (scheme, url) := splitScheme lower url
  let (netloc, url) := splitNetloc url
  if !checkNetloc netloc || netloc.contains '[' != netloc.contains ']' then none
  else
    let (url, fragment) := cut '#' url
    let (url, query) := cut '?' url
    let (path, params) := splitParams url
    some ⟨scheme, netloc, path, params, query, fragment⟩

/-- `urlsplit(url)`: as `urlparse`, but the parameters stay in the path. -/
def urlsplit (lower : Str → Str) (checkNetloc : Str → Bool) (url : Str) : Option ParsedUrl :=
  let url := (url.dropWhile isControlOrSpace).filter (!isUnsafe ·)
  let (scheme, url) := splitScheme lower url
  let (netloc, url) := splitNetloc url
  if !checkNetloc netloc || netloc.contains '[' != netloc.contains ']' then none
  else
    let (url, fragment) := cut '#' url
    let (path, query) := cut '?' url
    some ⟨scheme, netloc, path, [], query, fragment⟩

/-- `urlunsplit((scheme, netloc, path, "", ""))`, for a scheme and a network location that are not
empty. -/
def urlunsplit (scheme netloc path : Str) : Str :=
  scheme ++ ':' :: '/' :: '/' :: netloc
    ++ (if path.head?.any (· ≠ '/') then '/' :: path else path)

/-- `_hostinfo`: the host and the port as they are written. -/
def hostinfo (netloc : Str) : Str × Str :=
  let info := netloc.rtakeWhile (· ≠ '@')
  if info.contains '[' then
    let (hostname, rest) := cut ']' (cut '[' info).2
    (hostname, (cut ':' rest).2)
  else cut ':' info

/-- The property `hostname`, with the empty text for `None`. -/
def ParsedUrl.hostname (lower : Str → Str) (parsed : ParsedUrl) : Str :=
  let host := (hostinfo parsed.netloc).1
  lower (host.takeWhile (· ≠ '%')) ++ host.dropWhile (· ≠ '%')

/-- The property `port`, with 0 for `None`. -/
def ParsedUrl.port (parsed : ParsedUrl) : Option ℕ :=
  let port := (hostinfo parsed.netloc).2
  if !port.all Char.isDigit then none
  else if 65535 < Nat.ofDigitChars 10 port 0 then none
  else some (Nat.ofDigitChars 10 port 0)

example : (urlparse id (fun _ => true) "https://dns.example:8443/q;v=1?x#y".toList).map
    (fun parsed => (parsed.hostname id, parsed.port, parsed.path))
      = some ("dns.example".toList, some 8443, "/q".toList) := by
  repeat rw [String.toList_ofList]
  decide +kernel

/-! ## Host and port -/

theorem cut_of_notMem {sep : Char} {s : Str} (h : sep ∉ s) : cut sep s = (s, []) :=
  partition_of_notMem h

theorem cut_append {sep : Char} {s t : Str} (h : sep ∉ s) : cut sep (s ++ sep :: t) = (s, t) := by
  have hkeep : ∀ c ∈ s, decide (c ≠ sep) = true := fun c hc =>
    decide_eq_true fun heq => h (heq ▸ hc)
  rw [cut, List.takeWhile_append_of_pos hkeep, List.dropWhile_append_of_pos hkeep]
  simp

theorem notMem_cut_fst (sep : Char) (s : Str) : sep ∉ (cut sep s).1 := fun h => by
  simpa using List.mem_takeWhile_imp h

theorem mem_of_mem_cut_fst {sep c : Char} {s : Str} (h : c ∈ (cut sep s).1) : c ∈ s :=
  (List.takeWhile_prefix _).subset h

theorem mem_of_mem_cut_snd {sep c : Char} {s : Str} (h : c ∈ (cut sep s).2) : c ∈ s :=
  (List.dropWhile_suffix _).subset (List.mem_of_mem_drop h)

/-- The host is part of the text after the last `@`. -/
theorem mem_of_mem_hostinfo {netloc : Str} {c : Char} (h : c ∈ (hostinfo netloc).1) :
    c ∈ netloc ∧ c ≠ '@' := by
  have hinfo : c ∈ netloc.rtakeWhile (· ≠ '@') := by
    rw [hostinfo] at h
    split_ifs at h
    · exact mem_of_mem_cut_snd (mem_of_mem_cut_fst h)
    · exact mem_of_mem_cut_fst h
  exact ⟨(List.rtakeWhile_suffix _ netloc).subset hinfo,
    by simpa using List.mem_rtakeWhile_imp hinfo⟩

/-- A host with a colon or a bracket was written in brackets. -/
theorem notMem_hostinfo {netloc : Str} (h : ':' ∈ (hostinfo netloc).1 ∨ '[' ∈ (hostinfo netloc).1) :
    ']' ∉ (hostinfo netloc).1 := by
  rw [hostinfo] at h ⊢
  split_ifs at h ⊢ with hopen
  · exact notMem_cut_fst ']' _
  · rcases h with h | h
    · exact absurd h (notMem_cut_fst ':' _)
    · exact absurd (List.contains_iff_mem.mpr (mem_of_mem_cut_fst h)) hopen

/-! ## A network location from a host and a port -/

/-- Not white space, and no ASCII character but a letter. -/
def isLetter (c : Char) : Bool := !isSpace c && (isAsciiAlpha c || 128 ≤ c.toNat)

/-- What `str.lower` does: once is enough, and what it makes are letters. -/
structure LowerLaws (lower : Str → Str) : Prop where
  idem : ∀ s, lower (lower s) = lower s
  mem : ∀ s, ∀ c ∈ lower s, c ∈ s ∨ isLetter c = true

/-- A letter, or a character that has no other case. -/
theorem toLower_cases (c : Char) :
    c.toLower = c ∨ 97 ≤ c.toLower.toNat ∧ c.toLower.toNat ≤ 122 := by
  by_cases hupper : 65 ≤ c.toNat ∧ c.toNat ≤ 90
  · right
    have hcode : ∀ k : Fin 26, 97 ≤ (Char.ofNat (65 + k)).toLower.toNat ∧
        (Char.ofNat (65 + k)).toLower.toNat ≤ 122 := by decide
    have hc : Char.ofNat (65 + (c.toNat - 65)) = c := by
      rw [Nat.add_sub_cancel' hupper.1, Char.ofNat_toNat]
    simpa only [hc] using hcode ⟨c.toNat - 65, by omega⟩
  · exact Or.inl (dif_neg hupper)

/-- On ASCII, the lowering of single characters is as lawful as `str.lower`. -/
theorem lowerLaws_map : LowerLaws (List.map Char.toLower) where
  idem s := by
    rw [List.map_map]
    refine List.map_congr_left fun c _ => ?_
    rcases toLower_cases c with hself | hlower
    · rw [Function.comp_apply, hself, hself]
    · exact dif_neg fun hupper => absurd (hlower.1.trans hupper.2) (by decide)
  mem s c hc := by
    obtain ⟨d, hd, rfl⟩ := List.mem_map.mp hc
    rcases toLower_cases d with hself | hlower
    · exact Or.inl (hself.symm ▸ hd)
    · have hspace : isSpace d.toLower = false := by
        simp only [isSpace, Bool.or_eq_false_iff, Bool.and_eq_false_iff, decide_eq_false_iff_not]
        omega
      have halpha : isAsciiAlpha d.toLower = true := by
        simpa [isAsciiAlpha, Char.le_def, UInt32.le_iff_toNat_le] using Or.inl hlower
      right
      rw [isLetter, hspace, halpha]
      rfl

/-- `lower` in front of the zone of an IPv6 address. -/
def lowerHost (lower : Str → Str) (host : Str) : Str :=
  lower (host.takeWhile (· ≠ '%')) ++ host.dropWhile (· ≠ '%')

/-- The port after a host; 0 stands for no port. -/
def portText (port : ℕ) : Str := if port = 0 then [] else ':' :: Nat.toDigits 10 port

/-- The network location with this host and port: a host with a colon stands in brackets. -/
def netlocText (host : Str) (port : ℕ) : Str :=
  (if host.contains ':' then '[' :: host ++ [']'] else host) ++ portText port

section Lower

variable {lower : Str → Str} (hlower : LowerLaws lower)

include hlower

theorem mem_of_mem_lowerHost {host : Str} {c : Char} (h : c ∈ lowerHost lower host) :
    c ∈ host ∨ isLetter c = true := by
  rcases List.mem_append.mp h with h | h
  · exact (hlower.mem _ c h).imp_left fun hc => (List.takeWhile_prefix _).subset hc
  · exact Or.inl ((List.dropWhile_suffix _).subset h)

theorem lowerHost_lowerHost (host : Str) :
    lowerHost lower (lowerHost lower host) = lowerHost lower host := by
  have hkeep : ∀ c ∈ lower (host.takeWhile (· ≠ '%')), decide (c ≠ '%') = true := by
    intro c hc
    rcases hlower.mem _ c hc with hmem | hletter
    · simpa using List.mem_takeWhile_imp hmem
    · exact decide_eq_true fun heq => absurd hletter (by subst heq; decide)
  -- the zone starts where it started before
  have hzone : StartsOutside (· ≠ '%') (host.dropWhile (· ≠ '%')) := startsOutside_dropWhile _ _
  obtain ⟨htake, hdrop⟩ := span_append hkeep hzone
  rw [lowerHost, lowerHost, htake, hdrop, hlower.idem]

end Lower

theorem isDigit_of_mem_toDigits {port : ℕ} {c : Char} (h : c ∈ Nat.toDigits 10 port) :
    c.isDigit = true :=
  Nat.isDigit_of_mem_toDigits (by decide) (by decide) h

theorem mem_portText {port : ℕ} {c : Char} (h : c ∈ portText port) :
    c = ':' ∨ c.isDigit = true := by
  rw [portText] at h
  split_ifs at h
  · cases h
  · exact (List.mem_cons.mp h).imp_right isDigit_of_mem_toDigits

theorem mem_netlocText {host : Str} {port : ℕ} {c : Char} (h : c ∈ netlocText host port) :
    c ∈ host ∨ c = '[' ∨ c = ']' ∨ c = ':' ∨ c.isDigit = true := by
  rw [netlocText, List.mem_append] at h
  rcases h with h | h
  · split_ifs at h
    · simp only [List.cons_append, List.mem_cons, List.mem_append, List.not_mem_nil, or_false] at h
      tauto
    · exact Or.inl h
  · exact Or.inr (Or.inr (Or.inr (mem_portText h)))

/-- There is no colon without a port after it. -/
theorem getLast?_netlocText (host : Str) (port : ℕ) :
    (netlocText host port).getLast? ≠ some ':' := by
  have hhost : (if host.contains ':' then '[' :: host ++ [']'] else host).getLast? ≠ some ':' := by
    split_ifs with hcolon
    · rw [List.getLast?_concat]
      decide
    · exact fun hlast => hcolon (List.contains_iff_mem.mpr (List.mem_of_getLast? hlast))
  by_cases hzero : port = 0
  · rwa [netlocText, portText, if_pos hzero, List.append_nil]
  · rw [netlocText, portText, if_neg hzero, List.getLast?_append,
      List.getLast?_cons_of_ne_nil Nat.toDigits_ne_nil]
    intro hlast
    rcases Option.or_eq_some_iff.mp hlast with hlast | ⟨hnone, -⟩
    · exact absurd (isDigit_of_mem_toDigits (List.mem_of_getLast? hlast)) (by decide)
    · exact Nat.toDigits_ne_nil (List.getLast?_eq_none_iff.mp hnone)

theorem ParsedUrl.port_le {parsed : ParsedUrl} {port : ℕ} (h : parsed.port = some port) :
    port ≤ 65535 := by
  rw [ParsedUrl.port] at h
  split_ifs at h with hdigits hlarge
  cases h
  exact Nat.not_lt.mp hlarge

/-- What `port` reads of a port that was written. -/
theorem port_of_hostinfo {parsed : ParsedUrl} {port : ℕ} (hport : port ≤ 65535)
    (h : (hostinfo parsed.netloc).2 = (portText port).drop 1) : parsed.port = some port := by
  by_cases hzero : port = 0
  · subst hzero
    have hempty : (hostinfo parsed.netloc).2 = [] := h
    simp [ParsedUrl.port, hempty]
  · have hwritten : (hostinfo parsed.netloc).2 = Nat.toDigits 10 port := by
      rw [h, portText, if_neg hzero, List.drop_one, List.tail_cons]
    have hdigits : (Nat.toDigits 10 port).all Char.isDigit = true :=
      List.all_eq_true.mpr fun c hc => isDigit_of_mem_toDigits hc
    simp [ParsedUrl.port, hwritten, hdigits, Nat.ofDigitChars_ten_toDigits, Nat.not_lt.mpr hport]

/-- **Host and port are read back**, where the brackets of the text are paired. -/
theorem hostinfo_netlocText {host : Str} {port : ℕ} (hat : '@' ∉ host)
    (hclose : ':' ∈ host ∨ '[' ∈ host → ']' ∉ host)
    (hpaired : '[' ∈ netlocText host port → ']' ∈ netlocText host port) :
    hostinfo (netlocText host port) = (host, (portText port).drop 1) := by
  have hinfo : (netlocText host port).rtakeWhile (· ≠ '@') = netlocText host port := by
    refine List.rtakeWhile_eq_self_iff.mpr fun c hc => decide_eq_true ?_
    rintro rfl
    rcases mem_netlocText hc with h | h
    · exact hat h
    · revert h
      decide
  have hport : (cut ':' (portText port)).2 = (portText port).drop 1 := by
    rw [portText]
    split_ifs <;> simp [cut]
  rw [hostinfo, hinfo]
  by_cases hcolon : ':' ∈ host
  · have htext : netlocText host port = '[' :: (host ++ ']' :: portText port) := by
      simp [netlocText, hcolon]
    have hopened : cut '[' (netlocText host port) = ([], host ++ ']' :: portText port) := by
      rw [htext]
      exact cut_append (List.not_mem_nil (a := '['))
    rw [if_pos (by simp [htext]), hopened, cut_append (hclose (Or.inl hcolon))]
    simp only [hport]
  · have htext : netlocText host port = host ++ portText port := by
      simp [netlocText, hcolon]
    -- a bracket would be in the host, and there is none that closes it
    have hopen : '[' ∉ netlocText host port := by
      intro hopen
      have hmem := hpaired hopen
      rw [htext, List.mem_append] at hopen hmem
      have hinHost : '[' ∈ host := hopen.resolve_right fun h => absurd (mem_portText h) (by decide)
      exact hmem.elim (hclose (Or.inr hinHost)) fun h => absurd (mem_portText h) (by decide)
    rw [if_neg (by simpa using hopen), htext, portText]
    split_ifs
    · rw [List.append_nil, cut_of_notMem hcolon]
      rfl
    · rw [cut_append hcolon]
      rfl

/-! ## A URL with a scheme -/

/-- What ends a network location. -/
def isDelim (c : Char) : Bool := c = '/' || c = '?' || c = '#'

theorem isControlOrSpace_of_isAsciiAlpha {c : Char} (h : isAsciiAlpha c = true) :
    isControlOrSpace c = false := by
  have hcode : ('a'.toNat ≤ c.toNat ∧ c.toNat ≤ 'z'.toNat) ∨
      ('A'.toNat ≤ c.toNat ∧ c.toNat ≤ 'Z'.toNat) := by
    simpa [isAsciiAlpha, Char.le_def, UInt32.le_iff_toNat_le] using h
  have hlarge : 0x20 < c.toNat := by
    rcases hcode with h | h
    · exact lt_of_lt_of_le (by decide) h.1
    · exact lt_of_lt_of_le (by decide) h.1
  exact decide_eq_false (Nat.not_le.mpr hlarge)

theorem isUnsafe_of_isSchemeChar {c : Char} (h : isSchemeChar c = true) : isUnsafe c = false := by
  by_contra hunsafe
  rw [Bool.not_eq_false, isUnsafe, Bool.or_eq_true, Bool.or_eq_true, decide_eq_true_eq,
    decide_eq_true_eq, decide_eq_true_eq] at hunsafe
  rcases hunsafe with (rfl | rfl) | rfl <;> exact absurd h (by decide)

/-- What `urlsplit` makes of a URL with a scheme and a network location. -/
theorem urlsplit_eq (lower : Str → Str) (checkNetloc : Str → Bool) {scheme body : Str}
    (hfirst : scheme.head?.any isAsciiAlpha = true) (hall : ∀ c ∈ scheme, isSchemeChar c = true)
    (hsafe : ∀ c ∈ body, isUnsafe c = false) :
    urlsplit lower checkNetloc (scheme ++ ':' :: '/' :: '/' :: body)
      = let netloc := body.takeWhile (!isDelim ·)
        let rest := cut '#' (body.dropWhile (!isDelim ·))
        if !checkNetloc netloc || netloc.contains '[' != netloc.contains ']' then none
        else some ⟨lower scheme, netloc, (cut '?' rest.1).1, [], (cut '?' rest.1).2, rest.2⟩ := by
  have hcolon : ':' ∉ scheme := fun h => absurd (hall _ h) (by decide)
  obtain ⟨first, schemeRest, rfl⟩ : ∃ first rest, scheme = first :: rest := by
    cases scheme with
    | nil => exact absurd hfirst (by decide)
    | cons first rest => exact ⟨first, rest, rfl⟩
  have halpha : isAsciiAlpha first = true := hfirst
  have hkept : (((first :: schemeRest) ++ ':' :: '/' :: '/' :: body).dropWhile
      isControlOrSpace).filter (!isUnsafe ·)
        = (first :: schemeRest) ++ ':' :: '/' :: '/' :: body := by
    rw [List.cons_append, List.dropWhile_cons_of_neg
      (by simp [isControlOrSpace_of_isAsciiAlpha halpha]), ← List.cons_append,
      List.filter_eq_self]
    intro c hc
    rw [Bool.not_eq_true']
    rcases List.mem_append.mp hc with hc | hc
    · exact isUnsafe_of_isSchemeChar (hall c hc)
    · simp only [List.mem_cons] at hc
      rcases hc with rfl | rfl | rfl | hc
      · rfl
      · rfl
      · rfl
      · exact hsafe c hc
  have hscheme : splitScheme lower ((first :: schemeRest) ++ ':' :: '/' :: '/' :: body)
      = (lower (first :: schemeRest), '/' :: '/' :: body) := by
    rw [splitScheme, cut_append hcolon, if_pos]
    simpa [halpha] using ⟨hall _ List.mem_cons_self,
      fun c hc => hall c (List.mem_cons_of_mem _ hc)⟩
  have hnetloc : splitNetloc ('/' :: '/' :: body)
      = (body.takeWhile (!isDelim ·), body.dropWhile (!isDelim ·)) := by
    rw [splitNetloc, if_pos (by simp)]
    exact List.span_eq_takeWhile_dropWhile _ _
  simp only [urlsplit, hkept, hscheme, hnetloc]

end Urls
