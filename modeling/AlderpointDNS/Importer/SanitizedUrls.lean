import AlderpointDNS.Upstream.Validate

/-!
# URLs without credentials

`sanitize_url` splits a URL with `urllib.parse` and puts scheme, host, port and path together again.
Where the parser raises or finds no host, only what follows a question mark or a hash is cut off; a
port that is no number raises.

* `sanitizeUrl_eq` — the network location is rewritten, and the path kept;
* `cleanNetloc_cleanNetloc` — a network location that was rewritten stays as it is;
* **`sanitizeUrl_sanitizeUrl`** — and so does the URL.
-/

namespace AlderpointDNS.Importer

open Text Urls Upstream

/-- `url.split("?", 1)[0].split("#", 1)[0]`. -/
def withoutQuery (url : Str) : Str := (cut '#' (cut '?' url).1).1

/-- `[^\s"'<>]`. -/
def isUrlChar (c : Char) : Bool :=
  !(isSpace c || c = '"' || c = '\'' || c = '<' || c = '>')

/-- The schemes of `_URL_RE`. -/
def IsHttp (scheme : Str) : Prop :=
  scheme = ['h', 't', 't', 'p'] ∨ scheme = ['h', 't', 't', 'p', 's']

section Sanitize

variable (u : HostData)

/-- `sanitize_url`; `none` is a `ValueError`. -/
def sanitizeUrl (url : Str) : Option Str :=
  let raw := strip url
  match urlsplit u.toLower u.checkNetloc raw with
  | none => some (withoutQuery raw)
  | some parts =>
      let host := parts.hostname u.toLower
      if parts.scheme = [] || host = [] then some (withoutQuery raw)
      -- `parts.port` is read outside the `try`
      else parts.port.map fun port => urlunsplit parts.scheme (netlocText host port) parts.path

/-- `urlsplit` raises for this network location. -/
def rejectsNetloc (netloc : Str) : Bool :=
  !u.checkNetloc netloc || netloc.contains '[' != netloc.contains ']'

/-- A URL with this network location only. -/
def netlocParts (netloc : Str) : ParsedUrl := ⟨[], netloc, [], [], [], []⟩

/-- What becomes of a network location. -/
def cleanNetloc (netloc : Str) : Option Str :=
  let parts := netlocParts netloc
  if rejectsNetloc u netloc || parts.hostname u.toLower = [] then some netloc
  else parts.port.map (netlocText (parts.hostname u.toLower))

end Sanitize

variable {u : HostData}

theorem withoutQuery_eq (url : Str) :
    withoutQuery url = url.takeWhile fun c => c ≠ '#' ∧ c ≠ '?' := by
  simp only [withoutQuery, cut, List.takeWhile_takeWhile]
  congr 1
  funext c
  simp

/-- `urlsplit` cuts off the fragment first. -/
theorem cut_cut_eq (url : Str) : (cut '?' (cut '#' url).1).1 = withoutQuery url := by
  rw [withoutQuery_eq]
  simp only [cut, List.takeWhile_takeWhile]
  congr 1
  funext c
  simp [and_comm]

theorem IsHttp.toLower {scheme : Str} (h : IsHttp scheme) : u.toLower scheme = scheme := by
  rcases h with rfl | rfl <;> rfl

theorem IsHttp.isSchemeChar {scheme : Str} (h : IsHttp scheme) :
    ∀ c ∈ scheme, isSchemeChar c = true := by
  rcases h with rfl | rfl <;> exact List.all_eq_true.mp (by decide)

theorem isUnsafe_of_isUrlChar {c : Char} (h : isUrlChar c = true) : isUnsafe c = false := by
  by_contra hunsafe
  rw [Bool.not_eq_false, isUnsafe, Bool.or_eq_true, Bool.or_eq_true, decide_eq_true_eq,
    decide_eq_true_eq, decide_eq_true_eq] at hunsafe
  rcases hunsafe with (rfl | rfl) | rfl <;> exact absurd h (by decide)

theorem isSpace_of_isUrlChar {c : Char} (h : isUrlChar c = true) : isSpace c = false := by
  cases hspace : isSpace c with
  | false => rfl
  | true => simp [isUrlChar, hspace] at h

/-- The path of a URL, after its network location. -/
def urlPath (body : Str) : Str := withoutQuery (body.dropWhile (!isDelim ·))

/-- A path is empty, or starts with a slash. -/
theorem urlPath_eq (body : Str) : urlPath body = [] ∨ ∃ rest, urlPath body = '/' :: rest := by
  rw [urlPath, withoutQuery_eq]
  have hhead := startsOutside_dropWhile (!isDelim ·) body
  cases hrest : body.dropWhile (!isDelim ·) with
  | nil => exact Or.inl rfl
  | cons c rest =>
      rw [hrest] at hhead
      have hc : isDelim c = true := by simpa using hhead c rfl
      by_cases hslash : c = '/'
      · subst hslash
        exact Or.inr ⟨_, List.takeWhile_cons_of_pos (by decide)⟩
      · refine Or.inl (List.takeWhile_cons_of_neg ?_)
        simp only [isDelim, hslash, Bool.or_eq_true, decide_eq_true_eq, false_or] at hc
        rcases hc with rfl | rfl <;> decide

theorem mem_of_mem_urlPath {body : Str} {c : Char} (h : c ∈ urlPath body) :
    c ∈ body ∧ c ≠ '?' ∧ c ≠ '#' := by
  rw [urlPath, withoutQuery_eq] at h
  have hkept : c ≠ '#' ∧ c ≠ '?' := by simpa using List.mem_takeWhile_imp h
  exact ⟨(List.dropWhile_suffix _).subset ((List.takeWhile_prefix _).subset h), hkept.2, hkept.1⟩

theorem withoutQuery_append {s t : Str} (h : ∀ c ∈ s, c ≠ '?' ∧ c ≠ '#') :
    withoutQuery (s ++ t) = s ++ withoutQuery t := by
  rw [withoutQuery_eq, withoutQuery_eq, List.takeWhile_append_of_pos]
  exact fun c hc => decide_eq_true ⟨(h c hc).2, (h c hc).1⟩

theorem withoutQuery_eq_self {s : Str} (h : ∀ c ∈ s, c ≠ '?' ∧ c ≠ '#') : withoutQuery s = s := by
  simpa [withoutQuery, cut] using withoutQuery_append (t := []) h

/-! ## The parts of a URL -/

/-- A URL with this scheme. -/
def withScheme (scheme body : Str) : Str := scheme ++ ':' :: '/' :: '/' :: body

/-- The network location of a URL. -/
def urlNetloc (body : Str) : Str := body.takeWhile (!isDelim ·)

theorem mem_urlNetloc {body : Str} {c : Char} (h : c ∈ urlNetloc body) :
    c ∈ body ∧ isDelim c = false :=
  ⟨(List.takeWhile_prefix _).subset h, by simpa using List.mem_takeWhile_imp h⟩

theorem ne_of_isDelim {c : Char} (h : isDelim c = false) : c ≠ '/' ∧ c ≠ '?' ∧ c ≠ '#' := by
  simpa [isDelim, and_assoc] using h

theorem mem_withScheme {scheme body : Str} {c : Char} :
    c ∈ withScheme scheme body ↔ c ∈ withScheme scheme [] ∨ c ∈ body := by
  simp [withScheme, or_assoc]

theorem isUrlChar_withScheme {scheme body : Str} (hscheme : IsHttp scheme)
    (hbody : ∀ c ∈ body, isUrlChar c = true) :
    ∀ c ∈ withScheme scheme body, isUrlChar c = true := by
  have hhead : (withScheme scheme []).all isUrlChar = true := by
    rcases hscheme with rfl | rfl <;> decide
  intro c hc
  exact (mem_withScheme.mp hc).elim (List.all_eq_true.mp hhead c) (hbody c)

theorem ne_of_mem_withScheme {scheme body : Str} (hscheme : IsHttp scheme)
    (hbody : ∀ c ∈ body, c ≠ '?' ∧ c ≠ '#') : ∀ c ∈ withScheme scheme body, c ≠ '?' ∧ c ≠ '#' := by
  intro c hc
  rcases mem_withScheme.mp hc with hc | hc
  · rcases hscheme with rfl | rfl <;>
      exact ⟨fun h => absurd (h ▸ hc) (by decide), fun h => absurd (h ▸ hc) (by decide)⟩
  · exact hbody c hc

theorem withoutQuery_withScheme {scheme : Str} (hscheme : IsHttp scheme) (body : Str) :
    withoutQuery (withScheme scheme body) = withScheme scheme (urlNetloc body ++ urlPath body) := by
  have hhead := ne_of_mem_withScheme hscheme (List.forall_mem_nil _)
  have hnetloc : ∀ c ∈ urlNetloc body, c ≠ '?' ∧ c ≠ '#' := fun c hc =>
    (ne_of_isDelim (mem_urlNetloc hc).2).2
  calc withoutQuery (withScheme scheme body)
      = withoutQuery (withScheme scheme []
          ++ (urlNetloc body ++ body.dropWhile (!isDelim ·))) := by
        rw [urlNetloc, List.takeWhile_append_dropWhile]
        simp [withScheme]
    _ = withScheme scheme (urlNetloc body ++ urlPath body) := by
        rw [withoutQuery_append hhead, withoutQuery_append hnetloc, urlPath]
        simp [withScheme]

theorem urlsplit_withScheme {scheme body : Str} (hscheme : IsHttp scheme)
    (hbody : ∀ c ∈ body, isUrlChar c = true) :
    (rejectsNetloc u (urlNetloc body) = true →
      urlsplit u.toLower u.checkNetloc (withScheme scheme body) = none) ∧
    (rejectsNetloc u (urlNetloc body) = false →
      ∃ parts, urlsplit u.toLower u.checkNetloc (withScheme scheme body) = some parts ∧
        parts.scheme = scheme ∧ parts.netloc = urlNetloc body ∧ parts.path = urlPath body) := by
  have hfirst : scheme.head?.any isAsciiAlpha = true := by
    rcases hscheme with rfl | rfl <;> decide
  have hsplit := urlsplit_eq u.toLower u.checkNetloc hfirst hscheme.isSchemeChar
    fun c hc => isUnsafe_of_isUrlChar (hbody c hc)
  simp only [hscheme.toLower, cut_cut_eq] at hsplit
  constructor
  · intro hrejects
    exact hsplit.trans (if_pos hrejects)
  · intro hrejects
    exact ⟨_, hsplit.trans (if_neg (by simpa [rejectsNetloc, urlNetloc] using hrejects)),
      rfl, rfl, rfl⟩

/-- Host and port are read from the network location. -/
theorem hostname_congr {parts : ParsedUrl} {netloc : Str} (h : parts.netloc = netloc) :
    parts.hostname u.toLower = (netlocParts netloc).hostname u.toLower := by
  rw [ParsedUrl.hostname, h]
  rfl

theorem port_congr {parts : ParsedUrl} {netloc : Str} (h : parts.netloc = netloc) :
    parts.port = (netlocParts netloc).port := by
  rw [ParsedUrl.port, h]
  rfl

/-- **The network location is rewritten, and the path kept.** -/
theorem sanitizeUrl_eq {scheme body : Str} (hscheme : IsHttp scheme)
    (hbody : ∀ c ∈ body, isUrlChar c = true) :
    sanitizeUrl u (withScheme scheme body) = (cleanNetloc u (urlNetloc body)).map
      fun netloc => withScheme scheme (netloc ++ urlPath body) := by
  have hstrip : strip (withScheme scheme body) = withScheme scheme body :=
    stripBy_eq_self fun c hc => isSpace_of_isUrlChar (isUrlChar_withScheme hscheme hbody c hc)
  have hne : scheme ≠ [] := by
    rcases hscheme with rfl | rfl <;> simp
  obtain ⟨hnone, hsome⟩ := urlsplit_withScheme (u := u) hscheme hbody
  rw [sanitizeUrl, hstrip, withoutQuery_withScheme hscheme]
  cases hrejects : rejectsNetloc u (urlNetloc body) with
  | true =>
      simp [hnone hrejects, cleanNetloc, hrejects]
  | false =>
      obtain ⟨parts, hparts, hscheme', hnetloc, hpath⟩ := hsome hrejects
      have hhost := hostname_congr (u := u) hnetloc
      have hport := port_congr hnetloc
      have hunsplit : ∀ netloc, urlunsplit scheme netloc (urlPath body)
          = withScheme scheme (netloc ++ urlPath body) := by
        intro netloc
        rcases urlPath_eq body with hpath | ⟨rest, hpath⟩ <;>
          simp [urlunsplit, withScheme, hpath]
      by_cases hempty : (netlocParts (urlNetloc body)).hostname u.toLower = []
      · simp [hparts, hhost, hempty, cleanNetloc]
      · simp [hparts, hhost, hport, hscheme', hpath, hne, hempty, hunsplit, cleanNetloc, hrejects,
          Function.comp_def]

/-! ## The network location -/

theorem isUrlChar_of_isLetter {c : Char} (h : isLetter c = true) : isUrlChar c = true := by
  simp only [isLetter, Bool.and_eq_true, Bool.not_eq_true'] at h
  by_contra hc
  simp only [isUrlChar, h.1, Bool.false_or, Bool.not_eq_true, Bool.not_eq_false', Bool.or_eq_true,
    decide_eq_true_eq] at hc
  rcases hc with ((rfl | rfl) | rfl) | rfl <;> exact absurd h (by decide)

theorem isDelim_of_isLetter {c : Char} (h : isLetter c = true) : isDelim c = false := by
  by_contra hc
  simp only [isDelim, Bool.not_eq_false, Bool.or_eq_true, decide_eq_true_eq] at hc
  rcases hc with (rfl | rfl) | rfl <;> exact absurd h (by decide)

theorem isUrlChar_of_isDigit {c : Char} (h : c.isDigit = true) :
    isUrlChar c = true ∧ isDelim c = false := by
  have hcode : 48 ≤ c.toNat ∧ c.toNat ≤ 57 := by
    simpa [Char.isDigit, UInt32.le_iff_toNat_le] using h
  have hspace : isSpace c = false := by
    simp only [isSpace, Bool.or_eq_false_iff, Bool.and_eq_false_iff, decide_eq_false_iff_not]
    omega
  constructor
  · by_contra hc
    simp only [isUrlChar, hspace, Bool.false_or, Bool.not_eq_true, Bool.not_eq_false',
      Bool.or_eq_true, decide_eq_true_eq] at hc
    rcases hc with ((rfl | rfl) | rfl) | rfl <;> exact absurd h (by decide)
  · by_contra hc
    simp only [isDelim, Bool.not_eq_false, Bool.or_eq_true, decide_eq_true_eq] at hc
    rcases hc with (rfl | rfl) | rfl <;> exact absurd h (by decide)

/-- A network location is left alone, or put together from its host and its port. -/
theorem cleanNetloc_cases {netloc netloc' : Str} (h : cleanNetloc u netloc = some netloc') :
    ((rejectsNetloc u netloc = true ∨ (netlocParts netloc).hostname u.toLower = []) ∧
      netloc' = netloc) ∨
    ((rejectsNetloc u netloc = false ∧ (netlocParts netloc).hostname u.toLower ≠ []) ∧
      ∃ port ≤ 65535, netloc' = netlocText ((netlocParts netloc).hostname u.toLower) port) := by
  simp only [cleanNetloc, Bool.or_eq_true, decide_eq_true_eq] at h
  split_ifs at h with hkept
  · cases h
    exact Or.inl ⟨hkept, rfl⟩
  · obtain ⟨port, hport, rfl⟩ := Option.map_eq_some_iff.mp h
    rw [not_or, Bool.not_eq_true] at hkept
    exact Or.inr ⟨hkept, port, ParsedUrl.port_le hport, rfl⟩

section Lower

variable (hlower : LowerLaws u.toLower)

include hlower

/-- The characters of a host are those that were written, and letters. -/
theorem mem_hostname {netloc : Str} {c : Char}
    (h : c ∈ (netlocParts netloc).hostname u.toLower) :
    c ∈ (hostinfo netloc).1 ∨ isLetter c = true :=
  mem_of_mem_lowerHost hlower h

/-- What is put together has characters of a network location only. -/
theorem mem_cleanNetloc {netloc netloc' : Str} (h : cleanNetloc u netloc = some netloc')
    (hnetloc : ∀ c ∈ netloc, isUrlChar c = true ∧ isDelim c = false) :
    ∀ c ∈ netloc', isUrlChar c = true ∧ isDelim c = false := by
  rcases cleanNetloc_cases h with ⟨-, rfl⟩ | ⟨-, port, -, rfl⟩
  · exact hnetloc
  · intro c hc
    rcases mem_netlocText hc with hc | hc
    · rcases mem_hostname hlower hc with hc | hc
      · exact hnetloc c (mem_of_mem_hostinfo hc).1
      · exact ⟨isUrlChar_of_isLetter hc, isDelim_of_isLetter hc⟩
    · rcases hc with rfl | rfl | rfl | hc
      · decide
      · decide
      · decide
      · exact isUrlChar_of_isDigit hc

/-- The host of a network location that was put together. -/
theorem hostinfo_cleaned (netloc : Str) (port : ℕ)
    (hpaired : '[' ∈ netlocText ((netlocParts netloc).hostname u.toLower) port →
      ']' ∈ netlocText ((netlocParts netloc).hostname u.toLower) port) :
    hostinfo (netlocText ((netlocParts netloc).hostname u.toLower) port)
      = ((netlocParts netloc).hostname u.toLower, (portText port).drop 1) := by
  have hwritten : ∀ c, isLetter c = false → c ∈ (netlocParts netloc).hostname u.toLower →
      c ∈ (hostinfo netloc).1 := by
    intro c hc hmem
    exact (mem_hostname hlower hmem).resolve_right (by simp [hc])
  refine hostinfo_netlocText ?_ ?_ hpaired
  · exact fun hat => (mem_of_mem_hostinfo (hwritten '@' (by decide) hat)).2 rfl
  · rintro hspecial hclose
    refine notMem_hostinfo ?_ (hwritten ']' (by decide) hclose)
    exact hspecial.imp (hwritten ':' (by decide)) (hwritten '[' (by decide))

/-- **A network location that was rewritten stays as it is.** -/
theorem cleanNetloc_cleanNetloc {netloc netloc' : Str} (h : cleanNetloc u netloc = some netloc') :
    cleanNetloc u netloc' = some netloc' := by
  rcases cleanNetloc_cases h with ⟨-, rfl⟩ | ⟨-, port, hport, rfl⟩
  · exact h
  · cases hrejects : rejectsNetloc u
        (netlocText ((netlocParts netloc).hostname u.toLower) port) with
    | true => simp [cleanNetloc, hrejects]
    | false =>
        have hpaired : '[' ∈ netlocText ((netlocParts netloc).hostname u.toLower) port →
            ']' ∈ netlocText ((netlocParts netloc).hostname u.toLower) port := by
          intro hopen
          simpa [rejectsNetloc, hopen] using (Bool.or_eq_false_iff.mp hrejects).2
        have hinfo := hostinfo_cleaned hlower netloc port hpaired
        have hhost : (netlocParts (netlocText ((netlocParts netloc).hostname u.toLower)
            port)).hostname u.toLower = (netlocParts netloc).hostname u.toLower := by
          change lowerHost u.toLower (hostinfo (netlocText _ port)).1 = _
          rw [hinfo]
          exact lowerHost_lowerHost hlower _
        have hread : (netlocParts (netlocText ((netlocParts netloc).hostname u.toLower)
            port)).port = some port := port_of_hostinfo hport (congrArg Prod.snd hinfo)
        simp [cleanNetloc, hhost, hread]

/-- Without credentials, and without a colon at the end. -/
theorem cleanNetloc_clean {netloc netloc' : Str} (h : cleanNetloc u netloc = some netloc')
    (hread : rejectsNetloc u netloc = false ∧ (netlocParts netloc).hostname u.toLower ≠ []) :
    '@' ∉ netloc' ∧ netloc'.getLast? ≠ some ':' := by
  rcases cleanNetloc_cases h with ⟨hkept, -⟩ | ⟨-, port, -, rfl⟩
  · rcases hkept with hkept | hkept
    · rw [hread.1] at hkept
      exact Bool.noConfusion hkept
    · exact absurd hkept hread.2
  · refine ⟨fun hat => ?_, getLast?_netlocText _ _⟩
    rcases mem_netlocText hat with hat | hat
    · rcases mem_hostname hlower hat with hat | hat
      · exact (mem_of_mem_hostinfo hat).2 rfl
      · exact absurd hat (by decide)
    · revert hat
      decide

/-! ## The same URL again -/

omit hlower in
/-- Where a path follows a network location, both are found again. -/
theorem urlNetloc_append {netloc : Str} (hnetloc : ∀ c ∈ netloc, isDelim c = false) (body : Str) :
    urlNetloc (netloc ++ urlPath body) = netloc ∧
      urlPath (netloc ++ urlPath body) = urlPath body := by
  have hstart : StartsOutside (!isDelim ·) (urlPath body) := by
    intro c hc
    rcases urlPath_eq body with hpath | ⟨rest, hpath⟩ <;> rw [hpath] at hc
    · cases hc
    · cases hc
      rfl
  obtain ⟨htake, hdrop⟩ := span_append (fun c hc => by simp [hnetloc c hc]) hstart
  refine ⟨htake, ?_⟩
  rw [urlPath, hdrop]
  exact withoutQuery_eq_self fun c hc => (mem_of_mem_urlPath hc).2

theorem mem_cleaned {body netloc' : Str} (hbody : ∀ c ∈ body, isUrlChar c = true)
    (h : cleanNetloc u (urlNetloc body) = some netloc') :
    ∀ c ∈ netloc', isUrlChar c = true ∧ isDelim c = false :=
  mem_cleanNetloc hlower h fun c hc => ⟨hbody c (mem_urlNetloc hc).1, (mem_urlNetloc hc).2⟩

/-- The URL without its query has characters of URLs only. -/
theorem isUrlChar_cleaned {body netloc' : Str} (hbody : ∀ c ∈ body, isUrlChar c = true)
    (h : cleanNetloc u (urlNetloc body) = some netloc') :
    ∀ c ∈ netloc' ++ urlPath body, isUrlChar c = true ∧ c ≠ '?' ∧ c ≠ '#' := by
  intro c hc
  rcases List.mem_append.mp hc with hc | hc
  · obtain ⟨hchar, hdelim⟩ := mem_cleaned hlower hbody h c hc
    exact ⟨hchar, (ne_of_isDelim hdelim).2⟩
  · obtain ⟨hmem, hne⟩ := mem_of_mem_urlPath hc
    exact ⟨hbody c hmem, hne⟩

/-- **A URL that was rewritten stays as it is.** -/
theorem sanitizeUrl_sanitizeUrl {scheme body netloc' : Str} (hscheme : IsHttp scheme)
    (hbody : ∀ c ∈ body, isUrlChar c = true)
    (h : cleanNetloc u (urlNetloc body) = some netloc') :
    sanitizeUrl u (withScheme scheme (netloc' ++ urlPath body))
      = some (withScheme scheme (netloc' ++ urlPath body)) := by
  obtain ⟨hnetloc, hpath⟩ :=
    urlNetloc_append (fun c hc => (mem_cleaned hlower hbody h c hc).2) body
  rw [sanitizeUrl_eq hscheme fun c hc => (isUrlChar_cleaned hlower hbody h c hc).1, hnetloc, hpath,
    cleanNetloc_cleanNetloc hlower h]
  rfl

end Lower

end AlderpointDNS.Importer
