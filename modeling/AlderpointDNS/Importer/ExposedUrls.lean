import AlderpointDNS.Importer.SanitizedUrls

/-!
# URLs in a text

Where `_URL_RE` matches, and where a text has a URL with userinfo, a query or a fragment.  The
pattern knows its schemes in small letters only, and takes everything up to a character that is not
of a URL: a URL inside a match is not found.

* `matchUrl_eq_some` — a run that starts with a scheme is a match;
* `firstUrl_eq_some` — the first match of a run, and what stands before it;
* **`exposes_cleaned`** — what is shown by a URL without credentials;
* `run_induction` — a text is made of runs.
-/

namespace AlderpointDNS.Importer

open Text Urls

/-- `https?`. -/
def httpSchemes : List Str := [['h', 't', 't', 'p'], ['h', 't', 't', 'p', 's']]

/-- The match of `_URL_RE` at the start of a text. -/
def matchUrl (s : Str) : Option Str :=
  match httpSchemes.find? fun scheme => startsWith s (withScheme scheme []) with
  | none => none
  | some scheme =>
      let body := (s.drop (withScheme scheme []).length).takeWhile isUrlChar
      if body = [] then none else some (withScheme scheme body)

/-- The first match of `_URL_RE` in a run, and what stands before it. -/
def firstUrl : Str → Option (Str × Str)
  | [] => none
  | c :: s =>
      match matchUrl (c :: s) with
      | some url => some ([], url)
      | none => (firstUrl s).map fun found => (c :: found.1, found.2)

/-! ## Texts with credentials -/

/-- What follows the scheme of a URL has userinfo, a query or a fragment. -/
def exposing (body : Str) : Bool :=
  body.any (fun c => c = '?' || c = '#') || (urlNetloc body).contains '@'

/-- Such a URL starts here, with a scheme in any letter case. -/
def exposesAt (s : Str) : Bool :=
  let (scheme, rest) := cut ':' s
  httpSchemes.contains (scheme.map Char.toLower) && startsWith rest ['/', '/']
    && exposing ((rest.drop 2).takeWhile isUrlChar)

/-- There is such a URL in the text. -/
def exposes : Str → Bool
  | [] => false
  | c :: s => exposesAt (c :: s) || exposes s

theorem mem_httpSchemes {scheme : Str} : scheme ∈ httpSchemes ↔ IsHttp scheme := by
  simp [httpSchemes, IsHttp]

theorem exposing_of_forall {body : Str} (h : ∀ c ∈ body, c ≠ '?' ∧ c ≠ '#') :
    exposing body = (urlNetloc body).contains '@' := by
  have hany : body.any (fun c => c = '?' || c = '#') = false :=
    List.any_eq_false.mpr fun c hc => by simp [h c hc]
  rw [exposing, hany, Bool.false_or]

/-- A URL is found by its first letter. -/
theorem exposes_cons {c : Char} (h : c.toLower ≠ 'h') (s : Str) : exposes (c :: s) = exposes s := by
  have hat : exposesAt (c :: s) = false := by
    by_cases hcolon : c = ':'
    · subst hcolon
      simp [exposesAt, cut, httpSchemes]
    · simp [exposesAt, cut, hcolon, httpSchemes, h]
  rw [exposes, hat, Bool.false_or]

/-- **What follows matters neither to the scheme nor to the rest of a URL.** -/
theorem exposesAt_append {x r : Str} (hslash : r.head? ≠ some '/')
    (hscheme : ':' ∉ x → ¬ IsHttp ((x ++ r.takeWhile (· ≠ ':')).map Char.toLower))
    (hbody : ∀ b, (∀ c ∈ b, c ∈ x) →
      exposing ((b ++ r).takeWhile isUrlChar) = exposing (b.takeWhile isUrlChar)) :
    exposesAt (x ++ r) = exposesAt x := by
  by_cases hcolon : ':' ∈ x
  · obtain ⟨scheme, y, rfl, hnot⟩ := List.eq_append_cons_of_mem hcolon
    have hy : startsWith (y ++ r) ['/', '/'] = startsWith y ['/', '/'] := by
      rcases r with _ | ⟨c, r⟩
      · rw [List.append_nil]
      · have hc : '/' ≠ c := fun h => hslash (by rw [h, List.head?_cons])
        rw [Bool.eq_iff_iff, startsWith_iff, startsWith_iff]
        rcases y with _ | ⟨a, _ | ⟨b, y⟩⟩ <;> simp [hc]
    rw [List.append_assoc, List.cons_append]
    simp only [exposesAt, cut_append hnot, hy]
    cases hstart : startsWith y ['/', '/'] with
    | false => simp
    | true =>
        obtain ⟨body, rfl⟩ := (startsWith_iff _ _).mp hstart
        have hmem : ∀ c ∈ body, c ∈ scheme ++ ':' :: (['/', '/'] ++ body) := by
          intro c hc
          simp [hc]
        simpa using congrArg (httpSchemes.contains (scheme.map Char.toLower) && ·) (hbody body hmem)
  · have hkeep : ∀ c ∈ x, decide (c ≠ ':') = true := fun c hc =>
      decide_eq_true fun h => hcolon (h ▸ hc)
    have hleft : httpSchemes.contains ((cut ':' (x ++ r)).1.map Char.toLower) = false := by
      rw [cut, List.takeWhile_append_of_pos hkeep, ← Bool.not_eq_true, List.contains_iff_mem,
        mem_httpSchemes]
      exact hscheme hcolon
    have hnone : exposesAt x = false := by
      simp [exposesAt, cut_of_notMem hcolon]
    rw [hnone, exposesAt]
    simp only [hleft, Bool.false_and]

theorem exposes_append {x r : Str}
    (h : ∀ y, y <:+ x → y ≠ [] → exposesAt (y ++ r) = exposesAt y) :
    exposes (x ++ r) = (exposes x || exposes r) := by
  induction x with
  | nil => rfl
  | cons c x ih =>
      have hc := h (c :: x) List.suffix_rfl (List.cons_ne_nil c x)
      rw [List.cons_append, exposes, exposes, ← List.cons_append, hc,
        ih fun y hy => h y (hy.trans (List.suffix_cons c x)), Bool.or_assoc]

/-! ## Where runs end -/

theorem isUrlChar_of_toLower {c : Char} (h : isUrlChar c.toLower = true) : isUrlChar c = true := by
  by_cases hupper : 65 ≤ c.toNat ∧ c.toNat ≤ 90
  · refine isUrlChar_of_isLetter ?_
    have hspace : isSpace c = false := by
      simp only [isSpace, Bool.or_eq_false_iff, Bool.and_eq_false_iff, decide_eq_false_iff_not]
      omega
    have halpha : isAsciiAlpha c = true := by
      simpa [isAsciiAlpha, Char.le_def, UInt32.le_iff_toNat_le] using Or.inr hupper
    rw [isLetter, hspace, halpha]
    rfl
  · have hself : c.toLower = c := dif_neg hupper
    rwa [hself] at h

/-- A scheme has characters of URLs only. -/
theorem isUrlChar_of_isHttp {w : Str} (h : IsHttp (w.map Char.toLower)) :
    ∀ c ∈ w, isUrlChar c = true := by
  intro c hc
  have hlower : c.toLower ∈ w.map Char.toLower := List.mem_map_of_mem hc
  refine isUrlChar_of_toLower ?_
  rcases h with h | h <;> rw [h] at hlower <;>
    exact List.all_eq_true.mp (by decide : List.all _ isUrlChar = true) _ hlower

/-- No URL goes over the end of a run. -/
theorem exposes_append_cons {c : Char} (hc : isUrlChar c = false) (w rest : Str) :
    exposes (w ++ c :: rest) = (exposes w || exposes rest) := by
  have hne : ∀ d, isUrlChar d = true → c ≠ d := by
    rintro d hd rfl
    exact Bool.noConfusion (hd.symm.trans hc)
  have hskip : exposes (c :: rest) = exposes rest := by
    refine exposes_cons (fun h => ?_) rest
    have hchar := isUrlChar_of_toLower (by rw [h]; decide)
    exact Bool.noConfusion (hchar.symm.trans hc)
  rw [exposes_append, hskip]
  intro y _ _
  refine exposesAt_append ?_ ?_ ?_
  · simpa using hne '/' (by decide)
  · intro _ hhttp
    have hmem := isUrlChar_of_isHttp hhttp c
    rw [List.takeWhile_cons_of_pos (by simpa using hne ':' (by decide))] at hmem
    simp [hc] at hmem
  · intro b _
    rw [(takeWhile_append_cons hc b rest).1]

/-! ## URLs in a run -/

theorem takeWhile_isUrlChar {w : Str} (h : ∀ c ∈ w, isUrlChar c = true) :
    w.takeWhile isUrlChar = w :=
  List.takeWhile_eq_self_iff.mpr h

/-- What stands before a URL without a query shows as much as alone. -/
theorem exposes_append_url {scheme body x : Str} (hscheme : IsHttp scheme)
    (hbody : ∀ c ∈ body, isUrlChar c = true ∧ c ≠ '?' ∧ c ≠ '#')
    (hx : ∀ c ∈ x, isUrlChar c = true) :
    exposes (x ++ withScheme scheme body) = (exposes x || exposes (withScheme scheme body)) := by
  have hurl := isUrlChar_withScheme hscheme fun c hc => (hbody c hc).1
  have hplain := ne_of_mem_withScheme hscheme fun c hc => (hbody c hc).2
  have hnetloc : '@' ∉ urlNetloc (withScheme scheme body) := by
    rcases hscheme with rfl | rfl <;> simp [urlNetloc, withScheme, isDelim]
  refine exposes_append fun y hy hne => exposesAt_append ?_ ?_ ?_
  · rcases hscheme with rfl | rfl <;> simp [withScheme]
  · -- the letter that starts the URL is not the first one
    intro _ hhttp
    obtain ⟨a, y, rfl⟩ := List.exists_cons_of_ne_nil hne
    have hh : 'h' ∈ (y ++ (withScheme scheme body).takeWhile (· ≠ ':')).map Char.toLower := by
      rcases hscheme with rfl | rfl <;> simp [withScheme]
    rcases hhttp with hhttp | hhttp <;> rw [List.cons_append, List.map_cons] at hhttp <;>
      exact absurd ((List.cons.inj hhttp).2 ▸ hh) (by decide)
  · intro b hb
    have hbx : ∀ c ∈ b, isUrlChar c = true := fun c hc => hx c (hy.subset (hb c hc))
    rw [takeWhile_isUrlChar hbx, takeWhile_isUrlChar fun c hc =>
      (List.mem_append.mp hc).elim (hbx c) (hurl c)]
    have hany : (withScheme scheme body).any (fun c => c = '?' || c = '#') = false :=
      List.any_eq_false.mpr fun c hc => by simp [hplain c hc]
    have hat : (urlNetloc (b ++ withScheme scheme body)).contains '@'
        = (urlNetloc b).contains '@' := by
      rw [urlNetloc, List.takeWhile_append]
      split_ifs with hlen
      · have hb : b.takeWhile (!isDelim ·) = b :=
          (List.takeWhile_prefix _).eq_of_length hlen
        have hright : ((withScheme scheme body).takeWhile (!isDelim ·)).contains '@' = false := by
          simpa [urlNetloc] using hnetloc
        rw [List.contains_append, hright, Bool.or_false, urlNetloc, hb]
      · rfl
    rw [exposing, exposing, List.any_append, hany, Bool.or_false, hat]

/-- A URL with a scheme shows what follows its scheme. -/
theorem exposes_withScheme {scheme body : Str} (hscheme : IsHttp scheme)
    (hbody : ∀ c ∈ body, isUrlChar c = true) :
    exposes (withScheme scheme body) = (exposing body || exposes body) := by
  have hat : exposesAt (withScheme scheme body) = exposing body := by
    have hcolon : ':' ∉ scheme := by
      rcases hscheme with rfl | rfl <;> decide
    have hlower : httpSchemes.contains (scheme.map Char.toLower) = true := by
      rcases hscheme with rfl | rfl <;> decide
    simp only [exposesAt, withScheme, cut_append hcolon, hlower, Bool.true_and, List.drop_succ_cons,
      List.drop_zero, takeWhile_isUrlChar hbody]
    simp
  rcases hscheme with rfl | rfl
  · rw [withScheme, List.cons_append, exposes, ← List.cons_append, ← withScheme, hat]
    simp only [List.cons_append, List.nil_append]
    repeat rw [exposes_cons (by decide)]
  · rw [withScheme, List.cons_append, exposes, ← List.cons_append, ← withScheme, hat]
    simp only [List.cons_append, List.nil_append]
    repeat rw [exposes_cons (by decide)]

theorem exposes_append_of_false {x r : Str}
    (h : ∀ y, y <:+ x → y ≠ [] → exposesAt (y ++ r) = false) : exposes (x ++ r) = exposes r := by
  induction x with
  | nil => rfl
  | cons c x ih =>
      have hc := h (c :: x) List.suffix_rfl (List.cons_ne_nil c x)
      rw [List.cons_append, exposes, ← List.cons_append, hc, Bool.false_or]
      exact ih fun y hy => h y (hy.trans (List.suffix_cons c x))

/-- **Without credentials and without a colon before its path, a URL shows what its path shows.** -/
theorem exposes_cleaned {scheme netloc body : Str} (hscheme : IsHttp scheme)
    (hchars : ∀ c ∈ netloc ++ urlPath body, isUrlChar c = true ∧ c ≠ '?' ∧ c ≠ '#')
    (hdelim : ∀ c ∈ netloc, isDelim c = false) (hat : '@' ∉ netloc)
    (hlast : netloc.getLast? ≠ some ':') :
    exposes (withScheme scheme (netloc ++ urlPath body)) = exposes (urlPath body) := by
  have hexposing : exposing (netloc ++ urlPath body) = false := by
    rw [exposing_of_forall fun c hc => (hchars c hc).2, (urlNetloc_append hdelim body).1]
    simpa using hat
  rw [exposes_withScheme hscheme fun c hc => (hchars c hc).1, hexposing, Bool.false_or]
  refine exposes_append_of_false fun y hy hne => ?_
  have hslash : ∀ c ∈ y, c ≠ '/' := fun c hc => (ne_of_isDelim (hdelim c (hy.subset hc))).1
  by_cases hcolon : ':' ∈ y
  · obtain ⟨word, t, rfl, hnot⟩ := List.eq_append_cons_of_mem hcolon
    cases t with
    | nil =>
        obtain ⟨front, rfl⟩ := hy
        simp at hlast
    | cons d t =>
        have hd : '/' ≠ d := (hslash d (by simp)).symm
        rw [List.append_assoc, exposesAt, List.cons_append, cut_append hnot]
        simp [hd]
  · rcases urlPath_eq body with hpath | ⟨rest, hpath⟩ <;> rw [hpath]
    · simp [exposesAt, cut_of_notMem hcolon]
    · -- the slash of the path would be part of the scheme
      have hkeep : ∀ c ∈ y, decide (c ≠ ':') = true := fun c hc =>
        decide_eq_true fun h => hcolon (h ▸ hc)
      have hmem : '/' ∈ (cut ':' (y ++ '/' :: rest)).1.map Char.toLower := by
        rw [cut, List.takeWhile_append_of_pos hkeep, List.takeWhile_cons_of_pos (by decide)]
        exact List.mem_map.mpr ⟨'/', by simp, by decide⟩
      have hleft : httpSchemes.contains
          ((cut ':' (y ++ '/' :: rest)).1.map Char.toLower) = false := by
        rw [← Bool.not_eq_true, List.contains_iff_mem, mem_httpSchemes]
        rintro (h | h) <;> exact absurd (h ▸ hmem) (by decide)
      rw [exposesAt]
      simp only [hleft, Bool.false_and]

/-! ## What the pattern matches -/

theorem prefix_takeWhile_iff {p : Char → Bool} {a s : Str} (ha : ∀ c ∈ a, p c = true) :
    a <+: s.takeWhile p ↔ a <+: s := by
  constructor
  · exact fun h => h.trans (List.takeWhile_prefix p)
  · rintro ⟨b, rfl⟩
    rw [List.takeWhile_append_of_pos ha]
    exact List.prefix_append a _

/-- A match does not go over the end of a run. -/
theorem matchUrl_takeWhile (s : Str) : matchUrl (s.takeWhile isUrlChar) = matchUrl s := by
  have hhead : ∀ scheme ∈ httpSchemes, ∀ c ∈ withScheme scheme [], isUrlChar c = true :=
    fun scheme h => isUrlChar_withScheme (mem_httpSchemes.mp h) (by simp)
  have hfind : httpSchemes.find? (fun scheme =>
      startsWith (s.takeWhile isUrlChar) (withScheme scheme []))
        = httpSchemes.find? fun scheme => startsWith s (withScheme scheme []) := by
    have hstart : ∀ scheme ∈ httpSchemes, startsWith (s.takeWhile isUrlChar) (withScheme scheme [])
        = startsWith s (withScheme scheme []) := by
      intro scheme h
      rw [Bool.eq_iff_iff, startsWith_iff, startsWith_iff, prefix_takeWhile_iff (hhead scheme h)]
    simp only [httpSchemes, List.find?_cons, List.find?_nil, List.forall_mem_cons] at hstart ⊢
    rw [hstart.1, hstart.2.1]
  rw [matchUrl, matchUrl, hfind]
  cases hscheme : httpSchemes.find? fun scheme => startsWith s (withScheme scheme []) with
  | none => rfl
  | some scheme =>
      have hstart : startsWith s (withScheme scheme []) = true :=
        List.find?_some (p := fun scheme => startsWith s (withScheme scheme [])) hscheme
      obtain ⟨rest, rfl⟩ := (startsWith_iff _ _).mp hstart
      have hchars := hhead scheme (List.mem_of_find?_eq_some hscheme)
      have hbody : (rest.takeWhile isUrlChar).takeWhile isUrlChar = rest.takeWhile isUrlChar :=
        takeWhile_isUrlChar fun c hc => List.mem_takeWhile_imp hc
      simp only [List.takeWhile_append_of_pos hchars, List.drop_left, hbody]

/-- **A run that starts with a scheme is a match.** -/
theorem matchUrl_eq_some {w url : Str} (hw : ∀ c ∈ w, isUrlChar c = true) :
    matchUrl w = some url ↔
      url = w ∧ ∃ scheme body, IsHttp scheme ∧ body ≠ [] ∧ w = withScheme scheme body := by
  constructor
  · intro h
    rw [matchUrl] at h
    cases hscheme : httpSchemes.find? fun scheme => startsWith w (withScheme scheme []) with
    | none => simp [hscheme] at h
    | some scheme =>
        have hstart : startsWith w (withScheme scheme []) = true :=
          List.find?_some (p := fun scheme => startsWith w (withScheme scheme [])) hscheme
        obtain ⟨body, rfl⟩ := (startsWith_iff _ _).mp hstart
        have hbody : ∀ c ∈ body, isUrlChar c = true := fun c hc =>
          hw c (List.mem_append_right _ hc)
        have hwhole : withScheme scheme [] ++ body = withScheme scheme body := by
          simp [withScheme]
        rw [hscheme] at h
        simp only [List.drop_left, takeWhile_isUrlChar hbody] at h
        split_ifs at h with hne
        cases h
        exact ⟨hwhole.symm, scheme, body, mem_httpSchemes.mp (List.mem_of_find?_eq_some hscheme),
          hne, hwhole⟩
  · rintro ⟨rfl, scheme, body, hscheme, hne, rfl⟩
    have hbody : ∀ c ∈ body, isUrlChar c = true := fun c hc => hw c (mem_withScheme.mpr (Or.inr hc))
    rcases hscheme with rfl | rfl <;>
      simp [matchUrl, httpSchemes, withScheme, takeWhile_isUrlChar hbody, hne]

/-! ## Runs -/

/-- The first URL of a run starts with a scheme, and there is none before it. -/
theorem firstUrl_eq_some {w before url : Str} (hw : ∀ c ∈ w, isUrlChar c = true)
    (h : firstUrl w = some (before, url)) :
    w = before ++ url ∧ (∃ scheme body, IsHttp scheme ∧ body ≠ [] ∧ url = withScheme scheme body) ∧
      ∀ y, y <:+ before → y ≠ [] → matchUrl (y ++ url) = none := by
  induction w generalizing before with
  | nil => cases h
  | cons c w ih =>
      rw [firstUrl] at h
      cases hmatch : matchUrl (c :: w) with
      | some found =>
          obtain ⟨rfl, hform⟩ := (matchUrl_eq_some hw).mp hmatch
          rw [hmatch] at h
          cases h
          refine ⟨rfl, hform, fun y hy hne => absurd (List.suffix_nil.mp hy) hne⟩
      | none =>
          rw [hmatch] at h
          obtain ⟨⟨before', url'⟩, hfirst, heq⟩ := Option.map_eq_some_iff.mp h
          cases heq
          obtain ⟨rfl, hform, hnone⟩ := ih (fun d hd => hw d (List.mem_cons_of_mem _ hd)) hfirst
          refine ⟨rfl, hform, fun y hy hne => ?_⟩
          rcases List.suffix_cons_iff.mp hy with rfl | hy
          · exact hmatch
          · exact hnone y hy hne

/-- A text whose first letter is not in the rest of `p` does not complete `p`. -/
theorem prefix_of_prefix_append {p y r : Str} {d : Char} (hne : y ≠ []) (hd : d ∉ p.tail)
    (h : p <+: y ++ d :: r) : p <+: y := by
  rcases List.prefix_or_prefix_of_prefix h (List.prefix_append y (d :: r)) with h | ⟨q, rfl⟩
  · exact h
  · cases q with
    | nil => simp
    | cons e q =>
        obtain ⟨a, y, rfl⟩ := List.exists_cons_of_ne_nil hne
        obtain ⟨rfl, -⟩ := List.cons_prefix_cons.mp ((List.prefix_append_right_inj _).mp h)
        exact absurd (List.mem_append_right y List.mem_cons_self) hd

/-- Whether a URL starts before another one does not depend on what follows its scheme. -/
theorem matchUrl_append_eq_none {y scheme body body' : Str} (hscheme : IsHttp scheme)
    (hne : y ≠ []) (hchars : ∀ c ∈ y ++ withScheme scheme body, isUrlChar c = true)
    (hchars' : ∀ c ∈ y ++ withScheme scheme body', isUrlChar c = true)
    (h : matchUrl (y ++ withScheme scheme body) = none) :
    matchUrl (y ++ withScheme scheme body') = none := by
  by_contra hsome
  obtain ⟨url, hurl⟩ := Option.ne_none_iff_exists'.mp hsome
  obtain ⟨-, scheme', rest, hscheme', -, heq⟩ := (matchUrl_eq_some hchars').mp hurl
  -- the scheme that was found stands before the URL, and would be found there as well
  have hprefix : withScheme scheme' [] <+: y ++ withScheme scheme body' :=
    ⟨rest, by rw [heq]; simp [withScheme]⟩
  have hbefore : withScheme scheme' [] <+: y := by
    rcases hscheme with rfl | rfl <;> rcases hscheme' with rfl | rfl <;>
      exact prefix_of_prefix_append hne (by decide) hprefix
  obtain ⟨z, rfl⟩ := hbefore
  have hmatch := (matchUrl_eq_some hchars).mpr ⟨rfl, scheme', z ++ withScheme scheme body,
    hscheme', by simp [withScheme], by simp [withScheme]⟩
  rw [h] at hmatch
  cases hmatch

/-- A text is a run, or starts with a run that something else ends. -/
theorem run_induction {P : Str → Prop} (hrun : ∀ w, (∀ c ∈ w, isUrlChar c = true) → P w)
    (hcons : ∀ w c rest, (∀ d ∈ w, isUrlChar d = true) → isUrlChar c = false → P rest →
      P (w ++ c :: rest)) (s : Str) : P s := by
  induction hn : s.length using Nat.strong_induction_on generalizing s with
  | _ n ih =>
      have hwhole := List.takeWhile_append_dropWhile (p := isUrlChar) (l := s)
      have hstart := startsOutside_dropWhile isUrlChar s
      cases hrest : s.dropWhile isUrlChar with
      | nil =>
          rw [hrest, List.append_nil] at hwhole
          rw [← hwhole]
          exact hrun _ fun c hc => List.mem_takeWhile_imp hc
      | cons c rest =>
          rw [hrest] at hwhole hstart
          rw [← hwhole]
          refine hcons _ c rest (fun d hd => List.mem_takeWhile_imp hd) (hstart c rfl)
            (ih rest.length ?_ rest rfl)
          have hlen := congrArg List.length hwhole
          rw [List.length_append, List.length_cons] at hlen
          omega

end AlderpointDNS.Importer
