import AlderpointDNS.Importer.ExposedUrls
import AlderpointDNS.Lib.Json

/-!
# Reports without credentials

`redact_sensitive` goes through the values of a report: it drops the keys that look like
credentials, and rewrites in the strings what `_URL_RE` matches.

* `redactText_run` — in a run of characters of URLs, only its first URL is rewritten, to the end;
* **`redactSensitive_again`** — redacting again changes nothing;
* **`redacts_iff`** — the values that are redacted.
* `bad_port_raises` — a URL with a port that is no number.
-/

namespace AlderpointDNS.Importer

open Text Urls Upstream

/-! ## `redact_sensitive` -/

/-- `[a-z0-9]`. -/
def isKeyChar (c : Char) : Bool := ('a' ≤ c && c ≤ 'z') || c.isDigit

/-- `_CAMEL_BOUNDARY_RE.sub("_", key)`. -/
def camelBoundary : Str → Str
  | [] => []
  | [c] => [c]
  | c :: d :: s =>
      if isKeyChar c && ('A' ≤ d && d ≤ 'Z') then c :: '_' :: camelBoundary (d :: s)
      else c :: camelBoundary (d :: s)

/-- `_SENSITIVE_KEY_TOKENS`. -/
def sensitiveKeyTokens : List Str :=
  ["password".toList, "passwd".toList, "token".toList, "secret".toList, "authorization".toList,
    "auth".toList, "credentials".toList, "credential".toList]

/-- `_SENSITIVE_KEY_COMPOUNDS`. -/
def sensitiveKeyCompounds : List Str := ["apikey".toList]

section Redact

variable (u : HostData)

/-- `_is_sensitive_key`. -/
def isSensitiveKey (key : Str) : Bool :=
  let normalized := u.toLower (camelBoundary key)
  sensitiveKeyCompounds.contains (normalized.filter isKeyChar)
    || ((normalized.splitOnP (!isKeyChar ·)).filter (· ≠ [])).any sensitiveKeyTokens.contains

/-- `_URL_RE.sub(lambda match: sanitize_url(match.group(0)), value)`, after the first `skip`
characters, which belong to a match. -/
def redactText : ℕ → Str → Option Str
  | _, [] => some []
  | skip + 1, _ :: s => redactText skip s
  | 0, c :: s =>
      match matchUrl (c :: s) with
      | none => (redactText 0 s).map (c :: ·)
      | some url => do
          let sanitized ← sanitizeUrl u url
          let rest ← redactText (url.length - 1) s
          some (sanitized ++ rest)

mutual

/-- `redact_sensitive`; `none` is an exception, and a number stands for any value that is neither a
dict nor a list nor a string. -/
def redactSensitive : Json.Value → Option Json.Value
  | .int n => some (.int n)
  | .str s => (redactText u 0 s).map .str
  | .list items => (redactItems items).map .list
  | .dict entries => (redactEntries entries).map .dict

def redactItems : List Json.Value → Option (List Json.Value)
  | [] => some []
  | v :: items => do
      let v ← redactSensitive v
      let items ← redactItems items
      some (v :: items)

def redactEntries : List (Str × Json.Value) → Option (List (Str × Json.Value))
  | [] => some []
  | (key, v) :: entries =>
      if isSensitiveKey u key then redactEntries entries
      else do
        let v ← redactSensitive v
        let entries ← redactEntries entries
        some ((key, v) :: entries)

end

end Redact

/-! ## Runs -/

theorem redactText_skip (u : HostData) (x rest : Str) :
    redactText u x.length (x ++ rest) = redactText u 0 rest := by
  induction x with
  | nil => rfl
  | cons c x ih => exact ih

theorem redactText_cons (u : HostData) {c : Char} {s : Str} (h : matchUrl (c :: s) = none) :
    redactText u 0 (c :: s) = (redactText u 0 s).map (c :: ·) := by
  rw [redactText, h]

/-- A run that is a match as a whole. -/
theorem redactText_match (u : HostData) {url : Str} (h : matchUrl url = some url)
    (hne : url ≠ []) : redactText u 0 url = sanitizeUrl u url := by
  obtain ⟨c, s, rfl⟩ := List.exists_cons_of_ne_nil hne
  have hrest : redactText u s.length s = some [] := by
    simpa [redactText] using redactText_skip u s []
  rw [redactText, h]
  simp [hrest]

/-- **A text is redacted run by run.** -/
theorem redactText_append_cons (u : HostData) {w : Str} {c : Char} (rest : Str)
    (hw : ∀ d ∈ w, isUrlChar d = true) (hc : isUrlChar c = false) :
    redactText u 0 (w ++ c :: rest) = (redactText u 0 w).bind fun w' =>
      (redactText u 0 rest).map fun rest' => w' ++ c :: rest' := by
  have hmatch : ∀ x : Str, (∀ d ∈ x, isUrlChar d = true) →
      matchUrl (x ++ c :: rest) = matchUrl x := by
    intro x hx
    rw [← matchUrl_takeWhile, (takeWhile_append_cons hc x rest).1, takeWhile_isUrlChar hx]
  have hbreak : redactText u 0 (c :: rest) = (redactText u 0 rest).map (c :: ·) :=
    redactText_cons u (hmatch [] (by simp))
  induction w with
  | nil => simp [redactText, hbreak]
  | cons d w ih =>
      have hd := hmatch (d :: w) hw
      rw [List.cons_append] at hd ⊢
      cases hurl : matchUrl (d :: w) with
      | none =>
          rw [redactText_cons u (hd.trans hurl), redactText_cons u hurl,
            ih fun x hx => hw x (List.mem_cons_of_mem _ hx)]
          cases redactText u 0 w <;> simp [Function.comp_def]
      | some url =>
          obtain ⟨rfl, -⟩ := (matchUrl_eq_some hw).mp hurl
          rw [redactText_match u hurl (List.cons_ne_nil d w), redactText, hd, hurl]
          simp only [List.length_cons, Nat.add_sub_cancel, redactText_skip, hbreak]
          cases sanitizeUrl u (d :: w) with
          | none => rfl
          | some sanitized => cases redactText u 0 rest <;> simp

/-- Only the first URL of a run is rewritten: it is the rest of the run. -/
theorem redactText_run (u : HostData) {w : Str} (hw : ∀ c ∈ w, isUrlChar c = true) :
    redactText u 0 w = match firstUrl w with
      | none => some w
      | some (before, url) => (sanitizeUrl u url).map (before ++ ·) := by
  induction w with
  | nil => rfl
  | cons c w ih =>
      cases hmatch : matchUrl (c :: w) with
      | some url =>
          obtain ⟨rfl, -⟩ := (matchUrl_eq_some hw).mp hmatch
          rw [redactText_match u hmatch (List.cons_ne_nil c w), firstUrl, hmatch]
          simp
      | none =>
          rw [redactText_cons u hmatch, ih fun d hd => hw d (List.mem_cons_of_mem _ hd), firstUrl,
            hmatch]
          rcases firstUrl w with _ | ⟨before, url⟩
          · rfl
          · simp [Function.comp_def]

theorem redactText_append (u : HostData) {before r : Str}
    (h : ∀ y, y <:+ before → y ≠ [] → matchUrl (y ++ r) = none) :
    redactText u 0 (before ++ r) = (redactText u 0 r).map (before ++ ·) := by
  induction before with
  | nil => simp
  | cons c before ih =>
      have hc := h (c :: before) List.suffix_rfl (List.cons_ne_nil c before)
      rw [List.cons_append] at hc ⊢
      rw [redactText_cons u hc, ih fun y hy => h y (hy.trans (List.suffix_cons c before)),
        Option.map_map]
      rfl

section Lower

variable {u : HostData} (hlower : LowerLaws u.toLower)

include hlower

/-- A URL that was rewritten stays as it is, also where nothing is left after its scheme. -/
theorem redactText_cleaned {scheme body netloc' : Str} (hscheme : IsHttp scheme)
    (hbody : ∀ c ∈ body, isUrlChar c = true)
    (h : cleanNetloc u (urlNetloc body) = some netloc') :
    redactText u 0 (withScheme scheme (netloc' ++ urlPath body))
      = some (withScheme scheme (netloc' ++ urlPath body)) := by
  by_cases hempty : netloc' ++ urlPath body = []
  · rw [hempty]
    rcases hscheme with rfl | rfl <;> rfl
  · have hchars := isUrlChar_withScheme hscheme fun c hc =>
      (isUrlChar_cleaned hlower hbody h c hc).1
    have hmatch := (matchUrl_eq_some hchars).mpr ⟨rfl, scheme, _, hscheme, hempty, rfl⟩
    rw [redactText_match u hmatch (by simp [withScheme]),
      sanitizeUrl_sanitizeUrl hlower hscheme hbody h]

/-- **Redacting a run again changes nothing.** -/
theorem redactText_run_again {w w' : Str} (hw : ∀ c ∈ w, isUrlChar c = true)
    (h : redactText u 0 w = some w') :
    redactText u 0 w' = some w' ∧ ∀ c ∈ w', isUrlChar c = true := by
  have hrun := redactText_run u hw
  rw [h] at hrun
  cases hfirst : firstUrl w with
  | none =>
      rw [hfirst] at hrun
      cases hrun
      exact ⟨h, hw⟩
  | some found =>
      obtain ⟨before, url⟩ := found
      rw [hfirst] at hrun
      obtain ⟨rfl, ⟨scheme, body, hscheme, -, rfl⟩, hnone⟩ := firstUrl_eq_some hw hfirst
      have hbefore : ∀ c ∈ before, isUrlChar c = true := fun c hc =>
        hw c (List.mem_append_left _ hc)
      have hbody : ∀ c ∈ body, isUrlChar c = true := fun c hc =>
        hw c (List.mem_append_right _ (mem_withScheme.mpr (Or.inr hc)))
      have hrewritten : some w' = (sanitizeUrl u (withScheme scheme body)).map (before ++ ·) := hrun
      rw [sanitizeUrl_eq hscheme hbody, Option.map_map] at hrewritten
      obtain ⟨netloc', hclean, rfl⟩ := Option.map_eq_some_iff.mp hrewritten.symm
      have hchars : ∀ y, y <:+ before →
          ∀ c ∈ y ++ withScheme scheme (netloc' ++ urlPath body), isUrlChar c = true := by
        intro y hy c hc
        rcases List.mem_append.mp hc with hc | hc
        · exact hbefore c (hy.subset hc)
        · exact isUrlChar_withScheme hscheme
            (fun c hc => (isUrlChar_cleaned hlower hbody hclean c hc).1) c hc
      refine ⟨?_, hchars before List.suffix_rfl⟩
      have happend := redactText_append u (r := withScheme scheme (netloc' ++ urlPath body))
        fun y hy hne => matchUrl_append_eq_none hscheme hne
          (fun c hc => (List.mem_append.mp hc).elim (fun hc => hbefore c (hy.subset hc))
            (fun hc => hw c (List.mem_append_right _ hc)))
          (hchars y hy) (hnone y hy hne)
      rw [redactText_cleaned hlower hscheme hbody hclean] at happend
      exact happend

end Lower

/-! ## Which URLs are rewritten to show nothing -/

section Safe

variable (u : HostData)

/-- A URL that `sanitize_url` takes apart shows nothing in its path, and its port is a number; of
any other URL nothing is left to show when the query is cut off. -/
def isSafeUrl (url : Str) : Bool :=
  match urlsplit u.toLower u.checkNetloc url with
  | none => !exposes (withoutQuery url)
  | some parts =>
      if parts.hostname u.toLower = [] then !exposes (withoutQuery url)
      else parts.port.isSome && !exposes parts.path

/-- Nothing is shown before the first URL of a run, nor by what becomes of that URL. -/
def isSafeRun (w : Str) : Bool :=
  match firstUrl w with
  | none => !exposes w
  | some (before, url) => !exposes before && isSafeUrl u url

/-- Every run of characters of URLs is safe. -/
def isSafeText (s : Str) : Bool := (s.splitOnP (!isUrlChar ·)).all (isSafeRun u)

end Safe

section Shown

variable {u : HostData} (hlower : LowerLaws u.toLower)

include hlower

/-- **`sanitize_url` shows nothing of the safe URLs only.** -/
theorem sanitizeUrl_safe_iff {scheme body : Str} (hscheme : IsHttp scheme)
    (hbody : ∀ c ∈ body, isUrlChar c = true) :
    (∃ url, sanitizeUrl u (withScheme scheme body) = some url ∧ exposes url = false)
      ↔ isSafeUrl u (withScheme scheme body) = true := by
  obtain ⟨hnone, hsome⟩ := urlsplit_withScheme (u := u) hscheme hbody
  rw [sanitizeUrl_eq hscheme hbody, isSafeUrl, withoutQuery_withScheme hscheme]
  cases hrejects : rejectsNetloc u (urlNetloc body) with
  | true => simp [hnone hrejects, cleanNetloc, hrejects]
  | false =>
      obtain ⟨parts, hparts, -, hnetloc, hpath⟩ := hsome hrejects
      have hhost := hostname_congr (u := u) hnetloc
      have hport := port_congr hnetloc
      by_cases hempty : (netlocParts (urlNetloc body)).hostname u.toLower = []
      · simp [hparts, hhost, hempty, cleanNetloc]
      · cases hread : (netlocParts (urlNetloc body)).port with
        | none => simp [hparts, hhost, hport, hread, hempty, cleanNetloc, hrejects]
        | some port =>
            have hclean : cleanNetloc u (urlNetloc body) = some
                (netlocText ((netlocParts (urlNetloc body)).hostname u.toLower) port) := by
              simp [cleanNetloc, hrejects, hempty, hread]
            obtain ⟨hat, hlast⟩ := cleanNetloc_clean hlower hclean ⟨hrejects, hempty⟩
            have hshown := exposes_cleaned hscheme (isUrlChar_cleaned hlower hbody hclean)
              (fun c hc => (mem_cleaned hlower hbody hclean c hc).2) hat hlast
            simp [hparts, hhost, hport, hread, hempty, hclean, hpath, hshown]

theorem isSafeRun_iff {w : Str} (hw : ∀ c ∈ w, isUrlChar c = true) :
    (∃ w', redactText u 0 w = some w' ∧ exposes w' = false) ↔ isSafeRun u w = true := by
  rw [redactText_run u hw, isSafeRun]
  cases hfirst : firstUrl w with
  | none => simp
  | some found =>
      obtain ⟨before, url⟩ := found
      obtain ⟨rfl, ⟨scheme, body, hscheme, -, rfl⟩, -⟩ := firstUrl_eq_some hw hfirst
      have hbody : ∀ c ∈ body, isUrlChar c = true := fun c hc =>
        hw c (List.mem_append_right _ (mem_withScheme.mpr (Or.inr hc)))
      have hshown : ∀ url, sanitizeUrl u (withScheme scheme body) = some url →
          exposes (before ++ url) = (exposes before || exposes url) := by
        intro url hurl
        rw [sanitizeUrl_eq hscheme hbody] at hurl
        obtain ⟨netloc', hclean, rfl⟩ := Option.map_eq_some_iff.mp hurl
        exact exposes_append_url hscheme (isUrlChar_cleaned hlower hbody hclean)
          fun c hc => hw c (List.mem_append_left _ hc)
      simp only [Bool.and_eq_true, Bool.not_eq_true', ← sanitizeUrl_safe_iff hlower hscheme hbody]
      constructor
      · rintro ⟨w', hw', hexposes⟩
        obtain ⟨url, hurl, rfl⟩ := Option.map_eq_some_iff.mp hw'
        obtain ⟨hbefore, hafter⟩ := Bool.or_eq_false_iff.mp ((hshown url hurl).symm.trans hexposes)
        exact ⟨hbefore, url, hurl, hafter⟩
      · rintro ⟨hbefore, url, hurl, hafter⟩
        refine ⟨before ++ url, by simp [hurl], ?_⟩
        rw [hshown url hurl, hbefore, hafter]
        rfl

theorem isSafeText_iff (s : Str) :
    (∃ s', redactText u 0 s = some s' ∧ exposes s' = false) ↔ isSafeText u s = true := by
  induction s using run_induction with
  | hrun w hw =>
      have hsplit : w.splitOnP (!isUrlChar ·) = [w] :=
        List.splitOnP_eq_singleton fun c hc => by simp [hw c hc]
      simp [isSafeRun_iff hlower hw, isSafeText, hsplit]
  | hcons w c rest hw hc ih =>
      have hsplit : (w ++ c :: rest).splitOnP (!isUrlChar ·) = w :: rest.splitOnP (!isUrlChar ·) :=
        List.splitOnP_append_cons_of_forall_mem (fun d hd => by simp [hw d hd]) c (by simp [hc])
          rest
      rw [isSafeText, hsplit, List.all_cons, ← isSafeText, Bool.and_eq_true,
        ← isSafeRun_iff hlower hw, ← ih, redactText_append_cons u rest hw hc]
      constructor
      · rintro ⟨s', hs', hexposes⟩
        obtain ⟨w', hw', hs'⟩ := Option.bind_eq_some_iff.mp hs'
        obtain ⟨rest', hrest', rfl⟩ := Option.map_eq_some_iff.mp hs'
        obtain ⟨hfirst, hlast⟩ :=
          Bool.or_eq_false_iff.mp ((exposes_append_cons hc w' rest').symm.trans hexposes)
        exact ⟨⟨w', hw', hfirst⟩, rest', hrest', hlast⟩
      · rintro ⟨⟨w', hw', hfirst⟩, rest', hrest', hlast⟩
        refine ⟨w' ++ c :: rest', by simp [hw', hrest'], ?_⟩
        rw [exposes_append_cons hc, hfirst, hlast]
        rfl

theorem redactText_again {s s' : Str} (h : redactText u 0 s = some s') :
    redactText u 0 s' = some s' := by
  induction s using run_induction generalizing s' with
  | hrun w hw => exact (redactText_run_again hlower hw h).1
  | hcons w c rest hw hc ih =>
      rw [redactText_append_cons u rest hw hc] at h
      obtain ⟨w', hw', h⟩ := Option.bind_eq_some_iff.mp h
      obtain ⟨rest', hrest', rfl⟩ := Option.map_eq_some_iff.mp h
      obtain ⟨hagain, hchars⟩ := redactText_run_again hlower hw hw'
      rw [redactText_append_cons u rest' hchars hc, hagain, ih hrest']
      rfl

end Shown

/-! ## Values -/

mutual

/-- The strings of a value under the keys that are kept. -/
def strings (keep : Str → Bool) : Json.Value → List Str
  | .int _ => []
  | .str s => [s]
  | .list items => stringsItems keep items
  | .dict entries => stringsEntries keep entries

def stringsItems (keep : Str → Bool) : List Json.Value → List Str
  | [] => []
  | v :: items => strings keep v ++ stringsItems keep items

def stringsEntries (keep : Str → Bool) : List (Str × Json.Value) → List Str
  | [] => []
  | (key, v) :: entries =>
      if keep key then strings keep v ++ stringsEntries keep entries
      else stringsEntries keep entries

end

variable {u : HostData}

mutual

theorem redactSensitive_again (hlower : LowerLaws u.toLower) : ∀ {v v' : Json.Value},
    redactSensitive u v = some v' → redactSensitive u v' = some v'
  | .int n, v', h => by
      rw [redactSensitive] at h
      cases h
      rw [redactSensitive]
  | .str s, v', h => by
      rw [redactSensitive] at h
      obtain ⟨s', hs', rfl⟩ := Option.map_eq_some_iff.mp h
      rw [redactSensitive, redactText_again hlower hs']
      rfl
  | .list items, v', h => by
      rw [redactSensitive] at h
      obtain ⟨items', hitems, rfl⟩ := Option.map_eq_some_iff.mp h
      rw [redactSensitive, redactItems_again hlower hitems]
      rfl
  | .dict entries, v', h => by
      rw [redactSensitive] at h
      obtain ⟨entries', hentries, rfl⟩ := Option.map_eq_some_iff.mp h
      rw [redactSensitive, redactEntries_again hlower hentries]
      rfl

theorem redactItems_again (hlower : LowerLaws u.toLower) : ∀ {items items' : List Json.Value},
    redactItems u items = some items' → redactItems u items' = some items'
  | [], items', h => by
      rw [redactItems] at h
      cases h
      rw [redactItems]
  | v :: items, items', h => by
      rw [redactItems] at h
      obtain ⟨v', hv, h⟩ := Option.bind_eq_some_iff.mp h
      obtain ⟨items', hitems, h⟩ := Option.bind_eq_some_iff.mp h
      cases h
      rw [redactItems, redactSensitive_again hlower hv, redactItems_again hlower hitems]
      rfl

theorem redactEntries_again (hlower : LowerLaws u.toLower) :
    ∀ {entries entries' : List (Str × Json.Value)},
    redactEntries u entries = some entries' → redactEntries u entries' = some entries'
  | [], entries', h => by
      rw [redactEntries] at h
      cases h
      rw [redactEntries]
  | (key, v) :: entries, entries', h => by
      rw [redactEntries] at h
      split_ifs at h with hkey
      · exact redactEntries_again hlower h
      · obtain ⟨v', hv, h⟩ := Option.bind_eq_some_iff.mp h
        obtain ⟨entries', hentries, h⟩ := Option.bind_eq_some_iff.mp h
        cases h
        rw [redactEntries, if_neg hkey, redactSensitive_again hlower hv,
          redactEntries_again hlower hentries]
        rfl

end

mutual

theorem redactSensitive_safe_iff (hlower : LowerLaws u.toLower) : ∀ v : Json.Value,
    (∃ v', redactSensitive u v = some v' ∧ ∀ s ∈ strings (fun _ => true) v', exposes s = false) ↔
      ∀ s ∈ strings (fun key => !isSensitiveKey u key) v, isSafeText u s = true
  | .int n => by simp [redactSensitive, strings]
  | .str s => by
      rw [redactSensitive, strings, List.forall_mem_singleton, ← isSafeText_iff hlower s]
      simp [strings]
  | .list items => by
      rw [redactSensitive, strings, ← redactItems_safe_iff hlower items]
      simp [strings]
  | .dict entries => by
      rw [redactSensitive, strings, ← redactEntries_safe_iff hlower entries]
      simp [strings]

theorem redactItems_safe_iff (hlower : LowerLaws u.toLower) : ∀ items : List Json.Value,
    (∃ items', redactItems u items = some items' ∧
      ∀ s ∈ stringsItems (fun _ => true) items', exposes s = false) ↔
      ∀ s ∈ stringsItems (fun key => !isSensitiveKey u key) items, isSafeText u s = true
  | [] => by simp [redactItems, stringsItems]
  | v :: items => by
      rw [redactItems, stringsItems, List.forall_mem_append, ← redactSensitive_safe_iff hlower v,
        ← redactItems_safe_iff hlower items]
      constructor
      · rintro ⟨all, hall, hsafe⟩
        obtain ⟨v', hv, hall⟩ := Option.bind_eq_some_iff.mp hall
        obtain ⟨items', hitems, hall⟩ := Option.bind_eq_some_iff.mp hall
        cases hall
        rw [stringsItems, List.forall_mem_append] at hsafe
        exact ⟨⟨v', hv, hsafe.1⟩, items', hitems, hsafe.2⟩
      · rintro ⟨⟨v', hv, hfirst⟩, items', hitems, hrest⟩
        refine ⟨v' :: items', by simp [hv, hitems], ?_⟩
        rw [stringsItems, List.forall_mem_append]
        exact ⟨hfirst, hrest⟩

theorem redactEntries_safe_iff (hlower : LowerLaws u.toLower) :
    ∀ entries : List (Str × Json.Value),
    (∃ entries', redactEntries u entries = some entries' ∧
      ∀ s ∈ stringsEntries (fun _ => true) entries', exposes s = false) ↔
      ∀ s ∈ stringsEntries (fun key => !isSensitiveKey u key) entries, isSafeText u s = true
  | [] => by simp [redactEntries, stringsEntries]
  | (key, v) :: entries => by
      cases hkey : isSensitiveKey u key with
      | true =>
          rw [redactEntries, stringsEntries, if_pos hkey, if_neg (by simp [hkey]),
            redactEntries_safe_iff hlower entries]
      | false =>
          rw [redactEntries, stringsEntries, if_neg (by simp [hkey]), if_pos (by simp [hkey]),
            List.forall_mem_append, ← redactSensitive_safe_iff hlower v,
            ← redactEntries_safe_iff hlower entries]
          constructor
          · rintro ⟨all, hall, hsafe⟩
            obtain ⟨v', hv, hall⟩ := Option.bind_eq_some_iff.mp hall
            obtain ⟨entries', hentries, hall⟩ := Option.bind_eq_some_iff.mp hall
            cases hall
            rw [stringsEntries, if_pos rfl, List.forall_mem_append] at hsafe
            exact ⟨⟨v', hv, hsafe.1⟩, entries', hentries, hsafe.2⟩
          · rintro ⟨⟨v', hv, hfirst⟩, entries', hentries, hrest⟩
            refine ⟨(key, v') :: entries', by simp [hv, hentries], ?_⟩
            rw [stringsEntries, if_pos rfl, List.forall_mem_append]
            exact ⟨hfirst, hrest⟩

end

/-- Redacting raises nothing, leaves no string that shows credentials, and nothing to redact. -/
def Redacts (u : HostData) (v : Json.Value) : Prop :=
  ∃ v', redactSensitive u v = some v' ∧ (∀ s ∈ strings (fun _ => true) v', exposes s = false) ∧
    redactSensitive u v' = some v'

/-- **The values that are redacted** are those with safe texts under the keys that are kept. -/
theorem redacts_iff (hlower : LowerLaws u.toLower) (v : Json.Value) :
    Redacts u v ↔ ∀ s ∈ strings (fun key => !isSensitiveKey u key) v, isSafeText u s = true := by
  rw [← redactSensitive_safe_iff hlower v]
  constructor
  · rintro ⟨v', hv, hsafe, -⟩
    exact ⟨v', hv, hsafe⟩
  · rintro ⟨v', hv, hsafe⟩
    exact ⟨v', hv, hsafe, redactSensitive_again hlower hv⟩

/-- The tables, for texts that are ASCII. -/
def reportData : HostData where
  lower := List.map Char.toLower
  idna := some
  checkNetloc := fun _ => true

theorem lowerLaws_reportData : LowerLaws reportData.toLower := by
  have hlower : reportData.toLower = List.map Char.toLower :=
    funext fun s => ite_self (s.map Char.toLower)
  rw [hlower]
  exact lowerLaws_map

/-- A key with a password, and a source whose URL has credentials and a query. -/
def exampleReport : Json.Value :=
  .dict [("adminPassword".toList, .str "secret".toList),
    ("source".toList, .str "from https://user:pw@H.example:8443/list?key=1 today".toList)]

theorem redacts_exampleReport : Redacts reportData exampleReport := by
  refine (redacts_iff lowerLaws_reportData exampleReport).mpr fun s hs => ?_
  have hall : (strings (fun key => !isSensitiveKey reportData key) exampleReport).all
      (isSafeText reportData) = true := by
    rw [exampleReport]
    repeat rw [String.toList_ofList]
    decide +kernel
  exact List.all_eq_true.mp hall s hs

/-- A URL with a port that is no number. -/
theorem bad_port_raises : ¬ Redacts reportData (.str "http://h:x".toList) := by
  rintro ⟨v', hv, -, -⟩
  have hnone : redactText reportData 0 "http://h:x".toList = none := by
    rw [String.toList_ofList]
    decide +kernel
  rw [redactSensitive, hnone] at hv
  cases hv

/-- Credentials that stay: a scheme in capital letters, no host, and a URL in a path. -/
example : ["HTTP://u:p@h".toList, "http://u:p@".toList, "http://a/http://u:p@b".toList].all
    (fun s => !isSafeText reportData s) = true := by
  repeat rw [String.toList_ofList]
  decide +kernel

end AlderpointDNS.Importer
