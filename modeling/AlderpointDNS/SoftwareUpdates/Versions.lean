import AlderpointDNS.Lib.DebianVersion

/-!
# Versions of the appliance

A release is tagged `MAJOR.MINOR.PATCH` or `MAJOR.MINOR.PATCH-tag.N`.  Releases are ranked by the
rules of SemVer (`compare_semver`), and whether a package may be installed is decided by dpkg on
the version that the package was built with (`source_version_to_deb_form`), where the tag is
written `~tagN` and a Debian revision follows.  `_dpkg_version_to_source_form` goes back, to find
out whether the VERSION file and the installed package disagree.

* `SourceVersion` — a version of the source form.
* **`compareSemver_text`** — SemVer ranks two of them by their numbers, a tagged version below the
  untagged one, and two tags by name and number.
* **`compareVersions_debForm`** — and dpkg does the same with what the packages are called.
* **`dpkgVersionToSourceForm_debForm`** — the way back.
-/

namespace AlderpointDNS.SoftwareUpdates

open Text Debian

/-! ## Decimal digits -/

/-- The characters with `\d` and the value 0; each is followed by the other nine digits. -/
def decimalZeros : List ℕ :=
  [0x30, 0x660, 0x6f0, 0x7c0, 0x966, 0x9e6, 0xa66, 0xae6, 0xb66, 0xbe6, 0xc66, 0xce6, 0xd66, 0xde6,
    0xe50, 0xed0, 0xf20, 0x1040, 0x1090, 0x17e0, 0x1810, 0x1946, 0x19d0, 0x1a80, 0x1a90, 0x1b50,
    0x1bb0, 0x1c40, 0x1c50, 0xa620, 0xa8d0, 0xa900, 0xa9d0, 0xa9f0, 0xaa50, 0xabf0, 0xff10, 0x104a0,
    0x10d30, 0x11066, 0x110f0, 0x11136, 0x111d0, 0x112f0, 0x11450, 0x114d0, 0x11650, 0x116c0,
    0x11730, 0x118e0, 0x11950, 0x11c50, 0x11d50, 0x11da0, 0x16a60, 0x16ac0, 0x16b50, 0x1d7ce,
    0x1d7d8, 0x1d7e2, 0x1d7ec, 0x1d7f6, 0x1e140, 0x1e2f0, 0x1e950, 0x1fbf0]

/-- The value of a decimal digit. -/
def decimalDigit (c : Char) : Option ℕ :=
  (decimalZeros.find? fun z => z ≤ c.toNat ∧ c.toNat < z + 10).map fun z => c.toNat - z

/-- `\d`. -/
def isDecimal (c : Char) : Bool := (decimalDigit c).isSome

/-- `int(s)` of decimal digits. -/
def int (s : Str) : ℕ := s.foldl (fun n c => 10 * n + (decimalDigit c).getD 0) 0

/-! ## SemVer -/

/-- What `parse_semver` returns. -/
structure Semver where
  major : ℕ
  minor : ℕ
  patch : ℕ
  prerelease : Option (List Str)

/-- `0|[1-9]\d*` at the start of a text. -/
def semverNumber : Str → Option (ℕ × Str)
  | [] => none
  | c :: s =>
      if c = '0' then some (0, s)
      else if isDigit c then some (int (c :: s.takeWhile isDecimal), s.dropWhile isDecimal)
      else none

/-- One character at the start of a text. -/
def expect (c : Char) : Str → Option Str
  | [] => none
  | x :: s => if x = c then some s else none

/-- `[0-9A-Za-z-]`. -/
def isIdentifierChar (c : Char) : Bool := isDigit c || c.isAlpha || c = '-'

/-- `[0-9A-Za-z-]+(?:\.[0-9A-Za-z-]+)*` at the start of a text. -/
def semverIdentifiers (s : Str) : Option (List Str × Str) :=
  let run := s.takeWhile fun c => isIdentifierChar c || c = '.'
  if [] ∈ split '.' run then none
  else some (split '.' run, s.dropWhile fun c => isIdentifierChar c || c = '.')

/-- `parse_semver`; `none` is the malformed version. -/
def parseSemver (version : Str) : Option Semver := do
  let s := strip version
  let s := (expect 'v' s).getD s
  let (major, s) ← semverNumber s
  let (minor, s) ← (expect '.' s).bind semverNumber
  let (patch, s) ← (expect '.' s).bind semverNumber
  let (prerelease, s) ← match expect '-' s with
    | none => some (none, s)
    | some r => (semverIdentifiers r).map fun m => (some m.1, m.2)
  let s ← match expect '+' s with
    | none => some s
    | some r => (semverIdentifiers r).map (·.2)
  if s = [] then some ⟨major, minor, patch, prerelease⟩ else none

/-- `_prerelease_identifier_key`.  An identifier is ASCII text. -/
def prereleaseIdentifierKey (ident : Str) : ℕ × ℕ × Str :=
  if ident ≠ [] ∧ ident.all isDigit then (0, int ident, []) else (1, 0, ident)

/-- The comparison of two keys, as tuples. -/
def compareKeys (a b : ℕ × ℕ × Str) : Ordering :=
  (cmp a.1 b.1).then ((cmp a.2.1 b.2.1).then (cmp a.2.2 b.2.2))

/-- The keys side by side, and then their numbers. -/
def compareIdentifiers : List (ℕ × ℕ × Str) → List (ℕ × ℕ × Str) → Ordering
  | a :: as, b :: bs => (compareKeys a b).then (compareIdentifiers as bs)
  | as, bs => cmp as.length bs.length

/-- `compare_semver`: `none` where a version is malformed. -/
def compareSemver (a b : Str) : Option Ordering := do
  let a ← parseSemver a
  let b ← parseSemver b
  let core := (cmp a.major b.major).then ((cmp a.minor b.minor).then (cmp a.patch b.patch))
  if core ≠ .eq then return core
  match a.prerelease, b.prerelease with
  | none, none => return .eq
  | none, some _ => return .gt
  | some _, none => return .lt
  | some p, some q =>
      return compareIdentifiers (p.map prereleaseIdentifierKey) (q.map prereleaseIdentifierKey)

/-! ## The version of the package -/

/-- `-([A-Za-z]+)\.([0-9]+)`. -/
def sourceTag : Pattern := [.char '-', .many Char.isAlpha, .char '.', .many isDigit]

/-- `source_version_to_deb_form`. -/
def sourceVersionToDebForm (version : Str) : Str :=
  let upstream := sub sourceTag (fun parts => '~' :: (parts.getD 1 [] ++ parts.getD 3 [])) 0
    (version.dropWhile (· = 'v'))
  upstream ++ "-1".toList

/-- `_DPKG_PRERELEASE_RE`. -/
def dpkgPrerelease : Pattern := [.char '~', .many Char.isAlpha, .many isDecimal]

/-- `_dpkg_version_to_source_form`. -/
def dpkgVersionToSourceForm (dpkgVersion : Str) : Str :=
  let upstream := if '-' ∈ dpkgVersion then (dpkgVersion.rdropWhile (· ≠ '-')).dropLast
    else dpkgVersion
  sub dpkgPrerelease
    (fun parts => '-' :: (parts.getD 1 [] ++ '.' :: parts.getD 2 [])) 0 upstream

/-- The comparisons of `dpkg --compare-versions` that the updater asks for. -/
inductive CompareOp where
  | eq
  | gt
deriving DecidableEq, Repr

/-- `dpkg --compare-versions a op b`. -/
def dpkgCompare (a : Str) (op : CompareOp) (b : Str) : Bool :=
  let order := compareVersions (parseVersion a) (parseVersion b)
  match op with
  | .eq => order = .eq
  | .gt => order = .gt

/-! ## Both sources of the installed version -/

/-- `_VERSION_RE`. -/
def versionRe (s : Str) : Bool :=
  match s with
  | [] => false
  | c :: s =>
      (isDigit c || c.isAlpha)
        && (s.all fun c => isDigit c || c.isAlpha || c ∈ ".+~_-".toList) && s.length ≤ 63

/-- `_read_version_file`, where the file has the text `raw`. -/
def readVersionFile (raw : Option Str) : Option Str := do
  let version := strip (← raw)
  if versionRe version then some version else none

/-- What `version_source_status` reports. -/
structure VersionSourceStatus where
  resolved : Str
  source : String
  fileVersion : Option Str
  dpkgVersion : Option Str
  dpkgVersionNormalized : Option Str
  mismatch : Bool

/-- `version_source_status` of the text of the VERSION file and of what dpkg has recorded. -/
def versionSourceStatus (raw dpkgVersion : Option Str) : VersionSourceStatus :=
  let fileVersion := readVersionFile raw
  let normalizedDpkg := dpkgVersion.map dpkgVersionToSourceForm
  let (resolved, source) := match fileVersion, normalizedDpkg with
    | some version, _ => (version, "version_file")
    | none, some (c :: version) => (c :: version, "dpkg")
    | none, _ => ("unknown".toList, "none")
  { resolved := resolved
    source := source
    fileVersion := fileVersion
    dpkgVersion := dpkgVersion
    dpkgVersionNormalized := normalizedDpkg
    mismatch := match fileVersion, normalizedDpkg with
      | some version, some normalized => normalized ≠ [] && version ≠ normalized
      | _, _ => false }

/-! ## The source form -/

/-- A number as it is written in a version: decimal digits without leading zeros. -/
def IsNumeral (s : Str) : Prop :=
  s ≠ [] ∧ (∀ c ∈ s, isDigit c = true) ∧ (s.head? = some '0' → s = ['0'])

/-- What a pre-release version ends in: letters and a number. -/
structure Tag where
  name : Str
  number : Str
  name_ne : name ≠ []
  name_letters : ∀ c ∈ name, c.isAlpha = true
  number_ne : number ≠ []
  number_digits : ∀ c ∈ number, isDigit c = true

/-- A version of the source form, `MAJOR.MINOR.PATCH` or `MAJOR.MINOR.PATCH-tag.N`. -/
structure SourceVersion where
  major : Str
  minor : Str
  patch : Str
  tag : Option Tag
  major_numeral : IsNumeral major
  minor_numeral : IsNumeral minor
  patch_numeral : IsNumeral patch

namespace SourceVersion

/-- The three numbers. -/
def core (v : SourceVersion) : Str := v.major ++ '.' :: (v.minor ++ '.' :: v.patch)

/-- The version as a release is tagged with it. -/
def text (v : SourceVersion) : Str :=
  v.core ++ match v.tag with
    | none => []
    | some tag => '-' :: (tag.name ++ '.' :: tag.number)

/-- The version as the package is called, without the Debian revision. -/
def upstream (v : SourceVersion) : Str :=
  v.core ++ match v.tag with
    | none => []
    | some tag => '~' :: (tag.name ++ tag.number)

/-- Tagged versions come before the untagged one. -/
def compareTags : Option Tag → Option Tag → Ordering
  | none, none => .eq
  | none, some _ => .gt
  | some _, none => .lt
  | some a, some b => (cmp a.name b.name).then (cmp (number a.number) (number b.number))

/-- The order of the three numbers. -/
def compareCore (a b : SourceVersion) : Ordering :=
  (cmp (number a.major) (number b.major)).then
    ((cmp (number a.minor) (number b.minor)).then (cmp (number a.patch) (number b.patch)))

/-- The order of two versions of the source form. -/
def compare (a b : SourceVersion) : Ordering :=
  (compareCore a b).then (compareTags a.tag b.tag)

end SourceVersion

/-! ## Characters -/

theorem ne_of_digit {c x : Char} (h : isDigit c = true) (hx : isDigit x = false) : c ≠ x := by
  rintro rfl
  rw [h] at hx
  cases hx

theorem ne_of_letter {c x : Char} (h : c.isAlpha = true) (hx : x.isAlpha = false) : c ≠ x := by
  rintro rfl
  rw [h] at hx
  cases hx

/-- The characters of a version of the source form. -/
def isVersionChar (c : Char) : Bool := isIdentifierChar c || c = '.'

theorem isVersionChar_digit {c : Char} (h : isDigit c = true) : isVersionChar c = true := by
  simp [isVersionChar, isIdentifierChar, h]

theorem isVersionChar_letter {c : Char} (h : c.isAlpha = true) : isVersionChar c = true := by
  simp [isVersionChar, isIdentifierChar, h]

theorem toNat_lt_of_isVersionChar {c : Char} (h : isVersionChar c = true) : c.toNat < 128 := by
  change (isDigit c || (decide (c.val ≥ 65 ∧ c.val ≤ 90) || (decide (c.val ≥ 97) &&
    decide (c.val ≤ 122))) || decide (c = '-') || decide (c = '.')) = true at h
  simp only [isDigit, Bool.or_eq_true, Bool.and_eq_true, decide_eq_true_eq, Char.le_def,
    UInt32.le_iff_toNat_le] at h
  have hnat : c.toNat = c.val.toNat := rfl
  rcases h with ((⟨-, h⟩ | ⟨-, h⟩ | ⟨-, h⟩) | rfl) | rfl
  · exact lt_of_le_of_lt h (by decide)
  · exact lt_of_le_of_lt h (by decide)
  · exact lt_of_le_of_lt h (by decide)
  · decide
  · decide

/-- What is known of an ASCII character can be read off a table. -/
theorem ascii_induction {P : Char → Prop} (h : ∀ n < 128, P (Char.ofNat n)) {c : Char}
    (hc : c.toNat < 128) : P c := by
  rw [← Char.ofNat_toNat c]
  exact h _ hc

theorem isDigit_eq (c : Char) : isDigit c = decide (48 ≤ c.toNat ∧ c.toNat < 58) := by
  rw [Bool.eq_iff_iff, isDigit, Bool.and_eq_true, decide_eq_true_eq, decide_eq_true_eq,
    decide_eq_true_eq]
  exact and_congr_right' (Nat.lt_succ_iff (n := 57)).symm

/-- Below 128 only the first zero counts. -/
theorem decimalDigit_ascii {c : Char} (hc : c.toNat < 128) :
    decimalDigit c = if isDigit c then some (c.toNat - '0'.toNat) else none := by
  have hlarge : ∀ z ∈ decimalZeros.tail, 128 ≤ z := by decide
  have hrest : (decimalZeros.tail.find? fun z => z ≤ c.toNat ∧ c.toNat < z + 10) = none := by
    rw [List.find?_eq_none]
    intro z hz
    have := hlarge z hz
    simp only [decide_eq_true_eq]
    omega
  rw [decimalDigit, show decimalZeros = 48 :: decimalZeros.tail from rfl, List.find?_cons, hrest,
    isDigit_eq]
  cases decide (48 ≤ c.toNat ∧ c.toNat < 58) <;> rfl

theorem isAlpha_of_isDigit {c : Char} (h : isDigit c = true) : c.isAlpha = false :=
  ascii_induction (P := fun c => isDigit c = true → c.isAlpha = false) (by decide +kernel)
    (toNat_lt_of_isVersionChar (isVersionChar_digit h)) h

theorem isDigit_of_isAlpha {c : Char} (h : c.isAlpha = true) : isDigit c = false := by
  by_contra hdigit
  rw [Bool.not_eq_false] at hdigit
  exact Bool.noConfusion ((isAlpha_of_isDigit hdigit).symm.trans h)

theorem isSpace_of_isVersionChar {c : Char} (h : isVersionChar c = true) : isSpace c = false :=
  ascii_induction (P := fun c => isVersionChar c = true → isSpace c = false) (by decide +kernel)
    (toNat_lt_of_isVersionChar h) h

theorem isDecimal_of_isVersionChar {c : Char} (h : isVersionChar c = true) :
    isDecimal c = isDigit c := by
  rw [isDecimal, decimalDigit_ascii (toNat_lt_of_isVersionChar h)]
  cases isDigit c <;> rfl

/-- Digits are read as the same number in both orders. -/
theorem int_eq_number {s : Str} (h : ∀ c ∈ s, isDigit c = true) : int s = number s := by
  refine List.foldl_ext _ _ 0 fun n c hc => ?_
  have hdigit := h c hc
  rw [decimalDigit_ascii (toNat_lt_of_isVersionChar (isVersionChar_digit hdigit)), if_pos hdigit]
  rfl

theorem strip_of_isVersionChar {s : Str} (h : ∀ c ∈ s, isVersionChar c = true) : strip s = s :=
  stripBy_eq_self fun c hc => isSpace_of_isVersionChar (h c hc)

/-! ## Reading a version of the source form -/

theorem semverNumber_append {s r : Str} (h : IsNumeral s) (hr : StartsOutside isDecimal r) :
    semverNumber (s ++ r) = some (number s, r) := by
  obtain ⟨hne, hdigits, hzero⟩ := h
  obtain ⟨c, s, rfl⟩ := List.exists_cons_of_ne_nil hne
  by_cases hc : c = '0'
  · subst hc
    have hs : s = [] := (List.cons.inj (hzero rfl)).2
    rw [hs, List.cons_append, semverNumber, if_pos rfl]
    rfl
  · have hdigit : isDigit c = true := hdigits c List.mem_cons_self
    have hdecimal : ∀ x ∈ s, isDecimal x = true := by
      intro x hx
      have hx := hdigits x (List.mem_cons_of_mem c hx)
      rw [isDecimal_of_isVersionChar (isVersionChar_digit hx), hx]
    obtain ⟨htake, hdrop⟩ := span_append hdecimal hr
    rw [List.cons_append, semverNumber, if_neg hc, if_pos hdigit, htake, hdrop,
      int_eq_number hdigits]

theorem startsOutside_cons {p : Char → Bool} {c : Char} (h : p c = false) (s : Str) :
    StartsOutside p (c :: s) := by
  intro x hx
  rw [← Option.some.inj hx]
  exact h

theorem startsOutside_nil (p : Char → Bool) : StartsOutside p [] := fun _ hx => nomatch hx

namespace Tag

theorem name_dot (tag : Tag) : '.' ∉ tag.name := fun h =>
  ne_of_letter (tag.name_letters _ h) (by decide) rfl

theorem number_dot (tag : Tag) : '.' ∉ tag.number := fun h =>
  ne_of_digit (tag.number_digits _ h) (by decide) rfl

/-- Both identifiers of a tag. -/
theorem split_dot (tag : Tag) : split '.' (tag.name ++ '.' :: tag.number)
    = [tag.name, tag.number] := by
  rw [split_append_sep, split_of_not_mem tag.name_dot, split_of_not_mem tag.number_dot]
  rfl

theorem isVersionChar_of_mem (tag : Tag) {c : Char}
    (h : c ∈ tag.name ++ '.' :: tag.number) : isVersionChar c = true := by
  rcases List.mem_append.mp h with h | h
  · exact isVersionChar_letter (tag.name_letters c h)
  · rcases List.mem_cons.mp h with rfl | h
    · rfl
    · exact isVersionChar_digit (tag.number_digits c h)

theorem semverIdentifiers_eq (tag : Tag) : semverIdentifiers (tag.name ++ '.' :: tag.number)
    = some ([tag.name, tag.number], []) := by
  obtain ⟨htake, hdrop⟩ := span_append (fun c hc => tag.isVersionChar_of_mem hc)
    (startsOutside_nil isVersionChar)
  rw [List.append_nil] at htake hdrop
  have hparts : ([] : Str) ∉ [tag.name, tag.number] := by
    simp [tag.name_ne.symm, tag.number_ne.symm]
  simp only [isVersionChar] at htake hdrop
  simp only [semverIdentifiers, htake, hdrop, tag.split_dot, if_neg hparts]

end Tag

namespace SourceVersion

theorem text_eq (v : SourceVersion) : v.text = v.major ++ '.' :: (v.minor ++ '.' :: (v.patch ++
    match v.tag with
    | none => []
    | some tag => '-' :: (tag.name ++ '.' :: tag.number))) := by
  simp [text, core]

theorem isVersionChar_of_mem_core {v : SourceVersion} {c : Char} (h : c ∈ v.core) :
    isDigit c = true ∨ c = '.' := by
  simp only [core, List.mem_append, List.mem_cons] at h
  rcases h with h | h | h | h | h
  · exact Or.inl (v.major_numeral.2.1 c h)
  · exact Or.inr h
  · exact Or.inl (v.minor_numeral.2.1 c h)
  · exact Or.inr h
  · exact Or.inl (v.patch_numeral.2.1 c h)

theorem isVersionChar_of_mem_text {v : SourceVersion} {c : Char} (h : c ∈ v.text) :
    isVersionChar c = true := by
  rcases List.mem_append.mp h with h | h
  · rcases isVersionChar_of_mem_core h with h | rfl
    · exact isVersionChar_digit h
    · rfl
  · cases htag : v.tag with
    | none => simp [htag] at h
    | some tag =>
        rw [htag] at h
        rcases List.mem_cons.mp h with rfl | h
        · rfl
        · exact tag.isVersionChar_of_mem h

/-- A version starts with a digit. -/
theorem text_head (v : SourceVersion) : ∃ c s, v.text = c :: s ∧ isDigit c = true := by
  obtain ⟨c, s, hs⟩ := List.exists_cons_of_ne_nil v.major_numeral.1
  refine ⟨c, _, by rw [text_eq, hs, List.cons_append], ?_⟩
  exact v.major_numeral.2.1 c (by simp [hs])

/-- **What `parse_semver` reads.** -/
theorem parseSemver_text (v : SourceVersion) : parseSemver v.text
    = some ⟨number v.major, number v.minor, number v.patch,
        v.tag.map fun tag => [tag.name, tag.number]⟩ := by
  have hstrip : strip v.text = v.text := strip_of_isVersionChar fun c => isVersionChar_of_mem_text
  have hv : (expect 'v' v.text).getD v.text = v.text := by
    obtain ⟨c, s, hs, hc⟩ := v.text_head
    rw [hs, expect, if_neg (ne_of_digit hc (by decide))]
    rfl
  have hdot : ∀ s, StartsOutside isDecimal ('.' :: s) := startsOutside_cons (by rfl)
  unfold parseSemver
  rw [hstrip]
  simp only [hv]
  rw [text_eq, semverNumber_append v.major_numeral (hdot _)]
  simp only [Option.bind_eq_bind, Option.bind_some, expect, if_true]
  rw [semverNumber_append v.minor_numeral (hdot _)]
  simp only [Option.bind_some, if_true]
  cases v.tag with
  | none =>
      rw [semverNumber_append v.patch_numeral (startsOutside_nil _)]
      rfl
  | some tag =>
      rw [semverNumber_append v.patch_numeral (startsOutside_cons (by rfl) _)]
      simp [tag.semverIdentifiers_eq]

end SourceVersion

/-! ## The order of SemVer -/

namespace Tag

theorem key_name (tag : Tag) : prereleaseIdentifierKey tag.name = (1, 0, tag.name) := by
  have hword : ¬ (tag.name ≠ [] ∧ tag.name.all isDigit = true) := by
    rintro ⟨-, hall⟩
    obtain ⟨c, s, hs⟩ := List.exists_cons_of_ne_nil tag.name_ne
    have hc : c ∈ tag.name := by simp [hs]
    exact ne_of_letter (tag.name_letters c hc) (x := c)
      (isAlpha_of_isDigit (List.all_eq_true.mp hall c hc)) rfl
  rw [prereleaseIdentifierKey, if_neg hword]

theorem key_number (tag : Tag) :
    prereleaseIdentifierKey tag.number = (0, Debian.number tag.number, []) := by
  rw [prereleaseIdentifierKey,
    if_pos ⟨tag.number_ne, List.all_eq_true.mpr tag.number_digits⟩, int_eq_number tag.number_digits]

theorem compareIdentifiers_eq (a b : Tag) :
    compareIdentifiers ([a.name, a.number].map prereleaseIdentifierKey)
        ([b.name, b.number].map prereleaseIdentifierKey)
      = (cmp a.name b.name).then (cmp (Debian.number a.number) (Debian.number b.number)) := by
  have hnames : compareKeys (1, 0, a.name) (1, 0, b.name) = cmp a.name b.name := rfl
  have hnumbers : compareKeys (0, Debian.number a.number, []) (0, Debian.number b.number, [])
      = cmp (Debian.number a.number) (Debian.number b.number) := Ordering.then_eq
  show (compareKeys (prereleaseIdentifierKey a.name) (prereleaseIdentifierKey b.name)).then
    ((compareKeys (prereleaseIdentifierKey a.number) (prereleaseIdentifierKey b.number)).then .eq)
      = _
  rw [a.key_name, b.key_name, a.key_number, b.key_number, hnames, hnumbers, Ordering.then_eq]

end Tag

/-- **`compare_semver` ranks versions of the source form.** -/
theorem compareSemver_text (a b : SourceVersion) :
    compareSemver a.text b.text = some (a.compare b) := by
  rw [compareSemver, a.parseSemver_text, b.parseSemver_text]
  change (if a.compareCore b ≠ .eq then pure (a.compareCore b) else _) = _
  rw [SourceVersion.compare]
  cases a.compareCore b with
  | lt => rfl
  | gt => rfl
  | eq =>
      cases a.tag with
      | none => cases b.tag <;> rfl
      | some p =>
          cases b.tag with
          | none => rfl
          | some q => exact congrArg some (Tag.compareIdentifiers_eq p q)

/-! ## The order of dpkg -/

namespace SourceVersion

/-- What follows the three numbers in the name of a package. -/
def upstreamTail : Option Tag → Str
  | none => []
  | some tag => '~' :: (tag.name ++ tag.number)

theorem upstream_eq (v : SourceVersion) :
    v.upstream = v.major ++ '.' :: (v.minor ++ '.' :: (v.patch ++ upstreamTail v.tag)) := by
  rw [upstream, core]
  cases v.tag <;> simp [upstreamTail]

theorem upstreamTail_startsOutside (tag : Option Tag) :
    StartsOutside isDigit (upstreamTail tag) := by
  cases tag with
  | none => exact startsOutside_nil _
  | some tag => exact startsOutside_cons (by rfl) _

/-- A number with what stands before it: nothing or a dot. -/
theorem firstRuns_numeral {x s r : Str} (hx : ∀ c ∈ x, isDigit c = false) (h : IsNumeral s)
    (hr : StartsOutside isDigit r) : firstRuns (x ++ (s ++ r)) = (x, s, r) :=
  firstRuns_append hx h.2.1 (fun hnil => absurd hnil h.1) hr

theorem firstRuns_upstreamTail (tag : Option Tag) : firstRuns (upstreamTail tag) = match tag with
    | none => ([], [], [])
    | some tag => ('~' :: tag.name, tag.number, []) := by
  cases tag with
  | none => rfl
  | some tag =>
      have hword : ∀ c ∈ '~' :: tag.name, isDigit c = false := by
        exact List.forall_mem_cons.mpr ⟨by decide, fun c hc =>
          isDigit_of_isAlpha (tag.name_letters c hc)⟩
      have hruns := firstRuns_append hword tag.number_digits (fun hnil => absurd hnil tag.number_ne)
        (startsOutside_nil _)
      rwa [List.append_nil] at hruns

/-- What the tags add to a version. -/
theorem compareParts_upstreamTail (a b : Option Tag) :
    compareParts (upstreamTail a) (upstreamTail b) = compareTags a b := by
  rw [compareParts_runs (firstRuns_upstreamTail a) (firstRuns_upstreamTail b)]
  cases a with
  | none =>
      cases b with
      | none =>
          rw [compareLexical_self, compareParts_self]
          rfl
      | some b => rfl
  | some a =>
      cases b with
      | none => rfl
      | some b =>
          rw [compareLexical_cons_self, compareLexical_letters a.name_letters b.name_letters,
            compareParts_self, Ordering.then_eq]
          rfl

/-- The numbers are compared one after another, and then the tags. -/
theorem compareParts_upstream (a b : SourceVersion) :
    compareParts a.upstream b.upstream = a.compare b := by
  have hdot : ∀ s : Str, StartsOutside isDigit ('.' :: s) := startsOutside_cons (by rfl)
  have hpoint : ∀ c ∈ ['.'], isDigit c = false := List.forall_mem_singleton.mpr rfl
  have hmajor : ∀ v : SourceVersion, firstRuns v.upstream
      = ([], v.major, '.' :: (v.minor ++ '.' :: (v.patch ++ upstreamTail v.tag))) := fun v => by
    rw [upstream_eq]
    exact firstRuns_numeral (x := []) (by simp) v.major_numeral (hdot _)
  have hminor : ∀ v : SourceVersion,
      firstRuns ('.' :: (v.minor ++ '.' :: (v.patch ++ upstreamTail v.tag)))
        = (['.'], v.minor, '.' :: (v.patch ++ upstreamTail v.tag)) := fun v =>
    firstRuns_numeral hpoint v.minor_numeral (hdot _)
  have hpatch : ∀ v : SourceVersion, firstRuns ('.' :: (v.patch ++ upstreamTail v.tag))
      = (['.'], v.patch, upstreamTail v.tag) := fun v =>
    firstRuns_numeral hpoint v.patch_numeral (upstreamTail_startsOutside _)
  rw [compareParts_runs (hmajor a) (hmajor b), compareParts_runs (hminor a) (hminor b),
    compareParts_runs (hpatch a) (hpatch b), compareParts_upstreamTail, compareLexical_self,
    compareLexical_self]
  rw [compare, compareCore, Ordering.then_assoc, Ordering.then_assoc]
  rfl

end SourceVersion

/-! ## The name of the package -/

theorem Tag.groups_source (tag : Tag) :
    groups sourceTag ('-' :: (tag.name ++ '.' :: tag.number))
      = some [['-'], tag.name, ['.'], tag.number] := by
  have hnumber := groups_many [] tag.number_ne tag.number_digits (startsOutside_nil _)
  rw [List.append_nil] at hnumber
  rw [sourceTag, groups_char, groups_many _ tag.name_ne tag.name_letters
    (startsOutside_cons (by rfl) _), groups_char, hnumber]
  rfl

theorem Tag.groups_dpkg (tag : Tag) :
    groups dpkgPrerelease ('~' :: (tag.name ++ tag.number))
      = some [['~'], tag.name, tag.number] := by
  have hdecimal : ∀ c ∈ tag.number, isDecimal c = true := fun c hc => by
    have hdigit := tag.number_digits c hc
    rw [isDecimal_of_isVersionChar (isVersionChar_digit hdigit), hdigit]
  have hnumber := groups_many [] tag.number_ne hdecimal (startsOutside_nil _)
  rw [List.append_nil] at hnumber
  have hname : StartsOutside Char.isAlpha tag.number := by
    intro c hc
    exact isAlpha_of_isDigit (tag.number_digits c (List.mem_of_mem_head? hc))
  rw [dpkgPrerelease, groups_char, groups_many _ tag.name_ne tag.name_letters hname, hnumber]
  rfl

namespace SourceVersion

theorem ne_of_mem_core {v : SourceVersion} {c x : Char} (h : c ∈ v.core) (hx : isDigit x = false)
    (hdot : x ≠ '.') : c ≠ x := by
  rcases isVersionChar_of_mem_core h with h | rfl
  · exact ne_of_digit h hx
  · exact hdot.symm

/-- No pattern that starts with another character matches in the three numbers. -/
theorem sub_core (v : SourceVersion) {x : Char} (hx : isDigit x = false) (hdot : x ≠ '.')
    (items : Pattern) (repl : List Str → Str) (s : Str) :
    sub (.char x :: items) repl 0 (v.core ++ s) = v.core ++ sub (.char x :: items) repl 0 s :=
  sub_append (fun _ hc s => groups_char_of_ne (ne_of_mem_core hc hx hdot) items s) s

/-- **What a package of the version is called.** -/
theorem sourceVersionToDebForm_text (v : SourceVersion) :
    sourceVersionToDebForm v.text = v.upstream ++ "-1".toList := by
  have hv : v.text.dropWhile (· = 'v') = v.text := by
    obtain ⟨c, s, hs, hc⟩ := v.text_head
    have hne : c ≠ 'v' := ne_of_digit hc (by decide)
    simp [hs, hne]
  rw [sourceVersionToDebForm, hv, text, sourceTag, v.sub_core (by decide) (by decide), upstream]
  cases v.tag with
  | none => rfl
  | some tag =>
      have hmatch := tag.groups_source
      rw [sourceTag] at hmatch
      simp only [sub_match hmatch (by simp)]
      simp [sub]

theorem of_mem_upstream {v : SourceVersion} {c : Char} (h : c ∈ v.upstream) :
    isDigit c = true ∨ c = '.' ∨ c = '~' ∨ c.isAlpha = true := by
  rcases List.mem_append.mp h with h | h
  · rcases isVersionChar_of_mem_core h with h | h
    · exact Or.inl h
    · exact Or.inr (Or.inl h)
  · cases htag : v.tag with
    | none => simp [htag] at h
    | some tag =>
        simp only [htag, List.mem_cons, List.mem_append] at h
        rcases h with h | h | h
        · exact Or.inr (Or.inr (Or.inl h))
        · exact Or.inr (Or.inr (Or.inr (tag.name_letters c h)))
        · exact Or.inl (tag.number_digits c h)

/-- Neither what ends an epoch nor what starts a revision is in the name. -/
theorem notMem_upstream (v : SourceVersion) : ':' ∉ v.upstream ∧ '-' ∉ v.upstream := by
  constructor
  · intro h
    have hclass := of_mem_upstream h
    exact absurd hclass (by decide)
  · intro h
    have hclass := of_mem_upstream h
    exact absurd hclass (by decide)

theorem rdropWhile_debForm (s : Str) :
    (s ++ "-1".toList).rdropWhile (· ≠ '-') = s ++ ['-'] := by
  have happend : s ++ "-1".toList = (s ++ ['-']) ++ ['1'] := by simp
  rw [happend, List.rdropWhile_concat_pos _ _ _ (by decide),
    List.rdropWhile_concat_neg _ _ _ (by decide)]

theorem rtakeWhile_debForm (s : Str) :
    (s ++ "-1".toList).rtakeWhile (· ≠ '-') = ['1'] := by
  have happend : s ++ "-1".toList = (s ++ ['-']) ++ ['1'] := by simp
  rw [happend, List.rtakeWhile_concat_pos _ _ _ (by decide),
    List.rtakeWhile_concat_neg _ _ _ (by decide)]
  rfl

/-- What dpkg reads: the name without an epoch, and the revision. -/
theorem parseVersion_debForm (v : SourceVersion) :
    parseVersion (v.upstream ++ "-1".toList) = ⟨0, v.upstream, ['1']⟩ := by
  have hcolon : ':' ∉ v.upstream ++ "-1".toList := by
    simp [v.notMem_upstream.1]
  have hhyphen : '-' ∈ v.upstream ++ "-1".toList := by simp
  simp only [parseVersion, if_neg hcolon, if_pos hhyphen, rdropWhile_debForm, rtakeWhile_debForm,
    List.dropLast_concat]

/-- **dpkg orders the packages of versions of the source form.** -/
theorem compareVersions_debForm (a b : SourceVersion) :
    compareVersions (parseVersion (sourceVersionToDebForm a.text))
      (parseVersion (sourceVersionToDebForm b.text)) = a.compare b := by
  rw [a.sourceVersionToDebForm_text, b.sourceVersionToDebForm_text, a.parseVersion_debForm,
    b.parseVersion_debForm]
  show Ordering.then .eq _ = _
  rw [compareParts_upstream, compareParts_self, Ordering.then_eq, Ordering.eq_then]

/-- **The way back to the source form.** -/
theorem dpkgVersionToSourceForm_debForm (v : SourceVersion) :
    dpkgVersionToSourceForm (sourceVersionToDebForm v.text) = v.text := by
  have hhyphen : '-' ∈ v.upstream ++ "-1".toList := by simp
  simp only [v.sourceVersionToDebForm_text, dpkgVersionToSourceForm, if_pos hhyphen,
    rdropWhile_debForm, List.dropLast_concat]
  rw [upstream, dpkgPrerelease, v.sub_core (by decide) (by decide), text]
  cases v.tag with
  | none => rfl
  | some tag =>
      have hmatch := tag.groups_dpkg
      rw [dpkgPrerelease] at hmatch
      simp only [sub_match hmatch (by simp)]
      simp [sub]

/-- Installed from the package of its own version, the appliance reports no drift. -/
theorem versionSourceStatus_debForm (v : SourceVersion) {raw : Str} (h : strip raw = v.text) :
    (versionSourceStatus (some raw) (some (sourceVersionToDebForm v.text))).mismatch = false := by
  simp only [versionSourceStatus, Option.map_some, v.dpkgVersionToSourceForm_debForm,
    readVersionFile, h, Option.bind_eq_bind, Option.bind_some]
  split_ifs <;> simp

end SourceVersion

end AlderpointDNS.SoftwareUpdates
