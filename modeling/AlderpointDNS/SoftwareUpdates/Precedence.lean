import AlderpointDNS.Lib.Lexicographic
import AlderpointDNS.SoftwareUpdates.Candidate
import Mathlib.Data.Sum.Order
import Mathlib.Order.WithBot

/-!
# Which release is offered

The updater compares versions in two places: `compare_semver` walks through two versions and stops
at the first difference, and `_semver_sort_key` makes a tuple of each version by which the releases
of a listing are sorted.  Both are the order that SemVer prescribes: `Semver.precedence` maps the
versions into a linear order, and what the two functions find is how the images compare.

* **`compareSemver_compares`** — `compare_semver` finds the order of SemVer.
* **`compareParsed_sortKey`** — and sorting by the keys does too.
* `selectCandidateRelease_selected` — the release that is selected.
-/

namespace AlderpointDNS.SoftwareUpdates

open Text Debian Lexicographic

/-! ## The precedence of SemVer -/

/-- An identifier of a pre-release.  Identifiers of digits are numbers, and come before all others,
which are compared as texts. -/
def identifier (ident : Str) : ℕ ⊕ₗ Str :=
  if ident ≠ [] ∧ ident.all isDigit then toLex (.inl (int ident)) else toLex (.inr ident)

/-- A version without a pre-release comes after all its pre-releases; of two pre-releases the
identifiers are compared from left to right, and more identifiers come after fewer. -/
def prereleasePrecedence (prerelease : Option (List Str)) : WithTop (List (ℕ ⊕ₗ Str)) :=
  match prerelease with
  | none => ⊤
  | some idents => (idents.map identifier : List (ℕ ⊕ₗ Str))

/-- Major, minor and patch version, and then the pre-release.  Build metadata does not count. -/
def Semver.precedence (v : Semver) : ℕ ×ₗ ℕ ×ₗ ℕ ×ₗ WithTop (List (ℕ ⊕ₗ Str)) :=
  toLex (v.major, toLex (v.minor, toLex (v.patch, prereleasePrecedence v.prerelease)))

/-! ## Sorting releases -/

/-- A tuple that is compared with others component by component. -/
def identifierTuple (ident : Str) : ℕ ×ₗ ℕ ×ₗ Str :=
  let key := prereleaseIdentifierKey ident
  toLex (key.1, toLex (key.2.1, key.2.2))

/-- What `_semver_sort_key` makes of a version that it has parsed. -/
def Semver.sortKey (v : Semver) : ℕ ×ₗ ℕ ×ₗ ℕ ×ₗ ℕ ×ₗ List (ℕ ×ₗ ℕ ×ₗ Str) :=
  let last : ℕ ×ₗ List (ℕ ×ₗ ℕ ×ₗ Str) := match v.prerelease with
    | none => toLex (1, [])
    | some idents => toLex (0, idents.map identifierTuple)
  toLex (v.major, toLex (v.minor, toLex (v.patch, last)))

/-- `_semver_sort_key`; `none` is the malformed version. -/
def semverSortKey (version : Str) : Option (ℕ ×ₗ ℕ ×ₗ ℕ ×ₗ ℕ ×ₗ List (ℕ ×ₗ ℕ ×ₗ Str)) :=
  (parseSemver version).map Semver.sortKey

/-- A release of a listing. -/
structure ListedRelease extends Release where
  prerelease : Bool
deriving DecidableEq, Repr

/-- The releases that the channel allows, each with its version. -/
def candidateReleases (releases : List ListedRelease) (channel : Str) :
    List (Str × ListedRelease) :=
  releases.filterMap fun release =>
    if release.draft then none
    else if channel = "stable".toList ∧ release.prerelease then none
    else (releaseSemver release.toRelease).map fun version => (version, release)

/-- `select_candidate_release`; the outer `none` is an error. -/
def selectCandidateRelease (releases : List ListedRelease) (channel installed : Str) :
    Option (Option ListedRelease) := do
  let candidates ← (candidateReleases releases channel).mapM fun c =>
    (semverSortKey c.1).map fun key => (key, c)
  match (sortBy Prod.fst candidates).getLast? with
  | none => return none
  | some (_, bestVersion, bestRelease) =>
      -- an installed version that is malformed is never exceeded
      if compareSemver bestVersion installed = some .gt then return some bestRelease
      else return none

/-- The releases an update may be offered from. -/
def Eligible (channel : Str) (release : ListedRelease) : Prop :=
  release.draft = false ∧ ¬ (channel = "stable".toList ∧ release.prerelease = true)
    ∧ (releaseSemver release.toRelease).isSome

example : selectCandidateRelease
    (["v1.0.0-rc.2", "1.0.0-rc.10", "v0.9.9", "nightly"].map fun tag =>
      ⟨⟨some tag.toList, false, []⟩, tag.toList.contains '-'⟩) "beta".toList "0.9.0".toList
      = some (some ⟨⟨some "1.0.0-rc.10".toList, false, []⟩, true⟩) := by
  decide +kernel

/-! ## Comparing two versions -/

/-- `compare_semver` of two pre-releases, where neither has to be there. -/
def comparePrereleases : Option (List Str) → Option (List Str) → Ordering
  | none, none => .eq
  | none, some _ => .gt
  | some _, none => .lt
  | some p, some q =>
      compareIdentifiers (p.map prereleaseIdentifierKey) (q.map prereleaseIdentifierKey)

/-- `compare_semver` of two versions that have been parsed. -/
def compareParsed (v w : Semver) : Ordering :=
  (cmp v.major w.major).then ((cmp v.minor w.minor).then
    ((cmp v.patch w.patch).then (comparePrereleases v.prerelease w.prerelease)))

theorem compareSemver_eq {a b : Str} {v w : Semver} (ha : parseSemver a = some v)
    (hb : parseSemver b = some w) : compareSemver a b = some (compareParsed v w) := by
  have hassoc : compareParsed v w = ((cmp v.major w.major).then
      ((cmp v.minor w.minor).then (cmp v.patch w.patch))).then
        (comparePrereleases v.prerelease w.prerelease) := by
    rw [compareParsed, Ordering.then_assoc, Ordering.then_assoc]
  rw [hassoc, compareSemver, ha, hb]
  dsimp only [Option.bind_eq_bind, Option.bind_some]
  cases (cmp v.major w.major).then ((cmp v.minor w.minor).then (cmp v.patch w.patch)) with
  | lt => rfl
  | gt => rfl
  | eq => cases v.prerelease <;> cases w.prerelease <;> rfl

/-- Two versions are compared only if both are versions. -/
theorem compareSemver_isSome {a b : Str} {o : Ordering} (h : compareSemver a b = some o) :
    ∃ v w, parseSemver a = some v ∧ parseSemver b = some w := by
  rw [compareSemver] at h
  obtain ⟨v, hv, h⟩ := Option.bind_eq_some_iff.mp h
  obtain ⟨w, hw, -⟩ := Option.bind_eq_some_iff.mp h
  exact ⟨v, w, hv, hw⟩

/-! ## Identifiers -/

/-- The keys of identifiers compare as SemVer compares the identifiers. -/
theorem compareKeys_identifier (x y : Str) :
    (compareKeys (prereleaseIdentifierKey x) (prereleaseIdentifierKey y)).Compares
      (identifier x) (identifier y) := by
  unfold prereleaseIdentifierKey identifier
  by_cases hx : x ≠ [] ∧ x.all isDigit <;> by_cases hy : y ≠ [] ∧ y.all isDigit
  · have hnil : cmp ([] : Str) [] = .eq := (compares_list [] []).eq_eq.mpr rfl
    rw [if_pos hx, if_pos hy, if_pos hx, if_pos hy]
    rw [compareKeys, cmp_self_eq_eq, hnil, Ordering.eq_then, Ordering.then_eq]
    exact Sum.Lex.inl_strictMono.compares.mpr (cmp_compares _ _)
  · rw [if_pos hx, if_neg hy, if_pos hx, if_neg hy]
    exact Sum.Lex.inl_lt_inr _ _
  · rw [if_neg hx, if_pos hy, if_neg hx, if_pos hy]
    exact Sum.Lex.inl_lt_inr _ _
  · rw [if_neg hx, if_neg hy, if_neg hx, if_neg hy]
    rw [compareKeys, cmp_self_eq_eq, cmp_self_eq_eq, Ordering.eq_then, Ordering.eq_then]
    exact Sum.Lex.inr_strictMono.compares.mpr (compares_list x y)

/-- And as the tuples compare. -/
theorem compareKeys_tuple (x y : Str) :
    (compareKeys (prereleaseIdentifierKey x) (prereleaseIdentifierKey y)).Compares
      (identifierTuple x) (identifierTuple y) :=
  compares_toLex (cmp_compares _ _) (compares_toLex (cmp_compares _ _) (compares_list _ _))

section Lists

variable {α : Type} [LinearOrder α] {f : Str → α}
  (hf : ∀ x y, (compareKeys (prereleaseIdentifierKey x) (prereleaseIdentifierKey y)).Compares
    (f x) (f y))

include hf

/-- Walking through both lists of identifiers compares the lists. -/
theorem compareIdentifiers_compares (p q : List Str) :
    (compareIdentifiers (p.map prereleaseIdentifierKey)
      (q.map prereleaseIdentifierKey)).Compares (p.map f) (q.map f) := by
  induction p generalizing q with
  | nil =>
      cases q with
      | nil => exact rfl
      | cons y q => exact compares_nil_cons (f y) (q.map f)
  | cons x p ih =>
      cases q with
      | nil => exact compares_cons_nil (f x) (p.map f)
      | cons y q => exact compares_cons (hf x y) (ih q)

end Lists

/-! ## Versions -/

theorem comparePrereleases_precedence (p q : Option (List Str)) :
    (comparePrereleases p q).Compares (prereleasePrecedence p) (prereleasePrecedence q) := by
  cases p with
  | none =>
      cases q with
      | none => exact rfl
      | some q => exact WithTop.coe_lt_top _
  | some p =>
      cases q with
      | none => exact WithTop.coe_lt_top _
      | some q =>
          exact WithTop.coe_strictMono.compares.mpr
            (compareIdentifiers_compares compareKeys_identifier p q)

/-- **`compare_semver` computes the precedence of SemVer.** -/
theorem compareParsed_precedence (v w : Semver) :
    (compareParsed v w).Compares v.precedence w.precedence :=
  compares_toLex (cmp_compares _ _) <| compares_toLex (cmp_compares _ _) <|
    compares_toLex (cmp_compares _ _) (comparePrereleases_precedence _ _)

/-- **The sort keys are in the same order.** -/
theorem compareParsed_sortKey (v w : Semver) :
    (compareParsed v w).Compares v.sortKey w.sortKey := by
  refine compares_toLex (cmp_compares _ _) <| compares_toLex (cmp_compares _ _) <|
    compares_toLex (cmp_compares _ _) ?_
  cases hv : v.prerelease with
  | none =>
      cases hw : w.prerelease with
      | none => exact rfl
      | some q => exact Prod.Lex.toLex_lt_toLex.mpr (Or.inl Nat.zero_lt_one)
  | some p =>
      cases hw : w.prerelease with
      | none => exact Prod.Lex.toLex_lt_toLex.mpr (Or.inl Nat.zero_lt_one)
      | some q =>
          have hlists := compareIdentifiers_compares compareKeys_tuple p q
          exact compares_toLex (o := .eq) rfl hlists

/-- `compare_semver` says how the precedences compare, and how the sort keys compare. -/
theorem compareSemver_compares {a b : Str} {v w : Semver} (ha : parseSemver a = some v)
    (hb : parseSemver b = some w) : ∃ o, compareSemver a b = some o
      ∧ o.Compares v.precedence w.precedence ∧ o.Compares v.sortKey w.sortKey :=
  ⟨compareParsed v w, compareSemver_eq ha hb, compareParsed_precedence v w,
    compareParsed_sortKey v w⟩

theorem compareSemver_self {a : Str} {v : Semver} (ha : parseSemver a = some v) :
    compareSemver a a = some .eq := by
  rw [compareSemver_eq ha ha, (compareParsed_precedence v v).eq_eq.mpr rfl]

theorem compareSemver_swap {a b : Str} {o : Ordering} (h : compareSemver a b = some o) :
    compareSemver b a = some o.swap := by
  obtain ⟨v, w, ha, hb⟩ := compareSemver_isSome h
  rw [compareSemver_eq ha hb, Option.some.injEq] at h
  subst h
  rw [compareSemver_eq hb ha]
  have hswap := (compareParsed_precedence v w).swap
  rw [(compareParsed_precedence w v).inj hswap]

/-- Not newer than a version that is not newer than a third. -/
theorem compareSemver_trans {a b c : Str} {o o' : Ordering} (hab : compareSemver a b = some o)
    (hbc : compareSemver b c = some o') (ho : o ≠ .gt) (ho' : o' ≠ .gt) :
    ∃ o'', compareSemver a c = some o'' ∧ o'' ≠ .gt := by
  obtain ⟨u, v, ha, hb⟩ := compareSemver_isSome hab
  obtain ⟨-, w, -, hc⟩ := compareSemver_isSome hbc
  rw [compareSemver_eq ha hb, Option.some.injEq] at hab
  rw [compareSemver_eq hb hc, Option.some.injEq] at hbc
  subst hab hbc
  refine ⟨compareParsed u w, compareSemver_eq ha hc, ?_⟩
  rw [(compareParsed_precedence _ _).ne_gt] at ho ho' ⊢
  exact ho.trans ho'

/-! ## The version of a release -/

/-- `parse_semver` behind the white space and the `v`. -/
def parseUnprefixed (s : Str) : Option Semver := do
  let (major, s) ← semverNumber s
  let (minor, s) ← (expect '.' s).bind semverNumber
  let (patch, s) ← (expect '.' s).bind semverNumber
  let (prerelease, s) ← match expect '-' s with
    | none => some (none, s)
    | some r => (semverIdentifiers r).map fun m => (some m.1, m.2)
  let s ← match expect '+' s with
    | none => some s
    | some r => (semverIdentifiers r).map (·.2)
  if s = [] then some ⟨major, minor, patch, prerelease⟩ else none

theorem parseSemver_unprefixed (version : Str) : parseSemver version
    = parseUnprefixed ((expect 'v' (strip version)).getD (strip version)) := rfl

/-- What is accepted there starts with a digit. -/
theorem digit_of_parseUnprefixed {s : Str} {v : Semver} (h : parseUnprefixed s = some v) :
    ∃ c t, s = c :: t ∧ isDigit c = true := by
  simp only [parseUnprefixed, Option.bind_eq_bind, Option.bind_eq_some_iff] at h
  obtain ⟨m, hm, -⟩ := h
  cases s with
  | nil => cases hm
  | cons c t =>
      refine ⟨c, t, rfl, ?_⟩
      by_cases hzero : c = '0'
      · rw [hzero]; decide
      · by_contra hdigit
        rw [semverNumber, if_neg hzero, if_neg hdigit] at hm
        cases hm

theorem expect_of_ne {c x : Char} (h : x ≠ c) (s : Str) : expect c (x :: s) = none := if_neg h

/-- A text that has been stripped does not end in white space. -/
theorem isSpace_last {s : Str} {c : Char} (h : c ∈ (strip s).getLast?) : isSpace c = false := by
  obtain ⟨hne, rfl⟩ := List.mem_getLast?_eq_getLast h
  exact Bool.eq_false_iff.mpr (List.rdropWhile_last_not isSpace (s.dropWhile isSpace) hne)

/-- The `v` is taken from the tag without changing the version. -/
theorem parseSemver_dropWhile {tag : Str} {v : Semver} (h : parseSemver (strip tag) = some v) :
    parseSemver ((strip tag).dropWhile (· = 'v')) = some v := by
  have hstrip : strip (strip tag) = strip tag := stripBy_stripBy isSpace tag
  rw [parseSemver_unprefixed, hstrip] at h
  cases hs : strip tag with
  | nil => rw [hs] at h; exact nomatch h
  | cons x s =>
      rw [hs] at h hstrip
      by_cases hx : x = 'v'
      · subst hx
        have hs' : parseUnprefixed s = some v := h
        obtain ⟨c, t, rfl, hc⟩ := digit_of_parseUnprefixed hs'
        have hv : c ≠ 'v' := ne_of_digit hc (by decide)
        have hends : strip (c :: t) = c :: t := by
          refine stripBy_eq_self_of_ends (fun d hd => ?_) (fun d hd => ?_)
          · rw [← Option.some.inj hd]
            exact isSpace_of_isVersionChar (isVersionChar_digit hc)
          · have hlast : d ∈ (strip ('v' :: c :: t)).getLast? := by
              rw [hstrip, List.getLast?_cons_cons]
              exact hd
            exact isSpace_last hlast
        rw [List.dropWhile_cons_of_pos (by simp), List.dropWhile_cons_of_neg (by simp [hv]),
          parseSemver_unprefixed, hends, expect_of_ne hv]
        exact hs'
      · rw [List.dropWhile_cons_of_neg (by simp [hx]), parseSemver_unprefixed, hstrip]
        exact h

/-! ## Selecting a release -/

theorem parseSemver_releaseSemver {release : Release} {version : Str}
    (h : releaseSemver release = some version) : ∃ v, parseSemver version = some v := by
  simp only [releaseSemver, Option.map_eq_some_iff] at h
  obtain ⟨v, hv, rfl⟩ := h
  exact ⟨v, parseSemver_dropWhile hv⟩

theorem mem_candidateReleases {releases : List ListedRelease} {channel version : Str}
    {release : ListedRelease} : (version, release) ∈ candidateReleases releases channel ↔
      release ∈ releases ∧ Eligible channel release
        ∧ releaseSemver release.toRelease = some version := by
  simp only [candidateReleases, List.mem_filterMap, Eligible]
  constructor
  · rintro ⟨r, hr, h⟩
    by_cases hdraft : r.draft = true
    · simp [hdraft] at h
    · by_cases hchannel : channel = "stable".toList ∧ r.prerelease = true
      · simp [hdraft, hchannel] at h
      · rw [if_neg hdraft, if_neg hchannel, Option.map_eq_some_iff] at h
        obtain ⟨version', hversion, heq⟩ := h
        obtain ⟨rfl, rfl⟩ := Prod.mk.inj heq
        exact ⟨hr, ⟨Bool.eq_false_iff.mpr hdraft, hchannel, by rw [hversion]; rfl⟩, hversion⟩
  · rintro ⟨hr, ⟨hdraft, hchannel, -⟩, hversion⟩
    exact ⟨release, hr, by rw [hdraft, if_neg Bool.false_ne_true, if_neg hchannel, hversion]; rfl⟩

/-- Every candidate has a key, so that the releases can be sorted. -/
theorem mapM_candidates (releases : List ListedRelease) (channel : Str) :
    ∃ keyed, ((candidateReleases releases channel).mapM fun c =>
        (semverSortKey c.1).map fun key => (key, c)) = some keyed
      ∧ (∀ e ∈ keyed, e.2 ∈ candidateReleases releases channel ∧ semverSortKey e.2.1 = some e.1)
      ∧ ∀ c ∈ candidateReleases releases channel, ∃ key, (key, c) ∈ keyed := by
  have hkeys : ∀ c ∈ candidateReleases releases channel, ∃ key, semverSortKey c.1 = some key := by
    intro c hc
    obtain ⟨v, hv⟩ := parseSemver_releaseSemver (mem_candidateReleases.mp hc).2.2
    exact ⟨v.sortKey, by rw [semverSortKey, hv]; rfl⟩
  generalize candidateReleases releases channel = cs at hkeys
  induction cs with
  | nil => exact ⟨[], rfl, by simp, by simp⟩
  | cons c cs ih =>
      obtain ⟨keyed, hkeyed, hmem, hall⟩ := ih fun d hd => hkeys d (List.mem_cons_of_mem c hd)
      obtain ⟨key, hkey⟩ := hkeys c List.mem_cons_self
      refine ⟨(key, c) :: keyed, by simp [List.mapM_cons, hkeyed, hkey], ?_, ?_⟩
      · intro e he
        rcases List.mem_cons.mp he with rfl | he
        · exact ⟨List.mem_cons_self, hkey⟩
        · exact ⟨List.mem_cons_of_mem c (hmem e he).1, (hmem e he).2⟩
      · intro d hd
        rcases List.mem_cons.mp hd with rfl | hd
        · exact ⟨key, List.mem_cons_self⟩
        · exact (hall d hd).imp fun _ h => List.mem_cons_of_mem _ h

/-- A selected release is eligible, newer than what is installed, and no eligible release is newer
than it. -/
structure Selected (releases : List ListedRelease) (channel installed : Str)
    (best : ListedRelease) : Prop where
  mem : best ∈ releases
  eligible : Eligible channel best
  newer : ∃ version ∈ releaseSemver best.toRelease, compareSemver version installed = some .gt
  newest : ∀ other ∈ releases, Eligible channel other →
    ∃ version ∈ releaseSemver best.toRelease, ∃ version' ∈ releaseSemver other.toRelease,
      ∃ o, compareSemver version version' = some o ∧ o ≠ .lt

/-- The selection does not fail, and selects such a release or none. -/
theorem selectCandidateRelease_selected (releases : List ListedRelease) (channel installed : Str) :
    ∃ result, selectCandidateRelease releases channel installed = some result
      ∧ ∀ best ∈ result, Selected releases channel installed best := by
  obtain ⟨keyed, hkeyed, hmem, hall⟩ := mapM_candidates releases channel
  simp only [selectCandidateRelease, hkeyed, Option.bind_eq_bind, Option.bind_some]
  cases hlast : (sortBy Prod.fst keyed).getLast? with
  | none => exact ⟨none, rfl, by simp⟩
  | some e =>
      obtain ⟨key, bestVersion, best⟩ := e
      have hbest : (key, bestVersion, best) ∈ keyed :=
        (sortBy_perm _ _).mem_iff.mp (List.mem_of_getLast? hlast)
      obtain ⟨hcandidate, hkey⟩ := hmem _ hbest
      obtain ⟨hrelease, heligible, hversion⟩ := mem_candidateReleases.mp hcandidate
      by_cases hnewer : compareSemver bestVersion installed = some .gt
      · refine ⟨some best, if_pos hnewer, ?_⟩
        rintro _ ⟨⟩
        refine ⟨hrelease, heligible, ⟨bestVersion, hversion, hnewer⟩, ?_⟩
        intro other hother helig
        obtain ⟨version', hversion'⟩ := Option.isSome_iff_exists.mp helig.2.2
        obtain ⟨key', hkey'⟩ := hall (version', other)
          (mem_candidateReleases.mpr ⟨hother, helig, hversion'⟩)
        have hle : key' ≤ key := le_getLast (sortBy_pairwise Prod.fst keyed) hlast
          ((sortBy_perm _ _).mem_iff.mpr hkey')
        obtain ⟨v, hv, rfl⟩ := Option.map_eq_some_iff.mp hkey
        obtain ⟨w, hw, rfl⟩ := Option.map_eq_some_iff.mp (hmem _ hkey').2
        exact ⟨bestVersion, hversion, version', hversion', compareParsed v w,
          compareSemver_eq hv hw, (compareParsed_sortKey v w).ne_lt.mpr hle⟩
      · exact ⟨none, if_neg hnewer, by simp⟩

/-- **Releases are ranked by SemVer.**  On versions that are accepted `compare_semver` is the
precedence of SemVer, which is a total preorder, and so is sorting by the keys; the release that is
selected is eligible, strictly newer than the installed version, and not older than any other
eligible release. -/
theorem releases_ranked_by_precedence :
    (∀ a b v w, parseSemver a = some v → parseSemver b = some w →
      ∃ o, compareSemver a b = some o ∧ o.Compares v.precedence w.precedence
        ∧ ∃ k l, semverSortKey a = some k ∧ semverSortKey b = some l ∧ o.Compares k l)
    ∧ (∀ a, (parseSemver a).isSome → compareSemver a a = some .eq)
    ∧ (∀ a b o, compareSemver a b = some o → compareSemver b a = some o.swap)
    ∧ (∀ a b c o o', compareSemver a b = some o → compareSemver b c = some o' →
      o ≠ .gt → o' ≠ .gt → ∃ o'', compareSemver a c = some o'' ∧ o'' ≠ .gt)
    ∧ ∀ releases channel installed,
      ∃ result, selectCandidateRelease releases channel installed = some result
        ∧ ∀ best ∈ result, Selected releases channel installed best := by
  refine ⟨fun a b v w ha hb => ?_, fun a ha => ?_, fun a b o => compareSemver_swap,
    fun a b c o o' => compareSemver_trans, selectCandidateRelease_selected⟩
  · obtain ⟨o, ho, hprecedence, hkeys⟩ := compareSemver_compares ha hb
    refine ⟨o, ho, hprecedence, v.sortKey, w.sortKey, ?_, ?_, hkeys⟩
    · rw [semverSortKey, ha, Option.map_some]
    · rw [semverSortKey, hb, Option.map_some]
  · obtain ⟨v, hv⟩ := Option.isSome_iff_exists.mp ha
    exact compareSemver_self hv

end AlderpointDNS.SoftwareUpdates
