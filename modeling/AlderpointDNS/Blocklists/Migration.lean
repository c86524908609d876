import AlderpointDNS.Blocklists.Categories

/-!
# What a migration of categories does

`migrate_existing_categories` looks every text up in tables that it changes as it goes.  Where it
leads a text to can be told from the tables before it, though: `place` says where.

* `Progress` — what is known of the loop after some of the texts.
* **`sources_migrate`** — every source gets the category of `place`.
* **`migrate_again`** — a second migration changes nothing.
* **`categories_kept_apart_iff`** — when texts that differ stay in different categories.
* `slugs_collide` — which they need not.
-/

namespace AlderpointDNS.Blocklists

open Text

variable (u : UnicodeData)

/-! ## The category of a text -/

/-- The key of the category of that name, or else the slug of the text. -/
def textKey (t : Tables) (raw : Str) : Str := keyOfText u (nameToKey u t.categories) raw

/-- Where a text is led to that comes after the texts `before`. -/
def leadsTo (t : Tables) (before : List Str) (raw : Str) : Str :=
  if raw = [] then uncategorizedKey
  else if raw ∈ t.keys ∨ ∃ r ∈ before, r ∉ t.keys ∧ textKey u t r = raw then raw
  else textKey u t raw

/-- Where the migration of `t` leads a text to. -/
def place (t : Tables) (raw : Str) : Str :=
  leadsTo u (ensureUncategorized t) ((rawValues t).takeWhile (· ≠ raw)) raw

/-- Two texts are the same up to letter case and white space. -/
def SameText (a b : Str) : Prop :=
  u.toLower (a.filter fun c => !isSpace c) = u.toLower (b.filter fun c => !isSpace c)

instance (a b : Str) : Decidable (SameText u a b) := inferInstanceAs (Decidable (_ = _))

/-- Sources of texts that are no keys and differ are in different categories afterwards. -/
def KeptApart (t t' : Tables) : Prop :=
  ∀ p ∈ t.sources.1.zip t'.sources.1, ∀ q ∈ t.sources.1.zip t'.sources.1,
    p.1.category ∉ t.keys → q.1.category ∉ t.keys → ¬ SameText u p.1.category q.1.category →
      p.2.category ≠ q.2.category

/-! ## Looking a text up -/

theorem orComment_ne_nil {a b : Str} (h : b ≠ []) : orComment a b ≠ [] := by
  unfold orComment
  split_ifs with ha
  · exact h
  · exact ha

theorem keyOfText_eq (names : Dict Str Str) (raw : Str) : keyOfText u names raw =
    orComment ((names.lookup (u.toLower (normalizeName raw))).getD [])
      (orComment (slugOf (u.toLower (normalizeName raw))) uncategorizedKey) := by
  rw [keyOfText, slugify_normalizeName]

theorem keyOfText_ne_nil (names : Dict Str Str) (raw : Str) : keyOfText u names raw ≠ [] :=
  orComment_ne_nil (orComment_ne_nil (by decide))

/-- The names lead to keys. -/
theorem lookup_nameToKey {rows : List CategoryRow} {d : Dict Str Str} {name key : Str}
    (h : (rows.foldl (fun d row => d.insert (u.toLower (strip row.name)) row.key) d).lookup name
      = some key) : d.lookup name = some key ∨ key ∈ rows.map (·.key) := by
  induction rows generalizing d with
  | nil => exact Or.inl h
  | cons row rows ih =>
      rcases ih h with h | h
      · rw [Dict.lookup_insert'] at h
        split_ifs at h with hname
        · exact Or.inr (by simp [Option.some.inj h])
        · exact Or.inl h
      · exact Or.inr (List.mem_cons_of_mem _ h)

/-- A text is led to a key that exists, or to its slug. -/
theorem textKey_cases {t : Tables} (hun : uncategorizedKey ∈ t.keys) (raw : Str) :
    textKey u t raw ∈ t.keys ∨ textKey u t raw = slugOf (u.toLower (normalizeName raw)) := by
  rw [textKey, keyOfText_eq]
  cases hlookup : (nameToKey u t.categories).lookup (u.toLower (normalizeName raw)) with
  | none =>
      rw [Option.getD_none]
      by_cases hslug : slugOf (u.toLower (normalizeName raw)) = []
      · exact Or.inl (by simpa [orComment, hslug] using hun)
      · exact Or.inr (by simp [orComment, hslug])
  | some key =>
      rw [Option.getD_some]
      by_cases hkey : key = []
      · by_cases hslug : slugOf (u.toLower (normalizeName raw)) = []
        · exact Or.inl (by simpa [orComment, hkey, hslug] using hun)
        · exact Or.inr (by simp [orComment, hkey, hslug])
      · refine Or.inl ?_
        rw [orComment, if_neg hkey]
        exact (lookup_nameToKey u hlookup).resolve_left (by simp)

/-- A new key is led to itself, if not to an existing one. -/
theorem textKey_textKey {t : Tables} (hun : uncategorizedKey ∈ t.keys) {raw : Str}
    (h : textKey u t raw ∉ t.keys) :
    textKey u t (textKey u t raw) ∈ t.keys ∨ textKey u t (textKey u t raw) = textKey u t raw := by
  have hslug := (textKey_cases u hun raw).resolve_left h
  have hne : slugOf (u.toLower (normalizeName raw)) ≠ [] := hslug ▸ keyOfText_ne_nil u _ raw
  refine (textKey_cases u hun (textKey u t raw)).imp_right fun hself => hself.trans ?_
  rw [hslug, normalizeName_slugOf hne, toLower_slugOf, slugOf_slugOf]

/-! ## The tables -/

theorem keys_addCategory_of_notMem {t : Tables} {row : CategoryRow} (h : row.key ∉ t.keys) :
    (t.addCategory row).keys = t.keys ++ [row.key] := by
  have hfree : ¬ (t.categories.1.any fun r => decide (r.key = row.key)) = true := by
    simpa [Tables.keys] using h
  rw [Tables.addCategory, LegalRows.insert, dif_neg hfree]
  simp [Tables.keys]

theorem addCategory_of_mem {t : Tables} {row : CategoryRow} (h : row.key ∈ t.keys) :
    t.addCategory row = t := by
  have htaken : (t.categories.1.any fun r => decide (r.key = row.key)) = true := by
    simpa [Tables.keys] using h
  rw [Tables.addCategory, LegalRows.insert, dif_pos htaken]
  rfl

theorem mem_keys_addCategory {t : Tables} {row : CategoryRow} {k : Str} :
    k ∈ (t.addCategory row).keys ↔ k ∈ t.keys ∨ k = row.key := by
  by_cases h : row.key ∈ t.keys
  · rw [addCategory_of_mem h]
    exact ⟨Or.inl, fun hk => hk.elim id fun hk => hk ▸ h⟩
  · rw [keys_addCategory_of_notMem h, List.mem_append, List.mem_singleton]

/-- The sources with their categories changed. -/
def recategorize (f : Str → Str) (rows : List SourceRow) : List SourceRow :=
  rows.map fun row => { row with category := f row.category }

theorem repoint_recategorize {t t' : Tables} {f : Str → Str} (target source : Str)
    (h : t.sources.1 = recategorize f t'.sources.1) : (t.repoint target source).sources.1
      = recategorize (fun c => if f c = source then target else f c) t'.sources.1 := by
  have hmap : (t.repoint target source).sources.1
      = t.sources.1.map (Tables.repointRow target source) := rfl
  rw [hmap, h, recategorize, recategorize, List.map_map]
  refine List.map_congr_left fun row _ => ?_
  simp only [Function.comp_apply, Tables.repointRow]
  split_ifs <;> rfl

/-! ## The loop -/

/-- After the texts `done`. -/
structure Progress (t : Tables) (done : List Str) (m : Migration) : Prop where
  known : ∀ k, k ∈ m.knownKeys ↔ k ∈ t.keys ∨ ∃ r ∈ done, r ∉ t.keys ∧ textKey u t r = k
  keys : ∀ k, k ∈ m.tables.keys ↔ k ∈ m.knownKeys
  names : ∀ raw, keyOfText u m.nameToKey raw = textKey u t raw
  sources : m.tables.sources.1 = recategorize
    (fun c => if c ∈ done then leadsTo u t (done.takeWhile (· ≠ c)) c else c) t.sources.1

/-- What a text is led to is known then. -/
theorem Progress.leadsTo_known {t : Tables} {done : List Str} {m : Migration}
    (h : Progress u t done m) (hun : uncategorizedKey ∈ t.keys) {c : Str} (hc : c ∈ done) :
    leadsTo u t (done.takeWhile (· ≠ c)) c ∈ m.knownKeys := by
  rw [h.known, leadsTo]
  split_ifs with hnil hkey
  · exact Or.inl hun
  · refine hkey.imp_right ?_
    rintro ⟨r, hr, hrkey⟩
    exact ⟨r, (List.takeWhile_prefix _).subset hr, hrkey⟩
  · exact Or.inr ⟨c, hc, fun hmem => hkey (Or.inl hmem), rfl⟩

theorem takeWhile_concat_of_mem {done : List Str} {c : Str} (raw : Str) (h : c ∈ done) :
    (done ++ [raw]).takeWhile (· ≠ c) = done.takeWhile (· ≠ c) := by
  induction done with
  | nil => exact nomatch h
  | cons d done ih =>
      by_cases hd : d = c
      · simp [hd]
      · have htail : c ∈ done := (List.mem_cons.mp h).resolve_left (Ne.symm hd)
        simpa [hd] using ih htail

theorem takeWhile_concat_self {done : List Str} {raw : Str} (h : raw ∉ done) :
    (done ++ [raw]).takeWhile (· ≠ raw) = done := by
  have hall : ∀ c ∈ done, decide (c ≠ raw) = true := fun c hc =>
    decide_eq_true fun heq => h (heq ▸ hc)
  rw [List.takeWhile_append_of_pos hall]
  simp

/-- What one more text changes about where the texts are led. -/
theorem leadsTo_concat {t : Tables} {done : List Str} {raw : Str} (hraw : raw ∉ done) (c : Str) :
    (if c ∈ done ++ [raw] then leadsTo u t ((done ++ [raw]).takeWhile (· ≠ c)) c else c)
      = if c = raw then leadsTo u t done raw
        else if c ∈ done then leadsTo u t (done.takeWhile (· ≠ c)) c else c := by
  by_cases hc : c = raw
  · subst hc
    rw [if_pos (by simp), if_pos rfl, takeWhile_concat_self hraw]
  · rw [if_neg hc]
    by_cases hdone : c ∈ done
    · rw [if_pos (List.mem_append_left _ hdone), if_pos hdone, takeWhile_concat_of_mem raw hdone]
    · rw [if_neg (by simp [hdone, hc]), if_neg hdone]

/-- A known text stays as it is. -/
theorem Progress.skip {t : Tables} {done : List Str} {m : Migration} {raw : Str}
    (h : Progress u t done m) (hun : uncategorizedKey ∈ t.keys) (hraw : raw ∉ done)
    (hne : raw ≠ []) (hknown : raw ∈ m.knownKeys) : Progress u t (done ++ [raw]) m where
  keys := h.keys
  names := h.names
  known k := by
    have hold := (h.known raw).mp hknown
    rw [h.known]
    constructor
    · exact Or.imp_right fun ⟨r, hr, hrkey⟩ => ⟨r, List.mem_append_left _ hr, hrkey⟩
    · rintro (hk | ⟨r, hr, hrkeys, rfl⟩)
      · exact Or.inl hk
      · rcases List.mem_append.mp hr with hr | hr
        · exact Or.inr ⟨r, hr, hrkeys, rfl⟩
        · obtain rfl := List.mem_singleton.mp hr
          obtain ⟨r', hr', hrkeys', hkey⟩ := hold.resolve_left hrkeys
          have hnew : textKey u t r' ∉ t.keys := by rwa [hkey]
          have htext := textKey_textKey u hun hnew
          rw [hkey] at htext
          exact htext.imp_right fun hself => ⟨r', hr', hrkeys', hkey.trans hself.symm⟩
  sources := by
    have hold := (h.known raw).mp hknown
    rw [h.sources]
    congr 1
    funext c
    rw [leadsTo_concat u hraw]
    by_cases hc : c = raw
    · subst hc
      rw [if_neg hraw, if_pos rfl, leadsTo, if_neg hne, if_pos hold]
    · rw [if_neg hc]

/-- What adding a category does to the tables of the loop. -/
theorem addKey_spec {m : Migration} (key name : Str)
    (hkeys : ∀ k, k ∈ m.tables.keys ↔ k ∈ m.knownKeys) :
    (∀ k, k ∈ (addKey u m key name).knownKeys ↔ k ∈ m.knownKeys ∨ k = key)
      ∧ (∀ k, k ∈ (addKey u m key name).tables.keys ↔ k ∈ (addKey u m key name).knownKeys)
      ∧ (addKey u m key name).tables.sources = m.tables.sources := by
  unfold addKey
  split_ifs with hkey
  · refine ⟨fun k => ⟨Or.inl, fun hk => hk.elim id fun hk => hk ▸ hkey⟩, hkeys, rfl⟩
  · refine ⟨fun k => ?_, fun k => ?_, rfl⟩
    · rw [List.mem_cons, or_comm]
    · rw [mem_keys_addCategory, hkeys, List.mem_cons, or_comm]

/-- The category is found by the texts that have its name, and they are led to it anyway. -/
theorem names_addKey {t : Tables} {done : List Str} {m : Migration} (h : Progress u t done m)
    (raw r : Str) :
    keyOfText u (addKey u m (textKey u t raw) (normalizeName raw)).nameToKey r = textKey u t r := by
  unfold addKey
  split_ifs with hkey
  · exact h.names r
  · rw [keyOfText_eq]
    dsimp only
    rw [Dict.lookup_insert']
    by_cases hname : u.toLower (normalizeName raw) = u.toLower (normalizeName r)
    · have hsame : textKey u t r = textKey u t raw := by
        rw [textKey, textKey, keyOfText_eq, keyOfText_eq, hname]
      have hne : textKey u t raw ≠ [] := keyOfText_ne_nil u _ raw
      rw [if_pos hname, Option.getD_some, orComment, if_neg hne, hsame]
    · rw [if_neg hname, ← keyOfText_eq, h.names]

/-- **One round.** -/
theorem Progress.step {t : Tables} {done : List Str} {m : Migration} {raw : Str}
    (h : Progress u t done m) (hun : uncategorizedKey ∈ t.keys) (hraw : raw ∉ done)
    (hne : raw ≠ []) : Progress u t (done ++ [raw]) (migrateText u m raw) := by
  by_cases hknown : raw ∈ m.knownKeys
  · rw [migrateText, if_pos hknown]
    exact h.skip u hun hraw hne hknown
  · rw [migrateText, if_neg hknown, h.names]
    dsimp only
    obtain ⟨hknown', hkeys', hsources'⟩ :=
      addKey_spec u (textKey u t raw) (normalizeName raw) h.keys
    have hnew : ¬ (raw ∈ t.keys ∨ ∃ r ∈ done, r ∉ t.keys ∧ textKey u t r = raw) :=
      fun hold => hknown ((h.known raw).mpr hold)
    refine ⟨fun k => ?_, fun k => ?_, names_addKey u h raw, ?_⟩
    · rw [hknown', h.known]
      simp only [List.mem_append, List.mem_singleton]
      constructor
      · rintro ((hk | ⟨r, hr, hrkey⟩) | rfl)
        · exact Or.inl hk
        · exact Or.inr ⟨r, Or.inl hr, hrkey⟩
        · exact Or.inr ⟨raw, Or.inr rfl, fun hmem => hnew (Or.inl hmem), rfl⟩
      · rintro (hk | ⟨r, hr | rfl, hrkeys, rfl⟩)
        · exact Or.inl (Or.inl hk)
        · exact Or.inl (Or.inr ⟨r, hr, hrkeys, rfl⟩)
        · exact Or.inr rfl
    · rw [← hkeys']
      split_ifs
      · exact Iff.rfl
      · exact Iff.rfl
    · have hold := (congrArg Subtype.val hsources').trans h.sources
      have htarget : leadsTo u t done raw = textKey u t raw := by
        rw [leadsTo, if_neg hne, if_neg hnew]
      -- no other source has the category `raw` by now, since what was led somewhere is known
      have hother : ∀ c, c ≠ raw →
          (if c ∈ done then leadsTo u t (done.takeWhile (· ≠ c)) c else c) ≠ raw := by
        intro c hc heq
        by_cases hdone : c ∈ done
        · rw [if_pos hdone] at heq
          exact hknown (heq ▸ h.leadsTo_known u hun hdone)
        · rw [if_neg hdone] at heq
          exact hc heq
      simp only [leadsTo_concat u hraw, htarget]
      split_ifs with hkey
      · rw [repoint_recategorize _ _ hold]
        congr 1
        funext c
        by_cases hc : c = raw
        · rw [if_pos hc, hc, if_neg hraw, if_pos rfl]
        · rw [if_neg hc, if_neg (hother c hc)]
      · rw [hold]
        congr 1
        funext c
        by_cases hc : c = raw
        · rw [if_pos hc, hc, if_neg hraw, not_not.mp hkey]
        · rw [if_neg hc]

/-- The loop starts with the tables before it. -/
theorem progress_start (t : Tables) :
    Progress u t [] ⟨t, t.keys, nameToKey u t.categories⟩ where
  known k := by simp
  keys k := Iff.rfl
  names raw := rfl
  sources := by simp [recategorize]

/-- **The whole loop**, by induction on the texts. -/
theorem progress_foldl {t : Tables} (hun : uncategorizedKey ∈ t.keys) {raws : List Str}
    (hnodup : raws.Nodup) (hne : ∀ raw ∈ raws, raw ≠ []) :
    Progress u t raws (raws.foldl (migrateText u) ⟨t, t.keys, nameToKey u t.categories⟩) := by
  induction raws using List.reverseRecOn with
  | nil => exact progress_start u t
  | append_singleton raws raw ih =>
      rw [List.nodup_append] at hnodup
      have hraw : raw ∉ raws := fun hmem => hnodup.2.2 raw hmem raw List.mem_cons_self rfl
      rw [List.foldl_append]
      exact (ih hnodup.1 fun r hr => hne r (List.mem_append_left _ hr)).step u hun hraw
        (hne raw (by simp))

theorem nodup_rawValues (t : Tables) : (rawValues t).Nodup :=
  (List.nodup_reverse.mpr (List.nodup_dedup _)).filter _

theorem mem_rawValues {t : Tables} {c : Str} :
    c ∈ rawValues t ↔ (∃ row ∈ t.sources.1, row.category = c) ∧ c ≠ [] := by
  simp [rawValues]

/-! ## The migration -/

theorem uncategorized_mem (t : Tables) : uncategorizedKey ∈ (ensureUncategorized t).keys :=
  mem_keys_addCategory.mpr (Or.inr rfl)

theorem leadsTo_ne_nil (t : Tables) (before : List Str) (raw : Str) :
    leadsTo u t before raw ≠ [] := by
  unfold leadsTo
  split_ifs with hnil
  · decide
  · exact hnil
  · exact keyOfText_ne_nil u _ raw

/-- **Every source gets the category of `place`.** -/
theorem sources_migrate (t : Tables) : (migrateExistingCategories u t).sources.1
    = recategorize (place u t) t.sources.1 := by
  have hprogress := progress_foldl u (uncategorized_mem t) (nodup_rawValues t)
    fun raw hraw => (mem_rawValues.mp hraw).2
  have hfinal := repoint_recategorize uncategorizedKey [] hprogress.sources
  refine hfinal.trans (List.map_congr_left fun row hrow => ?_)
  have hmem : row.category ≠ [] → row.category ∈ rawValues t := fun hne =>
    mem_rawValues.mpr ⟨⟨row, hrow, rfl⟩, hne⟩
  by_cases hnil : row.category = []
  · have hnot : ([] : Str) ∉ rawValues t := fun h => (mem_rawValues.mp h).2 rfl
    simp only [hnil, if_neg hnot, if_pos, place, leadsTo]
  · simp only [if_pos (hmem hnil), if_neg (leadsTo_ne_nil u _ _ _)]
    rfl

/-- Afterwards every source names a category that exists. -/
theorem place_mem_keys {t : Tables} {row : SourceRow} (hrow : row ∈ t.sources.1) :
    place u t row.category ∈ (migrateExistingCategories u t).keys := by
  have hprogress := progress_foldl u (uncategorized_mem t) (nodup_rawValues t)
    fun raw hraw => (mem_rawValues.mp hraw).2
  refine (hprogress.keys _).mpr ?_
  by_cases hnil : row.category = []
  · rw [place, leadsTo, if_pos hnil, hprogress.known]
    exact Or.inl (uncategorized_mem t)
  · have hmem : row.category ∈ rawValues t := mem_rawValues.mpr ⟨⟨row, hrow, rfl⟩, hnil⟩
    exact hprogress.leadsTo_known u (uncategorized_mem t) hmem

/-- A migration that finds every text among the keys does nothing. -/
theorem migrate_eq_self {t : Tables} (hun : uncategorizedKey ∈ t.keys)
    (hsources : ∀ row ∈ t.sources.1, row.category ∈ t.keys ∧ row.category ≠ []) :
    migrateExistingCategories u t = t := by
  have hensure : ensureUncategorized t = t := addCategory_of_mem hun
  have hloop : ∀ (raws : List Str) (m : Migration), (∀ raw ∈ raws, raw ∈ m.knownKeys) →
      raws.foldl (migrateText u) m = m := by
    intro raws m hraws
    induction raws with
    | nil => rfl
    | cons raw raws ih =>
        rw [List.foldl_cons, migrateText, if_pos (hraws raw List.mem_cons_self)]
        exact ih fun r hr => hraws r (List.mem_cons_of_mem raw hr)
  have hknown : ∀ raw ∈ rawValues t, raw ∈ t.keys := by
    intro raw hraw
    obtain ⟨⟨row, hrow, rfl⟩, -⟩ := mem_rawValues.mp hraw
    exact (hsources row hrow).1
  have hrows : (t.repoint uncategorizedKey []).sources = t.sources := by
    refine Subtype.ext ((List.map_congr_left fun row hrow => ?_).trans (List.map_id _))
    rw [Tables.repointRow, if_neg (hsources row hrow).2]
    rfl
  rw [migrateExistingCategories, hensure, hloop _ _ hknown]
  exact congrArg (Tables.mk t.categories) hrows

/-- **A second migration changes nothing.** -/
theorem migrate_again (t : Tables) : migrateExistingCategories u (migrateExistingCategories u t)
    = migrateExistingCategories u t := by
  have hprogress := progress_foldl u (uncategorized_mem t) (nodup_rawValues t)
    fun raw hraw => (mem_rawValues.mp hraw).2
  refine migrate_eq_self u ?_ fun row hrow => ?_
  · exact (hprogress.keys _).mpr ((hprogress.known _).mpr (Or.inl (uncategorized_mem t)))
  · rw [sources_migrate] at hrow
    obtain ⟨before, hbefore, rfl⟩ := List.mem_map.mp hrow
    exact ⟨place_mem_keys u hbefore, leadsTo_ne_nil u _ _ _⟩

theorem keptApart_iff (t : Tables) : KeptApart u t (migrateExistingCategories u t) ↔
    ∀ row ∈ t.sources.1, ∀ row' ∈ t.sources.1, row.category ∉ t.keys → row'.category ∉ t.keys →
      ¬ SameText u row.category row'.category →
        place u t row.category ≠ place u t row'.category := by
  rw [KeptApart, sources_migrate, recategorize, ← List.map_prod_left_eq_zip]
  simp only [List.forall_mem_map]

/-- **When a migration keeps categories apart.**  After any history of changes and imports a
migration gives every source a category that exists, and a second one changes nothing.  It keeps
the sources of texts apart that are no keys and differ by more than case and white space exactly
if it leads no two of these texts to the same place. -/
theorem categories_kept_apart_iff (t₀ : Tables) (history : List Operation) :
    let t := t₀.run u history
    (∀ row ∈ (migrateExistingCategories u t).sources.1,
        row.category ∈ (migrateExistingCategories u t).keys)
      ∧ migrateExistingCategories u (migrateExistingCategories u t) = migrateExistingCategories u t
      ∧ (KeptApart u t (migrateExistingCategories u t) ↔
        ∀ row ∈ t.sources.1, ∀ row' ∈ t.sources.1,
          row.category ∉ t.keys → row'.category ∉ t.keys →
          ¬ SameText u row.category row'.category →
            place u t row.category ≠ place u t row'.category) := by
  intro t
  refine ⟨fun row hrow => ?_, migrate_again u t, keptApart_iff u t⟩
  rw [sources_migrate] at hrow
  obtain ⟨before, hbefore, rfl⟩ := List.mem_map.mp hrow
  exact place_mem_keys u hbefore

/-! ## Slugs that are the same -/

/-- A database without categories and sources. -/
def noTables : Tables := ⟨LegalRows.empty, LegalRows.empty⟩

/-- Two lists are imported, of the categories `C++` and `C#`. -/
def twoImports : List Operation :=
  [.importSource
    { name := "a".toList, url := "https://a.example/".toList, category := "C++".toList },
   .importSource
    { name := "b".toList, url := "https://b.example/".toList, category := "C#".toList }]

/-- Both categories are led to `c`. -/
theorem slugs_collide : ¬ ∀ (u : UnicodeData) (t₀ : Tables) (history : List Operation),
    (∀ row ∈ (migrateExistingCategories u (t₀.run u history)).sources.1,
        row.category ∈ (migrateExistingCategories u (t₀.run u history)).keys)
      ∧ migrateExistingCategories u (migrateExistingCategories u (t₀.run u history))
        = migrateExistingCategories u (t₀.run u history)
      ∧ KeptApart u (t₀.run u history) (migrateExistingCategories u (t₀.run u history)) := by
  intro h
  have happart := (h ⟨id, fun _ => none⟩ noTables twoImports).2.2
  rw [keptApart_iff] at happart
  exact happart ⟨"a".toList, "https://a.example/".toList, true, "C++".toList⟩ (by decide +kernel)
    ⟨"b".toList, "https://b.example/".toList, true, "C#".toList⟩ (by decide +kernel)
    (by decide +kernel) (by decide +kernel) (by decide +kernel) (by decide +kernel)

end AlderpointDNS.Blocklists
