import AlderpointDNS.Importer.Items
import AlderpointDNS.Lib.Lines
import AlderpointDNS.SoftwareUpdates.Versions

/-!
# Categories of blocklist sources

A source names its category by the key of the category; a category has a key that stays and a name
that can be changed.  `create_category` derives the key from the name.

`migrate_existing_categories` goes through the categories that sources name, which once were free
text, and gives each that is not a key a category: the one of that name, or the one whose key is
the slug of the text, which is added if there is none.

* `Operation`, `Tables.run` — what is done to the categories, and imports of sources.
* **`slugOf_slugOf`** — a slug is its own slug.
-/

namespace AlderpointDNS.Blocklists

open Text

/-! ## The tables -/

/-- A row of `categories`. -/
structure CategoryRow where
  key : Str
  name : Str
  description : Str
  deriving DecidableEq

abbrev CategoryRows := KeyedRows CategoryRow.key

structure Tables where
  categories : CategoryRows
  sources : Importer.SourceRows

namespace Tables

/-- `SELECT key FROM categories`. -/
def keys (t : Tables) : List Str := t.categories.1.map (·.key)

/-- `INSERT OR IGNORE INTO categories`. -/
def addCategory (t : Tables) (row : CategoryRow) : Tables :=
  { t with categories := (t.categories.insert row).getD t.categories }

/-- A source of the category `source` gets the category `target`. -/
def repointRow (target source : Str) (row : SourceRow) : SourceRow :=
  if row.category = source then { row with category := target } else row

theorem name_repointRow (target source : Str) (row : SourceRow) :
    (repointRow target source row).name = row.name := by
  unfold repointRow
  split_ifs <;> rfl

/-- `UPDATE sources SET category=? WHERE category=?`. -/
def repoint (t : Tables) (target source : Str) : Tables where
  categories := t.categories
  sources := t.sources.map (repointRow target source) fun r s => by simp only [name_repointRow]

/-- `UPDATE categories SET name=? WHERE key=?`. -/
def setName (t : Tables) (key name : Str) : Tables where
  categories := t.categories.map
    (fun row => if row.key = key then { row with name := name } else row)
    fun r s => by split_ifs <;> rfl
  sources := t.sources

/-- `DELETE FROM categories WHERE key=?`. -/
def removeCategory (t : Tables) (key : Str) : Tables :=
  { t with categories := t.categories.filter (·.key ≠ key) }

end Tables

/-! ## Names and keys -/

def uncategorizedKey : Str := "uncategorized".toList

/-- `normalize_name`. -/
def normalizeName (raw : Str) : Str := join [' '] (words raw)

/-- `[a-z0-9]`. -/
def isKeyChar (c : Char) : Bool := ('a' ≤ c && c ≤ 'z') || ('0' ≤ c && c ≤ '9')

/-- `KEY_RE.sub("_", text).strip("_")`: the runs of these characters, with `_` between them. -/
def slugOf (text : Str) : Str :=
  join ['_'] ((split '_' (text.map fun c => if isKeyChar c then c else '_')).filter (· ≠ []))

section Unicode

variable (u : UnicodeData)

/-- `slugify`. -/
def slugify (raw : Str) : Str := slugOf (u.toLower (strip raw))

/-- Two names are the same under `COLLATE NOCASE`. -/
def sameNocase (a b : Str) : Bool := a.map Char.toLower = b.map Char.toLower

/-! ## Changing categories -/

inductive CategoryError where
  | nameRequired
  | nameTooLong
  | noLetterOrNumber
  | alreadyExists (name : Str)
  | renamesUncategorized
  | notFound
  | mergesIntoItself
  | deletesUncategorized
  | sameReassignment
  | reassignmentNotFound
  deriving DecidableEq, Repr

/-- `_ensure_uncategorized`. -/
def ensureUncategorized (t : Tables) : Tables :=
  t.addCategory ⟨uncategorizedKey, "Uncategorized".toList,
    "Blocklist sources without a specific category".toList⟩

/-- `create_category`. -/
def createCategory (t : Tables) (name : Str) : Except CategoryError (Str × Tables) :=
  let cleanName := normalizeName name
  let key := slugify u cleanName
  if cleanName = [] then throw .nameRequired
  else if 64 < cleanName.length then throw .nameTooLong
  else if key = [] then throw .noLetterOrNumber
  else if t.categories.1.any fun row => row.key = key || sameNocase row.name cleanName then
    throw (.alreadyExists cleanName)
  else pure (key, t.addCategory ⟨key, cleanName, []⟩)

/-- `rename_category`. -/
def renameCategory (t : Tables) (key newName : Str) : Except CategoryError Tables :=
  let cleanName := normalizeName newName
  if key = uncategorizedKey then throw .renamesUncategorized
  else if cleanName = [] then throw .nameRequired
  else if key ∉ t.keys then throw .notFound
  else if t.categories.1.any fun row => sameNocase row.name cleanName && row.key ≠ key then
    throw (.alreadyExists cleanName)
  else pure (t.setName key cleanName)

/-- `merge_category`. -/
def mergeCategory (t : Tables) (sourceKey targetKey : Str) : Except CategoryError Tables :=
  if sourceKey = targetKey then throw .mergesIntoItself
  else if sourceKey ∉ t.keys ∨ targetKey ∉ t.keys then throw .notFound
  else
    let t := t.repoint targetKey sourceKey
    pure (if sourceKey ≠ uncategorizedKey then t.removeCategory sourceKey else t)

/-- `delete_category`. -/
def deleteCategory (t : Tables) (key : Str) (reassignTo : Option Str) :
    Except CategoryError Tables := do
  if key = uncategorizedKey then throw .deletesUncategorized
  if key ∉ t.keys then throw .notFound
  let target := (reassignTo.filter (· ≠ [])).getD uncategorizedKey
  if t.sources.1.any (·.category = key) then
    if target = key then throw .sameReassignment
    if target ∉ t.keys then throw .reassignmentNotFound
    pure ((t.repoint target key).removeCategory key)
  else pure (t.removeCategory key)

/-! ## Migrating free text -/

/-- What the loop of `migrate_existing_categories` works on. -/
structure Migration where
  tables : Tables
  knownKeys : List Str
  nameToKey : Dict Str Str

/-- `name_to_key`. -/
def nameToKey (categories : CategoryRows) : Dict Str Str :=
  categories.1.foldl (fun d row => d.insert (u.toLower (strip row.name)) row.key) ∅

/-- `existing_key or slugify(name) or UNCATEGORIZED_KEY`. -/
def keyOfText (names : Dict Str Str) (raw : Str) : Str :=
  let name := normalizeName raw
  orComment ((names.lookup (u.toLower name)).getD []) (orComment (slugify u name) uncategorizedKey)

/-- A category is added for a key that is not known. -/
def addKey (m : Migration) (key name : Str) : Migration :=
  if key ∈ m.knownKeys then m
  else
    { tables := m.tables.addCategory ⟨key, name, []⟩
      knownKeys := key :: m.knownKeys
      nameToKey := m.nameToKey.insert (u.toLower name) key }

/-- One round of the loop. -/
def migrateText (m : Migration) (raw : Str) : Migration :=
  if raw ∈ m.knownKeys then m
  else
    let key := keyOfText u m.nameToKey raw
    let m := addKey u m key (normalizeName raw)
    { m with tables := if key ≠ raw then m.tables.repoint key raw else m.tables }

/-- `SELECT DISTINCT category FROM sources WHERE category != ''`. -/
def rawValues (t : Tables) : List Str :=
  (t.sources.1.map (·.category)).reverse.dedup.reverse.filter (· ≠ [])

/-- `migrate_existing_categories`. -/
def migrateExistingCategories (t : Tables) : Tables :=
  let t := ensureUncategorized t
  let m := (rawValues t).foldl (migrateText u) ⟨t, t.keys, nameToKey u t.categories⟩
  m.tables.repoint uncategorizedKey []

/-! ## Histories -/

inductive Operation where
  | create (name : Str)
  | rename (key newName : Str)
  | merge (sourceKey targetKey : Str)
  | delete (key : Str) (reassignTo : Option Str)
  | migrate
  | importSource (source : Importer.SourceEntry)

/-- What an operation does to the tables; one that raises does nothing. -/
def Tables.apply (t : Tables) : Operation → Tables
  | .create name => match createCategory u t name with
    | .ok (_, t') => t'
    | .error _ => t
  | .rename key newName => match renameCategory t key newName with
    | .ok t' => t'
    | .error _ => t
  | .merge sourceKey targetKey => match mergeCategory t sourceKey targetKey with
    | .ok t' => t'
    | .error _ => t
  | .delete key reassignTo => match deleteCategory t key reassignTo with
    | .ok t' => t'
    | .error _ => t
  | .migrate => migrateExistingCategories u t
  | .importSource source => { t with sources := Importer.applySourceItem t.sources source }

/-- The tables after a history. -/
def Tables.run (t : Tables) (history : List Operation) : Tables := history.foldl (Tables.apply u) t

end Unicode

/-! ## Slugs -/

/-- Words that are joined start and end as words do. -/
theorem ends_join {p : Char → Bool} (sep : Str) {ws : List Str} (hne : ∀ w ∈ ws, w ≠ [])
    (hws : ∀ w ∈ ws, ∀ c ∈ w, p c = false) :
    (∀ c ∈ (join sep ws).head?, p c = false) ∧ ∀ c ∈ (join sep ws).getLast?, p c = false := by
  induction ws with
  | nil => simp [join]
  | cons w ws ih =>
      cases ws with
      | nil =>
          have hw := hws w List.mem_cons_self
          rw [join, List.intercalate_singleton]
          exact ⟨fun c hc => hw c (List.mem_of_head? hc),
            fun c hc => hw c (List.mem_of_getLast? hc)⟩
      | cons v ws =>
          obtain ⟨-, hlast⟩ := ih (fun x hx => hne x (List.mem_cons_of_mem w hx))
            fun x hx => hws x (List.mem_cons_of_mem w hx)
          have hrest : join sep (v :: ws) ≠ [] := by
            intro h
            have hv := (infix_join List.mem_cons_self : v <:+: join sep (v :: ws)).subset
            rw [h] at hv
            exact hne v (by simp) (List.subset_nil.mp hv)
          rw [join, List.intercalate_cons_cons]
          refine ⟨fun c hc => ?_, fun c hc => hlast c ?_⟩
          · rw [List.append_assoc, List.head?_append_of_ne_nil _ (hne w List.mem_cons_self)] at hc
            exact hws w List.mem_cons_self c (List.mem_of_head? hc)
          · change c ∈ (w ++ sep ++ join sep (v :: ws)).getLast? at hc
            rwa [List.getLast?_append_of_ne_nil _ hrest] at hc

/-- A normalized name has no white space at its ends. -/
theorem strip_normalizeName (raw : Str) : strip (normalizeName raw) = normalizeName raw := by
  obtain ⟨hhead, hlast⟩ := ends_join [' '] (fun w hw => (mem_words (s := raw) hw).1)
    fun w hw => (mem_words hw).2
  exact stripBy_eq_self_of_ends hhead hlast

theorem slugify_normalizeName (u : UnicodeData) (raw : Str) :
    slugify u (normalizeName raw) = slugOf (u.toLower (normalizeName raw)) := by
  rw [slugify, strip_normalizeName]

/-- The characters of a slug. -/
def isSlugChar (c : Char) : Bool := isKeyChar c || c = '_'

theorem isSlugChar_ascii {c : Char} (h : isSlugChar c = true) : c.toNat < 128 := by
  simp only [isSlugChar, isKeyChar, Bool.or_eq_true, Bool.and_eq_true, decide_eq_true_eq,
    Char.le_def, UInt32.le_iff_toNat_le] at h
  rcases h with (⟨-, h⟩ | ⟨-, h⟩) | rfl
  · exact lt_of_le_of_lt h (by decide)
  · exact lt_of_le_of_lt h (by decide)
  · decide

/-- It is no capital letter and no white space. -/
theorem isSlugChar_lower {c : Char} (h : isSlugChar c = true) :
    c.toLower = c ∧ isSpace c = false :=
  SoftwareUpdates.ascii_induction
    (P := fun c => isSlugChar c = true → c.toLower = c ∧ isSpace c = false) (by decide +kernel)
    (isSlugChar_ascii h) h

theorem isSlugChar_slugOf {text : Str} {c : Char} (h : c ∈ slugOf text) : isSlugChar c = true := by
  rcases mem_join h with h | ⟨w, hw, hc⟩
  · simp [isSlugChar, List.mem_singleton.mp h]
  · have hmem := mem_of_mem_split (List.mem_filter.mp hw).1 hc
    obtain ⟨d, -, rfl⟩ := List.mem_map.mp hmem
    by_cases hd : isKeyChar d = true <;> simp [isSlugChar, hd]

/-- **A slug is left as it is.** -/
theorem slugOf_slugOf (text : Str) : slugOf (slugOf text) = slugOf text := by
  have hmap : (slugOf text).map (fun c => if isKeyChar c then c else '_') = slugOf text := by
    refine (List.map_congr_left fun c hc => ?_).trans (List.map_id _)
    rcases Bool.or_eq_true_iff.mp (isSlugChar_slugOf hc) with h | h
    · exact if_pos h
    · have hc : c = '_' := of_decide_eq_true h
      rw [hc]
      rfl
  have hparts : (split '_' (slugOf text)).filter (· ≠ [])
      = (split '_' (text.map fun c => if isKeyChar c then c else '_')).filter (· ≠ []) := by
    generalize hws : (split '_' (text.map fun c => if isKeyChar c then c else '_')).filter
      (· ≠ []) = ws
    have hpart : ∀ w ∈ ws, '_' ∉ w ∧ w ≠ [] := by
      intro w hw
      rw [← hws, List.mem_filter] at hw
      exact ⟨notMem_of_mem_split hw.1, of_decide_eq_true hw.2⟩
    rw [slugOf, hws]
    by_cases hnil : ws = []
    · rw [hnil]; rfl
    · rw [split_join (fun w hw => (hpart w hw).1) hnil]
      exact List.filter_eq_self.mpr fun w hw => decide_eq_true (hpart w hw).2
  calc slugOf (slugOf text)
      = join ['_'] ((split '_' ((slugOf text).map fun c =>
          if isKeyChar c then c else '_')).filter (· ≠ [])) := rfl
    _ = slugOf text := by rw [hmap, hparts]; rfl

/-- Normalizing and lowering a slug that is not empty does nothing either. -/
theorem normalizeName_slugOf {text : Str} (h : slugOf text ≠ []) :
    normalizeName (slugOf text) = slugOf text := by
  rw [normalizeName, words_eq_singleton h fun c hc => (isSlugChar_lower (isSlugChar_slugOf hc)).2,
    join, List.intercalate_singleton]

theorem toLower_slugOf (u : UnicodeData) (text : Str) :
    u.toLower (slugOf text) = slugOf text :=
  (u.toLower_eq_self fun _ hc =>
    ⟨isSlugChar_ascii (isSlugChar_slugOf hc), (isSlugChar_lower (isSlugChar_slugOf hc)).1⟩).2

end AlderpointDNS.Blocklists
