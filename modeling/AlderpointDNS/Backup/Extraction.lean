import AlderpointDNS.Backup.Rollback
import Mathlib.Algebra.Order.Ring.Nat

/-!
# The files of an archive

`extract_backup` writes the members of an archive to a directory and then goes through the checksums
of its manifest, while `restore_backup` installs what is in the directory.

Decryption and the reading of the tar file come before: an archive is the list of its members.  An
exception is `none`.  Paths are taken apart as `pathlib` and the system do it, and there are no
symbolic links: the archive cannot bring one.

* `extracts_foldlM` — a file of the directory is the last regular member of its path.
* `extractBackup_spec` — what a manifest that is returned makes sure of.
* **`vouched_iff`** — every file is listed with its checksum exactly if every regular member is
  listed.
* `installed_vouched` — then `restore_backup` installs such files only.
* `unlisted_sudoers` — a member that the manifest does not list.
-/

namespace AlderpointDNS.Backup.Extraction

open Text FileTree

/-! ## Archives -/

abbrev Bytes := List UInt8

inductive MemberType where
  | regular
  | directory
  /-- a symbolic or a hard link -/
  | link
  | special
  deriving DecidableEq

structure Member where
  name : Str
  type : MemberType
  content : Bytes
  deriving DecidableEq

/-- The names of a path. -/
def components (path : Str) : Path :=
  (split '/' path).filter fun name => name ≠ [] && name ≠ ['.']

def up : Str := "..".toList

/-- `os.path.normpath`, of a path below `cur`. -/
def normpath (cur path : Path) : Path :=
  path.foldl (fun cur name => if name = up then cur.dropLast else cur ++ [name]) cur

/-- `_reject_unsafe_member` raises. -/
def rejectsMember (dest : Path) (m : Member) : Bool :=
  startsWith m.name ['/'] || startsWith m.name up ||
    isSubstring "/../".toList ('/' :: m.name ++ ['/']) ||
    !dest.isPrefixOf (normpath dest (components m.name)) ||
    m.type = .link || m.type = .special

/-- `getmember`: the last member of the name. -/
def getmember (members : List Member) (name : String) : Option Member :=
  members.reverse.find? (·.name = name.toList)

/-! ## Manifests -/

/-- A value of an object: its own members are strings (`some`) or not. -/
inductive Item where
  | object (entries : Dict Str (Option Str))
  | other

/-- What `json.loads` returns: an object, or something that these names are `in`. -/
inductive Loaded where
  | object (members : Dict Str Item)
  | other (names : List Str)

namespace Loaded

/-- `key in manifest`. -/
def hasKey : Loaded → Str → Bool
  | object members, key => (members.lookup key).isSome
  | other names, key => names.contains key

/-- `manifest.get("sha256_checksums", {})`, of which the items are asked for. -/
def checksums : Loaded → Option (Dict Str (Option Str))
  | object members =>
      match members.lookup "sha256_checksums".toList with
      | none => some ∅
      | some (.object entries) => some entries
      | some .other => none
  | other _ => none

end Loaded

/-- `_REQUIRED_MANIFEST_KEYS`. -/
def requiredManifestKeys : List Str :=
  ["backup_format_version", "alderpointdns_app_version", "created_at", "included_components",
    "sha256_checksums"].map String.toList

/-! ## Extraction -/

abbrev Tree := FileTree Str Bytes

/-- No file is in the way of the parents. -/
def parentsFree (t : Tree) (p : Path) : Bool :=
  p.inits.all fun q => q = p || match t.entry q with
    | some (.file _) => false
    | _ => true

/-- `mkdir(parents=True, exist_ok=True)`. -/
def makeDir (t : Tree) (p : Path) : Option Tree :=
  if parentsFree t p then
    match t.entry p with
    | some (.file _) => none
    | some .dir => some t
    | none => some (t.graft p ofDir)
  else none

/-- A file is written. -/
def writeFile (t : Tree) (p : Path) (content : Bytes) : Option Tree :=
  if parentsFree t p then
    match t.entry p with
    | some .dir => none
    | _ => some (t.graft p (ofFile content))
  else none

/-- One member that has not been rejected. -/
def extractMember (dest : Path) (t : Tree) (m : Member) : Option Tree :=
  if m.type = .directory then makeDir t (dest ++ components m.name)
  else writeFile t (dest ++ components m.name) m.content

/-- What the machine has to do with it: `sha256_file`, `json.loads` of decoded bytes,
`max_extracted_bytes`, and `_check_free_space`. -/
structure Machine where
  sha256 : Bytes → Str
  loads : Bytes → Option Loaded
  maxExtractedBytes : ℕ
  hasFreeSpace : ℕ → Bool

variable (machine : Machine) (dest : Path)

/-- `_scan_and_extract`. -/
def scanAndExtract (members : List Member) (t : Tree) : Option Tree :=
  let total := ((members.filter (·.type = .regular)).map (·.content.length)).sum
  if members.any (rejectsMember dest) || machine.maxExtractedBytes < total ||
    !machine.hasFreeSpace total then none
  else members.foldlM (extractMember dest) t

/-- Where a path leads from `cur` on: `..` needs a directory. -/
def walk (t : Tree) : Path → Path → Option Path
  | cur, [] => some cur
  | cur, name :: path =>
      if name = up then
        if t.entry cur = some .dir then walk t cur.dropLast path else none
      else walk t (cur ++ [name]) path

/-- Where the path of a checksum begins: a path with a slash leaves the directory. -/
def base (relpath : Str) : Path := if startsWith relpath ['/'] then [] else dest

/-- `dest_dir / relpath`. -/
def candidate (t : Tree) (relpath : Str) : Option Path :=
  walk t (base dest relpath) (components relpath)

/-- The file is there and has the checksum; anything else raises, or is a mismatch. -/
def checksumOk (t : Tree) (relpath : Str) (expected : Option Str) : Bool :=
  match (candidate dest t relpath).bind t.entry with
  | some (.file content) => expected = some (machine.sha256 content)
  | _ => false

def manifestName : Str := "manifest.json".toList

/-- `extract_backup`: the manifest, and what is then on disk. -/
def extractBackup (members : List Member) (t : Tree) : Option (Loaded × Tree) := do
  let t ← makeDir t dest
  let m ← getmember members "manifest.json" <|> getmember members "./manifest.json"
  if m.type ≠ .regular then none
  else
    let manifest ← machine.loads m.content
    if requiredManifestKeys.all manifest.hasKey then
      let t ← scanAndExtract machine dest members t
      match t.entry (dest ++ [manifestName]) with
      | some (.file content) =>
          let manifest ← machine.loads content
          let checksums ← manifest.checksums
          if checksums.entries.all fun item => checksumOk machine dest t item.1 item.2 then
            some (manifest, t)
          else none
      | _ => none
    else none

/-! ## What is asked of it -/

/-- The manifest is that of an archive: the last regular member of its path. -/
def lastFile (members : List Member) (p : Path) : Option Bytes :=
  ((members.filter fun m => m.type = .regular && components m.name = p).getLast?).map (·.content)

/-- Nothing but the directory has changed, and every file in it is listed with its checksum. -/
structure Vouched (t : Tree) (manifest : Loaded) (result : Tree) : Prop where
  inside : ∀ q, ¬dest <+: q → some (result.entry q) = (makeDir t dest).map (·.entry q)
  listed : ∀ q content, result.entry (dest ++ q) = some (.file content) → q ≠ [manifestName] →
    ∃ checksums relpath, manifest.checksums = some checksums ∧
      candidate dest result relpath = some (dest ++ q) ∧
      checksums.lookup relpath = some (some (machine.sha256 content))

/-- The manifest of the archive lists every regular member, by a path that leads to its own. -/
def Listed (members : List Member) : Prop :=
  ∀ m ∈ members, m.type = .regular → components m.name ≠ [manifestName] →
    ∃ content manifest checksums, lastFile members [manifestName] = some content ∧
      machine.loads content = some manifest ∧ manifest.checksums = some checksums ∧
      ∃ relpath ∈ checksums, normpath (base dest relpath) (components relpath)
        = dest ++ components m.name

variable {machine : Machine} {dest : Path} {t t' t₀ : Tree} {members : List Member}

/-! ## Paths -/

/-- A path that leads somewhere leads to where it is normalized to. -/
theorem walk_eq_normpath {cur path p : Path} (h : walk t cur path = some p) :
    p = normpath cur path := by
  induction path generalizing cur with
  | nil => exact (Option.some.inj h).symm
  | cons name path ih =>
      rw [normpath, List.foldl_cons]
      rw [walk] at h
      split_ifs at h ⊢ with hup
      · exact ih h
      · exact ih h

/-- A path without `..` leads to its own place. -/
theorem walk_of_forall_ne {cur path : Path} (h : ∀ name ∈ path, name ≠ up) :
    walk t cur path = some (cur ++ path) := by
  induction path generalizing cur with
  | nil => rw [walk, List.append_nil]
  | cons name path ih =>
      obtain ⟨hname, hpath⟩ := List.forall_mem_cons.mp h
      rw [walk, if_neg hname, ih hpath, List.append_assoc, List.singleton_append]

theorem parentsFree_iff {p : Path} : parentsFree t p = true ↔
    ∀ q, q <+: p → q ≠ p → ∀ content, t.entry q ≠ some (.file content) := by
  simp only [parentsFree, List.all_eq_true, List.mem_inits, Bool.or_eq_true, decide_eq_true_eq]
  constructor
  · intro h q hq hne content hfile
    rcases h q hq with heq | hfree
    · exact hne heq
    · rw [hfile] at hfree
      cases hfree
  · intro h q hq
    by_cases hne : q = p
    · exact Or.inl hne
    · refine Or.inr ?_
      cases hentry : t.entry q with
      | none => rfl
      | some entry =>
          cases entry with
          | dir => rfl
          | file content => exact absurd hentry (h q hq hne content)

/-! ## What extraction leaves -/

/-- The files of a tree in which a single entry has been put. -/
theorem graft_file_iff {p q : Path} {new : Tree} (hsingle : ∀ r, r ≠ [] → new.entry r = none)
    {content : Bytes} : (t.graft p new).entry q = some (.file content) ↔
      q = p ∧ new.entry [] = some (.file content) ∨
        ¬p <+: q ∧ t.entry q = some (.file content) := by
  by_cases hq : p <+: q
  · obtain ⟨r, rfl⟩ := hq
    rw [graft_append]
    by_cases hr : r = []
    · simp [hr]
    · simp [hr, hsingle r hr]
  · have hne : q ≠ p := fun heq => hq (heq ▸ List.prefix_rfl)
    rcases graft_cases t new hq with hsame | ⟨-, hnone, hdir⟩
    · simp [hsame, hq, hne]
    · simp [hdir, hnone, hne]

/-- The members that have been extracted so far are what is in the directory. -/
structure Extracts (dest : Path) (t₀ : Tree) (members : List Member) (t : Tree) : Prop where
  root : t.entry dest ≠ none
  inside : ∀ q, ¬dest <+: q → t.entry q = t₀.entry q
  files : ∀ q content, t.entry (dest ++ q) = some (.file content) ↔
    lastFile members q = some content
  below : ∀ q content, t.entry (dest ++ q) = some (.file content) → ∀ r, r ≠ [] →
    t.entry (dest ++ q ++ r) = none

/-- One entry more. -/
theorem Extracts.graft {more : List Member} {p : Path} {new : Tree}
    (h : Extracts dest t₀ members t) (hroot : new.entry [] ≠ none)
    (hsingle : ∀ r, r ≠ [] → new.entry r = none) (hfree : parentsFree t (dest ++ p) = true)
    (hplace : t.entry (dest ++ p) ≠ some .dir)
    (hmore : ∀ q content, lastFile more q = some content ↔
      q = p ∧ new.entry [] = some (.file content) ∨ q ≠ p ∧ lastFile members q = some content) :
    Extracts dest t₀ more (t.graft (dest ++ p) new) := by
  have hnotAbove : ∀ q, q <+: dest ++ p → q ≠ dest ++ p → ∀ content,
      t.entry q ≠ some (.file content) := parentsFree_iff.mp hfree
  -- nothing was below the place of the new entry
  have hnotBelow : ∀ r content, r ≠ [] → t.entry (dest ++ p ++ r) ≠ some (.file content) := by
    intro r content hr hfile
    cases hentry : t.entry (dest ++ p) with
    | none =>
        rw [t.closed _ r hentry] at hfile
        cases hfile
    | some entry =>
        cases entry with
        | dir => exact hplace hentry
        | file content' =>
            rw [h.below p content' hentry r hr] at hfile
            cases hfile
  constructor
  · by_cases hp : p = []
    · subst hp
      rw [List.append_nil, graft_self]
      exact hroot
    · have hbelow : ¬dest ++ p <+: dest := by
        intro hbelow
        have hlength := hbelow.length_le
        rw [List.length_append] at hlength
        exact hp (List.eq_nil_of_length_eq_zero (by omega))
      rcases graft_cases t new hbelow with hsame | ⟨-, -, hdir⟩
      · rw [hsame]
        exact h.root
      · simp [hdir]
  · intro q hq
    have hbelow : ¬dest ++ p <+: q := fun hbelow =>
      hq ((List.prefix_append dest p).trans hbelow)
    rcases graft_cases t new hbelow with hsame | ⟨habove, hnone, -⟩
    · rw [hsame]
      exact h.inside q hq
    · have hdest : q <+: dest :=
        (List.prefix_or_prefix_of_prefix habove (List.prefix_append dest p)).resolve_right hq
      obtain ⟨r, rfl⟩ := hdest
      exact absurd (t.closed q r hnone) h.root
  · intro q content
    rw [graft_file_iff hsingle, hmore, h.files, List.append_cancel_left_eq]
    refine or_congr_right (and_congr_left fun hfile => ?_)
    constructor
    · rintro hbelow rfl
      exact hbelow List.prefix_rfl
    · rintro hne hbelow
      obtain ⟨r, rfl⟩ := (List.prefix_append_right_inj dest).mp hbelow
      have hr : r ≠ [] := by
        rintro rfl
        exact hne (List.append_nil p)
      refine hnotBelow r content hr ?_
      rw [List.append_assoc]
      exact (h.files (p ++ r) content).mpr hfile
  · intro q content hfile r hr
    rcases (graft_file_iff hsingle).mp hfile with ⟨heq, -⟩ | ⟨hbelow, hold⟩
    · rw [heq, graft_append]
      exact hsingle r hr
    · have hne : dest ++ q ≠ dest ++ p := fun heq => hbelow (heq ▸ List.prefix_rfl)
      have hnot : ¬dest ++ q <+: dest ++ p := fun habove =>
        hnotAbove (dest ++ q) habove hne content hold
      have hplaceNot : ¬dest ++ p <+: dest ++ q ++ r := fun hplaceBelow =>
        (List.prefix_or_prefix_of_prefix hplaceBelow (List.prefix_append _ r)).elim hbelow hnot
      rcases graft_cases t new hplaceNot with hsame | ⟨habove, -, -⟩
      · rw [hsame]
        exact h.below q content hold r hr
      · exact absurd ((List.prefix_append _ r).trans habove) hnot

theorem lastFile_append_singleton (members : List Member) (m : Member) (q : Path) :
    lastFile (members ++ [m]) q = if m.type = .regular ∧ components m.name = q then some m.content
      else lastFile members q := by
  rw [lastFile, List.filter_append]
  split_ifs with hm
  · have hlast : [m].filter (fun m => m.type = .regular && components m.name = q) = [m] := by
      simp [hm]
    rw [hlast, List.getLast?_concat]
    rfl
  · have hlast : [m].filter (fun m => m.type = .regular && components m.name = q) = [] := by
      simpa using hm
    rw [hlast, List.append_nil]
    rfl

/-- **One member more.** -/
theorem Extracts.extractMember {m : Member} (h : Extracts dest t₀ members t)
    (htype : m.type = .regular ∨ m.type = .directory) (hm : extractMember dest t m = some t') :
    Extracts dest t₀ (members ++ [m]) t' := by
  unfold Extraction.extractMember at hm
  rcases htype with hregular | hdirectory
  · rw [if_neg (by simp [hregular])] at hm
    unfold writeFile at hm
    split_ifs at hm with hfree
    split at hm
    · cases hm
    · rename_i hplace
      cases hm
      refine h.graft (by simp [ofFile]) ?_ hfree hplace fun q content => ?_
      · exact fun r => entry_ofFile_of_ne_nil
      · rw [lastFile_append_singleton]
        by_cases hq : components m.name = q
        · simp [hregular, hq, ofFile]
        · simp [hq, Ne.symm hq]
  · have hsame : ∀ q, lastFile (members ++ [m]) q = lastFile members q := by
      intro q
      rw [lastFile_append_singleton, if_neg (by simp [hdirectory])]
    rw [if_pos hdirectory] at hm
    unfold makeDir at hm
    split_ifs at hm with hfree
    split at hm
    · cases hm
    · cases hm
      exact ⟨h.root, h.inside, fun q content => by rw [hsame, h.files], h.below⟩
    · rename_i hnone
      cases hm
      refine h.graft (by simp [ofDir]) ?_ hfree (by simp [hnone]) fun q content => ?_
      · exact fun r => entry_ofDir_of_ne_nil
      · rw [hsame, ← h.files]
        by_cases hq : q = components m.name
        · simp [hq, hnone, ofDir]
        · simp [hq, ofDir]

/-- **All members.** -/
theorem extracts_foldlM {rest : List Member}
    (htypes : ∀ m ∈ rest, m.type = .regular ∨ m.type = .directory)
    (h : Extracts dest t₀ members t)
    (hrest : rest.foldlM (extractMember dest) t = some t') :
    Extracts dest t₀ (members ++ rest) t' := by
  induction rest generalizing members t with
  | nil =>
      obtain rfl := Option.some.inj hrest
      rwa [List.append_nil]
  | cons m rest ih =>
      obtain ⟨hm, htypes⟩ := List.forall_mem_cons.mp htypes
      rw [List.foldlM_cons] at hrest
      obtain ⟨next, hnext, hrest⟩ := Option.bind_eq_some_iff.mp hrest
      have hmore := ih htypes (h.extractMember hm hnext) hrest
      rwa [List.append_assoc, List.singleton_append] at hmore

/-! ## The checksums -/

/-- Nothing has been extracted to a new directory. -/
theorem extracts_makeDir (hfresh : t.entry dest = none) (h : makeDir t dest = some t₀) :
    Extracts dest t₀ [] t₀ := by
  have hmade : t₀ = t.graft dest ofDir := by
    unfold makeDir at h
    rw [hfresh] at h
    split_ifs at h
    exact (Option.some.inj h).symm
  have hentry : ∀ q, t₀.entry (dest ++ q) = (ofDir : Tree).entry q := fun q => by
    rw [hmade, graft_append]
  have hnoFile : ∀ q content, t₀.entry (dest ++ q) ≠ some (.file content) := by
    intro q content hfile
    rw [hentry] at hfile
    cases q with
    | nil => simp [ofDir] at hfile
    | cons name q => simp [ofDir] at hfile
  refine ⟨?_, fun _ _ => rfl, fun q content => ?_, fun q content hfile => ?_⟩
  · have hroot := hentry []
    rw [List.append_nil] at hroot
    simp [hroot, ofDir]
  · exact iff_of_false (hnoFile q content) (by simp [lastFile])
  · exact absurd hfile (hnoFile q content)

/-- **What a manifest that is returned makes sure of.** -/
theorem extractBackup_spec {manifest : Loaded} (hfresh : t.entry dest = none)
    (h : extractBackup machine dest members t = some (manifest, t')) :
    ∃ t₀ content checksums, makeDir t dest = some t₀ ∧ Extracts dest t₀ members t' ∧
      lastFile members [manifestName] = some content ∧ machine.loads content = some manifest ∧
      manifest.checksums = some checksums ∧ ∀ relpath expected,
        checksums.lookup relpath = some expected →
          checksumOk machine dest t' relpath expected = true := by
  obtain ⟨t₀, hmade, h⟩ := Option.bind_eq_some_iff.mp h
  obtain ⟨m, -, h⟩ := Option.bind_eq_some_iff.mp h
  split_ifs at h
  obtain ⟨first, -, h⟩ := Option.bind_eq_some_iff.mp h
  split_ifs at h
  obtain ⟨result, hscan, h⟩ := Option.bind_eq_some_iff.mp h
  unfold scanAndExtract at hscan
  dsimp only at hscan
  split_ifs at hscan with hrejected
  have htypes : ∀ m ∈ members, m.type = .regular ∨ m.type = .directory := by
    intro m hm
    have haccepted : rejectsMember dest m = false := by
      rw [Bool.eq_false_iff]
      intro hreject
      exact hrejected (by simp [List.any_eq_true.mpr ⟨m, hm, hreject⟩])
    cases htype : m.type with
    | regular => exact Or.inl rfl
    | directory => exact Or.inr rfl
    | link => simp [rejectsMember, htype] at haccepted
    | special => simp [rejectsMember, htype] at haccepted
  have hextracts := extracts_foldlM htypes (extracts_makeDir hfresh hmade) hscan
  rw [List.nil_append] at hextracts
  split at h
  · rename_i content hcontent
    obtain ⟨loaded, hloaded, h⟩ := Option.bind_eq_some_iff.mp h
    obtain ⟨checksums, hchecksums, h⟩ := Option.bind_eq_some_iff.mp h
    split_ifs at h with hall
    cases h
    refine ⟨t₀, content, checksums, hmade, hextracts,
      (hextracts.files [manifestName] content).mp hcontent, hloaded, hchecksums, ?_⟩
    intro relpath expected hlookup
    exact List.all_eq_true.mp hall ⟨relpath, expected⟩ (AList.mem_lookup_iff.mp hlookup)
  · cases h

/-- What the check of one path says. -/
theorem checksumOk_iff {relpath : Str} {expected : Option Str} :
    checksumOk machine dest t relpath expected = true ↔
      ∃ p content, candidate dest t relpath = some p ∧ t.entry p = some (.file content) ∧
        expected = some (machine.sha256 content) := by
  unfold checksumOk
  cases hcandidate : candidate dest t relpath with
  | none => simp
  | some p =>
      cases hentry : t.entry p with
      | none => simp [hentry]
      | some entry =>
          cases entry with
          | dir => simp [hentry]
          | file content => simp [hentry]

/-- **When a manifest vouches for everything that was extracted**: exactly if it lists every regular
member but itself. -/
theorem vouched_iff {manifest : Loaded} (hfresh : t.entry dest = none)
    (h : extractBackup machine dest members t = some (manifest, t')) :
    Vouched machine dest t manifest t' ↔ Listed machine dest members := by
  obtain ⟨t₀, content, checksums, hmade, hextracts, hcontent, hloads, hchecksums, hall⟩ :=
    extractBackup_spec hfresh h
  constructor
  · intro hvouched m hm htype hname
    -- the last member of this path is on disk
    have hlast : ∃ last, lastFile members (components m.name) = some last := by
      have hmem : m ∈ members.filter fun m' =>
          m'.type = .regular && components m'.name = components m.name := by
        simp [hm, htype]
      rw [lastFile]
      exact ⟨_, congrArg (Option.map _) (List.getLast?_eq_some_getLast (List.ne_nil_of_mem hmem))⟩
    obtain ⟨last, hlast⟩ := hlast
    obtain ⟨listed, relpath, hlisted, hcandidate, hlookup⟩ :=
      hvouched.listed _ last ((hextracts.files _ last).mpr hlast) hname
    obtain rfl : checksums = listed := Option.some.inj (hchecksums.symm.trans hlisted)
    refine ⟨content, manifest, checksums, hcontent, hloads, hchecksums, relpath, ?_, ?_⟩
    · exact AList.lookup_isSome.mp (by rw [hlookup]; rfl)
    · exact (walk_eq_normpath hcandidate).symm
  · intro hlisted
    refine ⟨fun q hq => ?_, fun q file hfile hname => ?_⟩
    · rw [hmade, hextracts.inside q hq]
      rfl
    · have hlast := (hextracts.files q file).mp hfile
      obtain ⟨m, hgetLast, -⟩ := Option.map_eq_some_iff.mp hlast
      have hmem := List.mem_of_getLast? hgetLast
      simp only [List.mem_filter, Bool.and_eq_true, decide_eq_true_eq] at hmem
      obtain ⟨hm, htype, rfl⟩ := hmem
      obtain ⟨content', manifest', checksums', hcontent', hloads', hchecksums', relpath, hkey,
        hpath⟩ := hlisted m hm htype hname
      obtain rfl : content = content' := Option.some.inj (hcontent.symm.trans hcontent')
      obtain rfl : manifest = manifest' := Option.some.inj (hloads.symm.trans hloads')
      obtain rfl : checksums = checksums' := Option.some.inj (hchecksums.symm.trans hchecksums')
      obtain ⟨expected, hlookup⟩ := Option.isSome_iff_exists.mp (AList.lookup_isSome.mpr hkey)
      obtain ⟨p, actual, hcandidate, hentry, hexpected⟩ :=
        checksumOk_iff.mp (hall relpath expected hlookup)
      obtain rfl : p = dest ++ components m.name := (walk_eq_normpath hcandidate).trans hpath
      obtain rfl : actual = file := by simpa [hfile] using hentry.symm
      exact ⟨checksums, relpath, hchecksums, hcandidate, hexpected ▸ hlookup⟩

/-- **`restore_backup` installs what the manifest vouches for**: a file below one of the paths that
it replaces is a file that has been extracted. -/
theorem installed_vouched {manifest : Loaded} {archive : Extracted Bytes} {effective : Components}
    (htree : archive.tree = t'.subtree dest) (h : Vouched machine dest t manifest t')
    {live q : Path} (_hlive : live ∈ restorePaths effective archive) {content : Bytes}
    (hfile : (archive.tree.subtree live).entry q = some (.file content))
    (hname : live ++ q ≠ [manifestName]) :
    ∃ checksums relpath, manifest.checksums = some checksums ∧
      candidate dest t' relpath = some (dest ++ (live ++ q)) ∧
      checksums.lookup relpath = some (some (machine.sha256 content)) := by
  rw [htree] at hfile
  exact h.listed (live ++ q) content hfile hname

/-! ## Two archives -/

/-- A manifest with nothing but what is required. -/
def shortManifest (checksums : Dict Str (Option Str)) : Loaded :=
  .object (((((∅ : Dict Str Item).insert "backup_format_version".toList .other).insert
    "alderpointdns_app_version".toList .other).insert "created_at".toList .other).insert
    "included_components".toList .other |>.insert "sha256_checksums".toList (.object checksums))

theorem shortManifest_checksums (checksums : Dict Str (Option Str)) :
    (shortManifest checksums).checksums = some checksums := by
  simp only [shortManifest, Loaded.checksums, AList.lookup_insert]

theorem shortManifest_hasKey (checksums : Dict Str (Option Str)) :
    requiredManifestKeys.all (shortManifest checksums).hasKey = true := by
  simp only [requiredManifestKeys, shortManifest, Loaded.hasKey, Dict.lookup_insert', List.map_cons,
    List.map_nil, List.all_cons, List.all_nil, String.toList_inj, String.reduceEq, if_true,
    if_false, Option.isSome_some, Bool.and_true]

def manifestMember (content : Bytes) : Member where
  name := manifestName
  type := .regular
  content := content

def sudoersMember : Member where
  name := "etc/sudoers.d/alderpointdns".toList
  type := .regular
  content := []

/-- A machine that has such a manifest to read, and knows the checksum of an empty file. -/
def readsManifest (checksums : Dict Str (Option Str)) : Machine where
  sha256 _ := "e3b0c44298fc1c149afbf4c8996fb92427ae41e4649b934ca495991b7852b855".toList
  loads _ := some (shortManifest checksums)
  maxExtractedBytes := 2147483648
  hasFreeSpace _ := true

theorem le_maxExtractedBytes {n : ℕ} (h : n ≤ 300) (checksums : Dict Str (Option Str)) :
    n ≤ (readsManifest checksums).maxExtractedBytes := by
  show n ≤ 2147483648
  omega

def extractDir : Path := ["extract".toList]

/-- The manifest, and a file that goes to `/etc/sudoers.d`. -/
def sudoersArchive (content : Bytes) : List Member := [manifestMember content, sudoersMember]

/-- What is then on disk. -/
def sudoersTree (content : Bytes) : Tree :=
  ((empty.graft extractDir ofDir).graft (extractDir ++ [manifestName])
    (ofFile content)).graft (extractDir ++ sudoersFile) (ofFile [])

theorem components_sudoers : components manifestName = [manifestName] ∧
    components sudoersMember.name = sudoersFile := by
  decide +kernel

theorem sudoersFile_ne_manifest : sudoersFile ≠ [manifestName] := by
  intro h
  exact absurd (congrArg List.length h) (by decide)

theorem apart_sudoers : Apart (extractDir ++ [manifestName]) (extractDir ++ sudoersFile) := by
  have hname : manifestName ≠ "etc".toList := by
    unfold manifestName
    rw [Ne, String.toList_inj]
    simp
  unfold Apart sudoersFile
  rw [List.prefix_append_right_inj, List.prefix_append_right_inj, List.map_cons,
    List.cons_prefix_cons, List.cons_prefix_cons]
  exact ⟨fun h => hname h.1, fun h => hname h.1.symm⟩

/-- What a file leaves that can be written. -/
theorem writeFile_eq_graft {p : Path} {content : Bytes} (hfree : parentsFree t p = true)
    (hnone : t.entry p = none) : writeFile t p content = some (t.graft p (ofFile content)) := by
  rw [writeFile, if_pos hfree, hnone]

theorem entry_sudoersFile (content : Bytes) :
    (sudoersTree content).entry (extractDir ++ sudoersFile) = some (.file []) := by
  rw [sudoersTree, graft_self]
  rfl

theorem entry_manifest (content : Bytes) :
    (sudoersTree content).entry (extractDir ++ [manifestName]) = some (.file content) := by
  rw [sudoersTree, graft_of_apart apart_sudoers.symm, graft_self]
  rfl

theorem foldlM_sudoers (content : Bytes) :
    (sudoersArchive content).foldlM (extractMember extractDir) (empty.graft extractDir ofDir)
      = some (sudoersTree content) := by
  have hmanifest : extractMember extractDir (empty.graft extractDir ofDir) (manifestMember content)
      = some ((empty.graft extractDir ofDir).graft (extractDir ++ [manifestName])
        (ofFile content)) := by
    rw [extractMember, if_neg (by simp [manifestMember])]
    show writeFile _ (extractDir ++ components manifestName) content = _
    rw [components_sudoers.1]
    exact writeFile_eq_graft (by decide +kernel) (by decide +kernel)
  have hsudoers : extractMember extractDir ((empty.graft extractDir ofDir).graft
      (extractDir ++ [manifestName]) (ofFile content)) sudoersMember
        = some (sudoersTree content) := by
    rw [extractMember, if_neg (by decide), components_sudoers.2]
    refine writeFile_eq_graft (parentsFree_iff.mpr fun q hq _ file hfile => ?_) ?_
    · rcases (graft_file_iff fun r => entry_ofFile_of_ne_nil).mp hfile with ⟨rfl, -⟩ | ⟨-, hdir⟩
      · exact apart_sudoers.1 hq
      · rcases (graft_file_iff fun r => entry_ofDir_of_ne_nil).mp hdir with ⟨-, hdir⟩ | ⟨-, hempty⟩
        · cases hdir
        · cases hempty
    · rw [graft_of_apart apart_sudoers, graft_append]
      rfl
  rw [sudoersArchive, List.foldlM_cons, hmanifest, Option.bind_eq_bind, Option.bind_some,
    List.foldlM_cons, hsudoers]
  rfl

theorem scanAndExtract_sudoers {content : Bytes} {checksums : Dict Str (Option Str)}
    (hlength : content.length ≤ (readsManifest checksums).maxExtractedBytes) :
    scanAndExtract (readsManifest checksums) extractDir (sudoersArchive content)
      (empty.graft extractDir ofDir) = some (sudoersTree content) := by
  have haccepted : (sudoersArchive content).any (rejectsMember extractDir) = false := by
    have hmanifest : rejectsMember extractDir (manifestMember content)
        = rejectsMember extractDir (manifestMember []) := rfl
    rw [sudoersArchive, List.any_cons, hmanifest]
    decide +kernel
  have hsize : (((sudoersArchive content).filter (·.type = .regular)).map
      (·.content.length)).sum = content.length := by
    have hregular : (sudoersArchive content).filter (·.type = .regular)
        = sudoersArchive content := rfl
    rw [hregular]
    rfl
  have hfits : decide ((readsManifest checksums).maxExtractedBytes < content.length) = false := by
    rw [decide_eq_false_iff_not, Nat.not_lt]
    exact hlength
  have hspace : (readsManifest checksums).hasFreeSpace content.length = true := rfl
  unfold scanAndExtract
  simp only [hsize, haccepted, hfits, hspace, Bool.or_self, Bool.not_true, Bool.false_eq_true,
    if_false]
  exact foldlM_sudoers content

theorem getmember_sudoersArchive (content : Bytes) :
    getmember (sudoersArchive content) "manifest.json" = some (manifestMember content) := by
  have hother : ¬sudoersMember.name = "manifest.json".toList := by
    show ¬"etc/sudoers.d/alderpointdns".toList = _
    rw [String.toList_inj]
    simp
  have hreverse : (sudoersArchive content).reverse = [sudoersMember, manifestMember content] := by
    simp [sudoersArchive]
  have hmanifest : (manifestMember content).name = "manifest.json".toList := rfl
  rw [getmember, hreverse, List.find?_cons, decide_eq_false hother, List.find?_cons,
    decide_eq_true hmanifest]

/-- What becomes of the archive is up to the checksums. -/
theorem extractBackup_sudoers {content : Bytes} {checksums : Dict Str (Option Str)}
    (hlength : content.length ≤ (readsManifest checksums).maxExtractedBytes)
    (hall : (checksums.entries.all fun item => checksumOk (readsManifest checksums) extractDir
      (sudoersTree content) item.1 item.2) = true) :
    extractBackup (readsManifest checksums) extractDir (sudoersArchive content) empty
      = some (shortManifest checksums, sudoersTree content) := by
  have hmade : makeDir (empty : Tree) extractDir = some (empty.graft extractDir ofDir) := by
    have hfree : parentsFree empty extractDir = true :=
      parentsFree_iff.mpr fun q _ _ content hfile => by cases hfile
    rw [makeDir, if_pos hfree]
    rfl
  have hmember := getmember_sudoersArchive content
  have hregular : (manifestMember content).type = .regular := by simp only [manifestMember]
  have hloads : ∀ bytes, (readsManifest checksums).loads bytes = some (shortManifest checksums) :=
    fun _ => rfl
  simp only [extractBackup, hmade, Option.bind_eq_bind, Option.bind_some, hmember, hregular, hloads,
    ne_eq, not_true_eq_false, if_false, shortManifest_hasKey, if_true,
    scanAndExtract_sudoers hlength, entry_manifest, shortManifest_checksums, hall,
    Option.orElse_eq_orElse, Option.orElse_some]

/-- The bytes of an ASCII text. -/
def ascii (text : Str) : Bytes := text.map fun c => UInt8.ofNat c.toNat

/-- The text of a manifest, up to its checksums. -/
def manifestText (checksums : Str) : Bytes :=
  ascii ("\x7b\"backup_format_version\": 1, \"alderpointdns_app_version\": \"\", ".toList ++
    "\"created_at\": \"\", \"included_components\": [\"app_config\"], ".toList ++
    "\"sha256_checksums\": ".toList ++ checksums ++ "\x7d".toList)

theorem length_manifestText (checksums : Str) :
    (manifestText checksums).length = checksums.length + 140 := by
  rw [manifestText, ascii, List.length_map, String.toList_ofList, String.toList_ofList,
    String.toList_ofList, String.toList_ofList]
  simp only [List.length_append, List.length_cons, List.length_nil]
  omega

/-- **The rule for sudo is not listed, and it is installed.** -/
theorem unlisted_sudoers :
    extractBackup (readsManifest ∅) extractDir (sudoersArchive (manifestText "\x7b\x7d".toList))
        empty = some (shortManifest ∅, sudoersTree (manifestText "\x7b\x7d".toList)) ∧
      (sudoersTree (manifestText "\x7b\x7d".toList)).entry (extractDir ++ sudoersFile)
        = some (.file []) ∧
      ¬Vouched (readsManifest ∅) extractDir empty (shortManifest ∅)
        (sudoersTree (manifestText "\x7b\x7d".toList)) := by
  have hlength : (manifestText "\x7b\x7d".toList).length
      ≤ (readsManifest ∅).maxExtractedBytes := by
    refine le_maxExtractedBytes ?_ ∅
    have htext : "\x7b\x7d".toList.length = 2 := by
      rw [String.toList_ofList]
      rfl
    rw [length_manifestText, htext]
    omega
  refine ⟨extractBackup_sudoers hlength rfl, entry_sudoersFile _, fun hvouched => ?_⟩
  obtain ⟨checksums, relpath, hchecksums, -, hlookup⟩ :=
    hvouched.listed _ _ (entry_sudoersFile _) sudoersFile_ne_manifest
  rw [shortManifest_checksums] at hchecksums
  obtain rfl := Option.some.inj hchecksums
  cases hlookup

/-- The checksum of the rule. -/
def sudoersChecksum : Dict Str (Option Str) :=
  (∅ : Dict Str (Option Str)).insert sudoersMember.name (some ((readsManifest ∅).sha256 []))

/-- The same as a text. -/
def sudoersChecksumText : Str :=
  "\x7b\"etc/sudoers.d/alderpointdns\": ".toList ++
    "\"e3b0c44298fc1c149afbf4c8996fb92427ae41e4649b934ca495991b7852b855\"\x7d".toList

theorem length_sudoersChecksumText : sudoersChecksumText.length = 99 := by
  have hname : "\x7b\"etc/sudoers.d/alderpointdns\": ".toList.length = 32 := by
    rw [String.toList_ofList]
    rfl
  have hsum : ("\"e3b0c44298fc1c149afbf4c8996fb92427ae41e4649b934ca495991b7852b855\"\x7d".toList
      : Str).length = 67 := by
    rw [String.toList_ofList]
    rfl
  unfold sudoersChecksumText
  exact List.length_append.trans (congrArg₂ (· + ·) hname hsum)

/-- **Here it is listed.** -/
theorem vouched_sudoers :
    Vouched (readsManifest sudoersChecksum) extractDir empty (shortManifest sudoersChecksum)
      (sudoersTree (manifestText sudoersChecksumText)) := by
  have hlength : (manifestText sudoersChecksumText).length
      ≤ (readsManifest sudoersChecksum).maxExtractedBytes := by
    refine le_maxExtractedBytes ?_ sudoersChecksum
    rw [length_manifestText, length_sudoersChecksumText]
    omega
  have hwalk : candidate extractDir (sudoersTree (manifestText sudoersChecksumText))
      sudoersMember.name = some (extractDir ++ sudoersFile) := by
    have hbase : base extractDir sudoersMember.name = extractDir := by
      unfold sudoersMember
      rw [String.toList_ofList]
      rfl
    have hnames : ∀ name ∈ sudoersFile, name ≠ up := by
      simp [sudoersFile, up]
    rw [candidate, hbase, components_sudoers.2, walk_of_forall_ne hnames]
  have hall : (sudoersChecksum.entries.all fun item => checksumOk (readsManifest sudoersChecksum)
      extractDir (sudoersTree (manifestText sudoersChecksumText)) item.1 item.2) = true := by
    have hitems : sudoersChecksum.entries
        = [⟨sudoersMember.name, some ((readsManifest ∅).sha256 [])⟩] := rfl
    rw [hitems, List.all_cons, List.all_nil, Bool.and_true]
    exact checksumOk_iff.mpr ⟨_, [], hwalk, entry_sudoersFile _, rfl⟩
  refine (vouched_iff rfl (extractBackup_sudoers hlength hall)).mpr fun m hm htype hname => ?_
  rcases List.mem_pair.mp hm with rfl | rfl
  · exact absurd components_sudoers.1 hname
  · have hlast : lastFile (sudoersArchive (manifestText sudoersChecksumText)) [manifestName]
        = some (manifestText sudoersChecksumText) := by
      have hother : ¬components sudoersMember.name = [manifestName] := by
        rw [components_sudoers.2]
        exact sudoersFile_ne_manifest
      rw [sudoersArchive, lastFile, List.filter_cons_of_pos, List.filter_cons_of_neg]
      · rfl
      · simp [hother]
      · rw [Bool.and_eq_true]
        exact ⟨rfl, decide_eq_true components_sudoers.1⟩
    have hlisted : sudoersMember.name ∈ sudoersChecksum := by
      rw [sudoersChecksum, AList.mem_insert]
      exact Or.inl rfl
    refine ⟨_, shortManifest sudoersChecksum, sudoersChecksum, hlast, rfl,
      shortManifest_checksums _, sudoersMember.name, hlisted, ?_⟩
    rw [components_sudoers.2]
    exact (walk_eq_normpath hwalk).symm

end AlderpointDNS.Backup.Extraction
