import AlderpointDNS.LocalDns.Zones

/-!
# The deployment of the local zones

`deploy_zones` replaces the live zone files one by one and restores them when a later step raises.
A call that raises is described by the point at which it does (`RaisePoint`); each file operation
is one step, except that the text of `named.conf.local` is written after the file has been emptied.

* `liveAt` — the live files where the call raises;
* `liveAfter` — the live files after the handler;
* **`restored_iff`** — when they are what they were before the call;
* `zones_not_restored` — two calls that raise and leave the live files changed.

Not modelled: the database row of the deployment, and what the server has loaded.
-/

namespace AlderpointDNS.LocalDns

open Text

/-! ## Live files -/

/-- The files of a directory. -/
abbrev Directory := Dict Str Str

/-- `LOCAL_ZONE_DIR`, `LOCAL_ZONES_CONF` and `NAMED_LOCAL_CONF`, where they exist. -/
structure LiveZones where
  zoneDir : Option Directory
  zonesConf : Option Str
  namedConf : Option Str

/-- The same files with the same texts. -/
structure LiveZones.Same (a b : LiveZones) : Prop where
  exists_dir : a.zoneDir.isSome = b.zoneDir.isSome
  zoneDir : ∀ name, (a.zoneDir.bind (·.lookup name)) = b.zoneDir.bind (·.lookup name)
  zonesConf : a.zonesConf = b.zonesConf
  namedConf : a.namedConf = b.namedConf

/-- `path.glob("*.zone")`. -/
def isZoneName (name : Str) : Bool := endsWith name ".zone".toList

/-- The zone files of a directory, in the order in which they are listed. -/
def oldZones (dir : Directory) : List Str := dir.keys.filter isZoneName

/-- `for old in …: old.unlink()`. -/
def unlinkAll (dir : Directory) (names : List Str) : Directory :=
  names.foldl (fun dir name => dir.erase name) dir

/-- `for zone in zones: os.replace(…)`. -/
def moveIn (dir : Directory) (files : List ZoneFile) : Directory :=
  files.foldl (fun dir z => dir.insert z.fileName z.text) dir

/-- `render_include`. -/
def renderInclude (files : List ZoneFile) : Str :=
  join ['\n'] (["// Managed by Alderpoint DNS Local DNS. Do not edit by hand.".toList, []]
    ++ files.flatMap fun z =>
      ["zone \"".toList ++ z.zone ++ "\" \x7b".toList,
       "\ttype primary;".toList,
       "\tfile \"/var/lib/alderpointdns/compiled/bind/local/".toList ++ z.fileName ++ "\";".toList,
       "\tallow-query \x7b \"alderpointdns_clients\"; localhost; \x7d;".toList,
       "\tallow-transfer \x7b none; \x7d;".toList,
       "\x7d;".toList,
       []])

/-- `include_line`. -/
def includeLine : Str :=
  "include \"/var/lib/alderpointdns/compiled/bind/local-zones.conf\";".toList

/-- The text that `ensure_named_include` writes, unless the line is there. -/
def includedText (current : Option Str) : Option Str :=
  if isSubstring includeLine (current.getD []) then none
  else some ((current.getD []).rdropWhile isSpace ++ "\n\n".toList ++ includeLine ++ ['\n'])

/-! ## Where the call raises -/

/-- How far `ensure_named_include` got. -/
inductive IncludeWrite where
  | untouched
  | emptied
  | written
  deriving DecidableEq

/-- Where `deploy_zones` raises. -/
inductive RaisePoint where
  /-- before the live directory is made: zones, their checks, backups -/
  | staging
  /-- while the old zone files are unlinked -/
  | clearing (unlinked : ℕ)
  /-- while the new files are moved in, `local-zones.conf` as the last -/
  | moving (moved : ℕ)
  /-- after all files were moved in: the include, the checks, the server -/
  | activating (named : IncludeWrite)
  /-- in the `finally` of a deployment without an error -/
  | recording

/-- `named.conf.local` where `ensure_named_include` got so far. -/
def writeInclude (current : Option Str) : IncludeWrite → Option Str
  | .untouched => current
  | .emptied => (includedText current).elim current fun _ => some []
  | .written => (includedText current).elim current some

/-- The directory with `k` old zone files unlinked. -/
def cleared (live : LiveZones) (k : ℕ) : Directory :=
  let dir := live.zoneDir.getD ∅
  unlinkAll dir ((oldZones dir).take k)

/-- The directory with all old zone files unlinked and `k` files moved in. -/
def moved (live : LiveZones) (files : List ZoneFile) (k : ℕ) : Directory :=
  let dir := live.zoneDir.getD ∅
  moveIn (unlinkAll dir (oldZones dir)) (files.take k)

/-- All files moved in. -/
def installedZones (live : LiveZones) (files : List ZoneFile) (named : IncludeWrite) : LiveZones :=
  { zoneDir := some (moved live files files.length)
    zonesConf := some (renderInclude files)
    namedConf := writeInclude live.namedConf named }

/-- The live files where the call raises. -/
def liveAt (live : LiveZones) (files : List ZoneFile) : RaisePoint → LiveZones
  | .staging => live
  | .clearing k => { live with zoneDir := some (cleared live k) }
  | .moving k => { live with zoneDir := some (moved live files k) }
  | .activating named => installedZones live files named
  | .recording => installedZones live files .written

/-- `installed`, where the handler runs. -/
def RaisePoint.installed : RaisePoint → Bool
  | .staging | .clearing _ | .moving _ => false
  | .activating _ => true
  -- the error comes after the handler
  | .recording => false

/-- `backup.exists()`: something was there to copy. -/
def hasBackup (live : LiveZones) : Bool :=
  live.zoneDir.isSome || live.zonesConf.isSome || live.namedConf.isSome

/-- The restore of the handler, from the copies of `backup`. -/
def restoreZones (backup now : LiveZones) : LiveZones :=
  { zoneDir := backup.zoneDir
    zonesConf := backup.zonesConf
    namedConf := if backup.namedConf.isSome then backup.namedConf else now.namedConf }

/-- The live files after the call has raised. -/
def liveAfter (live : LiveZones) (files : List ZoneFile) (point : RaisePoint) : LiveZones :=
  if point.installed && hasBackup live then restoreZones live (liveAt live files point)
  else liveAt live files point

/-! ## Directories -/

theorem lookup_unlinkAll (dir : Directory) (names : List Str) (name : Str) :
    (unlinkAll dir names).lookup name = if name ∈ names then none else dir.lookup name := by
  induction names generalizing dir with
  | nil => simp [unlinkAll]
  | cons n names ih =>
      rw [unlinkAll, List.foldl_cons, ← unlinkAll, ih, Dict.lookup_erase']
      by_cases hn : n = name
      · simp [hn]
      · simp [hn, Ne.symm hn]

/-- Files moved in hide the files that were there. -/
theorem lookup_moveIn (dir : Directory) (files : List ZoneFile) (name : Str) :
    (moveIn dir files).lookup name = ((moveIn ∅ files).lookup name).or (dir.lookup name) := by
  induction files using List.reverseRecOn with
  | nil => simp [moveIn]
  | append_singleton files z ih =>
      simp only [moveIn, List.foldl_append, List.foldl_cons, List.foldl_nil] at ih ⊢
      rw [Dict.lookup_insert', Dict.lookup_insert', ih]
      split_ifs
      · rfl
      · rfl

theorem isZoneName_fileName (z : ZoneFile) : isZoneName z.fileName = true := by
  simp [isZoneName, ZoneFile.fileName]

theorem lookup_moveIn_empty {files : List ZoneFile} {name : Str} (h : isZoneName name = false) :
    (moveIn ∅ files).lookup name = none := by
  induction files using List.reverseRecOn with
  | nil => simp [moveIn]
  | append_singleton files z ih =>
      simp only [moveIn, List.foldl_append, List.foldl_cons, List.foldl_nil] at ih ⊢
      rw [Dict.lookup_insert', ih, if_neg]
      rintro rfl
      rw [isZoneName_fileName] at h
      cases h

theorem mem_oldZones {dir : Directory} {name : Str} :
    name ∈ oldZones dir ↔ (dir.lookup name).isSome = true ∧ isZoneName name = true := by
  rw [oldZones, List.mem_filter, Dict.mem_keys_iff]

/-- **Among the zone files only those moved in are left; the other files stay.** -/
theorem lookup_moved (live : LiveZones) (files : List ZoneFile) (k : ℕ) (name : Str) :
    (moved live files k).lookup name =
      if isZoneName name then (moveIn ∅ (files.take k)).lookup name
      else live.zoneDir.bind (·.lookup name) := by
  have hdir : (live.zoneDir.getD ∅).lookup name = live.zoneDir.bind (·.lookup name) := by
    cases live.zoneDir <;> simp
  simp only [moved]
  rw [lookup_moveIn, lookup_unlinkAll]
  by_cases hname : isZoneName name = true
  · have hgone : (if name ∈ oldZones (live.zoneDir.getD ∅) then none
        else (live.zoneDir.getD ∅).lookup name) = none := by
      split_ifs with hmem
      · rfl
      · rw [mem_oldZones, not_and'] at hmem
        exact Option.not_isSome_iff_eq_none.mp (hmem hname)
    rw [hgone, if_pos hname, Option.or_none]
  · have hmem : name ∉ oldZones (live.zoneDir.getD ∅) := fun h => hname (mem_oldZones.mp h).2
    rw [if_neg hmem, if_neg hname, lookup_moveIn_empty (Bool.eq_false_iff.mpr hname),
      Option.none_or, hdir]

/-! ## What is restored -/

/-- When a raising call leaves the live files as they were. -/
def Restored (live : LiveZones) (files : List ZoneFile) : RaisePoint → Prop
  | .staging => True
  | .clearing k => ∃ dir, live.zoneDir = some dir ∧ (k = 0 ∨ oldZones dir = [])
  | .moving k => ∃ dir, live.zoneDir = some dir ∧ ∀ name, isZoneName name = true →
      dir.lookup name = (moveIn ∅ (files.take k)).lookup name
  | .activating named => hasBackup live = true ∧ (live.namedConf.isSome = true ∨ named = .untouched)
  | .recording => (∃ dir, live.zoneDir = some dir ∧ ∀ name, isZoneName name = true →
        dir.lookup name = (moveIn ∅ files).lookup name)
      ∧ live.zonesConf = some (renderInclude files)
      ∧ ∃ text, live.namedConf = some text ∧ isSubstring includeLine text = true

theorem LiveZones.Same.refl (live : LiveZones) : live.Same live := ⟨rfl, fun _ => rfl, rfl, rfl⟩

theorem moved_same_iff (live : LiveZones) (files : List ZoneFile) (k : ℕ) :
    (∀ name, (some (moved live files k)).bind (·.lookup name)
        = live.zoneDir.bind (·.lookup name))
      ↔ ∀ name, isZoneName name = true →
        live.zoneDir.bind (·.lookup name) = (moveIn ∅ (files.take k)).lookup name := by
  refine forall_congr' fun name => ?_
  rw [Option.bind_some, lookup_moved]
  by_cases hname : isZoneName name = true
  · rw [if_pos hname]
    exact ⟨fun h _ => h.symm, fun h => (h hname).symm⟩
  · rw [if_neg hname]
    exact ⟨fun _ h => absurd h hname, fun _ => rfl⟩

/-- The text that is written has the include line. -/
theorem isSubstring_of_includedText {current : Option Str} {text : Str}
    (h : includedText current = some text) : isSubstring includeLine text = true := by
  rw [includedText] at h
  split_ifs at h
  cases h
  rw [isSubstring_iff]
  exact ⟨(current.getD []).rdropWhile isSpace ++ "\n\n".toList, ['\n'], rfl⟩

/-- Without `named.conf.local` the line is missing. -/
theorem includedText_none : ∃ text, includedText none = some text := ⟨_, rfl⟩

theorem writeInclude_none_iff (named : IncludeWrite) :
    writeInclude none named = none ↔ named = .untouched := by
  obtain ⟨text, htext⟩ := includedText_none
  cases named with
  | untouched => simp [writeInclude]
  | emptied => simp [writeInclude, htext]
  | written => simp [writeInclude, htext]

/-- **The written file is the old one only if the line was there.** -/
theorem writeInclude_written_iff (current : Option Str) :
    writeInclude current .written = current
      ↔ ∃ text, current = some text ∧ isSubstring includeLine text = true := by
  cases hinc : includedText current with
  | none =>
      have hline : isSubstring includeLine (current.getD []) = true := by
        rw [includedText] at hinc
        split_ifs at hinc with h
        exact h
      cases current with
      | none =>
          obtain ⟨text, htext⟩ := includedText_none
          rw [htext] at hinc
          cases hinc
      | some text => simpa [writeInclude, hinc] using hline
  | some text =>
      rw [writeInclude, hinc, Option.elim_some]
      constructor
      · intro h
        exact ⟨text, h.symm, isSubstring_of_includedText hinc⟩
      · rintro ⟨old, rfl, hold⟩
        rw [includedText, Option.getD_some, if_pos hold] at hinc
        cases hinc

theorem installedZones_same_iff (live : LiveZones) (files : List ZoneFile) :
    (installedZones live files .written).Same live
      ↔ Restored live files .recording := by
  have hzones := moved_same_iff live files files.length
  rw [List.take_length] at hzones
  constructor
  · intro h
    obtain ⟨dir, hdir⟩ := Option.isSome_iff_exists.mp h.exists_dir.symm
    refine ⟨⟨dir, hdir, fun name hname => ?_⟩, h.zonesConf.symm,
      (writeInclude_written_iff _).mp h.namedConf⟩
    have hname' := hzones.mp h.zoneDir name hname
    rwa [hdir, Option.bind_some] at hname'
  · rintro ⟨⟨dir, hdir, hnames⟩, hconf, hnamed⟩
    refine ⟨by rw [hdir]; rfl, hzones.mpr fun name hname => ?_, hconf.symm,
      (writeInclude_written_iff _).mpr hnamed⟩
    rw [hdir, Option.bind_some]
    exact hnames name hname

/-- A directory that is made is not the same as none. -/
theorem same_zoneDir_iff (live : LiveZones) (dir : Directory) :
    ({ live with zoneDir := some dir } : LiveZones).Same live
      ↔ live.zoneDir.isSome = true ∧
        ∀ name, dir.lookup name = live.zoneDir.bind (·.lookup name) :=
  ⟨fun h => ⟨h.exists_dir.symm, h.zoneDir⟩, fun h => ⟨h.1.symm, h.2, rfl, rfl⟩⟩

/-- **While the old files are unlinked nothing is lost only if there is nothing to unlink.** -/
theorem cleared_same_iff (live : LiveZones) (files : List ZoneFile) (k : ℕ) :
    ({ live with zoneDir := some (cleared live k) } : LiveZones).Same live
      ↔ Restored live files (.clearing k) := by
  rw [same_zoneDir_iff]
  constructor
  · rintro ⟨hsome, hsame⟩
    obtain ⟨dir, hdir⟩ := Option.isSome_iff_exists.mp hsome
    refine ⟨dir, hdir, ?_⟩
    cases k with
    | zero => exact Or.inl rfl
    | succ k =>
        right
        cases hold : oldZones dir with
        | nil => rfl
        | cons name names =>
            -- the first zone file is gone
            have hthere : (dir.lookup name).isSome = true :=
              (mem_oldZones.mp (hold ▸ List.mem_cons_self)).1
            have hgone : (cleared live (k + 1)).lookup name = none := by
              simp only [cleared, hdir, Option.getD_some]
              rw [lookup_unlinkAll, hold, List.take_succ_cons, if_pos List.mem_cons_self]
            rw [hsame name, hdir, Option.bind_some] at hgone
            rw [hgone] at hthere
            cases hthere
  · rintro ⟨dir, hdir, hnone⟩
    refine ⟨by rw [hdir]; rfl, fun name => ?_⟩
    have hkeep : (oldZones dir).take k = [] := by
      rcases hnone with rfl | hnil
      · rfl
      · rw [hnil, List.take_nil]
    simp only [cleared, hdir, Option.getD_some, Option.bind_some]
    rw [hkeep]
    rfl

theorem moved_dir_same_iff (live : LiveZones) (files : List ZoneFile) (k : ℕ) :
    ({ live with zoneDir := some (moved live files k) } : LiveZones).Same live
      ↔ Restored live files (.moving k) := by
  have hzones := moved_same_iff live files k
  rw [same_zoneDir_iff]
  constructor
  · rintro ⟨hsome, hsame⟩
    obtain ⟨dir, hdir⟩ := Option.isSome_iff_exists.mp hsome
    rw [hdir] at hzones
    exact ⟨dir, hdir, hzones.mp fun name => by rw [Option.bind_some, hsame name, hdir]⟩
  · rintro ⟨dir, hdir, hnames⟩
    rw [hdir] at hzones ⊢
    exact ⟨rfl, fun name => by simpa using hzones.mpr hnames name⟩

/-- **Once everything is installed the copies are put back; without `named.conf.local` there is no
copy of it, and the new file stays.** -/
theorem restored_same_iff (live : LiveZones) (files : List ZoneFile) (named : IncludeWrite) :
    (liveAfter live files (.activating named)).Same live
      ↔ Restored live files (.activating named) := by
  cases hbackup : hasBackup live with
  | false =>
      -- no directory before, one now
      have hdir : live.zoneDir.isSome = false := by
        simp only [hasBackup, Bool.or_eq_false_iff] at hbackup
        exact hbackup.1.1
      constructor
      · intro h
        have hexists := h.exists_dir
        simp [liveAfter, hbackup, liveAt, installedZones, hdir] at hexists
      · rintro ⟨h, -⟩
        rw [hbackup] at h
        cases h
  | true =>
      simp only [liveAfter, RaisePoint.installed, hbackup, Bool.and_self, if_true, Restored,
        true_and]
      constructor
      · intro h
        have hconf := h.namedConf
        cases hnamed : live.namedConf with
        | some text => exact Or.inl rfl
        | none =>
            simp only [restoreZones, liveAt, installedZones, hnamed, Option.isSome_none,
              Bool.false_eq_true, if_false] at hconf
            exact Or.inr ((writeInclude_none_iff named).mp hconf)
      · intro h
        refine ⟨rfl, fun _ => rfl, rfl, ?_⟩
        cases hnamed : live.namedConf with
        | some text => simp [restoreZones, hnamed]
        | none =>
            rw [hnamed] at h
            have hun : named = .untouched := h.resolve_left (by simp)
            simp [restoreZones, liveAt, installedZones, hnamed, hun, writeInclude]

/-- **When `deploy_zones` raises, the live files are what they were exactly if `Restored`
holds.** -/
theorem restored_iff (live : LiveZones) (files : List ZoneFile) (point : RaisePoint) :
    (liveAfter live files point).Same live ↔ Restored live files point := by
  cases point with
  | staging => exact iff_of_true (LiveZones.Same.refl live) trivial
  | clearing k => exact cleared_same_iff live files k
  | moving k => exact moved_dir_same_iff live files k
  | activating named => exact restored_same_iff live files named
  | recording => exact installedZones_same_iff live files

/-- The zone file is gone when the first replacement fails, and a first deployment leaves its
files when `named-checkconf` fails. -/
theorem zones_not_restored :
    let none_deployed : LiveZones := { zoneDir := none, zonesConf := none, namedConf := none }
    let deployed := installedZones none_deployed (zoneFiles homeArpa 300 1 []) .written
    let files := zoneFiles homeArpa 300 2 []
    ¬ (liveAfter deployed files (.moving 0)).Same deployed
      ∧ ¬ (liveAfter none_deployed files (.activating .written)).Same none_deployed := by
  intro none_deployed deployed files
  refine ⟨fun h => ?_, fun h => ?_⟩
  · have hzone := h.zoneDir "home.arpa.zone".toList
    have hlost : ((liveAfter deployed files (.moving 0)).zoneDir.bind
        (·.lookup "home.arpa.zone".toList)).isSome = false := by decide +kernel
    have hthere : (deployed.zoneDir.bind (·.lookup "home.arpa.zone".toList)).isSome = true := by
      decide +kernel
    rw [hzone, hthere] at hlost
    cases hlost
  · have hexists := h.exists_dir
    cases hexists

end AlderpointDNS.LocalDns
