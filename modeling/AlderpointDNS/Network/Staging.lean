import AlderpointDNS.Lib.Ipaddress
import AlderpointDNS.Lib.TextFiles

/-!
# Staging a network change, and rolling it back

What `apply_change` writes for each backend, and what `perform_rollback` makes of it with the
snapshot that was taken before.  The persistent configuration consists of the backends' files and
of NetworkManager's connection profiles; the lines of `nmcli con show --active`, the text that the
YAML library dumps and the mode of a new file are parameters.

* `stage_files` — staging changes the text and the mode of one file, and may append to another;
* `performRollback_files_iff`, `performRollback_profiles_iff` — when a rollback restores the files,
  and when the profiles;
* **`performRollback_stage_iff`** — when it restores all.

Left out: directories, symbolic links and the owners of files, a file that is not UTF-8 (then
`apply_change` raises with the snapshot), the live configuration, and a rollback whose own commands
fail.
-/

namespace AlderpointDNS.Network.Staging

open Text TextFiles Ipaddress

/-! ## The persistent configuration -/

inductive Backend where
  | networkd
  | netplan
  | networkManager
  | ifupdown
  deriving DecidableEq

inductive ConfigPath where
  /-- in `/etc/systemd/network` -/
  | networkd (name : Str)
  /-- in `/etc/netplan` -/
  | netplan (name : Str)
  /-- `/etc/network/interfaces` -/
  | interfaces
  /-- in `/etc/network/interfaces.d` -/
  | interfacesD (name : Str)
  deriving DecidableEq

inductive NmProperty where
  | ipv4Method
  | ipv4Addresses
  | ipv4Gateway
  | ipv6Method
  | ipv6Addresses
  | ipv6Gateway
  deriving DecidableEq

/-- The properties of a connection that the code reads and writes. -/
abbrev NmProfile := NmProperty → Str

structure NetworkConfig where
  files : Files ConfigPath
  profiles : Str → Option NmProfile

/-- What nmcli prints of a profile: no white space at its ends, and every profile has a method. -/
def NmProfile.Printed (profile : NmProfile) : Prop :=
  (∀ property, strip (profile property) = profile property) ∧ profile .ipv4Method ≠ []

def NetworkConfig.Printed (config : NetworkConfig) : Prop :=
  ∀ name profile, config.profiles name = some profile → NmProfile.Printed profile

/-! ## Changes -/

structure StaticAddress where
  address : Str
  prefixlen : ℕ
  gateway : Str

def StaticAddress.cidr (a : StaticAddress) : Str := a.address ++ '/' :: decimal a.prefixlen

inductive Ipv4Mode where
  | dhcp
  | static (ipv4 : StaticAddress)
  | unchanged

inductive Ipv6Mode where
  | dhcp
  | static (ipv6 : StaticAddress)
  | slaac
  | unchanged

/-- A proposal that `validate_proposed` has accepted. -/
structure Change where
  interface : Str
  ipv4 : Ipv4Mode
  ipv6 : Ipv6Mode

/-! ## Snapshots -/

/-- `_snapshot_paths_for_backend`. -/
def snapshotPath : Backend → ConfigPath → Bool
  | .networkd, .networkd name => endsWith name ".network".toList
  | .netplan, .netplan name => endsWith name ".yaml".toList
  | .ifupdown, .interfaces | .ifupdown, .interfacesD _ => true
  | _, _ => false

/-- `_nm_connection_for_interface`, from the lines that nmcli prints. -/
def nmConnectionForInterface (active : List Str) (interface : Str) : Option Str :=
  active.findSome? fun line =>
    match split ':' line with
    | [name, device] => if device = interface then some name else none
    | _ => none

/-- The connection that the callers go on with: an empty name is none. -/
def connectionName (active : List Str) (interface : Str) : Option Str :=
  (nmConnectionForInterface active interface).filter (· ≠ [])

structure Snapshot where
  files : ConfigPath → Option Str
  /-- the name of the connection, and its properties -/
  nmProfile : Option (Str × NmProfile)

/-- `nmcli -g property con show name`, stripped; nothing is left of an error. -/
def nmGet (profiles : Str → Option NmProfile) (name : Str) (property : NmProperty) : Str :=
  match profiles name with
  | none => []
  | some profile => strip (profile property ++ ['\n'])

/-- `snapshot_current`. -/
def snapshotCurrent (backend : Backend) (active : List Str) (interface : Str)
    (config : NetworkConfig) : Snapshot where
  files := snapshot (snapshotPath backend) config.files
  nmProfile :=
    if backend = .networkManager then
      (connectionName active interface).map fun name => (name, nmGet config.profiles name)
    else none

/-! ## Staging -/

/-- What staging does to the persistent configuration. -/
inductive Effect where
  | write (path : ConfigPath) (text : Str)
  | chmod (path : ConfigPath) (mode : ℕ)
  | append (path : ConfigPath) (text : Str)
  /-- `nmcli con mod` -/
  | modify (connection : Str) (args : List (NmProperty × Str))

/-- The properties that are given get their values. -/
def setProperties (args : List (NmProperty × Str)) (profile : NmProfile) : NmProfile :=
  fun property => (args.lookup property).getD (profile property)

/-- nmcli fails where there is no such connection. -/
def Effect.apply (created : ℕ) (config : NetworkConfig) : Effect → Option NetworkConfig
  | .write path text => some { config with files := writeText created path text config.files }
  | .chmod path mode => some { config with files := TextFiles.chmod path mode config.files }
  | .append path text => some { config with files := appendText created path text config.files }
  | .modify connection args =>
      (config.profiles connection).map fun profile =>
        { config with
          profiles := Function.update config.profiles connection
            (some (setProperties args profile)) }

/-- The effects one after the other. -/
def applyEffects (created : ℕ) (effects : List Effect) (config : NetworkConfig) :
    Option NetworkConfig :=
  effects.foldlM (Effect.apply created) config

/-- `"\n".join(lines) + "\n"`. -/
def joinLines (lines : List Str) : Str := join ['\n'] lines ++ ['\n']

/-- `_render_networkd_unit`. -/
def renderNetworkdUnit (change : Change) : Str :=
  joinLines <|
    ["[Match]".toList, "Name=".toList ++ change.interface, [], "[Network]".toList] ++
    (match change.ipv4 with
      | .dhcp => ["DHCP=ipv4".toList]
      | .static ipv4 => ["Address=".toList ++ ipv4.cidr, "Gateway=".toList ++ ipv4.gateway]
      | .unchanged => []) ++
    match change.ipv6 with
      | .dhcp => ["DHCP=ipv6".toList]
      | .static ipv6 => ["Address=".toList ++ ipv6.cidr, "Gateway=".toList ++ ipv6.gateway]
      | .slaac => ["IPv6AcceptRA=yes".toList]
      | .unchanged => []

/-- A value of a netplan ethernet. -/
inductive NetplanValue where
  | flag (value : Bool)
  /-- `to` and `via` of each route -/
  | routes (routes : List (Str × Str))
  | addresses (addresses : List Str)

/-- The keys that `_render_netplan_yaml` gives the interface, in its order. -/
def netplanEthernet (change : Change) : List (Str × NetplanValue) :=
  let routes :=
    (match change.ipv4 with
      | .static ipv4 => [("0.0.0.0/0".toList, ipv4.gateway)]
      | _ => []) ++
    match change.ipv6 with
      | .static ipv6 => [("::/0".toList, ipv6.gateway)]
      | _ => []
  let addresses :=
    (match change.ipv4 with
      | .static ipv4 => [ipv4.cidr]
      | _ => []) ++
    match change.ipv6 with
      | .static ipv6 => [ipv6.cidr]
      | _ => []
  (match change.ipv4 with
    | .dhcp => [("dhcp4".toList, .flag true)]
    | .static _ => [("dhcp4".toList, .flag false)]
    | .unchanged => []) ++
  (if routes = [] then [] else [("routes".toList, .routes routes)]) ++
  (match change.ipv6 with
    | .dhcp => [("dhcp6".toList, .flag true)]
    | .slaac => [("accept-ra".toList, .flag true)]
    | _ => []) ++
  if addresses = [] then [] else [("addresses".toList, .addresses addresses)]

/-- The arguments of `nmcli con mod` for IPv4. -/
def nmIpv4Args : Ipv4Mode → List (NmProperty × Str)
  | .dhcp => [(.ipv4Method, "auto".toList), (.ipv4Addresses, []), (.ipv4Gateway, [])]
  | .static ipv4 =>
      [(.ipv4Method, "manual".toList), (.ipv4Addresses, ipv4.cidr), (.ipv4Gateway, ipv4.gateway)]
  | .unchanged => []

/-- The arguments of `nmcli con mod` for IPv6. -/
def nmIpv6Args : Ipv6Mode → List (NmProperty × Str)
  | .dhcp | .slaac => [(.ipv6Method, "auto".toList)]
  | .static ipv6 =>
      [(.ipv6Method, "manual".toList), (.ipv6Addresses, ipv6.cidr), (.ipv6Gateway, ipv6.gateway)]
  | .unchanged => []

/-- `str(IPv4Network("0.0.0.0/…").netmask)`. -/
def netmask (prefixlen : ℕ) : Str := v4Str (2 ^ 32 - 2 ^ (32 - prefixlen))

/-- The stanzas of `stage_ifupdown`. -/
def ifupdownStanzas (change : Change) : List Str :=
  (match change.ipv4 with
    | .dhcp =>
        ["auto ".toList ++ change.interface,
          "iface ".toList ++ change.interface ++ " inet dhcp".toList]
    | .static ipv4 =>
        ["auto ".toList ++ change.interface,
          "iface ".toList ++ change.interface ++ " inet static".toList,
          "    address ".toList ++ ipv4.address,
          "    netmask ".toList ++ netmask ipv4.prefixlen,
          "    gateway ".toList ++ ipv4.gateway]
    | .unchanged => []) ++
  match change.ipv6 with
    | .static ipv6 =>
        ["iface ".toList ++ change.interface ++ " inet6 static".toList,
          "    address ".toList ++ ipv6.address,
          "    netmask ".toList ++ decimal ipv6.prefixlen,
          "    gateway ".toList ++ ipv6.gateway]
    | .dhcp => ["iface ".toList ++ change.interface ++ " inet6 dhcp".toList]
    | .slaac => ["iface ".toList ++ change.interface ++ " inet6 auto".toList]
    | .unchanged => []

/-- `/etc/network/interfaces` reads the drop-in directory. -/
def sourcesDropins (text : Str) : Bool :=
  isSubstring "source /etc/network/interfaces.d/*".toList text
    || isSubstring "source-directory /etc/network/interfaces.d".toList text

/-- The file that is staged; NetworkManager has none. -/
def stagedPath (interface : Str) : Backend → Option ConfigPath
  | .networkd => some (.networkd ("90-alderpointdns-".toList ++ interface ++ ".network".toList))
  | .netplan => some (.netplan "90-alderpointdns.yaml".toList)
  | .networkManager => none
  | .ifupdown => some (.interfacesD ("90-alderpointdns-".toList ++ interface ++ ".cfg".toList))

/-- The mode of the staged file; netplan wants its own to be private. -/
def stagedMode : Backend → ℕ
  | .netplan => 0o600
  | _ => 0o644

section Stage

variable (dump : Str → List (Str × NetplanValue) → Str) (created : ℕ) (active : List Str)

/-- The text of the staged file; `dump` is `yaml.safe_dump` around the interface. -/
def stagedText (change : Change) : Backend → Str
  | .networkd => renderNetworkdUnit change
  | .netplan => dump change.interface (netplanEthernet change)
  | .networkManager => []
  | .ifupdown => joinLines (ifupdownStanzas change)

/-- The connection that `stage_networkmanager` modifies. -/
def stagedConnection (interface : Str) : Str := (connectionName active interface).getD interface

/-- The commands of `stage_networkmanager`. -/
def nmEffects (change : Change) : List Effect :=
  ([nmIpv4Args change.ipv4, nmIpv6Args change.ipv6].filter (· ≠ [])).map
    (.modify (stagedConnection active change.interface))

/-- What `stage_ifupdown` adds to `/etc/network/interfaces`. -/
def sourceEffects (files : Files ConfigPath) : List Effect :=
  match readText files .interfaces with
  | some text =>
      if sourcesDropins text then []
      else [.append .interfaces "\nsource /etc/network/interfaces.d/*\n".toList]
  | none => []

/-- `stage_networkd`, `stage_netplan`, `stage_networkmanager` and `stage_ifupdown`. -/
def stageEffects (backend : Backend) (change : Change) (config : NetworkConfig) : List Effect :=
  match stagedPath change.interface backend with
  | none => nmEffects active change
  | some path =>
      [.write path (stagedText dump change backend), .chmod path (stagedMode backend)] ++
        if backend = .ifupdown then sourceEffects config.files else []

def stage (backend : Backend) (change : Change) (config : NetworkConfig) : Option NetworkConfig :=
  applyEffects created (stageEffects dump active backend change config) config

end Stage

/-! ## Rolling back -/

/-- `value or default`. -/
def orDefault (value default : Str) : Str := if value = [] then default else value

/-- What `perform_rollback` gives to `nmcli con mod`. -/
def rollbackArgs (saved : NmProfile) : List (NmProperty × Str) :=
  [(.ipv4Method, orDefault (saved .ipv4Method) "auto".toList),
    (.ipv4Addresses, saved .ipv4Addresses), (.ipv4Gateway, saved .ipv4Gateway)]

/-- The persistent part of `perform_rollback`; an error of nmcli is logged. -/
def performRollback (created : ℕ) (backend : Backend) (interface : Str) (taken : Snapshot)
    (config : NetworkConfig) : NetworkConfig :=
  let restored : NetworkConfig :=
    { config with
      files :=
        match stagedPath interface backend with
        | some path => restore created taken.files path config.files
        | none => rewrite created taken.files config.files }
  match taken.nmProfile with
  | none => restored
  | some (name, saved) =>
      (Effect.apply created restored (.modify name (rollbackArgs saved))).getD restored

/-! ## The files -/

section Files

variable {dump : Str → List (Str × NetplanValue) → Str} {created : ℕ} {active : List Str}
  {backend : Backend} {change : Change} {config config' : NetworkConfig} {path : ConfigPath}

theorem snapshotPath_stagedPath {interface : Str} (h : stagedPath interface backend = some path) :
    snapshotPath backend path = true := by
  cases backend with
  | networkd =>
      cases h
      rw [snapshotPath, endsWith_iff]
      exact List.suffix_append _ _
  | netplan =>
      cases h
      decide
  | networkManager => cases h
  | ifupdown =>
      cases h
      rfl

theorem applyEffects_sourceEffects (config : NetworkConfig) (h : sourceEffects config.files ≠ []) :
    ∃ file, config.files .interfaces = some file ∧ sourceEffects config.files
      = [.append .interfaces "\nsource /etc/network/interfaces.d/*\n".toList] := by
  unfold sourceEffects at h ⊢
  cases hread : readText config.files .interfaces with
  | none =>
      rw [hread] at h
      exact absurd rfl h
  | some text =>
      rw [hread] at h
      dsimp only at h ⊢
      obtain ⟨file, hfile, -⟩ := Option.map_eq_some_iff.mp hread
      refine ⟨file, hfile, ?_⟩
      by_cases hsources : sourcesDropins text = true
      · rw [if_pos hsources] at h
        exact absurd rfl h
      · rw [if_neg hsources]

/-- **Staging changes the text and the mode of one file, and may append to another.** -/
theorem stage_files (hpath : stagedPath change.interface backend = some path)
    (h : stage dump created active backend change config = some config') :
    config'.profiles = config.profiles ∧
      Stages (snapshotPath backend) path (stagedMode backend) config.files config'.files := by
  have hwritten := @stages_write _ _ created (stagedMode backend) _ _ config.files
    (snapshotPath_stagedPath hpath) (stagedText dump change backend)
  rw [stage, stageEffects, hpath] at h
  by_cases hsource : (if backend = .ifupdown then sourceEffects config.files else []) = []
  · dsimp only at h
    rw [hsource] at h
    cases h
    exact ⟨rfl, hwritten⟩
  · have hbackend : backend = .ifupdown := by
      by_contra hne
      rw [if_neg hne] at hsource
      exact hsource rfl
    rw [if_pos hbackend] at hsource
    obtain ⟨file, hfile, heffects⟩ := applyEffects_sourceEffects config hsource
    dsimp only at h
    rw [if_pos hbackend, heffects] at h
    subst hbackend
    cases hpath
    cases h
    exact ⟨rfl, hwritten.append (p := .interfaces) rfl (by simp) hfile _⟩

theorem backend_ne_of_stagedPath {interface : Str} (h : stagedPath interface backend = some path) :
    backend ≠ .networkManager := by
  rintro rfl
  cases h

/-- **When a rollback restores the files.** -/
theorem performRollback_files_iff (hpath : stagedPath change.interface backend = some path)
    (h : stage dump created active backend change config = some config') :
    performRollback created backend change.interface
        (snapshotCurrent backend active change.interface config) config' = config ↔
      (∀ p file, snapshotPath backend p = true → config.files p = some file →
        '\r' ∉ file.text) ∧
      ∀ file, config.files path = some file → file.mode = stagedMode backend := by
  obtain ⟨hprofiles, hstages⟩ := stage_files hpath h
  have hrollback : performRollback created backend change.interface
      (snapshotCurrent backend active change.interface config) config'
      = ⟨restore created (snapshot (snapshotPath backend) config.files) path config'.files,
          config.profiles⟩ := by
    rw [performRollback, snapshotCurrent, if_neg (backend_ne_of_stagedPath hpath), hpath,
      ← hprofiles]
  rw [hrollback, ← @restore_eq_iff _ _ created _ _ _ _ _ hstages]
  constructor
  · intro heq
    exact congrArg NetworkConfig.files heq
  · intro heq
    rw [heq]

end Files

/-! ## The profiles -/

section Profiles

variable {dump : Str → List (Str × NetplanValue) → Str} {created : ℕ} {active : List Str}
  {change : Change} {config config' : NetworkConfig} {profile : NmProfile}

/-- The properties that are given have their values already. -/
def AlreadySet (args : List (NmProperty × Str)) (profile : NmProfile) : Prop :=
  ∀ property value, args.lookup property = some value → profile property = value

theorem setProperties_apply_eq_iff {args : List (NmProperty × Str)} {property : NmProperty} :
    setProperties args profile property = profile property ↔
      ∀ value, args.lookup property = some value → profile property = value := by
  unfold setProperties
  cases args.lookup property with
  | none => simp
  | some value => simp [eq_comm]

theorem setProperties_eq_self_iff {args : List (NmProperty × Str)} :
    setProperties args profile = profile ↔ AlreadySet args profile := by
  rw [funext_iff]
  exact forall_congr' fun property => setProperties_apply_eq_iff

/-- Two commands set what both of them give, the second one last. -/
theorem setProperties_append (args args' : List (NmProperty × Str)) :
    setProperties args' (setProperties args profile) = setProperties (args' ++ args) profile := by
  funext property
  rw [setProperties, setProperties, setProperties, List.lookup_append]
  cases args'.lookup property with
  | none => rfl
  | some value => rfl

theorem strip_newline {value : Str} (h : strip value = value) : strip (value ++ ['\n']) = value := by
  have hnewline : isSpace '\n' = true := by decide
  rw [strip, stripBy, List.dropWhile_append]
  split_ifs with hempty
  · have hnil : value = [] := by
      rw [strip, stripBy, List.isEmpty_iff.mp hempty] at h
      exact h.symm
    rw [hnil]
    decide
  · rw [List.rdropWhile_concat_pos _ _ _ hnewline]
    exact h

/-- What the snapshot has of a profile. -/
theorem nmGet_eq (hprinted : config.Printed) {name : Str}
    (hprofile : config.profiles name = some profile) : nmGet config.profiles name = profile := by
  funext property
  rw [nmGet, hprofile]
  exact strip_newline ((hprinted name profile hprofile).1 property)

/-- The properties that a change sets. -/
def nmArgs (change : Change) : List (NmProperty × Str) :=
  nmIpv6Args change.ipv6 ++ nmIpv4Args change.ipv4

def NmProperty.isIpv4 : NmProperty → Bool
  | .ipv4Method | .ipv4Addresses | .ipv4Gateway => true
  | .ipv6Method | .ipv6Addresses | .ipv6Gateway => false

theorem nmIpv4Args_lookup (ipv4 : Ipv4Mode) {property : NmProperty}
    (h : property.isIpv4 = false) : (nmIpv4Args ipv4).lookup property = none := by
  cases ipv4 with
  | unchanged => rfl
  | _ => cases property <;> first | rfl | cases h

theorem nmIpv6Args_lookup (ipv6 : Ipv6Mode) {property : NmProperty}
    (h : property.isIpv4 = true) : (nmIpv6Args ipv6).lookup property = none := by
  cases ipv6 with
  | unchanged => rfl
  | _ => cases property <;> first | rfl | cases h

theorem rollbackArgs_lookup (hprinted : profile.Printed) (property : NmProperty) :
    (rollbackArgs profile).lookup property
      = if property.isIpv4 then some (profile property) else none := by
  have hmethod : orDefault (profile .ipv4Method) "auto".toList = profile .ipv4Method :=
    if_neg hprinted.2
  rw [rollbackArgs, hmethod]
  cases property <;> rfl

/-- The commands for one connection, without those that set nothing. -/
def modifications (name : Str) (commands : List (List (NmProperty × Str))) : List Effect :=
  (commands.filter (· ≠ [])).map (.modify name)

theorem applyEffects_modifications {name : Str} (commands : List (List (NmProperty × Str))) :
    ∀ {config : NetworkConfig} {profile : NmProfile}, config.profiles name = some profile →
      applyEffects created (modifications name commands) config
        = some { config with
            profiles := Function.update config.profiles name
              (some (commands.foldl (fun profile args => setProperties args profile) profile)) } := by
  induction commands with
  | nil =>
      intro config profile hprofile
      rw [List.foldl_nil, ← hprofile, Function.update_eq_self]
      rfl
  | cons args commands ih =>
      intro config profile hprofile
      by_cases hargs : args = []
      · subst hargs
        exact ih hprofile
      · have hcommands : modifications name (args :: commands)
            = .modify name args :: modifications name commands := by
          rw [modifications, List.filter_cons_of_pos (by simpa using hargs)]
          rfl
        rw [hcommands, applyEffects, List.foldlM_cons, Effect.apply, hprofile, Option.map_some,
          List.foldl_cons]
        refine (@ih _ (setProperties args profile) (Function.update_self ..)).trans ?_
        rw [Function.update_idem]

theorem applyEffects_of_missing {name : Str} {commands : List (List (NmProperty × Str))}
    (hmissing : config.profiles name = none)
    (h : applyEffects created (modifications name commands) config = some config') :
    config' = config := by
  cases hcommands : commands.filter (· ≠ []) with
  | nil =>
      rw [modifications, hcommands] at h
      cases h
      rfl
  | cons args rest =>
      rw [modifications, hcommands, List.map_cons, applyEffects, List.foldlM_cons, Effect.apply,
        hmissing] at h
      cases h

/-- **Staging sets the properties of one connection.**  Without the connection it fails, unless
nothing is to be set. -/
theorem stage_networkManager
    (h : stage dump created active .networkManager change config = some config') :
    (∃ profile, config.profiles (stagedConnection active change.interface) = some profile ∧
      config' = { config with
        profiles := Function.update config.profiles (stagedConnection active change.interface)
          (some (setProperties (nmArgs change) profile)) }) ∨
    config.profiles (stagedConnection active change.interface) = none ∧ config' = config := by
  have heffects : stageEffects dump active .networkManager change config
      = modifications (stagedConnection active change.interface)
          [nmIpv4Args change.ipv4, nmIpv6Args change.ipv6] := rfl
  rw [stage, heffects] at h
  cases hprofile : config.profiles (stagedConnection active change.interface) with
  | none => exact Or.inr ⟨rfl, applyEffects_of_missing hprofile h⟩
  | some profile =>
      left
      refine ⟨profile, rfl, ?_⟩
      rw [applyEffects_modifications _ hprofile, Option.some.injEq, List.foldl_cons,
        List.foldl_cons, List.foldl_nil, setProperties_append] at h
      rw [← h, nmArgs]

/-- Rolling back sets the properties for IPv4 to what they were, and leaves those for IPv6. -/
theorem rollback_eq_self_iff (hprinted : profile.Printed) :
    setProperties (rollbackArgs profile) (setProperties (nmArgs change) profile) = profile ↔
      AlreadySet (nmIpv6Args change.ipv6) profile := by
  rw [← setProperties_eq_self_iff, funext_iff, funext_iff]
  refine forall_congr' fun property => ?_
  simp only [setProperties, nmArgs, List.lookup_append, rollbackArgs_lookup hprinted]
  cases hipv4 : property.isIpv4 with
  | true => simp [nmIpv6Args_lookup change.ipv6 hipv4]
  | false => simp [nmIpv4Args_lookup change.ipv4 hipv4]

theorem withProfile_eq_self_iff {name : Str} (hprofile : config.profiles name = some profile)
    {profile' : NmProfile} :
    { config with profiles := Function.update config.profiles name (some profile') } = config ↔
      profile' = profile := by
  constructor
  · intro heq
    have hname := congrFun (congrArg NetworkConfig.profiles heq) name
    dsimp only at hname
    rw [Function.update_self, hprofile] at hname
    exact Option.some.inj hname
  · rintro rfl
    rw [← hprofile, Function.update_eq_self]

/-- **When a rollback restores the profiles.** -/
theorem performRollback_profiles_iff (hprinted : config.Printed)
    (h : stage dump created active .networkManager change config = some config') :
    performRollback created .networkManager change.interface
        (snapshotCurrent .networkManager active change.interface config) config' = config ↔
      match connectionName active change.interface with
      | some name => ∀ profile, config.profiles name = some profile →
          AlreadySet (nmIpv6Args change.ipv6) profile
      | none => ∀ profile, config.profiles change.interface = some profile →
          AlreadySet (nmArgs change) profile := by
  have hnone : snapshot (snapshotPath .networkManager) config.files = fun _ => none :=
    snapshot_none (fun p => by cases p <;> rfl) config.files
  have hfiles : ∀ files : Files ConfigPath, rewrite created (fun _ => none) files = files :=
    fun _ => rfl
  have hstaged := stage_networkManager h
  rw [stagedConnection] at hstaged
  simp only [performRollback, stagedPath, snapshotCurrent, hnone, hfiles, if_true]
  cases hname : connectionName active change.interface with
  | none =>
      rw [hname, Option.getD_none] at hstaged
      dsimp only [Option.map_none]
      rcases hstaged with ⟨profile, hprofile, rfl⟩ | ⟨hmissing, rfl⟩
      · refine (withProfile_eq_self_iff hprofile).trans ?_
        rw [setProperties_eq_self_iff]
        simp [hprofile]
      · simp [hmissing]
  | some name =>
      rw [hname, Option.getD_some] at hstaged
      dsimp only [Option.map_some]
      rcases hstaged with ⟨profile, hprofile, rfl⟩ | ⟨hmissing, rfl⟩
      · rw [nmGet_eq hprinted hprofile, Effect.apply]
        dsimp only
        rw [Function.update_self, Option.map_some, Option.getD_some, Function.update_idem]
        refine (withProfile_eq_self_iff hprofile).trans ?_
        rw [rollback_eq_self_iff (hprinted name profile hprofile)]
        simp [hprofile]
      · simp [Effect.apply, hmissing]

end Profiles

/-! ## Both -/

/-- What a rollback can restore.  For the backends with files: no file of the snapshot has a
carriage return, and a staged file that is there already has the mode that it gets.  For
NetworkManager with an active connection: the change sets no IPv6 property to a new value; without
one it sets no property to a new value. -/
def Restorable (active : List Str) (backend : Backend) (change : Change) (config : NetworkConfig) :
    Prop :=
  match stagedPath change.interface backend with
  | some path =>
      (∀ p file, snapshotPath backend p = true → config.files p = some file →
        '\r' ∉ file.text) ∧
      ∀ file, config.files path = some file → file.mode = stagedMode backend
  | none =>
      match connectionName active change.interface with
      | some name => ∀ profile, config.profiles name = some profile →
          AlreadySet (nmIpv6Args change.ipv6) profile
      | none => ∀ profile, config.profiles change.interface = some profile →
          AlreadySet (nmArgs change) profile

theorem performRollback_eq_self_iff {dump : Str → List (Str × NetplanValue) → Str} {created : ℕ}
    {active : List Str} {backend : Backend} {change : Change} {config config' : NetworkConfig}
    (hprinted : config.Printed)
    (h : stage dump created active backend change config = some config') :
    performRollback created backend change.interface
        (snapshotCurrent backend active change.interface config) config' = config ↔
      Restorable active backend change config := by
  unfold Restorable
  cases hpath : stagedPath change.interface backend with
  | some path => exact performRollback_files_iff hpath h
  | none =>
      have hbackend : backend = .networkManager := by
        cases backend <;> first | rfl | cases hpath
      subst hbackend
      exact performRollback_profiles_iff hprinted h

/-- **When staging and rolling back restores the persistent configuration.** -/
theorem performRollback_stage_iff (dump : Str → List (Str × NetplanValue) → Str) (created : ℕ)
    (active : List Str) (backend : Backend) (change : Change) (config config' : NetworkConfig)
    (hprinted : config.Printed)
    (h : stage dump created active backend change config = some config') :
    performRollback created backend change.interface
        (snapshotCurrent backend active change.interface config) config' = config ↔
      Restorable active backend change config :=
  performRollback_eq_self_iff hprinted h

/-- An interface that networkd configures by DHCP. -/
def networkdConfig : NetworkConfig where
  files := fun path =>
    if path = .networkd "10-eth0.network".toList then
      some ⟨"[Match]\nName=eth0\n\n[Network]\nDHCP=yes\n".toList, 0o644⟩
    else none
  profiles := fun _ => none

def staticIpv4 : Change :=
  ⟨"eth0".toList, .static ⟨"192.0.2.10".toList, 24, "192.0.2.1".toList⟩, .unchanged⟩

theorem restorable_networkdConfig : Restorable [] .networkd staticIpv4 networkdConfig := by
  refine ⟨fun p file _ hfile => ?_, fun file hfile => ?_⟩
  · rw [networkdConfig] at hfile
    dsimp only at hfile
    split_ifs at hfile
    cases hfile
    decide
  · have hmissing : networkdConfig.files
        (.networkd "90-alderpointdns-eth0.network".toList) = none := by decide
    cases hmissing.symm.trans hfile

theorem printed_networkdConfig : networkdConfig.Printed := fun _ _ h => by cases h

theorem networkd_rolled_back :
    ∃ config', stage (fun _ _ => []) 0o644 [] .networkd staticIpv4 networkdConfig = some config' ∧
      performRollback 0o644 .networkd "eth0".toList
        (snapshotCurrent .networkd [] "eth0".toList networkdConfig) config' = networkdConfig :=
  ⟨_, rfl, (performRollback_stage_iff (fun _ _ => []) 0o644 [] .networkd staticIpv4 networkdConfig _
    printed_networkdConfig rfl).mpr restorable_networkdConfig⟩

/-- A connection with DHCP and router advertisements. -/
def wiredProfile : NmProfile
  | .ipv4Method | .ipv6Method => "auto".toList
  | _ => []

def nmConfig : NetworkConfig where
  files := fun _ => none
  profiles := fun name => if name = "Wired connection 1".toList then some wiredProfile else none

def staticIpv6 : Change :=
  ⟨"eth0".toList, .unchanged, .static ⟨"2001:db8::2".toList, 64, "2001:db8::1".toList⟩⟩

/-- **The static IPv6 address stays after the rollback.** -/
theorem ipv6_not_rolled_back :
    ∃ config', stage (fun _ _ => []) 0o644 ["Wired connection 1:eth0".toList] .networkManager
        staticIpv6 nmConfig = some config' ∧
      performRollback 0o644 .networkManager "eth0".toList
        (snapshotCurrent .networkManager ["Wired connection 1:eth0".toList] "eth0".toList nmConfig)
        config' ≠ nmConfig := by
  refine ⟨_, rfl, fun heq => ?_⟩
  have haddresses := congrArg (fun config : NetworkConfig =>
    (config.profiles "Wired connection 1".toList).map (· .ipv6Addresses)) heq
  exact absurd haddresses (by decide +kernel)

end AlderpointDNS.Network.Staging
