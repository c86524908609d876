import AlderpointDNS.Encryption.Deploy
import AlderpointDNS.Lib.Lines
import AlderpointDNS.LocalDns.Names
import AlderpointDNS.Numbers

/-!
# The environment override, line by line

`render_env_override` writes each setting into a line of the drop-in of dnsdist's unit, and
`_env_from_override` reads the lines back.  `validate_settings` brings most settings into a form of
its own; the DoH path, the DNSCrypt provider, the certificate paths and the scope of the IPv6
address are left as they were typed.

* `validateSettings` — the settings that are accepted;
* `assignments` — what the drop-in is to assign, and `envFromOverride` what is read from it;
* `validateSettings_spec` — the settings that are one line by themselves;
* **`override_exact_iff`** — the drop-in has the assignments of accepted settings, one on each
  line, and gives them back exactly when what was typed has no line break, and the paths are written
  as `Path` writes them;
* `injected_variable` — a DoH path with a second line.
-/

namespace AlderpointDNS.Encryption

open Text Ipaddress

/-! ## `validate_settings` -/

/-- A label of `HOSTNAME_RE`. -/
def isHostLabel (w : Str) : Bool :=
  w ≠ [] && w.length ≤ 63 && w.all (fun c => c.isAlphanum || c = '-')
    && w.head?.all Char.isAlphanum && w.getLast?.all Char.isAlphanum

/-- `HOSTNAME_RE.match`. -/
def matchesHostnameRe (s : Str) : Bool :=
  (LocalDns.dropNewline s).length ≤ 253 && (split '.' (LocalDns.dropNewline s)).all isHostLabel

/-- `_bool`. -/
def flagText (value : Str) : Str :=
  if ["1".toList, "true".toList, "on".toList, "yes".toList].contains value then ['1'] else ['0']

/-- `_port`. -/
def portText (value : Str) : Option Str :=
  (intOf value).bind fun parsed =>
    if 1 ≤ parsed ∧ parsed ≤ 65535 then some (Nat.toDigits 10 parsed.toNat) else none

/-- A listen address of the version, or none. -/
def listenText (v4 : Bool) (value : Str) : Option Str :=
  if strip value = [] then some []
  else
    let unbracketed := stripBy (fun c => c = '[' || c = ']') (strip value)
    (ipAddress (if v4 then strip value else unbracketed)).bind fun ip =>
      if ip.isV4 = v4 then some ip.str else none

/-- `doh_path`. -/
def dohPathText (value : Str) : Str :=
  let path := if strip value = [] then "/dns-query".toList else strip value
  if startsWith path ['/'] then path else '/' :: path

def defaultProvider : Str := "2.dnscrypt-cert.alderpointdns.local".toList

/-- `dnscrypt_provider`. -/
def providerText (value : Str) : Str :=
  let provider := (strip value).rdropWhile (· = '.')
  if provider = [] then defaultProvider else provider

/-- `cert_path` and `key_path`. -/
def certTexts (mode : Str) (certPath keyPath : Option Str) : Option (Str × Str) :=
  if mode = "existing_path".toList then
    let cert := strip (certPath.getD [])
    let key := strip (keyPath.getD [])
    if cert = [] ∨ key = [] then none else some (cert, key)
  else if ["self_signed".toList, "local_ca".toList, "uploaded".toList].contains mode then
    some ((certPath.filter (· ≠ [])).getD certPathDefault,
      (keyPath.filter (· ≠ [])).getD keyPathDefault)
  else none

/-- `validate_settings`; `detected` is what `detect_server_ip` finds.  `pending_cert_action` is not
among the values, and stays what it is in the table. -/
def validateSettings (u : UnicodeData) (detected pendingCertAction : Str) (values : Dict Str Str) :
    Option EncryptionSettings := do
  let get (key fallback : String) : Str := (values.lookup key.toList).getD fallback.toList
  let hostname := (u.toLower (strip (get "server_hostname" ""))).rdropWhile (· = '.')
  guard (matchesHostnameRe hostname = true)
  let bootstrapIp ← (if strip (get "bootstrap_ip" "") = [] then some detected
    else (ipAddress (strip (get "bootstrap_ip" ""))).map IpAddress.str)
  let listenIpv4 ← listenText true (get "listen_ipv4" "0.0.0.0")
  let listenIpv6 ← listenText false (get "listen_ipv6" "::")
  guard ¬(listenIpv4 = [] ∧ listenIpv6 = [])
  let dohPort ← portText (get "doh_port" "443")
  let doh3Port ← portText (get "doh3_port" "443")
  let dotPort ← portText (get "dot_port" "853")
  let doqPort ← portText (get "doq_port" "853")
  let dnscryptPort ← portText (get "dnscrypt_port" "5443")
  let certMode := strip (get "cert_mode" "self_signed")
  let paths ← certTexts certMode (values.lookup "cert_path".toList)
    (values.lookup "key_path".toList)
  return {
    serverHostname := hostname
    bootstrapIp := bootstrapIp
    listenIpv4 := listenIpv4
    listenIpv6 := listenIpv6
    dohEnabled := flagText (get "doh_enabled" "0")
    doh3Enabled := flagText (get "doh3_enabled" "0")
    dotEnabled := flagText (get "dot_enabled" "0")
    doqEnabled := flagText (get "doq_enabled" "0")
    dnscryptEnabled := flagText (get "dnscrypt_enabled" "0")
    dohPath := dohPathText (get "doh_path" "/dns-query")
    dohPort := dohPort
    doh3Port := doh3Port
    dotPort := dotPort
    doqPort := doqPort
    dnscryptPort := dnscryptPort
    dnscryptProvider := providerText (get "dnscrypt_provider" "2.dnscrypt-cert.alderpointdns.local")
    certMode := certMode
    certPath := paths.1
    keyPath := paths.2
    pendingCertAction := pendingCertAction }

/-! ## Assignments -/

/-- A variable of the drop-in. -/
def variableName (name : String) : Str := "ALDERPOINTDNS_".toList ++ name.toList

/-- The assignments of the drop-in, with the texts of the certificate and its key. -/
def assignmentsOf (cfg : EncryptionSettings) (paths : Str × Str) : List (Str × Str) :=
  [(variableName "DNS_PLAIN", ['1']),
    (variableName "DNS_LISTEN_IPV4", cfg.listenIpv4),
    (variableName "DNS_LISTEN_IPV6", cfg.listenIpv6),
    (variableName "DNS_DOH", cfg.dohEnabled),
    (variableName "DNS_DOT", cfg.dotEnabled),
    (variableName "DNS_DOQ", cfg.doqEnabled),
    (variableName "DNS_DOH3", cfg.doh3Enabled),
    (variableName "DNS_DNSCRYPT", cfg.dnscryptEnabled),
    (variableName "TLS_CERT", paths.1),
    (variableName "TLS_KEY", paths.2),
    (variableName "DOH_PATH", cfg.dohPath),
    (variableName "DOH_PORT", cfg.dohPort),
    (variableName "DOH3_PORT", cfg.doh3Port),
    (variableName "DOT_PORT", cfg.dotPort),
    (variableName "DOQ_PORT", cfg.doqPort),
    (variableName "DNSCRYPT_PORT", cfg.dnscryptPort),
    (variableName "DNSCRYPT_PROVIDER", cfg.dnscryptProvider),
    (variableName "DNSCRYPT_CERT", dnscryptCertPath),
    (variableName "DNSCRYPT_KEY", dnscryptKeyPath)]

/-- The pair that `cert_mode` names, as it is among the settings. -/
def acceptedPair (cfg : EncryptionSettings) : Str × Str :=
  if cfg.certMode = "uploaded".toList then (uploadedCertPath, uploadedKeyPath)
  else if cfg.certMode = "existing_path".toList then (cfg.certPath, cfg.keyPath)
  else (certPathDefault, keyPathDefault)

/-- What the drop-in is to assign. -/
def assignments (cfg : EncryptionSettings) : List (Str × Str) := assignmentsOf cfg (acceptedPair cfg)

def assignmentLine (assignment : Str × Str) : Str :=
  "Environment=".toList ++ assignment.1 ++ '=' :: assignment.2

/-- The lines of the drop-in. -/
def overrideLines (assignments : List (Str × Str)) : List Str :=
  "[Service]".toList :: assignments.map assignmentLine

/-- The assignment of a line. -/
def lineAssignment (line : Str) : Option (Str × Str) :=
  if startsWith line "Environment=".toList then some (partition '=' (line.drop 12)) else none

/-- `_env_from_override`. -/
def envFromOverride (text : Str) : Dict Str Str :=
  ((splitlines text).filterMap lineAssignment).foldl (fun out a => out.insert a.1 a.2) ∅

theorem environmentLine_eq (name : String) (value : Str) :
    environmentLine name value = assignmentLine (variableName name, value) := by
  have hbegin : "Environment=ALDERPOINTDNS_".toList
      = "Environment=".toList ++ "ALDERPOINTDNS_".toList := by decide
  exact congrArg (· ++ '=' :: value)
    ((congrArg (· ++ name.toList) hbegin).trans (List.append_assoc _ _ _))

theorem renderEnvOverride_eq (cfg : EncryptionSettings) :
    renderEnvOverride cfg
      = linesText (overrideLines (assignmentsOf cfg (resolveActiveCertPaths cfg))) := by
  simp only [renderEnvOverride, environmentLine_eq, linesText, overrideLines, assignmentsOf,
    List.map_cons, List.map_nil]

/-! ## Settings that are one line -/

theorem oneLine_flagText (value : Str) : OneLine (flagText value) := by
  unfold flagText
  split_ifs <;> decide

theorem isLineBreak_of_isDigit {c : Char} (h : c.isDigit = true) : isLineBreak c = false := by
  have hrange : 48 ≤ c.toNat ∧ c.toNat ≤ 57 := by
    simpa [Char.isDigit, UInt32.le_iff_toNat_le] using h
  simp only [isLineBreak, Bool.or_eq_false_iff, Bool.and_eq_false_iff, decide_eq_false_iff_not]
  omega

theorem oneLine_portText {value port : Str} (h : portText value = some port) : OneLine port := by
  obtain ⟨parsed, -, h⟩ := Option.bind_eq_some_iff.mp h
  split_ifs at h
  cases h
  exact fun c hc => isLineBreak_of_isDigit
    (Nat.isDigit_of_mem_toDigits (by decide) (by decide) hc)

theorem oneLine_v4Str (n : ℕ) : OneLine (v4Str n) := by
  intro c hc
  rcases mem_join hc with hc | ⟨octet, hoctet, hc⟩
  · rw [List.mem_singleton.mp hc]
    decide
  · obtain ⟨i, -, rfl⟩ := List.mem_map.mp hoctet
    have hdigit := isDecDigit_of_mem_decimal (lt_of_lt_of_le (Nat.mod_lt _ (by decide))
      (by decide : 256 ≤ 1000)) hc
    exact isLineBreak_of_isDigit (by simpa [isDecDigit, Char.isDigit, Char.le_def] using hdigit)

theorem oneLine_listenText {value address : Str} (h : listenText true value = some address) :
    OneLine address := by
  rw [listenText] at h
  by_cases hnil : strip value = []
  · rw [if_pos hnil, Option.some.injEq] at h
    subst h
    exact fun c hc => absurd hc List.not_mem_nil
  · rw [if_neg hnil] at h
    obtain ⟨ip, -, h⟩ := Option.bind_eq_some_iff.mp h
    split_ifs at h with hv4
    cases h
    cases ip with
    | v4 n => exact oneLine_v4Str n
    | v6 n scope => cases hv4

/-- The settings that `validate_settings` leaves no line break in. -/
structure Normalized (cfg : EncryptionSettings) : Prop where
  listenIpv4 : OneLine cfg.listenIpv4
  dohEnabled : OneLine cfg.dohEnabled
  doh3Enabled : OneLine cfg.doh3Enabled
  dotEnabled : OneLine cfg.dotEnabled
  doqEnabled : OneLine cfg.doqEnabled
  dnscryptEnabled : OneLine cfg.dnscryptEnabled
  dohPort : OneLine cfg.dohPort
  doh3Port : OneLine cfg.doh3Port
  dotPort : OneLine cfg.dotPort
  doqPort : OneLine cfg.doqPort
  dnscryptPort : OneLine cfg.dnscryptPort

theorem validateSettings_spec {u : UnicodeData} {detected pendingCertAction : Str}
    {values : Dict Str Str} {cfg : EncryptionSettings}
    (h : validateSettings u detected pendingCertAction values = some cfg) : Normalized cfg := by
  simp only [validateSettings, Option.bind_eq_bind, Option.bind_eq_some_iff, Option.pure_def,
    Option.some.injEq] at h
  obtain ⟨_, -, _, -, ipv4, hipv4, _, -, _, -, doh, hdoh, doh3, hdoh3, dot, hdot, doq, hdoq, dnscrypt,
    hdnscrypt, _, -, rfl⟩ := h
  exact
    { listenIpv4 := oneLine_listenText hipv4
      dohEnabled := oneLine_flagText _
      doh3Enabled := oneLine_flagText _
      dotEnabled := oneLine_flagText _
      doqEnabled := oneLine_flagText _
      dnscryptEnabled := oneLine_flagText _
      dohPort := oneLine_portText hdoh
      doh3Port := oneLine_portText hdoh3
      dotPort := oneLine_portText hdot
      doqPort := oneLine_portText hdoq
      dnscryptPort := oneLine_portText hdnscrypt }

/-! ## The drop-in -/

theorem oneLine_assignmentLine {a : Str × Str} (hname : OneLine a.1) (hvalue : OneLine a.2) :
    OneLine (assignmentLine a) := by
  have hkey : OneLine "Environment=".toList := by decide
  refine (hkey.append hname).append fun c hc => ?_
  rcases List.mem_cons.mp hc with rfl | hc
  · decide
  · exact hvalue c hc

theorem value_eq_of_line {name value value' : Str}
    (h : assignmentLine (name, value) = assignmentLine (name, value')) : value = value' :=
  List.tail_eq_of_cons_eq (List.append_cancel_left h)

/-- The names of the variables, without what they begin with. -/
def variableNames : List String :=
  ["DNS_PLAIN", "DNS_LISTEN_IPV4", "DNS_LISTEN_IPV6", "DNS_DOH", "DNS_DOT", "DNS_DOQ", "DNS_DOH3",
    "DNS_DNSCRYPT", "TLS_CERT", "TLS_KEY", "DOH_PATH", "DOH_PORT", "DOH3_PORT", "DOT_PORT",
    "DOQ_PORT", "DNSCRYPT_PORT", "DNSCRYPT_PROVIDER", "DNSCRYPT_CERT", "DNSCRYPT_KEY"]

theorem names_assignmentsOf (cfg : EncryptionSettings) (paths : Str × Str) :
    (assignmentsOf cfg paths).map Prod.fst = variableNames.map variableName := rfl

theorem variableName_inj {name name' : String} (h : variableName name = variableName name') :
    name = name' :=
  String.toList_inj.mp (List.append_cancel_left h)

theorem nodup_names (cfg : EncryptionSettings) (paths : Str × Str) :
    ((assignmentsOf cfg paths).map Prod.fst).Nodup := by
  rw [names_assignmentsOf]
  exact List.Nodup.map (fun _ _ h => variableName_inj h) (by decide : variableNames.Nodup)

theorem plain_variableNames :
    ∀ name ∈ variableNames.map variableName, OneLine name ∧ '=' ∉ name := by decide +kernel

theorem plain_name {cfg : EncryptionSettings} {paths : Str × Str} {a : Str × Str}
    (ha : a ∈ assignmentsOf cfg paths) : OneLine a.1 ∧ '=' ∉ a.1 :=
  plain_variableNames a.1 (names_assignmentsOf cfg paths ▸ List.mem_map_of_mem ha)

/-! ### What is read -/

theorem lineAssignment_assignmentLine {a : Str × Str} (h : '=' ∉ a.1) :
    lineAssignment (assignmentLine a) = some a := by
  have hstart : startsWith (assignmentLine a) "Environment=".toList = true :=
    (startsWith_iff _ _).mpr ⟨a.1 ++ '=' :: a.2, (List.append_assoc _ _ _).symm⟩
  have hdrop : (assignmentLine a).drop 12 = a.1 ++ '=' :: a.2 := rfl
  have hkeep : ∀ c ∈ a.1, decide (c ≠ '=') = true := fun c hc =>
    decide_eq_true fun heq => h (heq ▸ hc)
  rw [lineAssignment, if_pos hstart, hdrop, partition, List.takeWhile_append_of_pos hkeep,
    List.dropWhile_append_of_pos hkeep]
  simp

theorem filterMap_overrideLines {as : List (Str × Str)} (h : ∀ a ∈ as, '=' ∉ a.1) :
    (overrideLines as).filterMap lineAssignment = as := by
  have hservice : lineAssignment "[Service]".toList = none := by decide
  rw [overrideLines, List.filterMap_cons, hservice]
  induction as with
  | nil => rfl
  | cons a as ih =>
      obtain ⟨ha, has⟩ := List.forall_mem_cons.mp h
      simp only [List.map_cons, List.filterMap_cons, lineAssignment_assignmentLine ha]
      exact congrArg _ (ih has)

/-- Lines without line breaks give their assignments back. -/
theorem lookup_envFromOverride {cfg : EncryptionSettings} {paths : Str × Str}
    (h : ∀ a ∈ assignmentsOf cfg paths, OneLine a.2) (key : Str) :
    (envFromOverride (linesText (overrideLines (assignmentsOf cfg paths)))).lookup key
      = (assignmentsOf cfg paths).lookup key := by
  have hlines : ∀ line ∈ overrideLines (assignmentsOf cfg paths), OneLine line := by
    refine List.forall_mem_cons.mpr ⟨by decide, fun line hline => ?_⟩
    obtain ⟨a, ha, rfl⟩ := List.mem_map.mp hline
    exact oneLine_assignmentLine (plain_name ha).1 (h a ha)
  rw [envFromOverride, splitlines_linesText hlines (List.cons_ne_nil _ _),
    filterMap_overrideLines fun a ha => (plain_name ha).2,
    Dict.lookup_foldl_insert (nodup_names cfg paths)]
  simp

/-- A value that is read is one line. -/
theorem oneLine_of_lookup {text key value : Str}
    (h : (envFromOverride text).lookup key = some value) : OneLine value := by
  have hread : ∀ a ∈ (splitlines text).filterMap lineAssignment, OneLine a.2 := by
    intro a ha
    obtain ⟨line, hline, hassign⟩ := List.mem_filterMap.mp ha
    unfold lineAssignment at hassign
    split_ifs at hassign
    cases hassign
    refine (oneLine_of_mem_splitlines line hline).subset fun c hc => ?_
    exact List.mem_of_mem_drop ((List.dropWhile_suffix _).subset (List.mem_of_mem_drop hc))
  have hfold : ∀ (as : List (Str × Str)) (out : Dict Str Str), (∀ a ∈ as, OneLine a.2) →
      (∀ v, out.lookup key = some v → OneLine v) →
      ∀ v, (as.foldl (fun out a => out.insert a.1 a.2) out).lookup key = some v → OneLine v := by
    intro as
    induction as with
    | nil => exact fun out _ hout => hout
    | cons a as ih =>
        intro out has hout
        obtain ⟨ha, has⟩ := List.forall_mem_cons.mp has
        refine ih _ has fun v hv => ?_
        rw [Dict.lookup_insert'] at hv
        split_ifs at hv
        · rw [← Option.some.inj hv]
          exact ha
        · exact hout v hv
  exact hfold _ ∅ hread (fun v hv => by simp at hv) value h

/-! ### Accepted settings -/

/-- The drop-in consists of the assignments, one on each line, and they are read back. -/
def OverrideExact (cfg : EncryptionSettings) : Prop :=
  split '\n' (renderEnvOverride cfg) = overrideLines (assignments cfg) ++ [[]] ∧
    ∀ key, (envFromOverride (renderEnvOverride cfg)).lookup key = (assignments cfg).lookup key

/-- What is left as it was typed has no line break, and paths are written as `Path` writes them. -/
structure PlainTexts (cfg : EncryptionSettings) : Prop where
  listenIpv6 : OneLine cfg.listenIpv6
  dohPath : OneLine cfg.dohPath
  dnscryptProvider : OneLine cfg.dnscryptProvider
  paths : cfg.certMode = "existing_path".toList →
    ∀ path ∈ [cfg.certPath, cfg.keyPath], OneLine path ∧ pathText path = path

theorem oneLine_pathText {s : Str} (h : OneLine s) : OneLine (pathText s) := by
  have hparts : OneLine (join ['/'] ((split '/' s).filter fun part => part ≠ [] && part ≠ ['.'])) := by
    intro c hc
    rcases mem_join hc with hc | ⟨part, hpart, hc⟩
    · rw [List.mem_singleton.mp hc]
      decide
    · exact h c (mem_of_mem_split (List.mem_of_mem_filter hpart) hc)
  have hroot : OneLine (pathRoot s) := by
    unfold pathRoot
    split_ifs <;> decide
  unfold pathText
  dsimp only
  split_ifs
  · decide
  · exact hroot.append hparts

theorem resolveActiveCertPaths_eq {cfg : EncryptionSettings} (h : PlainTexts cfg) :
    resolveActiveCertPaths cfg = acceptedPair cfg := by
  rw [resolveActiveCertPaths, acceptedPair]
  by_cases hmode : cfg.certMode = "existing_path".toList
  · have hpaths := h.paths hmode
    simp only [List.forall_mem_cons, List.not_mem_nil, false_imp_iff, implies_true,
      and_true] at hpaths
    rw [hpaths.1.2, hpaths.2.2]
  · simp only [hmode, if_false]

/-- Every value is one line when those are that were typed. -/
theorem oneLine_of_mem {cfg : EncryptionSettings} {paths : Str × Str} (hnorm : Normalized cfg)
    (hipv6 : OneLine cfg.listenIpv6) (hpath : OneLine cfg.dohPath)
    (hprovider : OneLine cfg.dnscryptProvider) (hcert : OneLine paths.1) (hkey : OneLine paths.2) :
    ∀ a ∈ assignmentsOf cfg paths, OneLine a.2 := by
  have hone : OneLine ['1'] := by decide
  have hdnscryptCert : OneLine dnscryptCertPath := by decide
  have hdnscryptKey : OneLine dnscryptKeyPath := by decide
  simp only [assignmentsOf, List.forall_mem_cons, List.not_mem_nil, false_imp_iff, implies_true,
    and_true]
  exact ⟨hone, hnorm.listenIpv4, hipv6, hnorm.dohEnabled, hnorm.dotEnabled, hnorm.doqEnabled,
    hnorm.doh3Enabled, hnorm.dnscryptEnabled, hcert, hkey, hpath, hnorm.dohPort, hnorm.doh3Port,
    hnorm.dotPort, hnorm.doqPort, hnorm.dnscryptPort, hprovider, hdnscryptCert, hdnscryptKey⟩

theorem oneLine_acceptedPair {cfg : EncryptionSettings}
    (h : cfg.certMode = "existing_path".toList → OneLine cfg.certPath ∧ OneLine cfg.keyPath) :
    OneLine (acceptedPair cfg).1 ∧ OneLine (acceptedPair cfg).2 := by
  unfold acceptedPair
  split_ifs with huploaded hexisting
  · decide
  · exact h hexisting
  · decide

theorem split_renderEnvOverride {cfg : EncryptionSettings}
    (h : ∀ a ∈ assignmentsOf cfg (resolveActiveCertPaths cfg), OneLine a.2) :
    split '\n' (renderEnvOverride cfg)
      = overrideLines (assignmentsOf cfg (resolveActiveCertPaths cfg)) ++ [[]] := by
  rw [renderEnvOverride_eq]
  refine split_linesText (List.forall_mem_cons.mpr ⟨by decide, fun line hline => ?_⟩)
    (List.cons_ne_nil _ _)
  obtain ⟨a, ha, rfl⟩ := List.mem_map.mp hline
  exact (oneLine_assignmentLine (plain_name ha).1 (h a ha)).newline_notMem

theorem overrideExact_of_plain {cfg : EncryptionSettings} (hnorm : Normalized cfg)
    (h : PlainTexts cfg) : OverrideExact cfg := by
  have hresolve := resolveActiveCertPaths_eq h
  have hpair := oneLine_acceptedPair fun hmode =>
    ⟨(h.paths hmode cfg.certPath (by simp)).1, (h.paths hmode cfg.keyPath (by simp)).1⟩
  have hvalues : ∀ a ∈ assignmentsOf cfg (resolveActiveCertPaths cfg), OneLine a.2 := by
    rw [hresolve]
    exact oneLine_of_mem hnorm h.listenIpv6 h.dohPath h.dnscryptProvider hpair.1 hpair.2
  refine ⟨?_, fun key => ?_⟩
  · rw [split_renderEnvOverride hvalues, hresolve]
    rfl
  · rw [renderEnvOverride_eq, lookup_envFromOverride hvalues, hresolve]
    rfl

theorem plainTexts_of_exact {cfg : EncryptionSettings} (hnorm : Normalized cfg)
    (h : OverrideExact cfg) : PlainTexts cfg := by
  have hread : ∀ a ∈ assignments cfg, OneLine a.2 := fun a ha =>
    oneLine_of_lookup ((h.2 a.1).trans (Dict.lookup_of_mem (nodup_names cfg _) ha))
  simp only [assignments, assignmentsOf, List.forall_mem_cons] at hread
  obtain ⟨-, -, hipv6, -, -, -, -, -, hcert, hkey, hpath, -, -, -, -, -, hprovider, -⟩ := hread
  refine ⟨hipv6, hpath, hprovider, fun hmode => ?_⟩
  have hresolve : resolveActiveCertPaths cfg = (pathText cfg.certPath, pathText cfg.keyPath) := by
    rw [resolveActiveCertPaths, hmode]
    rfl
  have haccepted : acceptedPair cfg = (cfg.certPath, cfg.keyPath) := by
    rw [acceptedPair, hmode]
    rfl
  rw [haccepted] at hcert hkey
  -- the lines that are written are the lines that were to be written
  have hlines := h.1
  rw [split_renderEnvOverride, List.append_left_inj, assignments, haccepted, hresolve,
    overrideLines, overrideLines, List.cons.injEq] at hlines
  · have hcertLine := congrArg (·[8]?) hlines.2
    have hkeyLine := congrArg (·[9]?) hlines.2
    have hcertEq := value_eq_of_line (Option.some.inj hcertLine)
    have hkeyEq := value_eq_of_line (Option.some.inj hkeyLine)
    simp only [List.forall_mem_cons, List.not_mem_nil, false_imp_iff, implies_true, and_true]
    exact ⟨⟨hcert, hcertEq⟩, hkey, hkeyEq⟩
  · rw [hresolve]
    exact oneLine_of_mem hnorm hipv6 hpath hprovider (oneLine_pathText hcert)
      (oneLine_pathText hkey)

/-- For accepted settings the drop-in consists of the assignments, one on each line, and gives each
of them back, exactly when what was left as it was typed has no line break and is a path as `Path`
writes it. -/
theorem override_exact_iff (u : UnicodeData) (detected pendingCertAction : Str)
    (values : Dict Str Str) {cfg : EncryptionSettings}
    (h : validateSettings u detected pendingCertAction values = some cfg) :
    OverrideExact cfg ↔ PlainTexts cfg :=
  ⟨plainTexts_of_exact (validateSettings_spec h), overrideExact_of_plain (validateSettings_spec h)⟩

/-! ### A DoH path with a second line -/

/-- Tables for text that is ASCII. -/
def asciiHostnames : UnicodeData := ⟨id, some⟩

/-- The form with this DoH path. -/
def formValues (dohPath : String) : Dict Str Str :=
  ((∅ : Dict Str Str).insert "server_hostname".toList "dns.example.org".toList).insert
    "doh_path".toList dohPath.toList

theorem injected_variable : ∃ cfg,
    validateSettings asciiHostnames "192.0.2.1".toList "none".toList
      (formValues "/dns-query\nEnvironment=LD_PRELOAD=/tmp/x.so") = some cfg ∧
    (envFromOverride (renderEnvOverride cfg)).lookup "LD_PRELOAD".toList
      = some "/tmp/x.so".toList ∧
    ¬OverrideExact cfg := by
  have haccepted : (validateSettings asciiHostnames "192.0.2.1".toList "none".toList
      (formValues "/dns-query\nEnvironment=LD_PRELOAD=/tmp/x.so")).any (fun cfg =>
        decide ((envFromOverride (renderEnvOverride cfg)).lookup "LD_PRELOAD".toList
          = some "/tmp/x.so".toList)) = true := by
    decide +kernel
  obtain ⟨cfg, hcfg, hread⟩ := (Option.any_eq_true _ _).mp haccepted
  have hread := of_decide_eq_true hread
  refine ⟨cfg, hcfg, hread, fun h => ?_⟩
  have hother : "LD_PRELOAD".toList ∉ variableNames.map variableName := by decide +kernel
  have hnone : (assignments cfg).lookup "LD_PRELOAD".toList = none :=
    List.lookup_eq_none_iff.mpr fun a ha => by
      rw [bne_iff_ne]
      intro heq
      exact hother (heq ▸ names_assignmentsOf cfg _ ▸ List.mem_map_of_mem ha)
  rw [h.2, hnone] at hread
  cases hread

theorem override_exact_iff_default : ∃ cfg,
    validateSettings asciiHostnames "192.0.2.1".toList "none".toList (formValues "/dns-query")
      = some cfg ∧ OverrideExact cfg := by
  have haccepted : (validateSettings asciiHostnames "192.0.2.1".toList "none".toList
      (formValues "/dns-query")).any (fun cfg => decide (OneLine cfg.listenIpv6 ∧
        OneLine cfg.dohPath ∧ OneLine cfg.dnscryptProvider ∧
        cfg.certMode ≠ "existing_path".toList)) = true := by
    decide +kernel
  obtain ⟨cfg, hcfg, hplain⟩ := (Option.any_eq_true _ _).mp haccepted
  obtain ⟨hipv6, hpath, hprovider, hmode⟩ := of_decide_eq_true hplain
  exact ⟨cfg, hcfg, (override_exact_iff asciiHostnames "192.0.2.1".toList "none".toList
    (formValues "/dns-query") hcfg).mpr ⟨hipv6, hpath, hprovider, fun h => absurd h hmode⟩⟩

end AlderpointDNS.Encryption
