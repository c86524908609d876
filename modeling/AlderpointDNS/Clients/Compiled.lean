import AlderpointDNS.Clients.Access
import AlderpointDNS.Clients.Identifiers
import Mathlib.Tactic.Tauto

/-!
# The compiled access policy

`renderAccessData` writes the effective rules into data files, and the Lua loader turns these into
dnsdist rules: `accessPolicyRules` lists them, `refuses` is what they do to a query.  What a
netmask matches is a parameter, taken to be what CIDR notation says (`ReadsCidr`).

* `accessLines_accessText` — the loader reads the entries that were written;
* `refuses_iff` — which queries are refused, in terms of these entries;
* `entryMatches_iff` — an entry of a rule matches what the rule matches in `evaluateAccess`, and an
  address with another scope id as well;
* **`allowed_iff_not_refused`** — when the two agree.
* `scope_ignored` — a query on which they do not.
-/

namespace AlderpointDNS

open Text Ipaddress Encodings

/-! ## The data files -/

/-- The four kinds of data files. -/
inductive DataKind where
  | v4
  | v6
  | sni
  | path
  deriving DecidableEq

/-- A line of a data file, with the file it goes to. -/
structure DataEntry where
  action : AllowDeny
  kind : DataKind
  text : Str
  deriving DecidableEq

/-- `_check_line_safe`. -/
def isLineSafe (entry : Str) : Bool := entry.all fun ch => !(ch.toNat < 32 || ch.toNat = 127)

/-- The entries of one rule, `none` where the value is missing or the encoding fails. -/
def ruleEntries (dohBasePath : Str) (rule : EffectiveRule) : Option (List DataEntry) :=
  rule.value.bind fun value =>
    match rule.kind with
    | .ipv4 => some [⟨rule.action, .v4, value ++ "/32".toList⟩]
    | .ipv4Cidr => some [⟨rule.action, .v4, value⟩]
    | .ipv6 => some [⟨rule.action, .v6, value ++ "/128".toList⟩]
    | .ipv6Cidr => some [⟨rule.action, .v6, value⟩]
    | .clientid => (clientidSniHostname value).map fun sni =>
        [⟨rule.action, .sni, sni⟩, ⟨rule.action, .path, clientidDohPath dohBasePath value⟩]

/-- The loop over the expanded rules. -/
def dataEntries (dohBasePath : Str) (expanded : List EffectiveRule) : Option (List DataEntry) :=
  (expanded.mapM (ruleEntries dohBasePath)).map List.flatten

/-- `sorted(set(…))` of the list for one file. -/
def fileEntries (entries : List DataEntry) (action : AllowDeny) (kind : DataKind) : List Str :=
  sortedSet ((entries.filter fun e => e.action = action && e.kind = kind).map (·.text)).toFinset

/-- `text`. -/
def accessText (entries : List Str) : Option Str :=
  if entries.all isLineSafe then
    some (join ['\n'] entries ++ if entries = [] then [] else ['\n'])
  else none

/-- The files that `render_access_data` returns. -/
structure AccessData where
  allowV4 : Str
  allowV6 : Str
  denyV4 : Str
  denyV6 : Str
  allowSni : Str
  denySni : Str
  allowPath : Str
  denyPath : Str
  defaultPolicy : Str
  deriving DecidableEq

/-- `render_access_data`. -/
def renderAccessData (rules : List AccessRule) (clientsById : ℕ → Option ClientInfo)
    (defaultPolicy : AllowDeny) (dohBasePath : Str) : Option AccessData := do
  let entries ← dataEntries dohBasePath (expandRules rules clientsById)
  let text action kind := accessText (fileEntries entries action kind)
  return {
    allowV4 := ← text .allow .v4
    allowV6 := ← text .allow .v6
    denyV4 := ← text .deny .v4
    denyV6 := ← text .deny .v6
    allowSni := ← text .allow .sni
    denySni := ← text .deny .sni
    allowPath := ← text .allow .path
    denyPath := ← text .deny .path
    defaultPolicy := defaultPolicy.text ++ ['\n'] }

/-! ## The Lua loader -/

/-- `NetmaskGroupRule`, `SNIRule` and `HTTPPathRule`. -/
inductive Selector where
  | netmaskGroup (masks : List Str)
  | sni (name : Str)
  | httpPath (path : Str)
  deriving DecidableEq

/-- A rule whose action is to refuse: a selector, or `NotRule(OrRule(parts))`. -/
inductive RefuseRule where
  | selector (s : Selector)
  | notOr (parts : List Selector)
  deriving DecidableEq

/-- `alderpointdnsAccessLines`. -/
def accessLines (file : Str) : List Str := (split '\n' file).filter (· ≠ [])

/-- The rule of `alderpointdnsNMG`, which is `nil` for a file without entries. -/
def netmaskRule (file : Str) : List RefuseRule :=
  if accessLines file = [] then [] else [.selector (.netmaskGroup (accessLines file))]

/-- `alderpointdnsDefaultPolicy`. -/
def readDefaultPolicy (file : Str) : Str :=
  if file = [] then "allow".toList else (split '\n' file).headD []

/-- `alderpointdnsGateParts`. -/
def gateParts (data : AccessData) : List Selector :=
  [.netmaskGroup (accessLines data.allowV4 ++ ["127.0.0.1/32".toList]),
    .netmaskGroup (accessLines data.allowV6 ++ ["::1/128".toList])]
    ++ (accessLines data.allowSni).map Selector.sni
    ++ (accessLines data.allowPath).map Selector.httpPath

/-- The rules that `render_access_lua` adds for the data files, in order. -/
def accessPolicyRules (data : AccessData) : List RefuseRule :=
  netmaskRule data.denyV4 ++ netmaskRule data.denyV6
    ++ (accessLines data.denySni).map (fun name => RefuseRule.selector (.sni name))
    ++ (accessLines data.denyPath).map (fun path => RefuseRule.selector (.httpPath path))
    ++ if readDefaultPolicy data.defaultPolicy = "deny".toList then [.notOr (gateParts data)]
      else []

/-- A query as dnsdist sees it: the client's address, the server name of the TLS handshake, and
the path of the HTTP request. -/
structure DnsQuery where
  remote : IpAddress
  sni : Option Str
  path : Option Str

/-- What a netmask in CIDR notation matches. -/
def ReadsCidr (maskMatches : Str → IpAddress → Bool) : Prop :=
  ∀ mask net, ipNetwork mask = some net → ∀ a, maskMatches mask a = net.contains a

def Selector.isMatch (maskMatches : Str → IpAddress → Bool) (q : DnsQuery) : Selector → Bool
  | .netmaskGroup masks => masks.any (maskMatches · q.remote)
  | .sni name => q.sni = some name
  | .httpPath path => q.path = some path

def RefuseRule.isMatch (maskMatches : Str → IpAddress → Bool) (q : DnsQuery) : RefuseRule → Bool
  | .selector s => s.isMatch maskMatches q
  | .notOr parts => !parts.any (·.isMatch maskMatches q)

/-- Whether the compiled layer refuses the query. -/
def refuses (maskMatches : Str → IpAddress → Bool) (data : AccessData) (q : DnsQuery) : Bool :=
  (accessPolicyRules data).any (·.isMatch maskMatches q)

/-- The query carries no ClientID, or one as `clientid_sni_hostname` or `clientid_doh_path`. -/
inductive Presents (dohBasePath : Str) : Option Str → DnsQuery → Prop
  | none {remote : IpAddress} {sni path : Option Str}
      (hsni : ∀ d host, IsClientid d → clientidSniHostname d = some host → sni ≠ some host)
      (hpath : ∀ d, IsClientid d → path ≠ some (clientidDohPath dohBasePath d)) :
      Presents dohBasePath none ⟨remote, sni, path⟩
  | sni {remote : IpAddress} {id host : Str} (h : clientidSniHostname id = some host) :
      Presents dohBasePath (some id) ⟨remote, some host, Option.none⟩
  | path {remote : IpAddress} {id : Str} {sni : Option Str}
      (hsni : ∀ d host, IsClientid d → clientidSniHostname d = some host → sni ≠ some host) :
      Presents dohBasePath (some id) ⟨remote, sni, some (clientidDohPath dohBasePath id)⟩

/-! ## Lines -/

theorem newline_notMem {entry : Str} (h : isLineSafe entry = true) : '\n' ∉ entry := by
  intro hmem
  have hsafe := List.all_eq_true.mp h '\n' hmem
  exact absurd hsafe (by decide)

theorem isLineSafe_of_accessText {entries : List Str} {file : Str}
    (h : accessText entries = some file) :
    ∀ e ∈ entries, isLineSafe e = true := by
  by_contra hunsafe
  rw [accessText, if_neg (by simpa using hunsafe)] at h
  cases h

/-- **The loader reads back the entries of a file.** -/
theorem accessLines_accessText {entries : List Str} {file : Str} (hne : [] ∉ entries)
    (h : accessText entries = some file) : accessLines file = entries := by
  have hsafe := isLineSafe_of_accessText h
  rw [accessText, if_pos (List.all_eq_true.mpr hsafe)] at h
  split_ifs at h with hnil
  · cases h
    rw [hnil]
    decide
  · cases h
    have hsep : ∀ e ∈ entries, '\n' ∉ e := fun e he =>
      newline_notMem (hsafe e he)
    have hkeep : entries.filter (· ≠ []) = entries := by
      refine List.filter_eq_self.mpr fun e he => ?_
      rw [decide_eq_true_eq]
      rintro rfl
      exact hne he
    rw [accessLines, split_join_append hsep hnil, List.filter_append, hkeep]
    simp

theorem readDefaultPolicy_text (policy : AllowDeny) :
    readDefaultPolicy (policy.text ++ ['\n']) = policy.text := by
  cases policy <;> decide

theorem mem_fileEntries {entries : List DataEntry} {action : AllowDeny} {kind : DataKind}
    {text : Str} : text ∈ fileEntries entries action kind ↔ ⟨action, kind, text⟩ ∈ entries := by
  rw [fileEntries, mem_sortedSet, List.mem_toFinset, List.mem_map]
  constructor
  · rintro ⟨e, he, rfl⟩
    rw [List.mem_filter, Bool.and_eq_true, decide_eq_true_eq, decide_eq_true_eq] at he
    obtain ⟨hmem, rfl, rfl⟩ := he
    exact hmem
  · intro h
    exact ⟨_, List.mem_filter.mpr ⟨h, by simp⟩, rfl⟩

/-- The file for an action and a kind. -/
def AccessData.file (data : AccessData) : AllowDeny → DataKind → Str
  | .allow, .v4 => data.allowV4
  | .allow, .v6 => data.allowV6
  | .deny, .v4 => data.denyV4
  | .deny, .v6 => data.denyV6
  | .allow, .sni => data.allowSni
  | .deny, .sni => data.denySni
  | .allow, .path => data.allowPath
  | .deny, .path => data.denyPath

theorem renderAccessData_eq_some {rules : List AccessRule} {clientsById : ℕ → Option ClientInfo}
    {defaultPolicy : AllowDeny} {dohBasePath : Str} {data : AccessData} :
    renderAccessData rules clientsById defaultPolicy dohBasePath = some data ↔
      ∃ entries, dataEntries dohBasePath (expandRules rules clientsById) = some entries
        ∧ (∀ action kind, accessText (fileEntries entries action kind)
          = some (data.file action kind))
        ∧ data.defaultPolicy = defaultPolicy.text ++ ['\n'] := by
  simp only [renderAccessData, Option.bind_eq_bind, Option.bind_eq_some_iff, Option.pure_def,
    Option.some.injEq]
  constructor
  · rintro ⟨entries, hentries, a, ha, b, hb, c, hc, d, hd, e, he, f, hf, g, hg, h, hh, rfl⟩
    refine ⟨entries, hentries, fun action kind => ?_, rfl⟩
    cases action <;> cases kind <;> assumption
  · rintro ⟨entries, hentries, hfile, hpolicy⟩
    refine ⟨entries, hentries, _, hfile .allow .v4, _, hfile .allow .v6, _, hfile .deny .v4, _,
      hfile .deny .v6, _, hfile .allow .sni, _, hfile .deny .sni, _, hfile .allow .path, _,
      hfile .deny .path, ?_⟩
    rw [← hpolicy]
    rfl

/-- **The files are written exactly if every entry is safe.** -/
theorem exists_render_iff {rules : List AccessRule} {clientsById : ℕ → Option ClientInfo}
    {defaultPolicy : AllowDeny} {dohBasePath : Str} {entries : List DataEntry}
    (hentries : dataEntries dohBasePath (expandRules rules clientsById) = some entries) :
    (∃ data, renderAccessData rules clientsById defaultPolicy dohBasePath = some data)
      ↔ ∀ e ∈ entries, isLineSafe e.text = true := by
  constructor
  · rintro ⟨data, hdata⟩ e he
    obtain ⟨entries', hentries', hfile, -⟩ := renderAccessData_eq_some.mp hdata
    rw [hentries] at hentries'
    cases hentries'
    exact isLineSafe_of_accessText (hfile e.action e.kind) e.text (mem_fileEntries.mpr he)
  · intro hsafe
    have htext : ∀ action kind, ∃ file, accessText (fileEntries entries action kind) = some file := by
      intro action kind
      refine ⟨_, if_pos (List.all_eq_true.mpr fun text htext => ?_)⟩
      exact hsafe _ (mem_fileEntries.mp htext)
    choose file hfile using htext
    refine ⟨⟨file .allow .v4, file .allow .v6, file .deny .v4, file .deny .v6, file .allow .sni,
      file .deny .sni, file .allow .path, file .deny .path, defaultPolicy.text ++ ['\n']⟩,
      renderAccessData_eq_some.mpr ⟨entries, hentries, fun action kind => ?_, rfl⟩⟩
    cases action <;> cases kind <;> exact hfile _ _

/-! ## What is refused -/

/-- What an entry matches. -/
def DataEntry.isMatch (maskMatches : Str → IpAddress → Bool) (q : DnsQuery) (e : DataEntry) :
    Bool :=
  match e.kind with
  | .v4 | .v6 => maskMatches e.text q.remote
  | .sni => q.sni = some e.text
  | .path => q.path = some e.text

theorem netmaskRule_any {maskMatches : Str → IpAddress → Bool} {q : DnsQuery} {file : Str} :
    (netmaskRule file).any (·.isMatch maskMatches q)
      = (accessLines file).any (maskMatches · q.remote) := by
  rw [netmaskRule]
  split_ifs with h
  · simp [h]
  · simp [RefuseRule.isMatch, Selector.isMatch]

section Refused

variable {maskMatches : Str → IpAddress → Bool} {q : DnsQuery} {entries : List DataEntry}
  {data : AccessData}

/-- An entry of an action that matches is in one of its four files. -/
theorem exists_entry_iff
    (hlines : ∀ action kind, accessLines (data.file action kind) = fileEntries entries action kind)
    (action : AllowDeny) :
    (∃ e ∈ entries, e.action = action ∧ e.isMatch maskMatches q = true) ↔
      (∃ mask ∈ accessLines (data.file action .v4), maskMatches mask q.remote = true)
        ∨ (∃ mask ∈ accessLines (data.file action .v6), maskMatches mask q.remote = true)
        ∨ (∃ name ∈ accessLines (data.file action .sni), q.sni = some name)
        ∨ ∃ path ∈ accessLines (data.file action .path), q.path = some path := by
  simp only [hlines, mem_fileEntries]
  constructor
  · rintro ⟨⟨_, kind, text⟩, he, rfl, hmatch⟩
    cases kind with
    | v4 => exact Or.inl ⟨text, he, hmatch⟩
    | v6 => exact Or.inr (Or.inl ⟨text, he, hmatch⟩)
    | sni => exact Or.inr (Or.inr (Or.inl ⟨text, he, by simpa [DataEntry.isMatch] using hmatch⟩))
    | path => exact Or.inr (Or.inr (Or.inr ⟨text, he, by simpa [DataEntry.isMatch] using hmatch⟩))
  · rintro (⟨text, he, h⟩ | ⟨text, he, h⟩ | ⟨text, he, h⟩ | ⟨text, he, h⟩)
    · exact ⟨_, he, rfl, h⟩
    · exact ⟨_, he, rfl, h⟩
    · exact ⟨_, he, rfl, by simp [DataEntry.isMatch, h]⟩
    · exact ⟨_, he, rfl, by simp [DataEntry.isMatch, h]⟩

theorem any_netmaskRule (file : Str) :
    (∃ rule ∈ netmaskRule file, rule.isMatch maskMatches q = true)
      ↔ ∃ mask ∈ accessLines file, maskMatches mask q.remote = true := by
  rw [← List.any_eq_true, ← List.any_eq_true, netmaskRule_any]

/-- The addresses that the gate always lets through. -/
def isExempt (maskMatches : Str → IpAddress → Bool) (q : DnsQuery) : Bool :=
  maskMatches "127.0.0.1/32".toList q.remote || maskMatches "::1/128".toList q.remote

theorem any_gateParts
    (hlines : ∀ action kind, accessLines (data.file action kind) = fileEntries entries action kind) :
    (∃ part ∈ gateParts data, part.isMatch maskMatches q = true) ↔
      isExempt maskMatches q = true
        ∨ ∃ e ∈ entries, e.action = .allow ∧ e.isMatch maskMatches q = true := by
  rw [exists_entry_iff hlines]
  simp only [gateParts, isExempt, AccessData.file, List.mem_append, List.mem_cons, List.mem_map,
    List.not_mem_nil, or_false, Bool.or_eq_true]
  constructor
  · rintro ⟨part, (((rfl | rfl) | ⟨name, hname, rfl⟩) | ⟨path, hpath, rfl⟩), h⟩
    · rw [Selector.isMatch, List.any_append, Bool.or_eq_true, List.any_eq_true] at h
      rcases h with h | h
      · exact Or.inr (Or.inl h)
      · exact Or.inl (Or.inl (by simpa using h))
    · rw [Selector.isMatch, List.any_append, Bool.or_eq_true, List.any_eq_true] at h
      rcases h with h | h
      · exact Or.inr (Or.inr (Or.inl h))
      · exact Or.inl (Or.inr (by simpa using h))
    · exact Or.inr (Or.inr (Or.inr (Or.inl ⟨name, hname, of_decide_eq_true h⟩)))
    · exact Or.inr (Or.inr (Or.inr (Or.inr ⟨path, hpath, of_decide_eq_true h⟩)))
  · rintro ((h | h) | ⟨mask, hmask, h⟩ | ⟨mask, hmask, h⟩ | ⟨name, hname, h⟩ | ⟨path, hpath, h⟩)
    · exact ⟨_, Or.inl (Or.inl (Or.inl rfl)), by
        simp only [Selector.isMatch, List.any_append, Bool.or_eq_true]
        exact Or.inr (by simpa using h)⟩
    · exact ⟨_, Or.inl (Or.inl (Or.inr rfl)), by
        simp only [Selector.isMatch, List.any_append, Bool.or_eq_true]
        exact Or.inr (by simpa using h)⟩
    · exact ⟨_, Or.inl (Or.inl (Or.inl rfl)), by
        simp only [Selector.isMatch, List.any_append, Bool.or_eq_true]
        exact Or.inl (List.any_eq_true.mpr ⟨mask, hmask, h⟩)⟩
    · exact ⟨_, Or.inl (Or.inl (Or.inr rfl)), by
        simp only [Selector.isMatch, List.any_append, Bool.or_eq_true]
        exact Or.inl (List.any_eq_true.mpr ⟨mask, hmask, h⟩)⟩
    · exact ⟨_, Or.inl (Or.inr ⟨name, hname, rfl⟩), decide_eq_true h⟩
    · exact ⟨_, Or.inr ⟨path, hpath, rfl⟩, decide_eq_true h⟩

/-- **Which queries are refused**: those that a deny entry matches, and under default deny those
that no allow entry matches and that are not exempt. -/
theorem refuses_iff {policy : AllowDeny}
    (hlines : ∀ action kind, accessLines (data.file action kind) = fileEntries entries action kind)
    (hpolicy : data.defaultPolicy = policy.text ++ ['\n']) :
    refuses maskMatches data q = true ↔
      (∃ e ∈ entries, e.action = .deny ∧ e.isMatch maskMatches q = true)
        ∨ policy = .deny ∧ isExempt maskMatches q = false
          ∧ ¬ ∃ e ∈ entries, e.action = .allow ∧ e.isMatch maskMatches q = true := by
  have hgate : (∃ rule ∈ (if readDefaultPolicy data.defaultPolicy = "deny".toList then
        [RefuseRule.notOr (gateParts data)] else []), rule.isMatch maskMatches q = true)
      ↔ policy = .deny ∧ isExempt maskMatches q = false
        ∧ ¬ ∃ e ∈ entries, e.action = .allow ∧ e.isMatch maskMatches q = true := by
    rw [hpolicy, readDefaultPolicy_text]
    cases policy with
    | allow => simp [AllowDeny.text]
    | deny =>
        have hdeny : AllowDeny.deny.text = "deny".toList := rfl
        have hparts := @any_gateParts maskMatches q entries data hlines
        rw [if_pos hdeny, ← Bool.not_eq_true, ← not_or, ← hparts]
        simp [RefuseRule.isMatch]
  rw [exists_entry_iff hlines, refuses, List.any_eq_true, accessPolicyRules]
  simp only [List.mem_append, or_and_right, exists_or, any_netmaskRule, hgate, AccessData.file]
  simp only [List.mem_map, exists_exists_and_eq_and, RefuseRule.isMatch, Selector.isMatch,
    decide_eq_true_eq, or_assoc]

end Refused

/-! ## One rule -/

/-- The rule names the client's address, but with another scope id. -/
def EffectiveRule.otherScope (address : IpAddress) (rule : EffectiveRule) : Prop :=
  rule.kind = .ipv6 ∧ ∃ n scope scope', rule.value.bind ipAddress = some (.v6 n scope)
    ∧ address = .v6 n scope' ∧ scope ≠ scope'

theorem maskTo_all (bits n : ℕ) : maskTo bits bits n = n := by simp [maskTo]

theorem contains_host_v4 (n : ℕ) (a : IpAddress) :
    (IpNetwork.contains ⟨true, maskTo 32 32 n, 32⟩ a = true) ↔ a = .v4 n := by
  cases a with
  | v4 m => simp [IpNetwork.contains, maskTo_all]
  | v6 m scope => simp [IpNetwork.contains]

theorem contains_host_v6 (n : ℕ) (a : IpAddress) :
    (IpNetwork.contains ⟨false, maskTo 128 128 n, 128⟩ a = true) ↔ ∃ scope, a = .v6 n scope := by
  cases a with
  | v4 m => simp [IpNetwork.contains]
  | v6 m scope => simp [IpNetwork.contains, maskTo_all]

/-- The entries of a ClientID match the queries that carry it. -/
theorem presents_iff {base value host : Str} {id : Option Str} {q : DnsQuery}
    (hq : Presents base id q) (hid : ∀ c ∈ id, IsClientid c) (hvalue : IsClientid value)
    (hhost : clientidSniHostname value = some host) :
    (q.sni = some host ∨ q.path = some (clientidDohPath base value)) ↔ id = some value := by
  cases hq with
  | none hsni hpath => exact iff_of_false (not_or.mpr ⟨hsni value host hvalue hhost,
      hpath value hvalue⟩) (by simp)
  | @sni remote c host' h =>
      simp only [Option.some.injEq, reduceCtorEq, or_false]
      constructor
      · rintro rfl
        exact sniHostname_inj (hid c rfl) hvalue h hhost
      · rintro rfl
        exact Option.some.inj (h.symm.trans hhost)
  | @path remote c sni hsni =>
      simp only [hsni value host hvalue hhost, false_or, Option.some.injEq]
      exact ⟨dohPath_inj, fun h => h ▸ rfl⟩

theorem isMatch_address {rule : EffectiveRule} {value : Str} (hvalue : rule.value = some value)
    (hkind : rule.kind ≠ .clientid) (address : IpAddress) (id : Option Str) :
    rule.isMatch (some address) id = ruleMatchesIp rule.kind value address := by
  rw [EffectiveRule.isMatch, if_neg hkind, hvalue]
  rfl

theorem isMatch_clientid {rule : EffectiveRule} {value : Str} (hvalue : rule.value = some value)
    (hkind : rule.kind = .clientid) (hne : value ≠ []) (address : Option IpAddress)
    (id : Option Str) : rule.isMatch address id = true ↔ id = some value := by
  rw [EffectiveRule.isMatch, if_pos hkind, hvalue]
  cases id with
  | none => simp
  | some c =>
      simp only [Option.any_some, Bool.and_eq_true, decide_eq_true_eq, Option.some.injEq]
      exact ⟨fun h => h.2.symm, fun h => ⟨h ▸ hne, h.symm⟩⟩

/-- **What the entries of a rule match**: what the rule matches, and another scope id. -/
theorem entryMatches_iff {maskMatches : Str → IpAddress → Bool} (hmask : ReadsCidr maskMatches)
    {base value : Str} {id : Option Str} {q : DnsQuery} (hq : Presents base id q)
    (hid : ∀ c ∈ id, IsClientid c) {rule : EffectiveRule} (hvalue : rule.value = some value)
    (hcanon : IsValue rule.kind value) {es : List DataEntry}
    (hes : ruleEntries base rule = some es) :
    (∃ e ∈ es, e.isMatch maskMatches q = true)
      ↔ rule.isMatch (some q.remote) id = true ∨ rule.otherScope q.remote := by
  have hsame : rule.kind ≠ .ipv6 → ¬ rule.otherScope q.remote := fun hk h => hk h.1
  rw [ruleEntries, hvalue, Option.bind_some] at hes
  cases hkind : rule.kind with
  | ipv4 =>
      rw [hkind] at hcanon hes
      obtain ⟨n, hn⟩ := hcanon
      cases hes
      have hnet := hmask _ _ (ipNetwork_v4 hn (Nat.le_refl 32)) q.remote
      rw [isMatch_address hvalue (by simp [hkind]), hkind, or_iff_left (hsame (by simp [hkind]))]
      simp only [List.mem_singleton, exists_eq_left, DataEntry.isMatch, ruleMatchesIp,
        decide_eq_true_eq, hn, Option.some.injEq]
      exact (iff_of_eq (congrArg (· = true) hnet)).trans
        ((contains_host_v4 n q.remote).trans eq_comm)
  | ipv6 =>
      rw [hkind] at hcanon hes
      obtain ⟨n, scope, hn⟩ := hcanon
      cases hes
      have hnet := hmask _ _ (ipNetwork_v6 hn (Nat.le_refl 128)) q.remote
      have hentry : (∃ e ∈ [(⟨rule.action, .v6, value ++ "/128".toList⟩ : DataEntry)],
          e.isMatch maskMatches q = true) ↔ ∃ scope', q.remote = .v6 n scope' := by
        simp only [List.mem_singleton, exists_eq_left, DataEntry.isMatch]
        exact (iff_of_eq (congrArg (· = true) hnet)).trans (contains_host_v6 n q.remote)
      rw [hentry, isMatch_address hvalue (by simp [hkind]), hkind, ruleMatchesIp,
        decide_eq_true_eq, hn, Option.some.injEq]
      constructor
      · rintro ⟨scope', hremote⟩
        by_cases hscope : scope = scope'
        · exact Or.inl (hremote ▸ hscope ▸ rfl)
        · exact Or.inr ⟨hkind, n, scope, scope', by rw [hvalue, Option.bind_some, hn], hremote,
            hscope⟩
      · rintro (h | ⟨-, m, scope₀, scope', hm, hremote, -⟩)
        · exact ⟨scope, h.symm⟩
        · rw [hvalue, Option.bind_some, hn] at hm
          cases hm
          exact ⟨scope', hremote⟩
  | ipv4Cidr =>
      rw [hkind] at hcanon hes
      obtain ⟨net, hnet, -⟩ := hcanon
      cases hes
      rw [isMatch_address hvalue (by simp [hkind]), hkind, or_iff_left (hsame (by simp [hkind]))]
      simp [DataEntry.isMatch, hmask _ _ hnet q.remote, ruleMatchesIp, hnet]
  | ipv6Cidr =>
      rw [hkind] at hcanon hes
      obtain ⟨net, hnet, -⟩ := hcanon
      cases hes
      rw [isMatch_address hvalue (by simp [hkind]), hkind, or_iff_left (hsame (by simp [hkind]))]
      simp [DataEntry.isMatch, hmask _ _ hnet q.remote, ruleMatchesIp, hnet]
  | clientid =>
      rw [hkind] at hcanon hes
      obtain ⟨host, hhost⟩ := exists_sniHostname hcanon
      dsimp only at hes
      rw [hhost, Option.map_some] at hes
      cases hes
      have hne : value ≠ [] := by
        rintro rfl
        exact absurd hcanon.2 (by simp)
      rw [isMatch_clientid hvalue hkind hne, or_iff_left (hsame (by simp [hkind])),
        ← presents_iff hq hid hcanon hhost]
      simp [DataEntry.isMatch]

/-! ## The entries of the rules -/

theorem isLineSafe_append (x y : Str) :
    isLineSafe (x ++ y) = true ↔ isLineSafe x = true ∧ isLineSafe y = true := by
  rw [isLineSafe, isLineSafe, isLineSafe, List.all_append, Bool.and_eq_true]

theorem isLineSafe_lowerHex {id : Str} (h : id.all isLowerHex = true) : isLineSafe id = true := by
  refine List.all_eq_true.mpr fun c hc => ?_
  have hhex := (isLowerHex_iff c).mp (List.all_eq_true.mp h c hc)
  simp only [Bool.not_eq_true', Bool.or_eq_false_iff, decide_eq_false_iff_not]
  omega

theorem isLineSafe_sniHostname {id host : Str} (hid : IsClientid id)
    (h : clientidSniHostname id = some host) : isLineSafe host = true := by
  obtain ⟨label, hlabel, rfl⟩ := Option.map_eq_some_iff.mp h
  refine (isLineSafe_append _ _).mpr ⟨?_, by decide⟩
  obtain ⟨hhex, hlen | hlen⟩ := hid
  · rw [clientidDnsLabel_short hlen] at hlabel
    cases hlabel
    exact isLineSafe_lowerHex hhex
  · obtain ⟨bytes, label', -, -, -, hlabel', rfl⟩ := clientidDnsLabel_long hhex hlen
    rw [hlabel'] at hlabel
    cases hlabel
    have key : ∀ k : Fin 32, isLineSafe [(b32Char k).toLower] = true := by decide
    refine List.all_eq_true.mpr fun c hc => ?_
    obtain ⟨k, hk, rfl⟩ := List.mem_map.mp hc
    simpa [isLineSafe] using key ⟨k, lt_of_mem_b32digits hk⟩

theorem isLineSafe_dohPath {base id : Str} (hid : IsClientid id) :
    isLineSafe (clientidDohPath base id) = true ↔ isLineSafe base = true := by
  have hslashes : isLineSafe (base.rtakeWhile (· = '/')) = true := by
    refine List.all_eq_true.mpr fun c hc => ?_
    have hslash : decide (c = '/') = true :=
      @List.mem_rtakeWhile_imp _ (fun c => decide (c = '/')) base c hc
    rw [of_decide_eq_true hslash]
    decide
  have hcut : base.rdropWhile (· = '/') ++ base.rtakeWhile (· = '/') = base :=
    List.rdropWhile_append_rtakeWhile
  have hpath : isLineSafe ('/' :: id) = true :=
    (isLineSafe_append ['/'] id).mpr ⟨by decide, isLineSafe_lowerHex hid.1⟩
  rw [clientidDohPath, isLineSafe_append, and_iff_left hpath]
  conv_rhs => rw [← hcut, isLineSafe_append, and_iff_left hslashes]

/-- The entries of a rule with a canonical value. -/
theorem ruleEntries_spec (base : Str) {rule : EffectiveRule} {value : Str}
    (hvalue : rule.value = some value) (hcanon : IsValue rule.kind value) :
    ∃ es, ruleEntries base rule = some es
      ∧ (∀ e ∈ es, e.action = rule.action ∧ e.text ≠ [])
      ∧ ((∀ e ∈ es, isLineSafe e.text = true)
        ↔ isLineSafe value = true ∧ (rule.kind = .clientid → isLineSafe base = true)) := by
  have hmask : ∀ net, ipNetwork value = some net → value ≠ [] := by
    rintro net hnet rfl
    have hnone : ipNetwork [] = none := by decide +kernel
    rw [hnone] at hnet
    cases hnet
  rw [ruleEntries, hvalue, Option.bind_some]
  cases hkind : rule.kind with
  | ipv4 =>
      refine ⟨_, rfl, by simp, ?_⟩
      simp only [List.mem_singleton, forall_eq, isLineSafe_append]
      exact ⟨fun h => ⟨h.1, nofun⟩, fun h => ⟨h.1, by decide⟩⟩
  | ipv6 =>
      refine ⟨_, rfl, by simp, ?_⟩
      simp only [List.mem_singleton, forall_eq, isLineSafe_append]
      exact ⟨fun h => ⟨h.1, nofun⟩, fun h => ⟨h.1, by decide⟩⟩
  | ipv4Cidr =>
      rw [hkind] at hcanon
      obtain ⟨net, hnet, -⟩ := hcanon
      exact ⟨_, rfl, by simp [hmask net hnet], by simp⟩
  | ipv6Cidr =>
      rw [hkind] at hcanon
      obtain ⟨net, hnet, -⟩ := hcanon
      exact ⟨_, rfl, by simp [hmask net hnet], by simp⟩
  | clientid =>
      rw [hkind] at hcanon
      obtain ⟨host, hhost⟩ := exists_sniHostname hcanon
      dsimp only
      rw [hhost, Option.map_some]
      refine ⟨_, rfl, ?_, ?_⟩
      · obtain ⟨label, -, rfl⟩ := Option.map_eq_some_iff.mp hhost
        simp [clientidDohPath]
      · have hsni := isLineSafe_sniHostname hcanon hhost
        have hid := isLineSafe_lowerHex hcanon.1
        simp [hsni, hid, isLineSafe_dohPath hcanon]

/-- Every value of the expanded rules is canonical. -/
def AllCanonical (expanded : List EffectiveRule) : Prop :=
  ∀ rule ∈ expanded, ∃ value, rule.value = some value ∧ IsValue rule.kind value

/-- A loop that never fails collects the results. -/
theorem exists_mapM {α β : Type} {f : α → Option β} {as : List α}
    (h : ∀ a ∈ as, ∃ b, f a = some b) :
    ∃ bs, as.mapM f = some bs ∧ ∀ b, b ∈ bs ↔ ∃ a ∈ as, f a = some b := by
  induction as with
  | nil => exact ⟨[], rfl, by simp⟩
  | cons a as ih =>
      obtain ⟨b, hb⟩ := h a List.mem_cons_self
      obtain ⟨bs, hbs, hmem⟩ := ih fun x hx => h x (List.mem_cons_of_mem _ hx)
      refine ⟨b :: bs, ?_, fun c => ?_⟩
      · rw [List.mapM_cons, hb, hbs]
        rfl
      · rw [List.mem_cons, hmem c, List.exists_mem_cons_iff, hb, Option.some.injEq, eq_comm]

theorem dataEntries_spec {base : Str} {expanded : List EffectiveRule}
    (h : ∀ rule ∈ expanded, ∃ es, ruleEntries base rule = some es) :
    ∃ entries, dataEntries base expanded = some entries ∧ ∀ e, e ∈ entries
      ↔ ∃ rule ∈ expanded, ∃ es, ruleEntries base rule = some es ∧ e ∈ es := by
  obtain ⟨lists, hlists, hmem⟩ := exists_mapM h
  refine ⟨lists.flatten, by rw [dataEntries, hlists, Option.map_some], fun e => ?_⟩
  rw [List.mem_flatten]
  constructor
  · rintro ⟨es, hes, he⟩
    obtain ⟨rule, hrule, heq⟩ := (hmem es).mp hes
    exact ⟨rule, hrule, es, heq, he⟩
  · rintro ⟨rule, hrule, es, heq, he⟩
    exact ⟨es, (hmem es).mpr ⟨rule, hrule, heq⟩, he⟩

/-- **The entries of canonical rules.** -/
theorem dataEntries_canonical {base : Str} {expanded : List EffectiveRule}
    (hcanon : AllCanonical expanded) : ∃ entries, dataEntries base expanded = some entries
      ∧ (∀ e ∈ entries, e.text ≠ [])
      ∧ ((∀ e ∈ entries, isLineSafe e.text = true) ↔
        (∀ rule ∈ expanded, ∀ value ∈ rule.value, isLineSafe value = true)
          ∧ ((∃ rule ∈ expanded, rule.kind = .clientid) → isLineSafe base = true))
      ∧ ∀ maskMatches id q, ReadsCidr maskMatches → Presents base id q →
        (∀ c ∈ id, IsClientid c) → ∀ action,
        ((∃ e ∈ entries, e.action = action ∧ e.isMatch maskMatches q = true) ↔
          ∃ rule ∈ expanded, rule.action = action
            ∧ (rule.isMatch (some q.remote) id = true ∨ rule.otherScope q.remote)) := by
  have hspec : ∀ rule ∈ expanded, ∃ value es, rule.value = some value
      ∧ IsValue rule.kind value ∧ ruleEntries base rule = some es
      ∧ (∀ e ∈ es, e.action = rule.action ∧ e.text ≠ [])
      ∧ ((∀ e ∈ es, isLineSafe e.text = true)
        ↔ isLineSafe value = true ∧ (rule.kind = .clientid → isLineSafe base = true)) := by
    intro rule hrule
    obtain ⟨value, hvalue, hv⟩ := hcanon rule hrule
    obtain ⟨es, hes, haction, hsafe⟩ := ruleEntries_spec base hvalue hv
    exact ⟨value, es, hvalue, hv, hes, haction, hsafe⟩
  obtain ⟨entries, hentries, hmem⟩ := @dataEntries_spec base expanded fun rule hrule => by
    obtain ⟨-, es, -, -, hes, -⟩ := hspec rule hrule
    exact ⟨es, hes⟩
  refine ⟨entries, hentries, ?_, ?_, ?_⟩
  · intro e he
    obtain ⟨rule, hrule, es, hes, hees⟩ := (hmem e).mp he
    obtain ⟨-, es', -, -, hes', haction, -⟩ := hspec rule hrule
    rw [hes] at hes'
    cases hes'
    exact (haction e hees).2
  · constructor
    · intro hsafe
      have hrules : ∀ rule ∈ expanded, (∀ value ∈ rule.value, isLineSafe value = true)
          ∧ (rule.kind = .clientid → isLineSafe base = true) := by
        intro rule hrule
        obtain ⟨value, es, hvalue, -, hes, -, hiff⟩ := hspec rule hrule
        have hall := hiff.mp fun e he => hsafe e ((hmem e).mpr ⟨rule, hrule, es, hes, he⟩)
        refine ⟨fun v hv => ?_, hall.2⟩
        rw [hvalue] at hv
        cases hv
        exact hall.1
      exact ⟨fun rule hrule => (hrules rule hrule).1, fun ⟨rule, hrule, hkind⟩ =>
        (hrules rule hrule).2 hkind⟩
    · rintro ⟨hvalues, hbase⟩ e he
      obtain ⟨rule, hrule, es, hes, hees⟩ := (hmem e).mp he
      obtain ⟨value, es', hvalue, -, hes', -, hiff⟩ := hspec rule hrule
      rw [hes] at hes'
      cases hes'
      exact hiff.mpr
        ⟨hvalues rule hrule value hvalue, fun hkind => hbase ⟨rule, hrule, hkind⟩⟩ e hees
  · intro maskMatches id q hmask hq hid action
    constructor
    · rintro ⟨e, he, rfl, hmatch⟩
      obtain ⟨rule, hrule, es, hes, hees⟩ := (hmem e).mp he
      obtain ⟨value, es', hvalue, hv, hes', haction, -⟩ := hspec rule hrule
      rw [hes] at hes'
      cases hes'
      exact ⟨rule, hrule, (haction e hees).1.symm,
        (entryMatches_iff hmask hq hid hvalue hv hes).mp ⟨e, hees, hmatch⟩⟩
    · rintro ⟨rule, hrule, rfl, hmatch⟩
      obtain ⟨value, es, hvalue, hv, hes, haction, -⟩ := hspec rule hrule
      obtain ⟨e, hees, he⟩ := (entryMatches_iff hmask hq hid hvalue hv hes).mpr hmatch
      exact ⟨e, (hmem e).mpr ⟨rule, hrule, es, hes, hees⟩, (haction e hees).1, he⟩

/-! ## The preview and the compiled layer -/

/-- The addresses that the gate lets through are the loopback addresses, with any scope id. -/
theorem isExempt_iff {maskMatches : Str → IpAddress → Bool} (hmask : ReadsCidr maskMatches)
    (q : DnsQuery) : isExempt maskMatches q = true
      ↔ q.remote = .v4 2130706433 ∨ ∃ scope, q.remote = .v6 1 scope := by
  have h4 : ipNetwork "127.0.0.1/32".toList = some ⟨true, maskTo 32 32 2130706433, 32⟩ := by
    decide +kernel
  have h6 : ipNetwork "::1/128".toList = some ⟨false, maskTo 128 128 1, 128⟩ := by decide +kernel
  rw [isExempt, hmask _ _ h4, hmask _ _ h6, Bool.or_eq_true, contains_host_v4, contains_host_v6]

/-- A value that `normalize_identifier` or `validate_clientid` has returned. -/
def IsStored (kind : IdentifierKind) (value : Str) : Prop :=
  (∃ u raw, normalizeIdentifier u raw = some (kind, value))
    ∨ kind = .clientid ∧ ∃ u raw, validateClientid u raw = some value

/-- The rules and the identifiers of the clients are as `add_access_rule` and
`_insert_identifier` store them. -/
structure StoredValues (rules : List AccessRule) (clientsById : ℕ → Option ClientInfo) : Prop where
  rules : ∀ rule ∈ rules, ∀ kind, rule.kind = .identifier kind →
    ∃ value, rule.value = some value ∧ IsStored kind value
  identifiers : ∀ id client, clientsById id = some client →
    ∀ i ∈ client.identifiers, IsStored i.kind i.value

theorem isValue_of_isStored {kind : IdentifierKind} {value : Str} (h : IsStored kind value) :
    IsValue kind value := by
  rcases h with ⟨u, raw, h⟩ | ⟨rfl, u, raw, h⟩
  · exact normalizeIdentifier_spec h
  · exact validateClientid_spec h

theorem StoredValues.canonical {rules : List AccessRule} {clientsById : ℕ → Option ClientInfo}
    (h : StoredValues rules clientsById) : AllCanonical (expandRules rules clientsById) := by
  intro e he
  obtain ⟨rule, hrule, he⟩ := List.mem_flatMap.mp he
  rw [expandRule] at he
  split at he
  · split at he
    · cases he
    · rename_i client hclient
      split_ifs at he
      · obtain ⟨i, hi, rfl⟩ := List.mem_map.mp he
        obtain ⟨id, -, hid⟩ := Option.bind_eq_some_iff.mp hclient
        exact ⟨i.value, rfl, isValue_of_isStored (h.identifiers id client hid i hi)⟩
      · cases he
  · rename_i kind hkind
    obtain ⟨value, hvalue, hstored⟩ := h.rules rule hrule kind hkind
    rw [List.mem_singleton.mp he]
    exact ⟨value, hvalue, isValue_of_isStored hstored⟩

/-- Some rule of the action satisfies `p`. -/
def HasRule (expanded : List EffectiveRule) (action : AllowDeny) (p : EffectiveRule → Prop) :
    Prop :=
  ∃ rule ∈ expanded, rule.action = action ∧ p rule

/-- No rule that names the address with another scope id changes the decision. -/
structure ScopesAgree (expanded : List EffectiveRule) (defaultPolicy : AllowDeny)
    (address : IpAddress) (id : Option Str) : Prop where
  denied : HasRule expanded .deny (·.otherScope address) →
    HasRule expanded .deny (·.isMatch (some address) id = true)
      ∨ defaultPolicy = .deny ∧ ¬ HasRule expanded .allow (·.isMatch (some address) id = true)
  allowed : defaultPolicy = .deny →
    HasRule expanded .allow (·.otherScope address) ∨ (∃ scope, address = .v6 1 (some scope)) →
    (HasRule expanded .deny (·.isMatch (some address) id = true)
        ∨ HasRule expanded .deny (·.otherScope address))
      ∨ HasRule expanded .allow (·.isMatch (some address) id = true)

/-- When `evaluate_access` decides as the compiled layer does: the files can be written, and the
scope ids do not matter. -/
structure PreviewExact (expanded : List EffectiveRule) (defaultPolicy : AllowDeny)
    (dohBasePath : Str) (address : IpAddress) (id : Option Str) : Prop where
  values_safe : ∀ rule ∈ expanded, ∀ value ∈ rule.value, isLineSafe value = true
  base_safe : (∃ rule ∈ expanded, rule.kind = .clientid) → isLineSafe dohBasePath = true
  scopes : ScopesAgree expanded defaultPolicy address id

/-- Deny before allow before default, where the layer has more matches (`D'`, `A'`) and
exemptions (`E`). -/
theorem layer_agrees_iff {D D' A A' E P : Prop} :
    ((¬ D ∧ (P ∨ A)) ↔ ¬ ((D ∨ D') ∨ ¬ P ∧ ¬ E ∧ ¬ (A ∨ A'))) ↔
      (D' → D ∨ ¬ P ∧ ¬ A) ∧ (¬ P → A' ∨ E → (D ∨ D') ∨ A) := by
  tauto

theorem hasRule_or {expanded : List EffectiveRule} {action : AllowDeny}
    {p r : EffectiveRule → Prop} : HasRule expanded action (fun rule => p rule ∨ r rule)
      ↔ HasRule expanded action p ∨ HasRule expanded action r := by
  simp only [HasRule, and_or_left, exists_or]

/-- What `evaluate_access` allows. -/
theorem evaluateAccess_allowed {rules : List AccessRule} {clientsById : ℕ → Option ClientInfo}
    {defaultPolicy : AllowDeny} {remoteIp id : Option Str} :
    (evaluateAccess remoteIp id rules clientsById defaultPolicy).allowed = true ↔
      ¬ HasRule (expandRules rules clientsById) .deny
          (·.isMatch (remoteIp.bind ipAddress) id = true)
        ∧ (defaultPolicy = .allow ∨ HasRule (expandRules rules clientsById) .allow
          (·.isMatch (remoteIp.bind ipAddress) id = true)) := by
  rw [evaluateAccess, allowed_iff]
  simp only [HasRule, not_exists, not_and, ne_eq]
  refine and_congr (forall_congr' fun rule => forall_congr' fun _ => imp_not_comm) ?_
  refine or_congr_right (exists_congr fun rule => and_congr_right fun _ => and_comm)

/-- What a written layer refuses. -/
theorem refuses_rendered {maskMatches : Str → IpAddress → Bool} (hmask : ReadsCidr maskMatches)
    {rules : List AccessRule} {clientsById : ℕ → Option ClientInfo}
    (hcanon : AllCanonical (expandRules rules clientsById)) {defaultPolicy : AllowDeny}
    {dohBasePath : Str} {id : Option Str} (hid : ∀ c ∈ id, IsClientid c) {q : DnsQuery}
    (hq : Presents dohBasePath id q) {data : AccessData}
    (hdata : renderAccessData rules clientsById defaultPolicy dohBasePath = some data) :
    refuses maskMatches data q = true ↔
      (HasRule (expandRules rules clientsById) .deny (·.isMatch (some q.remote) id = true)
        ∨ HasRule (expandRules rules clientsById) .deny (·.otherScope q.remote))
      ∨ defaultPolicy = .deny ∧ isExempt maskMatches q = false
        ∧ ¬ (HasRule (expandRules rules clientsById) .allow (·.isMatch (some q.remote) id = true)
          ∨ HasRule (expandRules rules clientsById) .allow (·.otherScope q.remote)) := by
  obtain ⟨entries, hentries, hne, -, hmatch⟩ := @dataEntries_canonical dohBasePath _ hcanon
  obtain ⟨entries', hentries', hfile, hpolicy⟩ := renderAccessData_eq_some.mp hdata
  rw [hentries] at hentries'
  cases hentries'
  have hlines : ∀ action kind, accessLines (data.file action kind)
      = fileEntries entries action kind := fun action kind =>
    accessLines_accessText (fun hnil => hne _ (mem_fileEntries.mp hnil) rfl) (hfile action kind)
  rw [refuses_iff hlines hpolicy, hmatch maskMatches id q hmask hq hid,
    hmatch maskMatches id q hmask hq hid, ← hasRule_or, ← hasRule_or]
  exact Iff.rfl

/-- **When the preview and the compiled layer agree.** -/
theorem allowed_iff_not_refused {maskMatches : Str → IpAddress → Bool}
    (hmask : ReadsCidr maskMatches) {rules : List AccessRule}
    {clientsById : ℕ → Option ClientInfo} (hstored : StoredValues rules clientsById)
    (defaultPolicy : AllowDeny) (dohBasePath : Str) {remoteIp : Str} {id : Option Str}
    (hid : ∀ c ∈ id, ∃ u raw, validateClientid u raw = some c) {q : DnsQuery}
    (hremote : ipAddress remoteIp = some q.remote) (hv4 : q.remote ≠ .v4 2130706433)
    (hv6 : q.remote ≠ .v6 1 none) (hq : Presents dohBasePath id q) :
    (∃ data, renderAccessData rules clientsById defaultPolicy dohBasePath = some data
      ∧ ((evaluateAccess (some remoteIp) id rules clientsById defaultPolicy).allowed = true
        ↔ refuses maskMatches data q = false))
    ↔ PreviewExact (expandRules rules clientsById) defaultPolicy dohBasePath q.remote id := by
  have hcanon := hstored.canonical
  have hid' : ∀ c ∈ id, IsClientid c := fun c hc => by
    obtain ⟨u, raw, h⟩ := hid c hc
    exact validateClientid_spec h
  obtain ⟨entries, hentries, -, hsafe, -⟩ := @dataEntries_canonical dohBasePath _ hcanon
  have hexempt : isExempt maskMatches q = true ↔ ∃ scope, q.remote = .v6 1 (some scope) := by
    rw [isExempt_iff hmask, or_iff_right hv4]
    constructor
    · rintro ⟨_ | scope, h⟩
      · exact absurd h hv6
      · exact ⟨scope, h⟩
    · rintro ⟨scope, h⟩
      exact ⟨some scope, h⟩
  have hdeny : defaultPolicy = .deny ↔ ¬ defaultPolicy = .allow := by
    cases defaultPolicy <;> simp
  -- for written files, both sides in terms of the rules
  have hagree : ∀ data, renderAccessData rules clientsById defaultPolicy dohBasePath = some data →
      (((evaluateAccess (some remoteIp) id rules clientsById defaultPolicy).allowed = true
        ↔ refuses maskMatches data q = false)
        ↔ ScopesAgree (expandRules rules clientsById) defaultPolicy q.remote id) := by
    intro data hdata
    rw [← Bool.not_eq_true (refuses maskMatches data q),
      refuses_rendered hmask hcanon hid' hq hdata, evaluateAccess_allowed, Option.bind_some,
      hremote, ← Bool.not_eq_true (isExempt maskMatches q), hexempt, hdeny,
      layer_agrees_iff, ← hdeny]
    exact ⟨fun h => ⟨h.1, h.2⟩, fun h => ⟨h.denied, h.allowed⟩⟩
  constructor
  · rintro ⟨data, hdata, h⟩
    obtain ⟨hvalues, hbase⟩ := hsafe.mp ((exists_render_iff hentries).mp ⟨data, hdata⟩)
    exact ⟨hvalues, hbase, (hagree data hdata).mp h⟩
  · rintro ⟨hvalues, hbase, hscopes⟩
    obtain ⟨data, hdata⟩ := (exists_render_iff hentries).mpr (hsafe.mpr ⟨hvalues, hbase⟩)
    exact ⟨data, hdata, (hagree data hdata).mpr hscopes⟩

/-- A netmask by its text. -/
def cidrMatches (mask : Str) (a : IpAddress) : Bool := (ipNetwork mask).any (·.contains a)

theorem readsCidr_cidrMatches : ReadsCidr cidrMatches := fun mask net hnet a => by
  rw [cidrMatches, hnet, Option.any_some]

/-- One rule without a client. -/
def addressRule (action : AllowDeny) (kind : IdentifierKind) (value : Str) : AccessRule :=
  ⟨1, action, .identifier kind, some value, none⟩

theorem allowed_iff_not_refused_tenNet :
    ∃ data, renderAccessData [addressRule .deny .ipv4Cidr "10.0.0.0/8".toList] (fun _ => none)
        .allow "/dns-query".toList = some data
      ∧ ((evaluateAccess (some "10.1.2.3".toList) none
          [addressRule .deny .ipv4Cidr "10.0.0.0/8".toList] (fun _ => none) .allow).allowed = true
        ↔ refuses cidrMatches data ⟨.v4 167838211, none, none⟩ = false) := by
  have hexpand : expandRules [addressRule .deny .ipv4Cidr "10.0.0.0/8".toList] (fun _ => none)
      = [⟨.deny, .ipv4Cidr, some "10.0.0.0/8".toList, "rule:ipv4_cidr".toList⟩] := rfl
  refine (allowed_iff_not_refused readsCidr_cidrMatches ⟨?_, ?_⟩ _ _ (by simp) (by decide +kernel)
    (by decide) (by decide) (.none (by simp) (by simp))).mpr ?_
  · intro rule hrule kind hkind
    rw [List.mem_singleton.mp hrule] at hkind ⊢
    cases hkind
    exact ⟨_, rfl, Or.inl ⟨⟨id, some⟩, "10.0.0.0/8".toList, by decide +kernel⟩⟩
  · intro id client h
    cases h
  · rw [hexpand]
    refine ⟨by simp; decide, by simp, ?_, ?_⟩
    · rintro ⟨rule, hrule, -, hkind, -⟩
      rw [List.mem_singleton.mp hrule] at hkind
      cases hkind
    · intro h
      cases h

/-- The preview allows a link-local client that the layer refuses. -/
theorem scope_ignored :
    normalizeIdentifier ⟨id, some⟩ "fe80::1".toList = some (.ipv6, "fe80::1".toList)
      ∧ ∃ address, ipAddress "fe80::1%eth0".toList = some address
      ∧ ¬ ∃ data, renderAccessData [addressRule .deny .ipv6 "fe80::1".toList] (fun _ => none)
          .allow "/dns-query".toList = some data
        ∧ ((evaluateAccess (some "fe80::1%eth0".toList) none
            [addressRule .deny .ipv6 "fe80::1".toList] (fun _ => none) .allow).allowed = true
          ↔ refuses cidrMatches data ⟨address, none, none⟩ = false) := by
  have haddress : (ipAddress "fe80::1%eth0".toList).isSome = true := by decide +kernel
  obtain ⟨address, hsome⟩ := Option.isSome_iff_exists.mp haddress
  refine ⟨by decide +kernel, address, hsome, ?_⟩
  rintro ⟨data, hdata, h⟩
  have hallowed : (evaluateAccess (some "fe80::1%eth0".toList) none
      [addressRule .deny .ipv6 "fe80::1".toList] (fun _ => none) .allow).allowed = true := by
    decide +kernel
  have hrefused : (renderAccessData [addressRule .deny .ipv6 "fe80::1".toList] (fun _ => none)
      .allow "/dns-query".toList).all (fun data => (ipAddress "fe80::1%eth0".toList).all
        fun address => refuses cidrMatches data ⟨address, none, none⟩) = true := by
    decide +kernel
  rw [hdata, hsome, Option.all_some, Option.all_some, h.mp hallowed] at hrefused
  cases hrefused

end AlderpointDNS
