import AlderpointDNS.Importer.Emitted
import AlderpointDNS.Lib.Numerals

/-!
# Pi-hole texts

`parse_pihole_text`: the lines of a text are read in order, a header line sets the section, and
every other line that is not blank becomes one or more entries of the translation.

* `BlankRule` — the lines whose rule is not empty but blank, which `_rule_entries` leaves out;
* `exists_kept_piholeLine` — what one line leaves in the plan;
* **`piholeLine_accounted_iff`** — a line gets an item unless its rule is blank.

Not modelled: `origin`, which nothing reads but the summary.
-/

namespace AlderpointDNS.Importer

open Text Ipaddress

/-- What the parser takes from Python's tables. -/
structure PiholeData extends ImportData where
  /-- `str.isdigit` of a character that is not ASCII. -/
  isDigit : Char → Bool
  /-- `int` of a text that is not ASCII. -/
  int : Str → Option ℤ

def PiholeData.digit (d : PiholeData) (c : Char) : Bool :=
  if c.toNat < 128 then isDecDigit c else d.isDigit c

/-- `int` of a text in ASCII: a sign, and digits with single underscores between them. -/
def asciiInt (text : Str) : Option ℤ :=
  let text := strip text
  let negative := startsWith text ['-']
  let body := if negative || startsWith text ['+'] then text.drop 1 else text
  if (split '_' body).all fun part => part ≠ [] && part.all isDecDigit then
    let n : ℤ := Numerals.value 10 0 ((body.filter (· ≠ '_')).map digitVal)
    some (if negative then -n else n)
  else none

def PiholeData.toInt (d : PiholeData) (text : Str) : Option ℤ :=
  if isAscii text then asciiInt text else d.int text

/-! ## Sections -/

/-- The values of `_PIHOLE_SECTIONS`. -/
inductive PiholeSection where
  | adlists
  | whitelist
  | blacklist
  | regexBlack
  | regexWhite
  | hosts
  | cname
  | groups
deriving DecidableEq

/-- `_PIHOLE_SECTIONS`. -/
def piholeSections : List (String × PiholeSection) :=
  [("adlist", .adlists), ("adlists", .adlists), ("adlists.list", .adlists),
    ("whitelist", .whitelist), ("whitelist.txt", .whitelist), ("exact whitelist", .whitelist),
    ("blacklist", .blacklist), ("blacklist.txt", .blacklist), ("exact blacklist", .blacklist),
    ("regex", .regexBlack), ("regex.list", .regexBlack), ("regex blacklist", .regexBlack),
    ("blacklist regex", .regexBlack), ("regex whitelist", .regexWhite),
    ("whitelist regex", .regexWhite), ("custom.list", .hosts), ("custom list", .hosts),
    ("hosts", .hosts), ("local dns", .hosts), ("cname", .cname), ("cnames", .cname),
    ("custom cname", .cname), ("group", .groups), ("groups", .groups)]

/-- The group of `^\[([^\]]+)\]$`, on a stripped line. -/
def bracketed (line : Str) : Option Str :=
  let body := (line.drop 1).dropLast
  if startsWith line ['['] && endsWith line [']'] && body ≠ [] && !body.contains ']' then some body
  else none

/-- `\s*#*\s*$`. -/
def isHeaderTail (s : Str) : Bool :=
  ((s.dropWhile isSpace).dropWhile (· = '#')).dropWhile isSpace = []

/-- The group of `^#+\s*(.+?)\s*#*\s*$`, on a stripped line. -/
def hashed (line : Str) : Option Str :=
  if startsWith line ['#'] then
    let rest := (line.dropWhile (· = '#')).dropWhile isSpace
    -- the shortest group that leaves a tail; the group of a line of `#` alone is no section
    ((List.range rest.length).map fun n => rest.take (n + 1)).find? fun group =>
      isHeaderTail (rest.drop group.length)
  else none

/-- `_pihole_section_for`. -/
def piholeSectionFor (d : UnicodeData) (line : Str) : Option PiholeSection :=
  ((bracketed (strip line)).or (hashed (strip line))).bind fun group =>
    (piholeSections.find? fun p => p.1.toList = d.toLower (strip group)).map (·.2)

/-! ## The kinds of lines -/

/-- `[A-Za-z0-9_-]`. -/
def isHostChar (c : Char) : Bool :=
  ('a' ≤ c && c ≤ 'z') || ('A' ≤ c && c ≤ 'Z') || isDecDigit c || c = '_' || c = '-'

/-- `_PIHOLE_DOMAIN_RE.match`, on a stripped line. -/
def matchesPiholeDomain (s : Str) : Bool := s ≠ [] && s.all fun c => isHostChar c || c = '.'

/-- The domain of a pattern that `_PIHOLE_WILDCARD_RE` matches: labels with `\.` between them,
after `(\.|^)` or `(^|\.)` and before `$`. -/
def wildcardDomain (pattern : Str) : Option Str :=
  if (startsWith pattern "(\\.|^)".toList || startsWith pattern "(^|\\.)".toList)
      && endsWith pattern ['$'] then
    match split '\\' (pattern.drop 6).dropLast with
    | first :: second :: rest =>
        if first ≠ [] && first.all isHostChar
            && (second :: rest).all fun part =>
              startsWith part ['.'] && part.drop 1 ≠ [] && (part.drop 1).all isHostChar then
          some (first ++ (second :: rest).flatten)
        else none
    | _ => none
  else none

/-- `_pihole_regex_entry`. -/
def piholeRegexEntry (pattern : Str) (allow : Bool) (original : Str) : RawRule :=
  match wildcardDomain pattern with
  | some domain =>
      { text := original
        rule := (if allow then "@@||".toList else "||".toList) ++ domain ++ ['^']
        plainDomainSubdomains := true
        comment := "Pi-hole wildcard regex: ".toList ++ pattern }
  | none =>
      { text := original
        rule := (if allow then "@@/".toList else "/".toList) ++ pattern ++ ['/']
        plainDomainSubdomains := false }

/-- `re.sub(r"[^A-Za-z0-9._-]+", "-", s)`; the flag says that the run is replaced already. -/
def dashRuns : Bool → Str → Str
  | _, [] => []
  | replaced, c :: cs =>
      if isHostChar c || c = '.' then c :: dashRuns false cs
      else if replaced then dashRuns true cs
      else '-' :: dashRuns true cs

/-- `sanitize_filename` of a name without a slash: `Path(name).name` is the name, but for `.`,
of which the last line leaves nothing either. -/
def sanitizeFilename (name : Str) : Str :=
  orComment ((stripBy (fun c => c = '.' || c = '-') (dashRuns false name)).take 160)
    "upload".toList

/-- An adlist. -/
def adlistEntry (line : Str) : SourceEntry where
  name := sanitizeFilename (orComment
    ((((split '/' line).getLast?.getD []).takeWhile (· ≠ '?'))) "Pi-hole list".toList)
  url := line
  enabled := true
  category := "ads_trackers".toList

/-- What `normalize_domain` says when it raises. -/
def domainError (u : UnicodeData) (value : Str) : Str :=
  let domain := u.toLower (stripBy (· = '.') (strip value))
  if domain = "local".toList then
    ".local conflicts with multicast DNS; use home.arpa or another internal domain".toList
  else if LocalDns.idnaEncode u domain = none then "domain is not valid IDNA".toList
  else "domain is invalid".toList

/-- What `normalize_fqdn` says when it raises. -/
def fqdnError (u : UnicodeData) (value domain : Str) : Str :=
  let fqdn := u.toLower (stripBy (· = '.') (strip value))
  if domain ≠ [] ∧ '.' ∉ fqdn then
    match LocalDns.validateLabel u fqdn with
    | none => "hostname is invalid".toList
    | some label => domainError u (label.1 ++ '.' :: domain)
  else domainError u fqdn

/-- `f"line {number}: {what}: {line}"`. -/
def lineFinding (number : ℕ) (what line : Str) : Str :=
  "line ".toList ++ (Nat.repr number).toList ++ ": ".toList ++ what ++ ": ".toList ++ line

section Lines

variable (d : PiholeData) (defaultDomain : Str)

/-- A `cname=` line. -/
def cnameLine (number : ℕ) (line : Str) : Emitted :=
  match (split ',' (line.drop 6)).map strip with
  | name :: target :: more =>
      if name = [] ∨ target = [] then
        .unsupportedRule (lineFinding number
          "invalid cname entry (need cname=alias,target)".toList line)
      else
        match normalizeFqdn d.toUnicodeData name defaultDomain,
            normalizeFqdn d.toUnicodeData target defaultDomain with
        | some fqdn, some value =>
            .record
              { fqdn := fqdn.1
                recordType := "CNAME".toList
                value := value.1
                -- a text is true, and 0 is refused later like a text that is no number
                ttl := (d.toInt (orComment (more.head?.getD []) "300".toList)).filter (· ≠ 0) }
        | fqdn, _ =>
            .unsupportedRule (lineFinding number
              ("invalid cname entry (".toList
                ++ (if fqdn = none then fqdnError d.toUnicodeData name defaultDomain
                  else fqdnError d.toUnicodeData target defaultDomain) ++ [')']) line)
  | _ =>
      .unsupportedRule (lineFinding number
        "invalid cname entry (need cname=alias,target)".toList line)

/-- A host of a `custom.list` line. -/
def hostEntry (number : ℕ) (line : Str) (ip : IpAddress) (host : Str) : Emitted :=
  match normalizeFqdn d.toUnicodeData host defaultDomain with
  | none =>
      .unsupportedRule (lineFinding number
        ("invalid hostname in custom.list entry (".toList
          ++ fqdnError d.toUnicodeData host defaultDomain ++ [')']) line)
  | some fqdn =>
      .record
        { fqdn := fqdn.1
          recordType := if ip.isV4 then ['A'] else "AAAA".toList
          value := ip.str
          ttl := some 300 }

/-- `line.split(None, 1)[1].strip().strip(".")`; there is a second word. -/
def ruleDomain (line : Str) : Str :=
  stripBy (· = '.') (strip ((line.dropWhile isSpace).dropWhile (!isSpace ·)))

/-- The rule of a line in the blacklist or whitelist form. -/
def piholeRule (line rule : Str) : Emitted :=
  .rule { text := line, rule := rule, plainDomainSubdomains := false }

/-- The words before a domain to block. -/
def blockWords : List Str := ["blacklist ".toList, "block ".toList, "deny ".toList]

/-- The words before a domain to allow. -/
def allowWords : List Str := ["whitelist ".toList, "allow ".toList]

/-- A row with group-assignment columns. -/
def hasGroupColumns (line : Str) : Bool :=
  match (line.splitOnP fun c => c = ',' || c = '\t').map strip with
  | first :: columns =>
      columns ≠ [] && matchesPiholeDomain first
        && (columns.filter (· ≠ [])).all fun part => part.all d.digit
  | [] => false

/-- The end of a round: a hosts entry, a row with columns, or a domain. -/
def plainLine (pihole : Option PiholeSection) (number : ℕ) (line : Str) : List Emitted :=
  match (words line).head?.bind ipAddress, (words line).tail with
  | some ip, host :: hosts => (host :: hosts).map (hostEntry d defaultDomain number line ip)
  | _, _ =>
      if hasGroupColumns d line then
        [.clientScoped (lineFinding number
          ("Pi-hole group-assignment columns have no Alderpoint DNS equivalent; ".toList
            ++ "the row was not imported".toList) line)]
      else if matchesPiholeDomain line then
        let domain := stripBy (· = '.') line
        [piholeRule line (if pihole = some .whitelist then "@@".toList ++ domain else domain)]
      else [.unsupportedRule (lineFinding number "unrecognized Pi-hole line".toList line)]

/-- A round of the loop, for a line that is not blank, not too long and not a header. -/
def piholeLine (pihole : Option PiholeSection) (number : ℕ) (line : Str) : List Emitted :=
  let lower := d.toLower line
  if startsWith line ['#'] then [piholeRule line line]
  else if isHttpUrl d.toImportData line then [.source (adlistEntry line)]
  else if startsWith lower "cname=".toList then [cnameLine d defaultDomain number line]
  else if allowWords.any (startsWith lower) then [piholeRule line ("@@".toList ++ ruleDomain line)]
  else if blockWords.any (startsWith lower) then [piholeRule line (ruleDomain line)]
  else if startsWith lower "regex whitelist ".toList then
    [.rule (piholeRegexEntry (strip (line.drop 16)) true line)]
  else if startsWith lower "regex ".toList then
    [.rule (piholeRegexEntry (strip (line.drop 6)) false line)]
  else if startsWith lower "group ".toList || pihole = some .groups then
    [.clientScoped (lineFinding number
      ("Pi-hole group assignments have no Alderpoint DNS equivalent ".toList
        ++ "and were not imported".toList) line)]
  else if pihole = some .regexBlack then [.rule (piholeRegexEntry line false line)]
  else if pihole = some .regexWhite then [.rule (piholeRegexEntry line true line)]
  else plainLine d defaultDomain pihole number line

/-- `MAX_LINE_CHARS`. -/
def maxLineChars : ℕ := 2048

/-- `MAX_IMPORT_LINES`. -/
def maxImportLines : ℕ := 200000

/-- A round of the loop: the entries of the line and the section after it. -/
def piholeRound (pihole : Option PiholeSection) (number : ℕ) (raw : Str) :
    List Emitted × Option PiholeSection :=
  let line := strip raw
  if line = [] then ([], pihole)
  else if maxLineChars < line.length then
    ([.unsupportedRule ("line ".toList ++ (Nat.repr number).toList
      ++ " exceeds 2048 characters and was not imported".toList)], pihole)
  else match piholeSectionFor d.toUnicodeData line with
    | some header => ([], some header)
    | none => (piholeLine d defaultDomain pihole number line, pihole)

/-- The loop over the lines, from a section and a line number on. -/
def piholeEntries : Option PiholeSection → ℕ → List Str → List (ℕ × Emitted)
  | _, _, [] => []
  | pihole, number, raw :: lines =>
      (piholeRound d defaultDomain pihole number raw).1.map (number, ·)
        ++ piholeEntries (piholeRound d defaultDomain pihole number raw).2 (number + 1) lines

/-- The entries of a text, with the numbers of their lines. -/
def piholeTextEntries (text : Str) : List (ℕ × Emitted) :=
  piholeEntries d defaultDomain none 1 (splitlines text)

/-- `parse_pihole_text`; `none` where `check_text_limits` raises. -/
def parsePiholeText (text : Str) : Option StoredTranslation :=
  if maxImportLines < text.count '\n' + 1 then none
  else some (collect (piholeTextEntries d defaultDomain text))

end Lines

/-! ## What a line leaves in the plan -/

/-- A rule with a character that is not white space is kept. -/
theorem isKept_of_mem {raw : RawRule} {c : Char} (h : c ∈ raw.rule) (hc : isSpace c = false) :
    raw.IsKept := by
  have hne : raw.rule ≠ [] := List.ne_nil_of_mem h
  rw [RawRule.IsKept, orComment, if_neg hne, strip, Ne, stripBy_eq_nil]
  intro hall
  rw [hall c h] at hc
  exact Bool.noConfusion hc

/-- A rule without white space is kept: an empty one is replaced by the text of its line. -/
theorem isKept_of_forall {raw : RawRule} (h : ∀ c ∈ raw.rule, isSpace c = false)
    (htext : strip raw.text ≠ []) : raw.IsKept := by
  cases hrule : raw.rule with
  | nil => rwa [RawRule.IsKept, orComment, if_pos hrule]
  | cons c cs =>
      have hmem : c ∈ raw.rule := by simp [hrule]
      exact isKept_of_mem hmem (h c hmem)

theorem isKept_piholeRegexEntry (pattern : Str) (allow : Bool) (line : Str) :
    (piholeRegexEntry pattern allow line).IsKept := by
  unfold piholeRegexEntry
  split
  · exact isKept_of_mem (c := '^') (by simp) (by decide)
  · exact isKept_of_mem (c := '/') (by simp) (by decide)

theorem isSpace_of_isHostChar {c : Char} (h : (isHostChar c || c = '.') = true) :
    isSpace c = false := by
  simp only [isHostChar, isDecDigit, Bool.or_eq_true, Bool.and_eq_true, decide_eq_true_eq,
    Char.le_def, UInt32.le_iff_toNat_le] at h
  have hnat : c.toNat = c.val.toNat := rfl
  have hrange : 48 ≤ c.toNat ∧ c.toNat ≤ 122 ∨ c = '-' ∨ c = '.' := by
    rcases h with ((((h | h) | h) | rfl) | rfl) | rfl
    · exact .inl ⟨le_trans (by decide) h.1, h.2⟩
    · exact .inl ⟨le_trans (by decide) h.1, le_trans h.2 (by decide)⟩
    · exact .inl ⟨h.1, le_trans h.2 (by decide)⟩
    · exact .inl (by decide)
    · exact .inr (.inl rfl)
    · exact .inr (.inr rfl)
  rcases hrange with h | rfl | rfl
  · rw [Bool.eq_false_iff]
    intro hspace
    simp only [isSpace, Bool.or_eq_true, Bool.and_eq_true, decide_eq_true_eq] at hspace
    omega
  · decide
  · decide

section Kept

variable (d : PiholeData) (defaultDomain : Str)

/-- The line is a word before a domain to block, and what follows is blank, but not empty,
without the dots around it. -/
def BlankRule (line : Str) : Prop :=
  startsWith line ['#'] = false ∧ blockWords.any (startsWith (d.toLower line)) = true ∧
    ruleDomain line ≠ [] ∧ strip (ruleDomain line) = []

instance (line : Str) : Decidable (BlankRule d line) := inferInstanceAs (Decidable (_ ∧ _))

/-- A text that starts with another word is no word before a domain to block. -/
theorem not_blockWord {lower t : Str} (h : startsWith lower t = true)
    (ht : ∀ word ∈ blockWords, t.head? ≠ word.head?) (hne : t ≠ []) :
    blockWords.any (startsWith lower) = false := by
  rw [startsWith, List.isPrefixOf_iff_prefix] at h
  obtain ⟨rest, rfl⟩ := h
  rw [Bool.eq_false_iff]
  intro hany
  rw [List.any_eq_true] at hany
  obtain ⟨word, hword, hstarts⟩ := hany
  rw [startsWith, List.isPrefixOf_iff_prefix] at hstarts
  obtain ⟨rest', heq⟩ := hstarts
  have hwordne : word ≠ [] := by
    rintro rfl
    revert hword
    decide
  apply ht word hword
  have := congrArg List.head? heq
  rwa [List.head?_append_of_ne_nil _ hwordne, List.head?_append_of_ne_nil _ hne, eq_comm] at this

theorem kept_cnameLine (entries : List (ℕ × Emitted)) (number : ℕ) (line : Str) :
    Kept entries (cnameLine d defaultDomain number line) := by
  unfold cnameLine
  split
  · split
    · trivial
    · split
      · trivial
      · trivial
  · trivial

/-- There is an entry of a plain line, and the plan keeps it. -/
theorem exists_kept_plainLine (entries : List (ℕ × Emitted)) (pihole : Option PiholeSection)
    (number : ℕ) {line : Str} (hline : strip line ≠ []) :
    ∃ e ∈ plainLine d defaultDomain pihole number line, Kept entries e := by
  unfold plainLine
  split
  · rename_i ip host hosts _ _
    refine ⟨hostEntry d defaultDomain number line ip host, by simp, ?_⟩
    unfold hostEntry
    split
    · trivial
    · trivial
  · by_cases hcolumns : hasGroupColumns d line = true
    · rw [if_pos hcolumns]
      exact ⟨_, List.mem_singleton_self _, trivial⟩
    rw [if_neg hcolumns]
    by_cases hdomain : matchesPiholeDomain line = true
    · rw [if_pos hdomain]
      refine ⟨_, List.mem_singleton_self _, isKept_of_forall ?_ hline⟩
      have hchars : ∀ c ∈ line, isSpace c = false := by
        intro c hc
        simp only [matchesPiholeDomain, Bool.and_eq_true, List.all_eq_true] at hdomain
        exact isSpace_of_isHostChar (hdomain.2 c hc)
      intro c hc
      split_ifs at hc
      · rw [List.mem_append] at hc
        rcases hc with hc | hc
        · have hat : c = '@' := by simpa using hc
          rw [hat]
          decide
        · exact hchars c (mem_of_mem_stripBy hc)
      · exact hchars c (mem_of_mem_stripBy hc)
    · rw [if_neg hdomain]
      exact ⟨_, List.mem_singleton_self _, trivial⟩

/-- A line gets an entry that the plan keeps unless its rule is blank. -/
theorem exists_kept_piholeLine (entries : List (ℕ × Emitted)) (pihole : Option PiholeSection)
    (number : ℕ) {line : Str} (hline : strip line ≠ []) :
    (∃ e ∈ piholeLine d defaultDomain pihole number line, Kept entries e) ↔
      ¬BlankRule d line := by
  have hother {es : List Emitted} (hwords : blockWords.any (startsWith (d.toLower line)) = false)
      (hes : ∃ e ∈ es, Kept entries e) : (∃ e ∈ es, Kept entries e) ↔ ¬BlankRule d line :=
    iff_of_true hes fun h => Bool.noConfusion (hwords.symm.trans h.2.1)
  have hsingle {e : Emitted} (he : Kept entries e) : ∃ e' ∈ [e], Kept entries e' :=
    ⟨e, List.mem_singleton_self e, he⟩
  unfold piholeLine
  dsimp only
  by_cases hcomment : startsWith line ['#'] = true
  · rw [if_pos hcomment]
    refine iff_of_true (hsingle ?_) fun h => Bool.noConfusion (h.1.symm.trans hcomment)
    rw [startsWith, List.isPrefixOf_iff_prefix] at hcomment
    exact isKept_of_mem (hcomment.subset (List.mem_singleton_self '#')) (by decide)
  rw [if_neg hcomment]
  by_cases hurl : isHttpUrl d.toImportData line = true
  · rw [if_pos hurl]
    rw [isHttpUrl, Bool.or_eq_true] at hurl
    rcases hurl with hurl | hurl
    · exact hother (not_blockWord hurl (by decide) (by decide)) (hsingle trivial)
    · exact hother (not_blockWord hurl (by decide) (by decide)) (hsingle trivial)
  rw [if_neg hurl]
  by_cases hcname : startsWith (d.toLower line) "cname=".toList = true
  · rw [if_pos hcname]
    exact hother (not_blockWord hcname (by decide) (by decide)) (hsingle (kept_cnameLine ..))
  rw [if_neg hcname]
  by_cases hallow : allowWords.any (startsWith (d.toLower line)) = true
  · rw [if_pos hallow]
    rw [List.any_eq_true] at hallow
    obtain ⟨word, hword, hstarts⟩ := hallow
    have hheads : ∀ word ∈ allowWords,
        word ≠ [] ∧ ∀ other ∈ blockWords, word.head? ≠ other.head? := by decide
    obtain ⟨hne, hhead⟩ := hheads word hword
    refine hother (not_blockWord hstarts hhead hne) (hsingle ?_)
    exact isKept_of_mem (c := '@') (by simp) (by decide)
  rw [if_neg hallow]
  by_cases hblock : blockWords.any (startsWith (d.toLower line)) = true
  · rw [if_pos hblock]
    simp only [List.mem_singleton, exists_eq_left, BlankRule, hblock, hcomment, true_and, not_and,
      Kept, piholeRule, RawRule.IsKept, orComment]
    by_cases hdomain : ruleDomain line = []
    · simp [hdomain, hline]
    · simp [hdomain]
  rw [if_neg hblock]
  refine hother (Bool.eq_false_iff.mpr hblock) ?_
  by_cases hwhite : startsWith (d.toLower line) "regex whitelist ".toList = true
  · rw [if_pos hwhite]
    exact hsingle (isKept_piholeRegexEntry _ _ _)
  rw [if_neg hwhite]
  by_cases hregex : startsWith (d.toLower line) "regex ".toList = true
  · rw [if_pos hregex]
    exact hsingle (isKept_piholeRegexEntry _ _ _)
  rw [if_neg hregex]
  by_cases hgroup : (startsWith (d.toLower line) "group ".toList || pihole = some .groups) = true
  · rw [if_pos hgroup]
    exact hsingle trivial
  rw [if_neg hgroup]
  by_cases hblack : pihole = some .regexBlack
  · rw [if_pos hblack]
    exact hsingle (isKept_piholeRegexEntry _ _ _)
  rw [if_neg hblack]
  by_cases hwhitelist : pihole = some .regexWhite
  · rw [if_pos hwhitelist]
    exact hsingle (isKept_piholeRegexEntry _ _ _)
  rw [if_neg hwhitelist]
  exact exists_kept_plainLine d defaultDomain entries pihole number hline

theorem le_of_mem_piholeEntries {n : ℕ} {e : Emitted} (lines : List Str) :
    ∀ (pihole : Option PiholeSection) (number : ℕ),
      (n, e) ∈ piholeEntries d defaultDomain pihole number lines → number ≤ n := by
  induction lines with
  | nil => simp [piholeEntries]
  | cons raw lines ih =>
      intro pihole number h
      rw [piholeEntries, List.mem_append, List.mem_map] at h
      rcases h with ⟨e', -, heq⟩ | h
      · rw [Prod.mk.injEq] at heq
        exact heq.1.le
      · exact (Nat.le_succ number).trans (ih _ _ h)

/-- The entries with the number of a line are those that its round appends. -/
theorem mem_piholeEntries (lines : List Str) :
    ∀ (pihole : Option PiholeSection) (number i : ℕ) (raw : Str), lines[i]? = some raw →
      ∃ pihole', ∀ e, (number + i, e) ∈ piholeEntries d defaultDomain pihole number lines ↔
        e ∈ (piholeRound d defaultDomain pihole' (number + i) raw).1 := by
  induction lines with
  | nil => simp
  | cons line lines ih =>
      intro pihole number i raw hraw
      simp only [piholeEntries, List.mem_append, List.mem_map, Prod.mk.injEq]
      cases i with
      | zero =>
          simp only [List.getElem?_cons_zero, Option.some.injEq] at hraw
          subst hraw
          refine ⟨pihole, fun e => ?_⟩
          have hlater : (number, e) ∉ piholeEntries d defaultDomain
              (piholeRound d defaultDomain pihole number line).2 (number + 1) lines := by
            intro h
            have := le_of_mem_piholeEntries d defaultDomain lines _ _ h
            omega
          simp [hlater]
      | succ i =>
          simp only [List.getElem?_cons_succ] at hraw
          obtain ⟨pihole', h⟩ :=
            ih (piholeRound d defaultDomain pihole number line).2 (number + 1) i raw hraw
          have hnumber : number + 1 + i = number + (i + 1) := by omega
          rw [hnumber] at h
          refine ⟨pihole', fun e => ?_⟩
          rw [h e, or_iff_right]
          rintro ⟨e', -, heq, -⟩
          omega

/-- The line is not blank and not a header, or too long to be read as one. -/
def IsPiholeThing (raw : Str) : Prop :=
  strip raw ≠ [] ∧
    (maxLineChars < (strip raw).length ∨ piholeSectionFor d.toUnicodeData (strip raw) = none)

instance (raw : Str) : Decidable (IsPiholeThing d raw) := inferInstanceAs (Decidable (_ ∧ _))

/-- A line gets an item of the plan unless its rule is blank. -/
theorem piholeLine_accounted_iff (domain text : Str) {i : ℕ} {raw : Str}
    (hraw : (splitlines text)[i]? = some raw) (hthing : IsPiholeThing d raw) :
    Accounted (piholeTextEntries d defaultDomain text) d.toImportData domain (i + 1) ↔
      ¬((strip raw).length ≤ maxLineChars ∧ BlankRule d (strip raw)) := by
  obtain ⟨pihole, hentries⟩ := mem_piholeEntries d defaultDomain _ none 1 i raw hraw
  rw [Nat.add_comm 1 i] at hentries
  rw [accounted_iff]
  simp only [piholeTextEntries, hentries, piholeRound, if_neg hthing.1]
  by_cases hlong : maxLineChars < (strip raw).length
  · rw [if_pos hlong]
    refine iff_of_true ⟨_, List.mem_singleton_self _, trivial⟩ fun h => ?_
    omega
  · rw [if_neg hlong, hthing.2.resolve_left hlong]
    have hline : strip (strip raw) ≠ [] := by
      rw [strip, strip, stripBy_stripBy]
      exact hthing.1
    rw [exists_kept_piholeLine d defaultDomain _ pihole (i + 1) hline]
    simp only [not_lt.mp hlong, true_and]

end Kept

end AlderpointDNS.Importer
