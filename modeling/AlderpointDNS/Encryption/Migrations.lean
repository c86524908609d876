import AlderpointDNS.Lib.Patterns

/-!
# The migrations of dnsdist.conf

Before a deployment of the encryption settings, dnsdist.conf is brought to the parameterized
template once, and its DoH listener to the current managed block.  Here are the texts that the two
migrations write, as functions of the file and of the template; `none` is a file that is left as
it is.

* `cut`, `count`, `replaceAll` — what is searched for and replaced as plain text.
* `parameterized` — the text of `ensure_dnsdist_conf_parameterized`.
* `altsvcMigrated` — the text and the note of `ensure_doh_altsvc_migration`.
-/

namespace AlderpointDNS.Encryption

open Text

/-! ## Plain text -/

/-- The text before the first occurrence of `sub`, and the text after it. -/
def cut (sub : Str) : Str → Option (Str × Str)
  | [] => if sub = [] then some ([], []) else none
  | c :: cs =>
      if startsWith (c :: cs) sub then some ([], (c :: cs).drop sub.length)
      else (cut sub cs).map fun m => (c :: m.1, m.2)

/-- The matches of `re.finditer` of a text without special characters, after so many characters of
a match. -/
def count (sub : Str) : ℕ → Str → ℕ
  | _, [] => 0
  | skip + 1, _ :: s => count sub skip s
  | 0, c :: s =>
      if startsWith (c :: s) sub then count sub (sub.length - 1) s + 1 else count sub 0 s

/-- `s.replace(old, new)`. -/
def replaceAll (old new s : Str) : Str := Text.sub (old.map .char) (fun _ => new) 0 s

/-! ## The parameterized template -/

def migrationMarker : Str := "-- Encryption Settings (managed by app/encryption.py)".toList

/-- The group of `opening([^"]+)closing`. -/
def searchQuoted (opening closing : String) (s : Str) : Option Str :=
  (Text.find (word opening) [.many (· ≠ '"')] (word closing) s).map (·.2.1)

def isOctal (c : Char) : Bool := '0' ≤ c && c ≤ '7'

/-- The character of up to three octal digits. -/
def octal (digits : Str) : Char :=
  Char.ofNat (digits.foldl (fun n c => 8 * n + (c.toNat - '0'.toNat)) 0)

def escapes : List (Char × Char) :=
  [('a', '\x07'), ('b', '\x08'), ('f', '\x0c'), ('n', '\n'), ('r', '\r'), ('t', '\t'),
    ('v', '\x0b'), ('\\', '\\')]

def isAsciiLetter (c : Char) : Bool := ('a' ≤ c && c ≤ 'z') || ('A' ≤ c && c ≤ 'Z')

/-- What `re.sub` writes for a replacement, where the pattern has no groups and has matched `whole`;
the first argument bounds the length. -/
def expandTemplate (whole : Str) : ℕ → Str → Option Str
  | 0, _ => some []
  | _ + 1, [] => some []
  | n + 1, c :: s =>
      if c ≠ '\\' then (expandTemplate whole n s).map (c :: ·)
      else
        match s with
        | [] => none
        | e :: s =>
            if e = 'g' then
              if startsWith s "<0>".toList then (expandTemplate whole n (s.drop 3)).map (whole ++ ·)
              else none
            else if e = '0' then
              let digits := (s.take 2).takeWhile isOctal
              (expandTemplate whole n (s.drop digits.length)).map (octal digits :: ·)
            else if '1' ≤ e && e ≤ '9' then
              let digits := (e :: s).take 3
              if digits.length = 3 && digits.all isOctal && e ≤ '3' then
                (expandTemplate whole n (s.drop 2)).map (octal digits :: ·)
              else none
            else
              match escapes.lookup e with
              | some escaped => (expandTemplate whole n s).map (escaped :: ·)
              | none =>
                  if isAsciiLetter e then none
                  else (expandTemplate whole n s).map fun t => '\\' :: e :: t

def consolePlaceholder : Str := "setKey(\"ALDERPOINTDNS_CONSOLE_KEY_PLACEHOLDER\")".toList

/-- What is left of a placeholder that was not replaced. -/
def placeholders : List Str :=
  ["ALDERPOINTDNS_CONSOLE_KEY_PLACEHOLDER".toList,
    "ALDERPOINTDNS_WEBSERVER_PASSWORD_PLACEHOLDER".toList,
    "ALDERPOINTDNS_WEBSERVER_API_KEY_PLACEHOLDER".toList]

/-- The template with the secrets of the installed file. -/
def fillTemplate (key password apiKey template : Str) : Except Str Str :=
  let setKey := "setKey(\"".toList ++ key ++ "\")".toList
  match expandTemplate consolePlaceholder setKey.length setKey with
  | none => .error "bad escape".toList
  | some setKey =>
      let content := replaceAll consolePlaceholder setKey template
      let content := replaceAll
        "password=\"ALDERPOINTDNS_WEBSERVER_PASSWORD_PLACEHOLDER\"".toList
        ("password=\"".toList ++ password ++ "\"".toList) content
      let content := replaceAll "apiKey=\"ALDERPOINTDNS_WEBSERVER_API_KEY_PLACEHOLDER\"".toList
        ("apiKey=\"".toList ++ apiKey ++ "\"".toList) content
      if placeholders.any fun placeholder => isSubstring placeholder content then
        .error "template still contains unresolved secret placeholders".toList
      else .ok content

/-- The error where there is no template. -/
def templateMissing : Str :=
  "[Errno 2] No such file or directory: '/opt/alderpointdns/packaging/dnsdist.conf'".toList

/-- What `ensure_dnsdist_conf_parameterized` writes. -/
def parameterized (conf template : Option Str) : Except Str (Option Str) :=
  let current := conf.getD []
  if isSubstring migrationMarker current &&
      isSubstring "ALDERPOINTDNS_DNS_LISTEN_IPV4".toList current then .ok none
  else
    match searchQuoted "setKey(\"" "\")" current, searchQuoted "password=\"" "\"" current,
        searchQuoted "apiKey=\"" "\"" current with
    | some key, some password, some apiKey =>
        match template with
        | none => .error templateMissing
        | some template => (fillTemplate key password apiKey template).map some
    | _, _, _ =>
        .error "could not locate existing dnsdist console/webserver secrets to preserve".toList

/-! ## The managed block of the DoH listener -/

def dohAltsvcMarkerBegin : Str := "-- ALDERPOINT-DNS-MANAGED-BLOCK: doh-altsvc BEGIN".toList

def dohAltsvcMarkerEnd : Str := "-- ALDERPOINT-DNS-MANAGED-BLOCK: doh-altsvc END".toList

/-- The lines of one `addDOHLocal` call of `_DOH_BETA4_BLOCK_RE`. -/
def addDohLocal (condition address : String) : List String :=
  ["  if " ++ condition ++ " ~= \"\" then",
    "    addDOHLocal(" ++ address ++ " .. dohPort, \x7btlsCert\x7d, \x7btlsKey\x7d, \x7b",
    "      dohPath",
    "    \x7d, \x7b",
    "      reusePort=true,",
    "      minTLSVersion=\"tls1.2\",",
    "      ciphers=\"HIGH:!aNULL:!MD5:!RC4\"",
    "    \x7d)",
    "  end"]

/-- `_DOH_BETA4_BLOCK_RE`, which has no special characters. -/
def dohBeta4Block : Str :=
  (["if dohEnabled then"] ++ addDohLocal "listenIPv4" "listenIPv4 .. \":\"" ++
    addDohLocal "listenIPv6" "\"[\" .. listenIPv6 .. \"]:\"" ++ ["end"]).flatMap fun line =>
      line.toList ++ ['\n']

/-- `_extract_managed_block`. -/
def extractManagedBlock (text beginMarker endMarker : Str) : Except Str Str :=
  let opening := beginMarker ++ ['\n']
  let closing := '\n' :: endMarker ++ ['\n']
  match (cut opening text).bind fun m => cut closing m.2 with
  | some (body, _) => .ok (opening ++ body ++ closing)
  | none =>
      .error ("template does not contain a '".toList ++ beginMarker ++ "'...'".toList ++
        endMarker ++ "' managed block".toList)

def altsvcSkipped (found : ℕ) : Str :=
  "doh-altsvc migration skipped: the dohEnabled block in the deployed dnsdist.conf ".toList ++
  "does not match the known pre-migration shape (found ".toList ++ Nat.toDigits 10 found ++
  " match(es); expected exactly 1), which usually means it was ".toList ++
  "hand-edited. Reconcile it manually against packaging/dnsdist.conf's ".toList ++
  dohAltsvcMarkerBegin ++ " block, or restore a stock copy and reapply local ".toList ++
  "changes, to pick up Alt-Svc support.".toList

/-- What `ensure_doh_altsvc_migration` writes, and what it reports where it writes nothing. -/
def altsvcMigrated (conf template : Option Str) : Except Str (Option Str × Str) :=
  match conf with
  | none => .ok (none, [])
  | some current =>
      if !isSubstring migrationMarker current then .ok (none, [])
      else if isSubstring dohAltsvcMarkerBegin current then .ok (none, [])
      else
        match template with
        | none => .error templateMissing
        | some template =>
            if !isSubstring dohAltsvcMarkerBegin template then .ok (none, [])
            else do
              let block ← extractManagedBlock template dohAltsvcMarkerBegin dohAltsvcMarkerEnd
              if count dohBeta4Block 0 current ≠ 1 then
                .ok (none, altsvcSkipped (count dohBeta4Block 0 current))
              else
                match cut dohBeta4Block current with
                | some (before, after) => .ok (some (before ++ block ++ after), [])
                | none => .ok (none, [])

end AlderpointDNS.Encryption
