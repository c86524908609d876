import AlderpointDNS.Lib.Lua
import AlderpointDNS.Upstream.Endpoints

/-!
# The configuration of a resolver

`_new_server_statement` renders a resolver as a call of `newServer` in Lua, and
`render_dnsdist_upstreams` the file with these calls.

* `newServerStatement_eq` — the statement is the printed call;
* **`newServer_faithful_iff`** — when the statement is one line and is read as that call.
* `subject_with_newline` — an accepted resolver whose statement is not Lua.
-/

namespace AlderpointDNS.Upstream

open Text

/-! ## Rendering -/

/-- `_lua_quote`. -/
def luaQuote (value : Str) : Str :=
  '"' :: (value.flatMap fun c => if c = '\\' then ['\\', '\\'] else [c]).flatMap
    (fun c => if c = '"' then ['\\', '"'] else [c]) ++ ['"']

/-- `[a-zA-Z0-9_-]`. -/
def isNameChar (c : Char) : Bool := Lua.isWordChar c || c = '-'

/-- `re.sub(r'[^a-zA-Z0-9_-]+', '-', name)`; `inRun` is true after a character that is replaced. -/
def dashed (inRun : Bool) : Str → Str
  | [] => []
  | c :: s =>
      if isNameChar c then c :: dashed false s
      else if inRun then dashed true s
      else '-' :: dashed true s

/-- The name that dnsdist shows. -/
def serverName (row : ForwarderRow) : Str :=
  "upstream-".toList ++ Nat.toDigits 10 row.id ++ '-' :: (dashed false row.name).take 42

/-- The options of `_new_server_statement`. -/
def newServerOptions (row : ForwarderRow) : List Str :=
  ["address=".toList ++ luaQuote (addressForDnsdist row),
    "name=".toList ++ luaQuote (serverName row),
    "pool=\"alderpointdns_upstreams\"".toList,
    "checkName=\"cloudflare.com.\"".toList,
    "checkType=\"A\"".toList,
    "mustResolve=true".toList,
    "order=".toList ++ Nat.toDigits 10 row.position]
  ++ (if row.protocol = .dot ∨ row.protocol = .doh then
      ["tls=\"openssl\"".toList, "validateCertificates=true".toList,
        "subjectName=".toList ++ luaQuote (orText row.tlsHostname row.address)]
    else [])
  ++ (if row.protocol = .doh then
      ["dohPath=".toList ++ luaQuote (orText row.dohPath "/dns-query".toList)]
    else [])

/-- `_new_server_statement`. -/
def newServerStatement (row : ForwarderRow) : Str :=
  "newServer(\x7b".toList ++ join ", ".toList (newServerOptions row) ++ "\x7d)".toList

/-- The lines of `render_dnsdist_upstreams` before the resolvers. -/
def forwarderHeader : List Str :=
  ["-- Managed by Alderpoint DNS. Generated upstream forwarder; do not edit by hand.".toList,
    "alderpointdnsUpstreamsEnabled = true".toList,
    "addLocal(\"127.0.0.1:5355\", \x7breusePort=true\x7d)".toList,
    "setPoolServerPolicy(firstAvailable, \"alderpointdns_upstreams\")".toList]

/-- `render_dnsdist_upstreams`. -/
def renderDnsdistUpstreams (rows : List ForwarderRow) : Str :=
  join ['\n'] (forwarderHeader ++ rows.map newServerStatement) ++ ['\n']

/-! ## The call -/

/-- The call that dnsdist has to make of a resolver. -/
def newServerCall (row : ForwarderRow) : Lua.Call where
  name := "newServer".toList
  fields :=
    [("address".toList, .text (addressForDnsdist row)),
      ("name".toList, .text (serverName row)),
      ("pool".toList, .text "alderpointdns_upstreams".toList),
      ("checkName".toList, .text "cloudflare.com.".toList),
      ("checkType".toList, .text "A".toList),
      ("mustResolve".toList, .flag true),
      ("order".toList, .number row.position)]
    ++ (if row.protocol = .dot ∨ row.protocol = .doh then
        [("tls".toList, .text "openssl".toList), ("validateCertificates".toList, .flag true),
          ("subjectName".toList, .text (orText row.tlsHostname row.address))]
      else [])
    ++ (if row.protocol = .doh then
        [("dohPath".toList, .text (orText row.dohPath "/dns-query".toList))]
      else [])

/-- The statement is one line, and Lua reads it as that call. -/
def Faithful (row : ForwarderRow) : Prop :=
  (∀ c ∈ newServerStatement row, Lua.isNewline c = false) ∧
    Lua.parse (newServerStatement row) = some (newServerCall row)

/-- No character of the text ends a line. -/
def OneLine (s : Str) : Prop := ∀ c ∈ s, Lua.isNewline c = false

instance (s : Str) : Decidable (OneLine s) :=
  List.decidableBAll _ s

/-- The texts of a resolver that are rendered have no line breaks. -/
structure PlainTexts (row : ForwarderRow) : Prop where
  address : OneLine (orText (strip (row.dnsdistAddress.getD [])) row.address)
  subject : row.protocol ≠ .plain → OneLine (orText row.tlsHostname row.address)
  path : row.protocol = .doh → OneLine (orText row.dohPath "/dns-query".toList)

/-! ## The statement is the printed call -/

/-- The two replacements escape each character once. -/
theorem luaQuote_eq (value : Str) : luaQuote value = Lua.quote value := by
  have hescape : ∀ c : Char, (if c = '\\' then ['\\', '\\'] else [c]).flatMap
      (fun c => if c = '"' then ['\\', '"'] else [c]) = Lua.escapeChar c := by
    intro c
    by_cases hbackslash : c = '\\'
    · subst hbackslash
      rfl
    · by_cases hquote : c = '"'
      · subst hquote
        rfl
      · simp [Lua.escapeChar, hbackslash, hquote]
  rw [luaQuote, Lua.quote, List.flatMap_assoc]
  simp only [hescape]

/-- The key of an option, with its equals sign. -/
theorem printField_text {key option : Str} (h : option = key ++ ['=']) (value : Str) :
    option ++ luaQuote value = Lua.printField (key, .text value) := by
  rw [h, luaQuote_eq, List.append_assoc]
  rfl

theorem newServerOptions_eq (row : ForwarderRow) :
    newServerOptions row = (newServerCall row).fields.map Lua.printField := by
  have hpool : "pool=\"alderpointdns_upstreams\"".toList
      = Lua.printField ("pool".toList, .text "alderpointdns_upstreams".toList) := by decide +kernel
  have hcheckName : "checkName=\"cloudflare.com.\"".toList
      = Lua.printField ("checkName".toList, .text "cloudflare.com.".toList) := by decide +kernel
  have hcheckType : "checkType=\"A\"".toList
      = Lua.printField ("checkType".toList, .text "A".toList) := by decide +kernel
  have hmust : "mustResolve=true".toList
      = Lua.printField ("mustResolve".toList, .flag true) := by decide +kernel
  have horder : "order=".toList ++ Nat.toDigits 10 row.position
      = Lua.printField ("order".toList, .number row.position) := by
    have hkey : "order=".toList = "order".toList ++ ['='] := by decide +kernel
    rw [hkey, List.append_assoc]
    rfl
  have htls : "tls=\"openssl\"".toList
      = Lua.printField ("tls".toList, .text "openssl".toList) := by decide +kernel
  have hvalidate : "validateCertificates=true".toList
      = Lua.printField ("validateCertificates".toList, .flag true) := by decide +kernel
  have haddress : "address=".toList = "address".toList ++ ['='] := by decide +kernel
  have hname : "name=".toList = "name".toList ++ ['='] := by decide +kernel
  have hsubject : "subjectName=".toList = "subjectName".toList ++ ['='] := by decide +kernel
  have hpath : "dohPath=".toList = "dohPath".toList ++ ['='] := by decide +kernel
  unfold newServerOptions newServerCall
  rw [List.map_append, List.map_append, printField_text haddress, printField_text hname,
    printField_text hsubject, printField_text hpath, hpool, hcheckName, hcheckType, hmust, horder, htls, hvalidate]
  split_ifs
  all_goals simp only [List.map_cons, List.map_nil]

theorem newServerStatement_eq (row : ForwarderRow) :
    newServerStatement row = (newServerCall row).print := by
  have hopen : "newServer(\x7b".toList = "newServer".toList ++ "(\x7b".toList := by
    repeat rw [String.toList_ofList]
    rfl
  have hcall : (newServerCall row).name = "newServer".toList := rfl
  unfold newServerStatement Lua.Call.print
  rw [newServerOptions_eq, hopen, hcall]

/-! ## When a statement is one line -/

theorem oneLine_toDigits (n : ℕ) : OneLine (Nat.toDigits 10 n) := fun _ hc =>
  Lua.isNewline_of_isWordChar (Lua.isWordChar_of_isDigit (Lua.isDigit_of_mem_toDigits hc))

theorem OneLine.append {s t : Str} (hs : OneLine s) (ht : OneLine t) : OneLine (s ++ t) := by
  intro c hc
  rcases List.mem_append.mp hc with hc | hc
  · exact hs c hc
  · exact ht c hc

theorem mem_dashed {c : Char} {s : Str} :
    ∀ {inRun : Bool}, c ∈ dashed inRun s → isNameChar c = true := by
  induction s with
  | nil => simp [dashed]
  | cons d s ih =>
      intro inRun hc
      rw [dashed] at hc
      split_ifs at hc with hname
      · rcases List.mem_cons.mp hc with rfl | hc
        · exact hname
        · exact ih hc
      · exact ih hc
      · rcases List.mem_cons.mp hc with rfl | hc
        · decide
        · exact ih hc

theorem oneLine_serverName (row : ForwarderRow) : OneLine (serverName row) := by
  have hprefix : OneLine ("upstream-".toList ++ Nat.toDigits 10 row.id) :=
    OneLine.append (by decide) (oneLine_toDigits row.id)
  refine hprefix.append fun c hc => ?_
  rcases List.mem_cons.mp hc with rfl | hc
  · decide
  · have hname := mem_dashed (List.mem_of_mem_take hc)
    simp only [isNameChar, Bool.or_eq_true, decide_eq_true_eq] at hname
    rcases hname with hword | rfl
    · exact Lua.isNewline_of_isWordChar hword
    · decide

theorem oneLine_bracketed (host : Str) : OneLine (bracketed host) ↔ OneLine host := by
  unfold bracketed
  split_ifs
  · constructor
    · intro h c hc
      exact h c (by simp [hc])
    · intro h
      have hopen : OneLine ['['] := by decide
      exact (hopen.append h).append (by decide)
  · exact Iff.rfl

theorem oneLine_address (row : ForwarderRow) : OneLine (addressForDnsdist row)
    ↔ OneLine (orText (strip (row.dnsdistAddress.getD [])) row.address) := by
  rw [← oneLine_bracketed (orText (strip (row.dnsdistAddress.getD [])) row.address)]
  constructor
  · intro h c hc
    exact h c (List.mem_append_left _ hc)
  · intro h
    have hcolon : OneLine [':'] := by decide
    exact h.append (hcolon.append (oneLine_toDigits row.port))

/-- What holds of all fields of the call. -/
theorem forall_fields (row : ForwarderRow) (p : Str × Lua.Value → Prop) :
    (∀ field ∈ (newServerCall row).fields, p field) ↔
      (p ("address".toList, .text (addressForDnsdist row)) ∧
        p ("name".toList, .text (serverName row)) ∧
        p ("pool".toList, .text "alderpointdns_upstreams".toList) ∧
        p ("checkName".toList, .text "cloudflare.com.".toList) ∧
        p ("checkType".toList, .text "A".toList) ∧
        p ("mustResolve".toList, .flag true) ∧
        p ("order".toList, .number row.position)) ∧
      (row.protocol ≠ .plain →
        p ("tls".toList, .text "openssl".toList) ∧
        p ("validateCertificates".toList, .flag true) ∧
        p ("subjectName".toList, .text (orText row.tlsHostname row.address))) ∧
      (row.protocol = .doh →
        p ("dohPath".toList, .text (orText row.dohPath "/dns-query".toList))) := by
  have htls : (row.protocol = .dot ∨ row.protocol = .doh) ↔ row.protocol ≠ .plain := by
    cases row.protocol <;> simp
  unfold newServerCall
  rw [List.forall_mem_append, List.forall_mem_append, and_assoc]
  refine and_congr (by simp only [List.forall_mem_cons, List.not_mem_nil, false_imp_iff,
    implies_true, and_true]) (and_congr ?_ ?_)
  · rw [← htls]
    split_ifs with h
    · simp only [h, forall_const, List.forall_mem_cons, List.not_mem_nil, false_imp_iff,
        implies_true, and_true]
    · simp [h]
  · split_ifs with h
    · simp [h]
    · simp [h]

theorem newServerCall_ok (row : ForwarderRow) :
    ∀ field ∈ (newServerCall row).fields, Lua.isName field.1 = true := by
  rw [forall_fields]
  refine ⟨?_, fun _ => ?_, fun _ => ?_⟩
  all_goals
    dsimp only
    decide +kernel

/-- The values of the call are those of the texts of the resolver. -/
theorem values_ok_iff (row : ForwarderRow) :
    (∀ field ∈ (newServerCall row).fields, field.2.Ok) ↔ PlainTexts row := by
  rw [forall_fields]
  have hpool : OneLine "alderpointdns_upstreams".toList := by
    rw [String.toList_ofList]
    decide
  have hcheckName : OneLine "cloudflare.com.".toList := by
    rw [String.toList_ofList]
    decide
  have hcheckType : OneLine "A".toList := by
    rw [String.toList_ofList]
    decide
  have htls : OneLine "openssl".toList := by
    rw [String.toList_ofList]
    decide
  constructor
  · rintro ⟨⟨haddress, -⟩, hsubject, hpath⟩
    exact ⟨(oneLine_address row).mp haddress, fun h => (hsubject h).2.2, hpath⟩
  · intro h
    exact ⟨⟨(oneLine_address row).mpr h.address, oneLine_serverName row, hpool, hcheckName,
      hcheckType, trivial, trivial⟩, fun hprotocol => ⟨htls, trivial, h.subject hprotocol⟩, h.path⟩

/-- **When a resolver is configured as it is stored**: exactly if none of its texts has a line
break. -/
theorem newServer_faithful_iff (row : ForwarderRow) : Faithful row ↔ PlainTexts row := by
  have hname : Lua.isName (newServerCall row).name = true := by
    show Lua.isName "newServer".toList = true
    rw [String.toList_ofList]
    decide
  have hkeys := newServerCall_ok row
  unfold Faithful
  rw [newServerStatement_eq, Lua.Call.print_oneLine hname hkeys, values_ok_iff]
  constructor
  · exact fun h => h.1
  · intro h
    exact ⟨h, Lua.parse_print ⟨hname, hkeys, (values_ok_iff row).mpr h⟩⟩

/-- A form with a line break in the name for TLS. -/
def brokenForm : ResolverValues where
  protocol := some "dot".toList
  name := none
  enabled := none
  address := some "9.9.9.9".toList
  port := .absent
  dohPath := none
  tlsHostname := some "dns\nquad9.net".toList
  bootstrapIps := none

def brokenDot : ForwarderRow where
  address := "9.9.9.9".toList
  port := 853
  dohPath := []
  tlsHostname := "dns\nquad9.net".toList
  bootstrapIps := []
  name := "DOT".toList
  protocol := .dot
  enabled := true
  id := 1
  position := 1
  dnsdistAddress := some "9.9.9.9".toList

/-- It is accepted, and its statement cannot be read. -/
theorem subject_with_newline :
    validateResolver asciiHostData false brokenForm = .ok brokenDot.toResolverData ∧
      Lua.parse (newServerStatement brokenDot) = none ∧ ¬Faithful brokenDot := by
  have hparse : Lua.parse (newServerStatement brokenDot) = none := by decide +kernel
  refine ⟨by decide +kernel, hparse, fun h => ?_⟩
  have hread := h.2
  rw [hparse] at hread
  cases hread

end AlderpointDNS.Upstream
