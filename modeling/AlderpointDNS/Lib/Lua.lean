import AlderpointDNS.Lib.Text

/-!
# Calls in Lua

The part of Lua that a configuration of calls with a table is written in: names, decimal numbers,
literals in double quotes, and `name({key=value, …})`.  The scanner goes over the characters one by
one; its state is what it is inside of.

* `Lexes` — a text is scanned to these tokens, whatever stands before it;
* `lexes_quote` — a quoted text without line breaks is one literal;
* **`parse_print`** — a call is read as it was printed;
* `lex_print_eq_none` — a call with a line break in one of its texts is not.
-/

namespace Lua

open Text

/-! ## Tokens -/

inductive Token where
  | word (w : Str)
  | literal (s : Str)
  | symbol (c : Char)
  deriving DecidableEq

/-- What the scanner is inside of. -/
inductive LexState where
  | blank
  | word (w : Str)
  | literal (s : Str)
  | escape (s : Str)

def isDigit (c : Char) : Bool := '0' ≤ c && c ≤ '9'

/-- A letter, a digit or an underscore. -/
def isWordChar (c : Char) : Bool :=
  ('a' ≤ c && c ≤ 'z') || ('A' ≤ c && c ≤ 'Z') || isDigit c || c = '_'

def isSymbol (c : Char) : Bool := "()\x7b\x7d=,".toList.contains c

def isBlank (c : Char) : Bool := " \t\n\r\x0b\x0c".toList.contains c

/-- Either of them ends a line, which no literal does. -/
def isNewline (c : Char) : Bool := c = '\n' || c = '\r'

/-- The character that a backslash and this one stand for. -/
def unescape (c : Char) : Option Char :=
  [('a', '\x07'), ('b', '\x08'), ('f', '\x0c'), ('n', '\n'), ('r', '\r'), ('t', '\t'),
    ('v', '\x0b'), ('\\', '\\'), ('"', '"'), ('\'', '\''), ('\n', '\n')].lookup c

/-- The first character after a token. -/
def startToken (tokens : List Token) (c : Char) : Option (List Token × LexState) :=
  if isWordChar c then some (tokens, .word [c])
  else if c = '"' then some (tokens, .literal [])
  else if isSymbol c then some (tokens ++ [.symbol c], .blank)
  else if isBlank c then some (tokens, .blank)
  else none

/-- One character of the scanner. -/
def lexStep : List Token × LexState → Char → Option (List Token × LexState)
  | (tokens, .blank), c => startToken tokens c
  | (tokens, .word w), c =>
      if isWordChar c then some (tokens, .word (w ++ [c])) else startToken (tokens ++ [.word w]) c
  | (tokens, .literal s), c =>
      if c = '"' then some (tokens ++ [.literal s], .blank)
      else if c = '\\' then some (tokens, .escape s)
      else if isNewline c then none
      else some (tokens, .literal (s ++ [c]))
  | (tokens, .escape s), c => (unescape c).map fun d => (tokens, .literal (s ++ [d]))

/-- The end of the text. -/
def lexEnd : List Token × LexState → Option (List Token)
  | (tokens, .blank) => some tokens
  | (tokens, .word w) => some (tokens ++ [.word w])
  | (_, .literal _) => none
  | (_, .escape _) => none

def lex (s : Str) : Option (List Token) := (s.foldlM lexStep ([], .blank)).bind lexEnd

/-! ## Calls -/

inductive Value where
  | text (s : Str)
  | flag (b : Bool)
  | number (n : ℕ)
  deriving DecidableEq

/-- `name({key=value, …})`. -/
structure Call where
  name : Str
  fields : List (Str × Value)
  deriving DecidableEq

def keywords : List Str :=
  ["and", "break", "do", "else", "elseif", "end", "false", "for", "function", "goto", "if", "in",
    "local", "nil", "not", "or", "repeat", "return", "then", "true", "until",
    "while"].map String.toList

def isName (w : Str) : Bool :=
  w ≠ [] && w.all isWordChar && !w.head?.any isDigit && !keywords.contains w

def parseValue : Token → Option Value
  | .literal s => some (.text s)
  | .word w =>
      if w = "true".toList then some (.flag true)
      else if w = "false".toList then some (.flag false)
      else if w.all Char.isDigit then some (.number (Nat.ofDigitChars 10 w 0))
      else none
  | .symbol _ => none

/-- The fields of a table up to its closing brace, and what follows them. -/
def parseFields : List Token → Option (List (Str × Value) × List Token)
  | .word key :: .symbol equals :: token :: .symbol separator :: rest => do
      let value ← parseValue token
      if !isName key || equals ≠ '=' then none
      else if separator = '}' then some ([(key, value)], rest)
      else if separator = ',' then
        (parseFields rest).map fun (fields, rest) => ((key, value) :: fields, rest)
      else none
  | .symbol closing :: rest => if closing = '}' then some ([], rest) else none
  | _ => none

def parseCall : List Token → Option Call
  | .word name :: .symbol paren :: .symbol brace :: rest =>
      if isName name && paren = '(' && brace = '{' then
        match parseFields rest with
        | some (fields, [.symbol closing]) => if closing = ')' then some ⟨name, fields⟩ else none
        | _ => none
      else none
  | _ => none

/-- Text that is one call. -/
def parse (s : Str) : Option Call := (lex s).bind parseCall

/-! ## Printing -/

def escapeChar (c : Char) : Str := if c = '\\' || c = '"' then ['\\', c] else [c]

/-- A literal. -/
def quote (s : Str) : Str := '"' :: s.flatMap escapeChar ++ ['"']

def Value.print : Value → Str
  | text s => quote s
  | flag b => (if b then "true" else "false").toList
  | number n => Nat.toDigits 10 n

def printField (field : Str × Value) : Str := field.1 ++ '=' :: field.2.print

def Call.print (c : Call) : Str :=
  c.name ++ "(\x7b".toList ++ join ", ".toList (c.fields.map printField) ++ "\x7d)".toList

/-- A value that can be printed. -/
def Value.Ok : Value → Prop
  | text s => ∀ c ∈ s, isNewline c = false
  | flag _ => True
  | number _ => True

structure Call.Ok (c : Call) : Prop where
  name : isName c.name = true
  keys : ∀ field ∈ c.fields, isName field.1 = true
  values : ∀ field ∈ c.fields, field.2.Ok

/-! ## Scanning -/

/-- The text is scanned to these tokens. -/
def Lexes (s : Str) (ts : List Token) : Prop :=
  ∀ before, s.foldlM lexStep (before, .blank) = some (before ++ ts, .blank)

theorem Lexes.append {s s' : Str} {ts ts' : List Token} (h : Lexes s ts) (h' : Lexes s' ts') :
    Lexes (s ++ s') (ts ++ ts') := by
  intro before
  rw [List.foldlM_append, h before, ← List.append_assoc]
  exact h' (before ++ ts)

theorem lex_of_lexes {s : Str} {ts : List Token} (h : Lexes s ts) : lex s = some ts := by
  rw [lex, h []]
  rfl

theorem isWordChar_of_isSymbol {c : Char} (h : isSymbol c = true) : isWordChar c = false := by
  have hall : "()\x7b\x7d=,".toList.all (fun c => !isWordChar c) = true := by decide
  simpa using List.all_eq_true.mp hall c (List.contains_iff_mem.mp h)

theorem startToken_symbol {c : Char} (h : isSymbol c = true) (tokens : List Token) :
    startToken tokens c = some (tokens ++ [.symbol c], .blank) := by
  have hquote : c ≠ '"' := by
    rintro rfl
    revert h
    decide
  simp [startToken, isWordChar_of_isSymbol h, hquote, h]

theorem lexes_symbol {c : Char} (h : isSymbol c = true) : Lexes [c] [.symbol c] := by
  intro before
  simp [lexStep, startToken_symbol h]

theorem lexes_space : Lexes [' '] [] := by
  intro before
  simp [lexStep, startToken, isWordChar, isDigit, isSymbol, isBlank]

theorem foldlM_word (tokens : List Token) {w : Str} (h : ∀ c ∈ w, isWordChar c = true) :
    ∀ read, w.foldlM lexStep (tokens, .word read) = some (tokens, .word (read ++ w)) := by
  induction w with
  | nil => simp
  | cons c w ih =>
      intro read
      have hc : isWordChar c = true := h c List.mem_cons_self
      rw [List.foldlM_cons]
      show (lexStep (tokens, .word read) c).bind _ = _
      rw [lexStep, if_pos hc, Option.bind_some, ih fun d hd => h d (List.mem_cons_of_mem c hd)]
      simp

theorem lexes_word_symbol {w : Str} (hne : w ≠ []) (h : ∀ c ∈ w, isWordChar c = true) {c : Char}
    (hc : isSymbol c = true) : Lexes (w ++ [c]) [.word w, .symbol c] := by
  intro before
  obtain ⟨d, w, rfl⟩ := List.exists_cons_of_ne_nil hne
  have hd : isWordChar d = true := h d List.mem_cons_self
  have hword := foldlM_word before (fun e he => h e (List.mem_cons_of_mem d he)) [d]
  rw [List.cons_append, List.foldlM_cons]
  show (startToken before d).bind _ = _
  rw [startToken, if_pos hd, Option.bind_some, List.foldlM_append, hword]
  simp [lexStep, isWordChar_of_isSymbol hc, startToken_symbol hc]

theorem foldlM_literal (tokens : List Token) {s : Str} (h : ∀ c ∈ s, isNewline c = false) :
    ∀ read, (s.flatMap escapeChar).foldlM lexStep (tokens, .literal read)
      = some (tokens, .literal (read ++ s)) := by
  induction s with
  | nil => simp
  | cons c s ih =>
      intro read
      have hc : isNewline c = false := h c List.mem_cons_self
      have hread := ih (fun d hd => h d (List.mem_cons_of_mem c hd)) (read ++ [c])
      rw [List.append_assoc, List.singleton_append] at hread
      rw [List.flatMap_cons, List.foldlM_append, ← hread, escapeChar]
      by_cases hescaped : c = '\\' ∨ c = '"'
      · rcases hescaped with rfl | rfl
        · simp [lexStep, unescape, List.lookup_cons]
        · simp [lexStep, unescape, List.lookup_cons]
      · obtain ⟨hbackslash, hquote⟩ := not_or.mp hescaped
        simp [lexStep, hbackslash, hquote, hc]

/-- **A quoted text without line breaks is one literal.** -/
theorem lexes_quote {s : Str} (h : ∀ c ∈ s, isNewline c = false) :
    Lexes (quote s) [.literal s] := by
  intro before
  have hopen : lexStep (before, .blank) '"' = some (before, .literal []) := by
    simp [lexStep, startToken, isWordChar, isDigit]
  rw [quote, List.cons_append, List.foldlM_cons, hopen]
  show (s.flatMap escapeChar ++ ['"']).foldlM lexStep (before, .literal []) = _
  rw [List.foldlM_append, foldlM_literal before h []]
  simp [lexStep]

/-! ## Reading what was printed -/

/-- The token that a value is printed as. -/
def Value.token : Value → Token
  | text s => .literal s
  | flag b => .word (if b then "true" else "false").toList
  | number n => .word (Nat.toDigits 10 n)

theorem isWordChar_of_isDigit {c : Char} (h : c.isDigit = true) : isWordChar c = true := by
  have hdigit : isDigit c = true := by
    simpa [isDigit, Char.isDigit, Char.le_def] using h
  simp [isWordChar, hdigit]

theorem isDigit_of_mem_toDigits {n : ℕ} {c : Char} (h : c ∈ Nat.toDigits 10 n) :
    c.isDigit = true :=
  Nat.isDigit_of_mem_toDigits (by decide) (by decide) h

theorem Value.lexes {v : Value} (h : v.Ok) {c : Char} (hc : isSymbol c = true) :
    Lexes (v.print ++ [c]) [v.token, .symbol c] := by
  cases v with
  | text s => exact (lexes_quote h).append (lexes_symbol hc)
  | flag b => cases b <;> exact lexes_word_symbol (by decide) (List.all_eq_true.mp (by decide)) hc
  | number n =>
      exact lexes_word_symbol Nat.toDigits_ne_nil
        (fun d hd => isWordChar_of_isDigit (isDigit_of_mem_toDigits hd)) hc

theorem parseValue_token (v : Value) : parseValue v.token = some v := by
  cases v with
  | text s => rfl
  | flag b => cases b <;> rfl
  | number n =>
      have hall : (Nat.toDigits 10 n).all Char.isDigit = true :=
        List.all_eq_true.mpr fun d hd => isDigit_of_mem_toDigits hd
      have hne : ∀ w : Str, w.all Char.isDigit = false → Nat.toDigits 10 n ≠ w := by
        rintro w hw rfl
        simp [hw] at hall
      rw [Value.token, parseValue, if_neg (hne _ (by decide)), if_neg (hne _ (by decide)),
        if_pos hall, Nat.ofDigitChars_ten_toDigits]

/-- The tokens of the fields with the closing brace. -/
def fieldTokens : List (Str × Value) → List Token
  | [] => [.symbol '}']
  | [(key, value)] => [.word key, .symbol '=', value.token, .symbol '}']
  | (key, value) :: field :: fields =>
      .word key :: .symbol '=' :: value.token :: .symbol ',' :: fieldTokens (field :: fields)

theorem lexes_name_symbol {name : Str} (hname : isName name = true) {c : Char}
    (hc : isSymbol c = true) : Lexes (name ++ [c]) [.word name, .symbol c] := by
  simp only [isName, Bool.and_eq_true, decide_eq_true_eq, List.all_eq_true] at hname
  exact lexes_word_symbol hname.1.1.1 hname.1.1.2 hc

theorem lexes_field {key : Str} {value : Value} (hkey : isName key = true) (hvalue : value.Ok)
    {c : Char} (hc : isSymbol c = true) :
    Lexes (printField (key, value) ++ [c]) [.word key, .symbol '=', value.token, .symbol c] := by
  have hword := lexes_name_symbol hkey (show isSymbol '=' = true by decide)
  have hfield := hword.append (Value.lexes hvalue hc)
  rwa [← List.append_assoc, List.append_assoc key, List.singleton_append] at hfield

theorem lexes_fields {fields : List (Str × Value)} (hkeys : ∀ field ∈ fields, isName field.1 = true)
    (hvalues : ∀ field ∈ fields, field.2.Ok) :
    Lexes (join ", ".toList (fields.map printField) ++ ['}']) (fieldTokens fields) := by
  induction fields using fieldTokens.induct with
  | case1 => exact lexes_symbol (by decide)
  | case2 key value =>
      have hfield := lexes_field (hkeys _ List.mem_cons_self) (hvalues _ List.mem_cons_self)
        (show isSymbol '}' = true by decide)
      simpa [join, fieldTokens] using hfield
  | case3 key value field fields ih =>
      have hfield := lexes_field (hkeys _ List.mem_cons_self) (hvalues _ List.mem_cons_self)
        (show isSymbol ',' = true by decide)
      have hrest := ih (fun f hf => hkeys f (List.mem_cons_of_mem _ hf))
        fun f hf => hvalues f (List.mem_cons_of_mem _ hf)
      have hall := (hfield.append lexes_space).append hrest
      simpa [join, fieldTokens, List.intercalate_cons_cons] using hall

theorem parseFields_fieldTokens {fields : List (Str × Value)}
    (hkeys : ∀ field ∈ fields, isName field.1 = true) (rest : List Token) :
    parseFields (fieldTokens fields ++ rest) = some (fields, rest) := by
  induction fields using fieldTokens.induct with
  | case1 => simp [fieldTokens, parseFields]
  | case2 key value =>
      have hkey := hkeys _ List.mem_cons_self
      simp [fieldTokens, parseFields, parseValue_token, hkey]
  | case3 key value field fields ih =>
      have hkey := hkeys _ List.mem_cons_self
      have hrest := ih fun f hf => hkeys f (List.mem_cons_of_mem _ hf)
      simp [fieldTokens, parseFields, parseValue_token, hkey, hrest]

/-- A name and the beginning of a table. -/
theorem lexes_callOpen {name : Str} (hname : isName name = true) :
    Lexes (name ++ "(\x7b".toList) [.word name, .symbol '(', .symbol '{'] := by
  have hword := lexes_name_symbol hname (show isSymbol '(' = true by decide)
  simpa using hword.append (lexes_symbol (show isSymbol '{' = true by decide))

theorem lex_print {c : Call} (h : c.Ok) :
    lex c.print = some ([.word c.name, .symbol '(', .symbol '{'] ++
      (fieldTokens c.fields ++ [.symbol ')'])) := by
  have hfields := (lexes_fields h.keys h.values).append
    (lexes_symbol (show isSymbol ')' = true by decide))
  have hprint : c.print = (c.name ++ "(\x7b".toList)
      ++ (join ", ".toList (c.fields.map printField) ++ ['}'] ++ [')']) := by
    simp [Call.print]
  rw [hprint, lex_of_lexes ((lexes_callOpen h.name).append hfields)]

/-- **A call is read as it was printed.** -/
theorem parse_print {c : Call} (h : c.Ok) : parse c.print = some c := by
  rw [parse, lex_print h, Option.bind_some]
  simp [parseCall, h.name, parseFields_fieldTokens h.keys]

/-- The tokens of a call of one word within another call. -/
theorem lex_nested {f g w opening closing : Str} (hf : isName f = true) (hg : isName g = true)
    (hne : w ≠ []) (hw : ∀ c ∈ w, isWordChar c = true)
    (hopening : opening = f ++ ['('] ++ (g ++ ['('])) (hclosing : closing = [')'] ++ [')']) :
    lex (opening ++ w ++ closing) = some [.word f, .symbol '(', .word g, .symbol '(', .word w,
      .symbol ')', .symbol ')'] := by
  have hopen : isSymbol '(' = true := by decide
  have hclose : isSymbol ')' = true := by decide
  have hcall := ((lexes_name_symbol hf hopen).append (lexes_name_symbol hg hopen)).append
    ((lexes_word_symbol hne hw hclose).append (lexes_symbol hclose))
  have htext : opening ++ w ++ closing
      = f ++ ['('] ++ (g ++ ['(']) ++ (w ++ [')'] ++ [')']) := by
    simp only [hopening, hclosing, List.append_assoc]
  rw [htext, lex_of_lexes hcall]
  rfl

/-! ## What cannot be read -/

/-- The scanner stops within the text, whatever stands before it. -/
def Unreadable (s : Str) : Prop := ∀ before, s.foldlM lexStep (before, .blank) = none

theorem Unreadable.append {s : Str} (h : Unreadable s) (t : Str) : Unreadable (s ++ t) := by
  intro before
  rw [List.foldlM_append, h before]
  rfl

theorem Lexes.unreadable {s t : Str} {ts : List Token} (hs : Lexes s ts) (ht : Unreadable t) :
    Unreadable (s ++ t) := by
  intro before
  rw [List.foldlM_append, hs before]
  exact ht _

/-- A line break within a literal stops the scanner. -/
theorem foldlM_literal_newline (tokens : List Token) {s : Str}
    (h : ∃ c ∈ s, isNewline c = true) :
    ∀ read, (s.flatMap escapeChar).foldlM lexStep (tokens, .literal read) = none := by
  induction s with
  | nil => simp at h
  | cons c s ih =>
      intro read
      rw [List.flatMap_cons, List.foldlM_append]
      by_cases hc : isNewline c = true
      · have hplain : c ≠ '"' ∧ c ≠ '\\' := by
          constructor
          · rintro rfl
            revert hc
            decide
          · rintro rfl
            revert hc
            decide
        simp [escapeChar, hplain, lexStep, hc]
      · have hrest : ∃ d ∈ s, isNewline d = true := by
          obtain ⟨d, hd, hnewline⟩ := h
          rcases List.mem_cons.mp hd with rfl | hd
          · exact absurd hnewline hc
          · exact ⟨d, hd, hnewline⟩
        have hread := foldlM_literal tokens (s := [c]) (by simpa using hc) read
        rw [List.flatMap_cons, List.flatMap_nil, List.append_nil] at hread
        rw [hread]
        exact ih hrest _

theorem unreadable_quote {s : Str} (h : ∃ c ∈ s, isNewline c = true) : Unreadable (quote s) := by
  intro before
  have hopen : lexStep (before, .blank) '"' = some (before, .literal []) := by
    simp [lexStep, startToken, isWordChar, isDigit]
  rw [quote, List.cons_append, List.foldlM_cons, hopen]
  show (s.flatMap escapeChar ++ ['"']).foldlM lexStep (before, .literal []) = _
  rw [List.foldlM_append, foldlM_literal_newline before h []]
  rfl

/-- Of the values only a text with a line break cannot be printed. -/
theorem unreadable_field {key : Str} {value : Value} (hkey : isName key = true)
    (hvalue : ¬value.Ok) : Unreadable (printField (key, value)) := by
  have hword := lexes_name_symbol hkey (show isSymbol '=' = true by decide)
  cases value with
  | text s =>
      have hnewline : ∃ c ∈ s, isNewline c = true := by
        simpa [Value.Ok] using hvalue
      have hfield := hword.unreadable (unreadable_quote hnewline)
      rwa [List.append_assoc, List.singleton_append] at hfield
  | flag b => exact absurd trivial hvalue
  | number n => exact absurd trivial hvalue

theorem unreadable_fields {fields : List (Str × Value)}
    (hkeys : ∀ field ∈ fields, isName field.1 = true) (hvalues : ∃ field ∈ fields, ¬field.2.Ok) :
    Unreadable (join ", ".toList (fields.map printField)) := by
  induction fields using fieldTokens.induct with
  | case1 => simp at hvalues
  | case2 key value =>
      have hvalue : ¬value.Ok := by simpa using hvalues
      simpa [join] using unreadable_field (hkeys _ List.mem_cons_self) hvalue
  | case3 key value field fields ih =>
      have hkey := hkeys _ List.mem_cons_self
      rw [List.map_cons, List.map_cons, join, List.intercalate_cons_cons, ← join, List.append_assoc]
      by_cases hvalue : value.Ok
      · have hrest : ∃ f ∈ field :: fields, ¬f.2.Ok := by
          obtain ⟨f, hf, hbad⟩ := hvalues
          rcases List.mem_cons.mp hf with rfl | hf
          · exact absurd hvalue hbad
          · exact ⟨f, hf, hbad⟩
        have hfield := lexes_field hkey hvalue (show isSymbol ',' = true by decide)
        have hall := (hfield.append lexes_space).unreadable
          (ih (fun f hf => hkeys f (List.mem_cons_of_mem _ hf)) hrest)
        simpa using hall
      · exact (unreadable_field hkey hvalue).append _

/-- A call with a line break in one of its texts. -/
theorem lex_print_eq_none {c : Call} (hname : isName c.name = true)
    (hkeys : ∀ field ∈ c.fields, isName field.1 = true)
    (hvalues : ∃ field ∈ c.fields, ¬field.2.Ok) :
    lex c.print = none := by
  have hunreadable : Unreadable c.print := by
    rw [Call.print]
    exact ((lexes_callOpen hname).unreadable (unreadable_fields hkeys hvalues)).append _
  rw [lex, hunreadable []]
  rfl

/-! ## Line breaks -/

theorem isNewline_of_isWordChar {c : Char} (h : isWordChar c = true) : isNewline c = false := by
  rw [Bool.eq_false_iff]
  intro hnewline
  simp only [isNewline, Bool.or_eq_true, decide_eq_true_eq] at hnewline
  rcases hnewline with rfl | rfl
  · revert h
    decide
  · revert h
    decide

theorem mem_escapeChar {c d : Char} (h : d ∈ escapeChar c) : d = '\\' ∨ d = c := by
  unfold escapeChar at h
  split_ifs at h
  · simpa using h
  · exact Or.inr (List.mem_singleton.mp h)

theorem self_mem_escapeChar (c : Char) : c ∈ escapeChar c := by
  unfold escapeChar
  split_ifs
  · simp
  · simp

theorem isNewline_of_all {s : Str} (h : s.all (fun c => !isNewline c) = true) :
    ∀ c ∈ s, isNewline c = false := by simpa using h

/-- A value is printed in one line exactly if it can be read again. -/
theorem Value.print_oneLine (v : Value) : (∀ c ∈ v.print, isNewline c = false) ↔ v.Ok := by
  cases v with
  | text s =>
      constructor
      · intro h c hc
        refine h c (List.mem_cons_of_mem _ (List.mem_append_left _ ?_))
        exact List.mem_flatMap.mpr ⟨c, hc, self_mem_escapeChar c⟩
      · intro h c hc
        rcases List.mem_cons.mp hc with rfl | hc
        · decide
        · rcases List.mem_append.mp hc with hc | hc
          · obtain ⟨d, hd, hc⟩ := List.mem_flatMap.mp hc
            rcases mem_escapeChar hc with rfl | rfl
            · decide
            · exact h c hd
          · rw [List.mem_singleton.mp hc]
            decide
  | flag b => cases b <;> simp [Value.print, Value.Ok, isNewline]
  | number n =>
      refine iff_of_true (fun c hc => ?_) trivial
      exact isNewline_of_isWordChar (isWordChar_of_isDigit (isDigit_of_mem_toDigits hc))

theorem isNewline_of_isName {w : Str} (h : isName w = true) {c : Char} (hc : c ∈ w) :
    isNewline c = false := by
  simp only [isName, Bool.and_eq_true, List.all_eq_true] at h
  exact isNewline_of_isWordChar (h.1.1.2 c hc)

/-- **A call is printed in one line exactly if its values can be read again.** -/
theorem Call.print_oneLine {call : Call} (hname : isName call.name = true)
    (hkeys : ∀ field ∈ call.fields, isName field.1 = true) :
    (∀ c ∈ call.print, isNewline c = false) ↔ ∀ field ∈ call.fields, field.2.Ok := by
  constructor
  · intro h field hfield
    refine field.2.print_oneLine.mp fun c hc => h c ?_
    have hprinted : c ∈ printField field :=
      List.mem_append_right _ (List.mem_cons_of_mem _ hc)
    have hjoin : c ∈ join ", ".toList (call.fields.map printField) :=
      (infix_join (List.mem_map_of_mem hfield)).subset hprinted
    exact List.mem_append_left _ (List.mem_append_right _ hjoin)
  · intro h c hc
    have hopen : ∀ c ∈ "(\x7b".toList, isNewline c = false := isNewline_of_all (by decide)
    have hsep : ∀ c ∈ ", ".toList, isNewline c = false := isNewline_of_all (by decide)
    have hclose : ∀ c ∈ "\x7d)".toList, isNewline c = false := isNewline_of_all (by decide)
    simp only [Call.print, List.mem_append] at hc
    rcases hc with ((hc | hc) | hc) | hc
    · exact isNewline_of_isName hname hc
    · exact hopen c hc
    · rcases mem_join hc with hc | ⟨w, hw, hc⟩
      · exact hsep c hc
      · obtain ⟨field, hfield, rfl⟩ := List.mem_map.mp hw
        rcases List.mem_append.mp hc with hc | hc
        · exact isNewline_of_isName (hkeys field hfield) hc
        · rcases List.mem_cons.mp hc with rfl | hc
          · decide
          · exact field.2.print_oneLine.mpr (h field hfield) c hc
    · exact hclose c hc

end Lua
