import AlderpointDNS.Lib.Dict
import AlderpointDNS.Lib.Positions
import AlderpointDNS.Numbers
import AlderpointDNS.Upstream.NewServer

/-!
# Resolvers on the console of dnsdist

`_console_reconcile` replaces the pool of the resolvers in the running dnsdist: a script removes
each member by its index in a listing, adds a server for each resolver, and the pool is listed
again.

* `livePoolSnapshot`, `consoleReconcile` — the two functions, over what the console answers;
* `ListedInFull`, `runStatements` — what `showServers()` lists, and what the statements do;
* `statements_located` — the script removes the members from the last to the first;
* **`reconcile_script`** — the whole script leaves the other servers and one server for each
  resolver, and where it stops before with other addresses in the pool the function returns
  `False`.
-/

namespace AlderpointDNS.Upstream

open Text Positions

/-! ## The functions -/

/-- The exit code and the output of `dnsdist -e`, unless it cannot be run. -/
abbrev ConsoleReply := Option (ℤ × Str)

/-- The reply to the last of some commands, which were given one after another. -/
abbrev Console := List Str → ConsoleReply

def showServers : Str := "showServers()".toList

/-- The pool of the resolvers. -/
def upstreamPool : Str := "alderpointdns_upstreams".toList

/-- An entry of `_live_upstream_pool_snapshot`. -/
structure PoolEntry where
  index : Str
  address : Str

section Source

variable (isDigit : Char → Bool)

/-- `str.isdigit`, with a table of the digits that are not ASCII. -/
def isDigits (s : Str) : Bool :=
  s ≠ [] && s.all fun c => if c.toNat < 128 then c.isDigit else isDigit c

/-- The line has columns and begins with an index. -/
def isServerLine (line : Str) : Bool :=
  5 ≤ (words line).length && isDigits isDigit ((words line).headD [])

/-- A line of the listing. -/
def poolEntry (line : Str) : Option PoolEntry :=
  let parts := words line
  if !isServerLine isDigit line then none
  else if parts.getLast? ≠ some upstreamPool then none
  else some ⟨parts.headD [], parts.getD 2 []⟩

/-- `_live_upstream_pool_snapshot`. -/
def livePoolSnapshot : ConsoleReply → Option (List PoolEntry)
  | none => none
  | some (code, stdout) =>
      if code ≠ 0 then none else some ((splitlines stdout).filterMap (poolEntry isDigit))

/-- `sorted(snapshot, key=lambda e: -int(e["index"]))`. -/
def removalOrder (snapshot : List PoolEntry) : Option (List PoolEntry) :=
  (snapshot.mapM fun e => (intOf e.index).map fun n => (n, e)).map fun keyed =>
    (sortBy (fun k => -k.1) keyed).map (·.2)

/-- `rmServer(getServer(…))`. -/
def removeStatement (index : Str) : Str :=
  "rmServer(getServer(".toList ++ index ++ "))".toList

/-- The statements of the script; `none` when an index is not a number for `int`. -/
def reconcileStatements (rows : List ForwarderRow) (snapshot : List PoolEntry) :
    Option (List Str) :=
  (removalOrder snapshot).map fun order =>
    order.map (fun e => removeStatement e.index) ++ rows.map newServerStatement

/-- `_console_reconcile`. -/
def consoleReconcile (console : Console) (rows : List ForwarderRow) : Option Bool :=
  match livePoolSnapshot isDigit (console [showServers]) with
  | none | some [] => some false
  | some snapshot =>
      (reconcileStatements rows snapshot).map fun statements =>
        let script := join ['\n'] statements
        match console [showServers, script] with
        | none => false
        | some (code, _) =>
            if code ≠ 0 then false
            else match livePoolSnapshot isDigit (console [showServers, script, showServers]) with
              | none => false
              | some after =>
                  sorted (after.map (·.address)) = sorted (rows.map addressForDnsdist)

end Source

/-! ## The servers of dnsdist -/

/-- A server: the options that `newServer` was called with. -/
abbrev Server := List (Str × Lua.Value)

/-- An option that is a text. -/
def Server.option (s : Server) (key : Str) : Str :=
  match List.lookup key s with
  | some (.text t) => t
  | _ => []

def Server.address (s : Server) : Str := Server.option s "address".toList

def Server.inPool (s : Server) : Bool := Server.option s "pool".toList = upstreamPool

/-- The server of a resolver. -/
def resolverServer (row : ForwarderRow) : Server := (newServerCall row).fields

/-- A server and its index in a line of `showServers()`: the index is the first column and the pool
the last one, and for a member of the pool the address is the third. -/
structure IsLineOf (entry : Server × ℕ) (line : Str) : Prop where
  index : (words line).head? = some (Nat.toDigits 10 entry.2)
  pool : (words line).getLast? = some upstreamPool ↔ Server.inPool entry.1 = true
  columns : Server.inPool entry.1 = true → 5 ≤ (words line).length
  address : Server.inPool entry.1 = true → (words line)[2]? = some (Server.address entry.1)

instance (entry : Server × ℕ) (line : Str) : Decidable (IsLineOf entry line) :=
  decidable_of_iff ((words line).head? = some (Nat.toDigits 10 entry.2) ∧
      ((words line).getLast? = some upstreamPool ↔ Server.inPool entry.1 = true) ∧
      (Server.inPool entry.1 = true → 5 ≤ (words line).length) ∧
      (Server.inPool entry.1 = true → (words line)[2]? = some (Server.address entry.1)))
    ⟨fun ⟨hindex, hpool, hcolumns, haddress⟩ => ⟨hindex, hpool, hcolumns, haddress⟩,
      fun h => ⟨h.index, h.pool, h.columns, h.address⟩⟩

/-- `showServers()` lists all servers with consecutive indices, among lines of other forms. -/
def ListedInFull (isDigit : Char → Bool) (servers : List Server) (stdout : Str) : Prop :=
  ∃ header lines footer, splitlines stdout = header ++ lines ++ footer ∧
    (∀ line ∈ header ++ footer, isServerLine isDigit line = false) ∧
    List.Forall₂ IsLineOf servers.zipIdx lines

/-- What a statement does. -/
inductive Statement where
  | rmServer (index : ℕ)
  | newServer (options : Server)

/-- `rmServer(getServer(…))` of an index. -/
def readRemoval : List Lua.Token → Option ℕ
  | [.word remove, .symbol paren, .word get, .symbol paren', .word index, .symbol close,
      .symbol close'] =>
      if remove = "rmServer".toList && get = "getServer".toList && paren = '(' && paren' = '('
          && close = ')' && close' = ')' && index.all Char.isDigit then
        some (Nat.ofDigitChars 10 index 0)
      else none
  | _ => none

def readStatement (s : Str) : Option Statement :=
  match Lua.parse s with
  | some call => if call.name = "newServer".toList then some (.newServer call.fields) else none
  | none => ((Lua.lex s).bind readRemoval).map .rmServer

/-- `rmServer` removes one entry and shifts the later ones, and `newServer` appends. -/
def runStatement (servers : List Server) (s : Str) : Option (List Server) :=
  (readStatement s).bind fun
    | .rmServer index => removeAt servers index
    | .newServer options => some (servers ++ [options])

/-- The servers after all of these statements. -/
def runStatements (servers : List Server) (statements : List Str) : Option (List Server) :=
  statements.foldlM runStatement servers

example : (runStatements [[("pool".toList, .text "a".toList)], [("pool".toList, .text [])]]
    (["rmServer(getServer(1))", "newServer(\x7bpool=\"b\"\x7d)", "rmServer(getServer(0))"].map
      String.toList)) = some [[("pool".toList, .text "b".toList)]] := by
  decide +kernel

/-! ## The listing -/

/-- The entry of a server and its index. -/
def entryOf (entry : Server × ℕ) : PoolEntry :=
  ⟨Nat.toDigits 10 entry.2, Server.address entry.1⟩

section Listing

variable {isDigit : Char → Bool}

theorem isDigits_toDigits (n : ℕ) : isDigits isDigit (Nat.toDigits 10 n) = true := by
  have hall : ∀ c ∈ Nat.toDigits 10 n,
      (if c.toNat < 128 then c.isDigit else isDigit c) = true := by
    intro c hc
    have hdigit := Lua.isDigit_of_mem_toDigits hc
    have hascii : c.toNat < 128 := by
      simp only [Char.isDigit, ge_iff_le, Bool.and_eq_true, decide_eq_true_eq,
        UInt32.le_iff_toNat_le] at hdigit
      exact Nat.lt_of_le_of_lt hdigit.2 (by decide)
    rw [if_pos hascii, hdigit]
  simp only [isDigits, Bool.and_eq_true, decide_eq_true_eq, List.all_eq_true]
  exact ⟨Nat.toDigits_ne_nil, hall⟩

/-- A line gives an entry for a member of the pool. -/
theorem poolEntry_of_isLineOf (isDigit : Char → Bool) {entry : Server × ℕ} {line : Str}
    (h : IsLineOf entry line) :
    poolEntry isDigit line
      = if Server.inPool entry.1 = true then some (entryOf entry) else none := by
  have hhead : (words line).headD [] = Nat.toDigits 10 entry.2 := by
    rw [List.headD_eq_head?_getD, h.index, Option.getD_some]
  unfold poolEntry
  dsimp only
  by_cases hpool : Server.inPool entry.1 = true
  · have hline : isServerLine isDigit line = true := by
      rw [isServerLine, hhead, isDigits_toDigits, Bool.and_true]
      exact decide_eq_true (h.columns hpool)
    have haddress : (words line).getD 2 [] = Server.address entry.1 := by
      rw [List.getD_eq_getElem?_getD, h.address hpool, Option.getD_some]
    rw [if_neg (by simp [hline]), if_neg (by simp [h.pool.mpr hpool]), if_pos hpool, hhead,
      haddress]
    rfl
  · have hlast : (words line).getLast? ≠ some upstreamPool := fun h' => hpool (h.pool.mp h')
    rw [if_neg hpool, if_pos hlast, ite_self]

theorem filterMap_lines {entries : List (Server × ℕ)} {lines : List Str}
    (h : List.Forall₂ IsLineOf entries lines) :
    lines.filterMap (poolEntry isDigit)
      = (entries.filter fun entry => Server.inPool entry.1).map entryOf := by
  induction h with
  | nil => rfl
  | @cons entry line entries lines hline _ ih =>
      have hentry := poolEntry_of_isLineOf isDigit hline
      by_cases hpool : Server.inPool entry.1 = true
      · rw [if_pos hpool] at hentry
        simp only [List.filterMap_cons, hentry, List.filter_cons, hpool, if_true, List.map_cons, ih]
      · rw [if_neg hpool] at hentry
        simp only [List.filterMap_cons, hentry, List.filter_cons, hpool, Bool.false_eq_true,
          if_false, ih]

theorem filterMap_frame {lines : List Str}
    (h : ∀ line ∈ lines, isServerLine isDigit line = false) :
    lines.filterMap (poolEntry isDigit) = [] := by
  refine List.filterMap_eq_nil_iff.mpr fun line hline => ?_
  rw [poolEntry, h line hline]
  rfl

/-- **The snapshot of a full listing** is the members of the pool with their indices. -/
theorem livePoolSnapshot_listed {servers : List Server} {stdout : Str}
    (h : ListedInFull isDigit servers stdout) :
    livePoolSnapshot isDigit (some (0, stdout))
      = some ((located Server.inPool servers).map entryOf) := by
  obtain ⟨header, lines, footer, hlines, hframe, hall⟩ := h
  rw [List.forall_mem_append] at hframe
  simp only [livePoolSnapshot, ne_eq, not_true_eq_false, if_false, hlines, List.filterMap_append,
    filterMap_frame hframe.1, filterMap_frame hframe.2, filterMap_lines hall, List.nil_append,
    List.append_nil]
  rfl

theorem livePoolSnapshot_eq_some {reply : ConsoleReply} {snapshot : List PoolEntry}
    (h : livePoolSnapshot isDigit reply = some snapshot) :
    ∃ stdout, reply = some (0, stdout) ∧
      livePoolSnapshot isDigit (some (0, stdout)) = some snapshot := by
  cases reply with
  | none => cases h
  | some reply =>
      obtain ⟨code, stdout⟩ := reply
      by_cases hcode : code = 0
      · subst hcode
        exact ⟨stdout, rfl, h⟩
      · rw [livePoolSnapshot, if_pos hcode] at h
        cases h

/-! ## The script -/

/-- The entries with the numbers of their indices. -/
theorem mapM_indices {entries : List (Server × ℕ)} {keyed : List (ℤ × PoolEntry)}
    (h : (entries.map entryOf).mapM (fun e => (intOf e.index).map fun n => (n, e)) = some keyed) :
    keyed = entries.map fun entry => ((entry.2 : ℤ), entryOf entry) := by
  induction entries generalizing keyed with
  | nil => exact (Option.some.inj h).symm
  | cons entry entries ih =>
      simp only [List.map_cons, List.mapM_cons, Option.bind_eq_bind, Option.bind_eq_some_iff,
        Option.pure_def, Option.some.injEq, Option.map_eq_some_iff] at h
      obtain ⟨_, ⟨n, hn, rfl⟩, keyed, hkeyed, rfl⟩ := h
      rw [entryOf, intOf_toDigits] at hn
      split_ifs at hn
      rw [List.map_cons, ← ih hkeyed, ← Option.some.inj hn]

/-- A position has one entry. -/
theorem eq_of_position {p : Server → Bool} {servers : List Server} {x y : Server × ℕ}
    (hx : x ∈ located p servers) (hy : y ∈ located p servers) (h : x.2 = y.2) : x = y := by
  have hx := List.mem_zipIdx_iff_getElem?.mp (List.mem_of_mem_filter hx)
  have hy := List.mem_zipIdx_iff_getElem?.mp (List.mem_of_mem_filter hy)
  rw [h, hy, Option.some_inj] at hx
  exact Prod.ext hx.symm h

/-- **The members are sorted from the last to the first.** -/
theorem removalOrder_located {servers : List Server} {order : List PoolEntry}
    (h : removalOrder ((located Server.inPool servers).map entryOf) = some order) :
    order = ((located Server.inPool servers).map entryOf).reverse := by
  rw [removalOrder, Option.map_eq_some_iff] at h
  obtain ⟨keyed, hkeyed, rfl⟩ := h
  have hkeys := mapM_indices hkeyed
  have hpairwise : keyed.reverse.Pairwise fun a b => -a.1 ≤ -b.1 := by
    have hpositions := positions_pairwise Server.inPool servers
    rw [positions, List.pairwise_map] at hpositions
    rw [hkeys, List.pairwise_reverse, List.pairwise_map]
    exact hpositions.imp fun hlt => by omega
  have hsorted : (sortBy (fun k => -k.1) keyed).map (·.2) = keyed.reverse.map (·.2) := by
    refine map_eq_of_sorted _ ((sortBy_perm _ keyed).trans keyed.reverse_perm.symm)
      (sortBy_pairwise (fun k => -k.1) keyed) hpairwise ?_
    intro a ha b hb hab
    rw [(sortBy_perm _ keyed).mem_iff, hkeys] at ha hb
    obtain ⟨x, hx, rfl⟩ := List.mem_map.mp ha
    obtain ⟨y, hy, rfl⟩ := List.mem_map.mp hb
    have hposition : x.2 = y.2 := by
      simpa using hab
    rw [eq_of_position hx hy hposition]
  rw [hsorted, hkeys, List.map_reverse, List.map_map]
  rfl

/-- **The script** removes the members from the last to the first. -/
theorem statements_located {rows : List ForwarderRow} {servers : List Server}
    {statements : List Str}
    (h : reconcileStatements rows ((located Server.inPool servers).map entryOf)
      = some statements) :
    statements = (positions Server.inPool servers).reverse.map
        (fun i => removeStatement (Nat.toDigits 10 i)) ++ rows.map newServerStatement := by
  rw [reconcileStatements, Option.map_eq_some_iff] at h
  obtain ⟨order, horder, rfl⟩ := h
  rw [removalOrder_located horder, positions, ← List.map_reverse, ← List.map_reverse,
    List.map_map, List.map_map]
  rfl

end Listing

/-! ## The statements -/

/-- The tokens of a removal. -/
theorem lex_removeStatement (i : ℕ) : Lua.lex (removeStatement (Nat.toDigits 10 i))
    = some [.word "rmServer".toList, .symbol '(', .word "getServer".toList, .symbol '(',
        .word (Nat.toDigits 10 i), .symbol ')', .symbol ')'] :=
  Lua.lex_nested (by decide +kernel) (by decide +kernel) Nat.toDigits_ne_nil
    (fun _ hc => Lua.isWordChar_of_isDigit (Lua.isDigit_of_mem_toDigits hc)) (by decide +kernel)
    (by decide +kernel)

theorem runStatement_remove (servers : List Server) (i : ℕ) :
    runStatement servers (removeStatement (Nat.toDigits 10 i)) = removeAt servers i := by
  have hdigits : (Nat.toDigits 10 i).all Char.isDigit = true :=
    List.all_eq_true.mpr fun c hc => Lua.isDigit_of_mem_toDigits hc
  have hparse : Lua.parse (removeStatement (Nat.toDigits 10 i)) = none := by
    rw [Lua.parse, lex_removeStatement]
    rfl
  have hread : readStatement (removeStatement (Nat.toDigits 10 i)) = some (.rmServer i) := by
    simp only [readStatement, hparse, lex_removeStatement, Option.bind_some, readRemoval, hdigits,
      decide_true, Bool.and_true, if_true, Nat.ofDigitChars_ten_toDigits, Option.map_some]
  rw [runStatement, hread, Option.bind_some]

/-- **The statement of a resolver** is executed as its call, exactly if its texts have no line
breaks. -/
theorem runStatement_newServer (row : ForwarderRow) (servers servers' : List Server) :
    runStatement servers (newServerStatement row) = some servers' ↔
      PlainTexts row ∧ servers' = servers ++ [resolverServer row] := by
  have hname : Lua.isName (newServerCall row).name = true := by
    show Lua.isName "newServer".toList = true
    decide +kernel
  have hkeys := newServerCall_ok row
  rw [newServerStatement_eq, ← values_ok_iff]
  by_cases hvalues : ∀ field ∈ (newServerCall row).fields, field.2.Ok
  · have hread :
        readStatement (newServerCall row).print = some (.newServer (resolverServer row)) := by
      rw [readStatement, Lua.parse_print ⟨hname, hkeys, hvalues⟩]
      exact if_pos rfl
    rw [runStatement, hread, Option.bind_some, Option.some_inj, iff_true_intro hvalues, true_and]
    exact eq_comm
  · have hlex := Lua.lex_print_eq_none hname hkeys
      (by simpa only [not_forall, exists_prop] using hvalues)
    have hread : readStatement (newServerCall row).print = none := by
      simp only [readStatement, Lua.parse, hlex, Option.bind_none, Option.map_none]
    rw [runStatement, hread, Option.bind_none]
    exact iff_of_false (Option.some_ne_none servers').symm fun h => hvalues h.1

theorem runStatements_newServers (rows : List ForwarderRow) (servers servers' : List Server) :
    runStatements servers (rows.map newServerStatement) = some servers' ↔
      (∀ row ∈ rows, PlainTexts row) ∧ servers' = servers ++ rows.map resolverServer := by
  induction rows generalizing servers with
  | nil =>
      rw [List.map_nil, List.map_nil, List.append_nil]
      simp [runStatements, eq_comm]
  | cons row rows ih =>
      rw [List.map_cons, runStatements, List.foldlM_cons, Option.bind_eq_bind,
        Option.bind_eq_some_iff, List.forall_mem_cons, List.map_cons]
      constructor
      · rintro ⟨middle, hmiddle, hrest⟩
        obtain ⟨hrow, rfl⟩ := (runStatement_newServer row servers middle).mp hmiddle
        obtain ⟨hrows, rfl⟩ := (ih _).mp hrest
        exact ⟨⟨hrow, hrows⟩, by simp⟩
      · rintro ⟨⟨hrow, hrows⟩, rfl⟩
        exact ⟨_, (runStatement_newServer row servers _).mpr ⟨hrow, rfl⟩,
          (ih _).mpr ⟨hrows, by simp⟩⟩

theorem runStatements_removals (servers : List Server) (indices : List ℕ) :
    runStatements servers (indices.map fun i => removeStatement (Nat.toDigits 10 i))
      = indices.foldlM removeAt servers := by
  rw [runStatements, List.foldlM_map]
  simp only [runStatement_remove]

theorem runStatements_append (servers : List Server) (first rest : List Str) :
    runStatements servers (first ++ rest)
      = (runStatements servers first).bind fun middle => runStatements middle rest :=
  List.foldlM_append

/-! ## The pool -/

/-- The server of a resolver is in the pool under the address of the resolver. -/
theorem resolverServer_spec (row : ForwarderRow) :
    Server.inPool (resolverServer row) = true ∧
      Server.address (resolverServer row) = addressForDnsdist row :=
  ⟨rfl, rfl⟩

theorem filter_resolverServers (rows : List ForwarderRow) :
    (rows.map resolverServer).filter Server.inPool = rows.map resolverServer ∧
      (rows.map resolverServer).filter (fun s => !Server.inPool s) = [] := by
  have hmembers : ∀ s ∈ rows.map resolverServer, Server.inPool s = true :=
    List.forall_mem_map.mpr fun row _ => (resolverServer_spec row).1
  constructor
  · exact List.filter_eq_self.mpr hmembers
  · refine List.filter_eq_nil_iff.mpr fun s hs => ?_
    rw [hmembers s hs]
    decide

section Script

variable {isDigit : Char → Bool} {rows : List ForwarderRow} {servers servers' : List Server}
  {statements : List Str}

/-- **The whole script** replaces the members by the servers of the resolvers. -/
theorem runStatements_script
    (h : reconcileStatements rows ((located Server.inPool servers).map entryOf)
      = some statements) :
    runStatements servers statements = some servers' ↔ (∀ row ∈ rows, PlainTexts row) ∧
      servers' = servers.filter (fun s => !Server.inPool s) ++ rows.map resolverServer := by
  rw [statements_located h, runStatements_append, runStatements_removals, remove_positions,
    Option.bind_some, runStatements_newServers]

/-- **A part of the script** leaves the servers outside of the pool. -/
theorem runStatements_part
    (h : reconcileStatements rows ((located Server.inPool servers).map entryOf)
      = some statements) {k : ℕ}
    (hrun : runStatements servers (statements.take k) = some servers') :
    servers'.filter (fun s => !Server.inPool s) = servers.filter (fun s => !Server.inPool s) := by
  rw [statements_located h, List.take_append, ← List.map_take, ← List.map_take,
    runStatements_append, runStatements_removals] at hrun
  obtain ⟨middle, hremovals, hothers, -⟩ := take_positions Server.inPool servers k
  rw [hremovals, Option.bind_some, runStatements_newServers] at hrun
  rw [hrun.2, List.filter_append, (filter_resolverServers _).2, List.append_nil, hothers]

/-- The addresses of a full listing. -/
theorem addresses_located (servers : List Server) :
    ((located Server.inPool servers).map entryOf).map (·.address)
      = (servers.filter Server.inPool).map Server.address := by
  rw [← map_fst_located, List.map_map, List.map_map]
  rfl

variable {console : Console} {stdout : Str}

/-- The function compares the addresses of the second listing. -/
theorem consoleReconcile_other
    (h : (livePoolSnapshot isDigit (console [showServers])).bind (reconcileStatements rows)
      = some statements)
    (hafter : ∀ after, livePoolSnapshot isDigit
        (console [showServers, join ['\n'] statements, showServers]) = some after →
      ¬(after.map (·.address)).Perm (rows.map addressForDnsdist)) :
    consoleReconcile isDigit console rows = some false := by
  obtain ⟨snapshot, hsnapshot, hstatements⟩ := Option.bind_eq_some_iff.mp h
  rw [consoleReconcile, hsnapshot]
  cases snapshot with
  | nil => rfl
  | cons entry snapshot =>
      dsimp only
      rw [hstatements, Option.map_some, Option.some_inj]
      cases console [showServers, join ['\n'] statements] with
      | none => rfl
      | some reply =>
          dsimp only
          split_ifs
          · rfl
          · cases hlisting : livePoolSnapshot isDigit
                (console [showServers, join ['\n'] statements, showServers]) with
            | none => rfl
            | some after =>
                refine decide_eq_false fun hsorted => hafter after hlisting ?_
                exact sorted_eq_iff.mp hsorted

/-- **Reconciliation over the console.** Where all servers are listed in full, the whole script
leaves the servers outside of the pool in their order and one server for each resolver in the
pool; each part of it leaves the servers outside of the pool; and where the pool is left with other
addresses the function returns `False`, whatever the console replied to the script. -/
theorem reconcile_script (hreply : console [showServers] = some (0, stdout))
    (hlisted : ListedInFull isDigit servers stdout)
    (hscript : (livePoolSnapshot isDigit (console [showServers])).bind (reconcileStatements rows)
      = some statements) :
    (∀ servers', runStatements servers statements = some servers' →
      servers'.filter (fun s => !Server.inPool s) = servers.filter (fun s => !Server.inPool s) ∧
        servers'.filter Server.inPool = rows.map resolverServer) ∧
    ∀ k servers', runStatements servers (statements.take k) = some servers' →
      servers'.filter (fun s => !Server.inPool s) = servers.filter (fun s => !Server.inPool s) ∧
        (¬((servers'.filter Server.inPool).map Server.address).Perm (rows.map addressForDnsdist) →
          (∀ stdout', console [showServers, join ['\n'] statements, showServers]
            = some (0, stdout') → ListedInFull isDigit servers' stdout') →
          consoleReconcile isDigit console rows = some false) := by
  have hstatements := hscript
  rw [hreply, livePoolSnapshot_listed hlisted, Option.bind_some] at hstatements
  constructor
  · intro servers' hrun
    obtain ⟨-, rfl⟩ := (runStatements_script hstatements).mp hrun
    obtain ⟨hmembers, hothers⟩ := filter_resolverServers rows
    rw [List.filter_append, List.filter_append, hmembers, hothers, List.append_nil,
      List.filter_filter, List.filter_filter]
    simp
  · intro k servers' hrun
    refine ⟨runStatements_part hstatements hrun, fun hother hlisted' => ?_⟩
    refine consoleReconcile_other hscript fun after hafter hperm => hother ?_
    obtain ⟨stdout', hreply', hafter⟩ := livePoolSnapshot_eq_some hafter
    rw [livePoolSnapshot_listed (hlisted' stdout' hreply'), Option.some_inj] at hafter
    rwa [← hafter, addresses_located] at hperm

end Script

/-- Two members of the pool around another server. -/
def liveServers : List Server :=
  [[("address".toList, .text "1.1.1.1:53".toList), ("pool".toList, .text upstreamPool)],
    [("address".toList, .text "127.0.0.1:5300".toList)],
    [("address".toList, .text "8.8.8.8:53".toList), ("pool".toList, .text upstreamPool)]]

def liveLines : List Str :=
  ["0 upstream-1-A 1.1.1.1:53 up alderpointdns_upstreams".toList,
    "1 local 127.0.0.1:5300 up".toList,
    "2 upstream-2-B 8.8.8.8:53 up alderpointdns_upstreams".toList]

def headLine : Str := "# Name Address State Pools".toList

def footLine : Str := "All 0.0".toList

/-- The output of `showServers()`. -/
def listing (lines : List Str) : Str := join ['\n'] ([headLine] ++ lines ++ [footLine])

/-- A console that stops after the first removal and reports no error. -/
def stoppedConsole : Console
  | [_] => some (0, listing liveLines)
  | [_, _] => some (0, [])
  | _ => some (0, listing (liveLines.take 2))

theorem liveLines_spec : List.Forall₂ IsLineOf liveServers.zipIdx liveLines := by
  refine .cons ?_ (.cons ?_ (.cons ?_ .nil))
  all_goals decide +kernel

/-- The statements for one resolver in place of both members. -/
def liveScript : List Str :=
  ["rmServer(getServer(2))".toList, "rmServer(getServer(0))".toList, newServerStatement quadNine]

theorem reconcile_script_stopped :
    (∃ servers', runStatements liveServers liveScript = some servers' ∧
      servers'.filter (fun s => !Server.inPool s) = liveServers.filter (fun s => !Server.inPool s) ∧
        servers'.filter Server.inPool = [resolverServer quadNine]) ∧
    consoleReconcile (fun _ => false) stoppedConsole [quadNine] = some false := by
  have hframe : ∀ line ∈ [headLine] ++ [footLine], isServerLine (fun _ => false) line = false := by
    decide +kernel
  have hlisted : ListedInFull (fun _ => false) liveServers (listing liveLines) :=
    ⟨[headLine], liveLines, [footLine], by decide +kernel, hframe, liveLines_spec⟩
  have hlisted' : ListedInFull (fun _ => false) (liveServers.take 2) (listing (liveLines.take 2)) :=
    ⟨[headLine], liveLines.take 2, [footLine], by decide +kernel, hframe,
      List.forall₂_take 2 liveLines_spec⟩
  have hscript : (livePoolSnapshot (fun _ => false) (stoppedConsole [showServers])).bind
      (reconcileStatements [quadNine]) = some liveScript := by
    have hsnapshot : livePoolSnapshot (fun _ => false) (stoppedConsole [showServers]) = _ :=
      livePoolSnapshot_listed hlisted
    rw [hsnapshot, Option.bind_some]
    decide +kernel
  have hexecuted : (runStatements liveServers liveScript).isSome = true := by
    decide +kernel
  obtain ⟨hwhole, hpart⟩ := reconcile_script rfl hlisted hscript
  obtain ⟨servers', hrun⟩ := Option.isSome_iff_exists.mp hexecuted
  refine ⟨⟨servers', hrun, hwhole servers' hrun⟩,
    (hpart 1 (liveServers.take 2) (by decide +kernel)).2 (by decide +kernel) ?_⟩
  intro stdout' hreply
  obtain rfl : listing (liveLines.take 2) = stdout' := congrArg Prod.snd (Option.some.inj hreply)
  exact hlisted'

end AlderpointDNS.Upstream
