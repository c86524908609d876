import AlderpointDNS.Web.Accounts

/-!
# Signed-in sessions

A session is a row of `sessions`; the cookie of the browser carries its id alone.  A step of the
model is one transaction of one request, and the requests interleave in any way: a session may be
signed out, and a password changed, between any two statements of another request.

* `sessionStep` — the requests, the clock and the recovery commands of the local administrator;
* `RequestMove`, `moves_of_advance` — what one statement of a request does to `sessions`, to
  `admins` and to the request itself;
* **`session_cases`** — what a step does.

A login starts here where `login_post` has counted fewer than eight failures, see `loginStep`.
Left out are what only the pages show (the names and addresses of sessions, the audit log), and
restores of a backup.
-/

namespace AlderpointDNS.Web

open Text

/-! ## Tables -/

/-- A row of `admins`. -/
structure Account where
  id : ℕ
  username : Str
  passwordHash : Str
deriving DecidableEq

/-- A row of `sessions`. -/
structure Session where
  id : Str
  adminId : Option ℕ
  createdAt : ℤ
  lastSeenAt : ℤ
  csrf : Str
  /-- not a column: the password that opened the session, or that was set through it -/
  password : Option Str
deriving DecidableEq

/-- `URLSafeTimedSerializer`: `loads` is `loads(raw, max_age=SESSION_MAX_AGE).get("sid")` at a time,
and `none` for a bad or an old signature. -/
structure CookieSerializer where
  dumps : Str → ℤ → Str
  loads : Str → ℤ → Option Str

/-- `SESSION_MAX_AGE`, in seconds. -/
def sessionMaxAge : ℤ := 8 * 60 * 60

def anonSessionMaxAgeSeconds : ℤ := 6 * 60 * 60

def microseconds (seconds : ℤ) : ℤ := seconds * 1000000

namespace Session

/-- `DELETE FROM sessions WHERE admin_id IS NULL AND created_at < ?` and its sibling.  A text in
whole seconds is less than a cutoff with a fraction in the same second. -/
def expired (anonCutoff authCutoff : ℤ) (row : Session) : Bool :=
  match row.adminId with
  | none => microseconds row.createdAt < anonCutoff
  | some _ => microseconds row.lastSeenAt < authCutoff

/-- `admin_id=? AND id<>?`, which is not true where the second parameter is `NULL`. -/
def isOther (adminId : ℕ) (keep : Option Str) (row : Session) : Bool :=
  row.adminId = some adminId && keep.any fun sid => row.id ≠ sid

end Session

def pruneSessions (anonCutoff authCutoff : ℤ) (rows : List Session) : List Session :=
  rows.filter fun row => !row.expired anonCutoff authCutoff

/-- `revoke_other_sessions`. -/
def revokeOtherSessions (adminId : ℕ) (keep : Option Str) (rows : List Session) : List Session :=
  rows.filter fun row => !row.isOther adminId keep

/-- `DELETE FROM sessions WHERE admin_id=?` of the recovery commands. -/
def revokeAllSessions (adminId : ℕ) (rows : List Session) : List Session :=
  rows.filter fun row => row.adminId ≠ some adminId

def touchSession (sid : Str) (ts : ℤ) (rows : List Session) : List Session :=
  rows.map fun row => if row.id = sid then { row with lastSeenAt := ts } else row

/-- The session through which a password is set knows it. -/
def learnPassword (adminId : ℕ) (keep : Option Str) (password : Str) (rows : List Session) :
    List Session :=
  rows.map fun row =>
    if row.adminId = some adminId ∧ keep = some row.id then { row with password := some password }
    else row

def setPasswordHash (adminId : ℕ) (hash : Str) (accounts : List Account) : List Account :=
  accounts.map fun account =>
    if account.id = adminId then { account with passwordHash := hash } else account

/-! ## Requests -/

inductive Route where
  /-- a page that anyone may read -/
  | page
  | login (username password : Str)
  | logout
  /-- any other route behind `current_admin`; those that write pass a token to `check_csrf` -/
  | guarded (csrf : Option Str)
  | changePassword (csrf currentPassword newPassword confirmNewPassword : Str)
  | revokeSessions (csrf : Str)
deriving DecidableEq

inductive Answer where
  | page (status : ℕ) (error : Option Str)
  | home
  | loginRedirect
  | forbidden
  | done
  | raised
deriving DecidableEq

inductive SessionPhase where
  | arrived
  /-- `login_post` has read the row of the name -/
  | credentials (row : Option Account)
  /-- `_create_session_row` before its transaction -/
  | creating (row : Session) (anonCutoff authCutoff : ℤ) (answer : Answer)
  /-- `render` before it reads the session -/
  | rendering (status : ℕ) (error : Option Str)
  /-- `current_admin` has read a session with an account -/
  | signed (session : Session) (adminId : ℕ)
  /-- and the row of the account -/
  | found (session : Session) (admin : Account)
  | admitted (admin : Account)
  /-- `check_csrf` has returned -/
  | checked (admin : Account)
  /-- `signed_session` has been read again -/
  | keeping (admin : Account) (keep : Option Str)
  /-- the new password is right -/
  | accepted (admin : Account) (keep : Option Str)
  | answered (answer : Answer)
deriving DecidableEq

structure SessionRequest where
  cookie : Option Str
  route : Route
  phase : SessionPhase
  /-- the session under which `current_admin` let the request in -/
  admittedBy : Option Str
deriving DecidableEq

/-- What a statement draws: `secrets.token_urlsafe` twice, the salt of a hash, and whether another
writer holds the database. -/
structure Draw where
  sid : Str
  csrf : Str
  salt : Str
  busy : Bool
deriving DecidableEq

structure SessionState where
  /-- in microseconds -/
  now : ℤ
  accounts : List Account
  sessions : List Session
  requests : List SessionRequest
  /-- the session ids that have been drawn -/
  issued : List Str
deriving DecidableEq

inductive SessionAction where
  | tick (elapsed : ℕ)
  | arrive (cookie : Option Str) (route : Route)
  | advance (i : ℕ) (draw : Draw)
  /-- a statement of the request fails -/
  | raise (i : ℕ)
  /-- `setup_post` inserts the account -/
  | createAccount (username password salt : Str)
  | resetPassword (username : Option Str) (password salt : Str)
  | revokeAll (username : Option Str)
deriving DecidableEq

namespace SessionState

def ids (s : SessionState) : List Str := s.sessions.map (·.id)

/-- `_session_id_from_cookie`. -/
def sessionIdFromCookie (c : CookieSerializer) (s : SessionState) (cookie : Option Str) :
    Option Str :=
  match cookie with
  | some raw => if raw = [] then none else c.loads raw s.now
  | none => none

/-- `_session_id_from_cookie` where the id is not empty. -/
def cookieSession (c : CookieSerializer) (s : SessionState) (cookie : Option Str) : Option Str :=
  (s.sessionIdFromCookie c cookie).filter fun sid => sid ≠ []

/-- `none` is `{}`. -/
def signedSession (c : CookieSerializer) (s : SessionState) (cookie : Option Str) :
    Option Session :=
  (s.cookieSession c cookie).bind fun sid => s.sessions.find? fun row => row.id = sid

/-- What `check_csrf` asks for. -/
def csrfValid (c : CookieSerializer) (s : SessionState) (cookie : Option Str) (token : Str) :
    Bool :=
  token ≠ [] && (s.signedSession c cookie).any fun session => session.csrf = token

def findAccount (s : SessionState) (username : Str) : Option Account :=
  s.accounts.find? fun account => account.username = username

def accountById (s : SessionState) (id : ℕ) : Option Account :=
  s.accounts.find? fun account => account.id = id

def setRequest (s : SessionState) (i : ℕ) (r : SessionRequest) : SessionState :=
  { s with requests := s.requests.set i r }

/-- The request goes on to the next phase. -/
def move (s : SessionState) (i : ℕ) (r : SessionRequest) (phase : SessionPhase) : SessionState :=
  s.setRequest i { r with phase := phase }

/-- `_create_session_row` up to its transaction. -/
def drawSession (s : SessionState) (i : ℕ) (r : SessionRequest) (d : Draw) (adminId : Option ℕ)
    (password : Option Str) (answer : Answer) : SessionState :=
  let ts := wholeSecond s.now
  let row : Session := ⟨d.sid, adminId, ts, ts, d.csrf, password⟩
  let anonCutoff := s.now - microseconds anonSessionMaxAgeSeconds
  let authCutoff := s.now - microseconds sessionMaxAge
  { s.move i r (.creating row anonCutoff authCutoff answer) with issued := d.sid :: s.issued }

end SessionState

/-- The first error of `administration_change_password` after the current password. -/
def newPasswordError (newPassword confirmNewPassword : Str) : Option Str :=
  match validatePasswordLength newPassword with
  | some error => some error
  | none =>
      if newPassword ≠ confirmNewPassword then some "New passwords do not match.".toList else none

/-! ## Steps -/

section Step

variable (c : CookieSerializer) (h : PasswordHasher)

/-- `current_admin` reads the session; `not admin_id` is also true of 0. -/
def readSession (s : SessionState) (i : ℕ) (r : SessionRequest) : SessionState :=
  match s.signedSession c r.cookie with
  | none => s.move i r (.answered .loginRedirect)
  | some session =>
      match session.adminId with
      | none => s.move i r (.answered .loginRedirect)
      | some 0 => s.move i r (.answered .loginRedirect)
      | some id => s.move i r (.signed session id)

/-- The body of a route once `current_admin` has returned. -/
def guardedStep (s : SessionState) (i : ℕ) (r : SessionRequest) (admin : Account) :
    Option SessionState :=
  match r.route with
  | .guarded none => some (s.move i r (.rendering 200 none))
  | .guarded (some token) =>
      some (s.move i r (.answered (if s.csrfValid c r.cookie token then .done else .forbidden)))
  | .changePassword token _ _ _ | .revokeSessions token =>
      if s.csrfValid c r.cookie token then some (s.move i r (.checked admin))
      else some (s.move i r (.answered .forbidden))
  | _ => none

/-- After `signed_session` has been read: the checks of the new password, or the revocation. -/
def keepingStep (s : SessionState) (i : ℕ) (r : SessionRequest) (admin : Account)
    (keep : Option Str) : Option SessionState :=
  match r.route with
  | .changePassword _ currentPassword newPassword confirmNewPassword =>
      if h.verify admin.passwordHash currentPassword then
        match newPasswordError newPassword confirmNewPassword with
        | some error => some (s.move i r (.rendering 400 (some error)))
        | none => some (s.move i r (.accepted admin keep))
      else some (s.move i r (.rendering 400 (some "Current password is incorrect.".toList)))
  | .revokeSessions _ =>
      some { s.move i r (.answered .done) with
        sessions := revokeOtherSessions admin.id keep s.sessions }
  | _ => none

/-- The transaction of `administration_change_password`. -/
def changePassword (s : SessionState) (i : ℕ) (r : SessionRequest) (d : Draw) (admin : Account)
    (keep : Option Str) (newPassword : Str) : SessionState :=
  { s.move i r (.answered .done) with
    accounts := setPasswordHash admin.id (h.hash newPassword d.salt) s.accounts
    sessions := learnPassword admin.id keep newPassword
      (revokeOtherSessions admin.id keep s.sessions) }

/-- One statement or transaction of a request. -/
def advance (s : SessionState) (i : ℕ) (r : SessionRequest) (d : Draw) : Option SessionState :=
  match r.phase with
  | .arrived =>
      match r.route with
      | .page => some (s.move i r (.rendering 200 none))
      | .login username _ => some (s.move i r (.credentials (s.findAccount username)))
      | .logout =>
          match s.cookieSession c r.cookie with
          | some sid =>
              some { s.move i r (.answered .loginRedirect) with
                sessions := s.sessions.filter fun row => row.id ≠ sid }
          | none => some (s.move i r (.answered .loginRedirect))
      | _ => some (readSession c s i r)
  | .credentials row =>
      match row, r.route with
      | some account, .login _ password =>
          if h.verify account.passwordHash password then
            some (s.drawSession i r d (some account.id) (some password) .home)
          else some (s.move i r (.rendering 200 (some invalidLogin)))
      | _, _ => some (s.move i r (.rendering 200 (some invalidLogin)))
  | .creating row anonCutoff authCutoff answer =>
      let rows := pruneSessions anonCutoff authCutoff s.sessions
      -- `id` is the primary key
      if row.id ∈ rows.map (·.id) then some (s.move i r (.answered .raised))
      else some { s.move i r (.answered answer) with sessions := rows ++ [row] }
  | .rendering status error =>
      match s.signedSession c r.cookie with
      | some _ => some (s.move i r (.answered (.page status error)))
      | none => some (s.drawSession i r d none none (.page status error))
  | .signed session id =>
      match s.accountById id with
      | some admin => some (s.move i r (.found session admin))
      | none => some (s.move i r (.answered .loginRedirect))
  | .found session admin =>
      -- a busy database leaves `last_seen_at` as it was
      some { s.setRequest i { r with phase := .admitted admin, admittedBy := some session.id } with
        sessions :=
          if d.busy then s.sessions
          else touchSession session.id (wholeSecond s.now) s.sessions }
  | .admitted admin => guardedStep c s i r admin
  | .checked admin =>
      some (s.move i r (.keeping admin ((s.signedSession c r.cookie).map (·.id))))
  | .keeping admin keep => keepingStep h s i r admin keep
  | .accepted admin keep =>
      match r.route with
      | .changePassword _ _ newPassword _ =>
          some (changePassword h s i r d admin keep newPassword)
      | _ => none
  | .answered _ => none

/-- `_resolve_admin`. -/
def SessionState.resolveAdmin (s : SessionState) (username : Option Str) : Option Account :=
  match username with
  | some name => if name = [] then lone s.accounts else s.findAccount name
  | none => lone s.accounts
where
  lone : List Account → Option Account
    | [account] => some account
    | _ => none

/-- `max(id) + 1`. -/
def SessionState.nextId (s : SessionState) : ℕ := (s.accounts.map (·.id)).foldr max 0 + 1

/-- `cmd_reset_password`. -/
def resetPassword (s : SessionState) (admin : Account) (password salt : Str) : SessionState :=
  match validatePasswordLength password with
  | some _ => s
  | none =>
      { s with
        accounts := setPasswordHash admin.id (h.hash password salt) s.accounts
        sessions := revokeAllSessions admin.id s.sessions }

/-- One step of the clock, of a browser, of a request or of the local administrator. -/
def sessionStep (s : SessionState) : SessionAction → Option SessionState
  | .tick elapsed => some { s with now := s.now + elapsed }
  | .arrive cookie route =>
      some { s with requests := s.requests ++ [⟨cookie, route, .arrived, none⟩] }
  | .advance i d => (s.requests[i]?).bind fun r => advance c h s i r d
  | .raise i =>
      (s.requests[i]?).bind fun r =>
        match r.phase with
        | .answered _ => none
        | _ => some (s.move i r (.answered .raised))
  | .createAccount username password salt =>
      if username ∈ s.accounts.map (·.username) then none
      else some { s with accounts := s.accounts ++ [⟨s.nextId, username, h.hash password salt⟩] }
  | .resetPassword username password salt =>
      (s.resolveAdmin username).map fun admin => resetPassword h s admin password salt
  | .revokeAll username =>
      (s.resolveAdmin username).map fun admin =>
        { s with sessions := revokeAllSessions admin.id s.sessions }

end Step

/-- The accounts of an installation, before any request. -/
def sessionStart (now : ℤ) (accounts : List Account) : SessionState where
  now := now
  accounts := accounts
  sessions := []
  requests := []
  issued := []

/-! ## What a step does -/

namespace SessionPhase

/-- The account for which the request may yet open a session. -/
def opensFor : SessionPhase → Option ℕ
  | .credentials (some account) => some account.id
  | .creating row _ _ _ => row.adminId
  | _ => none

/-- The id of the session that the request is about to insert. -/
def creates : SessionPhase → Option Str
  | .creating row _ _ _ => some row.id
  | _ => none

/-- The session that `current_admin` has read for the request. -/
def reads : SessionPhase → Option Str
  | .signed session _ => some session.id
  | .found session _ => some session.id
  | _ => none

/-- The next statement draws the id of a session. -/
def draws : SessionPhase → Bool
  | .credentials _ | .rendering _ _ => true
  | _ => false

/-- Neither a login nor `current_admin` is under way. -/
def plain : SessionPhase → Bool
  | .credentials _ | .creating _ _ _ _ | .signed _ _ | .found _ _ => false
  | _ => true

variable {phase : SessionPhase}

theorem opensFor_of_plain (hplain : phase.plain = true) : phase.opensFor = none := by
  cases phase <;> first | rfl | exact Bool.noConfusion hplain

theorem creates_of_plain (hplain : phase.plain = true) : phase.creates = none := by
  cases phase <;> first | rfl | exact Bool.noConfusion hplain

theorem reads_of_plain (hplain : phase.plain = true) : phase.reads = none := by
  cases phase <;> first | rfl | exact Bool.noConfusion hplain

end SessionPhase

section Inversion

variable {c : CookieSerializer} {h : PasswordHasher} {s s' : SessionState} {i : ℕ}
  {r : SessionRequest} {d : Draw}

/-- What a statement of a request does to its entry, to `admins`, to `sessions` and to the drawn
ids. -/
inductive RequestMove (c : CookieSerializer) (h : PasswordHasher) (s : SessionState)
    (r : SessionRequest) (d : Draw) :
    SessionRequest → List Account → List Session → List Str → Prop where
  | move (phase : SessionPhase) (hplain : phase.plain = true) :
      RequestMove c h s r d { r with phase := phase } s.accounts s.sessions s.issued
  | sign (session : Session) (id : ℕ) (hread : s.signedSession c r.cookie = some session) :
      RequestMove c h s r d { r with phase := .signed session id } s.accounts s.sessions s.issued
  | find (session : Session) (id : ℕ) (admin : Account) (hphase : r.phase = .signed session id) :
      RequestMove c h s r d { r with phase := .found session admin } s.accounts s.sessions s.issued
  | enter (session : Session) (admin : Account) (busy : Bool)
      (hphase : r.phase = .found session admin) :
      RequestMove c h s r d { r with phase := .admitted admin, admittedBy := some session.id }
        s.accounts
        (if busy then s.sessions else touchSession session.id (wholeSecond s.now) s.sessions)
        s.issued
  | read (username : Str) :
      RequestMove c h s r d { r with phase := .credentials (s.findAccount username) } s.accounts
        s.sessions s.issued
  | draw (row : Session) (anonCutoff authCutoff : ℤ) (answer : Answer) (hid : row.id = d.sid)
      (hdraws : r.phase.draws = true)
      (hopens : ∀ id, row.adminId = some id → ∃ account, r.phase = .credentials (some account) ∧
        account.id = id ∧ row.password.any (h.verify account.passwordHash) = true) :
      RequestMove c h s r d { r with phase := .creating row anonCutoff authCutoff answer }
        s.accounts s.sessions (d.sid :: s.issued)
  | insert (row : Session) (anonCutoff authCutoff : ℤ) (answer : Answer)
      (hphase : r.phase = .creating row anonCutoff authCutoff answer)
      (hnew : row.id ∉ (pruneSessions anonCutoff authCutoff s.sessions).map (·.id)) :
      RequestMove c h s r d { r with phase := .answered answer } s.accounts
        (pruneSessions anonCutoff authCutoff s.sessions ++ [row]) s.issued
  | signOut (sid : Str) (hphase : r.phase = .arrived) (hroute : r.route = .logout)
      (hsid : s.cookieSession c r.cookie = some sid) :
      RequestMove c h s r d { r with phase := .answered .loginRedirect } s.accounts
        (s.sessions.filter fun row => row.id ≠ sid) s.issued
  | revoke (admin : Account) (keep : Option Str) (csrf : Str)
      (hphase : r.phase = .keeping admin keep) (hroute : r.route = .revokeSessions csrf) :
      RequestMove c h s r d { r with phase := .answered .done } s.accounts
        (revokeOtherSessions admin.id keep s.sessions) s.issued
  | change (admin : Account) (keep : Option Str) (csrf current password confirm : Str)
      (hphase : r.phase = .accepted admin keep)
      (hroute : r.route = .changePassword csrf current password confirm) :
      RequestMove c h s r d { r with phase := .answered .done }
        (setPasswordHash admin.id (h.hash password d.salt) s.accounts)
        (learnPassword admin.id keep password (revokeOtherSessions admin.id keep s.sessions))
        s.issued

/-- The entry of the request, and what it does to the tables. -/
def Moves (c : CookieSerializer) (h : PasswordHasher) (s : SessionState) (i : ℕ)
    (r : SessionRequest) (d : Draw) (s' : SessionState) : Prop :=
  ∃ r' accounts sessions issued, RequestMove c h s r d r' accounts sessions issued ∧
    s' = { s with
      requests := s.requests.set i r', accounts := accounts, sessions := sessions, issued := issued }

theorem moves_of_plain {phase : SessionPhase} (hplain : phase.plain = true) :
    Moves c h s i r d (s.move i r phase) :=
  ⟨_, _, _, _, .move phase hplain, rfl⟩

theorem moves_readSession : Moves c h s i r d (readSession c s i r) := by
  unfold readSession
  split
  · exact moves_of_plain rfl
  · rename_i session hread
    split
    · exact moves_of_plain rfl
    · exact moves_of_plain rfl
    · exact ⟨_, _, _, _, .sign session _ hread, rfl⟩

theorem moves_of_guardedStep {admin : Account} (hstep : guardedStep c s i r admin = some s') :
    Moves c h s i r d s' := by
  unfold guardedStep at hstep
  split at hstep
  · cases hstep
    exact moves_of_plain rfl
  · cases hstep
    exact moves_of_plain rfl
  · split at hstep <;> cases hstep <;> exact moves_of_plain rfl
  · split at hstep <;> cases hstep <;> exact moves_of_plain rfl
  · cases hstep

theorem moves_of_keepingStep {admin : Account} {keep : Option Str}
    (hphase : r.phase = .keeping admin keep) (hstep : keepingStep h s i r admin keep = some s') :
    Moves c h s i r d s' := by
  unfold keepingStep at hstep
  split at hstep
  · split at hstep
    · split at hstep
      · cases hstep
        exact moves_of_plain rfl
      · cases hstep
        exact moves_of_plain rfl
    · cases hstep
      exact moves_of_plain rfl
  · rename_i csrf hroute
    cases hstep
    exact ⟨_, _, _, _, .revoke admin keep csrf hphase hroute, rfl⟩
  · cases hstep

/-- A session that `render` or `login_post` is about to create. -/
theorem moves_drawSession {adminId : Option ℕ} {password : Option Str} {answer : Answer}
    (hdraws : r.phase.draws = true)
    (hopens : ∀ id, adminId = some id → ∃ account, r.phase = .credentials (some account) ∧
      account.id = id ∧ password.any (h.verify account.passwordHash) = true) :
    Moves c h s i r d (s.drawSession i r d adminId password answer) :=
  ⟨_, _, _, _, .draw _ _ _ answer rfl hdraws hopens, rfl⟩

/-- **What a statement of a request does.** -/
theorem moves_of_advance (hstep : advance c h s i r d = some s') : Moves c h s i r d s' := by
  unfold advance at hstep
  split at hstep
  case h_1 hphase =>
    split at hstep
    · cases hstep
      exact moves_of_plain rfl
    · cases hstep
      exact ⟨_, _, _, _, .read _, rfl⟩
    · rename_i hroute
      split at hstep
      · rename_i sid hsid
        cases hstep
        exact ⟨_, _, _, _, .signOut sid hphase hroute hsid, rfl⟩
      · cases hstep
        exact moves_of_plain rfl
    · cases hstep
      exact moves_readSession
  case h_2 row hphase =>
    split at hstep
    · rename_i account _ password _
      split at hstep
      · rename_i hverify
        cases hstep
        refine moves_drawSession (by rw [hphase]; rfl) ?_
        rintro _ ⟨⟩
        exact ⟨account, hphase, rfl, hverify⟩
      · cases hstep
        exact moves_of_plain rfl
    · cases hstep
      exact moves_of_plain rfl
  case h_3 row anonCutoff authCutoff answer hphase =>
    dsimp only at hstep
    split at hstep
    · cases hstep
      exact moves_of_plain rfl
    · rename_i hnew
      cases hstep
      exact ⟨_, _, _, _, .insert row anonCutoff authCutoff answer hphase hnew, rfl⟩
  case h_4 status error hphase =>
    split at hstep
    · cases hstep
      exact moves_of_plain rfl
    · cases hstep
      exact moves_drawSession (by rw [hphase]; rfl) nofun
  case h_5 session id hphase =>
    split at hstep
    · cases hstep
      exact ⟨_, _, _, _, .find session id _ hphase, rfl⟩
    · cases hstep
      exact moves_of_plain rfl
  case h_6 session admin hphase =>
    cases hstep
    exact ⟨_, _, _, _, .enter session admin d.busy hphase, rfl⟩
  case h_7 => exact moves_of_guardedStep hstep
  case h_8 =>
    cases hstep
    exact moves_of_plain rfl
  case h_9 admin keep hphase => exact moves_of_keepingStep hphase hstep
  case h_10 admin keep hphase =>
    split at hstep
    · rename_i csrf current password confirm hroute
      cases hstep
      exact ⟨_, _, _, _, .change admin keep csrf current password confirm hphase hroute, rfl⟩
    · cases hstep
  case h_11 => cases hstep

/-- What a step does. -/
inductive SessionMove (c : CookieSerializer) (h : PasswordHasher) (s : SessionState)
    (a : SessionAction) : SessionState → Prop where
  | stay : SessionMove c h s a s
  | tick (elapsed : ℕ) : SessionMove c h s a { s with now := s.now + elapsed }
  | arrive (cookie : Option Str) (route : Route) :
      SessionMove c h s a { s with requests := s.requests ++ [⟨cookie, route, .arrived, none⟩] }
  | request (i : ℕ) (r r' : SessionRequest) (d : Draw) (accounts : List Account)
      (sessions : List Session) (issued : List Str) (ha : a = .advance i d)
      (hr : s.requests[i]? = some r) (hmove : RequestMove c h s r d r' accounts sessions issued) :
      SessionMove c h s a { s with
        requests := s.requests.set i r', accounts := accounts, sessions := sessions,
        issued := issued }
  | raise (i : ℕ) (r : SessionRequest) (hr : s.requests[i]? = some r) :
      SessionMove c h s a (s.move i r (.answered .raised))
  | create (account : Account) (hid : account.id ∉ s.accounts.map (·.id)) :
      SessionMove c h s a { s with accounts := s.accounts ++ [account] }
  | revokeAll (username : Option Str) (admin : Account) (ha : a = .revokeAll username)
      (hadmin : s.resolveAdmin username = some admin) :
      SessionMove c h s a { s with sessions := revokeAllSessions admin.id s.sessions }
  | reset (username : Option Str) (password salt : Str) (admin : Account)
      (ha : a = .resetPassword username password salt)
      (hadmin : s.resolveAdmin username = some admin)
      (hvalid : validatePasswordLength password = none) :
      SessionMove c h s a { s with
        accounts := setPasswordHash admin.id (h.hash password salt) s.accounts
        sessions := revokeAllSessions admin.id s.sessions }

theorem lt_nextId {account : Account} (hmem : account ∈ s.accounts) : account.id < s.nextId := by
  have hle : ∀ (l : List ℕ) (n : ℕ), n ∈ l → n ≤ l.foldr max 0 := by
    intro l n hn
    induction l with
    | nil => exact absurd hn List.not_mem_nil
    | cons m l ih =>
        rw [List.foldr_cons]
        rcases List.mem_cons.mp hn with rfl | hn
        · exact Nat.le_max_left _ _
        · exact Nat.le_trans (ih hn) (Nat.le_max_right _ _)
  exact Nat.lt_succ_of_le (hle _ _ (List.mem_map_of_mem hmem))

theorem session_cases {a : SessionAction} (hstep : sessionStep c h s a = some s') :
    SessionMove c h s a s' := by
  cases a with
  | tick elapsed =>
      cases hstep
      exact .tick elapsed
  | arrive cookie route =>
      cases hstep
      exact .arrive cookie route
  | advance i d =>
      obtain ⟨r, hr, hstep⟩ := Option.bind_eq_some_iff.mp hstep
      obtain ⟨r', accounts, sessions, issued, hmove, rfl⟩ := moves_of_advance hstep
      exact .request i r r' d accounts sessions issued rfl hr hmove
  | raise i =>
      obtain ⟨r, hr, hstep⟩ := Option.bind_eq_some_iff.mp hstep
      split at hstep
      · cases hstep
      · cases hstep
        exact .raise i r hr
  | createAccount username password salt =>
      simp only [sessionStep] at hstep
      split at hstep
      · cases hstep
      · cases hstep
        refine .create _ fun hmem => ?_
        obtain ⟨account, haccount, hid⟩ := List.mem_map.mp hmem
        exact absurd hid (lt_nextId haccount).ne
  | resetPassword username password salt =>
      obtain ⟨admin, hadmin, rfl⟩ := Option.map_eq_some_iff.mp hstep
      simp only [resetPassword]
      split
      · exact .stay
      · rename_i hvalid
        exact .reset username password salt admin rfl hadmin hvalid
  | revokeAll username =>
      obtain ⟨admin, hadmin, rfl⟩ := Option.map_eq_some_iff.mp hstep
      exact .revokeAll username admin rfl hadmin

end Inversion

end AlderpointDNS.Web
