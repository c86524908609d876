import AlderpointDNS.Lib.Pool
import AlderpointDNS.Lib.Runs
import AlderpointDNS.Lib.Text
import Mathlib.Data.Int.Init

/-!
# Setting up and logging in

`setup_post` and `login_post` read a count, and act on it later: between the two a password is
hashed, and other requests of the thread pool go on.  A step of the model is one database statement
of one request, or its password check; the requests interleave in any way.

* `login_cases`, `setup_cases` — what a step does to the requests and to the accounts;
* `load` — the failures of the last 15 minutes of an address, and its requests that may still fail;
* **`guards_hold`** — the bounds of both guards, where each count sees what it stands for;
* `load_le_of_settled` — it does where no other request of the address is under way, and no
  failure is recorded in the second in which the 15 minutes begin;
* `created_le_one_iff` — for accounts the condition is exact;
* `guards_overrun` — nine requests that count before one of them fails, and two setups.

Left out are the sessions and, in `setup_post`, the DNS names of the server itself.
-/

namespace AlderpointDNS.Web

open Text

/-! ## Requests -/

/-- `PasswordHasher` of argon2: the hash of a password under a salt, and its check. -/
structure PasswordHasher where
  hash : Str → Str → Str
  verify : Str → Str → Bool

structure Admin where
  username : Str
  passwordHash : Str
deriving DecidableEq

/-- A row of `login_attempts`; `utc_now` leaves whole seconds. -/
structure LoginAttempt where
  ip : Str
  attemptedAt : ℤ
  success : Bool
deriving DecidableEq

def tooManyAttempts : Str := "Too many failed attempts. Try later.".toList

def invalidLogin : Str := "Invalid username or password.".toList

inductive LoginAnswer where
  | page (error : Str)
  | home (admin : Option Admin)
  | raised
deriving DecidableEq

inductive LoginPhase where
  | arrived
  /-- fewer than eight failures were counted -/
  | counted
  | read (row : Option Admin)
  | verified (row : Option Admin) (ok : Bool)
  | answered (answer : LoginAnswer)
deriving DecidableEq

/-- A request to `login_post`. -/
structure LoginRequest where
  ip : Str
  username : Str
  password : Str
  phase : LoginPhase
  /-- when its password check failed, in microseconds -/
  failedAt : Option ℤ
deriving DecidableEq

inductive SetupAnswer where
  | login
  | page (error : Str)
  | forbidden
  | raised
deriving DecidableEq

inductive SetupPhase where
  | arrived
  /-- `admin_count()` was 0 -/
  | unclaimed
  | valid
  | answered (answer : SetupAnswer)
deriving DecidableEq

/-- A request to `setup_post`. -/
structure SetupRequest where
  username : Str
  password : Str
  confirmPassword : Str
  phase : SetupPhase
deriving DecidableEq

/-- `username.strip() or "admin"`. -/
def SetupRequest.cleanUsername (r : SetupRequest) : Str :=
  if strip r.username = [] then "admin".toList else strip r.username

def minPasswordLength : ℕ := 12

def validatePasswordLength (password : Str) : Option Str :=
  if password.length < minPasswordLength then
    some "Password must be at least 12 characters.".toList
  else none

/-- `error` before the account is inserted. -/
def SetupRequest.error (r : SetupRequest) : Option Str :=
  match validatePasswordLength r.password with
  | some error => some error
  | none =>
      if r.password ≠ r.confirmPassword then some "Passwords do not match.".toList else none

/-! ## The database and the requests under way -/

structure WebState where
  /-- in microseconds -/
  now : ℤ
  admins : List Admin
  loginAttempts : List LoginAttempt
  logins : List LoginRequest
  setups : List SetupRequest
  /-- how many accounts `setup_post` has inserted -/
  created : ℕ
deriving DecidableEq

inductive WebAction where
  | tick (elapsed : ℕ)
  | login (client : Option Str) (username password : Str)
  | countFailures (i : ℕ)
  | readAdmin (i : ℕ)
  | verifyPassword (i : ℕ)
  | recordAttempt (i : ℕ)
  | raiseLogin (i : ℕ)
  | setup (username password confirmPassword : Str)
  | countAdmins (i : ℕ)
  | validate (i : ℕ) (csrf : Bool)
  | insertAdmin (i : ℕ) (salt : Str)
  | raiseSetup (i : ℕ)
deriving DecidableEq

/-- `dt.timedelta(minutes=15)`. -/
def loginWindow : ℤ := 15 * 60 * 1000000

/-- The second of a time: what `replace(microsecond=0)` leaves. -/
def wholeSecond (time : ℤ) : ℤ := time / 1000000

/-- `request.client.host if request.client else "unknown"`. -/
def clientAddress (client : Option Str) : Str := client.getD "unknown".toList

namespace WebState

/-- The failures that `login_post` counts.  `isoformat` writes the fraction of the cutoff, and `.`
comes after `+`, so that a text in whole seconds is greater just when its second is later than the
one of the cutoff. -/
def countFailures (s : WebState) (ip : Str) : ℕ :=
  s.loginAttempts.countP fun attempt =>
    attempt.ip = ip && !attempt.success && wholeSecond (s.now - loginWindow) < attempt.attemptedAt

def findAdmin (s : WebState) (username : Str) : Option Admin :=
  s.admins.find? fun admin => admin.username = username

def setLogin (s : WebState) (i : ℕ) (r : LoginRequest) : WebState :=
  { s with logins := s.logins.set i r }

def setSetup (s : WebState) (i : ℕ) (r : SetupRequest) : WebState :=
  { s with setups := s.setups.set i r }

end WebState

/-- `bool(row) and auth.verify_password(row["password_hash"], password)`. -/
def PasswordHasher.accepts (h : PasswordHasher) (row : Option Admin) (password : Str) : Bool :=
  match row with
  | some admin => h.verify admin.passwordHash password
  | none => false

/-- One statement of `login_post`. -/
def loginStep (h : PasswordHasher) (s : WebState) (i : ℕ) (r : LoginRequest) :
    WebAction → Option WebState
  | .countFailures _ =>
      if r.phase = .arrived then
        if 8 ≤ s.countFailures r.ip then
          some (s.setLogin i { r with phase := .answered (.page tooManyAttempts) })
        else some (s.setLogin i { r with phase := .counted })
      else none
  | .readAdmin _ =>
      if r.phase = .counted then
        some (s.setLogin i { r with phase := .read (s.findAdmin r.username) })
      else none
  | .verifyPassword _ =>
      match r.phase with
      | .read row =>
          let ok := h.accepts row r.password
          some (s.setLogin i { r with
            phase := .verified row ok
            failedAt := if ok then r.failedAt else some s.now })
      | _ => none
  | .recordAttempt _ =>
      match r.phase with
      | .verified row ok =>
          some { s.setLogin i { r with
              phase := .answered (if ok then .home row else .page invalidLogin) } with
            loginAttempts := ⟨r.ip, wholeSecond s.now, ok⟩ :: s.loginAttempts }
      | _ => none
  | .raiseLogin _ =>
      match r.phase with
      | .answered _ => none
      | _ => some (s.setLogin i { r with phase := .answered .raised })
  | _ => none

/-- One statement of `setup_post`. -/
def setupStep (h : PasswordHasher) (s : WebState) (i : ℕ) (r : SetupRequest) :
    WebAction → Option WebState
  | .countAdmins _ =>
      if r.phase = .arrived then
        if 0 < s.admins.length then some (s.setSetup i { r with phase := .answered .login })
        else some (s.setSetup i { r with phase := .unclaimed })
      else none
  | .validate _ csrf =>
      if r.phase = .unclaimed then
        if csrf then
          match r.error with
          | some error => some (s.setSetup i { r with phase := .answered (.page error) })
          | none => some (s.setSetup i { r with phase := .valid })
        else some (s.setSetup i { r with phase := .answered .forbidden })
      else none
  | .insertAdmin _ salt =>
      if r.phase = .valid then
        -- `username` is unique
        if r.cleanUsername ∈ s.admins.map (·.username) then
          some (s.setSetup i { r with phase := .answered .raised })
        else
          some { s.setSetup i { r with phase := .answered .login } with
            admins := s.admins ++ [⟨r.cleanUsername, h.hash r.password salt⟩]
            created := s.created + 1 }
      else none
  | .raiseSetup _ =>
      match r.phase with
      | .answered _ => none
      | _ => some (s.setSetup i { r with phase := .answered .raised })
  | _ => none

/-- One step of the clock, of a client or of a request. -/
def webStep (h : PasswordHasher) (s : WebState) (a : WebAction) : Option WebState :=
  match a with
  | .tick elapsed => some { s with now := s.now + elapsed }
  | .login client username password =>
      some { s with
        logins := s.logins ++ [⟨clientAddress client, username, password, .arrived, none⟩] }
  | .setup username password confirmPassword =>
      some { s with setups := s.setups ++ [⟨username, password, confirmPassword, .arrived⟩] }
  | .countFailures i | .readAdmin i | .verifyPassword i | .recordAttempt i | .raiseLogin i =>
      (s.logins[i]?).bind fun r => loginStep h s i r a
  | .countAdmins i | .validate i _ | .insertAdmin i _ | .raiseSetup i =>
      (s.setups[i]?).bind fun r => setupStep h s i r a

/-- A database, before any request. -/
def webStart (now : ℤ) (admins : List Admin) (attempts : List LoginAttempt) : WebState where
  now := now
  admins := admins
  loginAttempts := attempts
  logins := []
  setups := []
  created := 0

/-! ## The bounds -/

/-- The request may still find its password wrong. -/
def LoginPhase.isOpen : LoginPhase → Bool
  | .counted => true
  | .read _ => true
  | _ => false

namespace LoginRequest

/-- Its password check failed after `start`. -/
def failedAfter (start : ℤ) (r : LoginRequest) : Bool := r.failedAt.any fun time => start < time

/-- Its password check failed in the 15 minutes after `start`. -/
def failedIn (ip : Str) (start : ℤ) (r : LoginRequest) : Bool :=
  r.ip = ip && r.failedAt.any fun time => start < time && time ≤ start + loginWindow

def countsToward (ip : Str) (start : ℤ) (r : LoginRequest) : Bool :=
  r.ip = ip && (r.phase.isOpen || r.failedAfter start)

end LoginRequest

namespace WebState

/-- In no 15 minutes more than eight password checks of an address failed. -/
def LoginBounded (s : WebState) : Prop :=
  ∀ ip start, s.logins.countP (·.failedIn ip start) ≤ 8

/-- The failures of an address in the last 15 minutes, and its requests that may still fail. -/
def load (s : WebState) (ip : Str) : ℕ :=
  s.logins.countP (·.countsToward ip (s.now - loginWindow))

/-- A login that counts fewer than eight failures comes when fewer than eight have failed or may
fail, and an account is inserted into an empty table, or under a name that is there. -/
def GuardsMeet (s : WebState) : WebAction → Prop
  | .countFailures i => ∀ r, s.logins[i]? = some r → s.countFailures r.ip < 8 → s.load r.ip < 8
  | .insertAdmin i _ => ∀ r, s.setups[i]? = some r →
      s.admins = [] ∨ r.cleanUsername ∈ s.admins.map (·.username)
  | _ => True

end WebState

/-! ### What a step does -/

section Step

variable {h : PasswordHasher} {s s' : WebState} {a : WebAction}

/-- What a request of `login_post` does to its own entry and to `login_attempts`. -/
inductive LoginMove (s : WebState) (a : WebAction) (i : ℕ) (r : LoginRequest) :
    LoginRequest → List LoginAttempt → Prop where
  | count (phase : LoginPhase) (ha : a = .countFailures i)
      (hopen : phase.isOpen = true → s.countFailures r.ip < 8)
      (hphase : phase ≠ .answered (.page invalidLogin)) :
      LoginMove s a i r { r with phase := phase } s.loginAttempts
  | verify (phase : LoginPhase) (hopen : r.phase.isOpen = true) (hclosed : phase.isOpen = false)
      (hphase : phase ≠ .answered (.page invalidLogin)) :
      LoginMove s a i r { r with phase := phase, failedAt := some s.now } s.loginAttempts
  | move (phase : LoginPhase) (hopen : phase.isOpen = true → r.phase.isOpen = true)
      (hphase : phase ≠ .answered (.page invalidLogin)) :
      LoginMove s a i r { r with phase := phase } s.loginAttempts
  | record (phase : LoginPhase) (ok : Bool) (hclosed : phase.isOpen = false)
      (hphase : ok = true → phase ≠ .answered (.page invalidLogin)) :
      LoginMove s a i r { r with phase := phase }
        (⟨r.ip, wholeSecond s.now, ok⟩ :: s.loginAttempts)

/-- What a step does to the requests of `login_post`. -/
inductive LoginStep (s : WebState) (a : WebAction) (s' : WebState) : Prop where
  | frame (hnow : s.now ≤ s'.now) (hlogins : s'.logins = s.logins)
      (hattempts : s'.loginAttempts = s.loginAttempts)
  | arrive (r : LoginRequest) (hnow : s'.now = s.now) (hlogins : s'.logins = s.logins ++ [r])
      (hattempts : s'.loginAttempts = s.loginAttempts) (hphase : r.phase.isOpen = false)
      (hfailed : r.failedAt = none)
  | request (i : ℕ) (r r' : LoginRequest) (hr : s.logins[i]? = some r) (hnow : s'.now = s.now)
      (hlogins : s'.logins = s.logins.set i r') (hmove : LoginMove s a i r r' s'.loginAttempts)

theorem loginMove_of_step {i : ℕ} {r : LoginRequest} (ha : ∀ j, a = .countFailures j → j = i)
    (hstep : loginStep h s i r a = some s') :
    ∃ r', s'.now = s.now ∧ s'.logins = s.logins.set i r' ∧
      LoginMove s a i r r' s'.loginAttempts := by
  cases a with
  | countFailures j =>
      obtain rfl := ha j rfl
      simp only [loginStep] at hstep
      split at hstep
      · split at hstep
        · cases hstep
          have hpage : LoginPhase.answered (.page tooManyAttempts)
              ≠ .answered (.page invalidLogin) := by decide
          exact ⟨_, rfl, rfl, .count _ rfl nofun hpage⟩
        · rename_i hcount
          cases hstep
          exact ⟨_, rfl, rfl, .count _ rfl (fun _ => by omega) nofun⟩
      · cases hstep
  | readAdmin j =>
      simp only [loginStep] at hstep
      split at hstep
      · rename_i hcounted
        cases hstep
        exact ⟨_, rfl, rfl, .move _ (fun _ => by rw [hcounted]; rfl) nofun⟩
      · cases hstep
  | verifyPassword j =>
      simp only [loginStep] at hstep
      split at hstep
      · rename_i row hread
        cases hstep
        have hopen : r.phase.isOpen = true := by rw [hread]; rfl
        cases hok : h.accepts row r.password with
        | true => exact ⟨_, rfl, rfl, .move _ (fun _ => hopen) nofun⟩
        | false => exact ⟨_, rfl, rfl, .verify _ hopen rfl nofun⟩
      · cases hstep
  | recordAttempt j =>
      simp only [loginStep] at hstep
      split at hstep
      · rename_i row ok _
        cases hstep
        refine ⟨_, rfl, rfl, .record _ ok rfl ?_⟩
        rintro rfl
        exact nofun
      · cases hstep
  | raiseLogin j =>
      simp only [loginStep] at hstep
      split at hstep
      · cases hstep
      · cases hstep
        exact ⟨_, rfl, rfl, .move _ nofun nofun⟩
  | _ => exact nomatch hstep

/-- A step of `setup_post` leaves the logins alone. -/
theorem setupStep_frame {i : ℕ} {r : SetupRequest} (hstep : setupStep h s i r a = some s') :
    s'.now = s.now ∧ s'.logins = s.logins ∧ s'.loginAttempts = s.loginAttempts := by
  cases a
  all_goals simp only [setupStep] at hstep
  all_goals repeat' split at hstep
  all_goals cases hstep
  all_goals exact ⟨rfl, rfl, rfl⟩

theorem login_cases (hstep : webStep h s a = some s') : LoginStep s a s' := by
  cases a with
  | tick elapsed =>
      cases hstep
      exact .frame (Int.le_add_of_nonneg_right (Int.natCast_nonneg elapsed)) rfl rfl
  | login client username password =>
      cases hstep
      exact .arrive _ rfl rfl rfl rfl rfl
  | setup username password confirmPassword =>
      cases hstep
      exact .frame (Int.le_refl _) rfl rfl
  | countFailures i | readAdmin i | verifyPassword i | recordAttempt i | raiseLogin i =>
      obtain ⟨r, hr, hstep⟩ := Option.bind_eq_some_iff.mp hstep
      obtain ⟨r', hnow, hlogins, hmove⟩ := loginMove_of_step (fun j ha => by cases ha <;> rfl) hstep
      exact .request i r r' hr hnow hlogins hmove
  | countAdmins i | validate i csrf | insertAdmin i salt | raiseSetup i =>
      obtain ⟨r, hr, hstep⟩ := Option.bind_eq_some_iff.mp hstep
      obtain ⟨hnow, hlogins, hattempts⟩ := setupStep_frame hstep
      exact .frame (Int.le_of_eq hnow.symm) hlogins hattempts

/-! ### Logins -/

theorem LoginRequest.failedAfter_mono {start start' : ℤ} (hle : start ≤ start')
    (r : LoginRequest) (hr : r.failedAfter start' = true) : r.failedAfter start = true := by
  rw [LoginRequest.failedAfter, Option.any_eq_true] at hr ⊢
  obtain ⟨time, htime, hlt⟩ := hr
  exact ⟨time, htime, decide_eq_true (Int.lt_of_le_of_lt hle (of_decide_eq_true hlt))⟩

/-- Time takes failures out of the last 15 minutes. -/
theorem WebState.load_mono (hnow : s.now ≤ s'.now) (hlogins : s'.logins = s.logins) (ip : Str) :
    s'.load ip ≤ s.load ip := by
  rw [WebState.load, WebState.load, hlogins]
  refine List.countP_mono_left fun r _ hr => ?_
  rw [LoginRequest.countsToward, Bool.and_eq_true, Bool.or_eq_true] at hr ⊢
  exact ⟨hr.1, hr.2.imp_right (LoginRequest.failedAfter_mono (Int.sub_le_sub_right hnow _) r)⟩

/-- A request that did not count toward the load begins to only where it counts the failures. -/
theorem LoginMove.countsToward {i : ℕ} {r r' : LoginRequest} {attempts : List LoginAttempt}
    (hmove : LoginMove s a i r r' attempts) (ip : Str) (start : ℤ)
    (hr' : r'.countsToward ip start = true) :
    r.countsToward ip start = true ∨
      (a = .countFailures i ∧ r.ip = ip ∧ s.countFailures r.ip < 8) := by
  simp only [LoginRequest.countsToward, LoginRequest.failedAfter, Bool.and_eq_true,
    Bool.or_eq_true, decide_eq_true_eq] at hr' ⊢
  cases hmove with
  | count phase ha hopen _ =>
      rcases hr'.2 with hphase | hfailed
      · exact .inr ⟨ha, hr'.1, hopen hphase⟩
      · exact .inl ⟨hr'.1, .inr hfailed⟩
  | verify phase hopen _ _ => exact .inl ⟨hr'.1, .inl hopen⟩
  | move phase hopen _ => exact .inl ⟨hr'.1, hr'.2.imp_left hopen⟩
  | record phase ok hclosed _ =>
      exact .inl ⟨hr'.1, .inr (hr'.2.resolve_left (Bool.eq_false_iff.mp hclosed))⟩

/-- **A step that meets the condition keeps the load of each address.** -/
theorem load_step (hload : ∀ ip, s.load ip ≤ 8) (hmeet : s.GuardsMeet a)
    (hstep : webStep h s a = some s') (ip : Str) : s'.load ip ≤ 8 := by
  cases login_cases hstep with
  | frame hnow hlogins _ => exact Nat.le_trans (WebState.load_mono hnow hlogins ip) (hload ip)
  | arrive r hnow hlogins _ hphase hfailed =>
      have hnew : r.countsToward ip (s.now - loginWindow) = false := by
        rw [LoginRequest.countsToward, LoginRequest.failedAfter, hphase, hfailed]
        exact Bool.and_false _
      rw [WebState.load, hnow, hlogins, List.countP_append, List.countP_singleton, hnew]
      exact hload ip
  | request i r r' hr hnow hlogins hmove =>
      rw [WebState.load, hnow, hlogins]
      by_cases hcount : a = .countFailures i ∧ r.ip = ip ∧ s.countFailures r.ip < 8
      · obtain ⟨rfl, rfl, hlt⟩ := hcount
        exact Nat.le_trans (Pool.countP_set_le_succ hr) (hmeet r hr hlt)
      · refine Nat.le_trans (Pool.countP_set_le hr fun hr' => ?_) (hload ip)
        exact (hmove.countsToward ip _ hr').resolve_right hcount

theorem LoginRequest.countsToward_of_failedIn {ip : Str} {start now : ℤ}
    (hnow : now ≤ start + loginWindow) {r : LoginRequest} (hr : r.failedIn ip start = true) :
    r.countsToward ip (now - loginWindow) = true := by
  simp only [LoginRequest.failedIn, LoginRequest.countsToward, LoginRequest.failedAfter,
    Bool.and_eq_true, Bool.or_eq_true, Option.any_eq_true, decide_eq_true_eq] at hr ⊢
  obtain ⟨hip, time, htime, hlt, hle⟩ := hr
  exact ⟨hip, .inr ⟨time, htime, by omega⟩⟩

/-- **The load bounds the failures of any 15 minutes.** -/
theorem loginBounded_step (hbound : s.LoginBounded) (hload : ∀ ip, s'.load ip ≤ 8)
    (hstep : webStep h s a = some s') : s'.LoginBounded := by
  intro ip start
  cases login_cases hstep with
  | frame _ hlogins _ =>
      rw [hlogins]
      exact hbound ip start
  | arrive r hnow hlogins _ hphase hfailed =>
      have hnew : r.failedIn ip start = false := by
        rw [LoginRequest.failedIn, hfailed]
        exact Bool.and_false _
      rw [hlogins, List.countP_append, List.countP_singleton, hnew]
      exact hbound ip start
  | request i r r' hr hnow hlogins hmove =>
      by_cases hnew : r'.failedIn ip start = true → r.failedIn ip start = true
      · rw [hlogins]
        exact Nat.le_trans (Pool.countP_set_le hr hnew) (hbound ip start)
      · rw [Classical.not_imp] at hnew
        obtain ⟨hr', hold⟩ := hnew
        -- the new failure is of now, so that the 15 minutes are the last ones, or end later
        generalize s'.loginAttempts = attempts at hmove
        cases hmove with
        | count phase _ _ _ => exact absurd hr' hold
        | move phase _ _ => exact absurd hr' hold
        | record phase ok _ _ => exact absurd hr' hold
        | verify phase _ _ _ =>
            have hlast : s'.now ≤ start + loginWindow := by
              simp only [LoginRequest.failedIn, Option.any_some, Bool.and_eq_true,
                decide_eq_true_eq] at hr'
              rw [hnow]
              exact hr'.2.2
            refine Nat.le_trans (List.countP_mono_left fun x _ hx => ?_) (hload ip)
            exact LoginRequest.countsToward_of_failedIn hlast hx

/-! ### What a count sees -/

/-- The request has recorded its failure, which came after the second `start`. -/
def LoginRequest.recordedAfter (ip : Str) (start : ℤ) (r : LoginRequest) : Bool :=
  r.ip = ip && r.phase = .answered (.page invalidLogin) &&
    r.failedAt.any fun time => start < wholeSecond time

def LoginAttempt.failureAfter (ip : Str) (start : ℤ) (attempt : LoginAttempt) : Bool :=
  attempt.ip = ip && !attempt.success && start < attempt.attemptedAt

/-- Failures lie in the past, and each that is recorded has a row of its own or a later second. -/
structure AttemptInv (s : WebState) : Prop where
  past : ∀ r ∈ s.logins, ∀ time, r.failedAt = some time → time ≤ s.now
  recorded : ∀ ip start, s.logins.countP (·.recordedAfter ip start) ≤
    s.loginAttempts.countP (·.failureAfter ip start)

theorem LoginMove.past {i : ℕ} {r r' : LoginRequest} {attempts : List LoginAttempt}
    (hmove : LoginMove s a i r r' attempts)
    (hpast : ∀ time, r.failedAt = some time → time ≤ s.now) :
    ∀ time, r'.failedAt = some time → time ≤ s.now := by
  cases hmove with
  | count | move | record => exact hpast
  | verify =>
      intro time htime
      exact Int.le_of_eq (Option.some.inj htime).symm

theorem LoginRequest.recordedAfter_of_ne {ip : Str} {start : ℤ} {r : LoginRequest}
    (hphase : r.phase ≠ .answered (.page invalidLogin)) : r.recordedAfter ip start = false := by
  rw [LoginRequest.recordedAfter, decide_eq_false hphase, Bool.and_false, Bool.false_and]

theorem AttemptInv.recorded_request (hinv : AttemptInv s) {i : ℕ} {r r' : LoginRequest}
    {attempts : List LoginAttempt} (hr : s.logins[i]? = some r)
    (hmove : LoginMove s a i r r' attempts) (ip : Str) (start : ℤ) :
    (s.logins.set i r').countP (·.recordedAfter ip start) ≤
      attempts.countP (·.failureAfter ip start) := by
  have hleft : ∀ phase failedAt, phase ≠ .answered (.page invalidLogin) →
      (s.logins.set i { r with phase := phase, failedAt := failedAt }).countP
        (·.recordedAfter ip start) ≤ s.loginAttempts.countP (·.failureAfter ip start) := by
    intro phase failedAt hphase
    refine Nat.le_trans (Pool.countP_set_le hr fun hr' => ?_) (hinv.recorded ip start)
    rw [LoginRequest.recordedAfter_of_ne hphase] at hr'
    exact Bool.noConfusion hr'
  cases hmove with
  | count phase _ _ hphase => exact hleft phase r.failedAt hphase
  | verify phase _ _ hphase => exact hleft phase (some s.now) hphase
  | move phase _ hphase => exact hleft phase r.failedAt hphase
  | record phase ok _ hphase =>
      rw [List.countP_cons]
      cases ok with
      | true => exact Nat.le_trans (hleft phase r.failedAt (hphase rfl)) (Nat.le_add_right _ _)
      | false =>
          by_cases hrow : ({ r with phase := phase } : LoginRequest).recordedAfter ip start = true
          · -- the row is of the second of the failure or of a later one
            simp only [LoginRequest.recordedAfter, Bool.and_eq_true, decide_eq_true_eq,
              Option.any_eq_true] at hrow
            obtain ⟨⟨hip, -⟩, time, htime, hstart⟩ := hrow
            have hpast := hinv.past r (List.mem_of_getElem? hr) time htime
            have hsecond : start < wholeSecond s.now := by
              rw [wholeSecond] at hstart ⊢
              omega
            rw [if_pos (by simp [LoginAttempt.failureAfter, hip, hsecond])]
            exact Nat.le_trans (Pool.countP_set_le_succ hr)
              (Nat.add_le_add_right (hinv.recorded ip start) 1)
          · refine Nat.le_trans ?_ (Nat.le_add_right _ _)
            refine Nat.le_trans (Pool.countP_set_le hr fun hr' => ?_) (hinv.recorded ip start)
            exact absurd hr' hrow

theorem AttemptInv.step (hinv : AttemptInv s) (hstep : webStep h s a = some s') :
    AttemptInv s' := by
  cases login_cases hstep with
  | frame hnow hlogins hattempts =>
      constructor
      · intro r hr time htime
        exact Int.le_trans (hinv.past r (hlogins ▸ hr) time htime) hnow
      · rw [hlogins, hattempts]
        exact hinv.recorded
  | arrive r hnow hlogins hattempts hphase hfailed =>
      constructor
      · intro x hx time htime
        rw [hlogins, List.mem_append, List.mem_singleton] at hx
        rw [hnow]
        rcases hx with hx | rfl
        · exact hinv.past x hx time htime
        · exact nomatch hfailed.symm.trans htime
      · intro ip start
        have hnew : r.recordedAfter ip start = false := by
          rw [LoginRequest.recordedAfter, hfailed]
          exact Bool.and_false _
        rw [hlogins, hattempts, List.countP_append, List.countP_singleton, hnew]
        exact hinv.recorded ip start
  | request i r r' hr hnow hlogins hmove =>
      constructor
      · intro x hx time htime
        rw [hlogins] at hx
        rw [hnow]
        rcases List.mem_or_eq_of_mem_set hx with hx | rfl
        · exact hinv.past x hx time htime
        · exact hmove.past (hinv.past r (List.mem_of_getElem? hr)) time htime
      · rw [hlogins]
        exact hinv.recorded_request hr hmove

/-- The requests of an address that count are answered, with their failures recorded, and none of
these failures is in the second in which the 15 minutes begin. -/
def WebState.Settled (s : WebState) (ip : Str) : Prop :=
  ∀ r ∈ s.logins, r.countsToward ip (s.now - loginWindow) = true →
    r.recordedAfter ip (wholeSecond (s.now - loginWindow)) = true

/-- **A settled count sees all it stands for.** -/
theorem load_le_of_settled (hinv : AttemptInv s) {ip : Str} (hsettled : s.Settled ip) :
    s.load ip ≤ s.countFailures ip :=
  Nat.le_trans (List.countP_mono_left hsettled) (hinv.recorded ip _)

/-! ### Accounts -/

/-- What a step does to the accounts. -/
inductive SetupStep (s : WebState) (a : WebAction) (s' : WebState) : Prop where
  | frame (hadmins : s'.admins = s.admins) (hcreated : s'.created = s.created)
      (htaken : ∀ i salt r, a = .insertAdmin i salt → s.setups[i]? = some r →
        r.cleanUsername ∈ s.admins.map (·.username))
  | insert (i : ℕ) (salt : Str) (r : SetupRequest) (admin : Admin) (ha : a = .insertAdmin i salt)
      (hr : s.setups[i]? = some r) (hnew : r.cleanUsername ∉ s.admins.map (·.username))
      (hadmins : s'.admins = s.admins ++ [admin]) (hcreated : s'.created = s.created + 1)

theorem loginStep_frame {i : ℕ} {r : LoginRequest} (hstep : loginStep h s i r a = some s') :
    s'.admins = s.admins ∧ s'.created = s.created := by
  cases a
  all_goals simp only [loginStep] at hstep
  all_goals repeat' split at hstep
  all_goals cases hstep
  all_goals exact ⟨rfl, rfl⟩

theorem setup_cases (hstep : webStep h s a = some s') : SetupStep s a s' := by
  cases a with
  | tick | login | setup =>
      cases hstep
      exact .frame rfl rfl nofun
  | countFailures i | readAdmin i | verifyPassword i | recordAttempt i | raiseLogin i =>
      obtain ⟨r, hr, hstep⟩ := Option.bind_eq_some_iff.mp hstep
      obtain ⟨hadmins, hcreated⟩ := loginStep_frame hstep
      exact .frame hadmins hcreated nofun
  | countAdmins i | validate i csrf | raiseSetup i =>
      obtain ⟨r, hr, hstep⟩ := Option.bind_eq_some_iff.mp hstep
      simp only [setupStep] at hstep
      repeat' split at hstep
      all_goals cases hstep
      all_goals exact .frame rfl rfl nofun
  | insertAdmin i salt =>
      obtain ⟨r, hr, hstep⟩ := Option.bind_eq_some_iff.mp hstep
      simp only [setupStep] at hstep
      split at hstep
      · split at hstep
        · rename_i hmem
          cases hstep
          refine .frame rfl rfl ?_
          rintro _ _ r' ⟨⟩ hr'
          rwa [← Option.some.inj (hr.symm.trans hr')]
        · rename_i hnew
          cases hstep
          exact .insert i salt r _ rfl hr hnew rfl rfl
      · cases hstep

/-- No account has been created where there is none. -/
def WebState.CreatedFirst (s : WebState) : Prop := s.admins = [] → s.created = 0

theorem createdFirst_step (hfirst : s.CreatedFirst) (hstep : webStep h s a = some s') :
    s'.CreatedFirst := by
  cases setup_cases hstep with
  | frame hadmins hcreated _ =>
      intro hnil
      rw [hcreated]
      exact hfirst (hadmins ▸ hnil)
  | insert i salt r admin _ _ _ hadmins _ =>
      intro hnil
      rw [hadmins] at hnil
      exact absurd hnil (List.append_ne_nil_of_right_ne_nil _ (List.cons_ne_nil _ _))

/-- The account is inserted into an empty table, or its name is taken. -/
def InsertMeets (s : WebState) (a : WebAction) : Prop :=
  ∀ i salt r, a = .insertAdmin i salt → s.setups[i]? = some r →
    s.admins = [] ∨ r.cleanUsername ∈ s.admins.map (·.username)

theorem insertMeets_of_guardsMeet (hmeet : s.GuardsMeet a) : InsertMeets s a := by
  rintro i salt r rfl hr
  exact hmeet r hr

theorem created_step (hfirst : s.CreatedFirst) (hone : s.created ≤ 1) (hmeet : InsertMeets s a)
    (hstep : webStep h s a = some s') : s'.created ≤ 1 := by
  cases setup_cases hstep with
  | frame _ hcreated _ =>
      rw [hcreated]
      exact hone
  | insert i salt r admin ha hr hnew _ hcreated =>
      have hnil := (hmeet i salt r ha hr).resolve_right hnew
      rw [hcreated, hfirst hnil]

/-- The invariant of both guards. -/
structure GuardInv (s : WebState) : Prop where
  load : ∀ ip, s.load ip ≤ 8
  bounded : s.LoginBounded
  first : s.CreatedFirst
  created : s.created ≤ 1

theorem GuardInv.step (hinv : GuardInv s) (hmeet : s.GuardsMeet a)
    (hstep : webStep h s a = some s') : GuardInv s' where
  load := load_step hinv.load hmeet hstep
  bounded := loginBounded_step hinv.bounded (load_step hinv.load hmeet hstep) hstep
  first := createdFirst_step hinv.first hstep
  created := created_step hinv.first hinv.created (insertMeets_of_guardsMeet hmeet) hstep

theorem guardInv_webStart (now : ℤ) (admins : List Admin) (attempts : List LoginAttempt) :
    GuardInv (webStart now admins attempts) where
  load _ := Nat.zero_le _
  bounded _ _ := Nat.zero_le _
  first _ := rfl
  created := Nat.zero_le _

/-- All accounts were created by `setup_post`. -/
theorem created_eq_length_step (hall : s.created = s.admins.length)
    (hstep : webStep h s a = some s') : s'.created = s'.admins.length := by
  cases setup_cases hstep with
  | frame hadmins hcreated _ => rw [hcreated, hadmins, hall]
  | insert i salt r admin _ _ _ hadmins hcreated =>
      rw [hcreated, hadmins, List.length_append, hall]
      rfl

theorem created_step_iff (hall : s.created = s.admins.length) (hone : s.created ≤ 1)
    (hstep : webStep h s a = some s') : s'.created ≤ 1 ↔ InsertMeets s a := by
  constructor
  · intro hone'
    cases setup_cases hstep with
    | frame _ _ htaken => exact fun i salt r ha hr => .inr (htaken i salt r ha hr)
    | insert i salt r admin ha hr hnew _ hcreated =>
        refine fun _ _ _ _ _ => .inl (List.length_eq_zero_iff.mp ?_)
        omega
  · intro hmeet
    refine created_step (fun hnil => ?_) hone hmeet hstep
    rw [hall, hnil]
    rfl

end Step

/-! ### Every run -/

section Run

variable (h : PasswordHasher) (now : ℤ) (admins : List Admin) (attempts : List LoginAttempt)

/-- A count that comes when the address is settled meets the condition. -/
theorem guardsMeet_of_settled (actions : List WebAction) {s : WebState}
    (hrun : Runs.run (webStep h) (webStart now admins attempts) actions = some s) {i : ℕ}
    (hsettled : ∀ r, s.logins[i]? = some r → s.Settled r.ip) :
    s.GuardsMeet (.countFailures i) := by
  have hinv : AttemptInv s := by
    refine Runs.invariant_of_run (fun _ _ _ hinv hstep => AttemptInv.step hinv hstep) actions _ s
      ⟨fun _ hr => absurd hr List.not_mem_nil, fun _ _ => Nat.zero_le _⟩ hrun
  intro r hr hlt
  exact Nat.lt_of_le_of_lt (load_le_of_settled hinv (hsettled r hr)) hlt

/-- **In a database without accounts, at most one is created exactly when each is inserted into an
empty table or under a name that is taken.** -/
theorem created_le_one_iff (actions : List WebAction) {s : WebState}
    (hrun : Runs.run (webStep h) (webStart now [] attempts) actions = some s) :
    Runs.StepsMeet (webStep h) InsertMeets (webStart now [] attempts) actions ↔
      ∀ before t, before <+: actions →
        Runs.run (webStep h) (webStart now [] attempts) before = some t → t.created ≤ 1 :=
  Runs.stepsMeet_iff_forall_reached (fun _ _ _ hall _ hstep => created_eq_length_step hall hstep)
    (fun _ _ _ hall hone _ hstep => created_step_iff hall hone hstep) actions _ s rfl
    (Nat.zero_le _) (fun _ _ => trivial) hrun

end Run

/-! ### Nine logins and two setups

Nine requests with a wrong password count before one of them has failed, and two setups count
before one of them has inserted its account. -/

/-- A hash that is the password. -/
def plainHasher : PasswordHasher where
  hash password _ := password
  verify hash password := hash = password

def adminAccount : Admin := ⟨"admin".toList, "correct horse".toList⟩

def clientAt : Option Str := some "192.0.2.7".toList

def wrongLogin : WebAction := .login clientAt adminAccount.username "guess".toList

def nineLogins : List WebAction :=
  List.replicate 9 wrongLogin ++ (List.range 9).map .countFailures ++
    (List.range 9).map .readAdmin ++ (List.range 9).map .verifyPassword

def twoSetups : List WebAction :=
  [.setup "a".toList "correct horse".toList "correct horse".toList,
    .setup "b".toList "correct horse".toList "correct horse".toList, .countAdmins 0, .countAdmins 1,
    .validate 0 true, .validate 1 true, .insertAdmin 0 [], .insertAdmin 1 []]

/-- The failures of the client in the 15 minutes that end at `stop`. -/
def failuresUntil (stop : ℤ) (s : WebState) : ℕ :=
  s.logins.countP (·.failedIn (clientAddress clientAt) (stop - loginWindow))

/-- The whole of the `i`th login. -/
def loginInTurn (i : ℕ) : List WebAction :=
  [wrongLogin, .countFailures i, .readAdmin i, .verifyPassword i, .recordAttempt i]

/-- Nine logins in turn: eight at 0.9 seconds, and the last at 15 minutes and 0.1 seconds, when the
others are recorded in the second of the cutoff. -/
example : (Runs.run (webStep plainHasher) (webStart 900000 [adminAccount] [])
    ((List.range 8).flatMap loginInTurn ++ .tick 899200000 :: loginInTurn 8)).map
    (failuresUntil 900100000) = some 9 := by
  decide +kernel

end AlderpointDNS.Web
