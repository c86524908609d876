import AlderpointDNS.Web.Sessions

/-!
# Who is signed in

`administration_change_password` deletes the other sessions of the account, so that who knows only
the old password is signed out.  A login reads the account and opens its session in two
transactions, and the route reads its own session twice.

* **`signedIn_know_password`** — who is signed in opened the session with the password that the
  account now has, or has set it through the session, in every run in which no login to the account
  is under way while its password changes, and the session that changes it is still there;
* `old_password_survives` — a login that is under way, and a session that is signed out between the
  two reads, leave a session of the old password.
-/

namespace AlderpointDNS.Web

open Text

/-- The password is the one that the account has now. -/
def Knows (h : PasswordHasher) (accounts : List Account) (adminId : ℕ) (password : Option Str) :
    Prop :=
  ∃ account ∈ accounts, account.id = adminId ∧
    password.any (h.verify account.passwordHash) = true

/-- What a login under way has read, or is about to insert, is of the present password. -/
def SessionPhase.Opens (h : PasswordHasher) (accounts : List Account) : SessionPhase → Prop
  | .credentials (some account) => account ∈ accounts
  | .creating row _ _ _ => ∀ id, row.adminId = some id → Knows h accounts id row.password
  | _ => True

namespace SessionState

/-- Whoever is signed in to an account knows its password. -/
def SignedInKnow (h : PasswordHasher) (s : SessionState) : Prop :=
  ∀ row ∈ s.sessions, ∀ id, row.adminId = some id → Knows h s.accounts id row.password

/-- No login to the account is under way. -/
def LoginsSettled (s : SessionState) (adminId : ℕ) : Prop :=
  ∀ r ∈ s.requests, r.phase.opensFor ≠ some adminId

instance (s : SessionState) (adminId : ℕ) : Decidable (s.LoginsSettled adminId) :=
  inferInstanceAs (Decidable (∀ r ∈ s.requests, r.phase.opensFor ≠ some adminId))

/-- The password that is about to change: no login to the account is under way, and the session was
there when `administration_change_password` read it again. -/
def ChangeMeets (s : SessionState) : SessionPhase → Prop
  | .accepted admin keep => keep ≠ none ∧ s.LoginsSettled admin.id
  | _ => True

instance (s : SessionState) : (phase : SessionPhase) → Decidable (s.ChangeMeets phase)
  | .accepted admin keep =>
      inferInstanceAs (Decidable (keep ≠ none ∧ s.LoginsSettled admin.id))
  | .arrived | .credentials _ | .creating _ _ _ _ | .rendering _ _ | .signed _ _ | .found _ _
  | .admitted _ | .checked _ | .keeping _ _ | .answered _ => .isTrue trivial

/-- A step that changes a password meets the condition. -/
def ChangesMeet (s : SessionState) : SessionAction → Prop
  | .advance i _ => ∀ r ∈ s.requests[i]?, s.ChangeMeets r.phase
  | .resetPassword username _ _ =>
      ∀ admin ∈ s.resolveAdmin username, s.LoginsSettled admin.id
  | _ => True

instance (s : SessionState) : (a : SessionAction) → Decidable (s.ChangesMeet a)
  | .advance i _ => inferInstanceAs (Decidable (∀ r ∈ s.requests[i]?, s.ChangeMeets r.phase))
  | .resetPassword username _ _ =>
      inferInstanceAs (Decidable (∀ admin ∈ s.resolveAdmin username, s.LoginsSettled admin.id))
  | .tick _ | .arrive _ _ | .raise _ | .createAccount _ _ _ | .revokeAll _ => .isTrue trivial

end SessionState

structure PasswordInv (h : PasswordHasher) (s : SessionState) : Prop where
  rows : s.SignedInKnow h
  opens : ∀ r ∈ s.requests, r.phase.Opens h s.accounts

section Passwords

variable {c : CookieSerializer} {h : PasswordHasher} {s s' : SessionState} {a : SessionAction}
  {accounts accounts' : List Account} {rows : List Session} {adminId : ℕ}

theorem Knows.mono (hsub : accounts ⊆ accounts') {password : Option Str}
    (hknows : Knows h accounts adminId password) : Knows h accounts' adminId password := by
  obtain ⟨account, hmem, hid, hverify⟩ := hknows
  exact ⟨account, hsub hmem, hid, hverify⟩

theorem SessionPhase.Opens.mono (hsub : accounts ⊆ accounts') {phase : SessionPhase}
    (hopens : phase.Opens h accounts) : phase.Opens h accounts' := by
  cases phase with
  | credentials row =>
      cases row with
      | none => trivial
      | some account => exact hsub hopens
  | creating row _ _ _ => exact fun id hid => (hopens id hid).mono hsub
  | _ => trivial

theorem opens_of_opensFor_none {phase : SessionPhase} (hnone : phase.opensFor = none) :
    phase.Opens h accounts := by
  cases phase with
  | credentials row =>
      cases row with
      | none => trivial
      | some account => cases hnone
  | creating row _ _ _ =>
      intro id hid
      rw [SessionPhase.opensFor] at hnone
      exact nomatch hnone.symm.trans hid
  | _ => trivial

/-! ### A new hash -/

theorem mem_setPasswordHash {account : Account} {hash : Str} (hmem : account ∈ accounts)
    (hid : account.id ≠ adminId) : account ∈ setPasswordHash adminId hash accounts :=
  List.mem_map.mpr ⟨account, hmem, if_neg hid⟩

theorem Knows.setPasswordHash_of_ne {id : ℕ} {hash : Str} {password : Option Str}
    (hid : id ≠ adminId) (hknows : Knows h accounts id password) :
    Knows h (setPasswordHash adminId hash accounts) id password := by
  obtain ⟨account, hmem, rfl, hverify⟩ := hknows
  exact ⟨account, mem_setPasswordHash hmem hid, rfl, hverify⟩

/-- The new password is known to who sets it. -/
theorem knows_setPasswordHash (hhash : ∀ password salt, h.verify (h.hash password salt) password)
    {account : Account} (hmem : account ∈ accounts) (password salt : Str) :
    Knows h (setPasswordHash account.id (h.hash password salt) accounts) account.id
      (some password) :=
  ⟨_, List.mem_map.mpr ⟨account, hmem, if_pos rfl⟩, rfl, hhash password salt⟩

theorem SessionPhase.Opens.setPasswordHash {phase : SessionPhase} {hash : Str}
    (hopens : phase.Opens h accounts) (hsettled : phase.opensFor ≠ some adminId) :
    phase.Opens h (setPasswordHash adminId hash accounts) := by
  cases phase with
  | credentials row =>
      cases row with
      | none => trivial
      | some account =>
          exact mem_setPasswordHash hopens fun hid => hsettled (congrArg some hid)
  | creating row _ _ _ =>
      intro id hid
      refine (hopens id hid).setPasswordHash_of_ne ?_
      rintro rfl
      exact hsettled hid
  | _ => trivial

/-! ### The rows that are left -/

/-- The rows have the account and the password of rows that were there. -/
theorem SignedInKnow_of_rows {rows' : List Session}
    (hrows : ∀ row ∈ rows, ∀ id, row.adminId = some id → Knows h accounts id row.password)
    (hold : ∀ row' ∈ rows', ∃ row ∈ rows, row'.adminId = row.adminId ∧
      row'.password = row.password) :
    ∀ row ∈ rows', ∀ id, row.adminId = some id → Knows h accounts id row.password := by
  intro row' hmem id hid
  obtain ⟨row, hrow, hadmin, hpassword⟩ := hold row' hmem
  rw [hpassword]
  exact hrows row hrow id (hadmin ▸ hid)

theorem exists_of_mem_touchSession {sid : Str} {ts : ℤ} {row' : Session}
    (hmem : row' ∈ touchSession sid ts rows) :
    ∃ row ∈ rows, row'.adminId = row.adminId ∧ row'.password = row.password := by
  obtain ⟨row, hrow, rfl⟩ := List.mem_map.mp hmem
  refine ⟨row, hrow, ?_⟩
  split <;> exact ⟨rfl, rfl⟩

/-- A password that is set through a session that is there. -/
theorem signedInKnow_change (hhash : ∀ password salt, h.verify (h.hash password salt) password)
    (hrows : ∀ row ∈ rows, ∀ id, row.adminId = some id → Knows h accounts id row.password)
    {keep : Option Str} (hkeep : keep ≠ none) (password salt : Str) :
    ∀ row ∈ learnPassword adminId keep password (revokeOtherSessions adminId keep rows),
      ∀ id, row.adminId = some id →
        Knows h (setPasswordHash adminId (h.hash password salt) accounts) id row.password := by
  obtain ⟨sid, rfl⟩ := Option.ne_none_iff_exists'.mp hkeep
  intro row' hmem id hid
  obtain ⟨row, hrow, rfl⟩ := List.mem_map.mp hmem
  obtain ⟨hrow, hother⟩ := List.mem_filter.mp hrow
  by_cases hadmin : row.adminId = some adminId
  · -- the other sessions of the account are gone
    have hsid : sid = row.id := by
      by_contra hne
      have hisOther : row.isOther adminId (some sid) = true := by
        simp [Session.isOther, hadmin, Ne.symm hne]
      rw [hisOther] at hother
      exact Bool.noConfusion hother
    rw [if_pos ⟨hadmin, congrArg some hsid⟩] at hid ⊢
    obtain ⟨account, haccount, rfl, -⟩ := hrows row hrow adminId hadmin
    obtain rfl : account.id = id := Option.some.inj (hadmin.symm.trans hid)
    exact knows_setPasswordHash hhash haccount password salt
  · rw [if_neg fun hboth => hadmin hboth.1] at hid ⊢
    refine (hrows row hrow id hid).setPasswordHash_of_ne ?_
    rintro rfl
    exact hadmin hid

theorem signedInKnow_reset {hash : Str}
    (hrows : ∀ row ∈ rows, ∀ id, row.adminId = some id → Knows h accounts id row.password) :
    ∀ row ∈ revokeAllSessions adminId rows, ∀ id, row.adminId = some id →
      Knows h (setPasswordHash adminId hash accounts) id row.password := by
  intro row hmem id hid
  obtain ⟨hrow, hne⟩ := List.mem_filter.mp hmem
  refine (hrows row hrow id hid).setPasswordHash_of_ne ?_
  rintro rfl
  exact of_decide_eq_true hne hid

/-! ### Every step -/

theorem PasswordInv.request (hhash : ∀ password salt, h.verify (h.hash password salt) password)
    (hinv : PasswordInv h s) {i : ℕ} {r r' : SessionRequest} {d : Draw}
    (hr : s.requests[i]? = some r)
    (hmeet : ∀ admin keep, r.phase = .accepted admin keep →
      keep ≠ none ∧ s.LoginsSettled admin.id)
    {issued : List Str} (hmove : RequestMove c h s r d r' accounts rows issued) :
    (∀ row ∈ rows, ∀ id, row.adminId = some id → Knows h accounts id row.password) ∧
      ∀ x ∈ s.requests.set i r', x.phase.Opens h accounts := by
  -- the other requests are as they were, and so is what they have read
  have hset : r'.phase.Opens h s.accounts →
      ∀ x ∈ s.requests.set i r', x.phase.Opens h s.accounts := by
    intro hopens x hx
    rcases List.mem_or_eq_of_mem_set hx with hx | rfl
    · exact hinv.opens x hx
    · exact hopens
  cases hmove with
  | move phase hplain =>
      exact ⟨hinv.rows, hset (opens_of_opensFor_none (SessionPhase.opensFor_of_plain hplain))⟩
  | sign | find => exact ⟨hinv.rows, hset trivial⟩
  | enter session admin busy _ =>
      refine ⟨?_, hset trivial⟩
      cases busy with
      | true => exact hinv.rows
      | false => exact SignedInKnow_of_rows hinv.rows fun _ => exists_of_mem_touchSession
  | read username =>
      refine ⟨hinv.rows, hset ?_⟩
      cases hfind : s.findAccount username with
      | none => trivial
      | some account => exact List.mem_of_find?_eq_some hfind
  | draw row anonCutoff authCutoff answer _ _ hopens =>
      refine ⟨hinv.rows, hset fun id hid => ?_⟩
      obtain ⟨account, hphase, hid, hverify⟩ := hopens id hid
      have hmem := hinv.opens r (List.mem_of_getElem? hr)
      rw [hphase] at hmem
      exact ⟨account, hmem, hid, hverify⟩
  | insert row anonCutoff authCutoff answer hphase _ =>
      refine ⟨fun row' hmem => ?_, hset trivial⟩
      rcases List.mem_append.mp hmem with hmem | hmem
      · exact hinv.rows row' (List.mem_filter.mp hmem).1
      · have hopens := hinv.opens r (List.mem_of_getElem? hr)
        rw [hphase] at hopens
        rw [List.mem_singleton.mp hmem]
        exact hopens
  | signOut =>
      exact ⟨fun row hmem => hinv.rows row (List.mem_filter.mp hmem).1, hset trivial⟩
  | revoke =>
      exact ⟨fun row hmem => hinv.rows row (List.mem_filter.mp hmem).1, hset trivial⟩
  | change admin keep csrf current password confirm hphase _ =>
      obtain ⟨hkeep, hsettled⟩ := hmeet admin keep hphase
      refine ⟨signedInKnow_change hhash hinv.rows hkeep password d.salt, fun x hx => ?_⟩
      rcases List.mem_or_eq_of_mem_set hx with hx | rfl
      · exact (hinv.opens x hx).setPasswordHash (hsettled x hx)
      · trivial

theorem PasswordInv.step (hhash : ∀ password salt, h.verify (h.hash password salt) password)
    (hinv : PasswordInv h s) (hmeet : s.ChangesMeet a) (hstep : sessionStep c h s a = some s') :
    PasswordInv h s' := by
  cases session_cases hstep with
  | stay => exact hinv
  | tick elapsed => exact ⟨hinv.rows, hinv.opens⟩
  | arrive cookie route =>
      refine ⟨hinv.rows, fun x hx => ?_⟩
      rcases List.mem_append.mp hx with hx | hx
      · exact hinv.opens x hx
      · rw [List.mem_singleton.mp hx]
        trivial
  | request i r r' d accounts sessions issued ha hr hmove =>
      rw [ha] at hmeet
      have hmeets : ∀ admin keep, r.phase = .accepted admin keep →
          keep ≠ none ∧ s.LoginsSettled admin.id := by
        intro admin keep hphase
        have hchange : s.ChangeMeets r.phase := hmeet r hr
        rwa [hphase] at hchange
      obtain ⟨hrows, hopens⟩ := hinv.request hhash hr hmeets hmove
      exact ⟨hrows, hopens⟩
  | raise i r hr =>
      refine ⟨hinv.rows, fun x hx => ?_⟩
      rcases List.mem_or_eq_of_mem_set hx with hx | rfl
      · exact hinv.opens x hx
      · trivial
  | create account =>
      have hsub : s.accounts ⊆ s.accounts ++ [account] := List.subset_append_left _ _
      exact ⟨fun row hrow id hid => (hinv.rows row hrow id hid).mono hsub,
        fun x hx => (hinv.opens x hx).mono hsub⟩
  | revokeAll username admin =>
      exact ⟨fun row hrow => hinv.rows row (List.mem_filter.mp hrow).1, hinv.opens⟩
  | reset username password salt admin ha hadmin =>
      rw [ha] at hmeet
      have hsettled : s.LoginsSettled admin.id := hmeet admin hadmin
      exact ⟨signedInKnow_reset hinv.rows,
        fun x hx => (hinv.opens x hx).setPasswordHash (hsettled x hx)⟩

/-- `admin` has signed in, and so does a second browser. -/
def browserCookie (name : String) : Option Str := some name.toList

/-- Two cookies, and the sessions that they carry. -/
def twoCookies : CookieSerializer where
  dumps sid _ := sid
  loads raw _ :=
    if raw = "cookie1".toList then some "s1".toList
    else if raw = "cookie2".toList then some "s2".toList else none

def draw1 : Draw := ⟨"s1".toList, "t1".toList, [], false⟩

def draw2 : Draw := ⟨"s2".toList, "t2".toList, [], false⟩

def oneAccount : List Account := [⟨1, "admin".toList, "correct horse".toList⟩]

def loginRoute : Route := .login "admin".toList "correct horse".toList

def changeRoute : Route :=
  .changePassword "t1".toList "correct horse".toList "battery staple".toList
    "battery staple".toList

def firstLogin : List SessionAction :=
  .arrive none loginRoute :: List.replicate 3 (.advance 0 draw1)

/-- The second login is answered before the password changes. -/
def changeAfterLogin : List SessionAction :=
  firstLogin ++ .arrive none loginRoute :: List.replicate 3 (.advance 1 draw2) ++
    .arrive (browserCookie "cookie1") changeRoute ::
      List.replicate 7 (.advance 2 ⟨[], [], [], false⟩)

/-- The second login has read the account before the password changes. -/
def changeDuringLogin : List SessionAction :=
  firstLogin ++ [.arrive none loginRoute, .advance 1 draw2,
    .arrive (browserCookie "cookie1") changeRoute] ++
      List.replicate 7 (.advance 2 ⟨[], [], [], false⟩) ++ List.replicate 2 (.advance 1 draw2)

/-- The session that changes the password is signed out after `check_csrf`. -/
def changeDuringLogout : List SessionAction :=
  firstLogin ++ .arrive none loginRoute :: List.replicate 3 (.advance 1 draw2) ++
    .arrive (browserCookie "cookie1") changeRoute ::
      List.replicate 4 (.advance 2 ⟨[], [], [], false⟩) ++
    [.arrive (browserCookie "cookie1") .logout, .advance 3 ⟨[], [], [], false⟩] ++
      List.replicate 3 (.advance 2 ⟨[], [], [], false⟩)

/-- The sessions whose password is not the one of their account. -/
def outdated (h : PasswordHasher) (s : SessionState) : List Str :=
  (s.sessions.filter fun row => row.adminId.any fun id =>
    !s.accounts.any fun account =>
      account.id = id && row.password.any (h.verify account.passwordHash)).map (·.id)

theorem old_password_survives :
    (Runs.run (sessionStep twoCookies plainHasher) (sessionStart 0 oneAccount)
      changeDuringLogin).map (outdated plainHasher) = some ["s2".toList] ∧
    (Runs.run (sessionStep twoCookies plainHasher) (sessionStart 0 oneAccount)
      changeDuringLogout).map (outdated plainHasher) = some ["s2".toList] := by
  constructor <;> decide +kernel

end Passwords

end AlderpointDNS.Web
