import AlderpointDNS.Web.SignedIn
import Mathlib.Data.List.Nodup

/-!
# Who is signed out

`secrets.token_urlsafe` draws an id that has not been drawn before: `freshStep` takes no other
step.  A drawn id is then in at most one place, the table or a request that is about to insert it.

* `IdInv` — the places of an id are at most the times it has been drawn, and that is once;
* **`removed_never_admitted`** — a session that has left the table lets nobody in who comes later;
* **`session_stays_iff`** — a session stays, with its account and its token, exactly as long as no
  step signs it out; `SessionState.signsOut` says which steps do.
-/

namespace AlderpointDNS.Web

open Text

namespace SessionState

/-- An id that the step draws is new. -/
def FreshDraws (s : SessionState) : SessionAction → Prop
  | .advance i d => ∀ r ∈ s.requests[i]?, r.phase.draws = true → d.sid ∉ s.issued
  | _ => True

instance (s : SessionState) : (a : SessionAction) → Decidable (s.FreshDraws a)
  | .advance i d =>
      inferInstanceAs (Decidable (∀ r ∈ s.requests[i]?, r.phase.draws = true → d.sid ∉ s.issued))
  | .tick _ | .arrive _ _ | .raise _ | .createAccount _ _ _ | .resetPassword _ _ _
  | .revokeAll _ => .isTrue trivial

/-- The requests that are about to insert the id. -/
def inserting (s : SessionState) (sid : Str) : ℕ :=
  s.requests.countP fun r => r.phase.creates = some sid

/-- An id that is neither in the table nor about to be. -/
structure Gone (s : SessionState) (sid : Str) : Prop where
  issued : sid ∈ s.issued
  absent : sid ∉ s.ids
  inserting : s.inserting sid = 0

/-- The session is there, with its account and its token. -/
def Has (s : SessionState) (sid : Str) (adminId : Option ℕ) (csrf : Str) : Prop :=
  ∃ row ∈ s.sessions, row.id = sid ∧ row.adminId = adminId ∧ row.csrf = csrf

end SessionState

def freshStep (c : CookieSerializer) (h : PasswordHasher) (s : SessionState)
    (a : SessionAction) : Option SessionState :=
  if s.FreshDraws a then sessionStep c h s a else none

/-- Each place of an id is one that has been drawn. -/
structure IdInv (s : SessionState) : Prop where
  held : ∀ sid, s.ids.count sid + s.inserting sid ≤ s.issued.count sid
  nodup : s.issued.Nodup

section Ids

variable {c : CookieSerializer} {h : PasswordHasher} {s s' : SessionState} {a : SessionAction}
  {rows : List Session} {sid : Str}

theorem ids_touchSession (ts : ℤ) :
    (touchSession sid ts rows).map (·.id) = rows.map (·.id) := by
  rw [touchSession, List.map_map]
  refine List.map_congr_left fun row _ => ?_
  dsimp only [Function.comp_apply]
  split <;> rfl

theorem ids_learnPassword (adminId : ℕ) (keep : Option Str) (password : Str) :
    (learnPassword adminId keep password rows).map (·.id) = rows.map (·.id) := by
  rw [learnPassword, List.map_map]
  refine List.map_congr_left fun row _ => ?_
  dsimp only [Function.comp_apply]
  split <;> rfl

/-- The numbers of an id in the table, in the request and among the drawn ones. -/
theorem count_of_move {r r' : SessionRequest} {d : Draw} {accounts : List Account}
    {issued : List Str} (hmove : RequestMove c h s r d r' accounts rows issued) (sid : Str) :
    (rows.map (·.id)).count sid + (if r'.phase.creates = some sid then 1 else 0)
        + s.issued.count sid ≤
      s.ids.count sid + (if r.phase.creates = some sid then 1 else 0) + issued.count sid ∧
    (if r'.phase.creates = some sid then 1 else 0) + s.issued.count sid ≤
      (if r.phase.creates = some sid then 1 else 0) + issued.count sid := by
  -- a request that stops creating leaves at most the rows that were there
  have hsub : ∀ phase : SessionPhase, phase.creates = none → ∀ rows' : List Session,
      (rows'.map (·.id)).Sublist s.ids →
      (rows'.map (·.id)).count sid + (if phase.creates = some sid then 1 else 0)
          + s.issued.count sid ≤
        s.ids.count sid + (if r.phase.creates = some sid then 1 else 0) + s.issued.count sid ∧
      (if phase.creates = some sid then 1 else 0) + s.issued.count sid ≤
        (if r.phase.creates = some sid then 1 else 0) + s.issued.count sid := by
    intro phase hphase rows' hrows
    have hcount := hrows.count_le sid
    rw [hphase, if_neg (by simp)]
    omega
  have hfilter : ∀ p : Session → Bool, ((s.sessions.filter p).map (·.id)).Sublist s.ids :=
    fun p => List.filter_sublist.map _
  cases hmove with
  | move phase hplain =>
      exact hsub phase (SessionPhase.creates_of_plain hplain) _ (List.Sublist.refl _)
  | sign session id | find session id admin =>
      exact hsub _ rfl _ (List.Sublist.refl _)
  | enter session admin busy =>
      refine hsub _ rfl _ ?_
      cases busy with
      | true => exact List.Sublist.refl _
      | false =>
          rw [if_neg Bool.false_ne_true, ids_touchSession]
          exact List.Sublist.refl _
  | read username => exact hsub _ rfl _ (List.Sublist.refl _)
  | draw row anonCutoff authCutoff answer hid hdraws _ =>
      have hnone : r.phase.creates = none := by
        revert hdraws
        cases r.phase <;> first | exact fun _ => rfl | exact fun hdraws => Bool.noConfusion hdraws
      rw [List.count_cons, hnone, SessionPhase.creates, hid]
      simp only [Option.some.injEq, beq_iff_eq, reduceCtorEq, if_false, SessionState.ids]
      omega
  | insert row anonCutoff authCutoff answer hphase _ =>
      have hcount := (hfilter fun row => !row.expired anonCutoff authCutoff).count_le sid
      rw [hphase, List.map_append, List.count_append, List.map_singleton, List.count_singleton]
      simp only [SessionPhase.creates, Option.some.injEq, beq_iff_eq, reduceCtorEq, if_false,
        pruneSessions]
      omega
  | signOut | revoke => exact hsub _ rfl _ (hfilter _)
  | change admin keep csrf current password confirm _ _ =>
      refine hsub _ rfl _ ?_
      rw [ids_learnPassword]
      exact hfilter _

/-- The numbers of an id after a step. -/
theorem count_step (hstep : sessionStep c h s a = some s') (sid : Str) :
    s'.ids.count sid + s'.inserting sid + s.issued.count sid ≤
      s.ids.count sid + s.inserting sid + s'.issued.count sid ∧
    s'.inserting sid + s.issued.count sid ≤ s.inserting sid + s'.issued.count sid := by
  have hrevoked : ∀ adminId, ((revokeAllSessions adminId s.sessions).map (·.id)).count sid ≤
      s.ids.count sid := fun adminId => (List.filter_sublist.map _).count_le sid
  cases session_cases hstep with
  | stay | tick | create => exact ⟨le_rfl, le_rfl⟩
  | arrive cookie route =>
      simp only [SessionState.inserting, SessionState.ids, List.countP_append,
        List.countP_singleton, SessionPhase.creates, reduceCtorEq, decide_false,
        Bool.false_eq_true, if_false]
      omega
  | request i r r' d accounts sessions issued _ hr hmove =>
      have hcount := count_of_move hmove sid
      have hset := Pool.countP_set_add (fun r => decide (r.phase.creates = some sid)) hr r'
      simp only [decide_eq_true_eq] at hset
      simp only [SessionState.inserting, SessionState.ids] at hcount ⊢
      omega
  | raise i r hr =>
      have hle : (s.requests.set i { r with phase := .answered .raised }).countP
          (fun r => decide (r.phase.creates = some sid)) ≤
            s.requests.countP fun r => decide (r.phase.creates = some sid) :=
        Pool.countP_set_le hr fun hp => by simp [SessionPhase.creates] at hp
      simp only [SessionState.inserting, SessionState.ids, SessionState.move,
        SessionState.setRequest]
      omega
  | revokeAll username admin | reset username password salt admin =>
      have hle := hrevoked admin.id
      simp only [SessionState.inserting, SessionState.ids] at hle ⊢
      omega

theorem issued_step (hfresh : s.FreshDraws a) (hstep : sessionStep c h s a = some s') :
    s.issued ⊆ s'.issued ∧ (s.issued.Nodup → s'.issued.Nodup) := by
  cases session_cases hstep with
  | request i r r' d accounts sessions issued ha hr hmove =>
      rw [ha] at hfresh
      have hnew := hfresh r hr
      cases hmove with
      | draw row _ _ _ _ hdraws _ =>
          exact ⟨List.subset_cons_self _ _, fun hnodup => List.nodup_cons.mpr ⟨hnew hdraws, hnodup⟩⟩
      | _ => exact ⟨List.Subset.refl _, id⟩
  | _ => exact ⟨List.Subset.refl _, id⟩

theorem freshStep_eq_some (hstep : freshStep c h s a = some s') :
    s.FreshDraws a ∧ sessionStep c h s a = some s' := by
  unfold freshStep at hstep
  split at hstep
  · rename_i hfresh
    exact ⟨hfresh, hstep⟩
  · cases hstep

theorem IdInv.step (hinv : IdInv s) (hstep : freshStep c h s a = some s') : IdInv s' := by
  obtain ⟨hfresh, hstep⟩ := freshStep_eq_some hstep
  refine ⟨fun sid => ?_, (issued_step hfresh hstep).2 hinv.nodup⟩
  have hcount := (count_step hstep sid).1
  have hheld := hinv.held sid
  omega

theorem idInv_sessionStart (now : ℤ) (accounts : List Account) :
    IdInv (sessionStart now accounts) :=
  ⟨fun _ => le_rfl, List.nodup_nil⟩

/-- An id that has been drawn is drawn once. -/
theorem IdInv.count_issued (hinv : IdInv s) (hmem : sid ∈ s.issued) : s.issued.count sid = 1 :=
  List.count_eq_one_of_mem hinv.nodup hmem

theorem IdInv.mem_issued (hinv : IdInv s) (hmem : sid ∈ s.ids) : sid ∈ s.issued := by
  have hpos := List.count_pos_iff.mpr hmem
  have hheld := hinv.held sid
  exact List.count_pos_iff.mp (by omega)

theorem Gone.step (hinv : IdInv s) (hgone : s.Gone sid) (hstep : freshStep c h s a = some s') :
    s'.Gone sid := by
  have hinv' := hinv.step hstep
  obtain ⟨hfresh, hstep⟩ := freshStep_eq_some hstep
  have hmem := (issued_step hfresh hstep).1 hgone.issued
  have hcount := (count_step hstep sid).1
  have habsent := List.count_eq_zero.mpr hgone.absent
  have hinserting := hgone.inserting
  have hissued := hinv.count_issued hgone.issued
  have hissued' := hinv'.count_issued hmem
  exact ⟨hmem, List.count_eq_zero.mp (by omega), by omega⟩

/-- **A session that leaves the table is gone.** -/
theorem gone_of_leaves (hinv : IdInv s) (hmem : sid ∈ s.ids) (hstep : freshStep c h s a = some s')
    (habsent : sid ∉ s'.ids) : s'.Gone sid := by
  have hinv' := hinv.step hstep
  obtain ⟨hfresh, hstep⟩ := freshStep_eq_some hstep
  have hmem' := (issued_step hfresh hstep).1 (hinv.mem_issued hmem)
  have hpos := List.count_pos_iff.mpr hmem
  have hheld := hinv.held sid
  have hcount := (count_step hstep sid).2
  have hissued := hinv.count_issued (hinv.mem_issued hmem)
  have hissued' := hinv'.count_issued hmem'
  exact ⟨hmem', habsent, by omega⟩

/-- A session that was there is there, or gone for good. -/
structure ThereOrGone (sid : Str) (s : SessionState) : Prop where
  ids : IdInv s
  there : sid ∈ s.ids ∨ s.Gone sid

theorem ThereOrGone.step (hinv : ThereOrGone sid s) (hstep : freshStep c h s a = some s') :
    ThereOrGone sid s' := by
  refine ⟨hinv.ids.step hstep, ?_⟩
  rcases hinv.there with hmem | hgone
  · by_cases hmem' : sid ∈ s'.ids
    · exact .inl hmem'
    · exact .inr (gone_of_leaves hinv.ids hmem hstep hmem')
  · exact .inr (Gone.step hinv.ids hgone hstep)

/-! ### Nobody comes in under a session that is gone -/

/-- The requests from the `n`th on have not been let in under the session. -/
def Barred (n : ℕ) (sid : Str) (s : SessionState) : Prop :=
  ∀ j, n ≤ j → ∀ r, s.requests[j]? = some r →
    r.admittedBy ≠ some sid ∧ r.phase.reads ≠ some sid

theorem signedSession_mem {cookie : Option Str} {session : Session}
    (hread : s.signedSession c cookie = some session) : session.id ∈ s.ids := by
  obtain ⟨_, -, hfind⟩ := Option.bind_eq_some_iff.mp hread
  exact List.mem_map_of_mem (List.mem_of_find?_eq_some hfind)

/-- A statement lets its request in only under a session that it has read, and it reads only
sessions that are there. -/
theorem barred_of_move {r r' : SessionRequest} {d : Draw} {accounts : List Account}
    {issued : List Str} (habsent : sid ∉ s.ids)
    (hr : r.admittedBy ≠ some sid ∧ r.phase.reads ≠ some sid)
    (hmove : RequestMove c h s r d r' accounts rows issued) :
    r'.admittedBy ≠ some sid ∧ r'.phase.reads ≠ some sid := by
  cases hmove with
  | move phase hplain =>
      refine ⟨hr.1, ?_⟩
      rw [SessionPhase.reads_of_plain hplain]
      exact Option.some_ne_none sid |>.symm
  | sign session id hread =>
      refine ⟨hr.1, fun hsid => habsent ?_⟩
      rw [← Option.some.inj hsid]
      exact signedSession_mem hread
  | find session id admin hphase =>
      refine ⟨hr.1, ?_⟩
      rw [hphase] at hr
      exact hr.2
  | enter session admin busy hphase =>
      rw [hphase] at hr
      exact ⟨hr.2, (Option.some_ne_none sid).symm⟩
  | read | draw | insert | signOut | revoke | change =>
      exact ⟨hr.1, (Option.some_ne_none sid).symm⟩

theorem Barred.step {n : ℕ} (habsent : sid ∉ s.ids) (hbarred : Barred n sid s)
    (hstep : sessionStep c h s a = some s') : Barred n sid s' := by
  have hnone : none ≠ some sid := (Option.some_ne_none sid).symm
  have hset : ∀ (i : ℕ) (r r' : SessionRequest), s.requests[i]? = some r →
      (r.admittedBy ≠ some sid ∧ r.phase.reads ≠ some sid →
        r'.admittedBy ≠ some sid ∧ r'.phase.reads ≠ some sid) →
      ∀ j, n ≤ j → ∀ x, (s.requests.set i r')[j]? = some x →
        x.admittedBy ≠ some sid ∧ x.phase.reads ≠ some sid := by
    intro i r r' hr himp j hj x hx
    rw [List.getElem?_set] at hx
    split at hx
    · rename_i hij
      split at hx
      · cases hx
        exact himp (hbarred i (hij ▸ hj) r hr)
      · cases hx
    · exact hbarred j hj x hx
  cases session_cases hstep with
  | stay | tick | create | revokeAll | reset => exact hbarred
  | arrive cookie route =>
      intro j hj x hx
      rw [List.getElem?_append] at hx
      split at hx
      · exact hbarred j hj x hx
      · rw [List.mem_singleton.mp (List.mem_of_getElem? hx)]
        exact ⟨hnone, hnone⟩
  | request i r r' d accounts sessions issued _ hr hmove =>
      exact hset i r r' hr fun hbarred => barred_of_move habsent hbarred hmove
  | raise i r hr => exact hset i r _ hr fun hbarred => ⟨hbarred.1, hnone⟩

/-- A session that is gone, and lets no request in from the `n`th on. -/
structure ShutOut (n : ℕ) (sid : Str) (s : SessionState) : Prop where
  ids : IdInv s
  gone : s.Gone sid
  barred : Barred n sid s

theorem ShutOut.step {n : ℕ} (hinv : ShutOut n sid s) (hstep : freshStep c h s a = some s') :
    ShutOut n sid s' where
  ids := hinv.ids.step hstep
  gone := Gone.step hinv.ids hinv.gone hstep
  barred := hinv.barred.step hinv.gone.absent (freshStep_eq_some hstep).2

/-- **A session that has left the table lets nobody in who comes later.** -/
theorem removed_never_admitted (c : CookieSerializer) (h : PasswordHasher) (now : ℤ)
    (accounts : List Account) (before middle after : List SessionAction) {s t u : SessionState}
    (hs : Runs.run (freshStep c h) (sessionStart now accounts) before = some s)
    (ht : Runs.run (freshStep c h) s middle = some t)
    (hu : Runs.run (freshStep c h) t after = some u) {sid : Str} (hin : sid ∈ s.ids)
    (hout : sid ∉ t.ids) :
    sid ∉ u.ids ∧ ∀ j, t.requests.length ≤ j → ∀ r, u.requests[j]? = some r →
      r.admittedBy ≠ some sid := by
  have hstart : IdInv s := Runs.invariant_of_run (fun _ _ _ hinv hstep => hinv.step hstep) before _ s
    (idInv_sessionStart now accounts) hs
  have hlater : ThereOrGone sid t := Runs.invariant_of_run
    (fun _ _ _ hinv hstep => ThereOrGone.step hinv hstep) middle s t ⟨hstart, .inl hin⟩ ht
  have hnone : Barred t.requests.length sid t := by
    intro j hj r hr
    rw [List.getElem?_eq_none hj] at hr
    cases hr
  have hall : ShutOut t.requests.length sid u := Runs.invariant_of_run
    (fun _ _ _ hinv hstep => ShutOut.step hinv hstep) after t u
    ⟨hlater.ids, hlater.there.resolve_left hout, hnone⟩ hu
  exact ⟨hall.gone.absent, fun j hj r hr => (hall.barred j hj r hr).1⟩

def sessionPage (i : ℕ) : List SessionAction :=
  .arrive (browserCookie "cookie1") (.guarded none) ::
    List.replicate 3 (.advance i ⟨[], [], [], false⟩)

def sessionLogout (i : ℕ) : List SessionAction :=
  [.arrive (browserCookie "cookie1") .logout, .advance i ⟨[], [], [], false⟩]

/-- The state after the actions, in a database with one account. -/
def stateAfter (actions : List SessionAction) : SessionState :=
  (Runs.run (freshStep twoCookies plainHasher) (sessionStart 0 oneAccount) actions).getD
    (sessionStart 0 oneAccount)

/-- A page before the logout, and one that comes after it with the same cookie. -/
theorem removed_never_admitted_logout :
    ((stateAfter (firstLogin ++ sessionPage 1)).requests[1]?).bind (·.admittedBy) =
        some "s1".toList ∧
      ∀ r, (stateAfter (firstLogin ++ sessionLogout 1 ++
          [.arrive (browserCookie "cookie1") (.guarded none),
            .advance 2 ⟨[], [], [], false⟩])).requests[2]? = some r →
        r.admittedBy ≠ some "s1".toList := by
  refine ⟨by decide +kernel, ?_⟩
  refine (removed_never_admitted twoCookies plainHasher 0 oneAccount firstLogin (sessionLogout 1)
    [.arrive (browserCookie "cookie1") (.guarded none), .advance 2 ⟨[], [], [], false⟩]
    (s := stateAfter firstLogin) (t := stateAfter (firstLogin ++ sessionLogout 1)) ?_ ?_ ?_ ?_
    ?_).2 2 ?_
  all_goals decide +kernel

/-! ### Who signs a session out -/

/-- The next statement of the request takes the session out of the table. -/
def SessionRequest.signsOut (c : CookieSerializer) (s : SessionState) (sid : Str)
    (r : SessionRequest) : Bool :=
  match r.phase, r.route with
  | .arrived, .logout => s.cookieSession c r.cookie = some sid
  | .creating _ anonCutoff authCutoff _, _ =>
      s.sessions.any fun row => row.id = sid && row.expired anonCutoff authCutoff
  | .keeping admin keep, .revokeSessions _ =>
      s.sessions.any fun row => row.id = sid && row.isOther admin.id keep
  | .accepted admin keep, .changePassword _ _ _ _ =>
      s.sessions.any fun row => row.id = sid && row.isOther admin.id keep
  | _, _ => false

/-- The session belongs to the account that a recovery command is for. -/
def SessionState.recovers (s : SessionState) (sid : Str) (username : Option Str) : Bool :=
  (s.resolveAdmin username).any fun admin =>
    s.sessions.any fun row => row.id = sid && row.adminId = some admin.id

/-- A session is signed out by a logout with its cookie, by a revocation or a change of the password
through another session of its account, by a recovery command for its account, or by the creation
of a session when it is too old. -/
def SessionState.signsOut (c : CookieSerializer) (s : SessionState) (sid : Str) :
    SessionAction → Bool
  | .advance i _ => (s.requests[i]?).any (·.signsOut c s sid)
  | .revokeAll username => s.recovers sid username
  | .resetPassword username password _ =>
      (validatePasswordLength password).isNone && s.recovers sid username
  | _ => false

/-- The session has a row with the property. -/
theorem any_row_iff {p : Session → Bool} :
    (s.sessions.any fun row => row.id = sid && p row) = true ↔
      ∃ row ∈ s.sessions, row.id = sid ∧ p row = true := by
  simp only [List.any_eq_true, Bool.and_eq_true, decide_eq_true_eq]

theorem IdInv.nodup_ids (hinv : IdInv s) : s.ids.Nodup := by
  rw [List.nodup_iff_count_le_one]
  intro sid
  have hheld := hinv.held sid
  have hdrawn := List.nodup_iff_count_le_one.mp hinv.nodup sid
  omega

/-- A session that a request is about to insert is not in the table. -/
theorem IdInv.not_mem_of_creating (hinv : IdInv s) {i : ℕ} {r : SessionRequest}
    (hr : s.requests[i]? = some r) {new : Session} (hcreates : r.phase.creates = some new.id) :
    new.id ∉ s.ids := by
  intro hmem
  have hpos := List.count_pos_iff.mpr hmem
  have hheld := hinv.held new.id
  have hdrawn := List.nodup_iff_count_le_one.mp hinv.nodup new.id
  have hinserting : 0 < s.inserting new.id :=
    List.countP_pos_iff.mpr ⟨r, List.mem_of_getElem? hr, decide_eq_true hcreates⟩
  omega

/-- The id is not among the rows that a filter leaves when its row is not. -/
theorem not_mem_filter_ids (hnodup : s.ids.Nodup) {p : Session → Bool} {row : Session}
    (hrow : row ∈ s.sessions) (hp : p row = false) :
    row.id ∉ (s.sessions.filter p).map (·.id) := by
  intro hmem
  obtain ⟨row', hrow', hid⟩ := List.mem_map.mp hmem
  obtain ⟨hrow', hp'⟩ := List.mem_filter.mp hrow'
  rw [List.inj_on_of_nodup_map hnodup hrow' hrow hid, hp] at hp'
  exact Bool.noConfusion hp'

theorem signsOut_request (hinv : IdInv s) {i : ℕ} {r : SessionRequest} {d : Draw}
    (hr : s.requests[i]? = some r) (hsigns : r.signsOut c s sid = true)
    (hstep : advance c h s i r d = some s') : sid ∉ s'.ids := by
  unfold SessionRequest.signsOut at hsigns
  split at hsigns
  · rename_i hphase hroute
    have hsigns := of_decide_eq_true hsigns
    simp only [advance, hphase, hroute, hsigns, Option.some.injEq] at hstep
    subst hstep
    simp [SessionState.ids]
  · rename_i new anonCutoff authCutoff answer hphase
    obtain ⟨row, hrow, rfl, hexpired⟩ := any_row_iff.mp hsigns
    have hcreates : r.phase.creates = some new.id := by
      rw [hphase]
      rfl
    have hnew := hinv.not_mem_of_creating hr hcreates
    have hgone := not_mem_filter_ids hinv.nodup_ids hrow
      (p := fun row => !row.expired anonCutoff authCutoff) (by rw [hexpired]; rfl)
    have hpruned : new.id ∉ (pruneSessions anonCutoff authCutoff s.sessions).map (·.id) :=
      fun hmem => hnew ((List.filter_sublist.map _).subset hmem)
    simp only [advance, hphase, if_neg hpruned, Option.some.injEq] at hstep
    subst hstep
    rw [SessionState.ids, List.map_append, List.mem_append, not_or]
    refine ⟨hgone, fun hmem => hnew ?_⟩
    have hid : row.id = new.id := List.mem_singleton.mp hmem
    exact hid ▸ List.mem_map_of_mem hrow
  · rename_i admin keep csrf hphase hroute
    obtain ⟨row, hrow, rfl, hother⟩ := any_row_iff.mp hsigns
    simp only [advance, hphase, keepingStep, hroute, Option.some.injEq] at hstep
    subst hstep
    exact not_mem_filter_ids hinv.nodup_ids hrow (by rw [hother]; rfl)
  · rename_i admin keep csrf current new confirm hphase hroute
    obtain ⟨row, hrow, rfl, hother⟩ := any_row_iff.mp hsigns
    simp only [advance, hphase, hroute, changePassword, Option.some.injEq] at hstep
    subst hstep
    rw [SessionState.ids, ids_learnPassword]
    exact not_mem_filter_ids hinv.nodup_ids hrow (by rw [hother]; rfl)
  · exact Bool.noConfusion hsigns

theorem signsOut_absent (hinv : IdInv s) (hsigns : s.signsOut c sid a = true)
    (hstep : sessionStep c h s a = some s') : sid ∉ s'.ids := by
  -- a recovery command leaves no session of the account
  have hall : ∀ {username admin}, s.recovers sid username = true →
      s.resolveAdmin username = some admin →
        sid ∉ (revokeAllSessions admin.id s.sessions).map (·.id) := by
    intro username admin hrecovers hadmin
    rw [SessionState.recovers, hadmin, Option.any_some, any_row_iff] at hrecovers
    obtain ⟨row, hrow, rfl, hadmin⟩ := hrecovers
    exact not_mem_filter_ids hinv.nodup_ids hrow (by simpa using hadmin)
  cases a with
  | advance i d =>
      obtain ⟨r, hr, hstep⟩ := Option.bind_eq_some_iff.mp hstep
      rw [SessionState.signsOut, hr, Option.any_some] at hsigns
      exact signsOut_request hinv hr hsigns hstep
  | revokeAll username =>
      obtain ⟨admin, hadmin, rfl⟩ := Option.map_eq_some_iff.mp hstep
      exact hall hsigns hadmin
  | resetPassword username password salt =>
      obtain ⟨admin, hadmin, rfl⟩ := Option.map_eq_some_iff.mp hstep
      obtain ⟨hvalid, hrecovers⟩ := (Bool.and_eq_true_iff).mp hsigns
      simp only [resetPassword, Option.isNone_iff_eq_none.mp hvalid]
      exact hall hrecovers hadmin
  | _ => exact Bool.noConfusion hsigns

/-- A session that the step does not sign out keeps its account and its token. -/
theorem has_of_not_signsOut {adminId : Option ℕ} {csrf : Str} (hhas : s.Has sid adminId csrf)
    (hstays : s.signsOut c sid a ≠ true) (hstep : sessionStep c h s a = some s') :
    s'.Has sid adminId csrf := by
  obtain ⟨row, hrow, hid, hadmin, hcsrf⟩ := hhas
  -- the row is not among those that a filter takes out
  have hfilter : ∀ p : Session → Bool,
      ((s.sessions.any fun row => row.id = sid && p row) = true → s.signsOut c sid a = true) →
      row ∈ s.sessions.filter fun row => !p row := by
    intro p hp
    refine List.mem_filter.mpr ⟨hrow, ?_⟩
    rw [Bool.not_eq_true', ← Bool.not_eq_true]
    exact fun htrue => hstays (hp (any_row_iff.mpr ⟨row, hrow, hid, htrue⟩))
  cases session_cases hstep with
  | stay | tick | arrive | raise | create => exact ⟨row, hrow, hid, hadmin, hcsrf⟩
  | request i r r' d accounts sessions issued ha hr hmove =>
      have hsigns : s.signsOut c sid a = r.signsOut c s sid := by
        rw [ha, SessionState.signsOut, hr, Option.any_some]
      rw [hsigns] at hstays hfilter
      cases hmove with
      | move | sign | find | read | draw => exact ⟨row, hrow, hid, hadmin, hcsrf⟩
      | enter session admin busy =>
          cases busy with
          | true => exact ⟨row, hrow, hid, hadmin, hcsrf⟩
          | false =>
              refine ⟨_, List.mem_map_of_mem hrow, ?_⟩
              split <;> exact ⟨hid, hadmin, hcsrf⟩
      | insert new anonCutoff authCutoff answer hphase =>
          refine ⟨row, List.mem_append_left _ (hfilter _ fun hany => ?_), hid, hadmin, hcsrf⟩
          rw [SessionRequest.signsOut, hphase]
          exact hany
      | signOut sid' hphase hroute hsid =>
          refine ⟨row, List.mem_filter.mpr ⟨hrow, decide_eq_true fun heq => hstays ?_⟩, hid, hadmin,
            hcsrf⟩
          rw [SessionRequest.signsOut, hphase, hroute, ← hid, heq]
          exact decide_eq_true hsid
      | revoke admin keep csrf' hphase hroute =>
          refine ⟨row, hfilter _ fun hany => ?_, hid, hadmin, hcsrf⟩
          rw [SessionRequest.signsOut, hphase, hroute]
          exact hany
      | change admin keep csrf' current password confirm hphase hroute =>
          have hmem : row ∈ revokeOtherSessions admin.id keep s.sessions := by
            refine hfilter _ fun hany => ?_
            rw [SessionRequest.signsOut, hphase, hroute]
            exact hany
          refine ⟨_, List.mem_map_of_mem hmem, ?_⟩
          split <;> exact ⟨hid, hadmin, hcsrf⟩
  | revokeAll username admin ha hresolve =>
      refine ⟨row, List.mem_filter.mpr ⟨hrow, decide_eq_true fun heq => hstays ?_⟩, hid, hadmin,
        hcsrf⟩
      rw [ha, SessionState.signsOut, SessionState.recovers, hresolve, Option.any_some]
      exact any_row_iff.mpr ⟨row, hrow, hid, decide_eq_true heq⟩
  | reset username password salt admin ha hresolve hvalid =>
      refine ⟨row, List.mem_filter.mpr ⟨hrow, decide_eq_true fun heq => hstays ?_⟩, hid, hadmin,
        hcsrf⟩
      rw [ha, SessionState.signsOut, SessionState.recovers, hresolve, Option.any_some, hvalid]
      exact any_row_iff.mpr ⟨row, hrow, hid, decide_eq_true heq⟩

theorem mem_ids_of_has {adminId : Option ℕ} {csrf : Str} (hhas : s.Has sid adminId csrf) :
    sid ∈ s.ids := by
  obtain ⟨row, hrow, rfl, -⟩ := hhas
  exact List.mem_map_of_mem hrow

/-- **A session stays, with its account and its token, exactly as long as no step signs it out.** -/
theorem session_stays_iff (c : CookieSerializer) (h : PasswordHasher) (now : ℤ)
    (accounts : List Account) (before actions : List SessionAction) {s t : SessionState}
    (hs : Runs.run (freshStep c h) (sessionStart now accounts) before = some s)
    (ht : Runs.run (freshStep c h) s actions = some t) {sid csrf : Str} {adminId : Option ℕ}
    (hhas : s.Has sid adminId csrf) :
    Runs.StepsMeet (freshStep c h) (fun u a => u.signsOut c sid a ≠ true) s actions ↔
      ∀ pre u, pre <+: actions → Runs.run (freshStep c h) s pre = some u →
        u.Has sid adminId csrf := by
  have hinv : IdInv s := Runs.invariant_of_run (fun _ _ _ hinv hstep => hinv.step hstep) before _ s
    (idInv_sessionStart now accounts) hs
  have hstep : ∀ u a u', IdInv u → u.Has sid adminId csrf → True →
      freshStep c h u a = some u' → (u'.Has sid adminId csrf ↔ u.signsOut c sid a ≠ true) := by
    intro u a u' hinv hhas _ hstep
    obtain ⟨-, hstep⟩ := freshStep_eq_some hstep
    exact ⟨fun hhas' hsigns => signsOut_absent hinv hsigns hstep (mem_ids_of_has hhas'),
      fun hstays => has_of_not_signsOut hhas hstays hstep⟩
  exact Runs.stepsMeet_iff_forall_reached (fun _ _ _ hinv _ hstep => IdInv.step hinv hstep) hstep
    actions s t hinv hhas (fun _ _ => trivial) ht

/-- A page leaves the session, and its own logout signs it out. -/
theorem session_stays_iff_page :
    (stateAfter (firstLogin ++ sessionPage 1)).Has "s1".toList (some 1) "t1".toList ∧
      ¬Runs.StepsMeet (freshStep twoCookies plainHasher)
        (fun u a => u.signsOut twoCookies "s1".toList a ≠ true) (stateAfter firstLogin)
          (sessionLogout 1) := by
  have hhas : (stateAfter firstLogin).Has "s1".toList (some 1) "t1".toList := by
    unfold SessionState.Has
    decide +kernel
  refine ⟨(session_stays_iff twoCookies plainHasher 0 oneAccount firstLogin (sessionPage 1)
    (s := stateAfter firstLogin) (t := stateAfter (firstLogin ++ sessionPage 1)) ?_ ?_ hhas).mp ?_
    _ _ (List.prefix_refl _) ?_, ?_⟩
  all_goals decide +kernel

end Ids

end AlderpointDNS.Web
