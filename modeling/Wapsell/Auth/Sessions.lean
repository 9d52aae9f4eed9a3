import Wapsell.Lib.Run
import Wapsell.Auth.Service

/-!
# Sessions over whole runs

A log of what was issued and logged out is kept beside the service; it is
not in the program. In every reachable state the session store holds, of
the sessions the log says are open, those that have not expired, and
nothing the log does not know. So what `authenticate` answers can be read
off the log and the clock.

The log is what the sentence about validity speaks of: issued, not
logged out, not expired. The store is smaller, because `authenticate`
deletes an expired session when it meets one, and a session that nobody
asks for stays although it has expired. The invariant says how the two
are related, and the theorem about runs follows from it at the last
state.

What this does not establish: that a user who is removed loses the open
sessions. The service has no call that removes one.
-/

namespace Wapsell.Auth

open Lib Py

/-- What happened to a token. -/
inductive Event
  | issued (token : String) (user : User) (expiresAt : Datetime)
  | loggedOut (token : String)
  deriving DecidableEq, Repr

/-- The repositories, the clock of the last call, and the log, the newest event first. The log and
the clock are ghosts: the service reads neither. -/
structure AuthSystem where
  users : Users := Dict.empty
  sessions : Sessions := Dict.empty
  clock : Datetime
  log : List Event := []

/-- No users, no sessions. -/
def AuthSystem.init (start : Datetime) : AuthSystem := { clock := start }

/-- A call on the service, with what it draws. -/
inductive AuthCall
  | register (draw : UserDraw) (email password : String) (role : UserRole)
      (tenantId : Option String)
  | login (email password : String) (draw : SessionDraw)
  | logout (token : String)
  | authenticate (token : Option String)

/-- The token was issued. -/
def Issued (log : List Event) (token : String) : Prop :=
  ∃ user expiresAt, .issued token user expiresAt ∈ log

/-- An earlier login of the user issued the token until `expiresAt`, and nothing has logged it out
since. It speaks of the log alone. -/
def LoggedIn (log : List Event) (token : String) (user : User) (expiresAt : Datetime) : Prop :=
  ∃ later earlier, log = later ++ .issued token user expiresAt :: earlier ∧
    .loggedOut token ∉ later

/-- Some event of the log issued the token. -/
def issuedIn (log : List Event) (token : String) : Bool :=
  log.any fun e => match e with
    | .issued t _ _ => t = token
    | .loggedOut _ => false

section Step

variable (U : Unicode) (B : Bcrypt) (duration : Int)

/-- A call at a time; the clock does not go back, ids are new, and a token is not empty and was never
issued. A call that raises changes what `authenticate` deletes, and nothing else. -/
def authStep (s : AuthSystem) (call : AuthCall × Datetime) : Option AuthSystem :=
  if call.2 < s.clock then none
  else match call.1 with
    | .register draw email password role tenantId =>
      if (s.users.get? draw.id).isSome then none
      else match register U B s.users draw email password role tenantId with
        | .error _ => some { s with clock := call.2 }
        | .ok (_, users) => some { s with users, clock := call.2 }
    | .login email password draw =>
      if draw.token = "" ∨ issuedIn s.log draw.token then none
      else match login U B duration s.users s.sessions email password draw call.2 with
        | .error _ => some { s with clock := call.2 }
        | .ok (user, session, sessions) => some
          { s with
            sessions, clock := call.2
            log := .issued session.token user session.expiresAt :: s.log }
    | .logout token => some
      { s with
        sessions := (logout s.sessions token).2, clock := call.2
        log := .loggedOut token :: s.log }
    | .authenticate token => some
      { s with sessions := (authenticate s.users s.sessions token call.2).2, clock := call.2 }

end Step

/-! ## The log -/

theorem issuedIn_iff {log : List Event} {token : String} :
    issuedIn log token = true ↔ Issued log token := by
  rw [issuedIn, List.any_eq_true]
  constructor
  · rintro ⟨e, he, htoken⟩
    cases e with
    | issued t user expiresAt =>
      cases of_decide_eq_true htoken
      exact ⟨user, expiresAt, he⟩
    | loggedOut t => cases htoken
  · rintro ⟨user, expiresAt, he⟩
    exact ⟨_, he, decide_eq_true rfl⟩

theorem LoggedIn.issued {log : List Event} {token : String} {user : User} {expiresAt : Datetime}
    (h : LoggedIn log token user expiresAt) : Issued log token := by
  obtain ⟨later, earlier, rfl, -⟩ := h
  exact ⟨user, expiresAt, List.mem_append_right _ List.mem_cons_self⟩

/-- One event more. -/
theorem loggedIn_cons {e : Event} {log : List Event} {token : String} {user : User}
    {expiresAt : Datetime} : LoggedIn (e :: log) token user expiresAt ↔
      e = .issued token user expiresAt ∨
        e ≠ .loggedOut token ∧ LoggedIn log token user expiresAt := by
  constructor
  · rintro ⟨later, earlier, hlog, hnot⟩
    cases later with
    | nil =>
      cases hlog
      exact .inl rfl
    | cons e' later =>
      cases hlog
      rw [List.mem_cons, not_or] at hnot
      exact .inr ⟨fun h => hnot.1 h.symm, later, earlier, rfl, hnot.2⟩
  · rintro (rfl | ⟨hne, later, earlier, rfl, hnot⟩)
    · exact ⟨[], log, rfl, List.not_mem_nil⟩
    · refine ⟨e :: later, earlier, rfl, ?_⟩
      rw [List.mem_cons, not_or]
      exact ⟨fun h => hne h.symm, hnot⟩

/-! ## The invariant -/

/-- What the stores and the log say of each other. -/
structure AuthSystem.Inv (s : AuthSystem) : Prop where
  /-- A stored session is one the log says is open. -/
  stored : ∀ token session, s.sessions.get? token = some session →
    ∃ user, LoggedIn s.log token user session.expiresAt ∧ session.userId = user.id
  /-- One the log says is open is stored until it expires. -/
  live : ∀ token user expiresAt, LoggedIn s.log token user expiresAt → s.clock < expiresAt →
    ∃ session, s.sessions.get? token = some session ∧ session.userId = user.id ∧
      session.expiresAt = expiresAt
  /-- The user of a login is still there, as it was. -/
  users : ∀ token user expiresAt, .issued token user expiresAt ∈ s.log →
    s.users.get? user.id = some user
  /-- No token is empty. -/
  tokens : ¬ Issued s.log ""
  /-- A user is under its id. -/
  userId : ∀ k user, s.users.get? k = some user → user.id = k

theorem AuthSystem.Inv.init (start : Datetime) : (AuthSystem.init start).Inv where
  stored _ _ h := by cases h
  live _ _ _ h := by
    obtain ⟨_, _, h, -⟩ := h
    exact absurd h.symm (List.append_ne_nil_of_right_ne_nil _ (List.cons_ne_nil _ _))
  users _ _ _ h := by cases h
  tokens := by
    rintro ⟨_, _, h⟩
    cases h
  userId _ _ h := by cases h

/-- The user of an open session. -/
theorem AuthSystem.Inv.userOf {s : AuthSystem} (h : s.Inv) {token : String} {user : User}
    {expiresAt : Datetime} (hl : LoggedIn s.log token user expiresAt) :
    s.users.get? user.id = some user := by
  obtain ⟨later, earlier, hlog, -⟩ := hl
  refine h.users token user expiresAt ?_
  rw [hlog]
  exact List.mem_append_right _ List.mem_cons_self

/-! ## What `authenticate` answers -/

/-- **One call.** A token is accepted exactly when the log says it is open and it has not expired.

The token may be missing from the request, in which case nothing is accepted. -/
theorem authenticate_eq_ok_iff {s : AuthSystem} (h : s.Inv) {now : Datetime} (hnow : s.clock ≤ now)
    {token : Option String} {user : User} :
    (authenticate s.users s.sessions token now).1 = .ok user ↔
      ∃ t expiresAt, token = some t ∧ LoggedIn s.log t user expiresAt ∧ now < expiresAt := by
  constructor
  · intro hok
    unfold authenticate at hok
    split at hok
    · cases hok
    · next t ht =>
      obtain ⟨htoken, -⟩ := Option.filter_eq_some_iff.mp ht
      split at hok
      · cases hok
      · next session hsession =>
        split at hok
        · cases hok
        · next hfresh =>
          split at hok
          · cases hok
          · next found hfound =>
            cases hok
            obtain ⟨user', hl, hid⟩ := h.stored t session hsession
            have huser := h.userOf hl
            rw [← hid] at huser
            cases huser.symm.trans hfound
            exact ⟨t, session.expiresAt, htoken, hl, Int.not_le.mp hfresh⟩
  · rintro ⟨t, expiresAt, rfl, hl, hlt⟩
    obtain ⟨session, hsession, hid, hexpires⟩ :=
      h.live t user expiresAt hl (Int.lt_of_le_of_lt hnow hlt)
    have hne : t ≠ "" := by
      rintro rfl
      exact h.tokens hl.issued
    have hfilter : (some t).filter (fun t => decide (t ≠ "")) = some t := by
      rw [Option.filter_some, if_pos (decide_eq_true hne)]
    have hfound : s.users.get session.userId = some user := by
      rw [hid]
      exact h.userOf hl
    unfold authenticate
    rw [hfilter]
    simp only [Sessions.get, hsession, hexpires, if_neg (Int.not_le.mpr hlt), hfound]

/-! ## One call -/

section Calls

variable {U : Unicode} {B : Bcrypt} {duration : Int}

theorem register_eq_ok {users users' : Users} {draw : UserDraw} {email password : String}
    {role : UserRole} {tenantId : Option String} {user : User}
    (h : register U B users draw email password role tenantId = .ok (user, users')) :
    user.id = draw.id ∧ users' = users.set draw.id user := by
  simp only [register, bind, Except.bind] at h
  split at h
  · cases h
  · split at h
    · cases h
    · split at h
      · cases h
      · split at h
        · cases h
        · next users₁ hadd =>
          cases h
          unfold Users.add at hadd
          split at hadd
          · cases hadd
          · cases hadd
            exact ⟨rfl, rfl⟩

theorem login_eq_ok {users : Users} {sessions sessions' : Sessions} {email password : String}
    {draw : SessionDraw} {now : Datetime} {user : User} {session : Session}
    (h : login U B duration users sessions email password draw now =
      .ok (user, session, sessions')) :
    user ∈ users.values ∧ session.token = draw.token ∧ session.userId = user.id ∧
      sessions' = sessions.set draw.token session := by
  unfold login at h
  split at h
  · cases h
  · next found hfound =>
    split at h
    · cases h
    · split at h
      · cases h
      · cases h
        exact ⟨List.mem_of_find?_eq_some hfound, rfl, rfl, rfl⟩

/-- What a call of `authenticate` deletes is a session that has expired, or whose user is gone. -/
theorem authenticate_sessions (users : Users) (sessions : Sessions) (token : Option String)
    (now : Datetime) :
    (authenticate users sessions token now).2 = sessions ∨
      ∃ t session, sessions.get? t = some session ∧
        (session.expiresAt ≤ now ∨ users.get? session.userId = none) ∧
          (authenticate users sessions token now).2 = sessions.erase t := by
  unfold authenticate
  split
  · exact .inl rfl
  · next t ht =>
    split
    · exact .inl rfl
    · next session hsession =>
      split
      · next hexpired => exact .inr ⟨t, session, hsession, .inl hexpired, rfl⟩
      · split
        · next hgone => exact .inr ⟨t, session, hsession, .inr hgone, rfl⟩
        · exact .inl rfl

/-- Time passes. -/
theorem AuthSystem.Inv.tick {s : AuthSystem} (h : s.Inv) {now : Datetime} (hnow : s.clock ≤ now) :
    AuthSystem.Inv { s with clock := now } :=
  { h with
    live := fun token user expiresAt hl hlt =>
      h.live token user expiresAt hl (Int.lt_of_le_of_lt hnow hlt) }

theorem AuthSystem.Inv.register {s : AuthSystem} (h : s.Inv) {user : User}
    (hnew : s.users.get? user.id = none) :
    AuthSystem.Inv { s with users := s.users.set user.id user } :=
  { h with
    users := fun token other expiresAt he => by
      have hother := h.users token other expiresAt he
      have hne : user.id ≠ other.id := by
        intro hid
        rw [← hid, hnew] at hother
        cases hother
      exact (Dict.get?_set_ne _ _ hne).trans hother
    userId := Dict.Forall.set h.userId rfl }

theorem AuthSystem.Inv.login {s : AuthSystem} (h : s.Inv) {user : User} {session : Session}
    (huser : user ∈ s.users.values) (hid : session.userId = user.id) (hne : session.token ≠ "")
    (hnew : ¬ Issued s.log session.token) :
    AuthSystem.Inv
      { s with
        sessions := s.sessions.set session.token session
        log := .issued session.token user session.expiresAt :: s.log } where
  stored token stored hstored := by
    rcases Dict.get?_set_eq_some hstored with ⟨rfl, rfl⟩ | ⟨-, hold⟩
    · exact ⟨user, loggedIn_cons.mpr (.inl rfl), hid⟩
    · obtain ⟨user', hl, hid'⟩ := h.stored token stored hold
      exact ⟨user', loggedIn_cons.mpr (.inr ⟨fun e => (by cases e), hl⟩), hid'⟩
  live token user' expiresAt hl hlt := by
    rcases loggedIn_cons.mp hl with hevent | ⟨-, hold⟩
    · cases hevent
      exact ⟨session, Dict.get?_set_self _ _ _, hid, rfl⟩
    · have hother : session.token ≠ token := fun e => hnew (e ▸ hold.issued)
      obtain ⟨stored, hstored, hrest⟩ := h.live token user' expiresAt hold hlt
      exact ⟨stored, (Dict.get?_set_ne _ _ hother).trans hstored, hrest⟩
  users token user' expiresAt he := by
    rcases List.mem_cons.mp he with hevent | hold
    · cases hevent
      obtain ⟨k, hk⟩ := Dict.mem_values_iff.mp huser
      show s.users.get? user.id = some user
      rw [h.userId k user hk, hk]
    · exact h.users token user' expiresAt hold
  tokens := by
    rintro ⟨user', expiresAt, he⟩
    rcases List.mem_cons.mp he with hevent | hold
    · exact hne (Event.issued.inj hevent).1.symm
    · exact h.tokens ⟨user', expiresAt, hold⟩
  userId := h.userId

theorem AuthSystem.Inv.logout {s : AuthSystem} (h : s.Inv) (token : String) :
    AuthSystem.Inv
      { s with sessions := s.sessions.erase token, log := .loggedOut token :: s.log } where
  stored other stored hstored := by
    obtain ⟨hne, hold⟩ := Dict.get?_erase_eq_some hstored
    obtain ⟨user, hl, hid⟩ := h.stored other stored hold
    refine ⟨user, loggedIn_cons.mpr (.inr ⟨fun e => ?_, hl⟩), hid⟩
    cases e
    exact hne rfl
  live other user expiresAt hl hlt := by
    rcases loggedIn_cons.mp hl with hevent | ⟨hevent, hold⟩
    · cases hevent
    · have hne : token ≠ other := fun e => hevent (congrArg _ e)
      obtain ⟨stored, hstored, hrest⟩ := h.live other user expiresAt hold hlt
      refine ⟨stored, ?_, hrest⟩
      show (s.sessions.erase token).get? other = some stored
      rw [Dict.get?_erase, if_neg hne, hstored]
  users other user expiresAt he := by
    rcases List.mem_cons.mp he with hevent | hold
    · cases hevent
    · exact h.users other user expiresAt hold
  tokens := by
    rintro ⟨user, expiresAt, he⟩
    rcases List.mem_cons.mp he with hevent | hold
    · cases hevent
    · exact h.tokens ⟨user, expiresAt, hold⟩
  userId := h.userId

theorem AuthSystem.Inv.authenticate {s : AuthSystem} (h : s.Inv) (token : Option String) :
    AuthSystem.Inv
      { s with sessions := (authenticate s.users s.sessions token s.clock).2 } := by
  rcases authenticate_sessions s.users s.sessions token s.clock with hsame |
    ⟨t, session, hsession, hdead, herased⟩
  · rw [hsame]
    exact h
  · rw [herased]
    refine { h with stored := fun other stored hstored => ?_, live := fun other user e hl hlt => ?_ }
    · exact h.stored other stored (Dict.get?_erase_eq_some hstored).2
    · obtain ⟨stored, hstored, hid, hexpires⟩ := h.live other user e hl hlt
      have hne : t ≠ other := by
        rintro rfl
        cases hsession.symm.trans hstored
        rcases hdead with hexpired | hgone
        · exact absurd hlt (Int.not_lt.mpr (hexpires ▸ hexpired))
        · rw [hid, h.userOf hl] at hgone
          cases hgone
      refine ⟨stored, ?_, hid, hexpires⟩
      show (s.sessions.erase t).get? other = some stored
      rw [Dict.get?_erase, if_neg hne, hstored]

/-- **One step** keeps the invariant, does not turn the clock back, and adds to the log. -/
theorem authStep_spec {s s' : AuthSystem} {call : AuthCall × Datetime} (h : s.Inv)
    (hstep : authStep U B duration s call = some s') :
    s'.Inv ∧ s.clock ≤ s'.clock ∧ (∀ token, Issued s.log token → Issued s'.log token) ∧
      ∀ token user expiresAt, Issued s.log token → LoggedIn s'.log token user expiresAt →
        LoggedIn s.log token user expiresAt := by
  obtain ⟨call, now⟩ := call
  unfold authStep at hstep
  split at hstep
  · cases hstep
  · next hclock =>
    have hnow : s.clock ≤ now := Int.not_lt.mp hclock
    have htick := h.tick hnow
    cases call with
    | register draw email password role tenantId =>
      simp only at hstep
      split at hstep
      · cases hstep
      · next hfresh =>
        split at hstep
        · cases hstep
          exact ⟨htick, hnow, fun _ hi => hi, fun _ _ _ _ hl => hl⟩
        · next user users hok =>
          cases hstep
          obtain ⟨hid, rfl⟩ := register_eq_ok hok
          have hnew : s.users.get? user.id = none := by
            rw [hid]
            exact Option.not_isSome_iff_eq_none.mp hfresh
          have hreg := htick.register hnew
          rw [hid] at hreg
          exact ⟨hreg, hnow, fun _ hi => hi, fun _ _ _ _ hl => hl⟩
    | login email password draw =>
      simp only at hstep
      split at hstep
      · cases hstep
      · next hfresh =>
        obtain ⟨hne, hnew⟩ := not_or.mp hfresh
        split at hstep
        · cases hstep
          exact ⟨htick, hnow, fun _ hi => hi, fun _ _ _ _ hl => hl⟩
        · next user session sessions hok =>
          cases hstep
          obtain ⟨huser, htoken, hid, rfl⟩ := login_eq_ok hok
          rw [← htoken] at hne hnew
          have hunissued : ¬ Issued s.log session.token := fun hi => hnew (issuedIn_iff.mpr hi)
          have hlogin := htick.login huser hid hne hunissued
          rw [htoken] at hlogin
          refine ⟨htoken ▸ hlogin, hnow, fun token hi => ?_, fun token user' e hi hl => ?_⟩
          · obtain ⟨user', e, he⟩ := hi
            exact ⟨user', e, List.mem_cons_of_mem _ he⟩
          · rcases loggedIn_cons.mp hl with hevent | ⟨-, hold⟩
            · rw [(Event.issued.inj hevent).1] at hunissued
              exact absurd hi hunissued
            · exact hold
    | logout token =>
      cases hstep
      refine ⟨htick.logout token, hnow, fun other hi => ?_, fun other user e _ hl => ?_⟩
      · obtain ⟨user, e, he⟩ := hi
        exact ⟨user, e, List.mem_cons_of_mem _ he⟩
      · rcases loggedIn_cons.mp hl with hevent | ⟨-, hold⟩
        · cases hevent
        · exact hold
    | authenticate token =>
      cases hstep
      exact ⟨htick.authenticate token, hnow, fun _ hi => hi, fun _ _ _ _ hl => hl⟩

/-- Every reachable state. -/
theorem authRun_inv {s s' : AuthSystem} (h : s.Inv)
    (hrun : Leads (authStep U B duration) s s') : s'.Inv :=
  Leads.invariant (fun _ _ _ h hstep => (authStep_spec h hstep).1) hrun h

/-- The token was issued, and whatever login issued it has expired or was logged out. Once so it
stays so, because tokens are not issued twice and the clock does not go back. -/
def Dead (s : AuthSystem) (token : String) : Prop :=
  Issued s.log token ∧ ∀ user expiresAt, LoggedIn s.log token user expiresAt →
    expiresAt ≤ s.clock

/-- A dead token stays dead. -/
theorem authRun_dead {s s' : AuthSystem} {token : String} (h : s.Inv) (hdead : Dead s token)
    (hrun : Leads (authStep U B duration) s s') : Dead s' token := by
  have hboth := Leads.invariant (P := fun s => s.Inv ∧ Dead s token)
    (fun t _ t' ht hstep => by
      obtain ⟨hI, hissued, hexpired⟩ := ht
      obtain ⟨hI', hclock, hkeep, hlog⟩ := authStep_spec hI hstep
      exact ⟨hI', hkeep token hissued, fun user expiresAt hl =>
        Int.le_trans (hexpired user expiresAt (hlog token user expiresAt hissued hl)) hclock⟩)
    hrun ⟨h, hdead⟩
  exact hboth.2

end Calls

/-! ## Whole runs -/

/-- The exception is an `AuthError`. -/
def IsAuthError : Except AuthFailure User → Prop
  | .error (.authError _) => True
  | _ => False

/-- `authenticate` raises nothing else. -/
theorem authenticate_raises {users : Users} {sessions : Sessions} {token : Option String}
    {now : Datetime} (h : ∀ user, (authenticate users sessions token now).1 ≠ .ok user) :
    IsAuthError (authenticate users sessions token now).1 := by
  cases hresult : (authenticate users sessions token now).1 with
  | ok user => exact absurd hresult (h user)
  | error e =>
    unfold authenticate at hresult
    split at hresult
    · cases hresult
      trivial
    · split at hresult
      · cases hresult
        trivial
      · split at hresult
        · cases hresult
          trivial
        · split at hresult
          · cases hresult
            trivial
          · cases hresult

/-- **Session validity.** In every state a run leads to, `authenticate` answers `user` for a token
at `now` exactly when an earlier login of `user` issued the token, it has not been logged out since,
and `now` is before its expiry; otherwise it raises `AuthError`; and a token that it rejects after
it was issued is rejected ever after.

The second half is what a rejected token can hope for: nothing. It needs that tokens are not issued
twice and that the clock does not go back, both of which the step function asks for. -/
theorem session_valid_iff (U : Unicode) (B : Bcrypt) (duration : Int) {start : Datetime}
    {s : AuthSystem} (hrun : Leads (authStep U B duration) (.init start) s) {now : Datetime}
    (hnow : s.clock ≤ now) (token : Option String) :
    (∀ user, (authenticate s.users s.sessions token now).1 = .ok user ↔
      ∃ t expiresAt, token = some t ∧ LoggedIn s.log t user expiresAt ∧ now < expiresAt) ∧
    ((∀ user, (authenticate s.users s.sessions token now).1 ≠ .ok user) →
      IsAuthError (authenticate s.users s.sessions token now).1 ∧
      ∀ t, token = some t → Issued s.log t → ∀ rejected later,
        authStep U B duration s (.authenticate token, now) = some rejected →
        Leads (authStep U B duration) rejected later → ∀ now', later.clock ≤ now' → ∀ user,
          (authenticate later.users later.sessions token now').1 ≠ .ok user) := by
  have hI := authRun_inv (.init start) hrun
  refine ⟨fun user => authenticate_eq_ok_iff hI hnow, fun hrejects =>
    ⟨authenticate_raises hrejects, ?_⟩⟩
  rintro t rfl hissued rejected later hstep hlater now' hnow' user hok
  have hdead : Dead rejected t := by
    rw [authStep, if_neg (Int.not_lt.mpr hnow)] at hstep
    cases hstep
    refine ⟨hissued, fun user' expiresAt hl => ?_⟩
    by_contra hlt
    exact hrejects user' ((authenticate_eq_ok_iff hI hnow).mpr
      ⟨t, expiresAt, rfl, hl, Int.not_le.mp hlt⟩)
  have hI' := (authStep_spec hI hstep).1
  obtain ⟨t', expiresAt, ht, hl, hlt⟩ :=
    (authenticate_eq_ok_iff (authRun_inv hI' hlater) hnow').mp hok
  cases ht
  have hexpired := (authRun_dead hI' hdead hlater).2 user expiresAt hl
  exact absurd hlt (Int.not_lt.mpr (Int.le_trans hexpired hnow'))

/-- A `bcrypt` that keeps the password in the clear. -/
private def plain : Bcrypt where
  hashpw salt password := some (salt ++ password)
  checkpw password hash := some (isSubstring password hash)
  dummyHash := ""

/-- Ana registers and logs in. -/
private def anaCalls : List (AuthCall × Datetime) :=
  [(.register ⟨"u1", "$", 1⟩ "ana@acme.test" "contraseña" .tenant (some "acme"), 1),
    (.login " ANA@acme.test" "contraseña" ⟨"5e1f", 2⟩, 2)]

private def ana : User where
  id := "u1"
  email := "ana@acme.test"
  passwordHash := "$contraseña"
  tenantId := some "acme"
  createdAt := 1

/-- Her session is open. -/
theorem ana_authenticated : ∃ s, Leads (authStep Unicode.ascii plain DEFAULT_SESSION_DURATION)
    (.init 0) s ∧ (authenticate s.users s.sessions (some "5e1f") 3).1 = .ok ana := by
  have hsummary : (run (authStep Unicode.ascii plain DEFAULT_SESSION_DURATION) (.init 0)
      anaCalls).map (fun s => (s.clock, s.log)) =
        some (2, [.issued "5e1f" ana 604800000002]) := by decide +kernel
  obtain ⟨s, hrun, hs⟩ := Option.map_eq_some_iff.mp hsummary
  obtain ⟨hclock, hlog⟩ := Prod.mk.inj hs
  have hleads : Leads (authStep Unicode.ascii plain DEFAULT_SESSION_DURATION) (.init 0) s :=
    ⟨anaCalls, hrun⟩
  have hnow : s.clock ≤ 3 := by
    rw [hclock]
    decide
  have hopen : LoggedIn s.log "5e1f" ana 604800000002 := ⟨[], [], hlog, List.not_mem_nil⟩
  have hvalid := session_valid_iff Unicode.ascii plain DEFAULT_SESSION_DURATION hleads hnow
    (some "5e1f")
  exact ⟨s, hleads, (hvalid.1 ana).mpr ⟨"5e1f", 604800000002, rfl, hopen, by decide⟩⟩

end Wapsell.Auth
