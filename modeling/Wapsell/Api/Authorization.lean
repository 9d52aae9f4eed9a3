import Wapsell.Api.Access
import Wapsell.Auth.Passwords

/-!
# Who gets past the access checks

The authentication routes of `services/api/main.py` and the checks at the
head of the others, over whole runs. Each request reads the session cookie
and `WAPSELL_AUTH_REQUIRED` anew. A user is made by a request alone, so who
has access can be traced back, login by login and user by user, to a
request that came while access control was off.

The cookie is looked up anew by every request, so a session that is
logged out or has run out closes at once; and `required` is read anew as
well, so a run may turn access control on and off. The invariant is that
of the service: ids and tokens are fresh when they are drawn, and the
clock does not go back.

**What this does not establish.** That a route without a check is safe,
or that a password was hard to guess. An admin is whoever is stored as
one, and while access control is off anybody may store one: the theorem
says that there is no other way.
-/

namespace Wapsell.Api

open Lib Py Auth

attribute [local irreducible] lower strip

/-- `_assert_admin`. -/
def assertAdmin (required : Bool) (caller : Option User) : Except HTTPException (Option User) :=
  if required = false then .ok caller
  else match assertAuthenticated required caller with
    | .error e => .error e
    | .ok none => .error ⟨403, "admin role required"⟩
    | .ok (some user) =>
      if user.role ≠ .admin then .error ⟨403, "admin role required"⟩ else .ok (some user)

/-- `_optional_current_user`: an `AuthError` is no user. -/
def optionalCurrentUser (users : Users) (sessions : Sessions) (cookie : Option String)
    (now : Datetime) : Option User :=
  (authenticate users sessions cookie now).1.toOption

/-- A route, as far as it concerns users and sessions. -/
inductive AuthRoute
  | login (email password : String) (draw : SessionDraw)
  | logout
  | register (draw : UserDraw) (email password : String) (role : UserRole)
      (tenantId : Option String)
  /-- `auth_me`, and every route behind a check. -/
  | checked
  deriving DecidableEq, Repr

/-- A request: its cookie, when it comes, `_auth_required()` then, and its route. -/
structure Incoming where
  cookie : Option String := none
  now : Datetime
  required : Bool := true
  route : AuthRoute
  deriving DecidableEq, Repr

section Step

variable (U : Unicode) (B : Bcrypt) (duration : Int)

/-- What a request does to users and sessions. A check authenticates the cookie, which deletes a
session that has expired. -/
def incomingStep (s : AuthSystem) (r : Incoming) : Option AuthSystem :=
  match r.route with
  | .login email password draw => authStep U B duration s (.login email password draw, r.now)
  | .logout =>
    match r.cookie.filter (· ≠ "") with
    | none => if r.now < s.clock then none else some { s with clock := r.now }
    | some token => authStep U B duration s (.logout token, r.now)
  | .register draw email password role tenantId =>
    (authStep U B duration s (.authenticate r.cookie, r.now)).bind fun checked =>
      match assertAdmin r.required (optionalCurrentUser s.users s.sessions r.cookie r.now) with
      | .error _ => some checked
      | .ok _ =>
        authStep U B duration checked (.register draw email password role tenantId, r.now)
  | .checked => authStep U B duration s (.authenticate r.cookie, r.now)

end Step

/-- The cookie is a session of the user: a login issued it, and it was not logged out and has not
run out. -/
def HasSession (s : AuthSystem) (cookie : Option String) (now : Datetime) (user : User) : Prop :=
  ∃ t expiresAt, cookie = some t ∧ LoggedIn s.log t user expiresAt ∧ now < expiresAt

/-- The request asks to make the user. -/
def Incoming.Registers (U : Unicode) (r : Incoming) (user : User) : Prop :=
  ∃ draw email password, r.route = .register draw email password user.role user.tenantId ∧
    user.id = draw.id ∧ user.email = lower U (strip email)

section Runs

variable {U : Unicode} {B : Bcrypt} {duration : Int} {s s' : AuthSystem} {r : Incoming}

theorem optionalCurrentUser_eq_some_iff (h : s.Inv) {now : Datetime} (hnow : s.clock ≤ now)
    {cookie : Option String} {user : User} :
    optionalCurrentUser s.users s.sessions cookie now = some user ↔ HasSession s cookie now user := by
  rw [HasSession, ← authenticate_eq_ok_iff h hnow, optionalCurrentUser]
  cases (authenticate s.users s.sessions cookie now).1 with
  | error e => exact iff_of_false nofun nofun
  | ok found =>
    rw [Except.toOption, Option.some.injEq, Except.ok.injEq]

/-- A request is one call of the service, or two, and keeps what they keep. -/
theorem inv_of_incomingStep (h : s.Inv) (hstep : incomingStep U B duration s r = some s') :
    s'.Inv := by
  unfold incomingStep at hstep
  cases hroute : r.route with
  | login email password draw =>
    rw [hroute] at hstep
    exact (authStep_spec h hstep).1
  | logout =>
    rw [hroute] at hstep
    dsimp only at hstep
    split at hstep
    · split at hstep
      · cases hstep
      next hclock =>
        cases hstep
        exact h.tick (Int.not_lt.mp hclock)
    · exact (authStep_spec h hstep).1
  | register draw email password role tenantId =>
    rw [hroute] at hstep
    obtain ⟨checked, hchecked, hrest⟩ := Option.bind_eq_some_iff.mp hstep
    have hI := (authStep_spec h hchecked).1
    split at hrest
    · cases hrest
      exact hI
    · exact (authStep_spec hI hrest).1
  | checked =>
    rw [hroute] at hstep
    exact (authStep_spec h hstep).1

theorem registered_user {users users' : Users} {draw : UserDraw} {email password : String}
    {role : UserRole} {tenantId : Option String} {user : User}
    (h : register U B users draw email password role tenantId = .ok (user, users')) :
    user.role = role ∧ user.tenantId = tenantId ∧ user.email = lower U (strip email) := by
  simp only [register, bind, Except.bind] at h
  split at h
  · cases h
  · split at h
    · cases h
    · split at h
      · cases h
      · split at h
        · cases h
        · cases h
          exact ⟨rfl, rfl, rfl⟩

/-- Only `register` makes a user. -/
theorem users_of_authStep {call : AuthCall} {now : Datetime}
    (hstep : authStep U B duration s (call, now) = some s') : s.clock ≤ now ∧
      (s'.users = s.users ∨ ∃ draw email password role tenantId user,
        call = .register draw email password role tenantId ∧
          register U B s.users draw email password role tenantId = .ok (user, s'.users)) := by
  unfold authStep at hstep
  split at hstep
  · cases hstep
  next hclock =>
    refine ⟨Int.not_lt.mp hclock, ?_⟩
    cases call with
    | register draw email password role tenantId =>
      dsimp only at hstep
      split at hstep
      · cases hstep
      · split at hstep
        · cases hstep
          exact .inl rfl
        next user users hok =>
          cases hstep
          exact .inr ⟨draw, email, password, role, tenantId, user, rfl, hok⟩
    | login email password draw =>
      dsimp only at hstep
      split at hstep
      · cases hstep
      · split at hstep
        · cases hstep
          exact .inl rfl
        · cases hstep
          exact .inl rfl
    | logout token =>
      cases hstep
      exact .inl rfl
    | authenticate token =>
      cases hstep
      exact .inl rfl

/-- The check lets through when it is off, or an admin. -/
theorem assertAdmin_eq_ok {required : Bool} {caller user : Option User}
    (h : assertAdmin required caller = .ok user) :
    required = false ∨ ∃ admin, caller = some admin ∧ admin.role = .admin := by
  cases required with
  | false => exact .inl rfl
  | true =>
    refine .inr ?_
    cases caller with
    | none => cases h
    | some u =>
      change (if u.role ≠ .admin then _ else _) = _ at h
      by_cases hrole : u.role = .admin
      · exact ⟨u, rfl, hrole⟩
      · rw [if_pos hrole] at h
        cases h

/-- **One request** makes a user only if it asks to, and comes while access control is off or with
the session of an admin. All other routes leave the users as they are, a login and a logout
included.

With it the trace of users can be read off a run: whoever is there has registered in it. -/
theorem users_of_incomingStep (h : s.Inv) (hstep : incomingStep U B duration s r = some s') :
    s'.users = s.users ∨ ∃ user, s'.users = s.users.set user.id user ∧ r.Registers U user ∧
      (r.required = false ∨ ∃ admin, HasSession s r.cookie r.now admin ∧ admin.role = .admin) := by
  have hother : ∀ {call : AuthCall}, (∀ draw email password role tenantId,
      call ≠ .register draw email password role tenantId) →
      authStep U B duration s (call, r.now) = some s' → s'.users = s.users := by
    intro call hcall hauth
    rcases (users_of_authStep hauth).2 with hsame | ⟨draw, email, password, role, tenantId, _, heq, -⟩
    · exact hsame
    · exact absurd heq (hcall draw email password role tenantId)
  unfold incomingStep at hstep
  cases hroute : r.route with
  | login email password draw =>
    rw [hroute] at hstep
    exact .inl (hother (fun _ _ _ _ _ h => by cases h) hstep)
  | logout =>
    rw [hroute] at hstep
    dsimp only at hstep
    split at hstep
    · split at hstep
      · cases hstep
      · cases hstep
        exact .inl rfl
    · exact .inl (hother (fun _ _ _ _ _ h => by cases h) hstep)
  | checked =>
    rw [hroute] at hstep
    exact .inl (hother (fun _ _ _ _ _ h => by cases h) hstep)
  | register draw email password role tenantId =>
    rw [hroute] at hstep
    obtain ⟨checked, hchecked, hrest⟩ := Option.bind_eq_some_iff.mp hstep
    obtain ⟨hnow, husers⟩ := users_of_authStep hchecked
    have hsame : checked.users = s.users := by
      rcases husers with hsame | ⟨_, _, _, _, _, _, heq, -⟩
      · exact hsame
      · cases heq
    split at hrest
    · cases hrest
      exact .inl hsame
    next caller hadmin =>
      rcases (users_of_authStep hrest).2 with hkept | ⟨_, _, _, _, _, user, heq, hok⟩
      · exact .inl (hkept.trans hsame)
      · cases heq
        obtain ⟨hid, husers'⟩ := register_eq_ok hok
        obtain ⟨hrole, htenant, hemail⟩ := registered_user hok
        refine .inr ⟨user, ?_, ⟨draw, email, password, ?_, hid, hemail⟩, ?_⟩
        · rw [husers', hsame, hid]
        · rw [hroute, hrole, htenant]
        · rcases assertAdmin_eq_ok hadmin with hoff | ⟨admin, hcaller, hrole⟩
          · exact .inl hoff
          · exact .inr ⟨admin, (optionalCurrentUser_eq_some_iff h hnow).mp hcaller, hrole⟩

theorem incomingRun_inv {rs : List Incoming} : ∀ {s s' : AuthSystem}, s.Inv →
    run (incomingStep U B duration) s rs = some s' → s'.Inv := by
  intro s s' h hrun
  exact Leads.invariant (fun _ _ _ h hstep => inv_of_incomingStep h hstep) ⟨rs, hrun⟩ h

/-- What `_assert_tenant_access` asks of a caller. -/
theorem assertTenantAccess_cases (caller : Option User) (tenantId : String) :
    assertTenantAccess true caller tenantId = match caller with
      | none => .error ⟨401, "authentication required"⟩
      | some user =>
        if user.role = .admin ∨ user.tenantId = some tenantId then .ok (some user)
        else .error ⟨403, "tenant access denied"⟩ := by
  cases caller with
  | none => rfl
  | some user =>
    change (if user.role = .admin then _ else if user.tenantId ≠ some tenantId then _ else _) = _
    dsimp only
    by_cases hrole : user.role = .admin
    · rw [if_pos hrole, if_pos (.inl hrole)]
    · rw [if_neg hrole]
      by_cases htenant : user.tenantId = some tenantId
      · rw [if_neg (not_not_intro htenant), if_pos (.inr htenant)]
      · rw [if_pos htenant, if_neg (not_or.mpr ⟨hrole, htenant⟩)]

/-- **Authorization over whole runs.** After any run of requests from no users on, with access control
on: a request gets past the check of a tenant exactly when its cookie is an open session of an admin or
of a user of the tenant; it is answered 401 exactly when the cookie is no open session; and every user
there is was made by an earlier request, which came while access control was off or with the open
session of an admin. -/
theorem authorized (U : Unicode) (B : Bcrypt) (duration : Int) {start : Datetime}
    {rs : List Incoming} {s : AuthSystem}
    (hrun : run (incomingStep U B duration) (.init start) rs = some s) :
    (∀ cookie now tenantId, s.clock ≤ now →
      ((∃ caller, assertTenantAccess true (optionalCurrentUser s.users s.sessions cookie now)
          tenantId = .ok caller) ↔
        ∃ user, HasSession s cookie now user ∧
          (user.role = .admin ∨ user.tenantId = some tenantId)) ∧
      ((∃ e, assertTenantAccess true (optionalCurrentUser s.users s.sessions cookie now)
          tenantId = .error e ∧ e.statusCode = 401) ↔ ∀ user, ¬ HasSession s cookie now user)) ∧
    ∀ user ∈ s.users.values, ∃ before r after s₀, rs = before ++ r :: after ∧
      run (incomingStep U B duration) (.init start) before = some s₀ ∧ r.Registers U user ∧
        (r.required = false ∨ ∃ admin, admin ∈ s₀.users.values ∧
          HasSession s₀ r.cookie r.now admin ∧ admin.role = .admin) := by
  have hI := incomingRun_inv (.init start) hrun
  refine ⟨fun cookie now tenantId hnow => ?_, fun user huser => ?_⟩
  · have hcaller : ∀ user, optionalCurrentUser s.users s.sessions cookie now = some user ↔
        HasSession s cookie now user := fun user => optionalCurrentUser_eq_some_iff hI hnow
    rw [assertTenantAccess_cases]
    cases hc : optionalCurrentUser s.users s.sessions cookie now with
    | none =>
      have hno : ∀ user, ¬ HasSession s cookie now user := fun user hs => by
        rw [(hcaller user).mpr hs] at hc
        cases hc
      exact ⟨iff_of_false nofun fun ⟨user, hs, _⟩ => hno user hs,
        iff_of_true ⟨_, rfl, rfl⟩ hno⟩
    | some user =>
      have hs := (hcaller user).mp hc
      have honly : ∀ other, HasSession s cookie now other → other = user := fun other ho => by
        rw [(hcaller other).mpr ho] at hc
        exact Option.some.inj hc
      dsimp only
      by_cases hmay : user.role = .admin ∨ user.tenantId = some tenantId
      · rw [if_pos hmay]
        exact ⟨iff_of_true ⟨_, rfl⟩ ⟨user, hs, hmay⟩, iff_of_false nofun fun hno => hno user hs⟩
      · rw [if_neg hmay]
        refine ⟨iff_of_false nofun ?_, iff_of_false ?_ fun hno => hno user hs⟩
        · rintro ⟨other, ho, hmay'⟩
          rw [honly other ho] at hmay'
          exact hmay hmay'
        · rintro ⟨e, he, hcode⟩
          cases he
          exact absurd hcode (by decide)
  · obtain ⟨id, hid⟩ := Dict.mem_values_iff.mp huser
    obtain ⟨before, r, after, t, t', hrs, hbefore, hstep, hnew, hthere⟩ :=
      exists_step_into (P := fun s => s.users.get? id = some user) hrun nofun hid
    have ht := incomingRun_inv (.init start) hbefore
    refine ⟨before, r, after, t, hrs, hbefore, ?_⟩
    rcases users_of_incomingStep ht hstep with hsame | ⟨made, husers, hregisters, hvouched⟩
    · rw [hsame] at hthere
      exact absurd hthere hnew
    · rw [husers] at hthere
      rcases Dict.get?_set_eq_some hthere with ⟨-, rfl⟩ | ⟨-, hold⟩
      · refine ⟨hregisters, hvouched.imp_right ?_⟩
        rintro ⟨admin, hsession, hrole⟩
        obtain ⟨token, expiresAt, hcookie, hl, hlt⟩ := hsession
        have hadmin : admin ∈ t.users.values := Dict.mem_values_iff.mpr ⟨_, ht.userOf hl⟩
        exact ⟨admin, hadmin, ⟨token, expiresAt, hcookie, hl, hlt⟩, hrole⟩
      · exact absurd hold hnew

end Runs

/-! ## The first admin -/

/-- Made by the bootstrap script, the admin logs in and makes a user of a tenant. -/
def firstRequests : List Incoming :=
  [{ now := 1, required := false
     route := .register ⟨"u1", "", 1⟩ "root@acme.test" "contraseña" .admin none },
    { now := 2, route := .login "root@acme.test" "contraseña" ⟨"5e1f", 2⟩ },
    { cookie := some "5e1f", now := 3
      route := .register ⟨"u2", "", 3⟩ "ana@acme.test" "contraseña" .tenant (some "acme") }]

/-- The admin. -/
def root : User where
  id := "u1"
  email := "root@acme.test"
  passwordHash := digest "contraseña"
  role := .admin
  createdAt := 1

/-- The admin's session opens every tenant. -/
theorem authorized_firstRequests : ∃ s, run (incomingStep Unicode.ascii plainBcrypt
    DEFAULT_SESSION_DURATION) (.init 0) firstRequests = some s ∧
      ∃ caller, assertTenantAccess true
        (optionalCurrentUser s.users s.sessions (some "5e1f") 4) "acme" = .ok caller := by
  have hsummary : (run (incomingStep Unicode.ascii plainBcrypt DEFAULT_SESSION_DURATION) (.init 0)
      firstRequests).map (fun s => (s.clock, s.log)) =
        some (3, [.issued "5e1f" root 604800000002]) := by decide +kernel
  obtain ⟨s, hrun, hs⟩ := Option.map_eq_some_iff.mp hsummary
  obtain ⟨hclock, hlog⟩ := Prod.mk.inj hs
  have hnow : s.clock ≤ 4 := by
    rw [hclock]
    decide
  have hopen : LoggedIn s.log "5e1f" root 604800000002 := ⟨[], [], hlog, List.not_mem_nil⟩
  have haccess := (authorized Unicode.ascii plainBcrypt DEFAULT_SESSION_DURATION hrun).1
    (some "5e1f") 4 "acme" hnow
  exact ⟨s, hrun, haccess.1.mpr
    ⟨root, ⟨"5e1f", 604800000002, rfl, hopen, by decide⟩, .inl rfl⟩⟩

end Wapsell.Api
