import Wapsell.Auth.Service
import Wapsell.Lib.Refinement

/-!
# The auth service over its two ports

`UserRepositoryPort` and `SessionRepositoryPort` of
`sdk/wapsell/auth/repository.py` as one interface, and the methods of
`AuthService` as programs over it. The service lowers every email before it
hands it on, so the calls of the interface carry lowered emails. Over the
in-memory repositories the programs are the functions of the service model.

A program over the interface makes calls one after the other, each of
them depending on the answers before it. Written once, it can be run
over the dictionaries and over the tables, and what is proved of the
interface carries over to both.
-/

namespace Wapsell.Auth

open Lib Py

-- the case tables play no part here, and unification must not look into them
attribute [local irreducible] lower strip

/-- An email that lower-casing leaves as it is. The type carries the fact, so that an adapter cannot
be handed any other email. -/
abbrev LoweredEmail (U : Unicode) := { email : String // lower U email = email }

/-- The calls of the two ports. -/
inductive StoreCall (U : Unicode)
  | addUser (user : User) (lowered : lower U user.email = user.email)
  | getUser (userId : String)
  | userByEmail (email : LoweredEmail U)
  | addSession (session : Session)
  | getSession (token : String)
  | deleteSession (token : String)

/-- What each answers; `addUser` answers the text of its `ValueError`. -/
abbrev StoreCall.Answer {U : Unicode} : StoreCall U → Type
  | addUser .. => Except String Unit
  | getUser _ => Option User
  | userByEmail _ => Option User
  | addSession _ => Unit
  | getSession _ => Option Session
  | deleteSession _ => Bool

/-- The in-memory repositories. -/
structure Stores where
  users : Users := Dict.empty
  sessions : Sessions := Dict.empty

/-- `InMemoryUserRepository` and `InMemorySessionRepository`. -/
def inMemory (U : Unicode) : Object (StoreCall.Answer (U := U)) Stores :=
  .ofFun fun
    | .addUser user _, s =>
      match s.users.add U user with
      | .error message => (.error message, s)
      | .ok users => (.ok (), { s with users })
    | .getUser userId, s => (s.users.get userId, s)
    | .userByEmail email, s => (s.users.byEmail U email.1, s)
    | .addSession session, s => ((), { s with sessions := s.sessions.add session })
    | .getSession token, s => (s.sessions.get token, s)
    | .deleteSession token, s =>
      let deleted := s.sessions.delete token
      (deleted.1, { s with sessions := deleted.2 })

/-! ## The service -/

/-- The methods of `AuthService`, with what each draws and the clock it reads. -/
inductive ServiceCall
  | register (draw : UserDraw) (email password : String) (role : UserRole)
      (tenantId : Option String)
  | login (email password : String) (draw : SessionDraw) (now : Datetime)
  | logout (token : String)
  | authenticate (token : Option String) (now : Datetime)

/-- What each returns or raises. -/
abbrev ServiceCall.Answer : ServiceCall → Type
  | register .. => Except AuthFailure User
  | login .. => Except AuthFailure (User × Session)
  | logout _ => Bool
  | authenticate .. => Except AuthFailure User

/-- The user `register` makes. -/
def newUser (U : Unicode) (draw : UserDraw) (email passwordHash : String) (role : UserRole)
    (tenantId : Option String) : User where
  id := draw.id
  email := lower U (strip email)
  passwordHash := passwordHash
  role := role
  tenantId := tenantId
  createdAt := draw.createdAt

section Programs

variable {U : Unicode} (hU : ∀ s, lower U (lower U s) = lower U s) (B : Bcrypt) (duration : Int)

include hU in
theorem newUser_lowered (draw : UserDraw) (email passwordHash : String) (role : UserRole)
    (tenantId : Option String) :
    lower U (newUser U draw email passwordHash role tenantId).email =
      (newUser U draw email passwordHash role tenantId).email := by
  rw [newUser]
  exact hU (strip email)

/-- `register`. -/
def registerWith (draw : UserDraw) (email password : String) (role : UserRole)
    (tenantId : Option String) :
    Client (StoreCall.Answer (U := U)) (Except AuthFailure User) :=
  match validateEmail email with
  | .error e => .done (.error e)
  | .ok () =>
    match validatePassword password with
    | .error e => .done (.error e)
    | .ok () =>
      match hashPassword B draw.salt password with
      | .error e => .done (.error e)
      | .ok passwordHash =>
        let user := newUser U draw email passwordHash role tenantId
        .call (.addUser user (newUser_lowered hU draw email passwordHash role tenantId)) fun added =>
          match added with
          | .error message => .done (.error (.authError message))
          | .ok () => .done (.ok user)

/-- `login`. -/
def loginWith (email password : String) (draw : SessionDraw) (now : Datetime) :
    Client (StoreCall.Answer (U := U)) (Except AuthFailure (User × Session)) :=
  .call (.userByEmail ⟨lower U (strip email), hU (strip email)⟩) fun found =>
    match found with
    | none => .done (.error (.authError "invalid email or password"))
    | some user =>
      if verifyPassword B password user.passwordHash = false then
        .done (.error (.authError "invalid email or password"))
      else match now.shift duration with
        | none => .done (.error (.other .overflowError))
        | some expiresAt =>
          let session : Session :=
            { token := draw.token, userId := user.id, expiresAt, createdAt := draw.createdAt }
          .call (.addSession session) fun _ => .done (.ok (user, session))

/-- `authenticate`. -/
def authenticateWith (token : Option String) (now : Datetime) :
    Client (StoreCall.Answer (U := U)) (Except AuthFailure User) :=
  match token.filter (· ≠ "") with
  | none => .done (.error (.authError "not authenticated"))
  | some token =>
    .call (.getSession token) fun found =>
      match found with
      | none => .done (.error (.authError "session not found"))
      | some session =>
        if session.expiresAt ≤ now then
          .call (.deleteSession token) fun _ => .done (.error (.authError "session expired"))
        else .call (.getUser session.userId) fun found =>
          match found with
          | none =>
            .call (.deleteSession token) fun _ =>
              .done (.error (.authError "user no longer exists"))
          | some user => .done (.ok user)

/-- The service as programs over the ports. -/
def service : (c : ServiceCall) → Client (StoreCall.Answer (U := U)) c.Answer
  | .register draw email password role tenantId => registerWith hU B draw email password role tenantId
  | .login email password draw now => loginWith hU B duration email password draw now
  | .logout token => .call (.deleteSession token) fun deleted => .done deleted
  | .authenticate token now => authenticateWith token now

end Programs

/-! ## Over the in-memory repositories -/

section InMemory

variable {U : Unicode} {hU : ∀ s, lower U (lower U s) = lower U s} {B : Bcrypt} {duration : Int}

/-- The service over the in-memory repositories, as its functions say. -/
def serviceInMemory (U : Unicode) (B : Bcrypt) (duration : Int) :
    Object ServiceCall.Answer Stores :=
  .ofFun fun
    | .register draw email password role tenantId, s =>
      match register U B s.users draw email password role tenantId with
      | .error e => (.error e, s)
      | .ok (user, users) => (.ok user, { s with users })
    | .login email password draw now, s =>
      match login U B duration s.users s.sessions email password draw now with
      | .error e => (.error e, s)
      | .ok (user, session, sessions) => (.ok (user, session), { s with sessions })
    | .logout token, s =>
      let out := logout s.sessions token
      (out.1, { s with sessions := out.2 })
    | .authenticate token now, s =>
      let out := authenticate s.users s.sessions token now
      (out.1, { s with sessions := out.2 })

theorem ends_register {draw : UserDraw} {email password : String} {role : UserRole}
    {tenantId : Option String} {s s' : Stores} {a : Except AuthFailure User}
    (h : (registerWith hU B draw email password role tenantId).Ends (inMemory U) s a s') :
    (serviceInMemory U B duration).Answers (.register draw email password role tenantId) s a s' := by
  unfold registerWith at h
  dsimp only [serviceInMemory, Object.ofFun]
  rw [register]
  cases hemail : validateEmail email with
  | error e =>
    rw [hemail] at h
    obtain ⟨rfl, rfl⟩ := h
    rfl
  | ok =>
    rw [hemail] at h
    cases hpassword : validatePassword password with
    | error e =>
      rw [hpassword] at h
      obtain ⟨rfl, rfl⟩ := h
      rfl
    | ok =>
      rw [hpassword] at h
      cases hhash : hashPassword B draw.salt password with
      | error e =>
        rw [hhash] at h
        obtain ⟨rfl, rfl⟩ := h
        rfl
      | ok passwordHash =>
        rw [hhash] at h
        obtain ⟨added, t, hadded, hrest⟩ := h
        dsimp only [inMemory, Object.ofFun] at hadded
        dsimp only [Bind.bind, Except.bind]
        rw [← newUser]
        cases hadd : s.users.add U (newUser U draw email passwordHash role tenantId) with
        | error message =>
          rw [hadd] at hadded
          cases hadded
          obtain ⟨rfl, rfl⟩ := hrest
          rfl
        | ok users =>
          rw [hadd] at hadded
          cases hadded
          obtain ⟨rfl, rfl⟩ := hrest
          rfl

theorem ends_login {email password : String} {draw : SessionDraw} {now : Datetime}
    {s s' : Stores} {a : Except AuthFailure (User × Session)}
    (h : (loginWith hU B duration email password draw now).Ends (inMemory U) s a s') :
    (serviceInMemory U B duration).Answers (.login email password draw now) s a s' := by
  obtain ⟨found, t, hfound, hrest⟩ := h
  cases hfound
  dsimp only [serviceInMemory, Object.ofFun]
  rw [login]
  cases hmail : s.users.byEmail U (lower U (strip email)) with
  | none =>
    rw [hmail] at hrest
    obtain ⟨rfl, rfl⟩ := hrest
    rfl
  | some user =>
    rw [hmail] at hrest
    dsimp only at hrest ⊢
    split at hrest
    next hverify =>
      obtain ⟨rfl, rfl⟩ := hrest
      rw [if_pos hverify]
    next hverify =>
      rw [if_neg hverify]
      cases hshift : now.shift duration with
      | none =>
        rw [hshift] at hrest
        obtain ⟨rfl, rfl⟩ := hrest
        rfl
      | some expiresAt =>
        rw [hshift] at hrest
        obtain ⟨_, _, hadded, rfl, rfl⟩ := hrest
        cases hadded
        rfl

theorem ends_authenticate {token : Option String} {now : Datetime} {s s' : Stores}
    {a : Except AuthFailure User}
    (h : (authenticateWith token now).Ends (inMemory U) s a s') :
    (serviceInMemory U B duration).Answers (.authenticate token now) s a s' := by
  unfold authenticateWith at h
  dsimp only [serviceInMemory, Object.ofFun]
  rw [authenticate]
  cases htoken : token.filter (· ≠ "") with
  | none =>
    rw [htoken] at h
    obtain ⟨rfl, rfl⟩ := h
    rfl
  | some token =>
    rw [htoken] at h
    obtain ⟨found, t, hfound, hrest⟩ := h
    cases hfound
    dsimp only at hrest ⊢
    cases hsession : s.sessions.get token with
    | none =>
      rw [hsession] at hrest
      obtain ⟨rfl, rfl⟩ := hrest
      rfl
    | some session =>
      rw [hsession] at hrest
      dsimp only at hrest ⊢
      split at hrest
      next hexpired =>
        obtain ⟨_, _, hdeleted, rfl, rfl⟩ := hrest
        cases hdeleted
        rw [if_pos hexpired]
      next hexpired =>
        rw [if_neg hexpired]
        obtain ⟨found, t, hfound, hrest⟩ := hrest
        cases hfound
        cases huser : s.users.get session.userId with
        | none =>
          rw [huser] at hrest
          obtain ⟨_, _, hdeleted, rfl, rfl⟩ := hrest
          cases hdeleted
          rfl
        | some user =>
          rw [huser] at hrest
          obtain ⟨rfl, rfl⟩ := hrest
          rfl

/-- The programs over the in-memory repositories are the functions of the service. -/
theorem through_inMemory_refines :
    ((inMemory U).through (service hU B duration)).Refines (serviceInMemory U B duration) Eq where
  answer := by
    rintro c s a s' t rfl hends
    refine ⟨s', ?_, rfl⟩
    cases c with
    | register draw email password role tenantId => exact ends_register hends
    | login email password draw now => exact ends_login hends
    | logout token =>
      obtain ⟨_, _, hdeleted, rfl, rfl⟩ := hends
      cases hdeleted
      rfl
    | authenticate token now => exact ends_authenticate hends

end InMemory

end Wapsell.Auth
