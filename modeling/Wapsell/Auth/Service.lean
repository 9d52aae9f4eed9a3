import Wapsell.Auth.Repository
import Wapsell.Py.Number

/-!
# The auth service

`AuthService` of `sdk/wapsell/auth/service.py` over the in-memory
repositories. `bcrypt` is a parameter; the salt, the ids, the token and the
clock that a call draws are arguments.

A method either returns or raises, and what it raises is kept with its
message, because the API layer shows it. `authenticate` also writes: it
deletes a session it finds expired, so its result is a pair.

One text matters beyond its reader: a login is refused in the same words
for an unknown email and for a wrong password, so a caller cannot tell
the two apart by the answer.
-/

namespace Wapsell.Auth

open Lib Py

/-- `bcrypt.hashpw`, of a salt and a password, and `bcrypt.checkpw`. Nothing is assumed of them
here; what is assumed is stated where it is used. -/
structure Bcrypt where
  hashpw : String → String → Option String
  checkpw : String → String → Option Bool
  /-- `_DUMMY_BCRYPT_HASH`. -/
  dummyHash : String

/-- What a method raises: an `AuthError` with its message, or anything else. -/
inductive AuthFailure
  | authError (message : String)
  | other (e : Exc)
  deriving DecidableEq, Repr

def MAX_EMAIL_LENGTH : Nat := 254

def MIN_PASSWORD_LENGTH : Nat := 8

def MAX_PASSWORD_LENGTH : Nat := 128

/-- `DEFAULT_SESSION_DURATION`, in microseconds. -/
def DEFAULT_SESSION_DURATION : Int := 7 * Datetime.day

/-! ## Validation -/

/-- `_validate_email`: an at sign, a dot behind the last one, and a length limit. It looks at the
stripped email and returns nothing; `register` and `login` strip and lower by themselves. -/
def validateEmail (email : String) : Except AuthFailure Unit :=
  let e := (strip email).toList
  if '@' ∉ e ∨ '.' ∉ ((e.splitOn '@').getLast?.getD []) then
    .error (.authError "email looks invalid")
  else if MAX_EMAIL_LENGTH < e.length then .error (.authError "email too long")
  else .ok ()

/-- `_validate_password`. -/
def validatePassword (password : String) : Except AuthFailure Unit :=
  if password.toList.length < MIN_PASSWORD_LENGTH then
    .error (.authError s!"password must be at least {MIN_PASSWORD_LENGTH} characters")
  else if MAX_PASSWORD_LENGTH < password.toList.length then
    .error (.authError "password too long")
  else .ok ()

/-- `_hash_password`.

A salt or a password that `bcrypt` refuses raises out of `register`, and is no `AuthError`. -/
def hashPassword (B : Bcrypt) (salt password : String) : Except AuthFailure String :=
  match B.hashpw salt password with
  | some hash => .ok hash
  | none => .error (.other .valueError)

/-- `_verify_password`.

What `checkpw` raises on a malformed hash counts as a wrong password. -/
def verifyPassword (B : Bcrypt) (password storedHash : String) : Bool :=
  (B.checkpw password storedHash).getD false

/-! ## The methods -/

/-- What `register` draws. -/
structure UserDraw where
  id : String
  salt : String
  createdAt : Datetime
  deriving DecidableEq, Repr

/-- `register`.

The hash is made before the email is looked for, and the role and the tenant are taken as they are
given. -/
def register (U : Unicode) (B : Bcrypt) (users : Users) (draw : UserDraw) (email password : String)
    (role : UserRole) (tenantId : Option String) : Except AuthFailure (User × Users) := do
  validateEmail email
  validatePassword password
  let passwordHash ← hashPassword B draw.salt password
  let user : User :=
    { id := draw.id, email := lower U (strip email), passwordHash, role, tenantId
      createdAt := draw.createdAt }
  match users.add U user with
  | .error message => .error (.authError message)
  | .ok users' => .ok (user, users')

/-- What `login` draws. -/
structure SessionDraw where
  token : String
  createdAt : Datetime
  deriving DecidableEq, Repr

/-- `login`.

The email that nobody has and the wrong password are answered alike; that the source hashes against
a dummy in the first case is a matter of time and is not seen here. -/
def login (U : Unicode) (B : Bcrypt) (duration : Int) (users : Users) (sessions : Sessions)
    (email password : String) (draw : SessionDraw) (now : Datetime) :
    Except AuthFailure (User × Session × Sessions) :=
  match users.byEmail U (lower U (strip email)) with
  | none => .error (.authError "invalid email or password")
  | some user =>
    if verifyPassword B password user.passwordHash = false then
      .error (.authError "invalid email or password")
    else match now.shift duration with
      | none => .error (.other .overflowError)
      | some expiresAt =>
        let session : Session :=
          { token := draw.token, userId := user.id, expiresAt, createdAt := draw.createdAt }
        .ok (user, session, sessions.add session)

/-- `logout`. -/
def logout (sessions : Sessions) (token : String) : Bool × Sessions := sessions.delete token

/-- `authenticate`: what it answers or raises, and the sessions after it.

A session that has run out, or whose user is gone, is deleted while the call is refused. A token
that nobody holds changes nothing. -/
def authenticate (users : Users) (sessions : Sessions) (token : Option String) (now : Datetime) :
    Except AuthFailure User × Sessions :=
  match token.filter (· ≠ "") with
  | none => (.error (.authError "not authenticated"), sessions)
  | some token =>
    match sessions.get token with
    | none => (.error (.authError "session not found"), sessions)
    | some session =>
      if session.expiresAt ≤ now then
        (.error (.authError "session expired"), (sessions.delete token).2)
      else match users.get session.userId with
        | none => (.error (.authError "user no longer exists"), (sessions.delete token).2)
        | some user => (.ok user, sessions)

end Wapsell.Auth
