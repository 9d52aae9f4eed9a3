import Wapsell.Models
import Wapsell.Lib.Dict

/-!
# Users and sessions in memory

`InMemoryUserRepository` and `InMemorySessionRepository` of
`sdk/wapsell/auth/repository.py`.

Dictionaries under ids and tokens. The in-memory `add` of a user looks
for the email before it stores and raises `ValueError`; that is the
check the unique index makes in the table.

Emails are compared lowered on both sides, ids and tokens as they are.
`delete` of a session answers whether there was one, which is all that
`logout` reports.
-/

namespace Wapsell.Auth

open Lib Py

/-- `_by_id`. -/
abbrev Users := Dict String User

namespace Users

/-- `add`, or the text of its `ValueError`. -/
def add (U : Unicode) (users : Users) (user : User) : Except String Users :=
  if users.values.any fun existing => lower U existing.email = lower U user.email then
    .error s!"email already exists: {user.email}"
  else .ok (users.set user.id user)

/-- `get`. -/
def get (users : Users) (userId : String) : Option User := users.get? userId

/-- `by_email`. -/
def byEmail (U : Unicode) (users : Users) (email : String) : Option User :=
  users.values.find? fun u => lower U u.email = lower U email

/-- `list_all`. -/
def listAll (users : Users) : List User := users.values

end Users

/-- `_by_token`. -/
abbrev Sessions := Dict String Session

namespace Sessions

/-- `add`. -/
def add (sessions : Sessions) (session : Session) : Sessions := sessions.set session.token session

/-- `get`. -/
def get (sessions : Sessions) (token : String) : Option Session := sessions.get? token

/-- `delete`: whether the session was there. -/
def delete (sessions : Sessions) (token : String) : Bool × Sessions :=
  ((sessions.get? token).isSome, sessions.erase token)

end Sessions

end Wapsell.Auth
