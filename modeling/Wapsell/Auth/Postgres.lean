import Wapsell.Auth.Passwords
import Wapsell.Auth.Store
import Wapsell.Lib.Table
import Wapsell.Postgres.Codecs

/-!
# Users and sessions in Postgres

`PostgresUserRepository` and `PostgresSessionRepository` of
`sdk/wapsell/auth/repository.py` over the tables of
`infra/postgres/migrations/007_users_sessions.sql`. `LOWER` is the
collation's, a parameter; on an email that is lowered already it has
nothing to do. On the emails the service hands over, the two adapters then
refine the in-memory ones, and so does the service on top of them.

The one place where the two adapters could differ is the comparison of
emails: in memory the service's own lowering decides, in the table the
collation's `LOWER` does, and the two need not agree on every letter.
They agree on a lowered email as soon as `LOWER` leaves it alone, and
the service hands over no other. The unique index then refuses exactly
what the in-memory check refuses.

What this does not establish: what happens to rows that something else
than the service wrote, with capital letters in the email.
-/

namespace Wapsell.Auth

open Lib Py Postgres

attribute [local irreducible] lower strip

/-! ## The tables -/

/-- `UserRole.value`. -/
def roleValue : UserRole → String
  | .admin => "ADMIN"
  | .tenant => "TENANT"

/-- `UserRole(raw)`, `none` for the `ValueError`. -/
def roleOfValue (raw : String) : Option UserRole :=
  if raw = "ADMIN" then some .admin
  else if raw = "TENANT" then some .tenant
  else none

theorem roleOfValue_roleValue (role : UserRole) : roleOfValue (roleValue role) = some role := by
  cases role <;> rfl

/-- A row of `users`. -/
structure UserRow where
  id : String
  email : String
  passwordHash : String
  role : String
  tenantId : Option String
  createdAt : Datetime
  deriving DecidableEq, Repr

/-- The parameters of `_USER_INSERT_SQL`. -/
def UserRow.ofUser (user : User) : UserRow where
  id := user.id
  email := user.email
  passwordHash := user.passwordHash
  role := roleValue user.role
  tenantId := user.tenantId
  createdAt := user.createdAt

/-- The columns of `_USER_COLS`. -/
def UserRow.cells (r : UserRow) : List Cell :=
  [.text r.id, .text r.email, .text r.passwordHash, .text r.role, .ofText r.tenantId,
    .timestamp r.createdAt]

/-- `_row_to_user`. -/
def rowToUser (row : List Cell) : Except Exc User := do
  let createdAt ← (cellAt row 5).asTime
  let id ← (cellAt row 0).asText
  let email ← (cellAt row 1).asText
  let passwordHash ← (cellAt row 2).asText
  let role ← (cellAt row 3).asMember roleOfValue
  let tenantId ← (cellAt row 4).asOptText
  .ok { id, email, passwordHash, role, tenantId, createdAt }

/-- The columns a session is selected with. -/
def sessionCells (s : Session) : List Cell :=
  [.text s.token, .text s.userId, .timestamp s.expiresAt, .timestamp s.createdAt]

/-- A fetched session row, decoded. -/
def rowToSession (row : List Cell) : Except Exc Session := do
  let expiresAt ← (cellAt row 2).asTime
  let createdAt ← (cellAt row 3).asTime
  let token ← (cellAt row 0).asText
  let userId ← (cellAt row 1).asText
  .ok { token, userId, expiresAt, createdAt }

theorem rowToUser_fetch (driver : Driver) (user : User) :
    rowToUser (driver.fetch (UserRow.ofUser user).cells) = .ok user := by
  have hat := answers_at (driver.answers (UserRow.ofUser user).cells)
  have hrole := Fetched.asMember (hat 3) (roleOfValue_roleValue user.role)
  rw [rowToUser, Fetched.asTime (hat 5), ok_bind, Fetched.asText (hat 0), ok_bind,
    Fetched.asText (hat 1), ok_bind, Fetched.asText (hat 2), ok_bind, hrole, ok_bind,
    Fetched.asOptText (hat 4), ok_bind]
  rfl

theorem rowToSession_fetch (driver : Driver) (session : Session) :
    rowToSession (driver.fetch (sessionCells session)) = .ok session := by
  have hat := answers_at (driver.answers (sessionCells session))
  rw [rowToSession, Fetched.asTime (hat 2), ok_bind, Fetched.asTime (hat 3), ok_bind,
    Fetched.asText (hat 0), ok_bind, Fetched.asText (hat 1), ok_bind]

/-- `users` and `sessions`. -/
structure Tables where
  users : Table UserRow.id := Table.empty
  sessions : Table Session.token := Table.empty

/-! ## The adapters -/

section Adapters

variable (U : Unicode) (sqlLower : String → String) (driver : Driver)

/-- `_USER_BY_EMAIL_SQL`, in any order. -/
def Tables.SelectsEmail (t : Tables) (email : String) (rows : List UserRow) : Prop :=
  t.users.Selects (fun r => sqlLower r.email = sqlLower email) (fun _ _ => True) rows

/-- `INSERT INTO users`, which both unique indexes guard. -/
def Tables.insertUser (t : Tables) (row : UserRow) : Option (Table UserRow.id) :=
  if t.users.rows.any fun r => r.email = row.email ∨ sqlLower r.email = sqlLower row.email then none
  else t.users.insert row

/-- `PostgresUserRepository` and `PostgresSessionRepository`; a statement the database refuses
answers nothing. -/
def postgres : Object (StoreCall.Answer (U := U)) Tables where
  Answers
    | .addUser user _, t, answer, t' => ∃ rows, t.SelectsEmail sqlLower user.email rows ∧
      match rows with
      | _ :: _ => answer = .error s!"email already exists: {user.email}" ∧ t' = t
      | [] => answer = .ok () ∧ ∃ users, t.insertUser sqlLower (.ofUser user) = some users ∧
        t' = { t with users }
    | .getUser userId, t, answer, t' =>
      firstRow (fun r => rowToUser (driver.fetch r.cells)) (t.users.get? userId).toList =
        .ok answer ∧ t' = t
    | .userByEmail email, t, answer, t' =>
      (∃ rows, t.SelectsEmail sqlLower email.1 rows ∧
        firstRow (fun r => rowToUser (driver.fetch r.cells)) rows = .ok answer) ∧ t' = t
    | .addSession session, t, _, t' => ∃ sessions, t.sessions.insert session = some sessions ∧
      t' = { t with sessions }
    | .getSession token, t, answer, t' =>
      firstRow (fun s => rowToSession (driver.fetch (sessionCells s)))
        (t.sessions.get? token).toList = .ok answer ∧ t' = t
    | .deleteSession token, t, answer, t' =>
      answer = (t.sessions.get? token).isSome ∧
        t' = { t with sessions := t.sessions.delete token }

end Adapters

/-! ## The refinement -/

/-- `LOWER` leaves a lowered text as it is. For ASCII letters every collation does; beyond them it
is the assumption that database and Python agree on what is lower case. -/
def LeavesLowered (U : Unicode) (sqlLower : String → String) : Prop :=
  ∀ s, lower U s = s → sqlLower s = s

/-- The tables hold what the dictionaries hold, and every email is lowered. -/
structure Tables.Holds (U : Unicode) (t : Tables) (s : Stores) : Prop where
  users : ∀ id, t.users.get? id = (s.users.get? id).map UserRow.ofUser
  keyed : s.users.Forall fun id user => user.id = id
  lowered : s.users.Forall fun _ user => lower U user.email = user.email
  emails : s.users.Unique fun user => some user.email
  sessions : ∀ token, t.sessions.get? token = s.sessions.get? token

namespace Tables.Holds

variable {U : Unicode} {sqlLower : String → String} {t : Tables} {s : Stores}

theorem init : Tables.Holds U {} {} where
  users _ := rfl
  keyed _ _ h := by cases h
  lowered _ _ h := by cases h
  emails _ _ _ _ _ h := by cases h
  sessions _ := rfl

/-- The rows are the users. -/
theorem mem_rows (h : t.Holds U s) {row : UserRow} :
    row ∈ t.users.rows ↔ ∃ user, user ∈ s.users.values ∧ row = .ofUser user := by
  have hget : row ∈ t.users.rows ↔ t.users.get? row.id = some row := by
    rw [Table.get?_eq_some_iff, and_iff_left rfl]
  rw [hget, h.users, Option.map_eq_some_iff]
  constructor
  · rintro ⟨user, huser, heq⟩
    exact ⟨user, Dict.mem_values_iff.mpr ⟨_, huser⟩, heq.symm⟩
  · rintro ⟨user, huser, rfl⟩
    obtain ⟨id, hid⟩ := Dict.mem_values_iff.mp huser
    have hkey : user.id = id := h.keyed _ _ hid
    exact ⟨user, by rw [UserRow.ofUser, hkey]; exact hid, rfl⟩

/-- Of a stored email and a lowered one, either comparison is equality. -/
theorem same_email (h : t.Holds U s) (hsql : LeavesLowered U sqlLower) {user : User}
    (huser : user ∈ s.users.values) {email : String} (hemail : lower U email = email) :
    (sqlLower user.email = sqlLower email ↔ user.email = email) ∧
      (lower U user.email = lower U email ↔ user.email = email) := by
  obtain ⟨id, hid⟩ := Dict.mem_values_iff.mp huser
  have hlowered : lower U user.email = user.email := h.lowered _ _ hid
  rw [hsql _ hlowered, hsql _ hemail, hlowered, hemail]
  exact ⟨Iff.rfl, Iff.rfl⟩

/-- A user with the email is the one `by_email` finds. -/
theorem byEmail_eq_some (h : t.Holds U s) (hsql : LeavesLowered U sqlLower) {email : String}
    (hemail : lower U email = email) {user : User} :
    s.users.byEmail U email = some user ↔ user ∈ s.users.values ∧ user.email = email := by
  rw [Users.byEmail]
  constructor
  · intro hfind
    have hmem := List.mem_of_find?_eq_some hfind
    have hsame := List.find?_some hfind
    exact ⟨hmem, (h.same_email hsql hmem hemail).2.mp (of_decide_eq_true hsame)⟩
  · rintro ⟨hmem, hmail⟩
    cases hfind : s.users.values.find? fun u => lower U u.email = lower U email with
    | none =>
      have hno := List.find?_eq_none.mp hfind user hmem
      exact absurd (decide_eq_true ((h.same_email hsql hmem hemail).2.mpr hmail)) hno
    | some other =>
      have hmem' := List.mem_of_find?_eq_some hfind
      have hsame := List.find?_some hfind
      have hmail' := (h.same_email hsql hmem' hemail).2.mp (of_decide_eq_true hsame)
      obtain ⟨id, hid⟩ := Dict.mem_values_iff.mp hmem
      obtain ⟨id', hid'⟩ := Dict.mem_values_iff.mp hmem'
      have hids : id' = id :=
        h.emails _ _ _ _ email hid' hid (congrArg some hmail') (congrArg some hmail)
      rw [hids, hid] at hid'
      exact hid'.symm

/-- What the query by email selects is the user with that email. -/
theorem selectsEmail (h : t.Holds U s) (hsql : LeavesLowered U sqlLower) {email : String}
    (hemail : lower U email = email) {rows : List UserRow}
    (hrows : t.SelectsEmail sqlLower email rows) :
    rows = (s.users.byEmail U email).toList.map UserRow.ofUser := by
  have hmem : ∀ row, row ∈ rows ↔ ∃ user, s.users.byEmail U email = some user ∧ row = .ofUser user := by
    intro row
    rw [hrows.1.mem_iff, List.mem_filter, h.mem_rows, decide_eq_true_eq]
    constructor
    · rintro ⟨⟨user, huser, rfl⟩, hsame⟩
      have hmail := (h.same_email hsql huser hemail).1.mp hsame
      exact ⟨user, (h.byEmail_eq_some hsql hemail).mpr ⟨huser, hmail⟩, rfl⟩
    · rintro ⟨user, hfind, rfl⟩
      obtain ⟨huser, hmail⟩ := (h.byEmail_eq_some hsql hemail).mp hfind
      exact ⟨⟨user, huser, rfl⟩, (h.same_email hsql huser hemail).1.mpr hmail⟩
  have hnodup : rows.Nodup := List.Nodup.of_map UserRow.id hrows.nodup
  cases hfind : s.users.byEmail U email with
  | none =>
    refine List.eq_nil_iff_forall_not_mem.mpr fun row hrow => ?_
    obtain ⟨user, huser, -⟩ := (hmem row).mp hrow
    rw [hfind] at huser
    cases huser
  | some user =>
    have hall : ∀ row ∈ rows, row = UserRow.ofUser user := by
      intro row hrow
      obtain ⟨user', huser', rfl⟩ := (hmem row).mp hrow
      rw [hfind] at huser'
      cases huser'
      rfl
    have hin : UserRow.ofUser user ∈ rows := (hmem _).mpr ⟨user, hfind, rfl⟩
    exact List.perm_singleton.mp
      ((List.perm_ext_iff_of_nodup hnodup (List.nodup_singleton _)).mpr fun row => by
        rw [List.mem_singleton]
        exact ⟨hall row, fun heq => heq ▸ hin⟩)

theorem firstRow_users (driver : Driver) (found : Option User) :
    firstRow (fun r : UserRow => rowToUser (driver.fetch r.cells))
      (found.toList.map UserRow.ofUser) = .ok found := by
  cases found with
  | none => rfl
  | some user =>
    dsimp only [Option.toList, List.map, firstRow]
    rw [rowToUser_fetch]
    rfl

/-- A new user in both. -/
theorem addUser (h : t.Holds U s) {user : User} (hlowered : lower U user.email = user.email)
    (hnew : ∀ other ∈ s.users.values, other.email ≠ user.email)
    {users : Table UserRow.id} (hinsert : t.users.insert (.ofUser user) = some users) :
    Tables.Holds U { t with users } { s with users := s.users.set user.id user } where
  users id := by
    have hkey : (UserRow.ofUser user).id = user.id := rfl
    rw [Table.get?_insert hkey hinsert, Dict.get?_set, h.users]
    by_cases hid : id = user.id
    · rw [if_pos hid, if_pos hid.symm]
      rfl
    · rw [if_neg hid, if_neg fun heq => hid heq.symm]
  keyed := h.keyed.set rfl
  lowered := h.lowered.set hlowered
  emails := by
    refine h.emails.set fun id other email hother hmail hmail' => ?_
    cases hmail'
    exact absurd (Option.some.inj hmail) (hnew other (Dict.mem_values_iff.mpr ⟨id, hother⟩))
  sessions := h.sessions

/-- The sessions of both, changed alike. -/
theorem withSessions (h : t.Holds U s) {stored : Table Session.token} {sessions : Sessions}
    (hsessions : ∀ token, stored.get? token = sessions.get? token) :
    Tables.Holds U { t with sessions := stored } { s with sessions } where
  users := h.users
  keyed := h.keyed
  lowered := h.lowered
  emails := h.emails
  sessions := hsessions

end Tables.Holds

section Refinement

variable {U : Unicode} {sqlLower : String → String} (hsql : LeavesLowered U sqlLower)
  {driver : Driver}

include hsql

theorem addUser_refines {t t' : Tables} {s : Stores} (h : t.Holds U s) {user : User}
    {lowered : lower U user.email = user.email} {answer : Except String Unit}
    (hanswer : (postgres U sqlLower driver).Answers (.addUser user lowered) t answer t') :
    ∃ s', (inMemory U).Answers (.addUser user lowered) s answer s' ∧ t'.Holds U s' := by
  obtain ⟨rows, hrows, hrest⟩ := hanswer
  have hfound := h.selectsEmail hsql lowered hrows
  dsimp only [inMemory, Object.ofFun]
  cases hmail : s.users.byEmail U user.email with
  | none =>
    rw [hmail] at hfound
    cases hfound
    obtain ⟨rfl, users, hinsert, rfl⟩ := hrest
    have hnew : ∀ other ∈ s.users.values, other.email ≠ user.email := by
      intro other hother hsame
      rw [(h.byEmail_eq_some hsql lowered).mpr ⟨hother, hsame⟩] at hmail
      cases hmail
    have hany : (s.users.values.any fun existing => lower U existing.email = lower U user.email) =
        false := by
      rw [List.any_eq_false]
      intro other hother hsame
      exact hnew other hother ((h.same_email hsql hother lowered).2.mp (of_decide_eq_true hsame))
    refine ⟨{ s with users := s.users.set user.id user }, ?_, ?_⟩
    · rw [Users.add, hany]
      rfl
    · rw [Tables.insertUser] at hinsert
      split at hinsert
      · cases hinsert
      · exact h.addUser lowered hnew hinsert
  | some other =>
    rw [hmail] at hfound
    cases hfound
    obtain ⟨rfl, rfl⟩ := hrest
    obtain ⟨hother, hsame⟩ := (h.byEmail_eq_some hsql lowered).mp hmail
    have hany : (s.users.values.any fun existing => lower U existing.email = lower U user.email) =
        true := by
      rw [List.any_eq_true]
      exact ⟨other, hother, decide_eq_true ((h.same_email hsql hother lowered).2.mpr hsame)⟩
    refine ⟨s, ?_, h⟩
    rw [Users.add, hany]
    rfl

/-- The Postgres adapters refine the in-memory ones. -/
theorem postgres_refines : (postgres U sqlLower driver).Refines (inMemory U) (Tables.Holds U) where
  answer := by
    intro c t a t' s h hanswer
    cases c with
    | addUser user lowered => exact addUser_refines hsql h hanswer
    | getUser userId =>
      obtain ⟨hfirst, rfl⟩ := hanswer
      refine ⟨s, ?_, h⟩
      rw [h.users, Option.toList_map, Tables.Holds.firstRow_users] at hfirst
      cases hfirst
      rfl
    | userByEmail email =>
      obtain ⟨⟨rows, hrows, hfirst⟩, rfl⟩ := hanswer
      refine ⟨s, ?_, h⟩
      rw [h.selectsEmail hsql email.2 hrows, Tables.Holds.firstRow_users] at hfirst
      cases hfirst
      rfl
    | addSession session =>
      obtain ⟨sessions, hinsert, rfl⟩ := hanswer
      refine ⟨_, rfl, h.withSessions fun token => ?_⟩
      have hkey : Session.token session = session.token := rfl
      rw [Table.get?_insert hkey hinsert, Sessions.add, Dict.get?_set, h.sessions]
      by_cases htoken : token = session.token
      · rw [if_pos htoken, if_pos htoken.symm]
      · rw [if_neg htoken, if_neg fun heq => htoken heq.symm]
    | getSession token =>
      obtain ⟨hfirst, rfl⟩ := hanswer
      refine ⟨s, ?_, h⟩
      rw [h.sessions] at hfirst
      dsimp only [inMemory, Object.ofFun]
      rw [Sessions.get]
      cases hsession : s.sessions.get? token with
      | none =>
        rw [hsession] at hfirst
        cases hfirst
        rfl
      | some session =>
        rw [hsession] at hfirst
        dsimp only [Option.toList, firstRow] at hfirst
        rw [rowToSession_fetch] at hfirst
        cases hfirst
        rfl
    | deleteSession token =>
      obtain ⟨rfl, rfl⟩ := hanswer
      refine ⟨{ s with sessions := s.sessions.erase token }, ?_, h.withSessions fun token' => ?_⟩
      · rw [h.sessions]
        rfl
      · rw [Table.get?_delete, Dict.get?_erase, h.sessions]
        by_cases htoken : token' = token
        · rw [if_pos htoken, if_pos htoken.symm]
        · rw [if_neg htoken, if_neg fun heq => htoken heq.symm]

end Refinement

/-! ## Every call is answered -/

/-- The id a call draws for a user. -/
def ServiceCall.userId? : ServiceCall → Option String
  | register draw .. => some draw.id
  | _ => none

/-- The token a call draws for a session. -/
def ServiceCall.token? : ServiceCall → Option String
  | login _ _ draw _ => some draw.token
  | _ => none

/-- What the calls draw is new: neither stored nor drawn twice. A uuid and a token of 32 random
bytes are, up to chance; the tables' primary keys would refuse one that is not. -/
structure Fresh (s : Stores) (cs : List ServiceCall) : Prop where
  ids : (cs.filterMap ServiceCall.userId?).Nodup
  newIds : ∀ id ∈ cs.filterMap ServiceCall.userId?, s.users.get? id = none
  tokens : (cs.filterMap ServiceCall.token?).Nodup
  newTokens : ∀ token ∈ cs.filterMap ServiceCall.token?, s.sessions.get? token = none

/-- The key the call writes is free. -/
def StoreCall.Free {U : Unicode} (s : Stores) : StoreCall U → Prop
  | addUser user _ => s.users.get? user.id = none
  | addSession session => s.sessions.get? session.token = none
  | _ => True

section Progress

variable {U : Unicode} {sqlLower : String → String} {driver : Driver} {t : Tables} {s : Stores}

theorem selectsEmail_filter (sqlLower : String → String) (t : Tables) (email : String) :
    t.SelectsEmail sqlLower email
      (t.users.rows.filter fun r => sqlLower r.email = sqlLower email) :=
  ⟨List.Perm.refl _, List.pairwise_of_forall fun _ _ => trivial⟩

/-- An INSERT goes through where the pre-check found nobody and the id is free. -/
theorem exists_addUser (h : t.Holds U s) {user : User}
    (lowered : lower U user.email = user.email) (hfree : s.users.get? user.id = none) :
    ∃ a t', (postgres U sqlLower driver).Answers (.addUser user lowered) t a t' := by
  have hrows := selectsEmail_filter sqlLower t user.email
  cases hfilter : t.users.rows.filter fun r => sqlLower r.email = sqlLower user.email with
  | cons row rows =>
    rw [hfilter] at hrows
    exact ⟨_, t, _, hrows, rfl, rfl⟩
  | nil =>
    rw [hfilter] at hrows
    have hnone : ∀ row ∈ t.users.rows, sqlLower row.email ≠ sqlLower user.email := by
      intro row hrow hsame
      have hin : row ∈ t.users.rows.filter fun r => sqlLower r.email = sqlLower user.email :=
        List.mem_filter.mpr ⟨hrow, decide_eq_true hsame⟩
      rw [hfilter] at hin
      cases hin
    have hany : (t.users.rows.any fun r => r.email = (UserRow.ofUser user).email ∨
        sqlLower r.email = sqlLower (UserRow.ofUser user).email) = false := by
      rw [List.any_eq_false]
      intro row hrow hsame
      rcases of_decide_eq_true hsame with hsame | hsame
      · exact hnone row hrow (congrArg sqlLower hsame)
      · exact hnone row hrow hsame
    cases hinsert : t.users.insert (.ofUser user) with
    | none =>
      obtain ⟨row, hrow⟩ := Table.insert_eq_none_iff.mp hinsert
      have hid : t.users.get? user.id = some row := hrow
      rw [h.users, hfree] at hid
      cases hid
    | some users =>
      refine ⟨.ok (), { t with users }, _, hrows, rfl, users, ?_, rfl⟩
      rw [Tables.insertUser, hany]
      exact hinsert

/-- A call whose key is free is answered. -/
theorem exists_answer (h : t.Holds U s) (hsql : LeavesLowered U sqlLower) {c : StoreCall U}
    (hfree : c.Free s) : ∃ a t', (postgres U sqlLower driver).Answers c t a t' := by
  cases c with
  | addUser user lowered => exact exists_addUser h lowered hfree
  | getUser userId =>
    refine ⟨s.users.get? userId, t, ?_, rfl⟩
    rw [h.users, Option.toList_map, Tables.Holds.firstRow_users]
  | userByEmail email =>
    have hrows := selectsEmail_filter sqlLower t email.1
    refine ⟨s.users.byEmail U email.1, t, ⟨_, hrows, ?_⟩, rfl⟩
    rw [h.selectsEmail hsql email.2 hrows, Tables.Holds.firstRow_users]
  | addSession session =>
    cases hinsert : t.sessions.insert session with
    | none =>
      obtain ⟨row, hrow⟩ := Table.insert_eq_none_iff.mp hinsert
      rw [h.sessions, hfree] at hrow
      cases hrow
    | some sessions => exact ⟨(), _, sessions, hinsert, rfl⟩
  | getSession token =>
    refine ⟨s.sessions.get? token, t, ?_, rfl⟩
    rw [h.sessions]
    cases s.sessions.get? token with
    | none => rfl
    | some session =>
      dsimp only [Option.toList, firstRow]
      rw [rowToSession_fetch]
      rfl
  | deleteSession token => exact ⟨_, _, rfl, rfl⟩

/-- A method of the service runs to its end where what it draws is new. -/
theorem exists_ends {hU : ∀ s, lower U (lower U s) = lower U s} {B : Bcrypt} {duration : Int}
    (h : t.Holds U s) (hsql : LeavesLowered U sqlLower) {c : ServiceCall}
    (hid : ∀ id ∈ c.userId?, s.users.get? id = none)
    (htoken : ∀ token ∈ c.token?, s.sessions.get? token = none) :
    ((service hU B duration c).Answered (postgres U sqlLower driver) t) := by
  cases c with
  | register draw email password role tenantId =>
    change (registerWith hU B draw email password role tenantId).Answered _ t
    unfold registerWith
    split
    · trivial
    · split
      · trivial
      · split
        · trivial
        next passwordHash _ =>
          refine ⟨exists_answer h hsql (hid draw.id rfl), fun added t' _ => ?_⟩
          cases added <;> trivial
  | login email password draw now =>
    refine ⟨exists_answer h hsql trivial, fun found t' hfound => ?_⟩
    obtain ⟨-, rfl⟩ := hfound
    cases found with
    | none => trivial
    | some user =>
      dsimp only
      split
      · trivial
      · split
        · trivial
        · exact ⟨exists_answer h hsql (htoken draw.token rfl), fun _ _ _ => trivial⟩
  | logout token => exact ⟨exists_answer h hsql trivial, fun _ _ _ => trivial⟩
  | authenticate token now =>
    change (authenticateWith token now).Answered _ t
    unfold authenticateWith
    split
    · trivial
    · refine ⟨exists_answer h hsql trivial, fun found t' hfound => ?_⟩
      obtain ⟨-, rfl⟩ := hfound
      cases found with
      | none => trivial
      | some session =>
        dsimp only
        split
        · exact ⟨exists_answer h hsql trivial, fun _ _ _ => trivial⟩
        · refine ⟨exists_answer h hsql trivial, fun found t' hfound => ?_⟩
          obtain ⟨-, rfl⟩ := hfound
          cases found with
          | none => exact ⟨exists_answer h hsql trivial, fun _ _ _ => trivial⟩
          | some user => trivial

/-- What the later calls draw is new after the first one too. -/
theorem Fresh.step {U : Unicode} {B : Bcrypt} {duration : Int} {c : ServiceCall}
    {cs : List ServiceCall} {s s' : Stores} {a : c.Answer} (h : Fresh s (c :: cs))
    (hanswer : (serviceInMemory U B duration).Answers c s a s') : Fresh s' cs := by
  obtain ⟨hids, hnewIds, htokens, hnewTokens⟩ := h
  cases c with
  | register draw email password role tenantId =>
    simp only [List.filterMap_cons, ServiceCall.userId?, ServiceCall.token?, List.nodup_cons,
      List.mem_cons, forall_eq_or_imp] at hids hnewIds htokens hnewTokens
    dsimp only [serviceInMemory, Object.ofFun] at hanswer
    cases hregister : register U B s.users draw email password role tenantId with
    | error e =>
      simp only [hregister] at hanswer
      cases hanswer
      exact ⟨hids.2, hnewIds.2, htokens, hnewTokens⟩
    | ok out =>
      obtain ⟨user, users⟩ := out
      simp only [hregister] at hanswer
      cases hanswer
      obtain ⟨-, rfl⟩ := register_eq_ok hregister
      refine ⟨hids.2, fun id hid => ?_, htokens, hnewTokens⟩
      have hne : draw.id ≠ id := by
        rintro rfl
        exact hids.1 hid
      rw [Dict.get?_set, if_neg hne]
      exact hnewIds.2 id hid
  | login email password draw now =>
    simp only [List.filterMap_cons, ServiceCall.userId?, ServiceCall.token?, List.nodup_cons,
      List.mem_cons, forall_eq_or_imp] at hids hnewIds htokens hnewTokens
    dsimp only [serviceInMemory, Object.ofFun] at hanswer
    cases hlogin : login U B duration s.users s.sessions email password draw now with
    | error e =>
      simp only [hlogin] at hanswer
      cases hanswer
      exact ⟨hids, hnewIds, htokens.2, hnewTokens.2⟩
    | ok out =>
      obtain ⟨user, session, sessions⟩ := out
      simp only [hlogin] at hanswer
      cases hanswer
      obtain ⟨-, -, -, rfl⟩ := login_eq_ok hlogin
      refine ⟨hids, hnewIds, htokens.2, fun token htoken => ?_⟩
      have hne : draw.token ≠ token := by
        rintro rfl
        exact htokens.1 htoken
      rw [Dict.get?_set, if_neg hne]
      exact hnewTokens.2 token htoken
  | logout token =>
    cases hanswer
    refine ⟨hids, hnewIds, htokens, fun token' htoken => ?_⟩
    dsimp only [logout, Sessions.delete]
    rw [Dict.get?_erase, hnewTokens token' htoken, ite_self]
  | authenticate token now =>
    cases hanswer
    refine ⟨hids, hnewIds, htokens, fun token' htoken => ?_⟩
    rcases authenticate_sessions s.users s.sessions token now with heq | ⟨gone, _, -, -, heq⟩
    · dsimp only
      rw [heq]
      exact hnewTokens token' htoken
    · dsimp only
      rw [heq, Dict.get?_erase, hnewTokens token' htoken, ite_self]

/-- Calls that draw new ids and tokens are all answered. -/
theorem answered_of_fresh {hU : ∀ s, lower U (lower U s) = lower U s} {B : Bcrypt}
    {duration : Int} (hsql : LeavesLowered U sqlLower) :
    ∀ {cs : List ServiceCall} {t : Tables} {s : Stores}, t.Holds U s → Fresh s cs →
      (Client.calls cs).Answered ((postgres U sqlLower driver).through (service hU B duration)) t
  | [], _, _, _, _ => trivial
  | c :: cs, t, s, h, hfresh => by
    have hmethod : (service hU B duration c).Answered (postgres U sqlLower driver) t := by
      refine exists_ends h hsql (fun id hid => ?_) fun token htoken => ?_
      · exact hfresh.newIds id (List.mem_filterMap.mpr ⟨c, List.mem_cons_self, hid⟩)
      · exact hfresh.newTokens token (List.mem_filterMap.mpr ⟨c, List.mem_cons_self, htoken⟩)
    refine Client.answered_calls_cons hmethod.exists_ends fun a t' hends => ?_
    obtain ⟨s', hmemory, h'⟩ := (postgres_refines hsql).ends h hends
    obtain ⟨_, hanswer, rfl⟩ := through_inMemory_refines.answer rfl hmemory
    exact answered_of_fresh hsql h' (hfresh.step hanswer)

end Progress

/-- **The service over Postgres** is the service in memory: calls that draw distinct ids and tokens
get over the one exactly the answers they get over the other.

The two hypotheses on the letters are about `lower` and `LOWER` being idempotent on what the service
hands over. Without fresh ids a run over the table is shorter, since the primary key refuses. -/
theorem service_over_postgres {U : Unicode} {sqlLower : String → String}
    (hU : ∀ s, lower U (lower U s) = lower U s) (hsql : LeavesLowered U sqlLower) (B : Bcrypt)
    (duration : Int) (driver : Driver) {cs : List ServiceCall}
    (hids : (cs.filterMap ServiceCall.userId?).Nodup)
    (htokens : (cs.filterMap ServiceCall.token?).Nodup)
    (answers : List ((c : ServiceCall) × c.Answer)) :
    (∃ tables, (Client.calls cs).Ends ((postgres U sqlLower driver).through (service hU B duration))
        {} answers tables) ↔
      ∃ stores, (Client.calls cs).Ends (serviceInMemory U B duration) {} answers stores := by
  have hforward : ∀ {answers tables},
      (Client.calls cs).Ends ((postgres U sqlLower driver).through (service hU B duration)) {}
        answers tables →
      ∃ stores, (Client.calls cs).Ends (serviceInMemory U B duration) {} answers stores := by
    intro answers tables h
    have hrefines : (postgres U sqlLower driver).Refines (inMemory U) (Tables.Holds U) :=
      postgres_refines hsql
    obtain ⟨stores, hstores, -⟩ :=
      (hrefines.through (service hU B duration)).ends Tables.Holds.init h
    obtain ⟨stores', hstores', -⟩ := through_inMemory_refines.ends rfl hstores
    exact ⟨stores', hstores'⟩
  constructor
  · rintro ⟨tables, h⟩
    exact hforward h
  · rintro ⟨stores, h⟩
    have hfresh : Fresh {} cs := ⟨hids, fun _ _ => rfl, htokens, fun _ _ => rfl⟩
    have hanswered : (Client.calls cs).Answered
        ((postgres U sqlLower driver).through (service hU B duration)) {} :=
      answered_of_fresh hsql Tables.Holds.init hfresh
    obtain ⟨answers', tables, h'⟩ := hanswered.exists_ends
    obtain ⟨stores', hstores'⟩ := hforward h'
    rw [Object.ends_ofFun_unique h hstores']
    exact ⟨tables, h'⟩

theorem toLower_toLower (c : Char) : c.toLower.toLower = c.toLower := by
  have hnat : c.toLower.toLower.toNat = c.toLower.toNat := by
    rw [toNat_toLower c.toLower, toNat_toLower c]
    grind
  exact Char.toNat_inj.mp hnat

/-- What is lowered stays as it is. -/
theorem lower_ascii_idem (s : String) :
    lower Unicode.ascii (lower Unicode.ascii s) = lower Unicode.ascii s := by
  rw [lower, lower]
  split
  next hascii =>
    split
    · rw [String.toList_ofList, List.map_map]
      congr 1
      exact List.map_congr_left fun c _ => toLower_toLower c
    · rfl
  next hascii => rw [show Unicode.ascii.lowerNonAscii s = s from rfl, if_neg hascii]; rfl

/-- Ana registers, logs in, asks for a page and logs out. -/
theorem ana_over_postgres : ∃ answers tables,
    (Client.calls [.register ⟨"u1", "$", 1⟩ "Ana@acme.test" "contraseña" .tenant (some "acme"),
      .login "ana@ACME.test" "contraseña" ⟨"5e1f", 2⟩ 2, .authenticate (some "5e1f") 3,
      .logout "5e1f"]).Ends
      ((postgres Unicode.ascii (lower Unicode.ascii) decodedDriver).through
        (service lower_ascii_idem plainBcrypt DEFAULT_SESSION_DURATION)) {} answers tables := by
  obtain ⟨answers, stores, h⟩ :=
    ((Object.ofFun_total _).answered (O := serviceInMemory Unicode.ascii plainBcrypt
      DEFAULT_SESSION_DURATION) (Client.calls _) {}).exists_ends
  exact ⟨answers, (service_over_postgres lower_ascii_idem (fun s hs => hs) plainBcrypt
    DEFAULT_SESSION_DURATION decodedDriver (by decide) (by decide) answers).mpr ⟨stores, h⟩⟩

end Wapsell.Auth
