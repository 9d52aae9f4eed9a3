import Wapsell.Auth.Sessions

/-!
# Which passwords log in

A password may have 128 characters, and bcrypt reads 72 bytes. Behind any
run of the service the user of an email is the one who registered it, and
`login` with another password is refused exactly when the two encodings
differ within their first 72 bytes.

The 72 bytes are the documentation's and the hypothesis `Documented`
states them; nothing else is assumed of the hash. In particular the
theorem does not say that different passwords have different hashes,
only that bcrypt tells apart what it reads.

What this does not establish: that a long password is weak, or that the
limit of 128 characters is wrong. It says which passwords are the same
one.
-/

namespace Wapsell.Auth

open Lib Py

/-- `password.encode("utf-8")`. A character may take four bytes, so 72 bytes can be as few as 18
characters. -/
def encoded (password : String) : List UInt8 := password.toUTF8.data.toList

/-- What bcrypt reads of a password. The releases that the project admits cut the rest off
silently. -/
def BCRYPT_BYTES : Nat := 72

def bcryptInput (password : String) : List UInt8 := (encoded password).take BCRYPT_BYTES

/-- `bcrypt` as documented: a hash depends on the salt and the first 72 bytes and tells these apart,
and `checkpw` hashes again with the salt of the hash and compares. -/
structure Bcrypt.Documented (B : Bcrypt) : Prop where
  hashpw_eq_iff : ∀ salt p q hash, B.hashpw salt p = some hash →
    (B.hashpw salt q = some hash ↔ bcryptInput q = bcryptInput p)
  checkpw_eq : ∀ salt p q hash, B.hashpw salt p = some hash →
    B.checkpw q hash = some (decide (B.hashpw salt q = some hash))

section Login

variable {U : Unicode} {B : Bcrypt} {duration : Int}

/-- A stored hash verifies what bcrypt reads alike. -/
theorem verifyPassword_iff (hB : B.Documented) {salt p q hash : String}
    (h : B.hashpw salt p = some hash) :
    verifyPassword B q hash = true ↔ bcryptInput q = bcryptInput p := by
  rw [verifyPassword, hB.checkpw_eq salt p q hash h, Option.getD_some, decide_eq_true_eq,
    hB.hashpw_eq_iff salt p q hash h]

/-- A registration that goes through stores the hash of its password, under an email no other user
has. -/
theorem register_stores {users users' : Users} {draw : UserDraw} {email p : String} {role : UserRole}
    {tenantId : Option String} {user : User}
    (h : register U B users draw email p role tenantId = .ok (user, users')) :
    B.hashpw draw.salt p = some user.passwordHash ∧ users.add U user = .ok users' := by
  simp only [register, bind, Except.bind] at h
  split at h
  · cases h
  · split at h
    · cases h
    · split at h
      · cases h
      · next hash hhash =>
        split at h
        · cases h
        · next users₁ hadd =>
          cases h
          refine ⟨?_, hadd⟩
          unfold hashPassword at hhash
          split at hhash
          · next hash' hhash' =>
            cases hhash
            exact hhash'
          · cases hhash

/-- A user that is added is found under its email, unless one was before. -/
theorem byEmail_add {users users' : Users} {user : User} (hnew : users.get? user.id = none)
    (hadd : users.add U user = .ok users') (email : String) :
    users'.byEmail U email = (users.byEmail U email).or
      (if lower U user.email = lower U email then some user else none) := by
  unfold Users.add at hadd
  split at hadd
  · cases hadd
  · cases hadd
    rw [Users.byEmail, Users.byEmail, Dict.values_set_of_none user hnew, List.find?_append,
      List.find?_singleton]
    simp only [decide_eq_true_eq]

/-- No user was found under it. -/
theorem byEmail_of_add {users users' : Users} {user : User} (hadd : users.add U user = .ok users')
    {email : String} (hemail : lower U email = lower U user.email) :
    users.byEmail U email = none := by
  unfold Users.add at hadd
  split at hadd
  · cases hadd
  · next hfree =>
    refine List.find?_eq_none.mpr fun other hother hsame => hfree ?_
    rw [decide_eq_true_eq, hemail] at hsame
    exact List.any_eq_true.mpr ⟨other, hother, decide_eq_true hsame⟩

/-- A user that is found stays the one that is found. -/
theorem byEmail_authStep {s s' : AuthSystem} {call : AuthCall × Datetime} {email : String} {user : User}
    (h : s.users.byEmail U email = some user) (hstep : authStep U B duration s call = some s') :
    s'.users.byEmail U email = some user := by
  obtain ⟨call, now⟩ := call
  unfold authStep at hstep
  split at hstep
  · cases hstep
  · cases call with
    | register draw mail password role tenantId =>
      dsimp only at hstep
      split at hstep
      · cases hstep
      · next hfresh =>
        split at hstep
        · cases hstep
          exact h
        · next other users hregister =>
          cases hstep
          have hnew : s.users.get? other.id = none := by
            rw [(register_eq_ok hregister).1]
            exact Option.not_isSome_iff_eq_none.mp hfresh
          rw [byEmail_add hnew (register_stores hregister).2, h, Option.some_or]
    | login mail password draw =>
      dsimp only at hstep
      split at hstep
      · cases hstep
      · split at hstep <;> cases hstep <;> exact h
    | logout token =>
      cases hstep
      exact h
    | authenticate token =>
      cases hstep
      exact h

/-- A login under a user's email is refused exactly when its password is not verified. -/
theorem login_eq_authError_iff {users : Users} {sessions : Sessions} {email q : String}
    {draw : SessionDraw} {now : Datetime} {user : User}
    (h : users.byEmail U (lower U (strip email)) = some user) :
    (∃ message, login U B duration users sessions email q draw now = .error (.authError message)) ↔
      verifyPassword B q user.passwordHash = false := by
  unfold login
  rw [h]
  dsimp only
  split
  · next hwrong => exact iff_of_true ⟨_, rfl⟩ hwrong
  · next hright =>
    refine iff_of_false (fun ⟨_, hraised⟩ => ?_) hright
    split at hraised <;> cases hraised

end Login

/-- **Which passwords log in.** In every state behind a registration, a login under the email that
was registered is refused exactly when bcrypt reads its password otherwise than the registered one:
when the encodings differ within 72 bytes.

Between the registration and the login there may be any calls of the service, by anybody. What they
cannot do is to register the email a second time. -/
theorem login_refuses_iff {U : Unicode} {B : Bcrypt} (hB : B.Documented) {duration : Int}
    {s s' : AuthSystem} {draw : UserDraw} {email p : String} {role : UserRole} {tenantId : Option String}
    {user : User} {users : Users} (hfresh : s.users.get? draw.id = none)
    (hregister : register U B s.users draw email p role tenantId = .ok (user, users))
    {calls : List (AuthCall × Datetime)}
    (hrun : run (authStep U B duration) { s with users } calls = some s') {mail : String}
    (hmail : lower U (lower U (strip mail)) = lower U user.email) (q : String)
    (sessionDraw : SessionDraw) (now : Datetime) :
    (∃ message, login U B duration s'.users s'.sessions mail q sessionDraw now =
        .error (.authError message)) ↔
      bcryptInput q ≠ bcryptInput p := by
  obtain ⟨hhash, hadd⟩ := register_stores hregister
  have hnew : s.users.get? user.id = none := by rw [(register_eq_ok hregister).1, hfresh]
  have hstart : users.byEmail U (lower U (strip mail)) = some user := by
    rw [byEmail_add hnew hadd, byEmail_of_add hadd hmail, if_pos hmail.symm, Option.none_or]
  have hend : s'.users.byEmail U (lower U (strip mail)) = some user :=
    Leads.invariant (P := fun s => s.users.byEmail U (lower U (strip mail)) = some user)
      (fun s l s' hs hstep => byEmail_authStep hs hstep) ⟨calls, hrun⟩ hstart
  rw [login_eq_authError_iff hend, Ne, ← verifyPassword_iff hB hhash, Bool.not_eq_true]

/-! ## A hash that can be evaluated -/

/-- A byte as a character. -/
def byteChar (b : UInt8) : Char := Char.ofNat b.toNat

theorem byteChar_injective {a b : UInt8} (h : byteChar a = byteChar b) : a = b := by
  have hchar : ∀ c : UInt8, (byteChar c).toNat = c.toNat := by
    intro c
    have hvalid : c.toNat.isValidChar := .inl (Nat.lt_trans c.toNat_lt (by decide))
    rw [byteChar, Char.ofNat, dif_pos hvalid]
    rfl
  exact UInt8.toNat_inj.mp (by rw [← hchar a, h, hchar b])

/-- The first 72 bytes, as a text. -/
def digest (password : String) : String := String.ofList ((bcryptInput password).map byteChar)

/-- A hash that shows what it reads, and has no salt. It meets the documented assumptions, so they
can be met. -/
def plainBcrypt : Bcrypt where
  hashpw _ password := some (digest password)
  checkpw password hash := some (decide (some (digest password) = some hash))
  dummyHash := ""

theorem plainBcrypt_documented : plainBcrypt.Documented where
  hashpw_eq_iff salt p q hash h := by
    cases h
    constructor
    · intro h
      have hmap := String.ofList_injective (Option.some.inj h)
      exact List.map_injective_iff.mpr (fun _ _ hbyte => byteChar_injective hbyte) hmap
    · intro h
      show some (digest q) = some (digest p)
      rw [digest, digest, h]
  checkpw_eq salt p q hash h := rfl

/-- 72 letters, and one more. -/
def longPassword (last : Char) : String := String.ofList (List.replicate 72 'a' ++ [last])

/-- The user of `a@b.c`. -/
def mailUser (password : String) : User :=
  { id := "u1", email := "a@b.c", passwordHash := digest password, role := .tenant, tenantId := none
    createdAt := 0 }

/-- It registers with any password that is accepted. -/
theorem register_mailUser {password : String} (h : validatePassword password = .ok ()) :
    register Unicode.ascii plainBcrypt Dict.empty ⟨"u1", "", 0⟩ "a@b.c" password .tenant none =
      .ok (mailUser password, Dict.empty.set "u1" (mailUser password)) := by
  have hemail : validateEmail "a@b.c" = .ok () := by decide
  have hlower : lower Unicode.ascii (strip "a@b.c") = "a@b.c" := by decide
  simp only [register, hemail, h, hlower, bind, Except.bind, hashPassword, plainBcrypt]
  rfl

/-- After the user has logged in and out, and another has registered, another short password is
refused. -/
theorem other_password_refused : ∃ s', run (authStep Unicode.ascii plainBcrypt DEFAULT_SESSION_DURATION)
    { AuthSystem.init 0 with users := Dict.empty.set "u1" (mailUser "password") }
    [(.login "a@b.c" "password" ⟨"5e1f", 1⟩, 1), (.logout "5e1f", 2),
      (.register ⟨"u2", "", 3⟩ "x@y.z" "contraseña" .tenant none, 3)] = some s' ∧
    ∃ message, login Unicode.ascii plainBcrypt DEFAULT_SESSION_DURATION s'.users s'.sessions "a@b.c"
      "passwore" ⟨"t", 4⟩ 4 = .error (.authError message) := by
  have hother : bcryptInput "passwore" ≠ bcryptInput "password" := by decide
  have hmail : lower Unicode.ascii (lower Unicode.ascii (strip "a@b.c")) =
      lower Unicode.ascii (mailUser "password").email := by decide
  obtain ⟨s', hrun⟩ : ∃ s', run (authStep Unicode.ascii plainBcrypt DEFAULT_SESSION_DURATION)
      { AuthSystem.init 0 with users := Dict.empty.set "u1" (mailUser "password") }
      [(.login "a@b.c" "password" ⟨"5e1f", 1⟩, 1), (.logout "5e1f", 2),
        (.register ⟨"u2", "", 3⟩ "x@y.z" "contraseña" .tenant none, 3)] = some s' :=
    Option.isSome_iff_exists.mp (by decide +kernel)
  exact ⟨s', hrun, (login_refuses_iff (s := AuthSystem.init 0) plainBcrypt_documented rfl
    (register_mailUser (by decide)) hrun hmail "passwore" ⟨"t", 4⟩ 4).mpr hother⟩

/-- A password that differs from the registered one in its 73rd letter logs in. -/
theorem not_login_refuses : ¬ ∀ (U : Unicode) (B : Bcrypt), B.Documented →
    ∀ (duration : Int) (s s' : AuthSystem) (draw : UserDraw) (email p : String) (role : UserRole)
      (tenantId : Option String) (user : User) (users : Users)
      (calls : List (AuthCall × Datetime)), s.users.get? draw.id = none →
      register U B s.users draw email p role tenantId = .ok (user, users) →
      run (authStep U B duration) { s with users } calls = some s' →
      ∀ q, q ≠ p → validatePassword q = .ok () → ∀ sessionDraw now,
        ∃ message, login U B duration s'.users s'.sessions email q sessionDraw now =
          .error (.authError message) := by
  intro h
  have hsame : bcryptInput (longPassword 'c') = bcryptInput (longPassword 'b') := by decide
  have hrefused := h Unicode.ascii plainBcrypt plainBcrypt_documented DEFAULT_SESSION_DURATION
    (AuthSystem.init 0) _ ⟨"u1", "", 0⟩ "a@b.c" (longPassword 'b') .tenant none _ _ [] rfl
    (register_mailUser (by decide)) (run_nil _) (longPassword 'c') (by decide)
    (by decide) ⟨"t", 0⟩ 0
  have hfound : Users.byEmail Unicode.ascii (Dict.empty.set "u1" (mailUser (longPassword 'b')))
      (lower Unicode.ascii (strip "a@b.c")) = some (mailUser (longPassword 'b')) := by decide
  have hwrong := (login_eq_authError_iff hfound).mp hrefused
  have hverified := (verifyPassword_iff plainBcrypt_documented
    (show plainBcrypt.hashpw "" (longPassword 'b') = some (mailUser (longPassword 'b')).passwordHash
      from rfl)).mpr hsame
  rw [hwrong] at hverified
  cases hverified

end Wapsell.Auth
