import Wapsell.Crm.Recorder
import Wapsell.Postgres.Operations
import Wapsell.Resources.Postgres

/-!
# One failed statement on the process-wide connection

All repositories share one connection, opened without autocommit, and no
method rolls back. So the first statement the database refuses is the last
one it answers: whatever any repository sends afterwards is refused with
it. An operation after the failure is not touched by it exactly when it
sends no statement at all.

Postgres aborts the transaction of a failed statement and answers every
further one with an error until a rollback. The connection begins a
transaction with its first statement and none of the repositories ends
one that failed, so the abort is for good. `calls_isolated_iff` is about
any list of calls on any of the eleven repositories, whatever the
database makes of their statements.

What this does not establish: which statements are refused in practice.
That is the schema's matter; the example at the end is one of them.
-/

namespace Wapsell.Postgres

open Lib Py Inbox Memory Resources

section Calls

variable {δ η : Type} (U : Unicode) (exec : δ → Statement → Except η (List Row × δ))

/-- The connection after a list of calls. A call whose statement is refused raises, and the caller
goes on with the next, as the handlers of the service do. -/
def afterCalls (calls : List Call) (c : Connection δ) : Connection δ :=
  after exec (calls.map (Call.script U)) c

/-- The database refuses a statement of the call. -/
def RefusedCall (call : Call) (c : Connection δ) : Prop := Refused exec (call.script U) c

/-- A split of the scripts of some calls is a split of the calls. -/
theorem split_calls {calls : List Call} {pre : List Op} {op : Op} {post : List Op}
    (h : calls.map (Call.script U) = pre ++ op :: post) :
    ∃ pre' call post', calls = pre' ++ call :: post' ∧ pre'.map (Call.script U) = pre ∧
      call.script U = op ∧ post'.map (Call.script U) = post := by
  obtain ⟨pre', rest, rfl, hpre, hrest⟩ := List.map_eq_append_iff.mp h
  obtain ⟨call, post', rfl, hcall, hpost⟩ := List.map_eq_cons_iff.mp hrest
  exact ⟨pre', call, post', rfl, hpre, hcall, hpost⟩

/-- **Failure isolation of the repositories.** Calls on the shared connection are isolated from the
failures among them exactly when no call after a refused one sends a statement. The tables, what a
statement does to them and what it refuses are parameters. -/
theorem calls_isolated_iff (c : Connection δ) (calls : List Call) :
    Isolated exec c (calls.map (Call.script U)) ↔
      ∀ pre call post, calls = pre ++ call :: post →
        RefusedCall U exec call (afterCalls U exec pre c) → ∀ q ∈ post, q.Silent U := by
  have hbare : ∀ q ∈ calls.map (Call.script U), q.bareCommit = false := by
    intro q hq
    obtain ⟨call, -, rfl⟩ := List.mem_map.mp hq
    exact call.bareCommit U
  rw [isolated_iff hbare]
  constructor
  · intro h pre call post hcalls hrefused q hq
    have hsplit : calls.map (Call.script U) = pre.map (Call.script U) ++
        call.script U :: post.map (Call.script U) := by
      rw [hcalls, List.map_append, List.map_cons]
    exact Call.silent_iff.mp (h _ _ _ hsplit hrefused _ (List.mem_map_of_mem hq))
  · intro h pre op post hops hrefused q hq
    obtain ⟨pre', call, post', hcalls, rfl, rfl, rfl⟩ := split_calls U hops
    obtain ⟨q', hq', rfl⟩ := List.mem_map.mp hq
    exact Call.silent_iff.mpr (h pre' call post' hcalls hrefused q' hq')

variable {U exec}

/-- After a failed step nothing is answered and nothing is committed: the `remember` of the agent's
reply, which a turn issues whatever happened before, raises. -/
theorem reply_lost {c : Connection δ} {pre post : List Call} {call : Call}
    (hrefused : RefusedCall U exec call (afterCalls U exec pre c)) (buyerId : String)
    (reply : BuyerInteraction) :
    let c' := afterCalls U exec (pre ++ call :: post) c
    perform exec (Call.script U (.memory (.remember buyerId reply))) c' = (.error .aborted, c') ∧
      c'.committed = (afterCalls U exec pre c).committed := by
  intro c'
  obtain ⟨-, haborted, hcommitted⟩ := perform_of_refused hrefused
  have hbare : ∀ q ∈ post.map (Call.script U), q.bareCommit = false := by
    intro q hq
    obtain ⟨q', -, rfl⟩ := List.mem_map.mp hq
    exact q'.bareCommit U
  have hc' : c' = (perform exec (call.script U) (afterCalls U exec pre c)).2 := by
    show after exec ((pre ++ call :: post).map (Call.script U)) c = _
    rw [List.map_append, after_append, List.map_cons]
    exact after_of_aborted hbare haborted
  rw [hc']
  exact ⟨perform_of_aborted rfl haborted, hcommitted⟩

end Calls

/-! ## A second message of a known contact -/

/-- The tables an inbound turn writes. -/
structure Tables where
  resources : Database := Database.empty
  interactions : List (String × BuyerInteraction) := []
  pauses : Pauses := Dict.empty

namespace Tables

/-- The statements on the tables of a turn. -/
def exec (db : Tables) : Statement → Except Violation (List Row × Tables)
  | .resources (.insert resource) => do
    let resources ← db.resources.add resource
    pure ([], { db with resources })
  | .resources (.upsert resource) => do
    let resources ← db.resources.upsert resource
    pure ([], { db with resources })
  | .resources (.findByExt tenantId kind externalId) =>
    let matching := db.resources.rows.values.filter fun r =>
      r.tenantId = tenantId ∧ r.kind = kind ∧ r.externalId = some externalId
    pure (((Repository.newestFirst matching).take 1).map .resource, db)
  | .interactions (.insert buyerId interaction) =>
    pure ([], { db with interactions := db.interactions ++ [(buyerId, interaction)] })
  | .interactions (.recallLimited buyerId limit) =>
    let bucket := db.interactions.filter fun e => e.1 = buyerId
    pure ((bucket.drop (bucket.length - limit.toNat)).map fun e => .interaction e.2, db)
  | .botPauses (.isPaused tenantId buyerId cutoff) =>
    pure (if db.pauses.isPaused tenantId buyerId cutoff then [.one] else [], db)
  | _ => pure ([], db)

end Tables

/-- The constraint that refused an operation. -/
private def refusal : Except (Failure Raised Violation) Value → Option Violation
  | .error (.refused v) => some v
  | _ => none

/-- The contact's first message, as far as the resources go. -/
private def firstContact : Resource :=
  Crm.newContact "acme" "5491100" (some "Ana") 0 ⟨0, "c1", 0, 0⟩

private def turnOf (role : Role) (text : String) : BuyerInteraction := { text, role, at_ := 1 }

/-- What the turn of the second message calls up to the contact's update. -/
private def beforeUpsert : List Call :=
  [.resources (.add firstContact), .memory (.remember "acme:5491100" (turnOf .buyer "hola")),
    .resources (.findByExternalId "acme" "contact" "buyer:5491100")]

/-- The contact with one turn more. -/
private def contactUpsert : Call :=
  .resources (.upsert (Crm.bumpedContact firstContact "5491100" (some "Ana") 1 1))

/-- What the turn calls after it: each raises, and each exception is swallowed. -/
private def afterUpsert : List Call :=
  [.botPauses (.isPaused "acme" "acme:5491100" 1), .memory (.recall_ "acme:5491100" (some 6)),
    .memory (.remember "acme:5491100" (turnOf .agent "Te respondemos en unos minutos.")),
    .resources (.findByExternalId "acme" "contact" "buyer:5491100")]

/-- The update of the contact breaks the primary key, and the reply of that turn is not stored. -/
theorem not_calls_isolated : ¬ ∀ (U : Unicode) (exec : Tables → Statement →
    Except Violation (List Row × Tables)) (db : Tables) (calls : List Call),
    Isolated exec (Connection.opened db) (calls.map (Call.script U)) := by
  intro h
  have hiso := h Unicode.ascii Tables.exec {} (beforeUpsert ++ contactUpsert :: afterUpsert)
  have hrefused : refusal (perform Tables.exec (contactUpsert.script Unicode.ascii)
      (afterCalls Unicode.ascii Tables.exec beforeUpsert (Connection.opened {}))).1 =
        some .primaryKey := by
    decide
  have hreply : ((outcomes Tables.exec (afterUpsert.map (Call.script Unicode.ascii))
      (afterCalls Unicode.ascii Tables.exec beforeUpsert (Connection.opened {}))).map
        Except.isOk) = [true, true, true, true] := by
    decide
  have hlost : ((outcomes Tables.exec (afterUpsert.map (Call.script Unicode.ascii))
      (afterCalls Unicode.ascii Tables.exec (beforeUpsert ++ [contactUpsert])
        (Connection.opened {}))).map Except.isOk) = [false, false, false, false] := by
    decide
  have hraised : Refused Tables.exec (contactUpsert.script Unicode.ascii)
      (after Tables.exec (beforeUpsert.map (Call.script Unicode.ascii)) (Connection.opened {})) := by
    unfold refusal afterCalls at hrefused
    split at hrefused
    next v hv => exact ⟨v, hv⟩
    · cases hrefused
  obtain ⟨hsame, -⟩ := hiso (beforeUpsert.map (Call.script Unicode.ascii))
    (contactUpsert.script Unicode.ascii) (afterUpsert.map (Call.script Unicode.ascii))
    (by rw [List.map_append, List.map_cons]) hraised
  have hflags := congrArg (List.map Except.isOk) hsame
  rw [show beforeUpsert.map (Call.script Unicode.ascii) ++ [contactUpsert.script Unicode.ascii] =
    (beforeUpsert ++ [contactUpsert]).map (Call.script Unicode.ascii) by
      rw [List.map_append]
      rfl] at hflags
  exact absurd (hlost.symm.trans (hflags.trans hreply)) (by decide)

end Wapsell.Postgres
