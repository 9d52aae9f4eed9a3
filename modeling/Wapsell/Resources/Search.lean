import Wapsell.Lib.Select
import Wapsell.Postgres.Jsonb
import Wapsell.Resources.Postgres

/-!
# Structured search in Postgres

`PostgresResourceRepository.search`, called without a query text. The loop
over the filters makes a clause of each `max_` and `min_` entry and one
containment clause of the others. Postgres evaluates the clauses of a row in
an order it does not promise, up to the first that is not true, and a cast
that fails raises from the whole query.

The SELECT names the tenant and the status besides, and orders and
limits the rows. A `Plan` is some order of the clauses; a theorem over
all plans covers the one that Postgres picks.

**What this does not establish.** The search with a query text, which
ranks by Postgres's text search, and is not compared with the one in
memory.
-/

namespace Wapsell.Resources

open Lib Py Postgres

/-- Which way an entry bounds its field. -/
inductive Side
  | max
  | min
  deriving DecidableEq, Repr

/-- `actual <= bound`, or `actual >= bound`. -/
def Side.holds {α : Type} (le : α → α → Bool) : Side → α → α → Bool
  | .max, actual, bound => le actual bound
  | .min, actual, bound => le bound actual

/-- The side and the field of a `max_` or `min_` entry.

The two prefixes are taken off by their length, so what is left may again begin with one of them and
is then the name of a field. -/
def boundOf (key : String) : Option (Side × String) :=
  if startsWith "max_" key then some (.max, drop 4 key)
  else if startsWith "min_" key then some (.min, drop 4 key)
  else none

/-- A clause on the `data` of a row, its parameters bound.

A bound that is null is bound as NULL, and the clause is then true of no row. -/
inductive Clause
  /-- `(data ? field AND (data->>field)::numeric <= bound)`, or `>=`. -/
  | bound (side : Side) (field : String) (value : Option Numeric)
  /-- `data @> wanted`. -/
  | containment (wanted : List (String × Json))

/-- The clauses of the `max_` and `min_` entries, in their order.

A value that cannot be bound as a number raises before the query is sent, whatever the rows are. -/
def boundClauses (C : Casts) : List (String × Json) → Except SqlError (List Clause)
  | [] => .ok []
  | (key, value) :: rest =>
    match boundOf key with
    | none => boundClauses C rest
    | some (side, field) => do
      let parameter ← C.ofParameter value
      let clauses ← boundClauses C rest
      .ok (.bound side field parameter :: clauses)

/-- The `containment` dictionary.

They make one clause together, so the order among them is not seen. -/
def equalities (filters : List (String × Json)) : List (String × Json) :=
  filters.filter fun e => (boundOf e.1).isNone

/-- The clauses on `data`.

Without an equality there is no containment clause. A NaN or an infinity in one is no JSON, and the
parameter is refused. -/
def clauses (C : Casts) (filters : List (String × Json)) : Except SqlError (List Clause) := do
  let bounds ← boundClauses C filters
  match equalities filters with
  | [] => .ok bounds
  | wanted =>
    if wanted.all fun e => isStandard e.2 then .ok (bounds ++ [.containment wanted])
    else .error .invalidJson

/-- A clause on a row; `none` is NULL.

A field that is missing fails the first half of a bound and leaves the cast out, where a field that
is null is cast to NULL. -/
def Clause.eval (C : Casts) (data : Dict String Json) : Clause → Except SqlError (Option Bool)
  | .bound side field value => do
    let actual ← C.ofField (data.get? field)
    match (data.get? field).isSome, actual, value with
    | false, _, _ => .ok (some false)
    | true, some x, some y => .ok (some (side.holds Numeric.le x y))
    | true, _, _ => .ok none
  | .containment wanted => .ok (some (containsFields data.entries wanted))

/-- The `WHERE` of a row, clause by clause.

What is not true ends the row, NULL like false. The clauses behind it are not evaluated, so a cast
that would fail there does not. -/
def evalWhere (C : Casts) (data : Dict String Json) : List Clause → Except SqlError Bool
  | [] => .ok true
  | clause :: rest => do
    match ← clause.eval C data with
    | some true => evalWhere C data rest
    | _ => .ok false

/-- An order of evaluation. -/
structure Plan where
  order : List Clause → List Clause
  perm : ∀ clauses, (order clauses).Perm clauses

/-- As written. -/
def Plan.asWritten : Plan where
  order := id
  perm _ := List.Perm.refl _

/-- `search`.

One row that raises is enough to fail the query, also a row that the limit would have cut off. -/
def Database.search (C : Casts) (plan : Plan) (db : Database) (tenantId : String)
    (filters : Dict String Json) (kind : Option String) (limit : Int) :
    Except SqlError (List Resource) := do
  let clauses ← clauses C filters.entries
  if limit < 0 then .error .negativeLimit
  else
    let rows ← selectE (fun r => evalWhere C r.data (plan.order clauses))
      (db.rows.values.filter (Repository.listed tenantId kind))
    .ok ((Repository.newestFirst rows).take limit.toNat)

end Wapsell.Resources
