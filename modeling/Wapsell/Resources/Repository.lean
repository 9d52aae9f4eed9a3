import Mathlib.Data.List.Sort
import Wapsell.Resources.Models

/-!
# The in-memory resource repository

`InMemoryResourceRepository` of `sdk/wapsell/resources/repository.py`: a
dictionary from the resource's id. Every read that the agent, the
dashboard or the CRM makes goes through `listFor`, `search` or
`findByExternalId`.

A search can raise: an integer beyond every double in a field, or a
bound that `float` refuses, stops it at the row where it is met. The
rows are gone through in the order of the listing, so which row that is
depends on the whole store.

`upsert` is the one write that looks at other rows. It takes out those
that share the dedup key before it writes, so that the key stays unique
without an index.
-/

namespace Wapsell.Resources

open Lib Py

/-- `_by_id`. -/
abbrev Repository := Dict String Resource

namespace Repository

/-- `add`. -/
def add (repo : Repository) (resource : Resource) : Repository :=
  repo.set resource.id resource

/-- `upsert`: any other row that shares a non-null dedup key goes first.

A row without one of the two ids displaces nothing. One that was there under the same id is written
over in its place. -/
def upsert (repo : Repository) (resource : Resource) : Repository :=
  let others :=
    if resource.externalId ≠ none ∧ resource.sourceId ≠ none then
      repo.values.filter fun existing =>
        existing.tenantId = resource.tenantId ∧ existing.sourceId = resource.sourceId ∧
          existing.externalId = resource.externalId ∧ existing.id ≠ resource.id
    else []
  (others.foldl (fun d existing => d.erase existing.id) repo).set resource.id resource

/-- `get`. -/
def get (repo : Repository) (resourceId : String) : Option Resource := repo.get? resourceId

/-- `find_by_external_id`: the first match in insertion order.

The source is not part of the question, so of two sources with one external id the earlier row
answers. -/
def findByExternalId (repo : Repository) (tenantId kind externalId : String) : Option Resource :=
  repo.values.find? fun r => r.tenantId = tenantId ∧ r.kind = kind ∧ r.externalId = some externalId

/-- Newest first; ties keep the insertion order. -/
def newestFirst (rows : List Resource) : List Resource :=
  rows.insertionSort fun a b => b.createdAt ≤ a.createdAt

/-- The rows `list_for` selects. -/
def listed (tenantId : String) (kind : Option String) (r : Resource) : Bool :=
  r.tenantId = tenantId ∧ r.status = "active" ∧ (kind = none ∨ kind = some r.kind)

/-- `list_for`. -/
def listFor (repo : Repository) (tenantId : String) (kind : Option String) (limit : Int) :
    List Resource :=
  upTo limit (newestFirst (repo.values.filter (listed tenantId kind)))

/-- `_as_number`: `TypeError` and `ValueError` are the soft `None`; `OverflowError` is not
caught. -/
def asNumber (U : Unicode) (value : Json) : Except Exc (Option Double) :=
  match value.toFloat U with
  | .ok d => .ok (some d)
  | .error .typeError => .ok none
  | .error .valueError => .ok none
  | .error e => .error e

/-- `_matches_filter`.

The bounds are compared as doubles, and equality is `==`, of two texts whatever their case. A field
that is no number passes every `max_` and no `min_`. -/
def matchesFilter (U : Unicode) (data : Dict String Json) (key : String) (value : Json) :
    Except Exc Bool := do
  if startsWith "max_" key then
    match ← asNumber U (data.getD (drop 4 key) .null) with
    | none => pure true
    | some actual => do
      let bound ← value.toFloat U
      pure (actual.le bound)
  else if startsWith "min_" key then
    match ← asNumber U (data.getD (drop 4 key) .null) with
    | none => pure false
    | some actual => do
      let bound ← value.toFloat U
      pure (bound.le actual)
  else
    match data.getD key .null, value with
    | .str actual, .str wanted => pure (lower U actual == lower U wanted)
    | actual, wanted => pure (actual.pyEq wanted)

/-- Every filter, in order, up to the first that fails. -/
def matchesFilters (U : Unicode) (data : Dict String Json) : List (String × Json) → Except Exc Bool
  | [] => pure true
  | (key, value) :: rest => do
    if ← matchesFilter U data key value then matchesFilters U data rest else pure false

/-- The text the free-text query is looked for in. -/
def haystack (U : Unicode) (r : Resource) : String :=
  lower U (r.summary ++ " " ++ (Json.obj r.data.entries).dumps)

/-- `matches` inside `search`.

The text is looked for only in a row that the filters take. -/
def isMatch (U : Unicode) (filters : List (String × Json)) (needle : String) (r : Resource) :
    Except Exc Bool := do
  if ← matchesFilters U r.data filters then
    pure (needle = "" || isSubstring needle (haystack U r))
  else pure false

/-- `[r for r in rows if matches(r)]`. -/
def selectM (p : Resource → Except Exc Bool) : List Resource → Except Exc (List Resource)
  | [] => pure []
  | r :: rest => do
    let keep ← p r
    let kept ← selectM p rest
    pure (if keep then r :: kept else kept)

/-- `search`.

The query is lowered and stripped, and cuts down the newest ten thousand rows of the tenant and
kind; `limit` cuts what is left. -/
def search (U : Unicode) (repo : Repository) (tenantId : String) (filters : Dict String Json)
    (queryText : Option String) (kind : Option String) (limit : Int) :
    Except Exc (List Resource) := do
  let candidates := listFor repo tenantId kind 10000
  let needle := strip (lower U (queryText.getD ""))
  let rows ← selectM (isMatch U filters.entries needle) candidates
  pure (upTo limit rows)

/-- `delete`. -/
def delete (repo : Repository) (resourceId : String) : Repository := repo.erase resourceId

end Repository

end Wapsell.Resources
