import Wapsell.Ingestion.Hindsight
import Wapsell.Resources.Repository

/-!
# Skills

`sdk/wapsell/skills`: the two skills that read a store, and the registry
that invokes a skill by its name. Both take the tenant from the context they
are called with. The skills that read no store are parameters.

The tenant comes from the context and never from the parameters, which
the model writes. A context without a tenant is answered with a failure,
and no store is read.

What a skill answers is a `SkillResult`, also where it fails. What it
raises is something else, and comes through the registry; which
parameters raise is part of the model, because they are written by a
language model and can be anything JSON can say.
-/

namespace Wapsell.Skills

open Lib Py Ingestion Resources

/-- What a skill answers. -/
structure SkillResult where
  success : Bool
  data : List (String × Json) := []
  error : Option String := none

/-- `SkillResult.ok`. -/
def SkillResult.ok (data : List (String × Json)) : SkillResult := { success := true, data }

/-- `SkillResult.fail`. -/
def SkillResult.fail (error : String) : SkillResult := { success := false, error := some error }

/-! ## Parameters -/

/-- `(params.get(key) or "").strip()`.

A truthy value without `strip` raises, and nothing in the skills catches it. -/
def strippedParam (params : Dict String Json) (key : String) : Except Exc String :=
  match params.getD key .null with
  | .str s => .ok (strip s)
  | value => if value.truthy then .error .attributeError else .ok ""

/-- `int(params.get(key) or otherwise)`.

The value is converted before it is clamped, so what `int` refuses raises. -/
def intParam (U : Unicode) (params : Dict String Json) (key : String) (otherwise : Int) :
    Except Exc Int :=
  let value := params.getD key .null
  (if value.truthy then value else .int otherwise).toInt U

/-- The entries of a JSON object as a dictionary.

Of a key that comes twice the last value stays, at the first place. -/
def dictOf (fields : List (String × Json)) : Dict String Json :=
  fields.foldl (fun d e => d.set e.1 e.2) Dict.empty

/-- `params.get(key) or {}`, unless that is no dictionary. -/
def dictParam (params : Dict String Json) (key : String) : Option (Dict String Json) :=
  match params.getD key .null with
  | .obj fields => some (dictOf fields)
  | value => if value.truthy then none else some Dict.empty

/-! ## `catalog-lookup` -/

/-- `_DEFAULT_TOP_K`. -/
def DEFAULT_TOP_K : Int := 5

/-- A match of the catalog lookup. -/
def factMatch (f : Fact) : Json :=
  .obj [("content", .str f.content), ("source", .str f.source),
    ("metadata", .obj (f.metadata.entries.map fun e => (e.1, .str e.2)))]

/-- `CatalogLookupSkill.execute`. -/
def catalogLookup (U : Unicode) (facts : Hindsight) (context params : Dict String Json) :
    Except Exc SkillResult := do
  let query ← strippedParam params "query"
  let tenantId := context.getD "tenant_id" .null
  if query = "" then .ok (.fail "query is required")
  else if tenantId.truthy = false then
    .ok (.fail "context.tenant_id is required for tenant-scoped lookup")
  else
    let topK ← intParam U params "top_k" DEFAULT_TOP_K
    let found := facts.query U query (some (tenantId.toStr U)) topK
    let message :=
      if found.isEmpty then "no products found for: " ++ reprStr U query
      else "found " ++ toString found.length ++ " product(s) for: " ++ reprStr U query
    .ok (.ok [("matches", .arr (found.map factMatch)), ("message", .str message),
      ("tenant_id", tenantId)])

/-! ## `resource-search` -/

/-- `_DEFAULT_LIMIT`. -/
def DEFAULT_LIMIT : Int := 5

/-- `_MAX_LIMIT`. -/
def MAX_LIMIT : Int := 25

/-- A match of the resource search. -/
def resourceMatch (r : Resource) : Json :=
  .obj [("id", .str r.id), ("summary", .str r.summary), ("data", .obj r.data.entries),
    ("kind", .str r.kind)]

/-- What `resource-search` calls the repository with. -/
structure SearchCall where
  tenantId : String
  filters : Dict String Json
  queryText : Option String
  kind : Option String
  limit : Int

/-- `ResourceSearchSkill.execute`, up to the search: the call it makes, or the error it answers.

The limit is brought between one and `MAX_LIMIT`. The tenant's id and the kind are made texts by
`str`, whatever they are. -/
def searchCall (U : Unicode) (context params : Dict String Json) :
    Except Exc (Except String SearchCall) := do
  let tenantId := context.getD "tenant_id" .null
  if tenantId.truthy = false then .ok (.error "context.tenant_id is required for resource search")
  else match dictParam params "filters" with
    | none => .ok (.error "filters must be a dict of \x7bkey: value\x7d")
    | some filters =>
      let query ← strippedParam params "query"
      let kind := params.getD "kind" .null
      let limit ← intParam U params "limit" DEFAULT_LIMIT
      .ok (.ok {
        tenantId := tenantId.toStr U
        filters
        queryText := if query = "" then none else some query
        kind := if kind.truthy then some (kind.toStr U) else none
        limit := max 1 (min limit MAX_LIMIT) })

/-- The result of a search.

The filters are answered as they came, so that the agent sees what was applied. -/
def searchResult (context : Dict String Json) (call : SearchCall) (hits : List Resource) :
    SkillResult :=
  let message :=
    if hits.isEmpty then "no matches for the given filters / query"
    else "found " ++ toString hits.length ++ " match(es)"
  .ok [("matches", .arr (hits.map resourceMatch)), ("message", .str message),
    ("tenant_id", context.getD "tenant_id" .null), ("applied_filters", .obj call.filters.entries),
    ("query", (call.queryText.map Json.str).getD .null)]

/-- `ResourceSearchSkill.execute`. -/
def resourceSearch (U : Unicode) (resources : Repository) (context params : Dict String Json) :
    Except Exc SkillResult := do
  match ← searchCall U context params with
  | .error error => .ok (.fail error)
  | .ok call =>
    let hits ← resources.search U call.tenantId call.filters call.queryText call.kind call.limit
    .ok (searchResult context call hits)

/-! ## The registry -/

/-- `LeadQualifierSkill.execute` and `SalesCloserSkill.execute`, which see the context and the
parameters alone. -/
structure Storeless where
  leadQualifier : Dict String Json → Dict String Json → Except Exc SkillResult
  salesCloser : Dict String Json → Dict String Json → Except Exc SkillResult

/-- `SkillRegistry.invoke`: an unknown skill is a `KeyError`. What a skill raises comes through.

The names are those of the default registry. -/
def invoke (U : Unicode) (storeless : Storeless) (facts : Hindsight) (resources : Repository)
    (name : String) (context params : Dict String Json) : Except Exc SkillResult :=
  if name = "catalog-lookup" then catalogLookup U facts context params
  else if name = "lead-qualifier" then storeless.leadQualifier context params
  else if name = "sales-closer" then storeless.salesCloser context params
  else if name = "resource-search" then resourceSearch U resources context params
  else .error .keyError

/-- `WapsellClient.invoke_skill`, from the result. -/
def SkillResult.toJson (result : SkillResult) : Json :=
  .obj (result.data ++ [("success", .bool result.success),
    ("error", (result.error.map Json.str).getD .null)])

end Wapsell.Skills
