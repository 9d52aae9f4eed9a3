import Wapsell.Lib.Dict
import Wapsell.Py.Json
import Wapsell.Py.Datetime

/-!
# The resources data layer: its rows

`sdk/wapsell/resources/models.py`. A resource's `data` is schema-less, so
it is a dictionary of JSON values; catalog items, contacts, activities and
tasks are all resources and differ only in `kind`.

Everything a tenant's agent can look up or write down is in this one
table, so the isolation of tenants, the limits of a listing and the
dedup key are each said once, of resources, and hold of the CRM with
them. The defaults are those of the pydantic models; `id` and the two
clocks, which have a factory there, are arguments here.
-/

namespace Wapsell.Resources

open Lib Py

/-- How a data source feeds the resource store. -/
inductive DataSourceKind
  | html
  | jsonApi
  | webhook
  | manual
  | csv
  deriving DecidableEq, Repr

/-- A registered upstream for a tenant.

The four fields of the last sync are written by the synchronizer alone; a source that was never
synced has none of them. -/
structure DataSource where
  id : String
  tenantId : String
  kind : DataSourceKind
  name : String
  config : Dict String Json := Dict.empty
  lastSyncedAt : Option Datetime := none
  lastSyncOk : Option Bool := none
  lastSyncCount : Option Int := none
  lastSyncError : Option String := none
  status : String := "active"
  createdAt : Datetime

/-- One item the agent can search and quote.

`external_id` is the id by which the upstream knows the item, and is unique only within a source. -/
structure Resource where
  id : String
  tenantId : String
  sourceId : Option String := none
  kind : String := "item"
  externalId : Option String := none
  data : Dict String Json := Dict.empty
  summary : String := ""
  status : String := "active"
  createdAt : Datetime
  updatedAt : Datetime

/-- The dedup key `(tenant_id, source_id, external_id)`, when neither id is NULL.

A row without one of the two ids has no key and is never merged with another, which is how UNIQUE
treats NULL. -/
def Resource.key (r : Resource) : Option (String × String × String) :=
  match r.sourceId, r.externalId with
  | some source, some external => some (r.tenantId, source, external)
  | _, _ => none

/-- One execution of a resource search. -/
structure QueryLogEntry where
  id : Option Nat := none
  tenantId : String
  buyerId : Option String := none
  queryText : Option String := none
  filters : Dict String Json := Dict.empty
  resultCount : Int := 0
  createdAt : Datetime

theorem Resource.key_eq_some {r : Resource} {k : String × String × String} :
    r.key = some k ↔ r.tenantId = k.1 ∧ r.sourceId = some k.2.1 ∧ r.externalId = some k.2.2 := by
  unfold Resource.key
  cases r.sourceId with
  | none => simp
  | some source =>
    cases r.externalId with
    | none => simp
    | some external =>
      obtain ⟨t, s, e⟩ := k
      simp only [Option.some.injEq, Prod.mk.injEq]

end Wapsell.Resources
