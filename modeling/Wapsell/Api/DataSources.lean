import Wapsell.Lib.Run
import Wapsell.Api.Access
import Wapsell.Resources.Sync

/-!
# The data source endpoints

`create_data_source`, `sync_data_source` and `delete_data_source` of
`services/api/main.py` over the in-memory stores, and the scheduler beside
them. Of these only a sync awaits: it holds the source it has read, and
anything may happen before its fetch is back.

A request that awaits is two labels, its start and its end, with what it
holds kept in between under the id of its task. The held source is a
copy: a delete or a second sync that comes in between does not change
it, and that is what the theorems about references turn on.

**What this does not establish.** The list routes, which change nothing,
and the access checks, which are those of every route.
-/

namespace Wapsell.Api

open Lib Py Resources

/-- `DataSourceCreate`. -/
structure DataSourceCreate where
  kind : DataSourceKind
  name : String
  config : Dict String Json := Dict.empty

/-- The defaults of a fresh `DataSource`. -/
structure SourceDraw where
  id : String
  createdAt : Datetime
  deriving DecidableEq, Repr

/-- The source behind an id, when it is the tenant's.

A source of another tenant is answered like one that does not exist. -/
def sourceOr404 (sources : Sources) (tenantId sourceId : String) :
    Except HTTPException DataSource :=
  match sources.get sourceId with
  | none => .error ⟨404, "source not found"⟩
  | some source =>
    if source.tenantId ≠ tenantId then .error ⟨404, "source not found"⟩ else .ok source

section Routes

variable (required : Bool) (caller : Option User)

/-- `create_data_source`.

The config is taken as it is. Whether it fits the kind is asked by the sync. -/
def createDataSource (tenants : Tenants.Repository) (sources : Sources) (draw : SourceDraw)
    (tenantId : String) (req : DataSourceCreate) : Except HTTPException (Sources × DataSource) := do
  let _ ← assertTenantAccess required caller tenantId
  let _ ← tenantOr404 tenants tenantId
  let source : DataSource :=
    { id := draw.id, tenantId, kind := req.kind, name := req.name, config := req.config
      createdAt := draw.createdAt }
  .ok (sources.add source, source)

/-- `delete_data_source`.

In memory the rows of the source keep naming it; the table sets their column to NULL. -/
def deleteDataSource (sources : Sources) (tenantId sourceId : String) :
    Except HTTPException Sources := do
  let _ ← assertTenantAccess required caller tenantId
  let _ ← sourceOr404 sources tenantId sourceId
  .ok (sources.delete sourceId)

/-- `sync_data_source`, up to the fetch of `sync`: the source it holds. -/
def startSync (sources : Sources) (tenantId sourceId : String) : Except HTTPException DataSource := do
  let _ ← assertTenantAccess required caller tenantId
  sourceOr404 sources tenantId sourceId

end Routes

/-- The stores, and the syncs that await their fetch, each with the source it read when it began.

A flight is not tied to the source it holds: a delete leaves it in flight. -/
structure SyncSystem where
  store : Store := {}
  flights : Dict Nat DataSource := Dict.empty

/-- Nothing stored, nothing in flight. -/
def SyncSystem.init : SyncSystem := {}

/-- One thing that can happen next. -/
inductive SyncLabel
  | created (caller : Option User) (tenants : Tenants.Repository) (draw : SourceDraw)
      (tenantId : String) (req : DataSourceCreate)
  | deleted (caller : Option User) (tenantId sourceId : String)
  | requested (i : Nat) (caller : Option User) (tenantId sourceId : String)
  /-- `tick_once` of the scheduler comes to a source. -/
  | scheduled (i : Nat) (sourceId : String)
  | fetched (i : Nat) (upstream : Upstream) (draws : List RowDraw) (now : Datetime)

/-- One row drawn for each that is fetched, under ids that are not there. This is what `uuid4` is
taken for. -/
def drawsFit (U : Unicode) (repo : Repository) (source : DataSource) (upstream : Upstream)
    (draws : List RowDraw) : Bool :=
  match fetch U source upstream with
  | .error _ => true
  | .ok rows => draws.length = rows.length ∧ (draws.map RowDraw.id).Nodup ∧
      draws.all fun draw => (repo.get? draw.id).isNone

/-- One step. A request that is refused, and a sync of a source that is not there, change nothing,
and are steps all the same. -/
def syncSystemStep (U : Unicode) (sha256 : String → String) (required : Bool) (s : SyncSystem) :
    SyncLabel → Option SyncSystem
  | .created caller tenants draw tenantId req =>
    if (s.store.sources.get? draw.id).isSome then none
    else match createDataSource required caller tenants s.store.sources draw tenantId req with
      | .error _ => some s
      | .ok (sources, _) => some { s with store := { s.store with sources } }
  | .deleted caller tenantId sourceId =>
    match deleteDataSource required caller s.store.sources tenantId sourceId with
    | .error _ => some s
    | .ok sources => some { s with store := { s.store with sources } }
  | .requested i caller tenantId sourceId =>
    if (s.flights.get? i).isSome then none
    else match startSync required caller s.store.sources tenantId sourceId with
      | .error _ => some s
      | .ok source => some { s with flights := s.flights.set i source }
  | .scheduled i sourceId =>
    if (s.flights.get? i).isSome then none
    else match s.store.sources.get sourceId with
      | none => some s
      | some source => some { s with flights := s.flights.set i source }
  | .fetched i upstream draws now =>
    match s.flights.get? i with
    | none => none
    | some source =>
      if drawsFit U s.store.resources source upstream draws then some
        { store := (finishSync sha256 s.store source (fetch U source upstream) draws now).2
          flights := s.flights.erase i }
      else none

end Wapsell.Api
