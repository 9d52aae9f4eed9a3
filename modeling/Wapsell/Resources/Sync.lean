import Wapsell.Resources.Adapters
import Wapsell.Resources.Repository

/-!
# The synchronizer

`sdk/wapsell/resources/sync.py` over the in-memory stores. `sync` awaits its
fetch: before it the source is looked up, after it the rows are upserted
one by one and the source is written back. The digest of a row without an
id is a parameter; what the new `Resource` of a row draws is an argument.

The digest is over the row with its keys sorted, so two spellings of one
object have one id. A row without any hint gets its id from its content,
and then a changed row is another item.

**What this does not establish.** Anything of two syncs that overlap;
the module of the endpoints has them in flight. Here nothing happens
while a fetch is awaited.
-/

namespace Wapsell.Resources

open Lib Py

/-! ## The data sources -/

/-- `_by_id` of `InMemoryDataSourceRepository`. -/
abbrev Sources := Dict String DataSource

namespace Sources

/-- `add`. -/
def add (sources : Sources) (source : DataSource) : Sources := sources.set source.id source

/-- `get`. -/
def get (sources : Sources) (sourceId : String) : Option DataSource := sources.get? sourceId

/-- `update`. -/
def update (sources : Sources) (source : DataSource) : Except Exc Sources :=
  if (sources.get? source.id).isSome then .ok (sources.set source.id source) else .error .keyError

/-- `delete`. -/
def delete (sources : Sources) (sourceId : String) : Sources := sources.erase sourceId

end Sources

/-- The two stores the synchronizer is built with. -/
structure Store where
  resources : Repository := Dict.empty
  sources : Sources := Dict.empty

/-! ## From a row to a resource -/

mutual

/-- The value with the keys of every object sorted. -/
def sortKeys : Json → Json
  | .arr items => .arr (sortKeysItems items)
  | .obj fields => .obj ((sortKeysFields fields).insertionSort fun a b => a.1 ≤ b.1)
  | value => value

def sortKeysItems : List Json → List Json
  | [] => []
  | item :: items => sortKeys item :: sortKeysItems items

def sortKeysFields : List (String × Json) → List (String × Json)
  | [] => []
  | (key, value) :: fields => (key, sortKeys value) :: sortKeysFields fields

end

/-- `str(value)` of a text or an integer that is not blank; a boolean is an integer.

The text is answered as it is, with its blanks; only the test whether it is blank strips it. -/
def explicitId : Json → Option String
  | .str s => if strip s = "" then none else some s
  | .int n => some (toString n)
  | .bool true => some "True"
  | .bool false => some "False"
  | _ => none

/-- `_extract_external_id`: the first of the hints that is an id of its own, or else the digest of
the row. -/
def extractExternalId (sha256 : String → String) (row : Dict String Json) : String :=
  match ["external_id", "id", "code", "sku", "slug"].findSome? fun key =>
      explicitId (row.getD key .null) with
  | some externalId => externalId
  | none => take 32 (sha256 (sortKeys (.obj row.entries)).dumps)

/-- `_derive_summary`.

It is cut at 240 characters, and a row that has none of the names is shown as its JSON. The free
text of a search is looked for in it as well. -/
def deriveSummary (row : Dict String Json) : String :=
  match ["title", "name", "label", "description"].findSome? fun key =>
      filledText (row.getD key .null) with
  | some value => take 240 (strip value)
  | none => take 240 (Json.obj row.entries).dumps

/-- `config.get("resource_kind", "item")`, as `Resource` validates it.

Only the type of `kind` is checked, so an empty text is a kind. -/
def resourceKind (source : DataSource) : Except Exc String :=
  match source.config.getD "resource_kind" (.str "item") with
  | .str kind => .ok kind
  | _ => .error .valueError

/-- The defaults of a fresh `Resource`. -/
structure RowDraw where
  id : String
  createdAt : Datetime
  updatedAt : Datetime
  deriving DecidableEq, Repr

/-- The resource of a row. -/
def syncedResource (sha256 : String → String) (source : DataSource) (row : Dict String Json)
    (draw : RowDraw) : Except Exc Resource := do
  let kind ← resourceKind source
  .ok
    { id := draw.id, tenantId := source.tenantId, sourceId := some source.id, kind
      externalId := some (extractExternalId sha256 row), data := row
      summary := deriveSummary row, createdAt := draw.createdAt, updatedAt := draw.updatedAt }

/-! ## `sync` -/

/-- Result of one sync run. -/
structure SyncReport where
  sourceId : String
  ok : Bool
  itemCount : Int
  error : Option String
  deriving DecidableEq, Repr

/-- The loop over the fetched rows; what it raises, and the store it leaves.

A row that raises ends the loop. The rows in front of it are in the store by then and stay. -/
def upsertRows (sha256 : String → String) (source : DataSource) :
    Repository → List (Dict String Json × RowDraw) → Except Exc Unit × Repository
  | repo, [] => (.ok (), repo)
  | repo, (row, draw) :: rest =>
    match syncedResource sha256 source row draw with
    | .error e => (.error e, repo)
    | .ok resource => upsertRows sha256 source (repo.upsert resource) rest

/-- The copy of the source that carries the outcome.

It is a copy of the source as it was read before the fetch, so whatever was written to the source
while the fetch was awaited is undone by it. -/
def DataSource.synced (source : DataSource) (report : SyncReport) (now : Datetime) : DataSource :=
  { source with
    lastSyncedAt := some now, lastSyncOk := some report.ok
    lastSyncCount := some report.itemCount, lastSyncError := report.error }

/-- The source is written back, and the report answered. -/
def recordSync (store : Store) (source : DataSource) (report : SyncReport) (now : Datetime) :
    Except Exc SyncReport × Store :=
  match store.sources.update (source.synced report now) with
  | .error e => (.error e, store)
  | .ok sources => (.ok report, { store with sources })

/-- `sync` behind its fetch. -/
def finishSync (sha256 : String → String) (store : Store) (source : DataSource)
    (fetched : Except FetchError (List (Dict String Json))) (draws : List RowDraw) (now : Datetime) :
    Except Exc SyncReport × Store :=
  match fetched with
  | .error (.other e) => (.error e, store)
  | .error (.adapter message) =>
    recordSync store source
      { sourceId := source.id, ok := false, itemCount := 0, error := some (take 500 message) } now
  | .ok rows =>
    match upsertRows sha256 source store.resources (rows.zip draws) with
    | (.error e, resources) => (.error e, { store with resources })
    | (.ok (), resources) =>
      recordSync { store with resources } source
        { sourceId := source.id, ok := true, itemCount := rows.length, error := none } now

/-- `sync`, when nothing happens while it awaits its fetch.

A source that is gone raises before anything is fetched. -/
def sync (U : Unicode) (sha256 : String → String) (store : Store) (sourceId : String)
    (upstream : Upstream) (draws : List RowDraw) (now : Datetime) :
    Except Exc SyncReport × Store :=
  match store.sources.get sourceId with
  | none => (.error .keyError, store)
  | some source => finishSync sha256 store source (fetch U source upstream) draws now

end Wapsell.Resources
