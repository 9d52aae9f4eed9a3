import Wapsell.Lib.Run
import Wapsell.Resources.Repository

/-!
# The Postgres resource repository

`PostgresResourceRepository` over the tables of
`infra/postgres/migrations/010_resources.sql`. The constraints of the
schema are fields of `Database`, so a state that breaks one cannot be
written down; a statement that would break one raises, and the adapter's
caller sees the exception.

`ON CONFLICT (tenant_id, source_id, external_id)` handles a conflict on
that constraint alone, NULLs are distinct in it, and every other violation
raises.

The model of a statement follows its text: an `upsert` writes the
columns its `DO UPDATE` names and no others, so the id and the creation
time of the stored row stay, and the adapter returns the resource it was
given all the same.
-/

namespace Wapsell.Resources

open Lib Py

/-- The tables `data_sources` and `resources`, under their constraints. -/
structure Database where
  sources : Dict String DataSource := Dict.empty
  rows : Dict String Resource := Dict.empty
  /-- `id TEXT PRIMARY KEY`: a row sits under its id. -/
  rowId : ∀ k row, rows.get? k = some row → row.id = k
  /-- `UNIQUE (tenant_id, source_id, external_id)`. -/
  unique : ∀ k k' row row' key, rows.get? k = some row → rows.get? k' = some row' →
    row.key = some key → row'.key = some key → k = k'
  /-- `source_id TEXT REFERENCES data_sources (id)`. -/
  foreign : ∀ k row source, rows.get? k = some row → row.sourceId = some source →
    (sources.get? source).isSome

/-- The constraint a failed statement names.

Of several broken ones the model names the first it checks. -/
inductive Violation
  | primaryKey
  | uniqueKey
  | foreignKey
  deriving DecidableEq, Repr

namespace Database

/-- Two empty tables. -/
def empty : Database where
  rowId _ _ h := by cases h
  unique _ _ _ _ _ h := by cases h
  foreign _ _ _ h := by cases h

/-- The row that holds a dedup key.

There is one at most, by the constraint. -/
def holder (db : Database) (key : String × String × String) : Option Resource :=
  db.rows.values.find? fun row => row.key = some key

/-- The row a statement's `ON CONFLICT` meets.

A row with a NULL in its key meets none. -/
def conflicting (db : Database) (resource : Resource) : Option Resource :=
  resource.key.bind db.holder

/-- The source of a row is NULL or registered.

It is what the foreign key asks of a row that is written. -/
def SourceKnown (db : Database) (resource : Resource) : Prop :=
  ∀ source, resource.sourceId = some source → (db.sources.get? source).isSome

instance (db : Database) (resource : Resource) : Decidable (db.SourceKnown resource) :=
  match h : resource.sourceId with
  | none => isTrue fun source hs => by rw [h] at hs; cases hs
  | some source =>
    if hk : (db.sources.get? source).isSome then
      isTrue fun s hs => by rw [h] at hs; cases hs; exact hk
    else isFalse fun hall => hk (hall source h)

/-- The foreign key, row by row. -/
theorem sourcesKnown (db : Database) : db.rows.Forall fun _ row => db.SourceKnown row :=
  fun k row hk source => db.foreign k row source hk

theorem holder_eq_some {db : Database} {key : String × String × String} {row : Resource}
    (h : db.holder key = some row) : db.rows.get? row.id = some row ∧ row.key = some key := by
  obtain ⟨k, hk⟩ := Dict.mem_values_iff.mp (List.mem_of_find?_eq_some h)
  refine ⟨?_, by simpa only [decide_eq_true_eq] using List.find?_some h⟩
  rw [db.rowId k row hk, hk]

theorem holder_eq_none {db : Database} {key : String × String × String}
    (h : db.holder key = none) {k : String} {row : Resource} (hk : db.rows.get? k = some row) :
    row.key ≠ some key := by
  have := List.find?_eq_none.mp h row (Dict.mem_values_iff.mpr ⟨k, hk⟩)
  simpa only [decide_eq_true_eq] using this

/-- A row with a non-null key is the one that holds it. -/
theorem holder_of_row {db : Database} {key : String × String × String} {k : String} {row : Resource}
    (hk : db.rows.get? k = some row) (hkey : row.key = some key) : db.holder key = some row := by
  cases hh : db.holder key with
  | none => exact absurd hkey (holder_eq_none hh hk)
  | some found =>
    obtain ⟨hfound, hfk⟩ := holder_eq_some hh
    have hsame := db.unique _ _ _ _ key hfound hk hfk hkey
    rw [hsame, hk] at hfound
    rw [Option.some.inj hfound]

theorem conflicting_eq_some {db : Database} {resource row : Resource}
    (h : db.conflicting resource = some row) :
    db.rows.get? row.id = some row ∧ ∃ key, resource.key = some key ∧ row.key = some key := by
  obtain ⟨key, hkey, hrow⟩ := Option.bind_eq_some_iff.mp h
  obtain ⟨hget, hrk⟩ := holder_eq_some hrow
  exact ⟨hget, key, hkey, hrk⟩

theorem conflicting_eq_none {db : Database} {resource : Resource}
    (h : db.conflicting resource = none) {key : String × String × String}
    (hkey : resource.key = some key) {k : String} {row : Resource}
    (hk : db.rows.get? k = some row) : row.key ≠ some key := by
  rw [conflicting, hkey, Option.bind_some] at h
  exact holder_eq_none h hk

/-- A new row, under constraints it does not break. -/
def insert (db : Database) (row : Resource) (hfree : db.conflicting row = none)
    (hsource : db.SourceKnown row) : Database where
  sources := db.sources
  rows := db.rows.set row.id row
  rowId := Dict.Forall.set db.rowId rfl
  unique := Dict.Unique.set db.unique fun _ _ _ hk hkey hrow =>
    absurd hkey (conflicting_eq_none hfree hrow hk)
  foreign k row source hk := (Dict.Forall.set db.sourcesKnown hsource) k row hk source

/-- A stored row with the columns `DO UPDATE SET` names taken from the proposed one.

The id, the tenant, the source, the external id and the creation time are the stored ones. -/
def merged (row excluded : Resource) : Resource :=
  { row with
    data := excluded.data
    summary := excluded.summary
    status := excluded.status
    updatedAt := excluded.updatedAt
    kind := excluded.kind }

/-- The `DO UPDATE` of a stored row. -/
def update (db : Database) (row excluded : Resource) (hrow : db.rows.get? row.id = some row) :
    Database where
  sources := db.sources
  rows := db.rows.set row.id (merged row excluded)
  rowId := Dict.Forall.set db.rowId rfl
  unique := Dict.Unique.set db.unique fun k other key hk hkey hrk =>
    db.unique _ k row other key hrow hk hrk hkey
  foreign k r source hk := by
    have hknown : db.SourceKnown (merged row excluded) := db.sourcesKnown row.id row hrow
    exact (Dict.Forall.set db.sourcesKnown hknown) k r hk source

/-- The rest of an `INSERT` whose dedup key is free: the primary key and the foreign key.

A row under an id that is taken is refused, where the dictionary would write over it. -/
def insertFree (db : Database) (resource : Resource) (hfree : db.conflicting resource = none) :
    Except Violation Database :=
  if (db.rows.get? resource.id).isSome then .error .primaryKey
  else if hsource : db.SourceKnown resource then .ok (db.insert resource hfree hsource)
  else .error .foreignKey

/-- `add`: `_RESOURCE_INSERT_SQL`. -/
def add (db : Database) (resource : Resource) : Except Violation Database :=
  match hc : db.conflicting resource with
  | some _ => .error .uniqueKey
  | none => db.insertFree resource hc

/-- `upsert`: `_RESOURCE_UPSERT_SQL`.

A stored row that is met keeps its id, and the id that the resource drew is given to nobody. -/
def upsert (db : Database) (resource : Resource) : Except Violation Database :=
  match hc : db.conflicting resource with
  | some row => .ok (db.update row resource (conflicting_eq_some hc).1)
  | none => db.insertFree resource hc

/-- `get`: `_RESOURCE_GET_SQL`. -/
def get (db : Database) (resourceId : String) : Option Resource := db.rows.get? resourceId

/-- `delete`: `_RESOURCE_DELETE_SQL`. -/
def delete (db : Database) (resourceId : String) : Database where
  sources := db.sources
  rows := db.rows.erase resourceId
  rowId := Dict.Forall.erase db.rowId resourceId
  unique := Dict.Unique.erase db.unique resourceId
  foreign k row source hk := (Dict.Forall.erase db.sourcesKnown resourceId) k row hk source

/-- `_SOURCE_INSERT_SQL`. -/
def addSource (db : Database) (source : DataSource) : Except Violation Database :=
  if (db.sources.get? source.id).isSome then .error .primaryKey
  else .ok
    { sources := db.sources.set source.id source
      rows := db.rows
      rowId := db.rowId
      unique := db.unique
      foreign := fun k row s h hs => Dict.get?_set_isSome _ _ (db.foreign k row s h hs) }

/-- `_SOURCE_UPDATE_SQL`: the owner and the creation time of a source stay. -/
def updateSource (db : Database) (source : DataSource) : Database :=
  match db.sources.get? source.id with
  | none => db
  | some stored =>
    { sources := db.sources.set source.id
        { source with tenantId := stored.tenantId, createdAt := stored.createdAt }
      rows := db.rows
      rowId := db.rowId
      unique := db.unique
      foreign := fun k row s h hs => Dict.get?_set_isSome _ _ (db.foreign k row s h hs) }

/-- `ON DELETE SET NULL` on one row. -/
def orphaned (sourceId : String) (row : Resource) : Resource :=
  if row.sourceId = some sourceId then { row with sourceId := none } else row

theorem orphaned_id (sourceId : String) (row : Resource) : (orphaned sourceId row).id = row.id := by
  unfold orphaned
  split <;> rfl

/-- A row that keeps a key after `SET NULL` is a row that was not touched. -/
theorem orphaned_of_key {sourceId : String} {row : Resource} {key : String × String × String}
    (h : (orphaned sourceId row).key = some key) : orphaned sourceId row = row := by
  unfold orphaned at h ⊢
  split at h
  · cases h
  · next hne => rw [if_neg hne]

/-- `_SOURCE_DELETE_SQL`.

The rows of the source stay and lose their key, so the next sync of a source that is registered anew
does not find them. -/
def deleteSource (db : Database) (sourceId : String) : Database where
  sources := db.sources.erase sourceId
  rows := db.rows.map (orphaned sourceId)
  rowId k row h := by
    rw [Dict.get?_map, Option.map_eq_some_iff] at h
    obtain ⟨old, hold, rfl⟩ := h
    rw [orphaned_id]
    exact db.rowId k old hold
  unique k k' a b key ha hb hka hkb := by
    rw [Dict.get?_map, Option.map_eq_some_iff] at ha hb
    obtain ⟨a', ha', rfl⟩ := ha
    obtain ⟨b', hb', rfl⟩ := hb
    rw [orphaned_of_key hka] at hka
    rw [orphaned_of_key hkb] at hkb
    exact db.unique k k' a' b' key ha' hb' hka hkb
  foreign k row source h hs := by
    rw [Dict.get?_map, Option.map_eq_some_iff] at h
    obtain ⟨old, hold, rfl⟩ := h
    unfold orphaned at hs
    split at hs
    · cases hs
    · next hne =>
      have hne' : sourceId ≠ source := fun e => hne (e ▸ hs)
      rw [Dict.get?_erase, if_neg hne']
      exact db.foreign k old source hold hs

end Database

end Wapsell.Resources
