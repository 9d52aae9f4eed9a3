import Wapsell.Billing.Codec
import Wapsell.Resources.Codec
import Wapsell.Templates.Codec
import Wapsell.Tenant.Codec

/-!
# The row codecs lose nothing

The five repositories over one database, whatever else it checks, read
through any driver: what `get` returns after a write is what was written.

Each part is an instance of the round trips of the adapter module, with
the repository's codec for the entity. What is to be checked for a
repository is the correspondence of three lists, the columns of the
table, the parameters of the statement and the positions of the decoder,
and that is what its codec proves.

What this does not establish: that a column is wide enough for a text,
or that the rows of several calls do not disturb each other. `upsert` is
treated with its key, and the isolation of calls elsewhere.
-/

namespace Wapsell.Postgres

open Lib Py Billing Resources Templates Tenants

/-! ## Two drivers -/

/-- Decoded values throughout, as psycopg answers by default. -/
def decodedDriver : Driver where
  fetch row := row
  answers _ := List.forall₂_same.mpr fun cell _ => .same cell

/-- The text of a timestamp or a document. -/
def textOfCell : Cell → Cell
  | .timestamp t =>
    if Datetime.min ≤ t ∧ t ≤ Datetime.max then .text (Datetime.isoformat t) else .timestamp t
  | .json v => if v.wellFormed = true then .text v.dumps else .json v
  | cell => cell

theorem answers_textOfCell (cell : Cell) : Fetched cell (textOfCell cell) := by
  cases cell with
  | timestamp t =>
    rw [textOfCell]
    split
    next h => exact .isoText (Datetime.fromisoformat_isoformat h.1 h.2)
    next => exact .same _
  | json v =>
    rw [textOfCell]
    split
    next h => exact .jsonText (loads_dumps h) (comesBack_refl v h)
    next => exact .same _
  | _ => exact .same _

/-- Texts throughout, as a driver without decoders answers. -/
def textualDriver : Driver where
  fetch row := row.map textOfCell
  answers row := by
    rw [List.forall₂_map_right_iff]
    exact List.forall₂_same.mpr fun cell _ => answers_textOfCell cell

/-! ## The round trips -/

/-- **The row codecs lose nothing.** For each repository, an `add` under a new id and an `update` of a
stored entity go through when nothing but types and ids stands against the entity, and `get` then
returns an equal entity; resources have no `update` and are written over by `upsert`. Tenants,
subscriptions and templates come back equal field by field, sources and resources with a document
that is equal by `==`. A document has to be JSON without NaN, and without infinities to be taken at
all.

The other constraints are any: the hypothesis on them is that they accept the table with the entity in
it, so a free slug under a UNIQUE column meets it. -/
theorem rows_round_trip (L : Coercions) :
    ((tenantAdapter L).GetAfterAdd (fun _ => True) (fun _ => True) Eq ∧
      (tenantAdapter L).GetAfterUpdate tenantChange (fun _ => True) (fun _ => True) Eq
        fun stored t => t.createdAt = stored.createdAt) ∧
    (subscriptionAdapter.GetAfterAdd (fun _ => True) (fun _ => True) Eq ∧
      subscriptionAdapter.GetAfterUpdate subscriptionChange (fun _ => True) (fun _ => True) Eq
        fun stored s => s.tenantId = stored.tenantId ∧ s.createdAt = stored.createdAt) ∧
    (templateAdapter.GetAfterAdd (fun _ => True) (fun _ => True) Eq ∧
      templateAdapter.GetAfterUpdate templateChange (fun _ => True) (fun _ => True) Eq
        fun stored t => t.tenantId = stored.tenantId ∧ t.createdAt = stored.createdAt) ∧
    (sourceAdapter.GetAfterAdd (fun s => StorableDict s.config)
        (fun s => isStandard (.obj s.config.entries) = true) SameSource ∧
      sourceAdapter.GetAfterUpdate sourceChange (fun s => StorableDict s.config)
        (fun s => isStandard (.obj s.config.entries) = true) SameSource
        fun stored s => s.tenantId = stored.tenantId ∧ s.createdAt = stored.createdAt) ∧
    resourceAdapter.GetAfterAdd (fun r => StorableDict r.data)
        (fun r => isStandard (.obj r.data.entries) = true) SameResource ∧
      resourceAdapter.GetAfterUpsert resourceKey resourceSets (fun r => StorableDict r.data)
        (fun r => isStandard (.obj r.data.entries) = true ∧ HasKey r) SameResource KeepsKey := by
  refine ⟨⟨?_, ?_⟩, ⟨?_, ?_⟩, ⟨?_, ?_⟩, ⟨?_, ?_⟩, ?_, ?_⟩
  · exact (tenantCodec L).getAfterAdd
  · exact (tenantCodec L).getAfterUpdate (tenantCodec_covers L)
  · exact subscriptionCodec.getAfterAdd
  · exact subscriptionCodec.getAfterUpdate subscriptionCodec_covers
  · exact templateCodec.getAfterAdd
  · exact templateCodec.getAfterUpdate templateCodec_covers
  · exact sourceCodec.getAfterAdd
  · exact sourceCodec.getAfterUpdate sourceCodec_covers
  · exact resourceCodec.getAfterAdd
  · exact resourceCodec.getAfterUpsert resourceCodec_kept (by decide) resourceCodec_whole

/-- A source as it is registered. -/
def catalog : DataSource where
  id := "s1"
  tenantId := "t1"
  kind := .jsonApi
  name := "Catálogo"
  config := ⟨[("url", .str "https://api"), ("pages", .int 3)], by decide⟩
  createdAt := 1781265600000000

/-- The same source after a sync. -/
def synced : DataSource :=
  { catalog with lastSyncedAt := some 1781265600000001, lastSyncOk := some true
                 lastSyncCount := some 12 }

/-- A row of that source, under its key. -/
def loft : Resource where
  id := "r1"
  tenantId := "t1"
  sourceId := some "s1"
  kind := "property"
  externalId := some "loft"
  data := ⟨[("price", .int 150000)], by decide⟩
  createdAt := 1781265600000000
  updatedAt := 1781265600000000

/-- The same row at another price. -/
def repriced : Resource :=
  { loft with data := ⟨[("price", .int 120000), ("rooms", .int 2)], by decide⟩
              updatedAt := 1781265600000001 }

/-- Nothing but types and ids refuses. -/
def lenient : Relation.Constraints := fun _ => true

/-- `UNIQUE (tenant_id, source_id, external_id)` of `resources`. -/
def uniqueResources : Relation.Constraints := fun rows => rows.entries.all fun e =>
  rows.entries.all fun e' => e.1 == e'.1 || !Relation.sameTexts resourceKey e.2 e'.2

/-- A table with one row meets the constraint, whatever the row is. -/
theorem uniqueResources_one (k : String) (row : CellRecord) :
    uniqueResources (Dict.empty.set k row) = true := by
  have hentries : (Dict.empty.set k row).entries = [(k, row)] := rfl
  rw [uniqueResources, hentries, List.all_cons, List.all_nil, List.all_cons, List.all_nil,
    beq_self_eq_true]
  rfl

/-- A first `add` leaves the one row. -/
theorem rows_of_first_add {E : Type} {R : Adapter E} {accepts : Relation.Constraints}
    {driver : Driver} {relation : Relation R.columns} {e stored : E}
    (hadd : R.add accepts Relation.empty e = .ok relation)
    (hget : R.get driver relation (R.id e) = .ok (some stored)) :
    ∃ row, relation.rows = Dict.empty.set (R.id e) row := by
  obtain ⟨k, row, hrows⟩ := Adapter.rows_of_add hadd
  obtain ⟨found, hfound, -⟩ := Adapter.row_of_get hget
  have hrows' : relation.rows = Dict.empty.set k row := hrows
  by_cases hk : k = R.id e
  · exact ⟨row, by rw [hrows', hk]⟩
  · rw [hrows', Dict.get?_set_ne _ _ hk] at hfound
    cases hfound

/-- One row has any key for itself. -/
theorem uniqueOn_of_one {columns : Columns} {relation : Relation columns} {id : String}
    {row : CellRecord} (hrows : relation.rows = Dict.empty.set id row) (key : List String) :
    relation.UniqueOn key := by
  have honly : ∀ k row', relation.rows.get? k = some row' → k = id := by
    intro k row' hget
    by_contra hne
    rw [hrows, Dict.get?_set_ne _ _ (Ne.symm hne)] at hget
    cases hget
  intro k₁ k₂ row₁ row₂ h₁ h₂ _
  rw [honly k₁ row₁ h₁, honly k₂ row₂ h₂]

/-- A source is added and updated, and a row of it added and written over under the constraint on its
key, in tables that start empty; each is read through texts. -/
theorem synced_round_trip :
    (∃ relation relation' found, sourceAdapter.add lenient Relation.empty catalog = .ok relation ∧
      sourceAdapter.update lenient sourceChange relation synced = .ok relation' ∧
      sourceAdapter.get textualDriver relation' "s1" = .ok (some found) ∧ SameSource synced found) ∧
    ∃ relation relation' found,
      resourceAdapter.add uniqueResources Relation.empty loft = .ok relation ∧
      resourceAdapter.upsert uniqueResources resourceKey resourceSets relation repriced =
        .ok relation' ∧
      resourceAdapter.get textualDriver relation' "r1" = .ok (some found) ∧
      SameResource repriced found := by
  obtain ⟨-, -, -, ⟨hadd, hupdate⟩, hradd, hupsert⟩ :=
    rows_round_trip ⟨fun _ => none, fun _ => none⟩
  constructor
  · obtain ⟨hgoes, hget⟩ := hadd lenient textualDriver Relation.empty catalog
      (by constructor <;> decide +kernel)
    obtain ⟨relation, hrelation⟩ := hgoes (by decide +kernel) rfl fun _ _ _ _ => rfl
    obtain ⟨stored, hstored, hsame⟩ := hget relation hrelation
    obtain ⟨hgoes', hget'⟩ := hupdate lenient textualDriver textualDriver relation stored synced
      (by constructor <;> decide +kernel) hstored (by rw [hsame.1]; exact ⟨rfl, rfl⟩)
    obtain ⟨relation', hrelation'⟩ := hgoes' (by decide +kernel) fun _ _ _ _ => rfl
    obtain ⟨found, hfound, hsame'⟩ := hget' relation' hrelation'
    exact ⟨relation, relation', found, hrelation, hrelation', hfound, hsame'⟩
  · obtain ⟨hgoes, hget⟩ := hradd uniqueResources textualDriver Relation.empty loft
      (by constructor <;> decide +kernel)
    obtain ⟨relation, hrelation⟩ := hgoes (by decide +kernel) rfl
      fun row _ _ _ => uniqueResources_one "r1" row
    obtain ⟨stored, hstored, hsame⟩ := hget relation hrelation
    obtain ⟨row, hrows⟩ := rows_of_first_add hrelation hstored
    obtain ⟨hgoes', hget'⟩ := hupsert uniqueResources textualDriver textualDriver relation stored
      repriced (uniqueOn_of_one hrows resourceKey) (by constructor <;> decide +kernel) hstored
      (by rw [hsame.1]; exact ⟨rfl, rfl, rfl, rfl⟩)
    obtain ⟨relation', hrelation'⟩ := hgoes' ⟨by decide +kernel, by decide, by decide⟩
      fun row' _ _ _ => by
        rw [hrows]
        exact (congrArg uniqueResources (Dict.set_set _ _ _ _)).trans
          (uniqueResources_one "r1" row')
    obtain ⟨found, hfound, hsame'⟩ := hget' relation' hrelation'
    exact ⟨relation, relation', found, hrelation, hrelation', hfound, hsame'⟩

end Wapsell.Postgres
