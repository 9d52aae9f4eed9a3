import Wapsell.Resources.Models
import Wapsell.Postgres.Adapter

/-!
# Resource and data source rows

`PostgresResourceRepository`, `PostgresDataSourceRepository` and their
decoders of `sdk/wapsell/resources/repository.py`, over the tables of
`infra/postgres/migrations/010_resources.sql`. A document comes back equal
by `==`, which does not see the order of its keys.

The two INSERTs pass their documents through `json.dumps` and a
`::jsonb` cast, so a document must survive both. A document with a NaN
survives neither, one with an infinity not the second.

A source has an UPDATE, which leaves its id, its owner and its creation
time; a resource has none, and `upsert` is what writes it over.
-/

namespace Wapsell.Resources

open Lib Py Postgres

/-- `a == b` on dictionaries. -/
def SameDict (a b : Dict String Json) : Prop :=
  (Json.obj a.entries).pyEq (.obj b.entries) = true

/-- A dictionary of JSON values without a NaN. A NaN is not equal to itself, so what comes back
could not be equal to it. -/
def StorableDict (d : Dict String Json) : Prop :=
  (Json.obj d.entries).wellFormed = true ∧ nanFree (.obj d.entries) = true

/-- `json.dumps(d, ensure_ascii=False)`. -/
def dumpDict (d : Dict String Json) : Cell := .text (Json.obj d.entries).dumps

/-- The cell of a dictionary. -/
def dictCell (d : Dict String Json) : Cell := .json (.obj d.entries)

theorem cast_dumpDict {d : Dict String Json} (h : StorableDict d) {cell : Cell}
    (hcast : Slot.jsonb.cast (dumpDict d) = some cell) : cell = dictCell d :=
  cast_dump (loads_dumps h.1) hcast

/-- The cast takes the dump of a dictionary without infinities. -/
theorem cast_dumpDict_of_isStandard {d : Dict String Json} (h : StorableDict d)
    (hstandard : isStandard (.obj d.entries) = true) :
    Slot.jsonb.cast (dumpDict d) = some (dictCell d) := by
  rw [dumpDict, Slot.cast, toJsonb, loads_dumps h.1, Option.filter_some, if_pos hstandard]
  rfl

/-- The cast refuses the parameter of a dictionary, or takes it for the dictionary. -/
theorem castAll_dumpDict {d : Dict String Json} (h : StorableDict d) :
    (∀ slots cells, castAll (.jsonb :: slots) (dumpDict d :: cells) = none) ∨
      ∀ slots cells, castAll (.jsonb :: slots) (dumpDict d :: cells) =
        (castAll slots cells).map (dictCell d :: ·) := by
  cases hcast : Slot.jsonb.cast (dumpDict d) with
  | none => exact .inl fun _ _ => castAll_refused hcast
  | some cell =>
    obtain rfl := cast_dumpDict h hcast
    exact .inr fun _ _ => castAll_jsonb hcast

/-- The cell is read as a JSON value, and that `or {}` is an equal dictionary. -/
theorem dict_of_answers {d : Dict String Json} (h : StorableDict d) {cell : Cell}
    (hcell : Fetched (dictCell d) cell) :
    ∃ v d', cell.asJson = .ok v ∧ dictOr v = .ok d' ∧ SameDict d d' := by
  obtain ⟨v, hv, hback⟩ := hcell.asJson h.1
  obtain ⟨d', hd', hback'⟩ := dictOr_of_comesBack hback
  exact ⟨v, d', hv, hd', pyEq_of_comesBack _ h.1 h.2 hback'⟩

/-! ## Data sources -/

/-- The string value of the enumeration member. -/
def DataSourceKind.value : DataSourceKind → String
  | .html => "html"
  | .jsonApi => "json_api"
  | .webhook => "webhook"
  | .manual => "manual"
  | .csv => "csv"

/-- `DataSourceKind(raw)`, `none` for the `ValueError`. -/
def DataSourceKind.ofValue (raw : String) : Option DataSourceKind :=
  [.html, .jsonApi, .webhook, .manual, .csv].find? fun k => k.value = raw

theorem DataSourceKind.ofValue_value (k : DataSourceKind) :
    DataSourceKind.ofValue k.value = some k := by
  cases k <;> rfl

/-- `_row_to_source`. -/
def rowToSource (row : List Cell) : Except Exc DataSource := do
  let config ← (cellAt row 4).asJson
  let created ← (cellAt row 10).asTime
  let lastSynced ← (cellAt row 5).asOptTime
  let id ← (cellAt row 0).asText
  let tenantId ← (cellAt row 1).asText
  let kind ← (cellAt row 2).asMember DataSourceKind.ofValue
  let name ← (cellAt row 3).asText
  let config ← dictOr config
  let lastSyncOk ← (cellAt row 6).asOptBool
  let lastSyncCount ← (cellAt row 7).asOptInt
  let lastSyncError ← (cellAt row 8).asOptText
  let status ← (cellAt row 9).asText
  .ok
    { id, tenantId, kind, name, config, lastSyncOk, lastSyncCount, lastSyncError, status
      lastSyncedAt := lastSynced
      createdAt := created }

/-- What `PostgresDataSourceRepository` sends on `add` and reads on `get`. -/
def sourceAdapter : Adapter DataSource where
  columns :=
    [("id", .text), ("tenant_id", .text), ("kind", .text), ("name", .text), ("config", .jsonb),
      ("last_synced_at", .timestamptz), ("last_sync_ok", .boolean), ("last_sync_count", .integer),
      ("last_sync_error", .text), ("status", .text), ("created_at", .timestamptz)]
  slots :=
    [.plain, .plain, .plain, .plain, .jsonb, .plain, .plain, .plain, .plain, .plain, .plain]
  row s :=
    [.text s.id, .text s.tenantId, .text s.kind.value, .text s.name, dumpDict s.config,
      .ofTime s.lastSyncedAt, .ofBool s.lastSyncOk, .ofInt s.lastSyncCount, .ofText s.lastSyncError,
      .text s.status, .timestamp s.createdAt]
  id s := s.id
  ofRow := rowToSource

/-- What `update` sends: `_SOURCE_UPDATE_SQL`. -/
def sourceChange : Change DataSource where
  sets :=
    [("kind", .plain), ("name", .plain), ("config", .jsonb), ("last_synced_at", .plain),
      ("last_sync_ok", .plain), ("last_sync_count", .plain), ("last_sync_error", .plain),
      ("status", .plain)]
  params s :=
    [.text s.kind.value, .text s.name, dumpDict s.config, .ofTime s.lastSyncedAt,
      .ofBool s.lastSyncOk, .ofInt s.lastSyncCount, .ofText s.lastSyncError, .text s.status]

/-- The cells of a data source. -/
def sourceCells (s : DataSource) : List Cell :=
  [.text s.id, .text s.tenantId, .text s.kind.value, .text s.name, dictCell s.config,
    .ofTime s.lastSyncedAt, .ofBool s.lastSyncOk, .ofInt s.lastSyncCount, .ofText s.lastSyncError,
    .text s.status, .timestamp s.createdAt]

/-- `a == b` on data sources. -/
def SameSource (a b : DataSource) : Prop := b = { a with config := b.config } ∧ SameDict a.config b.config

theorem rowToSource_of_answers {s : DataSource} (hs : StorableDict s.config) {row : List Cell}
    (h : List.Forall₂ Fetched (sourceCells s) row) :
    ∃ found, rowToSource row = .ok found ∧ SameSource s found := by
  have hat := answers_at h
  have hkind := Fetched.asMember (hat 2) (DataSourceKind.ofValue_value s.kind)
  obtain ⟨v, config, hv, hconfig, hsame⟩ := dict_of_answers hs (hat 4)
  refine ⟨{ s with config }, ?_, rfl, hsame⟩
  rw [rowToSource, hv, ok_bind, Fetched.asTime (hat 10), ok_bind, Fetched.asOptTime (hat 5),
    ok_bind, Fetched.asText (hat 0), ok_bind, Fetched.asText (hat 1), ok_bind, hkind, ok_bind,
    Fetched.asText (hat 3), ok_bind, hconfig, ok_bind, Fetched.asOptBool (hat 6), ok_bind,
    Fetched.asOptInt (hat 7), ok_bind, Fetched.asOptText (hat 8), ok_bind, Fetched.asText (hat 9),
    ok_bind]

/-- What a decoded row says about the columns no UPDATE writes. -/
theorem rowToSource_kept {row : List Cell} {s : DataSource} (h : rowToSource row = .ok s) :
    (cellAt row 1).asText = .ok s.tenantId ∧ (cellAt row 10).asTime = .ok s.createdAt := by
  simp only [rowToSource, bind_eq_ok] at h
  obtain ⟨_, _, _, hcreated, _, _, _, _, _, htenant, _, _, _, _, _, _, _, _, _, _, _, _, _, _, h⟩ :=
    h
  cases h
  exact ⟨htenant, hcreated⟩

def sourceCodec : Codec sourceAdapter (fun s => StorableDict s.config)
    (fun s => isStandard (.obj s.config.entries) = true) SameSource where
  cells := sourceCells
  nodup := by decide
  length _ := rfl
  typed s := by simp [sourceAdapter, sourceCells, dictCell]
  sent s hs hstandard := by
    simp only [sourceAdapter, castAll_plain]
    rw [castAll_jsonb (cast_dumpDict_of_isStandard hs hstandard)]
    rfl
  insert s values hs h := by
    simp only [sourceAdapter, castAll_plain] at h
    rcases castAll_dumpDict hs with hrefused | hcast
    · rw [hrefused] at h
      cases h
    · rw [hcast] at h
      exact (Option.some.inj h).symm
  decode _ _ hs h := rowToSource_of_answers hs h
  id _ := rfl
  id_mem := by decide

theorem sourceCodec_covers : sourceCodec.Covers sourceChange
    fun stored s => s.tenantId = stored.tenantId ∧ s.createdAt = stored.createdAt where
  change s values hs h := by
    simp only [sourceChange, List.map_cons, List.map_nil, castAll_plain] at h
    rcases castAll_dumpDict hs with hrefused | hcast
    · rw [hrefused] at h
      cases h
    · rw [hcast] at h
      exact (Option.some.inj h).symm
  sent s hs hstandard := by
    simp only [sourceChange, List.map_cons, List.map_nil, castAll_plain]
    rw [castAll_jsonb (cast_dumpDict_of_isStandard hs hstandard)]
    rfl
  kept driver row stored s htyped hdecoded hkeeps c hc hnot hid := by
    have hcolumn : ∀ c ∈ sourceAdapter.columns.names, c ∉ sourceChange.names →
        c ≠ "id" → c = "tenant_id" ∨ c = "created_at" := by decide
    obtain ⟨htenant, hcreated⟩ := rowToSource_kept hdecoded
    rcases hcolumn c hc hnot hid with rfl | rfl
    · rw [text_kept htyped (by decide) rfl htenant, ← hkeeps.1]
      rfl
    · rw [time_kept htyped (by decide) rfl hcreated, ← hkeeps.2]
      rfl

/-! ## Resources -/

/-- `_row_to_resource`. -/
def rowToResource (row : List Cell) : Except Exc Resource := do
  let data ← (cellAt row 5).asJson
  let created ← (cellAt row 8).asTime
  let updated ← (cellAt row 9).asTime
  let id ← (cellAt row 0).asText
  let tenantId ← (cellAt row 1).asText
  let sourceId ← (cellAt row 2).asOptText
  let kind ← (cellAt row 3).asText
  let externalId ← (cellAt row 4).asOptText
  let data ← dictOr data
  let summary ← (cellAt row 6).asOptText
  let status ← (cellAt row 7).asText
  .ok
    { id, tenantId, sourceId, kind, externalId, data, status
      summary := summary.getD ""
      createdAt := created
      updatedAt := updated }

/-- What `PostgresResourceRepository` sends on `add` and `upsert` and reads on `get`. -/
def resourceAdapter : Adapter Resource where
  columns :=
    [("id", .text), ("tenant_id", .text), ("source_id", .text), ("kind", .text),
      ("external_id", .text), ("data", .jsonb), ("summary", .text), ("status", .text),
      ("created_at", .timestamptz), ("updated_at", .timestamptz)]
  slots := [.plain, .plain, .plain, .plain, .plain, .jsonb, .plain, .plain, .plain, .plain]
  row r :=
    [.text r.id, .text r.tenantId, .ofText r.sourceId, .text r.kind, .ofText r.externalId,
      dumpDict r.data, .text r.summary, .text r.status, .timestamp r.createdAt,
      .timestamp r.updatedAt]
  id r := r.id
  ofRow := rowToResource

/-- The conflict target of `_RESOURCE_UPSERT_SQL`. -/
def resourceKey : List String := ["tenant_id", "source_id", "external_id"]

/-- The columns it takes from `EXCLUDED`. -/
def resourceSets : List String := ["data", "summary", "status", "updated_at", "kind"]

/-- The cells of a resource. -/
def resourceCells (r : Resource) : List Cell :=
  [.text r.id, .text r.tenantId, .ofText r.sourceId, .text r.kind, .ofText r.externalId,
    dictCell r.data, .text r.summary, .text r.status, .timestamp r.createdAt,
    .timestamp r.updatedAt]

/-- `a == b` on resources. -/
def SameResource (a b : Resource) : Prop := b = { a with data := b.data } ∧ SameDict a.data b.data

theorem rowToResource_of_answers {r : Resource} (hr : StorableDict r.data) {row : List Cell}
    (h : List.Forall₂ Fetched (resourceCells r) row) :
    ∃ found, rowToResource row = .ok found ∧ SameResource r found := by
  have hat := answers_at h
  have hsummary : (cellAt row 6).asOptText = .ok (some r.summary) := Fetched.asOptText (hat 6)
  obtain ⟨v, data, hv, hdata, hsame⟩ := dict_of_answers hr (hat 5)
  refine ⟨{ r with data }, ?_, rfl, hsame⟩
  rw [rowToResource, hv, ok_bind, Fetched.asTime (hat 8), ok_bind, Fetched.asTime (hat 9), ok_bind,
    Fetched.asText (hat 0), ok_bind, Fetched.asText (hat 1), ok_bind, Fetched.asOptText (hat 2),
    ok_bind, Fetched.asText (hat 3), ok_bind, Fetched.asOptText (hat 4), ok_bind, hdata, ok_bind,
    hsummary, ok_bind, Fetched.asText (hat 7), ok_bind]
  rfl

/-- What a decoded row says about the columns no upsert writes. -/
theorem rowToResource_kept {row : List Cell} {r : Resource} (h : rowToResource row = .ok r) :
    (cellAt row 1).asText = .ok r.tenantId ∧ (cellAt row 2).asOptText = .ok r.sourceId ∧
      (cellAt row 4).asOptText = .ok r.externalId ∧ (cellAt row 8).asTime = .ok r.createdAt := by
  simp only [rowToResource, bind_eq_ok] at h
  obtain ⟨_, _, _, hcreated, _, _, _, _, _, htenant, _, hsource, _, _, _, hexternal, _, _, _, _, _,
    _, h⟩ := h
  cases h
  exact ⟨htenant, hsource, hexternal, hcreated⟩

def resourceCodec : Codec resourceAdapter (fun r => StorableDict r.data)
    (fun r => isStandard (.obj r.data.entries) = true) SameResource where
  cells := resourceCells
  nodup := by decide
  length _ := rfl
  typed r := by simp [resourceAdapter, resourceCells, dictCell]
  sent r hr hstandard := by
    simp only [resourceAdapter, castAll_plain]
    rw [castAll_jsonb (cast_dumpDict_of_isStandard hr hstandard)]
    rfl
  insert r values hr h := by
    simp only [resourceAdapter, castAll_plain] at h
    rcases castAll_dumpDict hr with hrefused | hcast
    · rw [hrefused] at h
      cases h
    · rw [hcast] at h
      exact (Option.some.inj h).symm
  decode _ _ hr h := rowToResource_of_answers hr h
  id _ := rfl
  id_mem := by decide

/-- The entity keeps the key and the creation time of the stored row. -/
def KeepsKey (stored r : Resource) : Prop :=
  r.tenantId = stored.tenantId ∧ r.sourceId = stored.sourceId ∧
    r.externalId = stored.externalId ∧ r.createdAt = stored.createdAt

theorem resourceCodec_kept : resourceCodec.Kept resourceSets KeepsKey := by
  intro driver row stored r htyped hdecoded hkeeps c hc hnot hid
  have hcolumn : ∀ c ∈ resourceAdapter.columns.names, c ∉ resourceSets → c ≠ "id" →
      c = "tenant_id" ∨ c = "source_id" ∨ c = "external_id" ∨ c = "created_at" := by decide
  obtain ⟨htenant, hsource, hexternal, hcreated⟩ := rowToResource_kept hdecoded
  obtain ⟨hkeeptenant, hkeepsource, hkeepexternal, hkeepcreated⟩ := hkeeps
  rcases hcolumn c hc hnot hid with rfl | rfl | rfl | rfl
  · rw [text_kept htyped (by decide) rfl htenant, ← hkeeptenant]
    rfl
  · rw [optText_kept htyped (by decide) rfl hsource, ← hkeepsource]
    rfl
  · rw [optText_kept htyped (by decide) rfl hexternal, ← hkeepexternal]
    rfl
  · rw [time_kept htyped (by decide) rfl hcreated, ← hkeepcreated]
    rfl

/-- A key without NULL: the source and the id the row has there. -/
def HasKey (r : Resource) : Prop := r.sourceId.isSome ∧ r.externalId.isSome

theorem resourceCodec_whole (r : Resource) (h : HasKey r) :
    ∀ c ∈ resourceKey, ∃ s, resourceCodec.record r c = .text s := by
  obtain ⟨source, hsource⟩ := Option.isSome_iff_exists.mp h.1
  obtain ⟨externalId, hexternal⟩ := Option.isSome_iff_exists.mp h.2
  intro c hc
  simp only [resourceKey, List.mem_cons, List.not_mem_nil, or_false] at hc
  rcases hc with rfl | rfl | rfl
  · exact ⟨r.tenantId, rfl⟩
  · refine ⟨source, ?_⟩
    show Cell.ofText r.sourceId = _
    rw [hsource, Cell.ofText]
  · refine ⟨externalId, ?_⟩
    show Cell.ofText r.externalId = _
    rw [hexternal, Cell.ofText]

end Wapsell.Resources
