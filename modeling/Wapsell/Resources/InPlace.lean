import Wapsell.Resources.Agreement
import Wapsell.Resources.Resync

/-!
# Updating in place

A re-sync is to leave the row of an item where it was: under its id, with
its `created_at`, in its place among the newest. The in-memory adapter puts
the new resource in the place of the old row, the Postgres statement keeps
the old row and answers the new resource. Both are in place exactly when
the resource carries the id and the `created_at` of the row that is there,
and the synchronizer draws new ones.

Every listing is newest first, so a row whose `created_at` is new moves
to the front. The condition is about the resource and the row that is
stored, and `not_carries_of_synced` says that no resource of the
synchronizer meets it.
-/

namespace Wapsell.Resources

open Lib Py

/-- Some row is stored under the resource's dedup key. -/
def Stored (rows : Repository) (r : Resource) : Prop :=
  r.key ≠ none ∧ ∃ id row, rows.get? id = some row ∧ row.key = r.key

/-- Every row under the resource's dedup key is still there, with its id and `created_at`. -/
def Keeps (rows rows' : Repository) (r : Resource) : Prop :=
  ∀ id row, rows.get? id = some row → row.key = r.key →
    ∃ row', rows'.get? id = some row' ∧ row'.id = row.id ∧ row'.key = r.key ∧
      row'.createdAt = row.createdAt

/-- Which item a row is: the dedup key names it, or else the id. Two versions of one item have one
key. -/
def Resource.item (r : Resource) : String ⊕ (String × String × String) :=
  match r.key with
  | some key => .inr key
  | none => .inl r.id

/-- The rows under the dedup key hold what the resource holds. -/
def UnchangedData (rows : Repository) (r : Resource) : Prop :=
  ∀ id row, rows.get? id = some row → row.key = r.key →
    row.kind = r.kind ∧ row.data = r.data ∧ row.summary = r.summary ∧ row.status = r.status

/-- The items are listed in the same order, newest first. -/
def SameOrder (rows rows' : Repository) : Prop :=
  ∀ tenantId kind, (candidates rows' tenantId kind).map Resource.item =
    (candidates rows tenantId kind).map Resource.item

/-- An upsert of `r` that answered `returned` was in place. -/
structure InPlace (rows rows' : Repository) (r returned : Resource) : Prop where
  keeps : Keeps rows rows' r
  returned : rows'.get returned.id = some returned
  order : UnchangedData rows r → SameOrder rows rows'

/-- The resource carries the id and the `created_at` of the row that is stored under its key. -/
def CarriesStored (rows : Repository) (r : Resource) : Prop :=
  ∀ id row, rows.get? id = some row → row.key = r.key →
    row.id = r.id ∧ row.createdAt = r.createdAt

/-! ## The order of a listing -/

/-- A row without what no listing looks at. -/
def Resource.outline (r : Resource) : Resource :=
  { r with data := Dict.empty, summary := "", updatedAt := 0 }

/-- A listing in outline is the listing of the outlines. -/
theorem candidates_outline (rows : Repository) (tenantId : String) (kind : Option String) :
    (candidates rows tenantId kind).map Resource.outline =
      Repository.newestFirst
        ((rows.values.map Resource.outline).filter (Repository.listed tenantId kind)) := by
  rw [candidates, Repository.newestFirst, Repository.newestFirst, List.filter_map]
  exact List.map_insertionSort _ _ _ _ fun _ _ _ _ => Iff.rfl

/-- Rows that look alike in outline, one by one, are listed alike. -/
theorem sameOrder_of_outline {rows rows' : Repository}
    (h : rows'.values.map Resource.outline = rows.values.map Resource.outline) :
    SameOrder rows rows' := by
  intro tenantId kind
  have hsame : (candidates rows' tenantId kind).map Resource.outline =
      (candidates rows tenantId kind).map Resource.outline := by
    rw [candidates_outline, candidates_outline, h]
  have hitem : ∀ l : List Resource, l.map Resource.item =
      (l.map Resource.outline).map Resource.item := by
    intro l
    rw [List.map_map]
    rfl
  rw [hitem, hsame, ← hitem]

/-- A row replaced by one of the same outline. -/
theorem outline_set {rows : Repository} {k : String} {old new : Resource}
    (h : rows.get? k = some old) (hsame : new.outline = old.outline) :
    (rows.set k new).values.map Resource.outline = rows.values.map Resource.outline := by
  rw [Dict.values, Dict.entries_set_of_some new h, List.map_map, List.map_map, Dict.values,
    List.map_map]
  refine List.map_congr_left fun e he => ?_
  by_cases hk : e.1 = k
  · have hold := Dict.get?_eq_some_iff.mpr (show (e.1, e.2) ∈ rows.entries from he)
    rw [hk, h] at hold
    cases hold
    simp [hk, hsame]
  · simp [hk]

/-- A row with the resource's key that already holds what the resource holds. -/
theorem outline_eq {row r : Resource} (hid : row.id = r.id) (hkey : row.key = r.key)
    (hsome : r.key ≠ none) (hcreated : row.createdAt = r.createdAt)
    (hsame : row.kind = r.kind ∧ row.data = r.data ∧ row.summary = r.summary ∧
      row.status = r.status) : r.outline = row.outline := by
  obtain ⟨key, hr⟩ := Option.ne_none_iff_exists'.mp hsome
  obtain ⟨ht, hs, he⟩ := Resource.key_eq_some.mp hr
  obtain ⟨ht', hs', he'⟩ := Resource.key_eq_some.mp (hkey.trans hr)
  simp only [Resource.outline, hid, ht, ht', hs, hs', he, he', hcreated, hsame]

/-! ## The in-memory adapter -/

/-- With the stored id the resource takes the place of the row, and nothing else goes. -/
theorem upsert_of_carries {repo : Repository} {r : Resource}
    (hc : CarriesStored repo r) : repo.upsert r = repo.set r.id r := by
  unfold Repository.upsert
  split
  · have hnone : (repo.values.filter fun existing => decide (existing.tenantId = r.tenantId ∧
        existing.sourceId = r.sourceId ∧ existing.externalId = r.externalId ∧
          existing.id ≠ r.id)) = [] := by
      refine List.filter_eq_nil_iff.mpr fun existing hmem h => ?_
      rw [decide_eq_true_eq] at h
      obtain ⟨ht, hs, he, hne⟩ := h
      obtain ⟨k, hk⟩ := Dict.mem_values_iff.mp hmem
      exact hne (hc k existing hk (by rw [Resource.key, ht, hs, he, ← Resource.key])).1
    rw [hnone]
    rfl
  · rfl

theorem inPlace_upsert_iff {repo : Repository} (hI : RowIds repo) {r : Resource}
    (hstored : Stored repo r) : InPlace repo (repo.upsert r) r r ↔ CarriesStored repo r := by
  obtain ⟨hsome, id, row, hrow, hkey⟩ := hstored
  constructor
  · intro h x other hother hok
    obtain ⟨row', hrow', -, -, hcreated⟩ := h.keeps x other hother hok
    by_cases hx : x = r.id
    · subst hx
      have hself := (Repository.get?_upsert_self repo r).symm.trans hrow'
      cases hself
      exact ⟨hI _ other hother, hcreated.symm⟩
    · have hgone := (Repository.get?_upsert_ne hI hx).symm.trans hrow'
      rw [hother, Option.filter_some, if_neg (by simp [hsome, hok])] at hgone
      cases hgone
  · intro hc
    have hid : id = r.id := (hI id row hrow).symm.trans (hc id row hrow hkey).1
    subst hid
    have hset := upsert_of_carries hc
    refine ⟨fun x other hother hok => ?_, Repository.get?_upsert_self repo r, fun hsame => ?_⟩
    · obtain ⟨hoid, hocreated⟩ := hc x other hother hok
      have hx : x = r.id := (hI x other hother).symm.trans hoid
      subst hx
      exact ⟨r, Repository.get?_upsert_self repo r, hoid.symm, rfl, hocreated.symm⟩
    · rw [hset]
      refine sameOrder_of_outline (outline_set hrow ?_)
      exact outline_eq (hc _ row hrow hkey).1 hkey hsome (hc _ row hrow hkey).2
        (hsame _ row hrow hkey)

/-! ## The Postgres adapter -/

theorem inPlace_update_iff {db : Database} {r : Resource} (hstored : Stored db.rows r) :
    (∃ db', db.upsert r = .ok db' ∧ InPlace db.rows db'.rows r r) ↔ CarriesStored db.rows r := by
  obtain ⟨hsome, id, row, hrow, hkey⟩ := hstored
  obtain ⟨key, hr⟩ := Option.ne_none_iff_exists'.mp hsome
  have hconflict : db.conflicting r = some row := by
    rw [Database.conflicting, hr, Option.bind_some]
    exact Database.holder_of_row hrow (hkey.trans hr)
  have hid : row.id = id := db.rowId _ _ hrow
  subst hid
  -- the row that holds the key is the only one
  have honly : ∀ x other, db.rows.get? x = some other → other.key = r.key →
      x = row.id ∧ other = row := by
    intro x other hother hok
    have hx := db.unique _ _ _ _ key hother hrow (hok.trans hr) (hkey.trans hr)
    subst hx
    exact ⟨rfl, Option.some.inj (hother.symm.trans hrow)⟩
  rw [Database.upsert_of_conflicting hconflict]
  constructor
  · rintro ⟨_, hok, h⟩ x other hother hokey
    cases hok
    obtain ⟨rfl, rfl⟩ := honly x other hother hokey
    have hget : (db.rows.set other.id (Database.merged other r)).get? r.id = some r := h.returned
    rcases Dict.get?_set_eq_some hget with ⟨hsame, hmerged⟩ | ⟨hne, hold⟩
    · exact ⟨hsame, (Database.merged_eq hsame hokey hsome).mp hmerged⟩
    · exact absurd (honly _ r hold rfl).1.symm hne
  · intro hc
    obtain ⟨hid, hcreated⟩ := hc _ row hrow hkey
    have hmerged : Database.merged row r = r := (Database.merged_eq hid hkey hsome).mpr hcreated
    refine ⟨_, rfl, ?_, ?_, fun hsame => ?_⟩
    · intro x other hother hokey
      obtain ⟨rfl, rfl⟩ := honly x other hother hokey
      refine ⟨_, Dict.get?_set_self _ _ _, rfl, ?_, rfl⟩
      rw [hmerged]
    · show (db.rows.set row.id (Database.merged row r)).get? r.id = some r
      rw [hid, hmerged, Dict.get?_set_self]
    · refine sameOrder_of_outline (outline_set hrow ?_)
      rw [hmerged]
      exact outline_eq hid hkey hsome hcreated (hsame _ row hrow hkey)

/-! ## The synchronizer -/

/-- A new id is not the stored one. -/
theorem not_carries_of_synced {rows : Repository} (hI : RowIds rows) {sha256 : String → String}
    {source : DataSource} {row : Dict String Json} {draw : RowDraw} {r : Resource}
    (hr : syncedResource sha256 source row draw = .ok r) (hnew : rows.get? draw.id = none)
    (hstored : Stored rows r) : ¬ CarriesStored rows r := by
  intro hc
  obtain ⟨-, id, stored, hrow, hkey⟩ := hstored
  have hid : id = draw.id :=
    ((hI id stored hrow).symm.trans (hc id stored hrow hkey).1).trans (syncedResource_eq_ok hr).1
  rw [hid, hnew] at hrow
  cases hrow

/-- **In place.** An upsert of an item that is stored is in place exactly when the resource carries
the stored id and `created_at`, over the in-memory store and in Postgres; and what the synchronizer
upserts, under the id it draws, never does.

The first two parts are about any resource with the key of a stored row, the third about those that
the synchronizer makes. Together they say that no re-sync of a stored item is in place. -/
theorem resync_in_place_iff {repo : Repository} (hI : RowIds repo) {db : Database} {r : Resource}
    (hmemory : Stored repo r) (hpostgres : Stored db.rows r) :
    (InPlace repo (repo.upsert r) r r ↔ CarriesStored repo r) ∧
      ((∃ db', db.upsert r = .ok db' ∧ InPlace db.rows db'.rows r r) ↔ CarriesStored db.rows r) ∧
      ∀ sha256 source row draw, syncedResource sha256 source row draw = .ok r →
        (repo.get? draw.id = none → ¬ CarriesStored repo r) ∧
          (db.rows.get? draw.id = none → ¬ CarriesStored db.rows r) :=
  ⟨inPlace_upsert_iff hI hmemory, inPlace_update_iff hpostgres, fun _ _ _ _ hr =>
    ⟨fun hnew => not_carries_of_synced hI hr hnew hmemory,
      fun hnew => not_carries_of_synced db.rowId hr hnew hpostgres⟩⟩

/-- A flat of the feed. -/
def flat (id : String) (createdAt : Datetime) : Resource where
  id
  tenantId := "acme"
  sourceId := some "s1"
  externalId := some "a"
  data := Dict.empty.set "code" (.str "a")
  summary := "\x7b\"code\": \"a\"\x7d"
  createdAt
  updatedAt := createdAt

/-- What the synchronizer makes of its row. -/
theorem synced_flat (id : String) (createdAt : Datetime) :
    syncedResource (fun text => text) listings (Dict.empty.set "code" (.str "a"))
      ⟨id, createdAt, createdAt⟩ = .ok (flat id createdAt) := rfl

/-- Synced once. -/
def flatStored : Database where
  sources := Dict.empty.set "s1" listings
  rows := Dict.empty.set "r1" (flat "r1" 1)
  rowId := Dict.Forall.set (fun k r h => by cases h) rfl
  unique := Dict.Unique.set (fun k k' r r' key h => by cases h) fun k r key h => by cases h
  foreign k row source hk hs := by
    rcases Dict.get?_set_eq_some hk with ⟨-, rfl⟩ | ⟨-, h⟩
    · cases hs
      rfl
    · cases h

theorem stored_flat (id : String) (createdAt : Datetime) : Stored flatStored.rows (flat id createdAt) :=
  ⟨Option.some_ne_none _, "r1", flat "r1" 1, rfl, rfl⟩

/-- Synced again, it is in place neither here nor there. -/
theorem flat_not_in_place :
    ¬ InPlace flatStored.rows (Repository.upsert flatStored.rows (flat "r2" 2)) (flat "r2" 2)
        (flat "r2" 2) ∧
      ¬ ∃ db', flatStored.upsert (flat "r2" 2) = .ok db' ∧
        InPlace flatStored.rows db'.rows (flat "r2" 2) (flat "r2" 2) := by
  obtain ⟨hmemory, hpostgres, hnever⟩ :=
    resync_in_place_iff flatStored.rowId (stored_flat "r2" 2) (stored_flat "r2" 2)
  obtain ⟨hnot, hnot'⟩ := hnever _ _ _ _ (synced_flat "r2" 2)
  exact ⟨fun h => hnot rfl (hmemory.mp h), fun h => hnot' rfl (hpostgres.mp h)⟩

/-- Not every re-sync of a stored item is in place. -/
theorem not_resync_in_place : ¬ ((∀ (repo : Repository) (r : Resource), RowIds repo → Stored repo r →
      (∃ sha256 source row draw, syncedResource sha256 source row draw = .ok r ∧
        repo.get? draw.id = none) → InPlace repo (repo.upsert r) r r) ∧
    ∀ (db : Database) (r : Resource), Stored db.rows r →
      (∃ sha256 source row draw, syncedResource sha256 source row draw = .ok r ∧
        db.rows.get? draw.id = none) →
      ∃ db', db.upsert r = .ok db' ∧ InPlace db.rows db'.rows r r) := by
  rintro ⟨hmemory, -⟩
  have h := hmemory flatStored.rows (flat "r2" 2) flatStored.rowId (stored_flat "r2" 2)
    ⟨_, _, _, _, synced_flat "r2" 2, rfl⟩
  obtain ⟨row', hrow', hid, -⟩ := h.keeps "r1" (flat "r1" 1) rfl rfl
  cases hrow'

end Wapsell.Resources
