import Wapsell.Resources.Postgres

/-!
# Insert or update: one law, two adapters

`upsert(r)` should succeed, leave `r` under its id, and keep the dedup key
unique. The in-memory adapter replaces whatever holds the id or the key.
The Postgres statement has one conflict target, the dedup key, and updates
in place the row that holds it: it meets the law exactly when it inserts a
row that conflicts with nothing, or when the row it updates is the row
under the resource's own id. A row without a dedup key, which is every row
the CRM writes, can be inserted but never updated.

Two columns of the table are unique, the id and the dedup key, and the
statement names one of them. A resource that meets a stored row by its
id alone is refused by the primary key; one that meets it by its key
alone is updated under the old id, and `get` under the new id finds
nothing.
-/

namespace Wapsell.Resources

open Lib Py

/-- At most one row for each non-null `(tenant_id, source_id, external_id)`. -/
def KeysUnique (rows : Dict String Resource) : Prop :=
  ∀ key, (rows.values.filter fun row => decide (row.key = some key)).length ≤ 1

/-- `upsert(r)` succeeded, `get(r.id)` returns `r`, and the dedup key is unique. -/
def MeetsUpsertLaw (outcome : Except Violation Database) (r : Resource) : Prop :=
  ∃ db, outcome = .ok db ∧ db.get r.id = some r ∧ KeysUnique db.rows

namespace Database

/-- The resource is new: its id is not stored, its dedup key is NULL or free, its source is NULL or
registered. -/
def Inserts (db : Database) (r : Resource) : Prop :=
  db.rows.get? r.id = none ∧ db.conflicting r = none ∧ db.SourceKnown r

/-- The resource is a newer version of the row under its id: same non-null dedup key, same
`created_at`. -/
def UpdatesInPlace (db : Database) (r : Resource) : Prop :=
  ∃ row, db.rows.get? r.id = some row ∧ row.key = r.key ∧ r.key ≠ none ∧
    row.createdAt = r.createdAt

/-- The constraint, as a count. -/
theorem keysUnique (db : Database) : KeysUnique db.rows := by
  intro key
  rw [Dict.length_filter_values_le_one]
  intro k k' a b ha hb hka hkb
  rw [decide_eq_true_eq] at hka hkb
  exact db.unique k k' a b key ha hb hka hkb

/-- The updated row is the resource when the columns outside `DO UPDATE SET` already agree. -/
theorem merged_eq {row r : Resource} (hid : row.id = r.id) (hkey : row.key = r.key)
    (hsome : r.key ≠ none) : merged row r = r ↔ row.createdAt = r.createdAt := by
  obtain ⟨key, hr⟩ := Option.ne_none_iff_exists'.mp hsome
  obtain ⟨ht, hs, he⟩ := Resource.key_eq_some.mp hr
  obtain ⟨ht', hs', he'⟩ := Resource.key_eq_some.mp (hkey.trans hr)
  constructor
  · intro h
    have hcreated := congrArg Resource.createdAt h
    exact hcreated
  · intro hc
    cases row
    cases r
    simp only at hid ht hs he ht' hs' he' hc
    simp only [merged, hid, ht, ht', hs, hs', he, he', hc]

/-- A row under the resource's id with its dedup key is the one the statement conflicts with. -/
theorem conflicting_of_stored {db : Database} {row r : Resource}
    (hrow : db.rows.get? r.id = some row) (hkey : row.key = r.key) (hsome : r.key ≠ none) :
    db.conflicting r = some row := by
  obtain ⟨key, hr⟩ := Option.ne_none_iff_exists'.mp hsome
  rw [conflicting, hr, Option.bind_some]
  exact holder_of_row hrow (hkey.trans hr)

/-- What the statement does, by the row it conflicts with. -/
theorem upsert_of_conflicting {db : Database} {row r : Resource}
    (hc : db.conflicting r = some row) :
    db.upsert r = .ok (db.update row r (conflicting_eq_some hc).1) := by
  unfold upsert
  split
  · next h =>
    rw [hc] at h
    cases h
    rfl
  · next h =>
    rw [hc] at h
    cases h

theorem upsert_of_free {db : Database} {r : Resource} (hc : db.conflicting r = none) :
    db.upsert r = db.insertFree r hc := by
  unfold upsert
  split
  · next h =>
    rw [hc] at h
    cases h
  · rfl

/-- On a conflict the law is that the row updated is the row under the resource's id. -/
theorem upsert_law_of_conflicting {db : Database} {row r : Resource}
    (hc : db.conflicting r = some row) : MeetsUpsertLaw (db.upsert r) r ↔ db.UpdatesInPlace r := by
  obtain ⟨hrow, key, hkey, hrk⟩ := conflicting_eq_some hc
  have hsome : r.key ≠ none := by
    rw [hkey]
    exact Option.some_ne_none key
  rw [upsert_of_conflicting hc]
  constructor
  · rintro ⟨_, hok, hget, -⟩
    cases hok
    have hget' : (db.rows.set row.id (merged row r)).get? r.id = some r := hget
    rw [Dict.get?_set] at hget'
    split at hget'
    · next hid =>
      have hmerged := Option.some.inj hget'
      exact ⟨row, hid ▸ hrow, hrk.trans hkey.symm, hsome,
        (merged_eq hid (hrk.trans hkey.symm) hsome).mp hmerged⟩
    · next hne => exact absurd (db.unique _ _ row r key hrow hget' hrk hkey) hne
  · rintro ⟨stored, hstored, hsk, -, hcreated⟩
    have hsame : stored = row := by
      have := conflicting_of_stored hstored hsk hsome
      rw [hc] at this
      exact (Option.some.inj this).symm
    subst hsame
    have hid : stored.id = r.id := db.rowId _ _ hstored
    refine ⟨_, rfl, ?_, keysUnique _⟩
    show (db.rows.set stored.id (merged stored r)).get? r.id = some r
    rw [Dict.get?_set, if_pos hid, (merged_eq hid hsk hsome).mpr hcreated]

/-- Without a conflict the law is that the plain insert goes through. -/
theorem upsert_law_of_free {db : Database} {r : Resource} (hc : db.conflicting r = none) :
    MeetsUpsertLaw (db.upsert r) r ↔ db.rows.get? r.id = none ∧ db.SourceKnown r := by
  rw [upsert_of_free hc, insertFree]
  constructor
  · rintro ⟨db', hok, -⟩
    split at hok
    · cases hok
    · next hid =>
      split at hok
      · next hsource => exact ⟨Option.not_isSome_iff_eq_none.mp hid, hsource⟩
      · cases hok
  · rintro ⟨hid, hsource⟩
    rw [if_neg (by rw [hid]; exact Bool.false_ne_true), dif_pos hsource]
    exact ⟨_, rfl, Dict.get?_set_self _ _ _, keysUnique _⟩

/-- New resources and newer versions of stored ones meet the law. -/
theorem meetsUpsertLaw_of {db : Database} {r : Resource} (h : db.Inserts r ∨ db.UpdatesInPlace r) :
    MeetsUpsertLaw (db.upsert r) r := by
  rcases h with ⟨hid, hc, hsource⟩ | hupdate
  · exact (upsert_law_of_free hc).mpr ⟨hid, hsource⟩
  · obtain ⟨row, hrow, hkey, hsome, -⟩ := id hupdate
    exact (upsert_law_of_conflicting (conflicting_of_stored hrow hkey hsome)).mpr hupdate

/-- **The law of `upsert` in Postgres.** It is met exactly by a resource that is new, and by a newer
version of the row under its id that has the same non-null dedup key and `created_at`.

The condition is on the table and the resource before the statement, and the table is any that meets
the constraints of the schema. -/
theorem upsert_law_iff (db : Database) (r : Resource) :
    MeetsUpsertLaw (db.upsert r) r ↔ db.Inserts r ∨ db.UpdatesInPlace r := by
  refine ⟨fun h => ?_, meetsUpsertLaw_of⟩
  cases hc : db.conflicting r with
  | some row => exact .inr ((upsert_law_of_conflicting hc).mp h)
  | none =>
    obtain ⟨hid, hsource⟩ := (upsert_law_of_free hc).mp h
    exact .inl ⟨hid, hc, hsource⟩

/-- A stored row without a dedup key is never updated: the statement runs into the primary key. -/
theorem upsert_stored_without_key {db : Database} {r : Resource}
    (hstored : (db.rows.get? r.id).isSome) (hkey : r.key = none) :
    db.upsert r = .error .primaryKey := by
  have hc : db.conflicting r = none := by rw [conflicting, hkey, Option.bind_none]
  rw [upsert_of_free hc, insertFree, if_pos hstored]

end Database

/-! ## The in-memory adapter -/

/-- Every row is under its id. -/
def RowIds (repo : Repository) : Prop := ∀ k r, repo.get? k = some r → r.id = k

namespace Repository

theorem get?_foldl_erase (x : String) : ∀ (others : List Resource) (d : Repository),
    (others.foldl (fun d existing => d.erase existing.id) d).get? x =
      if x ∈ others.map Resource.id then none else d.get? x
  | [], d => by simp
  | r :: rest, d => by
    rw [List.foldl_cons, get?_foldl_erase x rest, Dict.get?_erase]
    by_cases hx : x = r.id
    · subst hx
      simp
    · have hne : ¬ r.id = x := fun e => hx e.symm
      simp only [List.map_cons, List.mem_cons, hx, false_or, if_neg hne]

theorem entries_foldl_erase : ∀ (others : List Resource) (repo : Repository),
    (others.foldl (fun d existing => Dict.erase d existing.id) repo).entries =
      repo.entries.filter fun e => decide (e.1 ∉ others.map Resource.id)
  | [], repo => by
    rw [List.foldl_nil, List.filter_eq_self.mpr fun _ _ => by simp]
  | r :: rest, repo => by
    rw [List.foldl_cons, entries_foldl_erase rest, Dict.erase, List.filter_filter]
    refine List.filter_congr fun e _ => ?_
    simp only [List.map_cons, List.mem_cons, not_or, Bool.decide_and, Bool.and_comm]

/-- The resource is read back under its id. -/
theorem get?_upsert_self (repo : Repository) (r : Resource) :
    (repo.upsert r).get r.id = some r :=
  Dict.get?_set_self _ _ _

/-- Sharing the resource's dedup key, as the adapter compares it. -/
theorem key_eq_iff {r row : Resource} {key : String × String × String} (hr : r.key = some key) :
    row.key = r.key ↔ row.tenantId = r.tenantId ∧ row.sourceId = r.sourceId ∧
      row.externalId = r.externalId := by
  obtain ⟨ht, hs, he⟩ := Resource.key_eq_some.mp hr
  rw [hr, Resource.key_eq_some, ht, hs, he]

/-- The other rows `upsert` takes out are those with the resource's dedup key. -/
theorem mem_replaced_iff {repo : Repository} (hid : RowIds repo) {r row : Resource}
    {key : String × String × String} (hkey : r.key = some key) {x : String} (hx : x ≠ r.id)
    (hrow : repo.get? x = some row) :
    x ∈ (repo.values.filter fun existing => decide (existing.tenantId = r.tenantId ∧
        existing.sourceId = r.sourceId ∧ existing.externalId = r.externalId ∧
          existing.id ≠ r.id)).map Resource.id ↔ row.key = r.key := by
  rw [key_eq_iff hkey, List.mem_map]
  constructor
  · rintro ⟨existing, hex, hexid⟩
    obtain ⟨hval, hp⟩ := List.mem_filter.mp hex
    obtain ⟨k, hk⟩ := Dict.mem_values_iff.mp hval
    rw [← hid k existing hk, hexid, hrow] at hk
    cases hk
    rw [decide_eq_true_eq] at hp
    exact ⟨hp.1, hp.2.1, hp.2.2.1⟩
  · rintro ⟨h1, h2, h3⟩
    refine ⟨row, List.mem_filter.mpr ⟨Dict.mem_values_iff.mpr ⟨x, hrow⟩, ?_⟩, hid x row hrow⟩
    rw [decide_eq_true_eq]
    exact ⟨h1, h2, h3, fun e => hx ((hid x row hrow).symm.trans e)⟩

/-- A dedup key is looked for. -/
theorem searches_of_key {r : Resource} {key : String × String × String} (hkey : r.key = some key) :
    r.externalId ≠ none ∧ r.sourceId ≠ none := by
  obtain ⟨-, hs, he⟩ := Resource.key_eq_some.mp hkey
  simp [hs, he]

/-- Of the other rows, those with the resource's dedup key are gone and the rest unchanged. -/
theorem get?_upsert_ne {repo : Repository} (hid : RowIds repo) {r : Resource} {x : String}
    (hx : x ≠ r.id) :
    (repo.upsert r).get x = (repo.get? x).filter fun row =>
      decide (r.key = none ∨ row.key ≠ r.key) := by
  unfold upsert get
  rw [Dict.get?_set_ne _ _ (Ne.symm hx), get?_foldl_erase]
  cases hkey : r.key with
  | none =>
    have hcond : ¬ (r.externalId ≠ none ∧ r.sourceId ≠ none) := by
      rintro ⟨he, hs⟩
      obtain ⟨e, he⟩ := Option.ne_none_iff_exists'.mp he
      obtain ⟨s, hs⟩ := Option.ne_none_iff_exists'.mp hs
      rw [Resource.key, he, hs] at hkey
      cases hkey
    rw [if_neg hcond]
    cases repo.get? x <;> simp [Option.filter]
  | some key =>
    rw [if_pos (searches_of_key hkey)]
    cases hrow : repo.get? x with
    | none => simp
    | some row =>
      have hmem := mem_replaced_iff hid hkey hx hrow
      rw [hkey] at hmem
      by_cases hsame : row.key = some key
      · rw [if_pos (hmem.mpr hsame)]
        simp [Option.filter, hsame]
      · rw [if_neg fun h => hsame (hmem.mp h)]
        simp [Option.filter, hsame]

/-- Under a new id, the resource comes last and the rows with its dedup key are gone. -/
theorem entries_upsert_of_none {repo : Repository} (hid : RowIds repo) {r : Resource}
    {key : String × String × String} (hkey : r.key = some key) (hnew : repo.get? r.id = none) :
    (repo.upsert r).entries =
      (repo.entries.filter fun e => decide (e.2.key ≠ some key)) ++ [(r.id, r)] := by
  unfold upsert
  rw [if_pos (searches_of_key hkey), Dict.entries_set_of_none, entries_foldl_erase]
  · congr 1
    refine List.filter_congr fun e he => ?_
    have hrow := Dict.get?_eq_some_iff.mpr (show (e.1, e.2) ∈ repo.entries from he)
    have hne : e.1 ≠ r.id := by
      intro h
      rw [h, hnew] at hrow
      cases hrow
    rw [decide_eq_decide, mem_replaced_iff hid hkey hne hrow, hkey]
  · rw [get?_foldl_erase, hnew, ite_self]

/-- A row of an upsert is the new one or was there. -/
theorem get?_upsert_eq_some {repo : Repository} {r row : Resource} {k : String}
    (h : (repo.upsert r).get? k = some row) : row = r ∨ repo.get? k = some row := by
  unfold upsert at h
  rcases Dict.get?_set_eq_some h with ⟨-, rfl⟩ | ⟨-, hold⟩
  · exact .inl rfl
  · rw [get?_foldl_erase, Option.ite_none_left_eq_some] at hold
    exact .inr hold.2

end Repository

theorem RowIds.upsert {repo : Repository} (hI : RowIds repo) (r : Resource) :
    RowIds (repo.upsert r) := by
  intro k row hk
  by_cases hid : k = r.id
  · subst hid
    rw [show (repo.upsert r).get? r.id = some r from Repository.get?_upsert_self repo r] at hk
    cases hk
    rfl
  · have hold := (Repository.get?_upsert_ne hI hid).symm.trans hk
    exact hI k row (Option.filter_eq_some_iff.mp hold).1

/-- **Agreement.** Where the Postgres statement meets the law, it leaves under every id what the
in-memory adapter would leave. -/
theorem upsert_agrees {db db' : Database} {r : Resource} (hok : db.upsert r = .ok db')
    (h : db.Inserts r ∨ db.UpdatesInPlace r) (x : String) :
    db'.get x = Repository.get (Repository.upsert db.rows r) x := by
  by_cases hx : x = r.id
  · subst hx
    obtain ⟨_, hok', hget, -⟩ := Database.meetsUpsertLaw_of h
    rw [hok] at hok'
    cases hok'
    rw [hget, Repository.get?_upsert_self]
  · rw [Repository.get?_upsert_ne db.rowId hx]
    cases hc : db.conflicting r with
    | some row =>
      obtain ⟨hrow, key, hkey, hrk⟩ := Database.conflicting_eq_some hc
      have hid : row.id = r.id := by
        rcases h with ⟨-, hnone, -⟩ | ⟨stored, hstored, hsk, hsome, -⟩
        · rw [hc] at hnone
          cases hnone
        · exact db.unique _ _ row stored key hrow hstored hrk (hsk.trans hkey)
      rw [Database.upsert_of_conflicting hc] at hok
      cases hok
      show (db.rows.set row.id _).get? x = _
      rw [Dict.get?_set_ne _ _ (fun e => hx (e.symm.trans hid))]
      cases hother : db.rows.get? x with
      | none => rfl
      | some other =>
        -- the other rows hold other keys
        have hne : other.key ≠ r.key := by
          intro e
          have := db.unique _ _ other row key hother hrow (e.trans hkey) hrk
          exact hx (this.trans hid)
        simp [Option.filter, hne]
    | none =>
      rw [Database.upsert_of_free hc, Database.insertFree] at hok
      split at hok
      · cases hok
      · split at hok
        · cases hok
          show (db.rows.set r.id r).get? x = _
          rw [Dict.get?_set_ne _ _ (fun e => hx e.symm)]
          cases hother : db.rows.get? x with
          | none => rfl
          | some other =>
            cases hkey : r.key with
            | none => simp [Option.filter]
            | some key =>
              have hne := Database.conflicting_eq_none hc hkey hother
              simp [Option.filter, hne]
        · cases hok

/-! ## Reachable states -/

/-- The operations of the two repositories on these tables. -/
inductive Operation
  | add (resource : Resource)
  | upsert (resource : Resource)
  | delete (resourceId : String)
  | addSource (source : DataSource)
  | updateSource (source : DataSource)
  | deleteSource (sourceId : String)

/-- An operation that raises leads nowhere. -/
def Database.step (db : Database) : Operation → Option Database
  | .add resource => (db.add resource).toOption
  | .upsert resource => (db.upsert resource).toOption
  | .delete resourceId => some (db.delete resourceId)
  | .addSource source => (db.addSource source).toOption
  | .updateSource source => some (db.updateSource source)
  | .deleteSource sourceId => some (db.deleteSource sourceId)

/-- A contact as the CRM recorder stores it: no source, one external id per phone. -/
def contact (turnCount : Int) : Resource where
  id := "c1"
  tenantId := "acme"
  kind := "contact"
  externalId := some "buyer:5491100"
  data := (Dict.empty.set "phone" (.str "5491100")).set "turn_count" (.int turnCount)
  summary := "+5491100"
  createdAt := 0
  updatedAt := 0

/-- Its second message cannot be counted: the updated row is refused. -/
theorem not_upsert_law : ¬ ∀ (db : Database) (r : Resource),
    Leads Database.step Database.empty db → MeetsUpsertLaw (db.upsert r) r := by
  intro h
  have hadd : Database.step Database.empty (.add (contact 1)) =
      some (Database.empty.insert (contact 1) rfl fun _ hs => by cases hs) := rfl
  obtain ⟨db', hok, -⟩ := h _ (contact 2) (Leads.of_step hadd)
  rw [Database.upsert_stored_without_key rfl rfl] at hok
  cases hok

end Wapsell.Resources
