import Wapsell.Lib.Run
import Wapsell.Resources.Sync
import Wapsell.Resources.Upsert

/-!
# Syncing again

However often the sources are synced, and whatever their payloads repeat or
reorder, the store holds one row for each item ever seen: the one its last
occurrence wrote. What a step wrote is kept as a function from the dedup
key to the row's data, so that steps compose by looking at the later one
first.

No sync is assumed to have the whole feed: an item that is missing from
a later payload keeps its row. Rows of other tenants, of other sources
and of no source are the same rows in the same order after any run.

What this does not establish: the order in which the rows of synced
items are listed. It changes with every sync, which is the matter of
updating in place.
-/

namespace Wapsell.Resources

open Lib Py

variable (U : Unicode) (sha256 : String → String)

/-! ## Runs of the synchronizer -/

/-- One call of `sync`, with the answer it awaits and what it draws. -/
structure SyncCall where
  sourceId : String
  upstream : Upstream
  draws : List RowDraw
  now : Datetime

/-- The rows a call imports: none when the adapter raises. A sync that fails imports nothing and
records its failure. -/
def SyncCall.rows (sources : Sources) (call : SyncCall) : List (Dict String Json) :=
  match sources.get call.sourceId with
  | none => []
  | some source =>
    match fetch U source call.upstream with
    | .error _ => []
    | .ok rows => rows

/-- `_uuid()` draws ids that are not there, a new one for each row. -/
def DrawsFresh (repo : Repository) (rows : List (Dict String Json)) (draws : List RowDraw) : Prop :=
  draws.length = rows.length ∧ (draws.map RowDraw.id).Nodup ∧
    ∀ draw ∈ draws, repo.get? draw.id = none

instance (repo : Repository) (rows : List (Dict String Json)) (draws : List RowDraw) :
    Decidable (DrawsFresh repo rows draws) :=
  inferInstanceAs (Decidable (_ ∧ _ ∧ ∀ draw ∈ draws, _))

/-- A call that answers a report; one that raises leads nowhere. -/
def syncStep (store : Store) (call : SyncCall) : Option Store :=
  if DrawsFresh store.resources (call.rows U store.sources) call.draws then
    match sync U sha256 store call.sourceId call.upstream call.draws call.now with
    | (.ok _, store') => some store'
    | (.error _, _) => none
  else none

/-- The last occurrence of an item in a payload. -/
def lastOccurrence (rows : List (Dict String Json)) (externalId : String) :
    Option (Dict String Json) :=
  rows.reverse.find? fun row => extractExternalId sha256 row = externalId

/-- The last occurrence of an item in the last sync of its source that contained it. -/
def lastSynced (sources : Sources) (calls : List SyncCall) (sourceId externalId : String) :
    Option (Dict String Json) :=
  calls.reverse.findSome? fun call =>
    if call.sourceId = sourceId then lastOccurrence sha256 (call.rows U sources) externalId else none

/-- The item came with some sync of the source. -/
def Seen (sources : Sources) (calls : List SyncCall) (sourceId externalId : String) : Prop :=
  ∃ call ∈ calls, call.sourceId = sourceId ∧
    ∃ row ∈ call.rows U sources, extractExternalId sha256 row = externalId

/-- The row is of a source that is synced, and of its tenant. -/
def ofSynced (sources : Sources) (calls : List SyncCall) (r : Resource) : Bool :=
  calls.any fun call =>
    match sources.get call.sourceId with
    | none => false
    | some source => r.tenantId = source.tenantId ∧ r.sourceId = some source.id

/-- What a payload leaves under a key. -/
def lastOf (source : DataSource) (rows : List (Dict String Json)) (key : String × String × String) :
    Option (Dict String Json) :=
  if key.1 = source.tenantId ∧ key.2.1 = source.id then lastOccurrence sha256 rows key.2.2 else none

/-- What a call leaves under a key. -/
def SyncCall.last (sources : Sources) (call : SyncCall) (key : String × String × String) :
    Option (Dict String Json) :=
  match sources.get call.sourceId with
  | none => none
  | some source => lastOf sha256 source (call.rows U sources) key

variable {U sha256}

theorem lastSynced_isSome {sources : Sources} {calls : List SyncCall} {sourceId e : String}
    (h : Seen U sha256 sources calls sourceId e) :
    (lastSynced U sha256 sources calls sourceId e).isSome := by
  obtain ⟨call, hcall, hsource, row, hrow, he⟩ := h
  refine List.findSome?_isSome_iff.mpr ⟨call, List.mem_reverse.mpr hcall, ?_⟩
  rw [if_pos hsource, lastOccurrence, List.find?_isSome]
  exact ⟨row, List.mem_reverse.mpr hrow, decide_eq_true he⟩

/-! ## What a step writes -/

/-- The rows with a dedup key. -/
def holders (repo : Repository) (key : String × String × String) : List Resource :=
  repo.values.filter fun r => r.key = some key

/-- `repo'` is `repo` after writes that left the data `last key` under each key: one row for each of
these, and all others as they were. -/
structure Wrote (last : String × String × String → Option (Dict String Json))
    (Owned : Resource → Prop) (repo repo' : Repository) : Prop where
  rowIds : RowIds repo'
  one : ∀ key data, last key = some data → ∃ r, holders repo' key = [r] ∧ r.data = data
  same : ∀ key, last key = none → holders repo' key = holders repo key
  owned : ∀ k r, repo'.get? k = some r → repo.get? k = some r ∨ Owned r
  others : ∀ keep : Resource → Bool, (∀ r, keep r → ¬ Owned r) →
    repo'.values.filter keep = repo.values.filter keep

section Rules

variable {last last' : String × String × String → Option (Dict String Json)}
  {Owned : Resource → Prop} {a b c : Repository}

theorem Wrote.refl (h : RowIds a) : Wrote (fun _ => none) Owned a a where
  rowIds := h
  one _ _ h := by cases h
  same _ _ := rfl
  owned _ _ h := .inl h
  others _ _ := rfl

theorem Wrote.trans (h : Wrote last Owned a b) (h' : Wrote last' Owned b c) :
    Wrote (fun key => (last' key).or (last key)) Owned a c where
  rowIds := h'.rowIds
  one key data hdata := by
    cases hlater : last' key with
    | some data' =>
      rw [hlater, Option.some_or] at hdata
      exact h'.one key data (hlater.trans hdata)
    | none =>
      rw [hlater, Option.none_or] at hdata
      rw [h'.same key hlater]
      exact h.one key data hdata
  same key hnone := by
    obtain ⟨hlater, hearlier⟩ := Option.or_eq_none_iff.mp hnone
    rw [h'.same key hlater, h.same key hearlier]
  owned k r hr := (h'.owned k r hr).elim (h.owned k r) .inr
  others keep hkeep := (h'.others keep hkeep).trans (h.others keep hkeep)

theorem Wrote.mono {Owned' : Resource → Prop} (h : Wrote last Owned a b)
    (himp : ∀ r, Owned r → Owned' r) : Wrote last Owned' a b :=
  { h with
    owned := fun k r hr => (h.owned k r hr).imp_right (himp r)
    others := fun keep hkeep => h.others keep fun r hr howned => hkeep r hr (himp r howned) }

end Rules

/-- One upsert of a new resource. -/
theorem wrote_upsert {repo : Repository} (hI : RowIds repo) {r : Resource}
    {key : String × String × String} (hkey : r.key = some key) (hnew : repo.get? r.id = none) :
    Wrote (fun k => if k = key then some r.data else none)
      (fun r' => r'.tenantId = key.1 ∧ r'.sourceId = some key.2.1) repo (repo.upsert r) := by
  have hentries := Repository.entries_upsert_of_none hI hkey hnew
  have hvalues : (repo.upsert r).values =
      (repo.values.filter fun row => decide (row.key ≠ some key)) ++ [r] := by
    rw [Dict.values, hentries, List.map_append, Dict.values, List.filter_map]
    rfl
  obtain ⟨ht, hs, -⟩ := Resource.key_eq_some.mp hkey
  refine { rowIds := hI.upsert r, one := fun k data hdata => ?_, same := fun k hnone => ?_
           owned := fun k r' hr' => ?_, others := fun keep hkeep => ?_ }
  · split at hdata
    · next hk =>
      subst hk
      cases hdata
      refine ⟨r, ?_, rfl⟩
      rw [holders, hvalues, List.filter_append, List.filter_filter]
      have hgone : (repo.values.filter fun row =>
          decide (row.key = some k) && decide (row.key ≠ some k)) = [] :=
        List.filter_eq_nil_iff.mpr fun row _ => by simp
      rw [hgone, List.nil_append, List.filter_singleton, hkey]
      simp
    · cases hdata
  · split at hnone
    · cases hnone
    · next hk =>
      rw [holders, hvalues, List.filter_append, List.filter_filter, List.filter_singleton, hkey]
      have hne : ¬ some key = some k := fun e => hk (Option.some.inj e).symm
      rw [decide_eq_false hne]
      refine (List.append_nil _).trans (List.filter_congr fun row _ => ?_)
      by_cases hrow : row.key = some k
      · simp [hrow, hk]
      · simp [hrow]
  · by_cases hid : k = r.id
    · subst hid
      rw [show (repo.upsert r).get? r.id = some r from Repository.get?_upsert_self repo r] at hr'
      cases hr'
      exact .inr ⟨ht, hs⟩
    · have hold := (Repository.get?_upsert_ne hI hid).symm.trans hr'
      exact .inl (Option.filter_eq_some_iff.mp hold).1
  · have hnot : keep r = false := by
      by_contra h
      exact hkeep r (Bool.of_not_eq_false h) ⟨ht, hs⟩
    rw [hvalues, List.filter_append, List.filter_filter, List.filter_singleton, hnot]
    refine (List.append_nil _).trans (List.filter_congr fun row _ => ?_)
    by_cases hrow : row.key = some key
    · obtain ⟨ht', hs', -⟩ := Resource.key_eq_some.mp hrow
      have hkept : keep row = false := by
        by_contra h
        exact hkeep row (Bool.of_not_eq_false h) ⟨ht', hs'⟩
      rw [hkept, Bool.false_and]
    · simp [hrow]

/-! ## One sync -/

/-- The row is of this source, and of its tenant. -/
def Of (source : DataSource) (r : Resource) : Prop :=
  r.tenantId = source.tenantId ∧ r.sourceId = some source.id

theorem lastOf_cons (source : DataSource) (row : Dict String Json) (rows : List (Dict String Json))
    (key : String × String × String) :
    lastOf sha256 source (row :: rows) key =
      (lastOf sha256 source rows key).or
        (if key = (source.tenantId, source.id, extractExternalId sha256 row) then some row
        else none) := by
  obtain ⟨t, s, e⟩ := key
  simp only [lastOf, lastOccurrence, Prod.mk.injEq]
  by_cases hsource : t = source.tenantId ∧ s = source.id
  · rw [if_pos hsource, if_pos hsource, List.reverse_cons, List.find?_append]
    congr 1
    rw [List.find?_singleton]
    by_cases he : extractExternalId sha256 row = e
    · simp [hsource, he]
    · simp [hsource, he, Ne.symm he]
  · rw [if_neg hsource, if_neg hsource, if_neg fun h => hsource ⟨h.1, h.2.1⟩]
    rfl

theorem syncedResource_eq_ok {source : DataSource} {row : Dict String Json} {draw : RowDraw}
    {r : Resource} (h : syncedResource sha256 source row draw = .ok r) :
    r.id = draw.id ∧ r.key = some (source.tenantId, source.id, extractExternalId sha256 row) ∧
      r.data = row := by
  unfold syncedResource at h
  cases hkind : resourceKind source with
  | error e =>
    rw [hkind] at h
    cases h
  | ok kind =>
    rw [hkind] at h
    cases h
    exact ⟨rfl, rfl, rfl⟩

/-- The loop over a payload, when no `Resource` is refused. -/
theorem wrote_upsertRows {source : DataSource} : ∀ {pairs : List (Dict String Json × RowDraw)}
    {repo repo' : Repository}, RowIds repo → (pairs.map fun p => p.2.id).Nodup →
      (∀ p ∈ pairs, repo.get? p.2.id = none) →
      upsertRows sha256 source repo pairs = (.ok (), repo') →
      Wrote (lastOf sha256 source (pairs.map Prod.fst)) (Of source) repo repo'
  | [], repo, _, hI, _, _, hloop => by
    cases hloop
    have hnone : lastOf sha256 source (List.map Prod.fst
        ([] : List (Dict String Json × RowDraw))) = fun _ => none := by
      funext key
      rw [lastOf, lastOccurrence]
      exact ite_self _
    rw [hnone]
    exact .refl hI
  | (row, draw) :: rest, repo, repo', hI, hnd, hfree, hloop => by
    obtain ⟨hnot, hnd'⟩ := List.nodup_cons.mp hnd
    rw [upsertRows] at hloop
    cases hr : syncedResource sha256 source row draw with
    | error e =>
      rw [hr] at hloop
      cases hloop
    | ok r =>
      rw [hr] at hloop
      obtain ⟨hid, hkey, hdata⟩ := syncedResource_eq_ok hr
      have hnew : repo.get? r.id = none := hid ▸ hfree _ List.mem_cons_self
      have hfirst := wrote_upsert hI hkey hnew
      have hlater := wrote_upsertRows hfirst.rowIds hnd' (fun p hp => by
        have hne : p.2.id ≠ r.id := fun e => hnot (List.mem_map.mpr ⟨p, hp, e.trans hid⟩)
        show (repo.upsert r).get p.2.id = none
        rw [Repository.get?_upsert_ne hI hne, hfree p (List.mem_cons_of_mem _ hp)]
        rfl) hloop
      have hboth := (hfirst.mono fun _ h => h).trans hlater
      rw [hdata] at hboth
      rw [List.map_cons, funext (lastOf_cons source row (rest.map Prod.fst))]
      exact hboth

/-! ## Every sync -/

/-- The sources are stored under their ids. -/
def SourceIds (sources : Sources) : Prop := ∀ k source, sources.get? k = some source → source.id = k

/-- What a sync does not change of a source. -/
def DataSource.registration (source : DataSource) :
    String × String × DataSourceKind × Dict String Json :=
  (source.id, source.tenantId, source.kind, source.config)

/-- The same sources, whatever became of their last sync. -/
def SameSources (sources sources' : Sources) : Prop :=
  ∀ k, (sources'.get? k).map DataSource.registration = (sources.get? k).map DataSource.registration

theorem fetch_congr {source source' : DataSource} (hkind : source'.kind = source.kind)
    (hconfig : source'.config = source.config) (upstream : Upstream) :
    fetch U source' upstream = fetch U source upstream := by
  simp only [fetch, fetchHtml, fetchJsonApi, hkind, hconfig]

theorem SameSources.get {sources sources' : Sources} (h : SameSources sources sources') {k : String}
    {source : DataSource} (hk : sources.get? k = some source) :
    ∃ source', sources'.get? k = some source' ∧ source'.registration = source.registration := by
  have hsame := h k
  rw [hk] at hsame
  exact Option.map_eq_some_iff.mp hsame

theorem SameSources.get_none {sources sources' : Sources} (h : SameSources sources sources')
    {k : String} (hk : sources.get? k = none) : sources'.get? k = none := by
  have hsame := h k
  rw [hk] at hsame
  exact Option.map_eq_none_iff.mp hsame

/-- A call imports the same rows. -/
theorem SameSources.rows {sources sources' : Sources} (h : SameSources sources sources')
    (call : SyncCall) : call.rows U sources' = call.rows U sources := by
  rw [SyncCall.rows, SyncCall.rows, Sources.get, Sources.get]
  cases hk : sources.get? call.sourceId with
  | none => rw [h.get_none hk]
  | some source =>
    obtain ⟨source', hk', hreg⟩ := h.get hk
    simp only [DataSource.registration, Prod.mk.injEq] at hreg
    rw [hk']
    simp only [fetch_congr (U := U) hreg.2.2.1 hreg.2.2.2]

theorem SameSources.ofSynced {sources sources' : Sources} (h : SameSources sources sources')
    (calls : List SyncCall) (r : Resource) : ofSynced sources' calls r = ofSynced sources calls r := by
  rw [Resources.ofSynced, Resources.ofSynced]
  congr 1
  funext call
  rw [Sources.get, Sources.get]
  cases hk : sources.get? call.sourceId with
  | none => rw [h.get_none hk]
  | some source =>
    obtain ⟨source', hk', hreg⟩ := h.get hk
    simp only [DataSource.registration, Prod.mk.injEq] at hreg
    rw [hk']
    simp only [hreg.1, hreg.2.1]

/-- A source written back with the outcome of its sync. -/
theorem SameSources.set {sources : Sources} {source : DataSource} (updated : DataSource)
    (hget : sources.get? source.id = some source)
    (hreg : updated.registration = source.registration) (hid : updated.id = source.id) :
    SameSources sources (sources.set updated.id updated) := by
  intro k
  by_cases hk : updated.id = k
  · subst hk
    rw [Dict.get?_set_self, hid, hget, Option.map_some, Option.map_some, hreg]
  · rw [Dict.get?_set_ne _ _ hk]

theorem SourceIds.of_same {sources sources' : Sources} (hS : SourceIds sources)
    (h : SameSources sources sources') : SourceIds sources' := by
  intro k source' hk'
  cases hk : sources.get? k with
  | none =>
    rw [h.get_none hk] at hk'
    cases hk'
  | some source =>
    obtain ⟨_, hsame, hreg⟩ := h.get hk
    rw [hk'] at hsame
    cases hsame
    exact (congrArg Prod.fst hreg).trans (hS k source hk)

/-- The source of a sync is there, so the sync can be recorded. -/
theorem recordSync_of_some (store : Store) {source : DataSource}
    (hget : store.sources.get? source.id = some source) (report : SyncReport) (now : Datetime) :
    recordSync store source report now =
        (.ok report, { store with sources := store.sources.set source.id (source.synced report now) }) ∧
      SameSources store.sources (store.sources.set source.id (source.synced report now)) := by
  constructor
  · rw [recordSync, Sources.update, if_pos (by
      show (store.sources.get? source.id).isSome
      rw [hget]
      rfl)]
    rfl
  · exact SameSources.set (source.synced report now) hget rfl rfl

/-- One call. -/
theorem wrote_syncStep {store store' : Store} (hI : RowIds store.resources)
    (hS : SourceIds store.sources) {call : SyncCall}
    (h : syncStep U sha256 store call = some store') :
    SameSources store.sources store'.sources ∧
      Wrote (call.last U sha256 store.sources)
        (fun r => ofSynced store.sources [call] r) store.resources store'.resources := by
  unfold syncStep at h
  split at h
  · next hfresh =>
    rw [sync] at h
    cases hget : store.sources.get call.sourceId with
    | none =>
      rw [hget] at h
      cases h
    | some source =>
      have hid : source.id = call.sourceId := hS _ _ hget
      have hget' : store.sources.get? source.id = some source := by
        rw [hid]
        exact hget
      have howned : ∀ r, Of source r → ofSynced store.sources [call] r := by
        intro r hr
        simp only [ofSynced, List.any_cons, hget, hr.1, hr.2, decide_true, Bool.true_or, and_self]
      have hlast : call.last U sha256 store.sources =
          lastOf sha256 source (call.rows U store.sources) := by
        funext key
        rw [SyncCall.last, hget]
      rw [hlast]
      rw [hget] at h
      rw [SyncCall.rows, hget] at hfresh ⊢
      simp only at h hfresh ⊢
      cases hfetch : fetch U source call.upstream with
      | error e =>
        have hnone : lastOf sha256 source [] = fun _ => none := by
          funext key
          exact ite_self _
        rw [hfetch, finishSync.eq_def] at h
        simp only [hnone]
        cases e with
        | other e => cases h
        | adapter message =>
          obtain ⟨hrecord, hsame⟩ := recordSync_of_some store hget'
            { sourceId := source.id, ok := false, itemCount := 0
              error := some (take 500 message) } call.now
          simp only [hrecord] at h
          cases h
          exact ⟨hsame, .refl hI⟩
      | ok rows =>
        simp only [hfetch] at h hfresh
        obtain ⟨hlen, hnd, hfree⟩ := hfresh
        have hids : ((rows.zip call.draws).map fun p => p.2.id) = call.draws.map RowDraw.id := by
          rw [show (fun p : Dict String Json × RowDraw => p.2.id) = RowDraw.id ∘ Prod.snd from rfl,
            ← List.map_map, List.map_snd_zip hlen.le]
        rw [finishSync.eq_def] at h
        simp only at h
        cases hloop : upsertRows sha256 source store.resources (rows.zip call.draws) with
        | mk outcome repo' =>
          rw [hloop] at h
          cases outcome with
          | error e => cases h
          | ok _ =>
            have hwrote := wrote_upsertRows hI (hids ▸ hnd)
              (fun p hp => hfree _ (List.of_mem_zip hp).2) hloop
            rw [List.map_fst_zip hlen.ge] at hwrote
            obtain ⟨hrecord, hsame⟩ := recordSync_of_some
              { store with resources := repo' } hget'
              { sourceId := source.id, ok := true, itemCount := rows.length, error := none } call.now
            simp only [hrecord] at h
            cases h
            exact ⟨hsame, hwrote.mono howned⟩
  · cases h

/-! ## Every run -/

theorem SameSources.last {sources sources' : Sources} (h : SameSources sources sources')
    (call : SyncCall) : call.last U sha256 sources' = call.last U sha256 sources := by
  funext key
  rw [SyncCall.last, SyncCall.last, h.rows, Sources.get, Sources.get]
  cases hk : sources.get? call.sourceId with
  | none => rw [h.get_none hk]
  | some source =>
    obtain ⟨source', hk', hreg⟩ := h.get hk
    simp only [DataSource.registration, Prod.mk.injEq] at hreg
    rw [hk']
    simp only [lastOf, hreg.1, hreg.2.1]

/-- Any number of calls. -/
theorem wrote_run {calls : List SyncCall} : ∀ {store store' : Store}, RowIds store.resources →
    SourceIds store.sources → run (syncStep U sha256) store calls = some store' →
    Wrote (fun key => calls.reverse.findSome? fun call => call.last U sha256 store.sources key)
      (fun r => ofSynced store.sources calls r) store.resources store'.resources := by
  induction calls with
  | nil =>
    intro store store' hI _ h
    cases h
    exact .refl hI
  | cons call rest ih =>
    intro store store' hI hS h
    obtain ⟨store₁, hstep, hrest⟩ := run_cons_eq_some.mp h
    obtain ⟨hsame, hfirst⟩ := wrote_syncStep hI hS hstep
    have hlater := ih hfirst.rowIds (hS.of_same hsame) hrest
    have hfirst' : Wrote _ (fun r => ofSynced store.sources (call :: rest) r) _ _ :=
      hfirst.mono fun r hr => by
        rw [ofSynced, List.any_cons, List.any_nil, Bool.or_false] at hr
        rw [ofSynced, List.any_cons, hr, Bool.true_or]
    have hboth := hfirst'.trans (hlater.mono fun r hr => by
      rw [hsame.ofSynced] at hr
      rw [ofSynced, List.any_cons, Bool.or_eq_true]
      exact .inr hr)
    simp only [hsame.last] at hboth
    refine cast ?_ hboth
    congr 1
    funext key
    rw [List.reverse_cons, List.findSome?_append, List.findSome?_singleton]

/-- By the key of a registered source, the last write is the last sync of that source. -/
theorem findSome?_last {sources : Sources} (hS : SourceIds sources) {source : DataSource}
    (hget : sources.get? source.id = some source) (calls : List SyncCall) (externalId : String) :
    (calls.reverse.findSome? fun call =>
      call.last U sha256 sources (source.tenantId, source.id, externalId)) =
      lastSynced U sha256 sources calls source.id externalId := by
  rw [lastSynced]
  congr 1
  funext call
  rw [SyncCall.last, Sources.get]
  by_cases hid : call.sourceId = source.id
  · rw [hid, hget, if_pos rfl]
    exact if_pos ⟨rfl, rfl⟩
  · rw [if_neg hid]
    cases hk : sources.get? call.sourceId with
    | none => rfl
    | some other =>
      exact if_neg fun h => hid ((hS _ _ hk).symm.trans h.2.symm)

/-- **One row an item.** After any sequence of syncs there is, for every source and every external
id its payloads ever held, exactly one row with that key, and its data is the item's last
occurrence. A row that is new belongs to a synced source and carries its tenant, and the rows that
belong to none are what they were, in their order. -/
theorem resync_keeps_one (U : Unicode) (sha256 : String → String) {store store' : Store}
    (hrows : RowIds store.resources) (hsources : SourceIds store.sources) {calls : List SyncCall}
    (h : run (syncStep U sha256) store calls = some store') :
    (∀ source ∈ store.sources.values, ∀ externalId,
      Seen U sha256 store.sources calls source.id externalId →
        ∃ r, (store'.resources.values.filter fun row =>
            row.key = some (source.tenantId, source.id, externalId)) = [r] ∧
          lastSynced U sha256 store.sources calls source.id externalId = some r.data) ∧
      (∀ id r, store'.resources.get id = some r →
        store.resources.get id = some r ∨ ofSynced store.sources calls r) ∧
      (store'.resources.values.filter fun r => !ofSynced store.sources calls r) =
        store.resources.values.filter fun r => !ofSynced store.sources calls r := by
  have hwrote := wrote_run hrows hsources h
  refine ⟨fun source hsource externalId hseen => ?_, hwrote.owned, ?_⟩
  · obtain ⟨k, hk⟩ := Dict.mem_values_iff.mp hsource
    have hget : store.sources.get? source.id = some source := by rw [hsources k source hk, hk]
    obtain ⟨row, hrow⟩ := Option.isSome_iff_exists.mp (lastSynced_isSome hseen)
    have hlast : (calls.reverse.findSome? fun call =>
        call.last U sha256 store.sources (source.tenantId, source.id, externalId)) = some row :=
      (findSome?_last hsources hget calls externalId).trans hrow
    obtain ⟨r, hone, hdata⟩ := hwrote.one _ row hlast
    exact ⟨r, hone, hrow.trans (congrArg some hdata.symm)⟩
  · refine hwrote.others _ fun r hr => ?_
    rw [Bool.not_eq_true'] at hr
    rw [hr]
    exact Bool.false_ne_true

/-- A listing feed. -/
def listings : DataSource where
  id := "s1"
  tenantId := "acme"
  kind := .jsonApi
  name := "Listings"
  config := Dict.empty.set "url" (.str "u")
  createdAt := 0

/-- A call of its sync whose payload is these items. -/
def listingsCall (items : List (List (String × Json))) (draws : List RowDraw) : SyncCall where
  sourceId := "s1"
  upstream := .answered { status := 200, json := .ok (.arr (items.map .obj)), scraped := [] }
  draws
  now := 9

/-- An item twice in one payload, and again in the next, behind another one. -/
def listingsCalls : List SyncCall :=
  [listingsCall
      [[("id", .str "a"), ("price", .int 1)], [("id", .str "a"), ("price", .int 2)]]
      [⟨"r1", 1, 1⟩, ⟨"r2", 2, 2⟩],
    listingsCall [[("id", .str "b")], [("id", .str "a"), ("price", .int 3)]]
      [⟨"r3", 3, 3⟩, ⟨"r4", 4, 4⟩]]

/-- The feed registered, beside a row of the CRM. -/
def listingsStore : Store where
  resources := Dict.empty.set "c1" (contact 1)
  sources := Dict.empty.set "s1" listings

/-- One row is left of the three. -/
theorem listings_keep_one : ∃ store', run (syncStep Unicode.ascii id) listingsStore listingsCalls =
      some store' ∧
    ∃ r, (store'.resources.values.filter fun row => row.key = some ("acme", "s1", "a")) = [r] ∧
      lastSynced Unicode.ascii id listingsStore.sources listingsCalls "s1" "a" = some r.data := by
  have hrun : run (syncStep Unicode.ascii id) listingsStore listingsCalls = some _ :=
    run_eq_some_reached (by decide)
  refine ⟨_, hrun, ?_⟩
  have hrows : RowIds listingsStore.resources :=
    Dict.Forall.set (fun k r h => by cases h) rfl
  have hsources : SourceIds listingsStore.sources :=
    Dict.Forall.set (fun k r h => by cases h) rfl
  exact (resync_keeps_one Unicode.ascii id hrows hsources hrun).1 listings List.mem_cons_self "a"
    ⟨_, List.mem_cons_self, rfl, _, List.mem_cons_self, by decide⟩

end Wapsell.Resources
