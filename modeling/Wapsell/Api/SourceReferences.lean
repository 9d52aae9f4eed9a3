import Wapsell.Api.DataSources
import Wapsell.Resources.Resync

/-!
# References to data sources

In Postgres a resource's `source_id` is a foreign key, and a source that is
deleted takes itself out of its rows. The in-memory stores have neither: a
run keeps every reference good exactly when it deletes no source that a row
names, and no sync imports rows for a source that is gone.

Two kinds of step can leave a reference dangling, and they are each
other's mirror: a delete that finds rows, and a fetch that finds no
source. The second one is there because a sync holds its source through
the await, and nothing looks the source up again before the rows are
written.

**What this does not establish.** Postgres, where the database sets the
column to NULL and the schema keeps the references. Rows that name a
source of another tenant are not dangling, and not looked at.
-/

namespace Wapsell.Api

open Lib Py Resources

variable {U : Unicode} {sha256 : String → String} {required : Bool}

/-- Every `source_id` is NULL or names a source that is there. -/
def NoDangling (s : SyncSystem) : Prop :=
  ∀ id row sourceId, s.store.resources.get? id = some row → row.sourceId = some sourceId →
    (s.store.sources.get? sourceId).isSome

/-- A fetch with rows that can be stored. -/
def Imports (U : Unicode) (source : DataSource) (upstream : Upstream) : Prop :=
  (∃ row rows, fetch U source upstream = .ok (row :: rows)) ∧ ∃ kind, resourceKind source = .ok kind

/-- A sync that finds its source deleted leaves no rows behind. -/
def LeavesNothing (U : Unicode) (sha256 : String → String) (required : Bool) (s : SyncSystem)
    (l : SyncLabel) : Prop :=
  match l with
  | .fetched i _ _ _ =>
    ∀ source, s.flights.get? i = some source → s.store.sources.get? source.id = none →
      ∀ s', syncSystemStep U sha256 required s l = some s' → s'.store.resources = s.store.resources
  | _ => True

/-- A delete that is served finds no row of its source, and a fetch that is back finds its source or
imports nothing. A request that is refused changes nothing and is always fine. -/
def KeepsReferences (U : Unicode) (required : Bool) (s : SyncSystem) : SyncLabel → Prop
  | .deleted caller tenantId sourceId =>
    (∃ user, assertTenantAccess required caller tenantId = .ok user) →
    (∃ source, sourceOr404 s.store.sources tenantId sourceId = .ok source) →
      ∀ id row, s.store.resources.get? id = some row → row.sourceId ≠ some sourceId
  | .fetched i upstream _ _ =>
    ∀ source, s.flights.get? i = some source →
      (s.store.sources.get? source.id).isSome ∨ ¬ Imports U source upstream
  | _ => True

/-! ## What a sync leaves -/

theorem upsertRows_of_refused {source : DataSource} {e : Exc} (h : resourceKind source = .error e)
    (repo : Repository) (pairs : List (Dict String Json × RowDraw)) :
    (upsertRows sha256 source repo pairs).2 = repo := by
  cases pairs with
  | nil => rfl
  | cons pair rest =>
    obtain ⟨row, draw⟩ := pair
    rw [upsertRows, syncedResource, h]
    rfl

theorem syncedResource_sourceId {source : DataSource} {row : Dict String Json} {draw : RowDraw}
    {r : Resource} (h : syncedResource sha256 source row draw = .ok r) :
    r.sourceId = some source.id :=
  (Resource.key_eq_some.mp (syncedResource_eq_ok h).2.1).2.1

/-- The loop writes rows of its source only. -/
theorem get?_upsertRows {source : DataSource} : ∀ {pairs : List (Dict String Json × RowDraw)}
    {repo : Repository} {k : String} {row : Resource},
    (upsertRows sha256 source repo pairs).2.get? k = some row →
      repo.get? k = some row ∨ row.sourceId = some source.id
  | [], _, _, _, h => .inl h
  | (data, draw) :: rest, repo, k, row, h => by
    rw [upsertRows] at h
    cases hr : syncedResource sha256 source data draw with
    | error e =>
      rw [hr] at h
      exact .inl h
    | ok r =>
      rw [hr] at h
      rcases get?_upsertRows h with hold | hown
      · rcases Repository.get?_upsert_eq_some hold with rfl | hold'
        · exact .inr (syncedResource_sourceId hr)
        · exact .inl hold'
      · exact .inr hown

/-- A row that was written last is there. -/
theorem exists_upsertRows {source : DataSource} {kind : String} (h : resourceKind source = .ok kind) :
    ∀ {pairs : List (Dict String Json × RowDraw)} {repo : Repository}, pairs ≠ [] →
      ∃ k row, (upsertRows sha256 source repo pairs).2.get? k = some row ∧
        row.sourceId = some source.id
  | [], _, hne => absurd rfl hne
  | (data, draw) :: rest, repo, _ => by
    rw [upsertRows]
    cases hr : syncedResource sha256 source data draw with
    | error e =>
      rw [syncedResource, h] at hr
      cases hr
    | ok r =>
      cases rest with
      | nil => exact ⟨r.id, r, Repository.get?_upsert_self repo r, syncedResource_sourceId hr⟩
      | cons pair rest => exact exists_upsertRows h (List.cons_ne_nil _ _)

/-- Whether a source is there is not changed by writing one back. -/
theorem recordSync_sources (store : Store) (source : DataSource) (report : SyncReport)
    (now : Datetime) (k : String) :
    ((recordSync store source report now).2.sources.get? k).isSome =
        (store.sources.get? k).isSome ∧
      (recordSync store source report now).2.resources = store.resources := by
  rw [recordSync, Sources.update]
  split
  · next e he => exact ⟨rfl, rfl⟩
  · next sources hok =>
    split at hok
    · next hsome =>
      cases hok
      refine ⟨?_, rfl⟩
      show ((store.sources.set source.id _).get? k).isSome = _
      rw [Dict.get?_set]
      split
      · next hk =>
        subst hk
        exact hsome.symm
      · rfl
    · cases hok

/-! ## One sync, back from its fetch -/

variable {store : Store} {source : DataSource} {upstream : Upstream} {draws : List RowDraw}
  {now : Datetime}

/-- The loop has run, or nothing is imported. -/
theorem finishSync_resources (sha256 : String → String) (store : Store) (source : DataSource)
    (upstream : Upstream) (draws : List RowDraw) (now : Datetime) :
    (finishSync sha256 store source (fetch U source upstream) draws now).2.resources =
      match fetch U source upstream with
      | .error _ => store.resources
      | .ok rows => (upsertRows sha256 source store.resources (rows.zip draws)).2 := by
  cases hfetch : fetch U source upstream with
  | error e =>
    cases e with
    | other e => rfl
    | adapter message => exact (recordSync_sources store source _ now source.id).2
  | ok rows =>
    simp only [finishSync.eq_def]
    cases hloop : upsertRows sha256 source store.resources (rows.zip draws) with
    | mk outcome repo =>
      cases outcome with
      | error e => rfl
      | ok _ => exact (recordSync_sources { store with resources := repo } source _ now source.id).2

theorem finishSync_sources (fetched : Except FetchError (List (Dict String Json))) (k : String) :
    ((finishSync sha256 store source fetched draws now).2.sources.get? k).isSome =
      (store.sources.get? k).isSome := by
  cases fetched with
  | error e =>
    cases e with
    | other e => rfl
    | adapter message => exact (recordSync_sources store source _ now k).1
  | ok rows =>
    simp only [finishSync.eq_def]
    cases hloop : upsertRows sha256 source store.resources (rows.zip draws) with
    | mk outcome repo =>
      cases outcome with
      | error e => rfl
      | ok _ => exact (recordSync_sources { store with resources := repo } source _ now k).1

/-- Nothing imported, nothing changed. -/
theorem finishSync_of_not_imports (h : ¬ Imports U source upstream) :
    (finishSync sha256 store source (fetch U source upstream) draws now).2.resources =
      store.resources := by
  rw [finishSync_resources]
  cases hfetch : fetch U source upstream with
  | error e => rfl
  | ok rows =>
    cases rows with
    | nil => rfl
    | cons row rows =>
      cases hkind : resourceKind source with
      | error e => exact upsertRows_of_refused hkind _ _
      | ok kind => exact absurd ⟨⟨row, rows, hfetch⟩, kind, hkind⟩ h

/-- Every row was there or is the source's. -/
theorem finishSync_rows {k : String} {row : Resource}
    (h : (finishSync sha256 store source (fetch U source upstream) draws now).2.resources.get? k =
      some row) : store.resources.get? k = some row ∨ row.sourceId = some source.id := by
  rw [finishSync_resources] at h
  cases hfetch : fetch U source upstream with
  | error e =>
    rw [hfetch] at h
    exact .inl h
  | ok rows =>
    rw [hfetch] at h
    exact get?_upsertRows h

/-- A sync that imports leaves a row of its source. -/
theorem finishSync_of_imports (sha256 : String → String) (now : Datetime)
    (h : Imports U source upstream) (hfit : drawsFit U store.resources source upstream draws) :
    ∃ k row, (finishSync sha256 store source (fetch U source upstream) draws now).2.resources.get? k =
      some row ∧ row.sourceId = some source.id := by
  obtain ⟨⟨row, rows, hfetch⟩, kind, hkind⟩ := h
  rw [finishSync_resources, hfetch]
  rw [drawsFit, hfetch] at hfit
  refine exists_upsertRows hkind fun hnil => ?_
  simp only [decide_eq_true_eq] at hfit
  cases draws with
  | nil => cases hfit.1
  | cons draw draws => cases hnil

/-! ## One step -/

theorem deleteDataSource_eq_ok {caller : Option User} {sources sources' : Sources}
    {tenantId sourceId : String} :
    deleteDataSource required caller sources tenantId sourceId = .ok sources' ↔
      (∃ user, assertTenantAccess required caller tenantId = .ok user) ∧
        (∃ source, sourceOr404 sources tenantId sourceId = .ok source) ∧
          sources' = sources.erase sourceId := by
  unfold deleteDataSource
  cases assertTenantAccess required caller tenantId with
  | error e => exact iff_of_false (fun h => by cases h) (by rintro ⟨⟨_, h⟩, -⟩; cases h)
  | ok user =>
    cases sourceOr404 sources tenantId sourceId with
    | error e => exact iff_of_false (fun h => by cases h) (by rintro ⟨-, ⟨_, h⟩, -⟩; cases h)
    | ok source =>
      constructor
      · intro h
        cases h
        exact ⟨⟨user, rfl⟩, ⟨source, rfl⟩, rfl⟩
      · rintro ⟨-, -, rfl⟩
        rfl

/-- The sources only grow by a creation. -/
theorem createDataSource_keeps {caller : Option User} {tenants : Tenants.Repository}
    {sources sources' : Sources} {draw : SourceDraw} {tenantId : String} {req : DataSourceCreate}
    {saved : DataSource}
    (h : createDataSource required caller tenants sources draw tenantId req = .ok (sources', saved))
    {k : String} (hk : (sources.get? k).isSome) : (sources'.get? k).isSome := by
  unfold createDataSource at h
  cases hassert : assertTenantAccess required caller tenantId with
  | error e =>
    rw [hassert] at h
    cases h
  | ok user =>
    rw [hassert] at h
    cases htenant : tenantOr404 tenants tenantId with
    | error e =>
      rw [htenant] at h
      cases h
    | ok tenant =>
      rw [htenant] at h
      cases h
      exact Dict.get?_set_isSome _ _ hk

/-- **The exact guard of a step.** Creating a source and starting a sync never fail it; a delete and
a fetch do, each by its own clause.

There are two ways to lose a source: to delete it while rows of it are stored, which stay, and to
delete it while a fetch of it is in flight, which then imports rows. -/
theorem noDangling_step_iff {s s' : SyncSystem} {l : SyncLabel} (hs : NoDangling s)
    (hstep : syncSystemStep U sha256 required s l = some s') :
    NoDangling s' ↔ KeepsReferences U required s l := by
  cases l with
  | created caller tenants draw tenantId req =>
    refine iff_of_true ?_ trivial
    rw [syncSystemStep] at hstep
    split at hstep
    · cases hstep
    · split at hstep
      · cases hstep
        exact hs
      · next sources saved hok =>
        cases hstep
        exact fun id row sourceId hrow hsource =>
          createDataSource_keeps hok (hs id row sourceId hrow hsource)
  | requested i caller tenantId sourceId =>
    refine iff_of_true ?_ trivial
    rw [syncSystemStep] at hstep
    split at hstep
    · cases hstep
    · split at hstep <;> cases hstep <;> exact hs
  | scheduled i sourceId =>
    refine iff_of_true ?_ trivial
    rw [syncSystemStep] at hstep
    split at hstep
    · cases hstep
    · split at hstep <;> cases hstep <;> exact hs
  | deleted caller tenantId sourceId =>
    rw [syncSystemStep] at hstep
    split at hstep
    · next e he =>
      cases hstep
      refine iff_of_true hs fun huser hsource => ?_
      rw [deleteDataSource_eq_ok.mpr ⟨huser, hsource, rfl⟩] at he
      cases he
    · next sources hok =>
      cases hstep
      obtain ⟨huser, hsource, rfl⟩ := deleteDataSource_eq_ok.mp hok
      constructor
      · intro h _ _ id row hrow hnames
        have hthere := h id row sourceId hrow hnames
        rw [Dict.get?_erase, if_pos rfl] at hthere
        cases hthere
      · intro h id row named hrow hnames
        have hne : sourceId ≠ named := fun e => h huser hsource id row hrow (e ▸ hnames)
        show ((s.store.sources.erase sourceId).get? named).isSome
        rw [Dict.get?_erase, if_neg hne]
        exact hs id row named hrow hnames
  | fetched i upstream draws now =>
    rw [syncSystemStep] at hstep
    cases hflight : s.flights.get? i with
    | none =>
      rw [hflight] at hstep
      cases hstep
    | some source =>
      rw [hflight] at hstep
      simp only at hstep
      split at hstep
      · next hfit =>
        cases hstep
        constructor
        · intro h source' hsource'
          rw [hflight] at hsource'
          cases hsource'
          rw [or_iff_not_imp_right, Classical.not_not]
          intro himports
          obtain ⟨k, row, hrow, hnames⟩ :=
            finishSync_of_imports sha256 now himports hfit
          have hthere := h k row source.id hrow hnames
          rw [finishSync_sources] at hthere
          exact hthere
        · intro h id row sourceId hrow hnames
          show (Dict.get? _ sourceId).isSome
          rw [finishSync_sources]
          rcases h source hflight with hthere | hnot
          · rcases finishSync_rows hrow with hold | hown
            · exact hs id row sourceId hold hnames
            · rw [hown] at hnames
              cases hnames
              exact hthere
          · rw [finishSync_of_not_imports hnot] at hrow
            exact hs id row sourceId hrow hnames
      · cases hstep

/-- A sync that may not import for a source that is gone leaves the rows alone when it is. -/
theorem leavesNothing_of_keeps {s : SyncSystem} {l : SyncLabel}
    (h : KeepsReferences U required s l) : LeavesNothing U sha256 required s l := by
  cases l with
  | fetched i upstream draws now =>
    intro source hflight hgone s' hstep
    have hnot : ¬ Imports U source upstream := by
      refine (h source hflight).resolve_left ?_
      rw [hgone]
      exact Bool.false_ne_true
    rw [syncSystemStep, hflight] at hstep
    simp only at hstep
    split at hstep
    · cases hstep
      exact finishSync_of_not_imports hnot
    · cases hstep
  | created | deleted | requested | scheduled => trivial

/-- **No dangling source references.** From a state without one, in whatever order sources are
created, synced and deleted: every state is without one and every sync that finds its source deleted
leaves nothing exactly when no step deletes a source that a row names, and no fetch comes back with
rows for a source that is gone. -/
theorem references_kept_iff (U : Unicode) (sha256 : String → String) (required : Bool)
    {s : SyncSystem} (hs : NoDangling s) (ls : List SyncLabel) :
    (EachState (syncSystemStep U sha256 required) NoDangling s ls ∧
      EachStep (syncSystemStep U sha256 required) (LeavesNothing U sha256 required) s ls) ↔
      EachStep (syncSystemStep U sha256 required) (KeepsReferences U required) s ls := by
  have hstates : EachState (syncSystemStep U sha256 required) NoDangling s ls ↔
      EachStep (syncSystemStep U sha256 required) (KeepsReferences U required) s ls :=
    eachState_iff_eachStep (I := fun _ => True) (fun _ _ _ _ _ _ => trivial)
      (fun _ _ _ _ hs hstep => noDangling_step_iff hs hstep) trivial hs
  constructor
  · exact fun h => hstates.mp h.1
  · exact fun h => ⟨hstates.mpr h, EachStep.mono (fun _ _ => leavesNothing_of_keeps) h⟩

/-- A feed of the shop, created and synced. -/
def feedRun (upstream : Upstream) (draws : List RowDraw) : List SyncLabel :=
  [.created none (Dict.empty.set "acme" { id := "acme", name := "Acme", slug := "acme", createdAt := 0 })
      ⟨"s1", 0⟩ "acme" { kind := .jsonApi, name := "Feed", config := Dict.empty.set "url" (.str "u") },
    .requested 0 none "acme" "s1",
    .deleted none "acme" "s1",
    .fetched 0 upstream draws 5]

/-- An upstream that is down. -/
def downFeed : List SyncLabel := feedRun (.httpError "down") []

/-- A delete that lands during a fetch does no harm when the fetch fails. -/
theorem downFeed_keeps : EachState (syncSystemStep Unicode.ascii id false) NoDangling .init downFeed ∧
    EachStep (syncSystemStep Unicode.ascii id false) (LeavesNothing Unicode.ascii id false) .init
      downFeed := by
  refine (references_kept_iff Unicode.ascii id false (fun _ _ _ h _ => by cases h) downFeed).mpr ?_
  rintro s₁ ⟨⟩
  refine ⟨trivial, ?_⟩
  rintro s₂ ⟨⟩
  refine ⟨trivial, ?_⟩
  rintro s₃ ⟨⟩
  refine ⟨fun _ _ id row hrow => (by cases hrow), ?_⟩
  rintro s₄ -
  refine ⟨?_, trivial⟩
  rintro source ⟨⟩
  refine .inr ?_
  rintro ⟨⟨row, rows, h⟩, -⟩
  cases h

/-- One with one item. -/
def lateFeed : List SyncLabel :=
  feedRun (.answered { status := 200, json := .ok (.arr [.obj [("id", .str "a")]]), scraped := [] })
    [⟨"r1", 3, 3⟩]

/-- The row of a sync that comes back late names a source that is gone. -/
theorem not_references_kept : ¬ ∀ (U : Unicode) (sha256 : String → String) (required : Bool)
    (ls : List SyncLabel), EachState (syncSystemStep U sha256 required) NoDangling .init ls ∧
      EachStep (syncSystemStep U sha256 required) (LeavesNothing U sha256 required) .init ls := by
  intro h
  have hstates := (h Unicode.ascii id false lateFeed).1
  have hrun : run (syncSystemStep Unicode.ascii id false) .init lateFeed = some _ :=
    run_eq_some_reached (by decide)
  have hlast := hstates.last hrun
  have hthere := hlast "r1" _ "s1" rfl rfl
  revert hthere
  decide

end Wapsell.Api
