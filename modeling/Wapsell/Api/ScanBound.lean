import Wapsell.Agent.Noninterference
import Wapsell.Api.Routes
import Wapsell.Resources.Agreement

/-!
# What the scans reach

The search in memory and the two timelines of a contact scan the ten
thousand newest rows of the tenant, and select among those. Each answers
what a selection among all rows would exactly when its scan covers the rows
asked for: no row beyond it is selected, or enough rows within it are.

The bound is a constant of the code, and whether it matters depends on
the rows: `Covers` says so without mentioning any scan. The two
timelines sort before they cut, the tasks with the open ones first, so
that a page of tasks needs two things of its scan, all the open rows it
could show and enough rows altogether.

**What this does not establish.** The query of Postgres has no such
bound, and is compared with the scan elsewhere. What raises in a
comparison of the filters is a failure of the request, and outside of
these statements.
-/

namespace Wapsell.Api.Routes

open Lib Py Resources Agent

/-- The rows a scan goes through. -/
def SCANNED : Nat := 10000

/-- The row satisfies every filter and contains the query text. -/
def isWanted (U : Unicode) (filters : Dict String Json) (queryText : Option String) (r : Resource) :
    Bool :=
  passes (Repository.isMatch U filters.entries (strip (lower U (queryText.getD ""))) r)

/-- The row names the contact in its data. -/
def isLinked (contactId : String) (r : Resource) : Bool :=
  (r.data.getD "contact_id" .null).pyEq (.str contactId)

/-- The first rows of all that are wanted: what the search would answer if its scan went through
every row. -/
def wantedOf (U : Unicode) (rows : Repository) (tenantId : String) (filters : Dict String Json)
    (queryText kind : Option String) (limit : Nat) : List Resource :=
  ((candidates rows tenantId kind).filter (isWanted U filters queryText)).take limit

/-- The newest activities of all that are linked to the contact. -/
def activitiesOf (rows : Repository) (tenantId contactId : String) (limit : Nat) :
    List ActivityOut :=
  (((candidates rows tenantId (some "activity")).filter (isLinked contactId)).take limit).map
    ActivityOut.fromResource

/-- The tasks of all that are linked to the contact: the open ones first, each part newest first. -/
def tasksOf (rows : Repository) (tenantId contactId : String) (limit : Nat) : List TaskOut :=
  ((flaggedFirst (hasStatus "open")
    ((candidates rows tenantId (some "task")).filter (isLinked contactId))).take limit).map
    TaskOut.fromResource

variable {U : Unicode} {ρ : Type} {E : Deployment ρ} {D : TenantData} {caller : Option User}
  {rows : Repository} {tenantId contactId : String} {limit : Int}

theorem upTo_of_nonneg {α : Type} (h : 0 ≤ limit) (xs : List α) :
    upTo limit xs = xs.take limit.toNat := if_pos h

theorem listFor_scanned (rows : Repository) (tenantId : String) (kind : Option String) :
    rows.listFor tenantId kind 10000 = (candidates rows tenantId kind).take SCANNED := by
  rw [Repository.listFor, upTo_of_nonneg (by decide)]
  rfl

theorem linkedTo_eq (kind : String) :
    linkedTo D tenantId kind contactId =
      ((candidates D.resources tenantId (some kind)).take SCANNED).filter (isLinked contactId) := by
  rw [linkedTo, listFor_scanned]
  rfl

/-- Where no comparison raises, the search answers what its scan has. -/
theorem search_scanned {filters : Dict String Json} {queryText kind : Option String}
    (hlimit : 0 ≤ limit)
    (hok : ∀ r ∈ candidates rows tenantId kind, ∃ b,
      Repository.isMatch U filters.entries (strip (lower U (queryText.getD ""))) r = .ok b) :
    rows.search U tenantId filters queryText kind limit =
      .ok ((((candidates rows tenantId kind).take SCANNED).filter
        (isWanted U filters queryText)).take limit.toNat) := by
  rw [Repository.search, listFor_scanned, selectM_eq_selectE]
  apply selectE_then_eq_ok_iff.mpr
  refine ⟨fun r hr => hok r (List.mem_of_mem_take hr), ?_⟩
  exact upTo_of_nonneg hlimit _

theorem search_reaches_iff {filters : Dict String Json} {queryText kind : Option String}
    (hlimit : 0 ≤ limit)
    (hok : ∀ r ∈ candidates rows tenantId kind, ∃ b,
      Repository.isMatch U filters.entries (strip (lower U (queryText.getD ""))) r = .ok b) :
    rows.search U tenantId filters queryText kind limit =
        .ok (wantedOf U rows tenantId filters queryText kind limit.toNat) ↔
      Covers (isWanted U filters queryText) SCANNED limit.toNat
        (candidates rows tenantId kind) := by
  rw [search_scanned hlimit hok, Except.ok.injEq, wantedOf]
  have hiff := map_take_filter_eq_iff id (isWanted U filters queryText) SCANNED limit.toNat
    (candidates rows tenantId kind)
  rwa [List.map_id, List.map_id] at hiff

/-- What is answered behind two checks is answered where both pass. -/
theorem ok_of_isOk {ε α β γ : Type} {a : Except ε α} {b : Except ε β} {answer : γ}
    (h : (a >>= fun _ => b >>= fun _ => (.ok answer : Except ε γ)).isOk) :
    (a >>= fun _ => b >>= fun _ => (.ok answer : Except ε γ)) = .ok answer := by
  cases a with
  | error e => cases h
  | ok =>
    cases b with
    | error e => cases h
    | ok => rfl

/-- A timeline that is served lists what its scan has. -/
theorem listCrmActivities_of_isOk (h : (listCrmActivities E D caller tenantId contactId limit).isOk) :
    listCrmActivities E D caller tenantId contactId limit =
      .ok (.activities ((upTo limit (linkedTo D tenantId "activity" contactId)).map
        ActivityOut.fromResource)) := by
  unfold listCrmActivities at h ⊢
  exact ok_of_isOk h

theorem listCrmTasksForContact_of_isOk
    (h : (listCrmTasksForContact E D caller tenantId contactId limit).isOk) :
    listCrmTasksForContact E D caller tenantId contactId limit =
      .ok (.tasks ((upTo limit (flaggedFirst (hasStatus "open")
        (linkedTo D tenantId "task" contactId))).map TaskOut.fromResource)) := by
  unfold listCrmTasksForContact at h ⊢
  rw [flaggedFirst, ← insertionSort_flag]
  exact ok_of_isOk h

theorem activities_reach_iff (hlimit : 0 ≤ limit)
    (h : (listCrmActivities E D caller tenantId contactId limit).isOk) :
    listCrmActivities E D caller tenantId contactId limit =
        .ok (.activities (activitiesOf D.resources tenantId contactId limit.toNat)) ↔
      Covers (isLinked contactId) SCANNED limit.toNat
        (candidates D.resources tenantId (some "activity")) := by
  rw [listCrmActivities_of_isOk h, Except.ok.injEq, Body.activities.injEq, activitiesOf, linkedTo_eq,
    upTo_of_nonneg hlimit]
  exact map_take_filter_eq_iff _ _ _ _ _

/-- An open task is one on the wire, too. -/
def isOpenOut (task : TaskOut) : Bool := (task.data.getD "status" .null).pyEq (.str "open")

theorem tasks_reach_iff (hlimit : 0 ≤ limit)
    (h : (listCrmTasksForContact E D caller tenantId contactId limit).isOk) :
    listCrmTasksForContact E D caller tenantId contactId limit =
        .ok (.tasks (tasksOf D.resources tenantId contactId limit.toNat)) ↔
      Covers (fun r => hasStatus "open" r && isLinked contactId r) SCANNED limit.toNat
          (candidates D.resources tenantId (some "task")) ∧
        Covers (isLinked contactId) SCANNED limit.toNat
          (candidates D.resources tenantId (some "task")) := by
  have ho : ∀ r, isOpenOut (TaskOut.fromResource r) = hasStatus "open" r := fun _ => rfl
  rw [listCrmTasksForContact_of_isOk h, Except.ok.injEq, Body.tasks.injEq, tasksOf, linkedTo_eq,
    upTo_of_nonneg hlimit,
    ← filter_take_append_drop (isLinked contactId) SCANNED (candidates _ _ _),
    take_flaggedFirst_eq_iff TaskOut.fromResource ho, List.filter_filter, List.filter_filter]
  rfl

/-- **What the scans reach.** The search where no comparison raises, and the two timelines where
they are served, answer the first rows of all that are asked for exactly when the scan covers them.
Three statements about three routes, each an equivalence on the store as it is.

The bound is on all rows of the kind, and the filters come behind it: what a page shows can be short
although more rows would pass the filters. -/
theorem scans_reach_iff (U : Unicode) {ρ : Type} (E : Deployment ρ) (D : TenantData)
    (caller : Option User) (tenantId : String) {limit : Int} (hlimit : 0 ≤ limit) :
    (∀ (filters : Dict String Json) (queryText kind : Option String),
      (∀ r ∈ candidates D.resources tenantId kind, ∃ b,
        Repository.isMatch U filters.entries (strip (lower U (queryText.getD ""))) r = .ok b) →
      (D.resources.search U tenantId filters queryText kind limit =
          .ok (wantedOf U D.resources tenantId filters queryText kind limit.toNat) ↔
        Covers (isWanted U filters queryText) SCANNED limit.toNat
          (candidates D.resources tenantId kind))) ∧
    (∀ contactId, (listCrmActivities E D caller tenantId contactId limit).isOk →
      (listCrmActivities E D caller tenantId contactId limit =
          .ok (.activities (activitiesOf D.resources tenantId contactId limit.toNat)) ↔
        Covers (isLinked contactId) SCANNED limit.toNat
          (candidates D.resources tenantId (some "activity")))) ∧
    (∀ contactId, (listCrmTasksForContact E D caller tenantId contactId limit).isOk →
      (listCrmTasksForContact E D caller tenantId contactId limit =
          .ok (.tasks (tasksOf D.resources tenantId contactId limit.toNat)) ↔
        Covers (fun r => hasStatus "open" r && isLinked contactId r) SCANNED limit.toNat
            (candidates D.resources tenantId (some "task")) ∧
          Covers (isLinked contactId) SCANNED limit.toNat
            (candidates D.resources tenantId (some "task")))) :=
  ⟨fun _ _ _ hok => search_reaches_iff hlimit hok, fun _ h => activities_reach_iff hlimit h,
    fun _ h => tasks_reach_iff hlimit h⟩

/-- A deployment without access control. -/
def frontDesk : Deployment Unit where
  authRequired := false
  tenants := Dict.empty
  pauses := Dict.empty
  queryLog := []
  storeless := ⟨fun _ _ => .ok (.ok []), fun _ _ => .ok (.ok [])⟩
  now := 0
  others := ()

/-- A row of the tenant acme that names a contact. -/
def about (contactId id kind : String) (createdAt : Datetime) : Resource where
  id := id
  tenantId := "acme"
  kind := kind
  data := (Dict.empty.set "contact_id" (.str contactId)).set "status" (.str "open")
  createdAt := createdAt
  updatedAt := createdAt

/-- Two contacts, with the activities and the tasks of both. -/
def twoContacts : TenantData where
  resources := [about "" "c1" "contact" 0, about "" "c2" "contact" 1,
    about "c1" "a1" "activity" 2, about "c2" "a2" "activity" 3, about "c1" "a3" "activity" 4,
    about "c2" "t1" "task" 5, about "c1" "t2" "task" 6].foldl Repository.add Dict.empty

/-- What names the first contact. -/
def ofFirst : Dict String Json := Dict.empty.set "contact_id" (.str "c1")

/-- The scans go through a store of seven rows, so that all three answers are the ones of all rows. -/
theorem scans_reach_twoContacts :
    twoContacts.resources.search Unicode.ascii "acme" ofFirst none none 2 =
        .ok (wantedOf Unicode.ascii twoContacts.resources "acme" ofFirst none none 2) ∧
      listCrmActivities frontDesk twoContacts none "acme" "c1" 5 =
        .ok (.activities (activitiesOf twoContacts.resources "acme" "c1" 5)) ∧
      listCrmTasksForContact frontDesk twoContacts none "acme" "c1" 5 =
        .ok (.tasks (tasksOf twoContacts.resources "acme" "c1" 5)) := by
  have hnone : ∀ r : Resource, ∃ b, Repository.isMatch Unicode.ascii ofFirst.entries
      (strip (lower Unicode.ascii ((none : Option String).getD ""))) r = .ok b := by
    intro r
    rw [Option.getD_none, lower_empty, strip_empty, isMatch_of_no_text]
    -- the filter compares, and a comparison answers
    show ∃ b, (Repository.matchesFilter Unicode.ascii r.data "contact_id" (.str "c1") >>=
      fun taken => if taken then .ok true else .ok false) = .ok b
    rw [matchesFilter_equality rfl]
    cases equalInMemory Unicode.ascii (r.data.getD "contact_id" .null) (.str "c1") <;>
      exact ⟨_, rfl⟩
  have hsearch := (scans_reach_iff Unicode.ascii frontDesk twoContacts none "acme"
    (show (0 : Int) ≤ 2 by decide)).1 ofFirst none none
  have htimelines := (scans_reach_iff Unicode.ascii frontDesk twoContacts none "acme"
    (show (0 : Int) ≤ 5 by decide)).2
  exact ⟨(hsearch fun r _ => hnone r).mpr (.inl rfl), (htimelines.1 "c1" (by decide)).mpr (.inl rfl),
    (htimelines.2 "c1" (by decide)).mpr ⟨.inl rfl, .inl rfl⟩⟩

/-! ## A row behind ten thousand -/

/-- One of the newer rows: no data at all. -/
def newer (i : Nat) : Resource where
  id := repeated (i + 1) 'x'
  tenantId := "acme"
  createdAt := 1
  updatedAt := 1

/-- The row that is asked for, older than the others. -/
def older : Resource where
  id := ""
  tenantId := "acme"
  data := Dict.empty.set "code" (.str "a")
  createdAt := 0
  updatedAt := 0

/-- The filter it satisfies. -/
def codeFilter : Dict String Json := Dict.empty.set "code" (.str "a")

/-- The store with ten thousand rows before it. -/
def buried : Repository where
  entries := ((List.range SCANNED).map newer ++ [older]).map fun r => (r.id, r)
  nodup := by
    rw [List.map_map, List.map_append, List.map_map]
    refine List.nodup_append.mpr ⟨?_, List.nodup_singleton _, ?_⟩
    · refine List.Nodup.map_on (fun i _ j _ h => ?_) List.nodup_range
      have hlen := congrArg String.length h
      simp only [Function.comp_apply, newer, length_repeated] at hlen
      omega
    · rintro a ha b hb rfl
      obtain ⟨i, -, rfl⟩ := List.mem_map.mp ha
      have hlen := congrArg String.length (List.mem_singleton.mp hb)
      simp only [Function.comp_apply, newer, older, length_repeated, String.length_empty] at hlen
      omega

theorem candidates_buried :
    candidates buried "acme" none = (List.range SCANNED).map newer ++ [older] := by
  have hvalues : buried.values = (List.range SCANNED).map newer ++ [older] := by
    rw [Dict.values, buried, List.map_map]
    exact List.map_id _
  have hlisted : ∀ r ∈ (List.range SCANNED).map newer ++ [older],
      Repository.listed "acme" none r = true := by
    intro r hr
    rcases List.mem_append.mp hr with hr | hr
    · obtain ⟨i, -, rfl⟩ := List.mem_map.mp hr
      simp [Repository.listed, newer]
    · rw [List.mem_singleton.mp hr]
      decide
  rw [candidates, hvalues, List.filter_eq_self.mpr hlisted, newestFirst_append]
  · rfl
  · intro a ha b hb
    obtain ⟨i, -, rfl⟩ := List.mem_map.mp ha
    rcases List.mem_append.mp hb with hb | hb
    · obtain ⟨j, -, rfl⟩ := List.mem_map.mp hb
      exact Int.le_refl _
    · rw [List.mem_singleton.mp hb]
      show (0 : Int) ≤ 1
      decide

theorem isMatch_newer (i : Nat) :
    Repository.isMatch Unicode.ascii codeFilter.entries (strip (lower Unicode.ascii "")) (newer i) =
      .ok false := rfl

theorem isMatch_older :
    Repository.isMatch Unicode.ascii codeFilter.entries (strip (lower Unicode.ascii "")) older =
      .ok true := by
  decide

theorem isMatch_buried : ∀ r ∈ candidates buried "acme" none, ∃ b,
    Repository.isMatch Unicode.ascii codeFilter.entries
      (strip (lower Unicode.ascii ((none : Option String).getD ""))) r = .ok b := by
  intro r hr
  rw [candidates_buried] at hr
  rcases List.mem_append.mp hr with hr | hr
  · obtain ⟨i, -, rfl⟩ := List.mem_map.mp hr
    exact ⟨false, isMatch_newer i⟩
  · rw [List.mem_singleton.mp hr]
    exact ⟨true, isMatch_older⟩

/-- The scan ends before the one row that is wanted. -/
theorem not_covers_buried : ¬ Covers (isWanted Unicode.ascii codeFilter none) SCANNED 1
    (candidates buried "acme" none) := by
  have hlen : ((List.range SCANNED).map newer).length = SCANNED := by
    rw [List.length_map, List.length_range]
  have hnewer : ((List.range SCANNED).map newer).filter
      (isWanted Unicode.ascii codeFilter none) = [] := by
    apply List.filter_eq_nil_iff.mpr
    intro r hr
    obtain ⟨i, -, rfl⟩ := List.mem_map.mp hr
    exact Bool.false_ne_true
  have holder : isWanted Unicode.ascii codeFilter none older = true := by
    rw [isWanted, Option.getD_none, isMatch_older]
    rfl
  rw [candidates_buried, Covers, List.drop_left' hlen, List.take_left' hlen, hnewer,
    List.filter_cons_of_pos holder]
  rintro (h | h)
  · cases h
  · exact absurd h (by decide)

/-- The search does not find it. -/
theorem not_scans_reach : ¬ ∀ (U : Unicode) (rows : Repository) (tenantId : String)
    (filters : Dict String Json) (queryText kind : Option String) (limit : Int), 0 ≤ limit →
      (∀ r ∈ candidates rows tenantId kind, ∃ b,
        Repository.isMatch U filters.entries (strip (lower U (queryText.getD ""))) r = .ok b) →
      rows.search U tenantId filters queryText kind limit =
        .ok (wantedOf U rows tenantId filters queryText kind limit.toNat) := by
  intro h
  have hlimit : (0 : Int) ≤ 1 := by decide
  have hsearch := h Unicode.ascii buried "acme" codeFilter none none 1 hlimit isMatch_buried
  exact not_covers_buried ((search_reaches_iff hlimit isMatch_buried).mp hsearch)

end Wapsell.Api.Routes
