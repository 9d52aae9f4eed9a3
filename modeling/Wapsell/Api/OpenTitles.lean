import Wapsell.Agent.Noninterference
import Wapsell.Api.CrmRows
import Wapsell.Crm.OpenTasks

/-!
# One open task for each title, over runs

Applications of the extractor and PATCHes of the tasks it wrote, in any
order. A PATCH that neither renames a task nor opens it keeps the titles
apart. The extractor takes the keys it must not write again from the newest
thousand tasks of the whole tenant, and so writes one that an older task of
the contact has.

The listing the extractor looks at is cut at a thousand of the tenant's
newest tasks, of all contacts and open or not; so the exact condition is
about that listing and not about how old a task is. A title of the
result has to be in the listing, or not open at all.

**What this does not establish.** A PATCH that renames or opens a task
can put two open tasks under one title by itself, and is left out of the
runs by the step function. Closing one and writing it again is a
different matter, of the module on the rows.
-/

namespace Wapsell.Api

open Lib Py Resources Crm
open Agent (repeated length_repeated newestFirst_append)

/-- The operations of these runs: an application to what is no task, as `_run_crm_extractor` looks
a contact up, and a PATCH of anything but the title that does not open the task. -/
def keepsTitles (repo : Repository) : CrmOperation → Bool
  | .applied _ contactId _ _ => (repo.get? contactId).all fun r => decide (r.kind ≠ TASK_KIND)
  | .patched _ _ req _ => req.title.isNone && decide (req.status ≠ some "open")
  | _ => false

/-- The step function. -/
def titleStep (U : Unicode) (repo : Repository) (op : CrmOperation) : Option Repository :=
  if keepsTitles repo op then crmStep U repo op else none

/-- An application that comes to its writes has looked at each of its titles that is open. The
titles are compared by their keys, as the extractor compares them. -/
def LooksFarEnough (U : Unicode) (repo : Repository) : CrmOperation → Prop
  | .applied tenantId contactId result _ => Applies U repo tenantId contactId result →
    ∀ task ∈ result.newTasks, Titled task →
      task.key U ∈ openTaskTitles U repo tenantId contactId ∨
        NotOpen U repo tenantId contactId (task.key U)
  | _ => True

/-! ## The PATCH -/

/-- A PATCH without a title moves the status it sets, and the fields that no title is taken from. -/
theorem get?_patchedData {data data' : Dict String Json} {req : Routes.TaskPatchRequest}
    (htitle : req.title = none) (h : Routes.patchedData data req = .ok data') {key : String}
    (hkey : key ∉ ["due_at", "priority", "confirmed"]) :
    data'.get? key = (req.status.elim data fun s => data.set "status" (.str s)).get? key := by
  simp only [List.mem_cons, List.not_mem_nil, or_false, not_or] at hkey
  obtain ⟨hdue, hpriority, hconfirmed⟩ := hkey
  have hset : ∀ {d : Dict String Json} {k : String} (v : Json), key ≠ k →
      (d.set k v).get? key = d.get? key := fun v hne => Dict.get?_set_ne _ v (Ne.symm hne)
  have herase : ∀ d : Dict String Json, (d.erase "due_at").get? key = d.get? key := by
    intro d
    rw [Dict.get?_erase, if_neg (Ne.symm hdue)]
  obtain ⟨title, status, dueAt, priority, confirmed⟩ := req
  cases htitle
  cases status
  all_goals
    unfold Routes.patchedData at h
    simp only [bind, Except.bind] at h
    -- a branch for each field that is sent, and for each value it is refused for
    repeat' split at h
  all_goals cases h
  all_goals
    simp only [hset _ hdue, hset _ hpriority, hset _ hconfirmed, herase, Option.elim_none,
      Option.elim_some]

/-- A task that is patched in these runs has its title open if it had before. -/
theorem openTitle_patched {U : Unicode} {task : Resource} {data : Dict String Json} {summary : String}
    {now : Datetime} {req : Routes.TaskPatchRequest} (htitle : req.title = none)
    (hstatus : req.status ≠ some "open") (h : Routes.patchedData task.data req = .ok data)
    {m : String × String × String}
    (hopen : openTitle U { task with data, summary, updatedAt := now } = some m) :
    openTitle U task = some m := by
  have hfield : ∀ key, key ∉ ["status", "due_at", "priority", "confirmed"] →
      data.get? key = task.data.get? key := by
    intro key hkey
    rw [List.mem_cons, not_or] at hkey
    rw [get?_patchedData htitle h hkey.2]
    cases req.status with
    | none => rfl
    | some s => exact Dict.get?_set_ne _ _ (Ne.symm hkey.1)
  have hstatus' : (data.getD "status" .null).pyEq (.str "open") = true →
      data.get? "status" = task.data.get? "status" := by
    intro hnow
    have hset := get?_patchedData htitle h (show "status" ∉ _ by decide)
    cases hs : req.status with
    | none =>
      rw [hs] at hset
      exact hset
    | some s =>
      rw [hs, Option.elim_some, Dict.get?_set_self] at hset
      rw [Dict.getD, hset, Option.getD_some, Json.pyEq_str_iff] at hnow
      cases hnow
      exact absurd hs hstatus
  unfold openTitle at hopen ⊢
  split at hopen
  · next hrow =>
    have hbefore : (task.data.getD "status" .null).pyEq (.str "open") = true := by
      rw [Dict.getD, ← hstatus' hrow.2]
      exact hrow.2
    rw [if_pos ⟨hrow.1, hbefore⟩, ← hopen, contactIdOf, contactIdOf, Dict.getD, Dict.getD,
      Dict.getD, Dict.getD, hfield "contact_id" (by decide), hfield "title" (by decide)]
  · cases hopen

/-- A PATCH of these runs keeps the rows in order and the titles apart. -/
theorem unique_patchTask {U : Unicode} {repo : Repository} (hK : Keyed repo)
    (hP : OpenTitlesUnique U repo) {req : Routes.TaskPatchRequest} (htitle : req.title = none)
    (hstatus : req.status ≠ some "open") (tenantId taskId : String) (now : Datetime) :
    Keyed (storedOr repo (patchTask repo tenantId taskId req now)) ∧
      OpenTitlesUnique U (storedOr repo (patchTask repo tenantId taskId req now)) := by
  rcases patchTask_cases repo tenantId taskId req now with
    hrepo | ⟨task, data, summary, hget, hdata, hrepo⟩
  · rw [hrepo]
    exact ⟨hK, hP⟩
  · have hrow : repo.get? task.id = some task := by rw [hK.rowIds _ _ hget, hget]
    rw [hrepo, hK.upsert_stored (r := { task with data, summary, updatedAt := now }) hrow rfl]
    refine ⟨hK.rewrite (r := { task with data, summary, updatedAt := now }) hrow rfl,
      Dict.Unique.set hP fun x row a hx ha hopen => ?_⟩
    exact hP task.id x task row a hrow hx (openTitle_patched htitle hstatus hdata hopen) ha

/-! ## Steps and runs -/

/-- **The step lemma.** The rows stay in order, and the titles apart exactly where an application
has looked far enough. A PATCH of these runs needs no condition.

The page that the extractor looks at is the newest thousand tasks, read at the moment of the
step. -/
theorem titleStep_spec {U : Unicode} {repo repo' : Repository} {op : CrmOperation}
    (hK : Keyed repo) (hP : OpenTitlesUnique U repo) (hstep : titleStep U repo op = some repo') :
    Keyed repo' ∧ (OpenTitlesUnique U repo' ↔ LooksFarEnough U repo op) := by
  unfold titleStep at hstep
  split at hstep
  next hscope =>
    cases op with
    | applied tenantId contactId result draw =>
      simp only [crmStep] at hstep
      split at hstep
      next hF =>
        cases hstep
        by_cases hA : Applies U repo tenantId contactId result
        · obtain ⟨hempty, contact, hget, ht, data, changed, hok⟩ := id hA
          have hid : contact.id = contactId := hK.rowIds _ _ hget
          subst hid
          have hkind : contact.kind ≠ TASK_KIND := by
            rw [keepsTitles, hget, Option.all_some, decide_eq_true_eq] at hscope
            exact hscope
          refine ⟨keyed_applied hK hget hempty ht hok, ?_⟩
          exact (unique_applied_iff hK hget hempty ht hok hP hF hkind).trans
            ⟨fun h _ => h, fun h => h hA⟩
        · rw [applied_of_not_applies hA]
          exact ⟨hK, iff_of_true hP fun h => absurd h hA⟩
      · cases hstep
    | patched tenantId taskId req now =>
      cases hstep
      simp only [keepsTitles, Bool.and_eq_true, Option.isNone_iff_eq_none,
        decide_eq_true_eq] at hscope
      obtain ⟨hkeyed, hunique⟩ := unique_patchTask hK hP hscope.1 hscope.2 tenantId taskId now
      exact ⟨hkeyed, iff_of_true hunique trivial⟩
    | recorded call => cases hscope
    | deleted tenantId taskId => cases hscope
  · cases hstep

/-- **One open task for each title.** From a store in order whose titles are apart, a run of
applications and of these PATCHes keeps them apart in every state exactly when each application that
comes to its writes has looked at each of its titles that is open. The result to be applied is any
the model may give, with a title twice or none. -/
theorem open_titles_iff (U : Unicode) {repo : Repository} (hK : Keyed repo)
    (hP : OpenTitlesUnique U repo) (ops : List CrmOperation) :
    EachState (titleStep U) (OpenTitlesUnique U) repo ops ↔
      EachStep (titleStep U) (LooksFarEnough U) repo ops :=
  eachState_iff_eachStep (fun _ _ _ hK hP hstep => (titleStep_spec hK hP hstep).1)
    (fun _ _ _ hK hP hstep => (titleStep_spec hK hP hstep).2) hK hP

/-- A call is agreed on. -/
def callAgreed : CrmOperation :=
  .applied "acme" "c1" { newTasks := [{ title := "Llamar" }] }
    ⟨1, [⟨1, "t1", 1, 1⟩], ⟨1, "s1", 1, 1⟩⟩

theorem open_titles_callAgreed :
    EachState (titleStep Unicode.ascii) (OpenTitlesUnique Unicode.ascii) anaStore [callAgreed] := by
  have hrow : ∀ k r, anaStore.get? k = some r → r = ana := by
    intro k r hr
    rcases Dict.get?_set_eq_some hr with ⟨-, rfl⟩ | ⟨-, hr⟩
    · rfl
    · cases hr
  refine (open_titles_iff Unicode.ascii ⟨rowIds_anaStore, fun k k' r r' key hr _ hkey => ?_⟩
    (fun k k' r r' m hr _ hm => ?_) [callAgreed]).mpr fun _ _ => ⟨fun _ _ _ _ => .inr ?_, trivial⟩
  · rw [hrow k r hr] at hkey
    cases hkey
  · rw [hrow k r hr] at hm
    cases hm
  · intro k r hr
    rw [hrow k r hr]
    intro hm
    cases hm

/-! ## A task behind a thousand -/

/-- One of the newer tasks, done and another contact's. -/
def doneTask (i : Nat) : Resource where
  id := repeated (i + 1) 'x'
  tenantId := "acme"
  kind := TASK_KIND
  data := ((Dict.empty.set "contact_id" (.str "c2")).set "title" (.str "Enviar")).set "status"
    (.str "done")
  createdAt := 1
  updatedAt := 1

/-- The open task of Ana, older than the others. -/
def oldTask : Resource where
  id := "t0"
  tenantId := "acme"
  kind := TASK_KIND
  data := ((Dict.empty.set "contact_id" (.str "c1")).set "title" (.str "Llamar")).set "status"
    (.str "open")
  createdAt := 0
  updatedAt := 0

/-- Ana, a thousand tasks, and hers. -/
def crowdedRows : List Resource := ana :: ((List.range 1000).map doneTask ++ [oldTask])

theorem mem_crowdedRows {r : Resource} :
    r ∈ crowdedRows ↔ r = ana ∨ (∃ i < 1000, doneTask i = r) ∨ r = oldTask := by
  simp only [crowdedRows, List.mem_cons, List.mem_append, List.mem_map, List.mem_range,
    List.not_mem_nil, or_false]

/-- No other id is all of one letter. -/
theorem doneTask_id_ne {i : Nat} {s : String} (h : 'x' ∉ s.toList) : (doneTask i).id ≠ s := by
  intro hid
  refine h ?_
  rw [← hid, doneTask, repeated, String.toList_ofList]
  exact List.mem_cons_self

def crowded : Repository where
  entries := crowdedRows.map fun r => (r.id, r)
  nodup := by
    rw [List.map_map, crowdedRows, List.map_cons, List.map_append, List.map_map]
    refine List.nodup_cons.mpr ⟨?_, List.nodup_append.mpr ⟨?_, List.nodup_singleton _, ?_⟩⟩
    · intro hmem
      rcases List.mem_append.mp hmem with hmem | hmem
      · obtain ⟨i, -, hi⟩ := List.mem_map.mp hmem
        exact doneTask_id_ne (show 'x' ∉ ana.id.toList by decide) hi
      · exact absurd (List.mem_singleton.mp hmem) (by decide)
    · refine List.Nodup.map_on (fun i _ j _ h => ?_) List.nodup_range
      have hlen := congrArg String.length h
      simp only [Function.comp_apply, doneTask, length_repeated] at hlen
      omega
    · rintro a ha b hb rfl
      obtain ⟨i, -, hi⟩ := List.mem_map.mp ha
      rw [List.mem_singleton.mp hb] at hi
      exact doneTask_id_ne (show 'x' ∉ oldTask.id.toList by decide) hi

theorem get?_crowded {k : String} {r : Resource} :
    crowded.get? k = some r ↔ r ∈ crowdedRows ∧ r.id = k := by
  rw [Dict.get?_eq_some_iff, crowded, List.mem_map]
  constructor
  · rintro ⟨row, hrow, heq⟩
    cases heq
    exact ⟨hrow, rfl⟩
  · rintro ⟨hrow, rfl⟩
    exact ⟨r, hrow, rfl⟩

theorem crowded_free {k : String} (hx : 'x' ∉ k.toList) (hana : ana.id ≠ k) (hold : oldTask.id ≠ k) :
    crowded.get? k = none := by
  cases hrow : crowded.get? k with
  | none => rfl
  | some r =>
    obtain ⟨hmem, hid⟩ := get?_crowded.mp hrow
    rcases mem_crowdedRows.mp hmem with rfl | ⟨i, -, rfl⟩ | rfl
    · exact absurd hid hana
    · exact absurd hid (doneTask_id_ne hx)
    · exact absurd hid hold

theorem keyed_crowded : Keyed crowded where
  rowIds k r hr := (get?_crowded.mp hr).2
  keys k k' r r' key hr _ hkey := by
    rcases mem_crowdedRows.mp (get?_crowded.mp hr).1 with rfl | ⟨i, -, rfl⟩ | rfl <;> cases hkey

/-- Of these rows only hers is an open task. -/
theorem eq_oldTask_of_open {k : String} {r : Resource} {m : String × String × String}
    (hr : crowded.get? k = some r) (hm : openTitle Unicode.ascii r = some m) : r = oldTask := by
  rcases mem_crowdedRows.mp (get?_crowded.mp hr).1 with rfl | ⟨i, -, rfl⟩ | rfl
  · cases hm
  · cases hm
  · rfl

theorem unique_crowded : OpenTitlesUnique Unicode.ascii crowded := by
  intro k k' r r' m hr hr' hm hm'
  rw [← (get?_crowded.mp hr).2, ← (get?_crowded.mp hr').2, eq_oldTask_of_open hr hm,
    eq_oldTask_of_open hr' hm']

/-- Her task is not among those that are looked at. -/
theorem openTaskTitles_crowded : openTaskTitles Unicode.ascii crowded "acme" "c1" = [] := by
  have hvalues : crowded.values = crowdedRows := by
    rw [Dict.values, crowded, List.map_map]
    exact List.map_id _
  have hlisted : crowded.values.filter (Repository.listed "acme" (some TASK_KIND)) =
      (List.range 1000).map doneTask ++ [oldTask] := by
    rw [hvalues, crowdedRows, List.filter_cons_of_neg (by decide), List.filter_eq_self]
    intro r hr
    rcases List.mem_append.mp hr with hr | hr
    · obtain ⟨i, -, rfl⟩ := List.mem_map.mp hr
      simp [Repository.listed, doneTask]
    · rw [List.mem_singleton.mp hr]
      decide
  have hnewest : Repository.newestFirst ((List.range 1000).map doneTask ++ [oldTask]) =
      (List.range 1000).map doneTask ++ [oldTask] := by
    refine newestFirst_append fun a ha b hb => ?_
    obtain ⟨i, -, rfl⟩ := List.mem_map.mp ha
    rcases List.mem_append.mp hb with hb | hb
    · obtain ⟨j, -, rfl⟩ := List.mem_map.mp hb
      exact Int.le_refl _
    · rw [List.mem_singleton.mp hb]
      show (0 : Int) ≤ 1
      decide
  have hlength : ((List.range 1000).map doneTask).length = 1000 := by
    rw [List.length_map, List.length_range]
  have hscan : crowded.listFor "acme" (some TASK_KIND) 1000 = (List.range 1000).map doneTask := by
    rw [Repository.listFor, hlisted, hnewest, upTo, if_pos (by decide)]
    exact List.take_left' hlength
  have hnone : ((List.range 1000).map doneTask).filter (isOpenTaskOf "c1") = [] := by
    rw [List.filter_eq_nil_iff]
    intro r hr
    obtain ⟨i, -, rfl⟩ := List.mem_map.mp hr
    rw [isOpenTaskOf, Bool.and_eq_true, Json.pyEq_str_iff]
    rintro ⟨hcontact, -⟩
    exact absurd (Json.str.inj hcontact) (by decide)
  rw [openTaskTitles, hscan, hnone]
  rfl

/-- The call is written down a second time. -/
theorem not_open_titles : ¬ ∀ (U : Unicode) (repo : Repository), Keyed repo →
    OpenTitlesUnique U repo → ∀ ops : List CrmOperation,
      EachState (titleStep U) (OpenTitlesUnique U) repo ops := by
  intro h
  have hrun := h Unicode.ascii crowded keyed_crowded unique_crowded [callAgreed]
  have hana : crowded.get? "c1" = some ana :=
    get?_crowded.mpr ⟨mem_crowdedRows.mpr (.inl rfl), rfl⟩
  have hold : crowded.get? "t0" = some oldTask :=
    get?_crowded.mpr ⟨mem_crowdedRows.mpr (.inr (.inr rfl)), rfl⟩
  have hF : ApplyDraw.Fresh ⟨1, [⟨1, "t1", 1, 1⟩], ⟨1, "s1", 1, 1⟩⟩ crowded
      { newTasks := [{ title := "Llamar" }] } := by
    refine ⟨rfl, by decide, fun id hid => ?_⟩
    rcases List.mem_cons.mp hid with rfl | hid
    · exact crowded_free (by decide) (by decide) (by decide)
    · rw [List.mem_singleton.mp hid]
      exact crowded_free (by decide) (by decide) (by decide)
  have hscope : keepsTitles crowded callAgreed = true := by
    rw [callAgreed, keepsTitles, hana]
    decide
  have hstep : titleStep Unicode.ascii crowded callAgreed =
      some (applied Unicode.ascii crowded "acme" ana.id { newTasks := [{ title := "Llamar" }] }
        ⟨1, [⟨1, "t1", 1, 1⟩], ⟨1, "s1", 1, 1⟩⟩) := by
    rw [titleStep, if_pos hscope, callAgreed, crmStep, if_pos hF]
    rfl
  have hlooked := (unique_applied_iff keyed_crowded hana (by rfl) (by rfl) (by rfl) unique_crowded hF
    (by decide)).mp ((hrun.2 _ hstep).head) { title := "Llamar" } List.mem_cons_self (by decide)
  rcases hlooked with hin | hnot
  · rw [show openTaskTitles Unicode.ascii crowded "acme" ana.id = [] from openTaskTitles_crowded]
      at hin
    cases hin
  · exact hnot "t0" oldTask hold (by decide)

end Wapsell.Api
