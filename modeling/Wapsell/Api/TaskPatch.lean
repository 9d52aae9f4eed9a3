import Wapsell.Api.CrmRows
import Wapsell.Crm.OpenTasks

/-!
# The PATCH of a task

`patch_crm_task` edits a copy of the row's data and writes the row once, so
a request that is refused leaves the store as it was, and one that succeeds
changes what it names. It takes the summary from the title, and the title
is a text only if whoever wrote the row made it one: `POST .../resources`
takes any JSON. A list even has a slice, and is stored before the answer
fails on it.

The title is the only thing that can go wrong behind the checks, and it
goes wrong in two ways. A number or a dictionary has no slice, and the
request fails with the store untouched. A list has one, and the row is
stored with a list for its summary before the answer is validated and
fails.

**What this does not establish.** Two PATCHes at once: the route does
not await, so in one process there are none. What a table makes of a
summary that is a list is not said; the store is the one in memory.
-/

namespace Wapsell.Api.TaskPatch

open Lib Py Resources Crm

/-! ## The route -/

/-- What a slice of the title is. -/
inductive Sliced
  | text (summary : String)
  | items (items : List Json)

/-- `data.get("title", resource.summary)[:200]`. -/
def sliceTitle (data : Dict String Json) (summary : String) : Except Exc Sliced :=
  match data.getD "title" (.str summary) with
  | .str title => .ok (.text (take 200 title))
  | .arr items => .ok (.items (items.take 200))
  | _ => .error .typeError

/-- The route up to its write: the row, its new data, and the slice. All checks are in here, so what
is behind it is the write alone. -/
def editedTask (required : Bool) (caller : Option User) (repo : Repository)
    (tenantId taskId : String) (req : Routes.TaskPatchRequest) :
    Except HTTPException (Resource × Dict String Json × Sliced) := do
  let _ ← assertTenantAccess required caller tenantId
  let resource ← Routes.loadTaskResource { resources := repo } tenantId taskId
  let data ← Routes.patchedData resource.data req
  let sliced ← Routes.orInternalError (sliceTitle data resource.summary)
  pure (resource, data, sliced)

/-- `patch_crm_task`: the answer, and the store it leaves. `model_copy` takes a list for the summary
and `upsert` stores the row, with the list kept here as its text; only then does `TaskOut` refuse
it. -/
def patchCrmTask (required : Bool) (caller : Option User) (repo : Repository)
    (tenantId taskId : String) (req : Routes.TaskPatchRequest) (now : Datetime) :
    Except HTTPException Routes.TaskOut × Repository :=
  match editedTask required caller repo tenantId taskId req with
  | .error e => (.error e, repo)
  | .ok (resource, data, .text summary) =>
    let updated := { resource with data, summary, updatedAt := now }
    (.ok (.fromResource updated), repo.upsert updated)
  | .ok (resource, data, .items items) =>
    let updated := { resource with data, summary := (Json.arr items).dumps, updatedAt := now }
    (.error ⟨500, "Internal Server Error"⟩, repo.upsert updated)

/-! ## The data -/

/-- A field that is sent is set. -/
def put (data : Dict String Json) (key : String) (value : Option Json) : Dict String Json :=
  value.elim data fun v => data.set key v

/-- The date is set, or removed where it is empty. -/
def putDueAt (data : Dict String Json) (dueAt : Option String) : Dict String Json :=
  dueAt.elim data fun s => if s = "" then data.erase "due_at" else data.set "due_at" (.str s)

/-- The title as it is stored. -/
def storedTitle (title : String) : Json := .str (take 200 (strip title))

/-- The data with every field of the request. -/
def edited (data : Dict String Json) (req : Routes.TaskPatchRequest) : Dict String Json :=
  put (put (putDueAt (put (put data "title" (req.title.map storedTitle)) "status"
    (req.status.map .str)) req.dueAt) "priority" (req.priority.map .str)) "confirmed"
    (req.confirmed.map .bool)

def IsStatus (status : String) : Prop := status = "open" ∨ status = "done" ∨ status = "dismissed"

def IsPriority (priority : String) : Prop := priority = "low" ∨ priority = "med" ∨ priority = "high"

/-- The request names a status and a priority that there are, where it names one. -/
structure Valid (req : Routes.TaskPatchRequest) : Prop where
  status : ∀ s, req.status = some s → IsStatus s
  priority : ∀ p, req.priority = some p → IsPriority p

/-- The fields of a valid request are all set. -/
theorem patchedData_of_valid (data : Dict String Json) {req : Routes.TaskPatchRequest}
    (h : Valid req) : Routes.patchedData data req = .ok (edited data req) := by
  obtain ⟨title, status, dueAt, priority, confirmed⟩ := req
  unfold Routes.patchedData
  simp only [bind, Except.bind]
  cases status with
  | none =>
    cases priority with
    | none => cases title <;> cases dueAt <;> cases confirmed <;> rfl
    | some p =>
      simp only [if_pos (show p = "low" ∨ p = "med" ∨ p = "high" from h.priority p rfl)]
      cases title <;> cases dueAt <;> cases confirmed <;> rfl
  | some s =>
    simp only [if_pos (show s = "open" ∨ s = "done" ∨ s = "dismissed" from h.status s rfl)]
    cases priority with
    | none => cases title <;> cases dueAt <;> cases confirmed <;> rfl
    | some p =>
      simp only [if_pos (show p = "low" ∨ p = "med" ∨ p = "high" from h.priority p rfl)]
      cases title <;> cases dueAt <;> cases confirmed <;> rfl

/-- Any other request is refused. -/
theorem patchedData_of_not_valid (data : Dict String Json) {req : Routes.TaskPatchRequest}
    (h : ¬ Valid req) : ∃ detail, Routes.patchedData data req = .error ⟨400, detail⟩ := by
  obtain ⟨title, status, dueAt, priority, confirmed⟩ := req
  unfold Routes.patchedData
  simp only [bind, Except.bind]
  by_cases hstatus : ∀ s, status = some s → IsStatus s
  · have hpriority : ¬ ∀ p, priority = some p → IsPriority p := fun hp => h ⟨hstatus, hp⟩
    simp only [not_forall] at hpriority
    obtain ⟨p, rfl, hp⟩ := hpriority
    refine ⟨"invalid priority", ?_⟩
    simp only [if_neg (show ¬ (p = "low" ∨ p = "med" ∨ p = "high") from hp)]
    cases status with
    | none => rfl
    | some s =>
      simp only [if_pos (show s = "open" ∨ s = "done" ∨ s = "dismissed" from hstatus s rfl)]
  · simp only [not_forall] at hstatus
    obtain ⟨s, rfl, hs⟩ := hstatus
    refine ⟨"invalid status", ?_⟩
    simp only [if_neg (show ¬ (s = "open" ∨ s = "done" ∨ s = "dismissed") from hs)]

/-- What the request leaves under a key of the data. -/
def patchedField (req : Routes.TaskPatchRequest) (key : String) (old : Option Json) : Option Json :=
  if key = "title" then (req.title.map storedTitle).or old
  else if key = "status" then (req.status.map .str).or old
  else if key = "due_at" then
    req.dueAt.elim old fun s => if s = "" then none else some (.str s)
  else if key = "priority" then (req.priority.map .str).or old
  else if key = "confirmed" then (req.confirmed.map .bool).or old
  else old

theorem get?_put (data : Dict String Json) (name key : String) (value : Option Json) :
    (put data name value).get? key = if key = name then value.or (data.get? key) else data.get? key := by
  cases value with
  | none => simp [put]
  | some v =>
    rw [put, Option.elim_some, Dict.get?_set]
    by_cases h : key = name
    · rw [if_pos h.symm, if_pos h]
      rfl
    · rw [if_neg (Ne.symm h), if_neg h]

theorem get?_putDueAt (data : Dict String Json) (key : String) (dueAt : Option String) :
    (putDueAt data dueAt).get? key = if key = "due_at" then
      dueAt.elim (data.get? key) fun s => if s = "" then none else some (.str s)
    else data.get? key := by
  cases dueAt with
  | none => simp [putDueAt]
  | some s =>
    rw [putDueAt, Option.elim_some, Option.elim_some]
    by_cases h : key = "due_at"
    · subst h
      rw [if_pos rfl]
      split
      · rw [Dict.get?_erase, if_pos rfl]
      · rw [Dict.get?_set_self]
    · rw [if_neg h]
      split
      · rw [Dict.get?_erase, if_neg (Ne.symm h)]
      · exact Dict.get?_set_ne _ _ (Ne.symm h)

/-- Key by key. -/
theorem get?_edited (data : Dict String Json) (req : Routes.TaskPatchRequest) (key : String) :
    (edited data req).get? key = patchedField req key (data.get? key) := by
  rw [edited, get?_put, get?_put, get?_putDueAt, get?_put, get?_put, patchedField]
  by_cases htitle : key = "title"
  · subst htitle
    rfl
  by_cases hstatus : key = "status"
  · subst hstatus
    rfl
  by_cases hdue : key = "due_at"
  · subst hdue
    rfl
  by_cases hpriority : key = "priority"
  · subst hpriority
    rfl
  simp only [if_neg htitle, if_neg hstatus, if_neg hdue, if_neg hpriority]

/-! ## The answer -/

/-- The row of a task. -/
structure IsTask (repo : Repository) (tenantId taskId : String) (task : Resource) : Prop where
  stored : repo.get? taskId = some task
  tenant : task.tenantId = tenantId
  kind : task.kind = "task"

/-- The title of the row is a text once the request has been read. -/
def TextTitle (req : Routes.TaskPatchRequest) (task : Resource) : Prop :=
  req.title.isSome ∨ ∃ s, task.data.getD "title" (.str task.summary) = .str s

theorem loadTaskResource_cases (repo : Repository) (tenantId taskId : String) :
    (∃ task, IsTask repo tenantId taskId task ∧
      Routes.loadTaskResource { resources := repo } tenantId taskId = .ok task) ∨
    ((∀ task, ¬ IsTask repo tenantId taskId task) ∧
      Routes.loadTaskResource { resources := repo } tenantId taskId =
        .error ⟨404, "task not found"⟩) := by
  unfold Routes.loadTaskResource Routes.ownedOr404 Repository.get
  cases hget : repo.get? taskId with
  | none =>
    refine .inr ⟨fun task htask => ?_, rfl⟩
    have hstored := htask.stored
    rw [hget] at hstored
    cases hstored
  | some row =>
    simp only [Option.all_some, decide_eq_true_eq]
    split
    · next hrow => exact .inl ⟨row, ⟨hget, hrow.1, hrow.2⟩, rfl⟩
    · next hrow =>
      refine .inr ⟨fun task htask => hrow ?_, rfl⟩
      have hstored := htask.stored
      rw [hget] at hstored
      cases hstored
      exact ⟨htask.tenant, htask.kind⟩

theorem getD_edited (data : Dict String Json) (req : Routes.TaskPatchRequest) (summary : String) :
    (edited data req).getD "title" (.str summary) =
      (req.title.map storedTitle).getD (data.getD "title" (.str summary)) := by
  rw [Dict.getD, get?_edited, patchedField, if_pos rfl, Dict.getD]
  cases req.title <;> rfl

theorem textTitle_iff (req : Routes.TaskPatchRequest) (task : Resource) :
    TextTitle req task ↔ ∃ s, (edited task.data req).getD "title" (.str task.summary) = .str s := by
  rw [getD_edited, TextTitle]
  cases req.title with
  | none => simp
  | some title => simp [storedTitle]

/-- Only a text has a text for a slice. -/
theorem sliceTitle_eq_text_iff {data : Dict String Json} {summary : String} :
    (∃ t, sliceTitle data summary = .ok (.text t)) ↔
      ∃ s, data.getD "title" (.str summary) = .str s := by
  unfold sliceTitle
  generalize data.getD "title" (.str summary) = title
  cases title <;> simp

section Patched

variable {required : Bool} {caller : Option User} {repo : Repository} {tenantId taskId : String}
  {req : Routes.TaskPatchRequest} {now : Datetime} {u : Option User}

/-- Without access nothing happens. -/
theorem patchCrmTask_of_denied {e : HTTPException}
    (h : assertTenantAccess required caller tenantId = .error e) :
    patchCrmTask required caller repo tenantId taskId req now = (.error e, repo) := by
  have hedited : editedTask required caller repo tenantId taskId req = .error e := by
    rw [editedTask, h]
    rfl
  rw [patchCrmTask, hedited]

variable (haccess : assertTenantAccess required caller tenantId = .ok u)
include haccess

theorem patchCrmTask_of_no_task (h : ∀ task, ¬ IsTask repo tenantId taskId task) :
    patchCrmTask required caller repo tenantId taskId req now =
      (.error ⟨404, "task not found"⟩, repo) := by
  have hload : Routes.loadTaskResource { resources := repo } tenantId taskId =
      .error ⟨404, "task not found"⟩ := by
    rcases loadTaskResource_cases repo tenantId taskId with ⟨task, htask, -⟩ | ⟨-, hload⟩
    · exact absurd htask (h task)
    · exact hload
  have hedited : editedTask required caller repo tenantId taskId req =
      .error ⟨404, "task not found"⟩ := by
    rw [editedTask, haccess]
    simp only [bind, Except.bind, hload]
  rw [patchCrmTask, hedited]

theorem editedTask_eq {task : Resource} (htask : IsTask repo tenantId taskId task) :
    editedTask required caller repo tenantId taskId req =
      (Routes.patchedData task.data req).bind fun data =>
        (Routes.orInternalError (sliceTitle data task.summary)).bind fun sliced =>
          .ok (task, data, sliced) := by
  have hload : Routes.loadTaskResource { resources := repo } tenantId taskId = .ok task := by
    rcases loadTaskResource_cases repo tenantId taskId with ⟨row, hrow, hload⟩ | ⟨hnone, -⟩
    · rw [hload, Option.some.inj (hrow.stored.symm.trans htask.stored)]
    · exact absurd htask (hnone task)
  rw [editedTask, haccess]
  simp only [bind, Except.bind, hload]
  rfl

theorem patchCrmTask_of_not_valid (now : Datetime) {task : Resource}
    (htask : IsTask repo tenantId taskId task) (h : ¬ Valid req) : ∃ detail,
      patchCrmTask required caller repo tenantId taskId req now = (.error ⟨400, detail⟩, repo) := by
  obtain ⟨detail, hdata⟩ := patchedData_of_not_valid task.data h
  refine ⟨detail, ?_⟩
  have hedited : editedTask required caller repo tenantId taskId req = .error ⟨400, detail⟩ := by
    rw [editedTask_eq haccess htask, hdata]
    rfl
  rw [patchCrmTask, hedited]

/-- With a text for a title the row is written, and answered. -/
theorem patchCrmTask_of_text (now : Datetime) {task : Resource}
    (htask : IsTask repo tenantId taskId task) (hvalid : Valid req) (h : TextTitle req task) :
    ∃ summary,
      patchCrmTask required caller repo tenantId taskId req now =
        (.ok (.fromResource { task with data := edited task.data req, summary, updatedAt := now }),
          repo.upsert { task with data := edited task.data req, summary, updatedAt := now }) := by
  obtain ⟨summary, hslice⟩ := sliceTitle_eq_text_iff.mpr ((textTitle_iff req task).mp h)
  have hedited : editedTask required caller repo tenantId taskId req =
      .ok (task, edited task.data req, .text summary) := by
    rw [editedTask_eq haccess htask, patchedData_of_valid _ hvalid]
    simp only [Except.bind, hslice, Routes.orInternalError]
  exact ⟨summary, by rw [patchCrmTask, hedited]⟩

/-- Without one the answer is a 500. -/
theorem patchCrmTask_of_no_text (now : Datetime) {task : Resource}
    (htask : IsTask repo tenantId taskId task) (hvalid : Valid req) (h : ¬ TextTitle req task) :
    (patchCrmTask required caller repo tenantId taskId req now).1 =
      .error ⟨500, "Internal Server Error"⟩ := by
  have hedited : editedTask required caller repo tenantId taskId req = _ :=
    editedTask_eq haccess htask
  rw [patchedData_of_valid _ hvalid] at hedited
  rw [textTitle_iff, ← sliceTitle_eq_text_iff] at h
  simp only [Except.bind] at hedited
  cases hslice : sliceTitle (edited task.data req) task.summary with
  | error e =>
    rw [hslice] at hedited
    rw [patchCrmTask, hedited]
    rfl
  | ok sliced =>
    rw [hslice] at hedited
    cases sliced with
    | text summary => exact absurd ⟨summary, hslice⟩ h
    | items items =>
      rw [patchCrmTask, hedited]
      rfl

end Patched

/-- The store behind the access check is the one of the runs of the CRM. -/
theorem patchCrmTask_store {required : Bool} {caller u : Option User} {repo : Repository}
    {tenantId : String} (haccess : assertTenantAccess required caller tenantId = .ok u)
    (taskId : String) (req : Routes.TaskPatchRequest) (now : Datetime) :
    (patchCrmTask required caller repo tenantId taskId req now).2 =
      storedOr repo (patchTask repo tenantId taskId req now) := by
  rw [patchCrmTask, editedTask, haccess, patchTask]
  simp only [bind, Except.bind]
  cases Routes.loadTaskResource { resources := repo } tenantId taskId with
  | error e => rfl
  | ok task =>
    simp only
    cases Routes.patchedData task.data req with
    | error e => rfl
    | ok data =>
      simp only [sliceTitle, storedSummary]
      generalize data.getD "title" (.str task.summary) = title
      cases title <;> rfl

/-- The answer is that of the route. -/
theorem patchCrmTask_answer {ρ : Type} (E : Routes.Deployment ρ) (D : Routes.TenantData)
    (caller : Option User) (tenantId taskId : String) (req : Routes.TaskPatchRequest) :
    Routes.patchCrmTask E D caller tenantId taskId req =
      (patchCrmTask E.authRequired caller D.resources tenantId taskId req E.now).1.map .task := by
  rw [Routes.patchCrmTask, patchCrmTask, editedTask]
  cases assertTenantAccess E.authRequired caller tenantId with
  | error e => rfl
  | ok u =>
    have hload : Routes.loadTaskResource D tenantId taskId =
      Routes.loadTaskResource { resources := D.resources } tenantId taskId := rfl
    simp only [bind, Except.bind, hload]
    cases Routes.loadTaskResource { resources := D.resources } tenantId taskId with
    | error e => rfl
    | ok task =>
      simp only
      cases Routes.patchedData task.data req with
      | error e => rfl
      | ok data =>
        simp only [sliceTitle, Routes.taskSummary]
        generalize data.getD "title" (.str task.summary) = title
        cases title <;> rfl

/-! ## Runs -/

/-- What the endpoints and the services behind them do to the rows. -/
inductive RowOperation
  /-- `create_resource`, the extractor, the recorder and the syncs. -/
  | upserted (r : Resource)
  /-- The recorder, a contact or an activity. -/
  | added (r : Resource)
  | deleted (id : String)
  | patched (required : Bool) (caller : Option User) (tenantId taskId : String)
      (req : Routes.TaskPatchRequest) (now : Datetime)

/-- One operation. A row of the recorder has no source. -/
def rowStep (repo : Repository) : RowOperation → Option Repository
  | .upserted r => some (repo.upsert r)
  | .added r => if r.sourceId = none then some (repo.add r) else none
  | .deleted id => some (repo.delete id)
  | .patched required caller tenantId taskId req now =>
    some (patchCrmTask required caller repo tenantId taskId req now).2

/-- An upsert keeps the rows under their ids and the dedup keys apart. -/
theorem Keyed.upsert {repo : Repository} (h : Keyed repo) (r : Resource) : Keyed (repo.upsert r) where
  rowIds := h.rowIds.upsert r
  keys := by
    have hself : (repo.upsert r).get? r.id = some r := Repository.get?_upsert_self repo r
    have hother : ∀ {x row}, x ≠ r.id → (repo.upsert r).get? x = some row →
        repo.get? x = some row ∧ (r.key = none ∨ row.key ≠ r.key) := by
      intro x row hx hrow
      have hfilter := (Repository.get?_upsert_ne h.rowIds hx).symm.trans hrow
      obtain ⟨hrow, hkey⟩ := Option.filter_eq_some_iff.mp hfilter
      exact ⟨hrow, of_decide_eq_true hkey⟩
    intro k k' a b key ha hb hka hkb
    by_cases hk : k = r.id
    · by_cases hk' : k' = r.id
      · rw [hk, hk']
      · obtain ⟨-, hkey⟩ := hother hk' hb
        rw [hk, hself] at ha
        cases ha
        rw [hka, hkb] at hkey
        rcases hkey with hkey | hkey
        · cases hkey
        · exact absurd rfl hkey
    · by_cases hk' : k' = r.id
      · obtain ⟨-, hkey⟩ := hother hk ha
        rw [hk', hself] at hb
        cases hb
        rw [hka, hkb] at hkey
        rcases hkey with hkey | hkey
        · cases hkey
        · exact absurd rfl hkey
      · exact h.keys k k' a b key (hother hk ha).1 (hother hk' hb).1 hka hkb

theorem Keyed.patched {repo : Repository} (h : Keyed repo) (required : Bool) (caller : Option User)
    (tenantId taskId : String) (req : Routes.TaskPatchRequest) (now : Datetime) :
    Keyed (patchCrmTask required caller repo tenantId taskId req now).2 := by
  unfold patchCrmTask
  split
  · exact h
  · exact Keyed.upsert h _
  · exact Keyed.upsert h _

/-- **The step lemma.** Every row stays under its id and no two share a dedup key, so a row that is
written back lands where it was read. -/
theorem keyed_rowStep {repo repo' : Repository} {op : RowOperation} (h : Keyed repo)
    (hstep : rowStep repo op = some repo') : Keyed repo' := by
  cases op with
  | upserted r =>
    cases hstep
    exact Keyed.upsert h r
  | added r =>
    simp only [rowStep] at hstep
    split at hstep
    next hsource =>
      cases hstep
      exact h.add hsource
    · cases hstep
  | deleted id =>
    cases hstep
    exact ⟨Dict.Forall.erase h.rowIds id, Dict.Unique.erase h.keys id⟩
  | patched required caller tenantId taskId req now =>
    cases hstep
    exact Keyed.patched h required caller tenantId taskId req now

theorem keyed_run {ops : List RowOperation} {repo repo' : Repository} (h : Keyed repo)
    (hrun : run rowStep repo ops = some repo') : Keyed repo' := by
  induction ops generalizing repo with
  | nil =>
    cases hrun
    exact h
  | cons op ops ih =>
    obtain ⟨next, hstep, hrest⟩ := run_cons_eq_some.mp hrun
    exact ih (keyed_rowStep h hstep) hrest

theorem keyed_empty : Keyed Dict.empty where
  rowIds k r h := by cases h
  keys k k' a b key ha := by cases ha

/-! ## All or nothing -/

/-- Refused, with the store as it was; or done, with one row changed, and of its data what the
request names. A refusal is a 400 or a 404: an exception that no route catches is not among them. -/
def Atomic (repo : Repository) (tenantId taskId : String) (req : Routes.TaskPatchRequest)
    (now : Datetime) (outcome : Except HTTPException Routes.TaskOut × Repository) : Prop :=
  (∃ e, outcome.1 = .error e ∧ (e.statusCode = 400 ∨ e.statusCode = 404) ∧ outcome.2 = repo) ∨
  ∃ task data summary, IsTask repo tenantId taskId task ∧
    (∀ key, data.get? key = patchedField req key (task.data.get? key)) ∧
    outcome.1 = .ok (.fromResource { task with data, summary, updatedAt := now }) ∧
    outcome.2 = repo.set taskId { task with data, summary, updatedAt := now }

/-- If the request comes to a task, its title is a text. -/
def Patchable (repo : Repository) (tenantId taskId : String) (req : Routes.TaskPatchRequest) :
    Prop :=
  ∀ task, IsTask repo tenantId taskId task → Valid req → TextTitle req task

/-- **All or nothing.** In every store that is reached, a caller without access changes nothing, and
for any other the PATCH is atomic exactly where the title is a text. The condition is on the request
and the stored row; a request that is invalid or finds no task meets it in any case.

The runs are those of everything that writes rows. A stored title that is no text is what the
condition excludes: the row is written before it is found that its summary has no text. -/
theorem patch_atomic_iff {ops : List RowOperation} {repo : Repository}
    (hrun : run rowStep Dict.empty ops = some repo) (required : Bool) (caller : Option User)
    (tenantId taskId : String) (req : Routes.TaskPatchRequest) (now : Datetime) :
    (∀ e, assertTenantAccess required caller tenantId = .error e →
      patchCrmTask required caller repo tenantId taskId req now = (.error e, repo)) ∧
    (∀ u, assertTenantAccess required caller tenantId = .ok u →
      (Atomic repo tenantId taskId req now
          (patchCrmTask required caller repo tenantId taskId req now) ↔
        Patchable repo tenantId taskId req)) := by
  have hK := keyed_run keyed_empty hrun
  refine ⟨fun e => patchCrmTask_of_denied, fun u haccess => ⟨?_, fun hpatchable => ?_⟩⟩
  · intro hatomic task htask hvalid
    by_contra htext
    have hanswer := patchCrmTask_of_no_text haccess now htask hvalid htext
    rcases hatomic with ⟨e, he, hcode, -⟩ | ⟨_, _, _, -, -, hok, -⟩
    · cases hanswer.symm.trans he
      rcases hcode with hcode | hcode <;> cases hcode
    · cases hanswer.symm.trans hok
  · by_cases hnone : ∀ task, ¬ IsTask repo tenantId taskId task
    · rw [patchCrmTask_of_no_task haccess hnone]
      exact .inl ⟨_, rfl, .inr rfl, rfl⟩
    simp only [not_forall, not_not] at hnone
    obtain ⟨task, htask⟩ := hnone
    by_cases hvalid : Valid req
    · obtain ⟨summary, hpatch⟩ :=
        patchCrmTask_of_text haccess now htask hvalid (hpatchable task htask hvalid)
      have hid : task.id = taskId := hK.rowIds _ _ htask.stored
      have hrow : repo.get? task.id = some task := by rw [hid, htask.stored]
      have hupsert := hK.upsert_stored
        (r := { task with data := edited task.data req, summary, updatedAt := now }) hrow rfl
      rw [hupsert] at hpatch
      refine .inr ⟨task, edited task.data req, summary, htask, get?_edited task.data req, ?_, ?_⟩
      · rw [hpatch]
      · rw [hpatch, ← hid]
    · obtain ⟨detail, hpatch⟩ := patchCrmTask_of_not_valid haccess now htask hvalid
      rw [hpatch]
      exact .inl ⟨_, rfl, .inl rfl, rfl⟩

/-- A task as `POST .../resources` stores it. -/
def manualTask (title : Json) : Resource where
  id := "t1"
  tenantId := "acme"
  kind := "task"
  data := (Dict.empty.set "title" title).set "status" (.str "open")
  createdAt := 0
  updatedAt := 0

/-- The request that closes a task. -/
def closing : Routes.TaskPatchRequest := { status := some "done" }

/-- A title that is a text, in a store that an upsert has reached. -/
theorem patch_atomic_manualTask :
    Atomic (Repository.upsert Dict.empty (manualTask (.str "call"))) "acme" "t1" closing 1
      (patchCrmTask false none (Repository.upsert Dict.empty (manualTask (.str "call"))) "acme" "t1"
        closing 1) := by
  have hrun : run rowStep Dict.empty [.upserted (manualTask (.str "call"))] =
      some (Repository.upsert Dict.empty (manualTask (.str "call"))) := rfl
  refine ((patch_atomic_iff hrun false none "acme" "t1" closing 1).2 none rfl).mpr ?_
  rintro task ⟨hget, -⟩ -
  cases hget
  exact .inr ⟨"call", rfl⟩

/-- A title that is a list makes an error of a PATCH that was stored. -/
theorem not_patch_atomic : ¬ ∀ (ops : List RowOperation) (repo : Repository),
    run rowStep Dict.empty ops = some repo → ∀ (required : Bool) (caller : Option User)
      (tenantId taskId : String) (req : Routes.TaskPatchRequest) (now : Datetime) (u : Option User),
        assertTenantAccess required caller tenantId = .ok u →
          Atomic repo tenantId taskId req now
            (patchCrmTask required caller repo tenantId taskId req now) := by
  intro h
  have hatomic := h [.upserted (manualTask (.arr [.str "call", .str "ana"]))] _ rfl false none "acme"
    "t1" closing 1 none rfl
  have hanswer : (patchCrmTask false none
      (Repository.upsert Dict.empty (manualTask (.arr [.str "call", .str "ana"]))) "acme" "t1" closing
      1).1 = .error ⟨500, "Internal Server Error"⟩ := rfl
  rcases hatomic with ⟨e, he, hcode, -⟩ | ⟨_, _, _, -, -, hok, -⟩
  · cases hanswer.symm.trans he
    rcases hcode with hcode | hcode <;> cases hcode
  · cases hanswer.symm.trans hok

end Wapsell.Api.TaskPatch
