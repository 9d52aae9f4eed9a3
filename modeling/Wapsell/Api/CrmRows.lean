import Wapsell.Api.Routes
import Wapsell.Crm.Reapply

/-!
# The rows of the CRM over whole runs

The recorder, the extractor and the task routes of `services/api/main.py`
on one in-memory store. A run of them keeps the identities of contacts,
activities and tasks apart, and can repeat any of its applications, as long
as each application is settled: the extractor's own lookups are not enough
for that. A task that was closed or renamed is written a second time, and
so is every stage.

The identity of a row is tenant, kind and external id, and nothing in
the store keeps it: the writers look a row up before they write one. So
an invariant of the store alone would not do, and what is carried along
is that every row is where its writer would look for it. A settled
application is one after which all lookups find what they wrote.

**What this does not establish.** Two writers at once; here each
operation is one step. The Postgres table has a unique index of its own,
and is another adapter.
-/

namespace Wapsell.Api

open Lib Py Resources Crm

/-- One operation on the rows of the CRM. -/
inductive CrmOperation
  | recorded (call : Call)
  | applied (tenantId contactId : String) (result : ExtractionResult) (draw : ApplyDraw)
  | patched (tenantId taskId : String) (req : Routes.TaskPatchRequest) (now : Datetime)
  | deleted (tenantId taskId : String)

/-- What `data.get("title", summary)[:200]` puts in place of the summary. A list has a slice too and
is stored, here as its text; anything else raises. -/
def storedSummary (data : Dict String Json) (summary : String) : Except HTTPException String :=
  match data.getD "title" (.str summary) with
  | .str title => .ok (take 200 title)
  | .arr items => .ok (Json.arr (items.take 200)).dumps
  | _ => Routes.orInternalError (.error .typeError)

/-- What `patch_crm_task` stores, behind the access check. -/
def patchTask (repo : Repository) (tenantId taskId : String) (req : Routes.TaskPatchRequest)
    (now : Datetime) : Except HTTPException Repository := do
  let resource ← Routes.loadTaskResource { resources := repo } tenantId taskId
  let data ← Routes.patchedData resource.data req
  let summary ← storedSummary data resource.summary
  .ok (repo.upsert { resource with data, summary, updatedAt := now })

/-- What `delete_crm_task` leaves, behind the access check. -/
def deleteTask (repo : Repository) (tenantId taskId : String) : Except HTTPException Repository := do
  let _ ← Routes.loadTaskResource { resources := repo } tenantId taskId
  .ok (repo.delete taskId)

/-- The store behind a route: an error leaves it alone. -/
def storedOr (repo : Repository) : Except HTTPException Repository → Repository
  | .ok repo' => repo'
  | .error _ => repo

/-- One operation over the store. A uuid that is in use is not drawn. -/
def crmStep (U : Unicode) (repo : Repository) : CrmOperation → Option Repository
  | .recorded call => Crm.step U repo call
  | .applied tenantId contactId result draw =>
    if draw.Fresh repo result then some (Crm.applied U repo tenantId contactId result draw) else none
  | .patched tenantId taskId req now => some (storedOr repo (patchTask repo tenantId taskId req now))
  | .deleted tenantId taskId => some (storedOr repo (deleteTask repo tenantId taskId))

/-- Applied a second time right after the first, a result leaves every row as it is, up to the times
that are written anew. The second application draws ids of its own, so a row it should not write
would show. -/
def Reapplies (U : Unicode) (repo : Repository) : CrmOperation → Prop
  | .applied tenantId contactId result draw => ∀ repo', crmStep U repo
      (.applied tenantId contactId result draw) = some repo' → ∀ draw' repo'',
        crmStep U repo' (.applied tenantId contactId result draw') = some repo'' →
          SameRows repo' repo''
  | _ => True

/-- An application that comes to its writes is settled. -/
def Repeatable (U : Unicode) (repo : Repository) : CrmOperation → Prop
  | .applied tenantId contactId result _ =>
    Applies U repo tenantId contactId result → Settled U repo tenantId contactId result
  | _ => True

/-! ## Steps and runs -/

theorem loadTaskResource_ok {repo : Repository} {tenantId taskId : String} {r : Resource}
    (h : Routes.loadTaskResource { resources := repo } tenantId taskId = .ok r) :
    repo.get? taskId = some r := by
  unfold Routes.loadTaskResource Routes.ownedOr404 at h
  split at h
  · cases h
  next found hget =>
    split at h
    · cases h
      exact hget
    · cases h

/-- A PATCH leaves the store alone, or writes the row back with the data and the summary of the
request. -/
theorem patchTask_cases (repo : Repository) (tenantId taskId : String)
    (req : Routes.TaskPatchRequest) (now : Datetime) :
    storedOr repo (patchTask repo tenantId taskId req now) = repo ∨
    ∃ task data summary, repo.get? taskId = some task ∧ Routes.patchedData task.data req = .ok data ∧
      storedOr repo (patchTask repo tenantId taskId req now) =
        repo.upsert { task with data, summary, updatedAt := now } := by
  unfold patchTask
  cases hload : Routes.loadTaskResource { resources := repo } tenantId taskId with
  | error e => exact .inl rfl
  | ok task =>
    simp only [bind, Except.bind]
    cases hdata : Routes.patchedData task.data req with
    | error e => exact .inl rfl
    | ok data =>
      simp only
      cases storedSummary data task.summary with
      | error e => exact .inl rfl
      | ok summary => exact .inr ⟨task, data, summary, loadTaskResource_ok hload, hdata, rfl⟩

/-- A task is patched under its identity. -/
theorem rows_patchTask {repo : Repository} (h : Rows repo) (tenantId taskId : String)
    (req : Routes.TaskPatchRequest) (now : Datetime) :
    Rows (storedOr repo (patchTask repo tenantId taskId req now)) := by
  rcases patchTask_cases repo tenantId taskId req now with
    hrepo | ⟨task, data, summary, hget, -, hrepo⟩
  · rw [hrepo]
    exact h
  · have hrow : repo.get? task.id = some task := by rw [h.rowId _ _ hget, hget]
    have hsource := h.noSource _ _ hget
    rw [hrepo, upsert_of_noSource repo (r := { task with data, summary, updatedAt := now }) hsource]
    exact h.rewrite (r := { task with data, summary, updatedAt := now }) hrow rfl rfl

theorem rows_deleteTask {repo : Repository} (h : Rows repo) (tenantId taskId : String) :
    Rows (storedOr repo (deleteTask repo tenantId taskId)) := by
  unfold deleteTask
  cases Routes.loadTaskResource { resources := repo } tenantId taskId with
  | error e => exact h
  | ok task => exact h.erase taskId

/-- A settled application, or one that writes nothing. -/
theorem rows_applied {U : Unicode} {repo : Repository} (hR : Rows repo) {tenantId contactId : String}
    {result : ExtractionResult} {draw : ApplyDraw} (hF : draw.Fresh repo result)
    (h : Applies U repo tenantId contactId result → Settled U repo tenantId contactId result) :
    Rows (Crm.applied U repo tenantId contactId result draw) ∧
      ∀ draw', SameRows (Crm.applied U repo tenantId contactId result draw)
        (Crm.applied U (Crm.applied U repo tenantId contactId result draw) tenantId contactId
          result draw') := by
  by_cases hA : Applies U repo tenantId contactId result
  · exact settled_applied hR hA (h hA) hF
  · rw [applied_of_not_applies hA]
    refine ⟨hR, fun draw' => ?_⟩
    rw [applied_of_not_applies hA]
    exact .refl _

/-- **The step lemma.** A repeatable step keeps the rows in order. The recorder and the routes need
no condition; only an application of the extractor does.

The extractor is the party for which the step needs a condition; the recorder looks before it
adds. -/
theorem rows_crmStep {U : Unicode} {repo repo' : Repository} {op : CrmOperation} (hR : Rows repo)
    (hop : Repeatable U repo op) (hstep : crmStep U repo op = some repo') : Rows repo' := by
  cases op with
  | recorded call => exact hR.step hstep
  | applied tenantId contactId result draw =>
    simp only [crmStep] at hstep
    split at hstep
    next hF =>
      cases hstep
      exact (rows_applied hR hF hop).1
    · cases hstep
  | patched tenantId taskId req now =>
    cases hstep
    exact rows_patchTask hR tenantId taskId req now
  | deleted tenantId taskId =>
    cases hstep
    exact rows_deleteTask hR tenantId taskId

/-- A repeatable application can be repeated. -/
theorem reapplies_of_repeatable {U : Unicode} {repo : Repository} {op : CrmOperation}
    (hR : Rows repo) (hop : Repeatable U repo op) : Reapplies U repo op := by
  cases op with
  | applied tenantId contactId result draw =>
    intro repo' hstep draw' repo'' hstep'
    simp only [crmStep] at hstep hstep'
    split at hstep
    next hF =>
      cases hstep
      split at hstep'
      · cases hstep'
        exact (rows_applied hR hF hop).2 draw'
      · cases hstep'
    · cases hstep
  | _ => trivial

/-- **Settled applications.** In a run from the empty store whose applications are all settled, no
two contacts, activities or tasks share tenant, kind and external id in any state, and every result
can be applied again to no effect. The condition is on the result and the store before it, and is
decided before anything is written. -/
theorem identities_of_repeatable (U : Unicode) (ops : List CrmOperation)
    (h : EachStep (crmStep U) (Repeatable U) Dict.empty ops) :
    EachState (crmStep U) IdentitiesUnique Dict.empty ops ∧
      EachStep (crmStep U) (Reapplies U) Dict.empty ops := by
  have hrows := eachState_of_guarded
    (fun _ _ _ hR hop hstep => rows_crmStep hR hop hstep) Rows.empty h
  refine ⟨hrows.mono fun _ hR => hR.unique, ?_⟩
  exact EachStep.of_eachState (C := Repeatable U) (Q := Reapplies U)
    (fun _ _ hR hop => reapplies_of_repeatable hR hop) hrows h

/-- Ana writes for the first time. -/
def firstMessage : CrmOperation :=
  .recorded (.inbound "acme" "5491100" "hola" "wamid.1" (some "Ana") none ⟨0, "c1", 0, 0⟩
    ⟨0, "a1", 0, 0⟩)

/-- A call that was agreed on, and a tag. -/
def agreedCall : ExtractionResult where
  newTasks := [{ title := "Llamar" }]
  newTags := ["cuotas"]

/-- The call is written down, done, and the conversation closed. -/
def settledRun : List CrmOperation :=
  [firstMessage, .applied "acme" "c1" agreedCall ⟨1, [⟨1, "t1", 1, 1⟩], ⟨1, "s1", 1, 1⟩⟩,
    .deleted "acme" "t1"]

theorem settledRun_identities :
    EachState (crmStep Unicode.ascii) IdentitiesUnique Dict.empty settledRun ∧
      EachStep (crmStep Unicode.ascii) (Reapplies Unicode.ascii) Dict.empty settledRun := by
  refine identities_of_repeatable Unicode.ascii settledRun fun s hs => ⟨trivial, fun s' _ =>
    ⟨fun _ => ?_, fun _ _ => ⟨trivial, trivial⟩⟩⟩
  -- the store behind the first message
  have hfacts : (crmStep Unicode.ascii Dict.empty firstMessage).all (fun repo =>
      (repo.get? "c1").all (fun r => decide (r.kind ≠ TASK_KIND)) &&
        (repo.findByExternalId "acme" TASK_KIND (taskExternalId "c1" "llamar")).isNone &&
          (activeTasks repo "acme").isEmpty) = true := by
    decide
  rw [hs, Option.all_some, Bool.and_eq_true, Bool.and_eq_true, List.isEmpty_iff] at hfacts
  obtain ⟨⟨hkind, hnone⟩, hempty⟩ := hfacts
  constructor
  · rfl
  · intro r hr
    rw [hr] at hkind
    exact of_decide_eq_true hkind
  · intro task htask _ hstored
    cases List.mem_singleton.mp htask
    rw [Option.isNone_iff_eq_none] at hnone
    rw [show ({ title := "Llamar" } : ExtractedTask).key Unicode.ascii = "llamar" by decide,
      hnone] at hstored
    cases hstored
  · intro _
    rw [hempty]
    decide

/-- The buyer is qualified, and the model says so again. -/
def qualifiedTwice : List CrmOperation :=
  let result : ExtractionResult :=
    { stageTransition := some { fromStage := some "new", toStage := "qualified" } }
  [firstMessage, .applied "acme" "c1" result ⟨1, [], ⟨1, "s1", 1, 1⟩⟩,
    .applied "acme" "c1" result ⟨2, [], ⟨2, "s2", 2, 2⟩⟩]

/-- The timeline then has two rows of one identity. -/
theorem not_identities : ¬ ∀ (U : Unicode) (ops : List CrmOperation),
    EachState (crmStep U) IdentitiesUnique Dict.empty ops ∧
      EachStep (crmStep U) (Reapplies U) Dict.empty ops := by
  intro h
  have hrun : ((run (crmStep Unicode.ascii) Dict.empty qualifiedTwice).map fun repo =>
      ((repo.get? "s1").bind identity, (repo.get? "s2").bind identity)) =
        some (some ("acme", "activity", "stage:c1:qualified"),
          some ("acme", "activity", "stage:c1:qualified")) := by
    decide
  obtain ⟨repo, hrepo, hpair⟩ := Option.map_eq_some_iff.mp hrun
  rw [Prod.mk.injEq] at hpair
  obtain ⟨r, hr, hid⟩ := Option.bind_eq_some_iff.mp hpair.1
  obtain ⟨r', hr', hid'⟩ := Option.bind_eq_some_iff.mp hpair.2
  have hunique := (h Unicode.ascii qualifiedTwice).1.last hrepo
  exact absurd (hunique "s1" "s2" r r' _ hr hr' hid hid') (by decide)

end Wapsell.Api
