import Wapsell.Crm.Identities

/-!
# Applying a result twice

What the loop over `new_tasks` writes, and what it finds when it runs again:
every title it wrote or skipped is then the title of an open task, and it
finds them all as long as the tenant's tasks are no more than `list_for`
returns. A breadcrumb is found by nobody.

`Settled` gathers what the lookups must find for the first application
to write each thing once. Behind it the second application is a sequence
of lookups that all succeed, and `SameRow` allows only the two fields
that carry the clock to move.

The breadcrumb is the exception: it has no source, so nothing recognizes
it, and a second application writes a second one.
-/

namespace Wapsell.Crm

open Lib Py Resources

/-- The tenant's active tasks. -/
def activeTasks (repo : Repository) (tenantId : String) : List Resource :=
  repo.values.filter (Repository.listed tenantId (some TASK_KIND))

/-- An open task of the contact with this title key. -/
def HasOpenTask (U : Unicode) (repo : Repository) (tenantId contactId key : String) : Prop :=
  ∃ k r, repo.get? k = some r ∧ Repository.listed tenantId (some TASK_KIND) r = true ∧
    isOpenTaskOf contactId r = true ∧ titleKey? U r = some key

/-- A task of the result with a title. -/
def Titled (task : ExtractedTask) : Prop := task.cappedTitle ≠ ""

instance (task : ExtractedTask) : Decidable (Titled task) :=
  inferInstanceAs (Decidable (task.cappedTitle ≠ ""))

/-- The key of a task's title. -/
def ExtractedTask.key (U : Unicode) (task : ExtractedTask) : String :=
  taskDedupKey U task.cappedTitle

/-! ## The titles that are looked at -/

theorem mem_newestFirst {r : Resource} {rows : List Resource} :
    r ∈ Repository.newestFirst rows ↔ r ∈ rows := by
  unfold Repository.newestFirst
  exact List.mem_insertionSort _

theorem hasOpenTask_of_mem {U : Unicode} {repo : Repository} {tenantId contactId key : String}
    (h : key ∈ openTaskTitles U repo tenantId contactId) :
    HasOpenTask U repo tenantId contactId key := by
  obtain ⟨r, hr, hkey⟩ := List.mem_filterMap.mp h
  obtain ⟨hlist, hopen⟩ := List.mem_filter.mp hr
  obtain ⟨hval, hlisted⟩ := List.mem_filter.mp (mem_newestFirst.mp (mem_upTo hlist))
  obtain ⟨k, hk⟩ := Dict.mem_values_iff.mp hval
  exact ⟨k, r, hk, hlisted, hopen, hkey⟩

/-- Of up to a thousand tasks every one is looked at. -/
theorem mem_openTaskTitles {U : Unicode} {repo : Repository} {tenantId contactId key : String}
    (hfits : (activeTasks repo tenantId).length ≤ 1000)
    (h : HasOpenTask U repo tenantId contactId key) :
    key ∈ openTaskTitles U repo tenantId contactId := by
  obtain ⟨k, r, hk, hlisted, hopen, hkey⟩ := h
  refine List.mem_filterMap.mpr ⟨r, List.mem_filter.mpr ⟨?_, hopen⟩, hkey⟩
  have hall : repo.listFor tenantId (some TASK_KIND) 1000 =
      Repository.newestFirst (activeTasks repo tenantId) := by
    unfold Repository.listFor upTo
    rw [if_pos (by decide)]
    refine List.take_of_length_le ?_
    rw [Repository.newestFirst, List.length_insertionSort]
    exact hfits
  rw [hall, mem_newestFirst]
  exact List.mem_filter.mpr ⟨Dict.mem_values_iff.mpr ⟨k, hk⟩, hlisted⟩

/-! ## The loop -/

theorem taskExternalId_injective {contactId key key' : String}
    (h : taskExternalId contactId key = taskExternalId contactId key') : key = key' := by
  have h' : ("task:" ++ contactId ++ ":").toList ++ key.toList =
      ("task:" ++ contactId ++ ":").toList ++ key'.toList := by
    rw [← String.toList_append, ← String.toList_append]
    exact congrArg String.toList h
  exact String.toList_injective (List.append_cancel_left h')

/-- The row of a task is an open task of its contact, under its key. -/
theorem newTask_open (U : Unicode) (tenantId contactId : String) {task : ExtractedTask}
    (h : Titled task) (draw : Draw) :
    let r := newTask tenantId contactId task.cappedTitle (task.key U) task draw
    Repository.listed tenantId (some TASK_KIND) r = true ∧ isOpenTaskOf contactId r = true ∧
      titleKey? U r = some (task.key U) := by
  have hcontact : (newTask tenantId contactId task.cappedTitle (task.key U) task draw).data.get?
      "contact_id" = some (.str contactId) := by
    unfold newTask
    cases task.dueAt.filter (· ≠ "") <;> cases task.priority.filter (· ≠ "") <;> simp
  have hstatus : (newTask tenantId contactId task.cappedTitle (task.key U) task draw).data.get?
      "status" = some (.str "open") := by
    unfold newTask
    cases task.dueAt.filter (· ≠ "") <;> cases task.priority.filter (· ≠ "") <;> simp
  have htitle : (newTask tenantId contactId task.cappedTitle (task.key U) task draw).data.get?
      "title" = some (.str task.cappedTitle) := by
    unfold newTask
    cases task.dueAt.filter (· ≠ "") <;> cases task.priority.filter (· ≠ "") <;> simp
  refine ⟨?_, ?_, ?_⟩
  · simp [Repository.listed, newTask]
  · rw [isOpenTaskOf, Dict.getD, hcontact, Dict.getD, hstatus, Bool.and_eq_true]
    exact ⟨Json.pyEq_str_iff.mpr rfl, Json.pyEq_str_iff.mpr rfl⟩
  · rw [titleKey?, Dict.getD, htitle]
    exact if_pos h

theorem writeTask_eq (U : Unicode) (tenantId contactId : String)
    (acc : Repository × List String) (task : ExtractedTask) (draw : Draw) :
    writeTask U tenantId contactId acc task draw =
      if task.cappedTitle = "" ∨ task.key U ∈ acc.2 then acc
      else (acc.1.upsert (newTask tenantId contactId task.cappedTitle (task.key U) task draw),
        task.key U :: acc.2) := rfl

/-- A round that has no title, or knows it, writes nothing. -/
theorem writeTask_of_known {U : Unicode} {tenantId contactId : String}
    {acc : Repository × List String} {task : ExtractedTask} {draw : Draw}
    (h : Titled task → task.key U ∈ acc.2) :
    writeTask U tenantId contactId acc task draw = acc := by
  rw [writeTask_eq, if_pos]
  by_cases hblank : task.cappedTitle = ""
  · exact .inl hblank
  · exact .inr (h hblank)

/-- Any other round writes the row of the task. -/
theorem writeTask_of_not_known {U : Unicode} {tenantId contactId : String}
    {acc : Repository × List String} {task : ExtractedTask} {draw : Draw} (ht : Titled task)
    (hk : task.key U ∉ acc.2) :
    writeTask U tenantId contactId acc task draw =
      (acc.1.add (newTask tenantId contactId task.cappedTitle (task.key U) task draw),
        task.key U :: acc.2) := by
  rw [writeTask_eq, if_neg (fun h => h.elim ht hk), upsert_of_noSource _ rfl]
  rfl

/-- What rounds of the loop have done. -/
structure TasksWritten (U : Unicode) (tenantId contactId : String)
    (acc acc' : Repository × List String) (tasks : List (ExtractedTask × Draw)) : Prop where
  kept : ∀ k r, acc.1.get? k = some r → acc'.1.get? k = some r
  free : ∀ k, acc.1.get? k = none → (∀ t ∈ tasks, t.2.id ≠ k) → acc'.1.get? k = none
  grows : ∀ key ∈ acc.2, key ∈ acc'.2
  known : ∀ t ∈ tasks, Titled t.1 → t.1.key U ∈ acc'.2
  fresh : ∀ key ∈ acc'.2, key ∈ acc.2 ∨
    (∃ t ∈ tasks, Titled t.1 ∧ t.1.key U = key) ∧ HasOpenTask U acc'.1 tenantId contactId key
  absent : ∀ key, key ∉ acc'.2 →
    acc.1.findByExternalId tenantId TASK_KIND (taskExternalId contactId key) = none →
      acc'.1.findByExternalId tenantId TASK_KIND (taskExternalId contactId key) = none
  few : (activeTasks acc'.1 tenantId).length ≤ (activeTasks acc.1 tenantId).length + tasks.length
  others : ∀ t k e, k ≠ TASK_KIND →
    acc'.1.findByExternalId t k e = acc.1.findByExternalId t k e
  rowIds : RowIds acc.1 → RowIds acc'.1
  rows : (∀ key ∈ acc'.2, key ∉ acc.2 →
    acc.1.findByExternalId tenantId TASK_KIND (taskExternalId contactId key) = none) →
      Rows acc.1 → Rows acc'.1

theorem HasOpenTask.mono {U : Unicode} {repo repo' : Repository} {tenantId contactId key : String}
    (hkept : ∀ k r, repo.get? k = some r → repo'.get? k = some r)
    (h : HasOpenTask U repo tenantId contactId key) :
    HasOpenTask U repo' tenantId contactId key := by
  obtain ⟨k, r, hk, hr⟩ := h
  exact ⟨k, r, hkept k r hk, hr⟩

section Rounds

variable {U : Unicode} {tenantId contactId : String} {acc acc₁ acc₂ : Repository × List String}

/-- Rounds that write nothing. -/
theorem TasksWritten.refl {tasks : List (ExtractedTask × Draw)}
    (h : ∀ t ∈ tasks, Titled t.1 → t.1.key U ∈ acc.2) :
    TasksWritten U tenantId contactId acc acc tasks where
  kept _ _ h := h
  free _ h _ := h
  grows _ h := h
  known := h
  fresh _ h := .inl h
  absent _ _ h := h
  few := Nat.le_add_right _ _
  others _ _ _ _ := rfl
  rowIds h := h
  rows _ h := h

/-- A round that writes a row. -/
theorem tasksWritten_add {task : ExtractedTask} {draw : Draw} (ht : Titled task)
    (hk : task.key U ∉ acc.2) (hdraw : acc.1.get? draw.id = none) :
    TasksWritten U tenantId contactId acc
      (acc.1.add (newTask tenantId contactId task.cappedTitle (task.key U) task draw),
        task.key U :: acc.2) [(task, draw)] := by
  obtain ⟨hlisted, hopen, hkey⟩ := newTask_open U tenantId contactId ht draw
  generalize hrow : newTask tenantId contactId task.cappedTitle (task.key U) task draw = row
  rw [hrow] at hlisted hopen hkey
  have hfree : acc.1.get? row.id = none := by
    rw [← hrow]
    exact hdraw
  have hfound : row.tenantId = tenantId ∧ row.kind = TASK_KIND ∧
      row.externalId = some (taskExternalId contactId (task.key U)) ∧ row.sourceId = none := by
    rw [← hrow]
    exact ⟨rfl, rfl, rfl, rfl⟩
  constructor
  · intro k r h
    refine (Dict.get?_set_ne _ _ ?_).trans h
    rintro rfl
    rw [hfree] at h
    cases h
  · intro k hnone hne
    refine (Dict.get?_set_ne _ _ ?_).trans hnone
    rw [← hrow]
    exact hne _ List.mem_cons_self
  · exact fun key h => List.mem_cons_of_mem _ h
  · intro t hmem _
    cases List.mem_singleton.mp hmem
    exact List.mem_cons_self
  · intro key hmem
    rcases List.mem_cons.mp hmem with rfl | hold
    · refine .inr ⟨⟨_, List.mem_cons_self, ht, rfl⟩, row.id, row, ?_, hlisted, hopen, hkey⟩
      exact Dict.get?_set_self _ _ _
    · exact .inl hold
  · intro key hnot hnone
    rw [List.mem_cons, not_or] at hnot
    rw [findByExternalId_add hfree, hnone, Option.none_or, if_neg]
    rintro ⟨-, -, he⟩
    rw [hfound.2.2.1] at he
    exact hnot.1 (taskExternalId_injective (Option.some.inj he)).symm
  · rw [activeTasks, Repository.add, Dict.values_set_of_none row hfree, List.filter_append,
      List.filter_cons_of_pos hlisted, List.length_append]
    exact Nat.le_refl _
  · intro t k e hk
    exact findByExternalId_add_ne hfree (hfound.2.1 ▸ Ne.symm hk)
  · exact fun hI => Dict.Forall.set hI rfl
  · intro hnone hR
    refine hR.add hfound.2.2.2 hfound.2.2.1 ?_
    rw [hfound.1, hfound.2.1]
    exact hnone _ List.mem_cons_self hk

/-- One round after others. -/
theorem TasksWritten.trans {tasks rest : List (ExtractedTask × Draw)}
    (h : TasksWritten U tenantId contactId acc acc₁ tasks)
    (h' : TasksWritten U tenantId contactId acc₁ acc₂ rest) :
    TasksWritten U tenantId contactId acc acc₂ (tasks ++ rest) where
  kept k r hk := h'.kept k r (h.kept k r hk)
  free k hk hne := h'.free k
    (h.free k hk fun t ht => hne t (List.mem_append_left _ ht))
    fun t ht => hne t (List.mem_append_right _ ht)
  grows key hkey := h'.grows key (h.grows key hkey)
  known t ht htitled := by
    rcases List.mem_append.mp ht with hleft | hright
    · exact h'.grows _ (h.known t hleft htitled)
    · exact h'.known t hright htitled
  fresh key hkey := by
    rcases h'.fresh key hkey with hmid | ⟨⟨t, ht, hkt⟩, hopen⟩
    · rcases h.fresh key hmid with hold | ⟨⟨t, ht, hkt⟩, hopen⟩
      · exact .inl hold
      · exact .inr ⟨⟨t, List.mem_append_left _ ht, hkt⟩, hopen.mono h'.kept⟩
    · exact .inr ⟨⟨t, List.mem_append_right _ ht, hkt⟩, hopen⟩
  absent key hnot hnone :=
    h'.absent key hnot (h.absent key (fun hmid => hnot (h'.grows key hmid)) hnone)
  few := by
    have hfirst := h.few
    have hsecond := h'.few
    rw [List.length_append]
    omega
  others t k e hk := (h'.others t k e hk).trans (h.others t k e hk)
  rowIds hI := h'.rowIds (h.rowIds hI)
  rows hnone hR := by
    refine h'.rows (fun key hkey hmid => ?_) (h.rows (fun key hkey => ?_) hR)
    · refine h.absent key hmid (hnone key hkey fun hold => hmid (h.grows key hold))
    · exact hnone key (h'.grows key hkey)

end Rounds

/-- The loop. -/
theorem tasksWritten_loop (U : Unicode) (tenantId contactId : String)
    {tasks : List (ExtractedTask × Draw)} (acc : Repository × List String)
    (hnd : (tasks.map fun t => t.2.id).Nodup) (hfree : ∀ t ∈ tasks, acc.1.get? t.2.id = none) :
    TasksWritten U tenantId contactId acc (writeTaskLoop U tenantId contactId acc tasks) tasks := by
  induction tasks generalizing acc with
  | nil => exact .refl fun t ht => absurd ht List.not_mem_nil
  | cons t rest ih =>
    obtain ⟨task, draw⟩ := t
    obtain ⟨hnot, hnd'⟩ := List.nodup_cons.mp hnd
    have hround : TasksWritten U tenantId contactId acc
        (writeTask U tenantId contactId acc task draw) [(task, draw)] := by
      by_cases hknown : Titled task → task.key U ∈ acc.2
      · rw [writeTask_of_known hknown]
        refine .refl fun t ht => ?_
        cases List.mem_singleton.mp ht
        exact hknown
      · obtain ⟨ht, hk⟩ := Classical.not_imp.mp hknown
        rw [writeTask_of_not_known ht hk]
        exact tasksWritten_add ht hk (hfree _ List.mem_cons_self)
    rw [writeTaskLoop_cons]
    refine hround.trans (ih _ hnd' fun t ht => ?_)
    refine hround.free _ (hfree t (List.mem_cons_of_mem _ ht)) fun t' ht' hid => ?_
    cases List.mem_singleton.mp ht'
    exact hnot (List.mem_map.mpr ⟨t, ht, hid.symm⟩)

/-- Titles that are all known write nothing. -/
theorem writeTaskLoop_of_known {U : Unicode} {tenantId contactId : String}
    {tasks : List (ExtractedTask × Draw)} {acc : Repository × List String}
    (h : ∀ t ∈ tasks, Titled t.1 → t.1.key U ∈ acc.2) :
    writeTaskLoop U tenantId contactId acc tasks = acc := by
  induction tasks with
  | nil => rfl
  | cons t rest ih =>
    rw [writeTaskLoop_cons, writeTask_of_known (h t List.mem_cons_self)]
    exact ih fun t' ht' => h t' (List.mem_cons_of_mem _ ht')

/-! ## The application -/

/-- The ids an application draws. -/
def ApplyDraw.ids (draw : ApplyDraw) : List String := draw.tasks.map Draw.id ++ [draw.stage.id]

/-- An id for each task and one for the breadcrumb, all different and none of them in the store.
Uuids are, up to chance. -/
def ApplyDraw.Fresh (draw : ApplyDraw) (repo : Repository) (result : ExtractionResult) : Prop :=
  draw.tasks.length = result.newTasks.length ∧ draw.ids.Nodup ∧
    ∀ id ∈ draw.ids, repo.get? id = none

instance (draw : ApplyDraw) (repo : Repository) (result : ExtractionResult) :
    Decidable (draw.Fresh repo result) :=
  inferInstanceAs (Decidable (_ ∧ _ ∧ _))

/-- The store behind an application: the caller logs what it raises. -/
def applied (U : Unicode) (repo : Repository) (tenantId contactId : String)
    (result : ExtractionResult) (draw : ApplyDraw) : Repository :=
  match apply U repo tenantId contactId result draw with
  | .ok repo' => repo'
  | .error _ => repo

/-- The application comes to its writes: there is something to write, a contact of the tenant to
write it to, and tags that can be put in a set. -/
def Applies (U : Unicode) (repo : Repository) (tenantId contactId : String)
    (result : ExtractionResult) : Prop :=
  result.isEmpty = false ∧ ∃ contact, repo.get? contactId = some contact ∧
    contact.tenantId = tenantId ∧ ∃ data changed, patchedContact U contact.data result =
      .ok (data, changed)

/-- What the extractor's three lookups must find for an application that can be repeated: no stage
to leave a breadcrumb of, each title whose external id is stored among the open ones, and no more
tasks than `list_for` returns. -/
structure Settled (U : Unicode) (repo : Repository) (tenantId contactId : String)
    (result : ExtractionResult) : Prop where
  noStage : result.stageTransition = none
  notTask : ∀ r, repo.get? contactId = some r → r.kind ≠ TASK_KIND
  stillOpen : ∀ task ∈ result.newTasks, Titled task →
    (repo.findByExternalId tenantId TASK_KIND (taskExternalId contactId (task.key U))).isSome →
      task.key U ∈ openTaskTitles U repo tenantId contactId
  fits : (∃ task ∈ result.newTasks, Titled task) →
    (activeTasks repo tenantId).length + result.newTasks.length ≤ 1000

/-- The row is what it was, but for `updated_at` and `data.at`. Both are clock readings of the write
and say nothing about the contact. -/
structure SameRow (r r' : Resource) : Prop where
  id : r'.id = r.id
  tenantId : r'.tenantId = r.tenantId
  sourceId : r'.sourceId = r.sourceId
  kind : r'.kind = r.kind
  externalId : r'.externalId = r.externalId
  summary : r'.summary = r.summary
  status : r'.status = r.status
  createdAt : r'.createdAt = r.createdAt
  data : ∀ key, key ≠ "at" → Option.Rel Unchanged (r.data.get? key) (r'.data.get? key)

/-- No row came or went, and each is what it was. -/
def SameRows (repo repo' : Repository) : Prop :=
  ∀ id, Option.Rel SameRow (repo.get? id) (repo'.get? id)

theorem SameRow.refl (r : Resource) : SameRow r r where
  id := rfl
  tenantId := rfl
  sourceId := rfl
  kind := rfl
  externalId := rfl
  summary := rfl
  status := rfl
  createdAt := rfl
  data key _ := by
    cases r.data.get? key with
    | none => exact .none
    | some value => exact .some (.inl rfl)

theorem SameRows.refl (repo : Repository) : SameRows repo repo := by
  intro id
  cases repo.get? id with
  | none => exact .none
  | some r => exact .some (.refl r)

theorem SameRows.rewrite {repo : Repository} {r r' : Resource} (hrow : repo.get? r.id = some r)
    (h : SameRow r r') : SameRows repo (repo.set r'.id r') := by
  intro id
  rw [Dict.get?_set, h.id]
  split
  · next hid =>
    rw [← hid, hrow]
    exact .some h
  · exact SameRows.refl repo id

/-- A contact that is patched again. -/
theorem Patched.again {U : Unicode} {result : ExtractionResult} {contact r r' : Resource}
    (h : Patched U result contact r) (h' : Patched U result r r') : SameRow r r' where
  id := h'.id
  tenantId := h'.tenantId
  sourceId := h'.sourceId
  kind := h'.kind
  externalId := h'.externalId
  summary := h'.summary
  status := h'.status
  createdAt := h'.createdAt
  data key hkey := by
    obtain ⟨data, changed, hok, hdata⟩ := h.data
    obtain ⟨data', changed', hok', hdata'⟩ := h'.data
    cases changed' with
    | false =>
      rw [hdata']
      exact (SameRow.refl r).data key hkey
    | true =>
      cases changed with
      | false =>
        -- a patch that changed nothing does so again
        rw [hdata, if_neg Bool.false_ne_true, hok] at hok'
        cases hok'
      | true =>
        rw [if_pos rfl] at hdata hdata'
        rw [hdata', get?_patchedContact hok', hdata, get?_patchedContact hok]
        exact patchedKey_again U result key _

/-- A row that is no task moves no task, written back or not. -/
theorem activeTasks_rewrite {repo repo' : Repository} {r old : Resource}
    (hold : repo.get? r.id = some old) (hne : old.kind ≠ TASK_KIND) (hkind : r.kind = old.kind)
    (hwrite : repo' = repo ∨ repo' = repo.set r.id r) (tenantId : String) :
    activeTasks repo' tenantId = activeTasks repo tenantId := by
  rcases hwrite with rfl | rfl
  · rfl
  · refine Dict.filter_values_set hold ?_ ?_
    · simp [Repository.listed, Ne.symm hne]
    · simp [Repository.listed, hkind, Ne.symm hne]

theorem findByExternalId_rewrite_ne {repo repo' : Repository} {r old : Resource} {k : String}
    (hold : repo.get? r.id = some old) (hne : old.kind ≠ k) (hkind : r.kind = old.kind)
    (hwrite : repo' = repo ∨ repo' = repo.set r.id r) (t e : String) :
    repo'.findByExternalId t k e = repo.findByExternalId t k e := by
  rcases hwrite with rfl | rfl
  · rfl
  · rw [Repository.findByExternalId, Repository.findByExternalId, ← List.head?_filter,
      ← List.head?_filter, Dict.filter_values_set hold]
    · simp [hne]
    · simp [hkind, hne]

theorem openTaskTitles_congr {U : Unicode} {repo repo' : Repository} {tenantId : String}
    (h : activeTasks repo tenantId = activeTasks repo' tenantId) (contactId : String) :
    openTaskTitles U repo tenantId contactId = openTaskTitles U repo' tenantId contactId := by
  have hlist : repo.listFor tenantId (some TASK_KIND) 1000 =
      repo'.listFor tenantId (some TASK_KIND) 1000 :=
    congrArg (fun rows => upTo 1000 (Repository.newestFirst rows)) h
  rw [openTaskTitles, openTaskTitles, hlist]

/-- Where there is nothing to write, no contact, or tags that raise, nothing is written. -/
theorem applied_of_not_applies {U : Unicode} {repo : Repository} {tenantId contactId : String}
    {result : ExtractionResult} (h : ¬ Applies U repo tenantId contactId result)
    (draw : ApplyDraw) : applied U repo tenantId contactId result draw = repo := by
  unfold applied apply
  by_cases hempty : result.isEmpty = true
  · rw [if_pos hempty]
  rw [if_neg hempty]
  cases hget : repo.get contactId with
  | none => rfl
  | some contact =>
    simp only
    by_cases ht : contact.tenantId ≠ tenantId
    · rw [if_pos ht]
    rw [if_neg ht]
    cases hpatch : patchedContact U contact.data result with
    | ok pair =>
      refine absurd ⟨?_, contact, hget, not_not.mp ht, pair.1, pair.2, hpatch⟩ h
      exact Bool.not_eq_true _ ▸ hempty
    | error e =>
      unfold patchContact
      rw [hpatch]
      rfl

/-- Where it comes to its writes, the contact is patched, the tasks are written behind it, and the
breadcrumb is left. -/
theorem applied_of_applies {U : Unicode} {repo : Repository} {tenantId contactId : String}
    {result : ExtractionResult} (hempty : result.isEmpty = false) {contact : Resource}
    (hget : repo.get? contactId = some contact) (ht : contact.tenantId = tenantId)
    {repo₁ : Repository} {draw : ApplyDraw}
    (hpatch : patchContact U repo contact result draw.now = .ok repo₁) :
    applied U repo tenantId contactId result draw =
      maybeWriteStageActivity (writeTaskLoop U tenantId contactId
        (repo₁, openTaskTitles U repo₁ tenantId contactId) (result.newTasks.zip draw.tasks)).1
        tenantId contactId result.stageTransition draw.stage := by
  have hloop : writeTasks U repo₁ tenantId contactId (result.newTasks.zip draw.tasks) =
      (writeTaskLoop U tenantId contactId (repo₁, openTaskTitles U repo₁ tenantId contactId)
        (result.newTasks.zip draw.tasks)).1 := by
    unfold writeTasks
    split
    · next hnil => rw [hnil, writeTaskLoop_nil]
    · rfl
  unfold applied apply
  rw [if_neg (by rw [hempty]; exact Bool.false_ne_true), show repo.get contactId = some contact
    from hget]
  simp only
  rw [if_neg (not_not.mpr ht), hpatch, ← hloop]
  rfl

/-- The draws of the tasks are draws of the application. -/
theorem ApplyDraw.Fresh.zip {draw : ApplyDraw} {repo : Repository} {result : ExtractionResult}
    (h : draw.Fresh repo result) :
    ((result.newTasks.zip draw.tasks).map fun t => t.2.id).Nodup ∧
      ∀ t ∈ result.newTasks.zip draw.tasks, repo.get? t.2.id = none := by
  have hmap : ((result.newTasks.zip draw.tasks).map fun t => t.2.id) = draw.tasks.map Draw.id := by
    rw [show (fun t : ExtractedTask × Draw => t.2.id) = Draw.id ∘ Prod.snd from rfl, ← List.map_map,
      List.map_snd_zip h.1.le]
  refine ⟨hmap ▸ (List.nodup_append.mp h.2.1).1, fun t ht => h.2.2 _ ?_⟩
  exact List.mem_append_left _ (List.mem_map.mpr ⟨t.2, (List.of_mem_zip ht).2, rfl⟩)

/-- The breadcrumb's id is none of the tasks'. -/
theorem ApplyDraw.Fresh.stage_ne {draw : ApplyDraw} {repo : Repository} {result : ExtractionResult}
    (h : draw.Fresh repo result) :
    ∀ t ∈ result.newTasks.zip draw.tasks, t.2.id ≠ draw.stage.id := fun t ht =>
  (List.nodup_append.mp h.2.1).2.2 t.2.id (List.mem_map.mpr ⟨t.2, (List.of_mem_zip ht).2, rfl⟩)
    draw.stage.id List.mem_cons_self

/-- Each task of the result is drawn for. -/
theorem mem_zip_of_mem {α β : Type*} {x : α} : ∀ {xs : List α} {ys : List β},
    ys.length = xs.length → x ∈ xs → ∃ y, (x, y) ∈ xs.zip ys
  | a :: as, [], hlen, _ => by cases hlen
  | a :: as, b :: bs, hlen, hx => by
    rcases List.mem_cons.mp hx with rfl | hrest
    · exact ⟨b, List.mem_cons_self⟩
    · obtain ⟨y, hy⟩ := mem_zip_of_mem (Nat.succ.inj hlen) hrest
      exact ⟨y, List.mem_cons_of_mem _ hy⟩

/-- **One settled application.** It keeps the identities apart, and applied again it leaves every
row as it is.

The second application may draw other ids than the first: nothing is written under them. -/
theorem settled_applied {U : Unicode} {repo : Repository} {tenantId contactId : String}
    {result : ExtractionResult} {draw : ApplyDraw} (hR : Rows repo)
    (hA : Applies U repo tenantId contactId result)
    (hS : Settled U repo tenantId contactId result) (hF : draw.Fresh repo result) :
    Rows (applied U repo tenantId contactId result draw) ∧
      ∀ draw', SameRows (applied U repo tenantId contactId result draw)
        (applied U (applied U repo tenantId contactId result draw) tenantId contactId result
          draw') := by
  obtain ⟨hempty, contact, hget, ht, data, changed, hdata⟩ := hA
  have hid : contact.id = contactId := hR.rowId _ _ hget
  subst hid
  have hkind := hS.notTask contact hget
  have hsource := hR.noSource _ _ hget
  obtain ⟨repo₁, hpatch⟩ := exists_patchContact hdata repo draw.now
  obtain ⟨patched, hp, hget₁, hwrite⟩ := patchContact_ok hsource hget hpatch
  have hactive := activeTasks_rewrite (hp.id ▸ hget) hkind hp.kind hwrite tenantId
  have hfind := findByExternalId_rewrite_ne (hp.id ▸ hget) hkind hp.kind hwrite tenantId
  have htitles := openTaskTitles_congr (U := U) hactive contact.id
  have hfree₁ : ∀ t ∈ result.newTasks.zip draw.tasks, repo₁.get? t.2.id = none := by
    intro t hmem
    have hnone := hF.zip.2 t hmem
    rcases hwrite with rfl | rfl
    · exact hnone
    · refine (Dict.get?_set_ne _ _ fun e => ?_).trans hnone
      rw [hp.id] at e
      rw [← e, hget] at hnone
      cases hnone
  rw [applied_of_applies hempty hget ht hpatch, hS.noStage]
  generalize hloop : writeTaskLoop U tenantId contact.id
    (repo₁, openTaskTitles U repo₁ tenantId contact.id) (result.newTasks.zip draw.tasks) = acc
  have hW := tasksWritten_loop U tenantId contact.id
    (repo₁, openTaskTitles U repo₁ tenantId contact.id) hF.zip.1 hfree₁
  rw [hloop] at hW
  refine ⟨?_, fun draw' => ?_⟩
  · refine hW.rows (fun key hkey hnot => ?_) (hR.patchContact hget hpatch)
    -- a title that was not open is stored under no external id
    obtain ⟨⟨t, hmem, htitled, rfl⟩, -⟩ := (hW.fresh key hkey).resolve_left hnot
    rw [hfind]
    refine Option.not_isSome_iff_eq_none.mp fun hstored => hnot ?_
    rw [htitles]
    exact hS.stillOpen t.1 (List.of_mem_zip hmem).1 htitled hstored
  · show SameRows acc.1 (applied U acc.1 tenantId contact.id result draw')
    have hget₂ : acc.1.get? contact.id = some patched := hW.kept _ _ hget₁
    by_cases hA' : Applies U acc.1 tenantId contact.id result
    · obtain ⟨-, contact', hget', -, data', changed', hdata'⟩ := hA'
      rw [hget₂] at hget'
      cases hget'
      obtain ⟨repo₂, hpatch'⟩ := exists_patchContact hdata' acc.1 draw'.now
      have hgetp : acc.1.get? patched.id = some patched := by rw [hp.id, hget₂]
      obtain ⟨patched', hp', -, hwrite'⟩ :=
        patchContact_ok (hp.sourceId.trans hsource) hgetp hpatch'
      have hkind' : patched.kind ≠ TASK_KIND := by rw [hp.kind]; exact hkind
      have hactive' := activeTasks_rewrite (hp'.id ▸ hgetp) hkind' hp'.kind hwrite' tenantId
      rw [applied_of_applies hempty hget₂ (hp.tenantId.trans ht) hpatch', hS.noStage,
        writeTaskLoop_of_known]
      · show SameRows acc.1 repo₂
        rcases hwrite' with rfl | rfl
        · exact .refl _
        · exact .rewrite hgetp (hp.again hp')
      · intro t hmem htitled
        have htask := (List.of_mem_zip hmem).1
        have hfits := hS.fits ⟨t.1, htask, htitled⟩
        have hfew := hW.few
        rw [List.length_zip, hF.1, Nat.min_self] at hfew
        rw [openTaskTitles_congr hactive']
        refine mem_openTaskTitles ?_ ?_
        · refine hfew.trans ?_
          rw [hactive]
          exact hfits
        · obtain ⟨d, hd⟩ := mem_zip_of_mem hF.1 htask
          rcases hW.fresh _ (hW.known _ hd htitled) with hold | ⟨-, hopen⟩
          · exact (hasOpenTask_of_mem hold).mono hW.kept
          · exact hopen
    · rw [applied_of_not_applies hA']
      exact .refl _

end Wapsell.Crm
