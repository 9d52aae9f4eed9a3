import Wapsell.Crm.Frame

/-!
# One open task for each title

Two open tasks of a contact should not share the key of their title. A task
is written under a key that no open task had, as far as the extractor has
looked: it takes the keys from the newest thousand tasks of the tenant, and
remembers those it has written since. An application therefore keeps the
titles apart exactly when each title that is open is among those it has
looked at.

The thousand is the limit that the extractor passes to `list_for`. A
tenant with more tasks than that can get a second open task under one
title, and the condition of the theorem names the titles for which it
happens.
-/

namespace Wapsell.Crm

open Lib Py Resources

/-- The contact a task names. -/
def contactIdOf (r : Resource) : Option String :=
  match r.data.getD "contact_id" .null with
  | .str contactId => some contactId
  | _ => none

/-- Whose open task this is, and the key of its title. -/
def openTitle (U : Unicode) (r : Resource) : Option (String × String × String) :=
  if r.kind = TASK_KIND ∧ (r.data.getD "status" .null).pyEq (.str "open") then
    (contactIdOf r).map fun contactId =>
      (r.tenantId, contactId, taskDedupKey U ((r.data.getD "title" (.str "")).toStr U))
  else none

/-- No two open tasks of one contact share a title key. Closed tasks are free to, and so are the
tasks of different contacts. -/
def OpenTitlesUnique (U : Unicode) (repo : Repository) : Prop := Dict.Unique (openTitle U) repo

/-- The rows of a store that is written through `upsert`: each under its id, no two with one dedup
key. -/
structure Keyed (repo : Repository) : Prop where
  rowIds : RowIds repo
  keys : Dict.Unique Resource.key repo

/-- Where the dedup keys are unique, a row is written back in its place. -/
theorem Keyed.upsert_stored {repo : Repository} (h : Keyed repo) {r old : Resource}
    (hold : repo.get? r.id = some old) (hkey : r.key = old.key) :
    repo.upsert r = repo.set r.id r := by
  unfold Repository.upsert
  simp only
  split
  · next hsome =>
    have hnone : (repo.values.filter fun existing => decide (existing.tenantId = r.tenantId ∧
        existing.sourceId = r.sourceId ∧ existing.externalId = r.externalId ∧
          existing.id ≠ r.id)) = [] := by
      rw [List.filter_eq_nil_iff]
      intro existing hex hsame
      rw [decide_eq_true_eq] at hsame
      obtain ⟨k, hk⟩ := Dict.mem_values_iff.mp hex
      obtain ⟨e, he⟩ := Option.ne_none_iff_exists'.mp hsome.1
      obtain ⟨s, hs⟩ := Option.ne_none_iff_exists'.mp hsome.2
      have hr : r.key = some (r.tenantId, s, e) := Resource.key_eq_some.mpr ⟨rfl, hs, he⟩
      have hex' : existing.key = some (r.tenantId, s, e) :=
        Resource.key_eq_some.mpr ⟨hsame.1, hsame.2.1.trans hs, hsame.2.2.1.trans he⟩
      have hid := h.keys k r.id existing old _ hk hold hex' (hkey ▸ hr)
      exact hsame.2.2.2 ((h.rowIds k existing hk).trans hid)
    rw [hnone]
    rfl
  · rfl

/-- A row is written back under its dedup key. -/
theorem Keyed.rewrite {repo : Repository} (h : Keyed repo) {r old : Resource}
    (hold : repo.get? r.id = some old) (hkey : r.key = old.key) : Keyed (repo.set r.id r) where
  rowIds := Dict.Forall.set h.rowIds rfl
  keys := Dict.Unique.set h.keys fun x row a hx ha hr =>
    h.keys r.id x old row a hold hx (hkey ▸ hr) ha

/-- A row without a source is added. -/
theorem Keyed.add {repo : Repository} (h : Keyed repo) {r : Resource} (hsource : r.sourceId = none) :
    Keyed (repo.set r.id r) where
  rowIds := Dict.Forall.set h.rowIds rfl
  keys := Dict.Unique.set h.keys fun x row a hx ha hr => by
    obtain ⟨-, hs, -⟩ := Resource.key_eq_some.mp hr
    rw [hsource] at hs
    cases hs

/-! ## The loop -/

theorem openTitle_of_open {U : Unicode} {tenantId contactId key : String} {r : Resource}
    (hlisted : Repository.listed tenantId (some TASK_KIND) r = true)
    (hopen : isOpenTaskOf contactId r = true) (hkey : titleKey? U r = some key) :
    openTitle U r = some (tenantId, contactId, key) := by
  have hrow : r.tenantId = tenantId ∧ TASK_KIND = r.kind := by
    simp only [Repository.listed, Bool.decide_and, Bool.and_eq_true, decide_eq_true_eq] at hlisted
    refine ⟨hlisted.1, ?_⟩
    simpa using hlisted.2.2
  rw [isOpenTaskOf, Bool.and_eq_true, Json.pyEq_str_iff] at hopen
  have htitle : taskDedupKey U ((r.data.getD "title" (.str "")).toStr U) = key := by
    unfold titleKey? at hkey
    simp only at hkey
    split at hkey
    · exact Option.some.inj hkey
    · cases hkey
  rw [openTitle, if_pos ⟨hrow.2.symm, hopen.2⟩, contactIdOf, hopen.1, htitle, hrow.1]
  rfl

/-- The row of a title. -/
theorem openTitle_newTask (U : Unicode) (tenantId contactId : String) {task : ExtractedTask}
    (h : Titled task) (draw : Draw) :
    openTitle U (newTask tenantId contactId task.cappedTitle (task.key U) task draw) =
      some (tenantId, contactId, task.key U) := by
  obtain ⟨hlisted, hopen, hkey⟩ := newTask_open U tenantId contactId h draw
  exact openTitle_of_open hlisted hopen hkey

/-- Nobody has an open task of the contact under this key. -/
def NotOpen (U : Unicode) (repo : Repository) (tenantId contactId key : String) : Prop :=
  ∀ k r, repo.get? k = some r → openTitle U r ≠ some (tenantId, contactId, key)

/-- **The loop over the titles.** It keeps them apart exactly when none that is unknown is open. The
induction is on the tasks of the result, and the titles known so far grow with it. -/
theorem unique_writeTaskLoop_iff (U : Unicode) (tenantId contactId : String)
    {tasks : List (ExtractedTask × Draw)} (acc : Repository × List String)
    (hnd : (tasks.map fun t => t.2.id).Nodup) (hfree : ∀ t ∈ tasks, acc.1.get? t.2.id = none)
    (hP : OpenTitlesUnique U acc.1) :
    OpenTitlesUnique U (writeTaskLoop U tenantId contactId acc tasks).1 ↔
      ∀ t ∈ tasks, Titled t.1 → t.1.key U ∉ acc.2 →
        NotOpen U acc.1 tenantId contactId (t.1.key U) := by
  induction tasks generalizing acc with
  | nil => exact iff_of_true hP fun t ht => absurd ht List.not_mem_nil
  | cons t rest ih =>
    obtain ⟨task, draw⟩ := t
    obtain ⟨hnot, hnd'⟩ := List.nodup_cons.mp hnd
    rw [List.forall_mem_cons] at hfree
    rw [writeTaskLoop_cons, List.forall_mem_cons]
    by_cases hknown : Titled task → task.key U ∈ acc.2
    · rw [writeTask_of_known hknown, ih acc hnd' hfree.2 hP]
      exact (and_iff_right fun ht hk => absurd (hknown ht) hk).symm
    obtain ⟨ht, hk⟩ := Classical.not_imp.mp hknown
    rw [writeTask_of_not_known ht hk]
    generalize hrow : newTask tenantId contactId task.cappedTitle (task.key U) task draw = row
    have htitle : openTitle U row = some (tenantId, contactId, task.key U) :=
      hrow ▸ openTitle_newTask U tenantId contactId ht draw
    have hid : row.id = draw.id := hrow ▸ rfl
    have hfree' : ∀ t ∈ rest, (acc.1.add row).get? t.2.id = none := by
      intro t hmem
      refine (Dict.get?_set_ne _ _ fun hsame => ?_).trans (hfree.2 t hmem)
      exact hnot (List.mem_map.mpr ⟨t, hmem, hsame.symm.trans hid⟩)
    have hkept : ∀ k r, acc.1.get? k = some r → (acc.1.add row).get? k = some r := by
      intro k r hr
      refine (Dict.get?_set_ne _ _ ?_).trans hr
      rintro rfl
      rw [hid, hfree.1] at hr
      cases hr
    have hadd : OpenTitlesUnique U (acc.1.add row) ↔
        NotOpen U acc.1 tenantId contactId (task.key U) := by
      refine hP.set_iff.trans ⟨fun h k r hr => ?_, fun h k r _ hr a ha => ?_⟩
      · refine h k r ?_ hr _ htitle
        rintro rfl
        rw [hid, hfree.1] at hr
        cases hr
      · rw [htitle] at ha
        cases ha
        exact h k r hr
    by_cases hopen : NotOpen U acc.1 tenantId contactId (task.key U)
    · rw [ih _ hnd' hfree' (hadd.mpr hopen)]
      constructor
      · refine fun h => ⟨fun _ _ => hopen, fun t hmem htitled hunknown => ?_⟩
        by_cases hsame : t.1.key U = task.key U
        · rw [hsame]
          exact hopen
        · have hrest := h t hmem htitled fun hin => hunknown ((List.mem_cons.mp hin).resolve_left hsame)
          exact fun k r hr => hrest k r (hkept k r hr)
      · intro h t hmem htitled hunknown k r hr
        rw [List.mem_cons, not_or] at hunknown
        rcases Dict.get?_set_eq_some hr with ⟨-, rfl⟩ | ⟨-, hold⟩
        · rw [htitle]
          intro hsame
          exact hunknown.1 (congrArg (fun m => m.2.2) (Option.some.inj hsame)).symm
        · exact h.2 t hmem htitled hunknown.2 k r hold
    · -- the title was open, and the two rows stay
      refine iff_of_false (fun h => hopen (hadd.mp ?_)) fun h => hopen (h.1 ht hk)
      exact Dict.Unique.of_kept h (tasksWritten_loop U tenantId contactId
        (acc.1.add row, task.key U :: acc.2) hnd' hfree').kept

/-! ## Rows that are no open task -/

theorem openTitle_of_kind {U : Unicode} {r : Resource} (h : r.kind ≠ TASK_KIND) :
    openTitle U r = none := by
  unfold openTitle
  exact if_neg fun ht => h ht.1

/-- The two stores have the same open tasks. -/
def SameOpen (U : Unicode) (repo repo' : Repository) : Prop :=
  ∀ k r m, openTitle U r = some m → (repo.get? k = some r ↔ repo'.get? k = some r)

/-- A row that is no open task takes the place of none. -/
theorem SameOpen.set {U : Unicode} {repo : Repository} {r : Resource}
    (hold : ∀ old, repo.get? r.id = some old → openTitle U old = none)
    (hr : openTitle U r = none) : SameOpen U repo (repo.set r.id r) := by
  intro k row m hm
  constructor
  · intro hrow
    refine (Dict.get?_set_ne _ _ ?_).trans hrow
    rintro rfl
    rw [hold row hrow] at hm
    cases hm
  · intro hrow
    rcases Dict.get?_set_eq_some hrow with ⟨-, rfl⟩ | ⟨-, hrow⟩
    · rw [hr] at hm
      cases hm
    · exact hrow

theorem SameOpen.unique_iff {U : Unicode} {repo repo' : Repository} (h : SameOpen U repo repo') :
    OpenTitlesUnique U repo ↔ OpenTitlesUnique U repo' := by
  constructor
  · intro hP x y a b m hx hy ha hb
    exact hP x y a b m ((h x a m ha).mpr hx) ((h y b m hb).mpr hy) ha hb
  · intro hP x y a b m hx hy ha hb
    exact hP x y a b m ((h x a m ha).mp hx) ((h y b m hb).mp hy) ha hb

theorem SameOpen.notOpen_iff {U : Unicode} {repo repo' : Repository} (h : SameOpen U repo repo')
    {tenantId contactId key : String} :
    NotOpen U repo tenantId contactId key ↔ NotOpen U repo' tenantId contactId key := by
  refine forall_congr' fun k => forall_congr' fun r => ?_
  by_cases hopen : openTitle U r = some (tenantId, contactId, key)
  · rw [h k r _ hopen]
  · exact iff_of_true (fun _ => hopen) fun _ => hopen

/-! ## The application -/

/-- The loop adds rows without a source. -/
theorem Keyed.writeTaskLoop {U : Unicode} {tenantId contactId : String}
    {tasks : List (ExtractedTask × Draw)} {acc : Repository × List String} (h : Keyed acc.1) :
    Keyed (Crm.writeTaskLoop U tenantId contactId acc tasks).1 := by
  induction tasks generalizing acc with
  | nil => exact h
  | cons t rest ih =>
    obtain ⟨task, draw⟩ := t
    rw [writeTaskLoop_cons]
    apply ih
    by_cases hknown : Titled task → task.key U ∈ acc.2
    · rw [writeTask_of_known hknown]
      exact h
    · obtain ⟨ht, hk⟩ := Classical.not_imp.mp hknown
      rw [writeTask_of_not_known ht hk]
      exact h.add rfl

section Application

variable {U : Unicode} {repo : Repository} {tenantId : String} {contact : Resource}
  {result : ExtractionResult} {draw : ApplyDraw} (hK : Keyed repo)
  (hget : repo.get? contact.id = some contact)

include hK hget

/-- Where the dedup keys are unique, a patch writes the contact's row and nothing else. -/
theorem patchedRepo_cases (data : Dict String Json) (changed : Bool) (now : Datetime) :
    patchedRepo repo contact data changed now = repo ∨ ∃ r, SameColumns contact r ∧
      patchedRepo repo contact data changed now = repo.set r.id r := by
  unfold patchedRepo
  cases changed with
  | false => exact .inl (if_neg Bool.false_ne_true)
  | true =>
    refine .inr ⟨_, sameColumns_patchedRow contact data true now, ?_⟩
    rw [if_pos rfl]
    exact hK.upsert_stored (r := patchedRow contact data true now) hget rfl

theorem keyed_patchedRepo (data : Dict String Json) (changed : Bool) (now : Datetime) :
    Keyed (patchedRepo repo contact data changed now) := by
  rcases patchedRepo_cases hK hget data changed now with h | ⟨r, hr, h⟩
  · rw [h]
    exact hK
  · rw [h]
    refine hK.rewrite (hr.id ▸ hget) ?_
    rw [Resource.key, Resource.key, hr.tenantId, hr.sourceId, hr.externalId]

theorem sameOpen_patchedRepo (U : Unicode) (tenantId : String) (hkind : contact.kind ≠ TASK_KIND)
    (data : Dict String Json) (changed : Bool) (now : Datetime) :
    SameOpen U repo (patchedRepo repo contact data changed now) ∧
      activeTasks (patchedRepo repo contact data changed now) tenantId =
        activeTasks repo tenantId := by
  rcases patchedRepo_cases hK hget data changed now with h | ⟨r, hr, h⟩
  · rw [h]
    exact ⟨fun _ _ _ _ => Iff.rfl, rfl⟩
  · rw [h]
    have hrow : repo.get? r.id = some contact := hr.id ▸ hget
    refine ⟨.set (fun old hold => ?_) (openTitle_of_kind (hr.kind ▸ hkind)),
      activeTasks_rewrite hrow hkind hr.kind (.inr rfl) tenantId⟩
    rw [hrow] at hold
    cases hold
    exact openTitle_of_kind hkind

variable {data : Dict String Json} {changed : Bool} (hempty : result.isEmpty = false)
  (ht : contact.tenantId = tenantId)
  (hok : patchedContact U contact.data result = .ok (data, changed))

include hempty ht hok

theorem keyed_applied : Keyed (applied U repo tenantId contact.id result draw) := by
  have hloop : ∀ titles, Keyed (writeTaskLoop U tenantId contact.id
      (patchedRepo repo contact data changed draw.now, titles)
      (result.newTasks.zip draw.tasks)).1 :=
    fun titles => Keyed.writeTaskLoop (keyed_patchedRepo hK hget data changed draw.now)
  rw [applied_of_applies hempty hget ht (patchContact_eq hok draw.now)]
  cases result.stageTransition with
  | none => exact hloop _
  | some transition =>
    rw [maybeWriteStageActivity, upsert_of_noSource _ rfl]
    exact (hloop _).add rfl

/-- **One application.** It keeps the titles apart exactly when each title of the result is among
those that were looked at, or is not open.

The breadcrumb and the contact are no tasks, so the loop over the titles is all that matters. -/
theorem unique_applied_iff (hP : OpenTitlesUnique U repo) (hF : draw.Fresh repo result)
    (hkind : contact.kind ≠ TASK_KIND) :
    OpenTitlesUnique U (applied U repo tenantId contact.id result draw) ↔
      ∀ task ∈ result.newTasks, Titled task →
        task.key U ∈ openTaskTitles U repo tenantId contact.id ∨
          NotOpen U repo tenantId contact.id (task.key U) := by
  obtain ⟨hsame, hactive⟩ := sameOpen_patchedRepo hK hget U tenantId hkind data changed draw.now
  have hfree := fun t hmem =>
    get?_patchedRepo_of_none hK.rowIds hget (hF.zip.2 t hmem) data changed draw.now
  have hstage := get?_patchedRepo_of_none hK.rowIds hget
    (hF.2.2 draw.stage.id (List.mem_append_right _ List.mem_cons_self)) data changed draw.now
  rw [applied_of_applies hempty hget ht (patchContact_eq hok draw.now),
    ← openTaskTitles_congr hactive]
  generalize patchedRepo repo contact data changed draw.now = repo₁ at hsame hfree hstage ⊢
  have hloop := unique_writeTaskLoop_iff U tenantId contact.id
    (repo₁, openTaskTitles U repo₁ tenantId contact.id) hF.zip.1 hfree (hsame.unique_iff.mp hP)
  have hW := tasksWritten_loop U tenantId contact.id
    (repo₁, openTaskTitles U repo₁ tenantId contact.id) hF.zip.1 hfree
  generalize writeTaskLoop U tenantId contact.id
    (repo₁, openTaskTitles U repo₁ tenantId contact.id) (result.newTasks.zip draw.tasks) = acc
    at hloop hW ⊢
  have htail : OpenTitlesUnique U (maybeWriteStageActivity acc.1 tenantId contact.id
      result.stageTransition draw.stage) ↔ OpenTitlesUnique U acc.1 := by
    cases result.stageTransition with
    | none => exact Iff.rfl
    | some transition =>
      have hrow : openTitle U (stageActivity tenantId contact.id transition draw.stage) = none :=
        openTitle_of_kind (show ACTIVITY_KIND ≠ TASK_KIND by decide)
      rw [maybeWriteStageActivity, upsert_of_noSource _ rfl]
      refine (SameOpen.set (fun old hold => ?_) hrow).unique_iff.symm
      have hnone := hW.free draw.stage.id hstage hF.stage_ne
      rw [show acc.1.get? draw.stage.id = some old from hold] at hnone
      cases hnone
  rw [htail, hloop]
  show (∀ t ∈ result.newTasks.zip draw.tasks, Titled t.1 →
    t.1.key U ∉ openTaskTitles U repo₁ tenantId contact.id →
      NotOpen U repo₁ tenantId contact.id (t.1.key U)) ↔ _
  constructor
  · intro h task hmem htitled
    obtain ⟨d, hd⟩ := mem_zip_of_mem hF.1 hmem
    by_cases hknown : task.key U ∈ openTaskTitles U repo₁ tenantId contact.id
    · exact .inl hknown
    · have hnot : NotOpen U repo₁ tenantId contact.id (task.key U) :=
        h (task, d) hd htitled hknown
      exact .inr (hsame.notOpen_iff.mpr hnot)
  · intro h t hmem htitled hunknown
    exact hsame.notOpen_iff.mp ((h t.1 (List.of_mem_zip hmem).1 htitled).resolve_left hunknown)

end Application

end Wapsell.Crm
