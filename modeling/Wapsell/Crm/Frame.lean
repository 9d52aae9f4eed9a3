import Wapsell.Crm.Reapply

/-!
# What an application leaves alone

The rows there were, the columns and the protected fields of the contact, and
its tags. The patch alone decides: the tasks and the breadcrumb go to new
rows. An update of `tags` is the exception, since it is an update like any
other, and so is a second row under the contact's dedup key, which the store
takes out when the contact is written back.

The condition is about the store and the result before the application:
no other row shares the contact's dedup key, and an update of `tags`
brings every tag of the contact along. Whether a result changes anything
at all is settled first, since the patch writes nothing back otherwise
and then nothing can be lost.

What this does not establish: that the updates are sensible. A field
that is not protected may be overwritten with anything the model
answers.
-/

namespace Wapsell.Crm

open Lib Py Resources

/-! ## Whether the patch changes anything -/

/-- The tags behind the loop over `contact_updates`. -/
def tagsBefore (data : Dict String Json) (result : ExtractionResult) : List Json :=
  ((patchedValue "tags" (data.get? "tags") (result.contactUpdates.get? "tags")).getD .null).items

/-- The update is written: the field is not protected, and the value is another. -/
def Writes (data : Dict String Json) (update : String × Json) : Prop :=
  update.1 ∉ PROTECTED_CONTACT_FIELDS ∧ (data.getD update.1 .null).pyEq update.2 = false

/-- The result has something to change: a field of the contact, or its tags. -/
def Changes (U : Unicode) (data : Dict String Json) (result : ExtractionResult) : Prop :=
  (∃ update ∈ result.contactUpdates.entries, Writes data update) ∨
    ∃ tag ∈ result.newTags, ¬ Known U (tagsBefore data result) tag

theorem patchField_snd_iff {acc : Dict String Json × Bool} {update : String × Json} :
    (patchField acc update).2 = true ↔ acc.2 = true ∨ Writes acc.1 update := by
  unfold patchField Writes
  by_cases hp : update.1 ∈ PROTECTED_CONTACT_FIELDS
  · simp [hp]
  · by_cases hsame : (acc.1.getD update.1 .null).pyEq update.2 = true
    · simp [hp, hsame]
    · simp [hp, hsame]

theorem foldl_patchField_snd_iff : ∀ {updates : List (String × Json)},
    (updates.map Prod.fst).Nodup → ∀ acc : Dict String Json × Bool,
      ((updates.foldl patchField acc).2 = true ↔
        acc.2 = true ∨ ∃ update ∈ updates, Writes acc.1 update)
  | [], _, acc => by simp
  | update :: rest, hnd, acc => by
    obtain ⟨hnot, hrest⟩ := List.nodup_cons.mp hnd
    have hsame : ∀ later ∈ rest, (Writes (patchField acc update).1 later ↔ Writes acc.1 later) := by
      intro later hlater
      have hne : update.1 ≠ later.1 := fun h => hnot (List.mem_map.mpr ⟨later, hlater, h.symm⟩)
      rw [Writes, Writes, Dict.getD, Dict.getD, get?_patchField, if_neg hne]
    rw [List.foldl_cons, foldl_patchField_snd_iff hrest, patchField_snd_iff, or_assoc,
      List.exists_mem_cons_iff]
    refine or_congr_right (or_congr_right ?_)
    exact exists_congr fun later => and_congr_right fun hlater => hsame later hlater

theorem foldl_addTag_snd_iff {U : Unicode} : ∀ {newTags : List String} {acc : List Json × Bool},
    (newTags.foldl (addTag U) acc).2 = true ↔
      acc.2 = true ∨ ∃ tag ∈ newTags, ¬ Known U acc.1 tag
  | [], acc => by simp
  | tag :: rest, acc => by
    rw [List.foldl_cons, foldl_addTag_snd_iff, List.exists_mem_cons_iff]
    by_cases hknown : Known U acc.1 tag
    · rw [addTag_of_known hknown]
      simp [hknown]
    · rw [addTag_of_not_known hknown]
      simp [hknown]

theorem items_patchFields (data : Dict String Json) (result : ExtractionResult) :
    ((patchFields data result.contactUpdates).1.getD "tags" .null).items =
      tagsBefore data result := by
  rw [Dict.getD, get?_patchFields, tagsBefore]

/-- The patch, by whether there are new tags and whether they can be merged. -/
theorem patchedContact_eq (U : Unicode) (data : Dict String Json) (result : ExtractionResult) :
    patchedContact U data result =
      if result.newTags = [] then .ok (patchFields data result.contactUpdates)
      else if (tagsBefore data result).all isHashable then
        .ok ((patchFields data result.contactUpdates).1.set "tags"
            (.arr (taggedItems U result.newTags (tagsBefore data result))),
          (patchFields data result.contactUpdates).2 ||
            (result.newTags.foldl (addTag U) (tagsBefore data result, false)).2)
      else .error .typeError := by
  show (mergeTags U (patchFields data result.contactUpdates).1 result.newTags >>= fun merged =>
    .ok (merged.1, (patchFields data result.contactUpdates).2 || merged.2)) = _
  unfold mergeTags
  by_cases hnil : result.newTags = []
  · rw [if_pos hnil, if_pos hnil]
    show Except.ok (_, _ || false) = _
    rw [Bool.or_false]
  rw [if_neg hnil, if_neg hnil]
  simp only [items_patchFields]
  split <;> rfl

/-- The patch raises exactly on new tags behind a tag that cannot be in a set. -/
theorem patchedContact_isOk_iff {U : Unicode} {data : Dict String Json} {result : ExtractionResult} :
    (∃ pair, patchedContact U data result = .ok pair) ↔
      (result.newTags ≠ [] → ∀ tag ∈ tagsBefore data result, isHashable tag = true) := by
  rw [patchedContact_eq, ← List.all_eq_true]
  by_cases hnil : result.newTags = []
  · rw [if_pos hnil]
    exact iff_of_true ⟨_, rfl⟩ fun h => absurd hnil h
  rw [if_neg hnil]
  by_cases hall : (tagsBefore data result).all isHashable = true
  · rw [if_pos hall]
    exact iff_of_true ⟨_, rfl⟩ fun _ => hall
  · rw [if_neg hall]
    exact iff_of_false (fun ⟨_, h⟩ => by cases h) fun h => hall (h hnil)

/-- What a patch that goes through says of itself. -/
theorem changed_iff {U : Unicode} {data data' : Dict String Json} {result : ExtractionResult}
    {changed : Bool} (h : patchedContact U data result = .ok (data', changed)) :
    changed = true ↔ Changes U data result := by
  have hfields : (patchFields data result.contactUpdates).2 = true ↔
      ∃ update ∈ result.contactUpdates.entries, Writes data update := by
    refine (foldl_patchField_snd_iff result.contactUpdates.nodup (data, false)).trans ?_
    simp
  rw [patchedContact_eq] at h
  unfold Changes
  by_cases hnil : result.newTags = []
  · rw [if_pos hnil] at h
    have hflag : (patchFields data result.contactUpdates).2 = changed :=
      congrArg Prod.snd (Except.ok.inj h)
    rw [← hflag, hfields, hnil]
    simp
  rw [if_neg hnil] at h
  by_cases hall : (tagsBefore data result).all isHashable = true
  · rw [if_pos hall] at h
    have hflag : (_ || _) = changed := congrArg Prod.snd (Except.ok.inj h)
    rw [← hflag, Bool.or_eq_true, hfields, foldl_addTag_snd_iff]
    simp
  · rw [if_neg hall] at h
    cases h

/-! ## The tags -/

/-- The tag is one of the new ones, normalized. -/
def IsNewTag (U : Unicode) (newTags : List String) (tag : Json) : Prop :=
  ∃ t ∈ newTags, lower U (strip t) ≠ "" ∧ tag = .str (lower U (strip t))

theorem mem_addTag_iff {U : Unicode} {acc : List Json × Bool} {t : String} {tag : Json} :
    tag ∈ (addTag U acc t).1 ↔
      tag ∈ acc.1 ∨ lower U (strip t) ≠ "" ∧ tag = .str (lower U (strip t)) := by
  by_cases hknown : Known U acc.1 t
  · rw [addTag_of_known hknown]
    refine ⟨.inl, ?_⟩
    rintro (h | ⟨hne, rfl⟩)
    · exact h
    · obtain ⟨x, hx, hsame⟩ := List.any_eq_true.mp (hknown.resolve_left hne)
      rwa [Json.pyEq_str_iff.mp hsame] at hx
  · rw [addTag_of_not_known hknown, List.mem_append, List.mem_singleton]
    refine or_congr_right ⟨fun h => ⟨fun hblank => hknown (.inl hblank), h⟩, fun h => h.2⟩

theorem mem_taggedItems_iff {U : Unicode} {newTags : List String} {items : List Json} {tag : Json} :
    tag ∈ taggedItems U newTags items ↔ tag ∈ items ∨ IsNewTag U newTags tag := by
  have hloop : ∀ (tags : List String) (acc : List Json × Bool),
      tag ∈ (tags.foldl (addTag U) acc).1 ↔ tag ∈ acc.1 ∨ IsNewTag U tags tag := by
    intro tags
    induction tags with
    | nil => simp [IsNewTag]
    | cons t rest ih =>
      intro acc
      rw [List.foldl_cons, ih, mem_addTag_iff, or_assoc, IsNewTag, IsNewTag,
        List.exists_mem_cons_iff]
  exact hloop newTags (items, false)

/-- An update that replaces the tags has each tag of the contact, or the new tags have it. -/
def KeepsTags (U : Unicode) (data : Dict String Json) (result : ExtractionResult) : Prop :=
  ∀ value, result.contactUpdates.get? "tags" = some value →
    (data.getD "tags" .null).pyEq value = false →
      ∀ tag ∈ (data.getD "tags" .null).items, tag ∈ value.items ∨ IsNewTag U result.newTags tag

theorem tagsBefore_of_none {data : Dict String Json} {result : ExtractionResult}
    (h : result.contactUpdates.get? "tags" = none) :
    tagsBefore data result = (data.getD "tags" .null).items := by
  rw [tagsBefore, h]
  rfl

theorem tagsBefore_of_some {data : Dict String Json} {result : ExtractionResult} {value : Json}
    (h : result.contactUpdates.get? "tags" = some value) :
    tagsBefore data result =
      if (data.getD "tags" .null).pyEq value then (data.getD "tags" .null).items
      else value.items := by
  rw [tagsBefore, h, patchedValue]
  simp only [show "tags" ∉ PROTECTED_CONTACT_FIELDS by decide, if_false]
  by_cases hsame : (data.getD "tags" .null).pyEq value = true
  · rw [if_pos hsame, if_pos (show ((data.get? "tags").getD .null).pyEq value = true from hsame)]
    rfl
  · rw [if_neg hsame, if_neg (show ¬ ((data.get? "tags").getD .null).pyEq value = true from hsame)]
    rfl

/-- The tags a patch leaves. -/
theorem items_patchedContact {U : Unicode} {data data' : Dict String Json}
    {result : ExtractionResult} {changed : Bool}
    (h : patchedContact U data result = .ok (data', changed)) :
    (data'.getD "tags" .null).items = taggedItems U result.newTags (tagsBefore data result) := by
  rw [Dict.getD, get?_patchedContact h, patchedKey]
  by_cases hnil : result.newTags = []
  · rw [if_neg fun hkey => hkey.2 hnil, hnil]
    rfl
  · rw [if_pos ⟨rfl, hnil⟩]
    rfl

/-- A patch keeps every tag exactly when the update of the tags does. -/
theorem tags_kept_iff {U : Unicode} {data data' : Dict String Json} {result : ExtractionResult}
    {changed : Bool} (h : patchedContact U data result = .ok (data', changed)) :
    (∀ tag ∈ (data.getD "tags" .null).items, tag ∈ (data'.getD "tags" .null).items) ↔
      KeepsTags U data result := by
  simp only [items_patchedContact h, mem_taggedItems_iff]
  cases hupdate : result.contactUpdates.get? "tags" with
  | none =>
    rw [tagsBefore_of_none hupdate]
    refine iff_of_true (fun tag htag => .inl htag) fun value hvalue => ?_
    rw [hupdate] at hvalue
    cases hvalue
  | some value =>
    rw [tagsBefore_of_some hupdate]
    by_cases hsame : (data.getD "tags" .null).pyEq value = true
    · rw [if_pos hsame]
      refine iff_of_true (fun tag htag => .inl htag) fun other hother hne => ?_
      rw [hupdate] at hother
      cases hother
      rw [hsame] at hne
      cases hne
    · rw [if_neg hsame]
      constructor
      · intro hkept other hother _
        rw [hupdate] at hother
        cases hother
        exact hkept
      · exact fun hkeeps => hkeeps value hupdate (Bool.not_eq_true _ ▸ hsame)

/-- A patch with nothing to change replaces no tags. -/
theorem tagsBefore_of_not_changes {U : Unicode} {data : Dict String Json}
    {result : ExtractionResult} (h : ¬ Changes U data result) :
    tagsBefore data result = (data.getD "tags" .null).items := by
  cases hupdate : result.contactUpdates.get? "tags" with
  | none => exact tagsBefore_of_none hupdate
  | some value =>
    rw [tagsBefore_of_some hupdate, if_pos]
    by_contra hne
    refine h (.inl ⟨("tags", value), Dict.get?_eq_some_iff.mp hupdate, ?_, ?_⟩)
    · show "tags" ∉ PROTECTED_CONTACT_FIELDS
      decide
    · exact Bool.not_eq_true _ ▸ hne

theorem keepsTags_of_not_changes {U : Unicode} {data data' : Dict String Json}
    {result : ExtractionResult} {changed : Bool}
    (hok : patchedContact U data result = .ok (data', changed)) (h : ¬ Changes U data result) :
    KeepsTags U data result := by
  refine (tags_kept_iff hok).mp fun tag htag => ?_
  rw [items_patchedContact hok, tagsBefore_of_not_changes h]
  exact mem_taggedItems_iff.mpr (.inl htag)

/-! ## The rows -/

/-- The row of the contact behind its patch. -/
def patchedRow (contact : Resource) (data : Dict String Json) (changed : Bool) (now : Datetime) :
    Resource :=
  if changed then { contact with data, updatedAt := now } else contact

/-- The store behind the patch. -/
def patchedRepo (repo : Repository) (contact : Resource) (data : Dict String Json) (changed : Bool)
    (now : Datetime) : Repository :=
  if changed then repo.upsert (patchedRow contact data changed now) else repo

theorem patchContact_eq {U : Unicode} {repo : Repository} {contact : Resource}
    {result : ExtractionResult} {data : Dict String Json} {changed : Bool}
    (h : patchedContact U contact.data result = .ok (data, changed)) (now : Datetime) :
    patchContact U repo contact result now =
      .ok (patchedRepo repo contact data changed now) := by
  unfold patchContact
  rw [h]
  cases changed <;> rfl

/-- A row that the loop or the breadcrumb may add: a task or an activity of the tenant that names
the contact. -/
def IsOwn (tenantId contactId : String) (r : Resource) : Prop :=
  r.tenantId = tenantId ∧ (r.kind = TASK_KIND ∨ r.kind = ACTIVITY_KIND) ∧
    r.data.get? "contact_id" = some (.str contactId)

theorem newTask_own (tenantId contactId title key : String) (task : ExtractedTask) (draw : Draw) :
    IsOwn tenantId contactId (newTask tenantId contactId title key task draw) := by
  refine ⟨rfl, .inl rfl, ?_⟩
  unfold newTask
  cases task.dueAt.filter (· ≠ "") <;> cases task.priority.filter (· ≠ "") <;> simp

theorem stageActivity_own (tenantId contactId : String) (transition : StageTransition)
    (draw : Draw) : IsOwn tenantId contactId (stageActivity tenantId contactId transition draw) :=
  ⟨rfl, .inr rfl, by simp [stageActivity]⟩

/-- What is there behind the loop was there before it, or is a task of the contact. -/
theorem writeTaskLoop_added {U : Unicode} {tenantId contactId x : String} {row : Resource}
    {tasks : List (ExtractedTask × Draw)} {acc : Repository × List String}
    (h : (writeTaskLoop U tenantId contactId acc tasks).1.get? x = some row) :
    acc.1.get? x = some row ∨ IsOwn tenantId contactId row := by
  induction tasks generalizing acc with
  | nil => exact .inl h
  | cons t rest ih =>
    obtain ⟨task, draw⟩ := t
    rw [writeTaskLoop_cons] at h
    rcases ih h with hround | hown
    · by_cases hknown : Titled task → task.key U ∈ acc.2
      · rw [writeTask_of_known hknown] at hround
        exact .inl hround
      · obtain ⟨ht, hk⟩ := Classical.not_imp.mp hknown
        rw [writeTask_of_not_known ht hk] at hround
        rcases Dict.get?_set_eq_some hround with ⟨-, rfl⟩ | ⟨-, hold⟩
        · exact .inr (newTask_own _ _ _ _ _ _)
        · exact .inl hold
    · exact .inr hown

section Application

variable {U : Unicode} {repo : Repository} {tenantId : String} {contact : Resource}
  {result : ExtractionResult} {draw : ApplyDraw} {data : Dict String Json} {changed : Bool}
  (hI : RowIds repo) (hget : repo.get? contact.id = some contact)

include hI hget

/-- The rows behind the patch. -/
theorem get?_patchedRepo (data : Dict String Json) (changed : Bool) (now : Datetime) (x : String) :
    (patchedRepo repo contact data changed now).get? x =
      if x = contact.id then some (patchedRow contact data changed now)
      else (repo.get? x).filter fun row =>
        decide (changed = true → contact.key = none ∨ row.key ≠ contact.key) := by
  unfold patchedRepo
  cases changed with
  | false =>
    by_cases hx : x = contact.id
    · subst hx
      rw [if_pos rfl]
      exact hget
    · rw [if_neg hx, if_neg Bool.false_ne_true]
      cases hrow : repo.get? x <;> simp [Option.filter]
  | true =>
    rw [if_pos rfl]
    by_cases hx : x = contact.id
    · subst hx
      rw [if_pos rfl]
      exact Repository.get?_upsert_self repo (patchedRow contact data true now)
    · rw [if_neg hx, show (repo.upsert (patchedRow contact data true now)).get? x = _ from
        Repository.get?_upsert_ne hI (r := patchedRow contact data true now) hx]
      simp only [forall_const]
      rfl

theorem get?_patchedRepo_of_none {x : String} (hx : repo.get? x = none) (data : Dict String Json)
    (changed : Bool) (now : Datetime) :
    (patchedRepo repo contact data changed now).get? x = none := by
  rw [get?_patchedRepo hI hget, hx, if_neg]
  · rfl
  · rintro rfl
    rw [hget] at hx
    cases hx

variable (hempty : result.isEmpty = false) (ht : contact.tenantId = tenantId)
  (hok : patchedContact U contact.data result = .ok (data, changed))

include hempty ht hok

/-- **The rows there were.** The patch alone decides what becomes of them: it rewrites the contact,
and takes out a row under the same dedup key. -/
theorem get?_applied (hF : draw.Fresh repo result) {x : String} {row : Resource}
    (hx : repo.get? x = some row) :
    (applied U repo tenantId contact.id result draw).get? x =
      if x = contact.id then some (patchedRow contact data changed draw.now)
      else if changed = true → contact.key = none ∨ row.key ≠ contact.key then some row
      else none := by
  have hrows := get?_patchedRepo hI hget data changed draw.now x
  have hfree := fun t hmem =>
    get?_patchedRepo_of_none hI hget (hF.zip.2 t hmem) data changed draw.now
  have hstored : ∀ id ∈ draw.ids, x ≠ id := by
    rintro id hid rfl
    rw [hF.2.2 _ hid] at hx
    cases hx
  rw [applied_of_applies hempty hget ht (patchContact_eq hok draw.now)]
  generalize patchedRepo repo contact data changed draw.now = repo₁ at hrows hfree ⊢
  have hW := tasksWritten_loop U tenantId contact.id
    (repo₁, openTaskTitles U repo₁ tenantId contact.id) hF.zip.1 hfree
  generalize writeTaskLoop U tenantId contact.id
    (repo₁, openTaskTitles U repo₁ tenantId contact.id) (result.newTasks.zip draw.tasks) = acc
    at hW ⊢
  have hloop : acc.1.get? x = repo₁.get? x := by
    cases hrow : repo₁.get? x with
    | some r => exact hW.kept x r hrow
    | none =>
      refine hW.free x hrow fun t hmem => Ne.symm (hstored _ ?_)
      exact List.mem_append_left _ (List.mem_map.mpr ⟨t.2, (List.of_mem_zip hmem).2, rfl⟩)
  have hstage : (maybeWriteStageActivity acc.1 tenantId contact.id result.stageTransition
      draw.stage).get? x = acc.1.get? x := by
    cases result.stageTransition with
    | none => rfl
    | some transition =>
      show (acc.1.upsert (stageActivity tenantId contact.id transition draw.stage)).get? x = _
      rw [upsert_of_noSource _ rfl]
      refine Dict.get?_set_ne _ _ (Ne.symm (hstored _ ?_))
      exact List.mem_append_right _ List.mem_cons_self
  rw [hstage, hloop, hrows, hx]
  by_cases hkept : changed = true → contact.key = none ∨ row.key ≠ contact.key
  · simp only [Option.filter, decide_eq_true hkept, if_pos hkept, if_true]
  · simp only [Option.filter, decide_eq_false hkept, if_neg hkept, Bool.false_eq_true, if_false]

/-- Every row stays under its id. -/
theorem rowIds_applied (hF : draw.Fresh repo result) :
    RowIds (applied U repo tenantId contact.id result draw) := by
  have hrepo₁ : RowIds (patchedRepo repo contact data changed draw.now) := by
    unfold patchedRepo
    split
    · exact hI.upsert _
    · exact hI
  have hloop := (tasksWritten_loop U tenantId contact.id
    (patchedRepo repo contact data changed draw.now,
      openTaskTitles U (patchedRepo repo contact data changed draw.now) tenantId contact.id)
    hF.zip.1 fun t hmem =>
      get?_patchedRepo_of_none hI hget (hF.zip.2 t hmem) data changed draw.now).rowIds hrepo₁
  rw [applied_of_applies hempty hget ht (patchContact_eq hok draw.now)]
  cases result.stageTransition with
  | none => exact hloop
  | some transition => exact hloop.upsert _

/-- A new row is a task or an activity of the contact. -/
theorem applied_added {x : String} {row : Resource} (hx : repo.get? x = none)
    (hrow : (applied U repo tenantId contact.id result draw).get? x = some row) :
    IsOwn tenantId contact.id row := by
  have hnone := get?_patchedRepo_of_none hI hget hx data changed draw.now
  rw [applied_of_applies hempty hget ht (patchContact_eq hok draw.now)] at hrow
  have hloop : ∀ {acc : Repository × List String}, acc.1.get? x = none →
      (writeTaskLoop U tenantId contact.id acc (result.newTasks.zip draw.tasks)).1.get? x =
        some row → IsOwn tenantId contact.id row := by
    intro acc hacc hrow
    rcases writeTaskLoop_added hrow with hold | hown
    · rw [hacc] at hold
      cases hold
    · exact hown
  cases htransition : result.stageTransition with
  | none =>
    rw [htransition] at hrow
    exact hloop hnone hrow
  | some transition =>
    rw [htransition, maybeWriteStageActivity, upsert_of_noSource _ rfl] at hrow
    rcases Dict.get?_set_eq_some hrow with ⟨-, rfl⟩ | ⟨-, hrow⟩
    · exact stageActivity_own _ _ _ _
    · exact hloop hnone hrow

end Application

/-! ## The frame -/

/-- The columns of a row that no patch writes. -/
structure SameColumns (r r' : Resource) : Prop where
  id : r'.id = r.id
  tenantId : r'.tenantId = r.tenantId
  sourceId : r'.sourceId = r.sourceId
  kind : r'.kind = r.kind
  externalId : r'.externalId = r.externalId
  summary : r'.summary = r.summary
  status : r'.status = r.status
  createdAt : r'.createdAt = r.createdAt

/-- The contact keeps its columns, its protected fields and its tags. -/
structure ContactKept (contact patched : Resource) : Prop where
  columns : SameColumns contact patched
  fields : ∀ key ∈ PROTECTED_CONTACT_FIELDS, patched.data.get? key = contact.data.get? key
  tags : ∀ tag ∈ (contact.data.getD "tags" .null).items,
    tag ∈ (patched.data.getD "tags" .null).items

/-- What an application to the contact leaves alone: every other row, whatever new rows there are
being the contact's own, and of the contact what it keeps. Where the tenant has no such contact
that is the whole store. -/
structure Framed (repo repo' : Repository) (tenantId contactId : String) : Prop where
  others : ∀ x row, x ≠ contactId → repo.get? x = some row → repo'.get? x = some row
  added : ∀ x row, repo.get? x = none → repo'.get? x = some row → IsOwn tenantId contactId row
  contact : ∀ contact, repo.get? contactId = some contact →
    ∃ patched, repo'.get? contactId = some patched ∧ ContactKept contact patched
  dropped : (∀ contact, repo.get? contactId = some contact → contact.tenantId ≠ tenantId) →
    repo' = repo

/-- The result stays in the frame: where it changes the contact no other row has the contact's dedup
key, and the tags there were are among those it leaves. -/
structure StaysInFrame (U : Unicode) (repo : Repository) (contact : Resource)
    (result : ExtractionResult) : Prop where
  alone : Changes U contact.data result → ∀ x row, x ≠ contact.id → repo.get? x = some row →
    contact.key = none ∨ row.key ≠ contact.key
  tags : KeepsTags U contact.data result

theorem Framed.refl (repo : Repository) (tenantId contactId : String) :
    Framed repo repo tenantId contactId where
  others _ _ _ h := h
  added x row h h' := by
    rw [h] at h'
    cases h'
  contact contact h :=
    ⟨contact, h, ⟨rfl, rfl, rfl, rfl, rfl, rfl, rfl, rfl⟩, fun _ _ => rfl, fun _ h => h⟩
  dropped _ := rfl

theorem sameColumns_patchedRow (contact : Resource) (data : Dict String Json) (changed : Bool)
    (now : Datetime) : SameColumns contact (patchedRow contact data changed now) := by
  cases changed <;> exact ⟨rfl, rfl, rfl, rfl, rfl, rfl, rfl, rfl⟩

/-- The protected fields are kept anyway, and the tags by an update that keeps them. -/
theorem contactKept_patchedRow_iff {U : Unicode} {contact : Resource} {result : ExtractionResult}
    {data : Dict String Json} {changed : Bool}
    (hok : patchedContact U contact.data result = .ok (data, changed)) (now : Datetime) :
    ContactKept contact (patchedRow contact data changed now) ↔
      KeepsTags U contact.data result := by
  have hcolumns := sameColumns_patchedRow contact data changed now
  have hflag := changed_iff hok
  cases changed with
  | false =>
    have hnot : ¬ Changes U contact.data result := fun h => by cases hflag.mpr h
    exact iff_of_true ⟨hcolumns, fun _ _ => rfl, fun _ h => h⟩
      (keepsTags_of_not_changes hok hnot)
  | true =>
    constructor
    · exact fun h => (tags_kept_iff hok).mp h.tags
    · refine fun h => ⟨hcolumns, fun key hkey => ?_, (tags_kept_iff hok).mpr h⟩
      show data.get? key = contact.data.get? key
      rw [get?_patchedContact hok, patchedKey_protected hkey]

/-- The frame of an application that comes to its writes. -/
theorem framed_applied_iff {U : Unicode} {repo : Repository} (hI : RowIds repo) {tenantId : String}
    {contact : Resource} (hget : repo.get? contact.id = some contact) {result : ExtractionResult}
    {draw : ApplyDraw} {data : Dict String Json} {changed : Bool} (hempty : result.isEmpty = false)
    (ht : contact.tenantId = tenantId)
    (hok : patchedContact U contact.data result = .ok (data, changed))
    (hF : draw.Fresh repo result) :
    Framed repo (applied U repo tenantId contact.id result draw) tenantId contact.id ↔
      StaysInFrame U repo contact result := by
  have hrows : ∀ x row, repo.get? x = some row →
      (applied U repo tenantId contact.id result draw).get? x =
        if x = contact.id then some (patchedRow contact data changed draw.now)
        else if changed = true → contact.key = none ∨ row.key ≠ contact.key then some row
        else none :=
    fun x row => get?_applied hI hget hempty ht hok hF
  have hflag := changed_iff hok
  constructor
  · intro h
    constructor
    · intro hchanges x row hx hrow
      have hkept := h.others x row hx hrow
      rw [hrows x row hrow, if_neg hx] at hkept
      split at hkept
      · next hkey => exact hkey (hflag.mpr hchanges)
      · cases hkept
    · obtain ⟨patched, hpatched, hcontact⟩ := h.contact contact hget
      rw [hrows _ _ hget, if_pos rfl] at hpatched
      cases hpatched
      exact (contactKept_patchedRow_iff hok draw.now).mp hcontact
  · intro h
    constructor
    · intro x row hx hrow
      rw [hrows x row hrow, if_neg hx, if_pos]
      exact fun hchanged => h.alone (hflag.mp hchanged) x row hx hrow
    · exact fun x row hx hrow => applied_added hI hget hempty ht hok hx hrow
    · intro found hfound
      rw [hget] at hfound
      cases hfound
      refine ⟨patchedRow contact data changed draw.now, ?_, ?_⟩
      · rw [hrows _ _ hget, if_pos rfl]
      · exact (contactKept_patchedRow_iff hok draw.now).mpr h.tags
    · exact fun hnone => absurd ht (hnone contact hget)

/-- **The frame of `apply`.** It leaves the other rows, and the contact's columns, protected fields
and tags alone exactly when a result that comes to its writes stays in the frame.

The application is judged by the store before and after it, whatever the model's reply was; a result
that does not come to its writes is in the frame by itself. -/
theorem apply_framed_iff (U : Unicode) {repo : Repository} (hI : RowIds repo)
    (tenantId contactId : String) {result : ExtractionResult} {draw : ApplyDraw}
    (hF : draw.Fresh repo result) :
    Framed repo (applied U repo tenantId contactId result draw) tenantId contactId ↔
      (Applies U repo tenantId contactId result → ∀ contact, repo.get? contactId = some contact →
        StaysInFrame U repo contact result) := by
  by_cases hA : Applies U repo tenantId contactId result
  · obtain ⟨hempty, contact, hget, ht, data, changed, hok⟩ := id hA
    have hid : contact.id = contactId := hI _ _ hget
    subst hid
    rw [framed_applied_iff hI hget hempty ht hok hF]
    constructor
    · intro h _ found hfound
      rw [hget] at hfound
      cases hfound
      exact h
    · exact fun h => h hA contact hget
  · rw [applied_of_not_applies hA]
    exact iff_of_true (Framed.refl repo tenantId contactId) fun h => absurd h hA

/-- Ana, whom the operator tagged as a customer. -/
def ana : Resource where
  id := "c1"
  tenantId := "acme"
  kind := CONTACT_KIND
  externalId := some (contactExternalId "5491100")
  data := Dict.empty.set "tags" (.arr [.str "cliente"])
  createdAt := 0
  updatedAt := 0

/-- The store with Ana alone. -/
def anaStore : Repository := Repository.add Dict.empty ana

theorem rowIds_anaStore : RowIds anaStore := Dict.Forall.set (fun _ _ h => by cases h) rfl

theorem apply_framed_newTag :
    Framed anaStore (applied Unicode.ascii anaStore "acme" "c1" { newTags := ["vip"] }
      ⟨1, [], ⟨1, "s1", 1, 1⟩⟩) "acme" "c1" := by
  refine (apply_framed_iff Unicode.ascii rowIds_anaStore "acme" "c1" (by decide)).mpr
    fun _ contact hget => ?_
  have hana : contact = ana := Option.some.inj hget.symm
  subst hana
  constructor
  · intro _ x row hx hrow
    rw [anaStore, Repository.add, Dict.get?_set_ne _ _ (Ne.symm hx)] at hrow
    cases hrow
  · intro value hvalue
    cases hvalue

/-- The model puts the tags it thinks of among the updates. -/
def retagged : ExtractionResult where
  contactUpdates := Dict.empty.set "tags" (.arr [.str "nuevo"])

/-- The operator's tag is gone. -/
theorem not_apply_framed : ¬ ∀ (U : Unicode) (repo : Repository), RowIds repo →
    ∀ (tenantId contactId : String) (result : ExtractionResult) (draw : ApplyDraw),
      draw.Fresh repo result →
        Framed repo (applied U repo tenantId contactId result draw) tenantId contactId := by
  intro h
  have hframed := h Unicode.ascii anaStore rowIds_anaStore "acme" "c1" retagged
    ⟨1, [], ⟨1, "s1", 1, 1⟩⟩ (by decide)
  obtain ⟨patched, hpatched, hkept⟩ := hframed.contact ana rfl
  have hmem : .str "cliente" ∈ (patched.data.getD "tags" .null).items :=
    hkept.tags (.str "cliente") (by exact List.mem_cons_self)
  have hgone : ((applied Unicode.ascii anaStore "acme" "c1" retagged
      ⟨1, [], ⟨1, "s1", 1, 1⟩⟩).get? "c1").all (fun r =>
        !(r.data.getD "tags" .null).items.any (·.pyEq (.str "cliente"))) = true := by
    decide
  rw [hpatched, Option.all_some, Bool.not_eq_true', List.any_eq_false] at hgone
  exact hgone _ hmem (Json.pyEq_str_iff.mpr rfl)

end Wapsell.Crm
