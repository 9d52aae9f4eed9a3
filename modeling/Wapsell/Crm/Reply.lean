import Wapsell.Crm.Frame
import Wapsell.Py.Interpreter
import Wapsell.Skills.Registry

/-!
# The reply of the model

The parsing half of `sdk/wapsell/crm/extractor.py`: from the text the model
answered to an `ExtractionResult`, and what is left of that result once it
has been applied. The parser drops what has another shape than the prompt
asks for, but it catches `JSONDecodeError` only, and `contact_updates` it
takes as they come: tags among them are read back by the next merge.

What stops an extraction is therefore of two kinds. A text may run into
one of the interpreter's limits, of nesting or of digits, which no
handler in the parser catches. And a value that cannot be in a set may
stand among the tags, which raises when the next merge puts the old tags
in one. `Readable` and `Mergeable` are these two conditions, on the
reply and on the contact before the step.
-/

namespace Wapsell.Crm

open Lib Py Resources Skills

/-! ## Parsing -/

/-- `_JSON_OBJECT_RE`: from the first opening brace to the last closing one behind it. -/
def jsonObjectSpan (text : String) : Option String :=
  let tail := text.toList.dropWhile (· ≠ '\x7b')
  let span := (tail.reverse.dropWhile (· ≠ '\x7d')).reverse
  if span = [] then none else some (String.ofList span)

/-- The fields of a dictionary, and none of any other value. -/
def fieldsOf : Json → List (String × Json)
  | .obj fields => fields
  | _ => []

/-- `_extract_json_object`: the text, or else the span between its braces. Anything but an object
counts as an empty one. -/
def extractJsonObject (I : Interpreter) (text : String) : Except Limit (List (String × Json)) :=
  if text = "" then .ok []
  else match I.loads (strip text) with
    | .ok parsed => .ok (fieldsOf parsed)
    | .error (.limit limit) => .error limit
    | .error .decode =>
      match jsonObjectSpan (strip text) with
      | none => .ok []
      | some span =>
        match I.loads span with
        | .ok parsed => .ok (fieldsOf parsed)
        | .error (.limit limit) => .error limit
        | .error .decode => .ok []

/-- `value if isinstance(value, str) and value.strip() else None`. -/
def filledText : Json → Option String
  | .str text => if strip text ≠ "" then some text else none
  | _ => none

/-- An entry of `new_tasks`: no dictionary or no title, no task. -/
def parseTask (entry : Json) : Option ExtractedTask :=
  (filledText (entry.lookup "title" .null)).map fun title =>
    { title := strip title
      dueAt := filledText (entry.lookup "due_at" .null)
      priority := filledText (entry.lookup "priority" .null) }

/-- An entry of `new_tags`. -/
def parseTag (tag : Json) : Option String := (filledText tag).map strip

/-- `stage_transition`: no dictionary or no `to`, no transition. -/
def parseTransition (raw : Json) : Option StageTransition :=
  (filledText (raw.lookup "to" .null)).map fun toStage =>
    { fromStage := (filledText (raw.lookup "from" .null)).map strip
      toStage := strip toStage
      reason := (filledText (raw.lookup "reason" .null)).map strip }

/-- What a payload says. -/
def resultOf (payload : List (String × Json)) : ExtractionResult where
  contactUpdates := dictOf (fieldsOf ((Json.obj payload).lookup "contact_updates" .null))
  newTasks := ((Json.obj payload).lookup "new_tasks" .null).items.filterMap parseTask
  newTags := ((Json.obj payload).lookup "new_tags" .null).items.filterMap parseTag
  stageTransition := parseTransition ((Json.obj payload).lookup "stage_transition" .null)

/-- `_parse_reply`. -/
def parseReply (I : Interpreter) (text : String) : Except Limit ExtractionResult := do
  let payload ← extractJsonObject I text
  .ok (if payload.isEmpty then {} else resultOf payload)

/-- No text that is parsed runs into a limit: not the reply, nor the span between its braces where
the reply itself is no JSON. -/
def Readable (I : Interpreter) (text : String) : Prop :=
  text ≠ "" → I.limit (strip text) = none ∧ (loads (strip text) = none →
    ∀ span, jsonObjectSpan (strip text) = some span → I.limit span = none)

theorem extractJsonObject_isOk_iff {I : Interpreter} {text : String} :
    (∃ payload, extractJsonObject I text = .ok payload) ↔ Readable I text := by
  have hraised : ∀ l : Limit,
      ¬ ∃ payload : List (String × Json), (Except.error l : Except Limit _) = .ok payload := by
    rintro l ⟨payload, h⟩
    cases h
  unfold extractJsonObject Readable
  by_cases hblank : text = ""
  · rw [if_pos hblank]
    exact iff_of_true ⟨_, rfl⟩ fun hne => absurd hblank hne
  rw [if_neg hblank, forall_prop_of_true hblank]
  rcases I.loads_cases (strip text) with ⟨l, hlimit, hloads⟩ | ⟨hlimit, ⟨value, hvalue, hloads⟩ |
    ⟨hvalue, hloads⟩⟩
  · rw [hloads, hlimit]
    exact iff_of_false (hraised l) fun h => by cases h.1
  · rw [hloads, hlimit, hvalue]
    exact iff_of_true ⟨_, rfl⟩ ⟨rfl, fun h => by cases h⟩
  -- the reply is no JSON, so the span between its braces is read
  rw [hloads, hlimit, hvalue]
  cases jsonObjectSpan (strip text) with
  | none => exact iff_of_true ⟨_, rfl⟩ ⟨rfl, fun _ span h => by cases h⟩
  | some span =>
    simp only [Option.some.injEq, forall_eq', true_and, forall_const]
    rcases I.loads_cases span with ⟨l, hlimit, hloads⟩ | ⟨hlimit, ⟨value, -, hloads⟩ |
      ⟨-, hloads⟩⟩
    · rw [hloads, hlimit]
      exact iff_of_false (hraised l) fun h => by cases h
    · rw [hloads, hlimit]
      exact iff_of_true ⟨_, rfl⟩ rfl
    · rw [hloads, hlimit]
      exact iff_of_true ⟨_, rfl⟩ rfl

/-- **The parser raises nothing but limits.** Every shape of payload is read: what does not fit is
dropped, entry by entry. -/
theorem parseReply_isOk_iff {I : Interpreter} {text : String} :
    (∃ result, parseReply I text = .ok result) ↔ Readable I text := by
  rw [← extractJsonObject_isOk_iff]
  unfold parseReply
  cases extractJsonObject I text with
  | ok payload => exact iff_of_true ⟨_, rfl⟩ ⟨_, rfl⟩
  | error limit => exact iff_of_false (fun ⟨_, h⟩ => by cases h) fun ⟨_, h⟩ => by cases h

/-! ## Applying what was parsed -/

/-- The new tags can be merged: those before them can be put in a set. -/
def Mergeable (data : Dict String Json) (result : ExtractionResult) : Prop :=
  result.newTags ≠ [] → ∀ tag ∈ tagsBefore data result, isHashable tag = true

/-- The store has what the result says: an open task of the contact for each title, and each tag on
the contact. Updates of other fields are the subject of the patch. -/
structure Enacted (U : Unicode) (repo : Repository) (tenantId contactId : String)
    (result : ExtractionResult) : Prop where
  tasks : ∀ task ∈ result.newTasks, Titled task →
    HasOpenTask U repo tenantId contactId (task.key U)
  tags : ∃ contact, repo.get? contactId = some contact ∧
    ∀ tag ∈ result.newTags, Known U (contact.data.getD "tags" .null).items tag

/-- One extraction: the reply of the model, and what its application draws. -/
structure Extraction where
  tenantId : String
  contactId : String
  text : String
  draw : ApplyDraw

/-- The reply is parsed and applied. What either raises is logged; a uuid that is in use is not
drawn. -/
def extractionStep (U : Unicode) (I : Interpreter) (repo : Repository) (e : Extraction) :
    Option Repository :=
  match parseReply I e.text with
  | .error _ => some repo
  | .ok result =>
    if e.draw.Fresh repo result then
      some (applied U repo e.tenantId e.contactId result e.draw)
    else none

/-- For a contact of the tenant nothing is raised, and the store has what the parsed result says. -/
def FullyApplied (U : Unicode) (I : Interpreter) (repo : Repository) (e : Extraction) : Prop :=
  ∀ contact, repo.get? e.contactId = some contact → contact.tenantId = e.tenantId →
    ∃ result repo', parseReply I e.text = .ok result ∧
      apply U repo e.tenantId e.contactId result e.draw = .ok repo' ∧
        Enacted U repo' e.tenantId e.contactId result

/-- The reply runs into no limit, and its tags can be merged. -/
def Applicable (I : Interpreter) (repo : Repository) (e : Extraction) : Prop :=
  ∀ contact, repo.get? e.contactId = some contact → contact.tenantId = e.tenantId →
    Readable I e.text ∧ ∀ result, parseReply I e.text = .ok result → Mergeable contact.data result

section Application

variable {U : Unicode} {repo : Repository} {tenantId : String} {contact : Resource}
  {result : ExtractionResult} {draw : ApplyDraw}

theorem apply_of_isEmpty (hempty : result.isEmpty = true) (contactId : String) :
    apply U repo tenantId contactId result draw = .ok repo := by
  unfold apply
  rw [if_pos hempty]

theorem newTags_of_isEmpty (h : result.isEmpty = true) : result.newTags = [] := by
  simp only [ExtractionResult.isEmpty, Bool.and_eq_true, List.isEmpty_iff] at h
  exact h.1.2

theorem newTasks_of_isEmpty (h : result.isEmpty = true) : result.newTasks = [] := by
  simp only [ExtractionResult.isEmpty, Bool.and_eq_true, List.isEmpty_iff] at h
  exact h.1.1.2

/-- An application to a contact of the tenant raises exactly when its tags cannot be merged. -/
theorem apply_eq_ok_iff (hget : repo.get? contact.id = some contact)
    (ht : contact.tenantId = tenantId) {repo' : Repository} :
    apply U repo tenantId contact.id result draw = .ok repo' ↔
      Mergeable contact.data result ∧ applied U repo tenantId contact.id result draw = repo' := by
  by_cases hempty : result.isEmpty = true
  · rw [applied, apply_of_isEmpty hempty, Except.ok.injEq]
    refine (and_iff_right fun hne => ?_).symm
    exact absurd (newTags_of_isEmpty hempty) hne
  rw [Mergeable, ← patchedContact_isOk_iff (U := U), applied]
  cases hpatch : patchedContact U contact.data result with
  | ok pair =>
    have hok : ∃ repo₁, apply U repo tenantId contact.id result draw = .ok repo₁ := by
      unfold apply
      rw [if_neg hempty, show repo.get contact.id = some contact from hget]
      simp only
      rw [if_neg (not_not.mpr ht), patchContact_eq hpatch]
      exact ⟨_, rfl⟩
    obtain ⟨repo₁, hrepo₁⟩ := hok
    rw [hrepo₁, Except.ok.injEq]
    exact (and_iff_right ⟨pair, rfl⟩).symm
  | error e =>
    refine iff_of_false (fun h => ?_) fun h => by cases h.1.choose_spec
    unfold apply patchContact at h
    rw [if_neg hempty, show repo.get contact.id = some contact from hget] at h
    simp only at h
    rw [if_neg (not_not.mpr ht), hpatch] at h
    cases h

variable (hI : RowIds repo) (hF : draw.Fresh repo result)
  (hget : repo.get? contact.id = some contact) (ht : contact.tenantId = tenantId)

include hI hF hget ht

/-- **An application that goes through does what the result says.**

A title that was known already is the title of an open task, which the loop has found. -/
theorem enacted_applied (h : Mergeable contact.data result) :
    Enacted U (applied U repo tenantId contact.id result draw) tenantId contact.id result := by
  by_cases hempty : result.isEmpty = true
  · rw [((apply_eq_ok_iff hget ht).mp (apply_of_isEmpty hempty contact.id)).2]
    constructor
    · rw [newTasks_of_isEmpty hempty]
      exact fun _ h => absurd h List.not_mem_nil
    · refine ⟨contact, hget, ?_⟩
      rw [newTags_of_isEmpty hempty]
      exact fun _ h => absurd h List.not_mem_nil
  rw [Bool.not_eq_true] at hempty
  obtain ⟨⟨data, changed⟩, hok⟩ := (patchedContact_isOk_iff (U := U)).mpr h
  constructor
  · intro task hmem htitled
    have hfree := fun t hmem =>
      get?_patchedRepo_of_none hI hget (hF.zip.2 t hmem) data changed draw.now
    have hstage := get?_patchedRepo_of_none hI hget
      (hF.2.2 draw.stage.id (List.mem_append_right _ List.mem_cons_self)) data changed draw.now
    rw [applied_of_applies hempty hget ht (patchContact_eq hok draw.now)]
    generalize patchedRepo repo contact data changed draw.now = repo₁ at hfree hstage ⊢
    have hW := tasksWritten_loop U tenantId contact.id
      (repo₁, openTaskTitles U repo₁ tenantId contact.id) hF.zip.1 hfree
    generalize writeTaskLoop U tenantId contact.id
      (repo₁, openTaskTitles U repo₁ tenantId contact.id) (result.newTasks.zip draw.tasks) = acc
      at hW ⊢
    -- the title was known, by an open task, or was written
    have hopen : HasOpenTask U acc.1 tenantId contact.id (task.key U) := by
      obtain ⟨d, hd⟩ := mem_zip_of_mem hF.1 hmem
      rcases hW.fresh _ (hW.known _ hd htitled) with hold | ⟨-, hnew⟩
      · exact (hasOpenTask_of_mem hold).mono hW.kept
      · exact hnew
    cases result.stageTransition with
    | none => exact hopen
    | some transition =>
      refine hopen.mono fun k r hk => ?_
      show (acc.1.upsert (stageActivity tenantId contact.id transition draw.stage)).get? k = _
      rw [upsert_of_noSource _ rfl]
      refine (Dict.get?_set_ne _ _ ?_).trans hk
      rintro rfl
      have hnone := hW.free draw.stage.id hstage hF.stage_ne
      rw [show acc.1.get? draw.stage.id = some r from hk] at hnone
      cases hnone
  · refine ⟨patchedRow contact data changed draw.now, ?_, fun tag htag => ?_⟩
    · rw [get?_applied hI hget hempty ht hok hF hget, if_pos rfl]
    · have hflag := changed_iff hok
      cases changed with
      | true =>
        show Known U (data.getD "tags" .null).items tag
        rw [items_patchedContact hok]
        exact known_foldl htag _
      | false =>
        -- nothing has changed, so the contact had the tag
        have hnot : ¬ Changes U contact.data result := fun h => by cases hflag.mpr h
        show Known U (contact.data.getD "tags" .null).items tag
        rw [← tagsBefore_of_not_changes hnot]
        by_contra hunknown
        exact hnot (.inr ⟨tag, htag, hunknown⟩)

end Application

/-! ## Steps and runs -/

theorem rowIds_extractionStep {U : Unicode} {I : Interpreter} {repo repo' : Repository}
    {e : Extraction} (hI : RowIds repo) (hstep : extractionStep U I repo e = some repo') :
    RowIds repo' := by
  unfold extractionStep at hstep
  split at hstep
  · cases hstep
    exact hI
  next result _ =>
    split at hstep
    next hF =>
      cases hstep
      by_cases hA : Applies U repo e.tenantId e.contactId result
      · obtain ⟨hempty, contact, hget, ht, data, changed, hok⟩ := hA
        have hid : contact.id = e.contactId := hI _ _ hget
        rw [← hid] at hget ⊢
        exact rowIds_applied hI hget hempty ht hok hF
      · rw [applied_of_not_applies hA]
        exact hI
    · cases hstep

/-- **The step lemma.** An extraction is fully applied exactly when it is applicable.

An extraction of a contact of another tenant is dropped by both sides. -/
theorem fullyApplied_iff {U : Unicode} {I : Interpreter} {repo repo' : Repository} {e : Extraction}
    (hI : RowIds repo) (hstep : extractionStep U I repo e = some repo') :
    FullyApplied U I repo e ↔ Applicable I repo e := by
  refine forall_congr' fun contact => forall_congr' fun hget => forall_congr' fun ht => ?_
  have hid : contact.id = e.contactId := hI _ _ hget
  rw [← hid] at hget
  rw [← parseReply_isOk_iff, ← hid]
  constructor
  · rintro ⟨result, repo₁, hparse, happly, -⟩
    refine ⟨⟨result, hparse⟩, fun other hother => ?_⟩
    rw [hparse] at hother
    cases hother
    exact ((apply_eq_ok_iff hget ht).mp happly).1
  · rintro ⟨⟨result, hparse⟩, hmerge⟩
    have hmerge := hmerge result hparse
    have hF : e.draw.Fresh repo result := by
      by_contra hnot
      simp only [extractionStep, hparse, if_neg hnot] at hstep
      cases hstep
    exact ⟨result, _, hparse, (apply_eq_ok_iff hget ht).mpr ⟨hmerge, rfl⟩,
      enacted_applied hI hF hget ht hmerge⟩

/-- **Extractions are fully applied.** In a run of extractions each one is applied without raising,
with an open task for each title and each tag on its contact, exactly when each reply can be read
and its tags merged where it comes.

What the model answered is free, and so is the store the run begins with: its rows need only be kept
under their ids. -/
theorem extractions_applied_iff (U : Unicode) (I : Interpreter) {repo : Repository}
    (hI : RowIds repo) (es : List Extraction) :
    EachStep (extractionStep U I) (FullyApplied U I) repo es ↔
      EachStep (extractionStep U I) (Applicable I) repo es :=
  eachStep_congr (fun _ _ _ hI hstep => rowIds_extractionStep hI hstep)
    (fun _ _ _ hI hstep => fullyApplied_iff hI hstep) hI

/-- The model finds a tag. -/
def taggedReply : Extraction :=
  ⟨"acme", "c1", "\x7b\"new_tags\": [\"vip\"]\x7d", ⟨2, [], ⟨2, "s2", 2, 2⟩⟩⟩

theorem extractions_applied_taggedReply :
    EachStep (extractionStep Unicode.ascii .boundless) (FullyApplied Unicode.ascii .boundless)
      anaStore [taggedReply] := by
  refine (extractions_applied_iff Unicode.ascii .boundless rowIds_anaStore [taggedReply]).mpr
    fun repo' _ => ⟨fun contact hget _ => ⟨fun _ => ⟨rfl, fun _ _ _ => rfl⟩, ?_⟩, trivial⟩
  intro result hparse _
  have hana : contact = ana := Option.some.inj hget.symm
  subst hana
  have htags : (parseReply .boundless taggedReply.text).toOption.all (fun result =>
      (tagsBefore ana.data result).all isHashable) = true := by
    decide +kernel
  rw [hparse] at htags
  exact List.all_eq_true.mp htags

/-- The model makes a list one of the tags. -/
def nestedReply : Extraction :=
  ⟨"acme", "c1", "\x7b\"contact_updates\": \x7b\"tags\": [[]]\x7d\x7d",
    ⟨1, [], ⟨1, "s1", 1, 1⟩⟩⟩

/-- The next tag then raises. -/
theorem not_extractions_applied : ¬ ∀ (U : Unicode) (I : Interpreter) (repo : Repository),
    RowIds repo → ∀ es : List Extraction,
      EachStep (extractionStep U I) (FullyApplied U I) repo es := by
  intro h
  have hrun := h Unicode.ascii .boundless anaStore rowIds_anaStore [nestedReply, taggedReply]
  have hraised : (extractionStep Unicode.ascii .boundless anaStore nestedReply).any (fun repo =>
      (repo.get? "c1").any (fun r => decide (r.tenantId = "acme")) &&
        (extractionStep Unicode.ascii .boundless repo taggedReply).isSome &&
          (parseReply .boundless taggedReply.text).toOption.all (fun result =>
            !(apply Unicode.ascii repo "acme" "c1" result taggedReply.draw).isOk)) = true := by
    decide +kernel
  obtain ⟨repo, hrepo, hfacts⟩ := (Option.any_eq_true _ _).mp hraised
  rw [Bool.and_eq_true, Bool.and_eq_true] at hfacts
  obtain ⟨⟨hcontact, htaken⟩, herror⟩ := hfacts
  obtain ⟨contact, hget, ht⟩ := (Option.any_eq_true _ _).mp hcontact
  obtain ⟨repo', hrepo'⟩ := Option.isSome_iff_exists.mp htaken
  obtain ⟨result, repo'', hparse, happly, -⟩ :=
    ((hrun repo hrepo).2 repo' hrepo').1 contact hget (of_decide_eq_true ht)
  rw [hparse] at herror
  have hraises : (!(apply Unicode.ascii repo "acme" "c1" result taggedReply.draw).isOk) = true :=
    herror
  rw [show apply Unicode.ascii repo "acme" "c1" result taggedReply.draw = .ok repo'' from happly]
    at hraises
  cases hraises

end Wapsell.Crm
