import Wapsell.Crm.Recorder

/-!
# The CRM extractor

The apply half of `sdk/wapsell/crm/extractor.py`: what the model found in a
conversation is merged into the contact, written as tasks, and left as a
breadcrumb activity. The clock of the patch and the defaults of each
`Resource` it creates are arguments.

The order of the writes is the source's, and so is where one may raise:
of the three parts only the patch can, on a tag that cannot be in a set,
and it comes first. So a call that raises has written nothing.

**What this does not establish.** What the model finds, and how its
reply is read; the parser is another module, and here any result may be
applied to any contact.
-/

namespace Wapsell.Crm

open Lib Py Resources

def TASK_KIND : String := "task"

def AUTO_SOURCE : String := "llm-extractor"

def MAX_TASK_TITLE_CHARS : Nat := 200

/-- One to-do the model identified. -/
structure ExtractedTask where
  title : String
  dueAt : Option String := none
  priority : Option String := none

/-- A change of stage, kept for later. -/
structure StageTransition where
  fromStage : Option String
  toStage : String
  reason : Option String := none

/-- What `extract` returns. -/
structure ExtractionResult where
  contactUpdates : Dict String Json := Dict.empty
  newTasks : List ExtractedTask := []
  newTags : List String := []
  stageTransition : Option StageTransition := none

/-- `is_empty`. -/
def ExtractionResult.isEmpty (result : ExtractionResult) : Bool :=
  result.contactUpdates.entries.isEmpty && result.newTasks.isEmpty && result.newTags.isEmpty &&
    result.stageTransition.isNone

/-- `_PROTECTED_CONTACT_FIELDS`: what the model may not overwrite, whatever it answers. -/
def PROTECTED_CONTACT_FIELDS : List String :=
  ["phone", "first_contact_at", "last_seen_at", "turn_count", "source"]

/-! ## The contact -/

/-- One entry of `contact_updates`; the flag tells whether anything has changed so far.

A field that is equal by `==` is left, so `1` stays where the model answers `true`. -/
def patchField (acc : Dict String Json × Bool) (update : String × Json) : Dict String Json × Bool :=
  if update.1 ∈ PROTECTED_CONTACT_FIELDS then acc
  else if (acc.1.getD update.1 .null).pyEq update.2 then acc
  else (acc.1.set update.1 update.2, true)

/-- The loop over `contact_updates`. -/
def patchFields (data : Dict String Json) (updates : Dict String Json) : Dict String Json × Bool :=
  updates.entries.foldl patchField (data, false)

/-- Can a value be in a set?

`set` hashes each of the tags the contact has, so one list among them raises. -/
def isHashable : Json → Bool
  | .arr _ => false
  | .obj _ => false
  | _ => true

/-- One entry of `new_tags`.

The tag is compared and stored lowered and stripped; the tags that are there are compared as they
are. -/
def addTag (U : Unicode) (acc : List Json × Bool) (tag : String) : List Json × Bool :=
  let normalized := lower U (strip tag)
  if normalized ≠ "" ∧ ¬ acc.1.any (·.pyEq (.str normalized)) then
    (acc.1 ++ [.str normalized], true)
  else acc

/-- `new_tags` behind the tags the data has; `set(tags_list)` of a list or a dictionary raises.

The flag is set by new tags alone. The list is written back in either case, which matters only where
another part of the patch changed something. -/
def mergeTags (U : Unicode) (data : Dict String Json) (newTags : List String) :
    Except Exc (Dict String Json × Bool) :=
  if newTags = [] then .ok (data, false)
  else
    let tagsList := (data.getD "tags" .null).items
    if tagsList.all isHashable then
      let (tags, changed) := newTags.foldl (addTag U) (tagsList, false)
      .ok (data.set "tags" (.arr tags), changed)
    else .error .typeError

/-- The data of a patched contact, and whether the patch changed it. -/
def patchedContact (U : Unicode) (data : Dict String Json) (result : ExtractionResult) :
    Except Exc (Dict String Json × Bool) := do
  let (data, changed) := patchFields data result.contactUpdates
  let (data, tagged) ← mergeTags U data result.newTags
  .ok (data, changed || tagged)

/-- `_patch_contact`.

Where nothing has changed nothing is written, and the contact keeps its time stamp. -/
def patchContact (U : Unicode) (repo : Repository) (contact : Resource) (result : ExtractionResult)
    (now : Datetime) : Except Exc Repository := do
  let (data, changed) ← patchedContact U contact.data result
  .ok (if changed then repo.upsert { contact with data, updatedAt := now } else repo)

/-! ## The tasks -/

/-- `re.sub(r"\s+", " ", ·)`, told whether white space came just before. -/
def collapseSpaces : Bool → List Char → List Char
  | _, [] => []
  | after, c :: cs =>
    if isSpace c then (if after then [] else [' ']) ++ collapseSpaces true cs
    else c :: collapseSpaces false cs

/-- `_task_dedup_key`: the title lowered, trimmed, and with its white space collapsed. Two titles
with one key are one task. -/
def taskDedupKey (U : Unicode) (title : String) : String :=
  String.ofList (collapseSpaces false (lower U (strip title)).toList)

example : taskDedupKey Unicode.ascii " Llamar  Ana " = "llamar ana" := by decide

/-- An open task of the contact. -/
def isOpenTaskOf (contactId : String) (r : Resource) : Bool :=
  (r.data.getD "contact_id" .null).pyEq (.str contactId) &&
    (r.data.getD "status" .null).pyEq (.str "open")

/-- The key of a task's title, unless the title is empty. -/
def titleKey? (U : Unicode) (r : Resource) : Option String :=
  let title := (r.data.getD "title" (.str "")).toStr U
  if title ≠ "" then some (taskDedupKey U title) else none

/-- `_open_task_titles`: the tenant's newest thousand tasks are looked at, and the contact's open
ones among them are taken. What lies beyond the thousand is not seen. -/
def openTaskTitles (U : Unicode) (repo : Repository) (tenantId contactId : String) : List String :=
  ((repo.listFor tenantId (some TASK_KIND) 1000).filter (isOpenTaskOf contactId)).filterMap
    (titleKey? U)

/-- The title a task is written under. -/
def ExtractedTask.cappedTitle (task : ExtractedTask) : String :=
  take MAX_TASK_TITLE_CHARS (strip task.title)

/-- `f"task:{contact_id}:{key}"`. -/
def taskExternalId (contactId key : String) : String := s!"task:{contactId}:{key}"

/-- The row of a task.

The two optional fields are left out when they are empty, so a task without a due date has no such
key. -/
def newTask (tenantId contactId title key : String) (task : ExtractedTask) (draw : Draw) :
    Resource :=
  let data : Dict String Json :=
    ((((Dict.empty.set "contact_id" (.str contactId)).set "title" (.str title)).set "status"
      (.str "open")).set "source" (.str AUTO_SOURCE)).set "auto" (.bool true)
  let data := match task.dueAt.filter (· ≠ "") with
    | some dueAt => data.set "due_at" (.str dueAt)
    | none => data
  { id := draw.id, tenantId, kind := TASK_KIND
    externalId := some (taskExternalId contactId key)
    data := match task.priority.filter (· ≠ "") with
      | some priority => data.set "priority" (.str priority)
      | none => data
    summary := take MAX_TASK_TITLE_CHARS title
    createdAt := draw.createdAt, updatedAt := draw.updatedAt }

/-- One round of `_write_tasks`: the store and the titles known so far.

The key joins the titles known so far, so a result that names one task twice writes it once. -/
def writeTask (U : Unicode) (tenantId contactId : String) (acc : Repository × List String)
    (task : ExtractedTask) (draw : Draw) : Repository × List String :=
  let title := task.cappedTitle
  let key := taskDedupKey U title
  if title = "" ∨ key ∈ acc.2 then acc
  else (acc.1.upsert (newTask tenantId contactId title key task draw), key :: acc.2)

/-- The loop of `_write_tasks`. -/
def writeTaskLoop (U : Unicode) (tenantId contactId : String) :
    Repository × List String → List (ExtractedTask × Draw) → Repository × List String
  | acc, [] => acc
  | acc, (task, draw) :: rest =>
    writeTaskLoop U tenantId contactId (writeTask U tenantId contactId acc task draw) rest

theorem writeTaskLoop_nil (U : Unicode) (tenantId contactId : String)
    (acc : Repository × List String) : writeTaskLoop U tenantId contactId acc [] = acc := rfl

theorem writeTaskLoop_cons (U : Unicode) (tenantId contactId : String)
    (acc : Repository × List String) (task : ExtractedTask) (draw : Draw)
    (rest : List (ExtractedTask × Draw)) :
    writeTaskLoop U tenantId contactId acc ((task, draw) :: rest) =
      writeTaskLoop U tenantId contactId (writeTask U tenantId contactId acc task draw) rest := by
  -- one step of the loop, without a look into the round
  conv_lhs => whnf

/-- `_write_tasks`: a draw for each task. -/
def writeTasks (U : Unicode) (repo : Repository) (tenantId contactId : String)
    (tasks : List (ExtractedTask × Draw)) : Repository :=
  if tasks = [] then repo
  else (writeTaskLoop U tenantId contactId (repo, openTaskTitles U repo tenantId contactId) tasks).1

/-! ## The stage -/

/-- `f"stage:{contact_id}:{to_stage}"`. -/
def stageExternalId (contactId toStage : String) : String := s!"stage:{contactId}:{toStage}"

/-- The one-line summary of a transition. -/
def stageSummary (transition : StageTransition) : String :=
  match transition.fromStage.filter (· ≠ "") with
  | some fromStage => s!"Stage {fromStage} → {transition.toStage}"
  | none => s!"Stage → {transition.toStage}"

/-- A text, or `null`. -/
def jsonOf : Option String → Json
  | some text => .str text
  | none => .null

/-- The breadcrumb of a transition.

The external id is made of the contact and the stage, but without a source it is no dedup key: a
stage that is entered again leaves a second row. -/
def stageActivity (tenantId contactId : String) (transition : StageTransition) (draw : Draw) :
    Resource where
  id := draw.id
  tenantId
  kind := ACTIVITY_KIND
  externalId := some (stageExternalId contactId transition.toStage)
  data := (((((((Dict.empty.set "contact_id" (.str contactId)).set "type"
    (.str "stage_transition")).set "from" (jsonOf transition.fromStage)).set "to"
      (.str transition.toStage)).set "reason" (jsonOf transition.reason)).set "source"
        (.str AUTO_SOURCE)).set "auto" (.bool true)).set "at" (.str draw.now.isoformat)
  summary := stageSummary transition
  createdAt := draw.createdAt
  updatedAt := draw.updatedAt

/-- `_maybe_write_stage_activity`. -/
def maybeWriteStageActivity (repo : Repository) (tenantId contactId : String)
    (transition : Option StageTransition) (draw : Draw) : Repository :=
  match transition with
  | none => repo
  | some transition => repo.upsert (stageActivity tenantId contactId transition draw)

/-! ## The application -/

/-- What an application draws: the clock of the patch, and what each row it may create takes. -/
structure ApplyDraw where
  now : Datetime
  tasks : List Draw
  stage : Draw

/-- `CrmExtractor.apply`: nothing for an empty result, and nothing where the contact is gone or
another tenant's. Only the patch may raise, and it raises before anything is written. -/
def apply (U : Unicode) (repo : Repository) (tenantId contactId : String)
    (result : ExtractionResult) (draw : ApplyDraw) : Except Exc Repository :=
  if result.isEmpty then .ok repo
  else match repo.get contactId with
    | none => .ok repo
    | some contact =>
      if contact.tenantId ≠ tenantId then .ok repo
      else do
        let repo ← patchContact U repo contact result draw.now
        let repo := writeTasks U repo tenantId contactId (result.newTasks.zip draw.tasks)
        .ok (maybeWriteStageActivity repo tenantId contactId result.stageTransition draw.stage)

end Wapsell.Crm
