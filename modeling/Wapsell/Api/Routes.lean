import Wapsell.Api.Access
import Wapsell.Api.Analytics
import Wapsell.Api.Conversations
import Wapsell.Api.Inbound
import Wapsell.Resources.Learning
import Wapsell.Skills.Registry

/-!
# The routes that serve tenant data

The routes of `services/api/main.py` over facts, resources and conversations,
as what they answer: the access check, the checks behind it, and the body.
What a route writes is not part of its answer, and what it draws (ids, the
clock, the answer of the gateway) comes with the request.

The answers are kept apart from the writes so that a theorem about what
is told to a caller is about this one function. A request carries the
ids that its route draws and the answer of the gateway; two runs with
the same request then differ in the stores only.

**What this does not establish.** Routes that read none of these stores
are one constructor with any answer that does not see them. The
validation of request bodies by the framework is before a request and
not in it.
-/

namespace Wapsell.Api.Routes

open Lib Py Ingestion Inbox Memory Resources Skills

/-- The facts, resources and conversations of all tenants. -/
structure TenantData where
  facts : Hindsight := []
  resources : Resources.Repository := Dict.empty
  memory : BuyerMemory := Dict.empty

/-- What else the routes read: these stores, the clock, and all others. `others` is whatever the
remaining routes need, and nothing here looks into it.

It is fixed while a request is answered. Two deployments that differ in `others` alone answer every
route here alike, but for those that are elsewhere. -/
structure Deployment (ρ : Type) where
  authRequired : Bool
  tenants : Tenants.Repository
  pauses : Pauses
  queryLog : List QueryLogEntry
  storeless : Storeless
  now : Datetime
  others : ρ

/-! ## Bodies -/

/-- One fact of the catalog listing. -/
structure CatalogFactOut where
  id : String
  source : String
  content : String
  metadata : Dict String String
  createdAt : Datetime

/-- A row of the conversations inbox. -/
structure ConversationThreadOut where
  buyerId : String
  fromNumber : String
  messageCount : Nat
  lastAt : Datetime
  lastText : String
  botPaused : Bool
  botPausedUntil : Option Datetime

/-- One turn of a thread. -/
structure ConversationTurnOut where
  role : Role
  text : String
  at_ : Datetime
  metadata : Dict String String

/-- The learning insights and the hints made of them. -/
structure LearningInsightsOut where
  insights : LearningInsights
  soulHints : String

/-- A contact. -/
structure ContactOut where
  id : String
  tenantId : String
  externalId : Option String
  summary : String
  data : Dict String Json
  createdAt : Datetime
  updatedAt : Datetime

/-- An activity of a contact. -/
structure ActivityOut where
  id : String
  externalId : Option String
  summary : String
  data : Dict String Json
  createdAt : Datetime

/-- A task. -/
structure TaskOut where
  id : String
  externalId : Option String
  summary : String
  data : Dict String Json
  createdAt : Datetime
  updatedAt : Datetime

/-- `from_resource` of a contact. -/
def ContactOut.fromResource (r : Resource) : ContactOut :=
  ⟨r.id, r.tenantId, r.externalId, r.summary, r.data, r.createdAt, r.updatedAt⟩

/-- `from_resource` of an activity. -/
def ActivityOut.fromResource (r : Resource) : ActivityOut :=
  ⟨r.id, r.externalId, r.summary, r.data, r.createdAt⟩

/-- `from_resource` of a task. -/
def TaskOut.fromResource (r : Resource) : TaskOut :=
  ⟨r.id, r.externalId, r.summary, r.data, r.createdAt, r.updatedAt⟩

/-- The body of an answer; a `ResourceOut` has the fields of a `Resource`. -/
inductive Body
  | ingested (tenantId : String) (factIds : List String)
  | facts (rows : List CatalogFactOut)
  | threads (rows : List ConversationThreadOut)
  | thread (turns : List ConversationTurnOut) (botPausedUntil : Option Datetime)
  | turn (out : ConversationTurnOut)
  | pauseState (botPausedUntil : Option Datetime)
  | analytics (out : AnalyticsOut)
  | resource (row : Resource)
  | resources (rows : List Resource)
  | learning (out : LearningInsightsOut)
  | contact (out : ContactOut)
  | contacts (rows : List ContactOut)
  | activities (rows : List ActivityOut)
  | task (out : TaskOut)
  | tasks (rows : List TaskOut)
  | json (value : Json)
  | noContent

/-- An answer: a body, or the error. -/
abbrev Answer := Except HTTPException Body

/-- An exception no route catches is a 500.

The text is FastAPI's, whatever was raised. -/
def orInternalError {α : Type} : Except Exc α → Except HTTPException α
  | .ok a => .ok a
  | .error _ => .error ⟨500, "Internal Server Error"⟩

/-! ## Requests -/

/-- The body of `POST .../send`. -/
structure SendMessageRequest where
  text : String
  pauseHours : Option Int := some 8

/-- The body of `POST .../resources`.

The route makes no check of it behind the framework's, so any source and any external id may be
named. -/
structure ResourceCreate where
  kind : String := "item"
  externalId : Option String := none
  data : Dict String Json := Dict.empty
  summary : String := ""
  sourceId : Option String := none

/-- The body of `POST .../resources/search`. -/
structure ResourceSearchRequest where
  filters : Dict String Json := Dict.empty
  query : Option String := none
  kind : Option String := none
  limit : Int := 10

/-- The body of `PATCH .../crm/tasks/{task_id}`. -/
structure TaskPatchRequest where
  title : Option String := none
  status : Option String := none
  dueAt : Option String := none
  priority : Option String := none
  confirmed : Option Bool := none

/-- The body of `POST /skills/invoke`.

The context comes from the caller like the parameters; that it names a tenant of the caller's is not
looked at. -/
structure SkillRequest where
  skill : String
  context : Dict String Json := Dict.empty
  params : Dict String Json := Dict.empty

/-- A request, with what its route draws. -/
inductive Request (ρ : Type)
  | ingestCatalogFacts (tenantId : String) (factIds : List String)
  | listCatalogFacts (tenantId : String)
  | listConversations (tenantId : String)
  | getConversationThread (tenantId buyerId : String)
  | sendHumanMessage (tenantId buyerId : String) (req : SendMessageRequest)
      (sent : Except String (Option String))
  | pauseBot (tenantId buyerId : String) (hours : Int)
  | resumeBot (tenantId buyerId : String)
  | getAnalytics (tenantId : String) (days : Int)
  | createResource (tenantId : String) (req : ResourceCreate) (id : String)
  | listResources (tenantId : String) (kind : Option String) (limit : Int)
  | searchResources (tenantId : String) (req : ResourceSearchRequest)
  | deleteResource (tenantId resourceId : String)
  | getLearningInsights (tenantId : String) (kind : Option String) (sampleSize days topN : Int)
  | listCrmContacts (tenantId : String) (limit : Int)
  | getCrmContact (tenantId contactId : String)
  | listCrmActivities (tenantId contactId : String) (limit : Int)
  | getCrmContactByPhone (tenantId fromNumber : String)
  | listCrmTasksForContact (tenantId contactId : String) (limit : Int)
  | listCrmTasksForTenant (tenantId : String) (status : Option String) (limit : Int)
  | patchCrmTask (tenantId taskId : String) (req : TaskPatchRequest)
  | deleteCrmTask (tenantId taskId : String)
  | invokeSkill (req : SkillRequest)
  /-- A route that reads none of the facts, resources and conversations: tenants, SOUL, handoff,
  sources, templates, billing, users, `GET /skills`, `POST /goal`. -/
  | elsewhere (answer : Deployment ρ → Option User → Answer)

/-! ## The routes -/

variable {ρ : Type} (U : Unicode) (E : Deployment ρ) (D : TenantData) (caller : Option User)

/-- The access check, and the tenant.

A tenant the caller has no access to is refused before it is looked up, so the answer does not tell
whether it exists. -/
def accessedTenant (tenantId : String) : Except HTTPException Tenant := do
  let _ ← assertTenantAccess E.authRequired caller tenantId
  tenantOr404 E.tenants tenantId

/-- `ingest_catalog_facts`: an id is drawn for each fact of the request. -/
def ingestCatalogFacts (tenantId : String) (factIds : List String) : Answer := do
  let _ ← accessedTenant E caller tenantId
  if factIds = [] then .error ⟨422, "facts must not be empty"⟩
  else .ok (.ingested tenantId factIds)

/-- `list_catalog_facts`.

All facts of the tenant, in the order they were added. -/
def listCatalogFacts (tenantId : String) : Answer := do
  let _ ← accessedTenant E caller tenantId
  .ok (.facts ((D.facts.allFor tenantId).map fun f =>
    ⟨f.id, f.source, f.content, f.metadata, f.createdAt⟩))

/-- `list_active`, as a dictionary by the buyer id.

It is asked once for the listing, so every row is judged at one time. -/
def pausedByBid (tenantId : String) : Dict String BotPause :=
  (E.pauses.entries.filter fun e => e.1.1 = tenantId ∧ E.now < e.2.pausedUntil).foldl
    (fun d e => d.set e.2.buyerId e.2) Dict.empty

/-- `list_conversations`.

At most a hundred threads, the most recent ones. The number in a row is what stands behind the first
colon of the buyer id. -/
def listConversations (tenantId : String) : Answer := do
  let tenant ← accessedTenant E caller tenantId
  let paused := pausedByBid E tenant.id
  .ok (.threads ((D.memory.listThreads (some (tenant.slug ++ ":")) 100).map fun t =>
    { buyerId := t.buyerId, fromNumber := splitFromNumber t.buyerId
      messageCount := t.messageCount, lastAt := t.lastAt, lastText := t.lastText
      botPaused := (paused.get? t.buyerId).isSome
      botPausedUntil := (paused.get? t.buyerId).map BotPause.pausedUntil }))

/-- `_tenant_for_conv`, behind the access check.

The guard looks at the buyer id and not at the store, so a thread that does not exist passes when it
is spelled for the tenant. -/
def tenantForConv (tenantId buyerId : String) : Except HTTPException Tenant := do
  let tenant ← accessedTenant E caller tenantId
  if passesGuard tenant buyerId then .ok tenant else .error ⟨404, "conversation not found"⟩

/-- `get_conversation_thread`.

The whole thread is answered, and an unknown buyer id has the empty one. -/
def getConversationThread (tenantId buyerId : String) : Answer := do
  let tenant ← tenantForConv E caller tenantId buyerId
  let pause := (E.pauses.get? (tenant.id, buyerId)).filter fun p => E.now < p.pausedUntil
  .ok (.thread ((D.memory.recall_ buyerId none).map fun t => ⟨t.role, t.text, t.at_, t.metadata⟩)
    (pause.map BotPause.pausedUntil))

/-- `send_human_message`: what the gateway does is in `sent`, and a pause past the last datetime is
given up. -/
def sendHumanMessage (tenantId buyerId : String) (req : SendMessageRequest)
    (sent : Except String (Option String)) : Answer := do
  let _ ← tenantForConv E caller tenantId buyerId
  let text := strip req.text
  if text = "" then .error ⟨422, "text must not be empty"⟩
  else
    let until_ := (req.pauseHours.filter (0 < ·)).bind E.now.addHours
    .ok (.turn ⟨.agent, text, E.now, humanMeta sent until_⟩)

/-- `pause_bot`. -/
def pauseBot (tenantId buyerId : String) (hours : Int) : Answer := do
  let _ ← tenantForConv E caller tenantId buyerId
  if hours ≤ 0 then .error ⟨422, "hours must be > 0"⟩
  else match E.now.addHours hours with
    | some until_ => .ok (.pauseState (some until_))
    | none => orInternalError (.error .overflowError)

/-- `resume_bot`.

It answers the same whether the bot was paused or not. -/
def resumeBot (tenantId buyerId : String) : Answer := do
  let _ ← tenantForConv E caller tenantId buyerId
  .ok (.pauseState none)

/-- `get_analytics`. -/
def getAnalytics (tenantId : String) (days : Int) : Answer := do
  let tenant ← accessedTenant E caller tenantId
  if days ≤ 0 ∨ ANALYTICS_MAX_DAYS < days then .error ⟨422, "days must be between 1 and 365"⟩
  else match E.now.subDays days with
    | none => orInternalError (.error .overflowError)
    | some since =>
      .ok (.analytics (analyticsOf since E.now days (threadsOf D.memory (tenant.slug ++ ":"))))

/-- `req.summary or str(data.get("title") or data.get("name") or "")[:120]`. -/
def resourceSummary (req : ResourceCreate) : String :=
  let title := req.data.getD "title" .null
  let name := req.data.getD "name" .null
  if req.summary ≠ "" then req.summary
  else take 120 ((if title.truthy then title else if name.truthy then name else .str "").toStr U)

/-- `create_resource`: `upsert` answers the row it was given. -/
def createResource (tenantId : String) (req : ResourceCreate) (id : String) : Answer := do
  let _ ← accessedTenant E caller tenantId
  .ok (.resource
    { id, tenantId, sourceId := req.sourceId, kind := req.kind, externalId := req.externalId
      data := req.data, summary := resourceSummary U req, createdAt := E.now, updatedAt := E.now })

/-- `list_resources`. -/
def listResources (tenantId : String) (kind : Option String) (limit : Int) : Answer := do
  let _ ← accessedTenant E caller tenantId
  .ok (.resources (D.resources.listFor tenantId kind limit))

/-- `search_resources`.

The tenant is the one of the path, whatever the filters say. -/
def searchResources (tenantId : String) (req : ResourceSearchRequest) : Answer := do
  let _ ← accessedTenant E caller tenantId
  let results ← orInternalError
    (D.resources.search U tenantId req.filters req.query req.kind req.limit)
  .ok (.resources results)

/-- `resources.get`, unless the row is another tenant's or of another kind. The detail is the same
as for a row that is not there, so the answer does not tell them apart. -/
def ownedOr404 (tenantId id : String) (kind : Option String) (detail : String) :
    Except HTTPException Resource :=
  match D.resources.get id with
  | none => .error ⟨404, detail⟩
  | some r => if r.tenantId = tenantId ∧ kind.all (r.kind = ·) then .ok r else .error ⟨404, detail⟩

/-- The check of the contact routes.

The kind is checked as well, so a task is not shown as a contact. -/
def contactOr404 (tenantId contactId : String) : Except HTTPException Resource :=
  ownedOr404 D tenantId contactId (some "contact") "contact not found"

/-- `_load_task_resource`. -/
def loadTaskResource (tenantId taskId : String) : Except HTTPException Resource :=
  ownedOr404 D tenantId taskId (some "task") "task not found"

/-- `delete_resource`. -/
def deleteResource (tenantId resourceId : String) : Answer := do
  let _ ← assertTenantAccess E.authRequired caller tenantId
  let _ ← ownedOr404 D tenantId resourceId none "resource not found"
  .ok .noContent

/-- `get_learning_insights`. -/
def getLearningInsights (tenantId : String) (kind : Option String)
    (sampleSize days topN : Int) : Answer := do
  let _ ← accessedTenant E caller tenantId
  let found ← orInternalError
    (insights U D.resources E.queryLog tenantId E.now kind sampleSize days topN)
  let hints ← orInternalError (renderSoulHints U D.resources E.queryLog tenantId E.now kind)
  .ok (.learning ⟨found, hints⟩)

/-- `list_crm_contacts`. -/
def listCrmContacts (tenantId : String) (limit : Int) : Answer := do
  let _ ← accessedTenant E caller tenantId
  .ok (.contacts ((D.resources.listFor tenantId (some "contact") limit).map ContactOut.fromResource))

/-- `get_crm_contact`. -/
def getCrmContact (tenantId contactId : String) : Answer := do
  let _ ← assertTenantAccess E.authRequired caller tenantId
  let contact ← contactOr404 D tenantId contactId
  .ok (.contact (.fromResource contact))

/-- The rows of a kind that name the contact in their data.

The newest ten thousand of the kind are looked through, and an activity beyond these is not
found. -/
def linkedTo (tenantId kind contactId : String) : List Resource :=
  (D.resources.listFor tenantId (some kind) 10000).filter fun r =>
    (r.data.getD "contact_id" .null).pyEq (.str contactId)

/-- `list_crm_activities`. -/
def listCrmActivities (tenantId contactId : String) (limit : Int) : Answer := do
  let _ ← assertTenantAccess E.authRequired caller tenantId
  let _ ← contactOr404 D tenantId contactId
  .ok (.activities ((upTo limit (linkedTo D tenantId "activity" contactId)).map
    ActivityOut.fromResource))

/-- `get_crm_contact_by_phone`. -/
def getCrmContactByPhone (tenantId fromNumber : String) : Answer := do
  let _ ← assertTenantAccess E.authRequired caller tenantId
  match D.resources.findByExternalId tenantId Crm.CONTACT_KIND
      (Crm.contactExternalId fromNumber) with
  | none => .error ⟨404, "contact not found"⟩
  | some contact => .ok (.contact (.fromResource contact))

/-- `data.get("status") == status`. -/
def hasStatus (status : String) (r : Resource) : Bool :=
  (r.data.getD "status" .null).pyEq (.str status)

/-- `list_crm_tasks_for_contact`: the open ones first. -/
def listCrmTasksForContact (tenantId contactId : String) (limit : Int) : Answer := do
  let _ ← assertTenantAccess E.authRequired caller tenantId
  let _ ← contactOr404 D tenantId contactId
  let sorted := (linkedTo D tenantId "task" contactId).insertionSort fun a b =>
    hasStatus "open" b = true → hasStatus "open" a = true
  .ok (.tasks ((upTo limit sorted).map TaskOut.fromResource))

/-- `list_crm_tasks_for_tenant`.

An empty status is no filter, and one that no task has leaves nothing. -/
def listCrmTasksForTenant (tenantId : String) (status : Option String) (limit : Int) : Answer := do
  let _ ← accessedTenant E caller tenantId
  let tasks := D.resources.listFor tenantId (some "task") 10000
  let tasks := match status with
    | some s => if s ≠ "" then tasks.filter (hasStatus s) else tasks
    | none => tasks
  .ok (.tasks ((upTo limit tasks).map TaskOut.fromResource))

/-- The data of a task after a patch. -/
def patchedData (data : Dict String Json) (req : TaskPatchRequest) :
    Except HTTPException (Dict String Json) := do
  let data := match req.title with
    | some title => data.set "title" (.str (take 200 (strip title)))
    | none => data
  let data ← match req.status with
    | some status =>
      if status = "open" ∨ status = "done" ∨ status = "dismissed" then
        .ok (data.set "status" (.str status))
      else .error ⟨400, "invalid status"⟩
    | none => .ok data
  let data := match req.dueAt with
    | some dueAt => if dueAt = "" then data.erase "due_at" else data.set "due_at" (.str dueAt)
    | none => data
  let data ← match req.priority with
    | some priority =>
      if priority = "low" ∨ priority = "med" ∨ priority = "high" then
        .ok (data.set "priority" (.str priority))
      else .error ⟨400, "invalid priority"⟩
    | none => .ok data
  .ok (match req.confirmed with
    | some confirmed => data.set "confirmed" (.bool confirmed)
    | none => data)

/-- `data.get("title", summary)[:200]`: a title that is no text raises. -/
def taskSummary (data : Dict String Json) (summary : String) : Except HTTPException String :=
  match data.getD "title" (.str summary) with
  | .str title => .ok (take 200 title)
  | _ => orInternalError (.error .typeError)

/-- `patch_crm_task`. -/
def patchCrmTask (tenantId taskId : String) (req : TaskPatchRequest) : Answer := do
  let _ ← assertTenantAccess E.authRequired caller tenantId
  let resource ← loadTaskResource D tenantId taskId
  let data ← patchedData resource.data req
  let summary ← taskSummary data resource.summary
  .ok (.task (.fromResource { resource with data, summary, updatedAt := E.now }))

/-- `delete_crm_task`. -/
def deleteCrmTask (tenantId taskId : String) : Answer := do
  let _ ← assertTenantAccess E.authRequired caller tenantId
  let _ ← loadTaskResource D tenantId taskId
  .ok .noContent

/-- `invoke_skill`: no access check, and the tenant is the one the context names. This is what the
source does; every other route of a tenant checks first. -/
def invokeSkill (req : SkillRequest) : Answer := do
  let result ← orInternalError
    (invoke U E.storeless D.facts D.resources req.skill req.context req.params)
  .ok (.json result.toJson)

/-- The answer to a request. -/
def answer : Request ρ → Answer
  | .ingestCatalogFacts tenantId factIds => ingestCatalogFacts E caller tenantId factIds
  | .listCatalogFacts tenantId => listCatalogFacts E D caller tenantId
  | .listConversations tenantId => listConversations E D caller tenantId
  | .getConversationThread tenantId buyerId => getConversationThread E D caller tenantId buyerId
  | .sendHumanMessage tenantId buyerId req sent =>
    sendHumanMessage E caller tenantId buyerId req sent
  | .pauseBot tenantId buyerId hours => pauseBot E caller tenantId buyerId hours
  | .resumeBot tenantId buyerId => resumeBot E caller tenantId buyerId
  | .getAnalytics tenantId days => getAnalytics E D caller tenantId days
  | .createResource tenantId req id => createResource U E caller tenantId req id
  | .listResources tenantId kind limit => listResources E D caller tenantId kind limit
  | .searchResources tenantId req => searchResources U E D caller tenantId req
  | .deleteResource tenantId resourceId => deleteResource E D caller tenantId resourceId
  | .getLearningInsights tenantId kind sampleSize days topN =>
    getLearningInsights U E D caller tenantId kind sampleSize days topN
  | .listCrmContacts tenantId limit => listCrmContacts E D caller tenantId limit
  | .getCrmContact tenantId contactId => getCrmContact E D caller tenantId contactId
  | .listCrmActivities tenantId contactId limit =>
    listCrmActivities E D caller tenantId contactId limit
  | .getCrmContactByPhone tenantId fromNumber => getCrmContactByPhone E D caller tenantId fromNumber
  | .listCrmTasksForContact tenantId contactId limit =>
    listCrmTasksForContact E D caller tenantId contactId limit
  | .listCrmTasksForTenant tenantId status limit =>
    listCrmTasksForTenant E D caller tenantId status limit
  | .patchCrmTask tenantId taskId req => patchCrmTask E D caller tenantId taskId req
  | .deleteCrmTask tenantId taskId => deleteCrmTask E D caller tenantId taskId
  | .invokeSkill req => invokeSkill U E D req
  | .elsewhere answer => answer E caller

end Wapsell.Api.Routes
