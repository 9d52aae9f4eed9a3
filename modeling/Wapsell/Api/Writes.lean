import Wapsell.Api.Routes
import Wapsell.Api.TaskPatch
import Wapsell.Ingestion.Preprocessor
import Wapsell.Lib.Separability
import Wapsell.Resources.QueryLog

/-!
# What the routes write

The stores behind the routes that serve tenant data, and what each request
leaves in them: facts, resources, conversations, pauses and the query log.
With the answers of the routes this makes the API a machine that takes one
request after the other, over the in-memory adapters.

The writes are data and the stores are changed by applying them, so that
each can be classed by whose part of the stores it falls into before
anything is said about runs. A skill's search is among the writers,
since it is logged.

**What this does not establish.** The Postgres adapters; and writes of
the inbound turns, which are no requests of a caller.
-/

namespace Wapsell.Api.Routes

open Lib Py Ingestion Inbox Memory Resources Skills

/-- The stores that a request may change. -/
structure Served where
  data : TenantData := {}
  pauses : Pauses := Dict.empty
  queryLog : List QueryLogEntry := []

/-- What no request here changes.

The tenants are among it: the calls here neither make nor change one. -/
structure Server where
  authRequired : Bool
  tenants : Tenants.Repository
  storeless : Storeless
  maxItems : Nat

/-- The server at a moment.

The remaining routes have nothing of their own here, so `others` is the unit. -/
def Server.deployment (S : Server) (s : Served) (now : Datetime) : Deployment Unit where
  authRequired := S.authRequired
  tenants := S.tenants
  pauses := s.pauses
  queryLog := s.queryLog
  storeless := S.storeless
  now := now
  others := ()

/-! ## Writes -/

/-- One write to one of the stores. A call makes a list of them, in the order of the code. -/
inductive Write
  | fact (f : Fact)
  | upsert (row : Resource)
  | delete (id : String)
  | remember (buyerId : String) (turn : BuyerInteraction)
  | pause (tenantId buyerId : String) (until_ : Datetime)
  | resume (tenantId buyerId : String)
  | record (entry : QueryLogEntry)

/-- The stores after a write.

Each write is the repository's own operation on its store, and touches no other. -/
def Served.apply (maxItems : Nat) (s : Served) : Write → Served
  | .fact f => { s with data := { s.data with facts := s.data.facts.addFact f } }
  | .upsert row => { s with data := { s.data with resources := s.data.resources.upsert row } }
  | .delete id => { s with data := { s.data with resources := s.data.resources.delete id } }
  | .remember buyerId turn =>
    { s with data := { s.data with memory := s.data.memory.remember maxItems buyerId turn } }
  | .pause tenantId buyerId until_ => { s with pauses := s.pauses.pause tenantId buyerId until_ }
  | .resume tenantId buyerId => { s with pauses := s.pauses.resume tenantId buyerId }
  | .record entry => { s with queryLog := record s.queryLog entry }

/-! ## Calls -/

/-- A fact of an ingest request, with what is drawn for it. -/
structure CatalogFactIn where
  content : String
  metadata : Dict String String := Dict.empty
  draw : FactDraw

/-- The fact that is made of it. -/
def CatalogFactIn.fact (tenantId source : String) (f : CatalogFactIn) : Fact where
  id := f.draw.id
  tenantId := tenantId
  source := source
  content := f.content
  metadata := f.metadata
  createdAt := f.draw.createdAt

/-- The routes that write none of the stores. -/
def Request.OnlyReads : Request Unit → Prop
  | .listCatalogFacts _ | .listConversations _ | .getConversationThread .. | .getAnalytics ..
  | .listResources .. | .getLearningInsights .. | .listCrmContacts .. | .getCrmContact ..
  | .listCrmActivities .. | .getCrmContactByPhone .. | .listCrmTasksForContact ..
  | .listCrmTasksForTenant .. => True
  | _ => False

/-- A request to one of the routes, with all that its route writes. -/
inductive Call
  | reads (q : Request Unit) (only : q.OnlyReads)
  | ingestCatalogFacts (tenantId source : String) (facts : List CatalogFactIn)
  | sendHumanMessage (tenantId buyerId : String) (req : SendMessageRequest)
      (sent : Except String (Option String))
  | pauseBot (tenantId buyerId : String) (hours : Int)
  | resumeBot (tenantId buyerId : String)
  | createResource (tenantId : String) (req : ResourceCreate) (id : String)
  | searchResources (tenantId : String) (req : ResourceSearchRequest) (buyerId : Option String)
  | deleteResource (tenantId resourceId : String)
  | patchCrmTask (tenantId taskId : String) (req : TaskPatchRequest)
  | deleteCrmTask (tenantId taskId : String)
  | invokeSkill (req : SkillRequest)

/-- The request as its route answers it. -/
def Call.request : Call → Request Unit
  | .reads q _ => q
  | .ingestCatalogFacts tenantId _ facts => .ingestCatalogFacts tenantId (facts.map (·.draw.id))
  | .sendHumanMessage tenantId buyerId req sent => .sendHumanMessage tenantId buyerId req sent
  | .pauseBot tenantId buyerId hours => .pauseBot tenantId buyerId hours
  | .resumeBot tenantId buyerId => .resumeBot tenantId buyerId
  | .createResource tenantId req id => .createResource tenantId req id
  | .searchResources tenantId req _ => .searchResources tenantId req
  | .deleteResource tenantId resourceId => .deleteResource tenantId resourceId
  | .patchCrmTask tenantId taskId req => .patchCrmTask tenantId taskId req
  | .deleteCrmTask tenantId taskId => .deleteCrmTask tenantId taskId
  | .invokeSkill req => .invokeSkill req

/-- A call, whose it is, and when it comes.

The clock comes with the call, so the answers of a run depend on the calls in their order and on
nothing else. -/
structure Asked where
  caller : Option User
  now : Datetime
  call : Call

/-- `context.get("buyer_id")` as the field of a log entry: `none` where the entry is refused. -/
def loggedBuyer (context : Dict String Json) : Option (Option String) :=
  match context.getD "buyer_id" .null with
  | .null => some none
  | .str buyerId => some (some buyerId)
  | _ => none

section Writes

variable (U : Unicode) (S : Server) (s : Served) (caller : Option User) (now : Datetime)

/-- `ingest_catalog_facts`. -/
def ingestWrites (tenantId source : String) (facts : List CatalogFactIn) : Answer → List Write
  | .ok _ => facts.map fun f => .fact (f.fact tenantId source)
  | .error _ => []

/-- `send_human_message`: the pause, unless none is asked for or it is past the last datetime, and
the turn. -/
def sendHumanMessageWrites (buyerId : String) (req : SendMessageRequest) :
    Except HTTPException Tenant → Answer → List Write
  | .ok tenant, .ok (.turn out) =>
    let until_ := (req.pauseHours.filter (0 < ·)).bind now.addHours
    (until_.map (Write.pause tenant.id buyerId)).toList ++
      [.remember buyerId { text := out.text, role := .agent, at_ := now, metadata := out.metadata }]
  | _, _ => []

/-- `pause_bot` and `resume_bot`. -/
def pauseWrites (buyerId : String) : Except HTTPException Tenant → Answer → List Write
  | .ok tenant, .ok (.pauseState (some until_)) => [.pause tenant.id buyerId until_]
  | .ok tenant, .ok (.pauseState none) => [.resume tenant.id buyerId]
  | _, _ => []

/-- `create_resource`. -/
def createWrites : Answer → List Write
  | .ok (.resource row) => [.upsert row]
  | _ => []

/-- `delete_resource` and `delete_crm_task`. -/
def deleteWrites (id : String) : Answer → List Write
  | .ok _ => [.delete id]
  | .error _ => []

/-- `patch_crm_task`: the row that is stored, also where its summary then makes the answer fail. -/
def patchWrites (tenantId taskId : String) (req : TaskPatchRequest) : List Write :=
  match TaskPatch.editedTask S.authRequired caller s.data.resources tenantId taskId req with
  | .error _ => []
  | .ok (row, data, .text summary) => [.upsert { row with data, summary, updatedAt := now }]
  | .ok (row, data, .items items) =>
    [.upsert { row with data, summary := (Json.arr items).dumps, updatedAt := now }]

/-- `search_resources`: the search is logged. -/
def searchWrites (tenantId : String) (req : ResourceSearchRequest) (buyerId : Option String) :
    Answer → List Write
  | .ok (.resources rows) =>
    let entry : QueryLogEntry :=
      { tenantId, buyerId, queryText := req.query, filters := req.filters
        resultCount := rows.length, createdAt := now }
    [.record entry]
  | _ => []

/-- `ResourceSearchSkill.execute` logs its search too. -/
def invokeSkillWrites (req : SkillRequest) : List Write :=
  if req.skill = "resource-search" then
    match searchCall U req.context req.params with
    | .ok (.ok call) =>
      match s.data.resources.search U call.tenantId call.filters call.queryText call.kind call.limit,
          loggedBuyer req.context with
      | .ok hits, some buyerId =>
        let entry : QueryLogEntry :=
          { tenantId := call.tenantId, buyerId, queryText := call.queryText
            filters := call.filters, resultCount := hits.length, createdAt := now }
        [.record entry]
      | _, _ => []
    | _ => []
  else []

/-- What a call writes. -/
def writes (call : Call) : List Write :=
  let E := S.deployment s now
  let outcome := answer U E s.data caller call.request
  match call with
  | .reads .. => []
  | .ingestCatalogFacts tenantId source facts => ingestWrites tenantId source facts outcome
  | .sendHumanMessage tenantId buyerId req _ =>
    sendHumanMessageWrites now buyerId req (tenantForConv E caller tenantId buyerId) outcome
  | .pauseBot tenantId buyerId _ | .resumeBot tenantId buyerId =>
    pauseWrites buyerId (tenantForConv E caller tenantId buyerId) outcome
  | .createResource .. => createWrites outcome
  | .searchResources tenantId req buyerId => searchWrites now tenantId req buyerId outcome
  | .deleteResource _ id | .deleteCrmTask _ id => deleteWrites id outcome
  | .patchCrmTask tenantId taskId req => patchWrites S s caller now tenantId taskId req
  | .invokeSkill req => invokeSkillWrites U s now req

end Writes

/-- The API over its stores. -/
def machine (U : Unicode) (S : Server) : Machine Served Asked Answer where
  next s a := (writes U S s a.caller a.now a.call).foldl (Served.apply S.maxItems) s
  answer s a := answer U (S.deployment s a.now) s.data a.caller a.call.request

/-- The row a PATCH leaves is the one it writes. -/
theorem patchWrites_eq (S : Server) (s : Served) (caller : Option User) (now : Datetime)
    (tenantId taskId : String) (req : TaskPatchRequest) :
    ((patchWrites S s caller now tenantId taskId req).foldl (Served.apply S.maxItems) s).data.resources =
      (TaskPatch.patchCrmTask S.authRequired caller s.data.resources tenantId taskId req now).2 := by
  rw [patchWrites, TaskPatch.patchCrmTask]
  cases TaskPatch.editedTask S.authRequired caller s.data.resources tenantId taskId req with
  | error e => rfl
  | ok edited =>
    obtain ⟨row, data, sliced⟩ := edited
    cases sliced <;> rfl

end Wapsell.Api.Routes
