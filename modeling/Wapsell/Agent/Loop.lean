import Wapsell.Agent.Soul
import Wapsell.Handoff.Detector
import Wapsell.Ingestion.Hindsight
import Wapsell.Memory.Buyer
import Wapsell.Resources.Learning

/-!
# The agent loop

`AgentLoop.respond` of `sdk/wapsell/agent/loop.py`, as `WapsellClient`
wires it: no resource kind, five resources, five facts, six turns of
history, and the learning service on. `respond` either answers a handoff
by itself or suspends on the LLM; what it sends is a pure function of the
stores at that moment.

What is sent is kept apart from what is answered. The message list is
fixed by the stores before the model is called, so a theorem about a
prompt needs nothing of the model, and one about a reply quantifies over
what it may answer. Failures of the two lookups that the loop catches
are part of `respond`: they read as no hints and no items.

**What this does not establish.** Nothing of what a model makes of a
prompt. The stores are read at one moment; what another turn writes in
between two of the loop's awaits is left to the model of the turns.
-/

namespace Wapsell.Agent

open Lib Py Handoff Ingestion Memory Resources

/-- Role of a chat message. -/
inductive LLMRole
  | system
  | user
  | assistant
  deriving DecidableEq, Repr

/-- One message of a completion request. -/
structure LLMMessage where
  role : LLMRole
  content : String
  deriving DecidableEq, Repr

/-- What the model port answers: the part the loop reads. -/
structure LLMReply where
  text : String
  model : String
  deriving DecidableEq, Repr

/-- `HANDOFF_MODEL`. -/
def HANDOFF_MODEL : String := "<handoff>"

/-- The output of one agent step.

What is cited is what the prompt held, and not what the reply makes use of. -/
structure AgentTurn where
  reply : String
  model : String
  factsCited : List Fact := []
  historyUsed : Nat := 0
  handoff : Option HandoffDecision := none
  resourcesCited : List Resource := []

/-- The stores the loop reads. Which of them are shared between tenants is not visible here, since
each read passes the tenant along. -/
structure Stores where
  memory : BuyerMemory := Dict.empty
  facts : Hindsight := []
  resources : Repository := Dict.empty
  queryLog : List QueryLogEntry := []

/-- `history_turns`. -/
def HISTORY_TURNS : Int := 6
/-- `rag_top_k`. -/
def RAG_TOP_K : Int := 5
/-- `resource_top_k`. -/
def RESOURCE_TOP_K : Int := 5

/-- Items numbered from 1. -/
def enumerate {α : Type} (items : List α) : List (Nat × α) :=
  items.zipIdx.map fun p => (p.2 + 1, p.1)

/-- `_render_facts_block`.

The content of a fact goes into the prompt as it is. -/
def renderFactsBlock (facts : List Fact) : String :=
  join "\n" ("## Catalog facts (use only what's here; never invent prices or stock)" ::
    (enumerate facts).map fun (i, fact) => s!"{i}. [{fact.source}] {fact.content}")

/-- The `data` line of an item: every attribute that is not `None`.

A value is spelled as `str` does, so an object shows as Python writes a dictionary. -/
def dataCompact (U : Unicode) (r : Resource) : String :=
  join ", " ((r.data.entries.filter fun e => match e.2 with
    | .null => false
    | _ => true).map fun e => e.1 ++ ": " ++ e.2.toStr U)

/-- The lines of one item.

The reference is the external id where there is one that is not empty, so two items of one tenant
can show the same. -/
def resourceLines (U : Unicode) (i : Nat) (r : Resource) : List String :=
  let ref := match r.externalId with
    | some external => if external ≠ "" then external else r.id
    | none => r.id
  s!"{i}. **{ref}** — {r.summary}" ::
    if dataCompact U r ≠ "" then ["   - " ++ dataCompact U r] else []

/-- `_render_resources_block`. -/
def renderResourcesBlock (U : Unicode) (resources : List Resource) : String :=
  join "\n" (["## Catalog items (structured, source of truth — never invent fields)",
    "Each item has an `id` you can quote and a `data` dict with all available attributes."] ++
      (enumerate resources).flatMap fun (i, r) => resourceLines U i r)

/-- The system message: SOUL, then items, then facts.

The three parts stand in this order, and a part without entries is left out with its heading. -/
def systemContent (U : Unicode) (soul : String) (resources : List Resource) (facts : List Fact) :
    String :=
  join "\n\n" ([soul] ++
    (if resources.isEmpty then [] else [renderResourcesBlock U resources]) ++
    (if facts.isEmpty then [] else [renderFactsBlock facts]))

/-- A past turn as the model sees it. -/
def historyMessage (turn : BuyerInteraction) : LLMMessage where
  role := match turn.role with
    | .agent => .assistant
    | .buyer => .user
  content := turn.text

/-- The learning hints; a failure is the empty string.

Every failure counts, whatever raised, so a tenant whose catalog cannot be surveyed is still
answered. -/
def learningHints (U : Unicode) (stores : Stores) (tenantId : String) (now : Datetime) : String :=
  match renderSoulHints U stores.resources stores.queryLog tenantId now none with
  | .ok hints => hints
  | .error _ => ""

/-- `_compose_prompt`.

The message of the buyer comes last, behind the history and outside of the system message. -/
def composePrompt (U : Unicode) (stores : Stores) (tenant : Tenant) (history : List BuyerInteraction)
    (facts : List Fact) (resources : List Resource) (message : String)
    (soulConfig : Option SoulConfig) (now : Datetime) : List LLMMessage :=
  let soul := build tenant soulConfig (learningHints U stores tenant.id now)
  { role := .system, content := systemContent U soul resources facts } ::
    (history.map historyMessage ++ [{ role := .user, content := message }])

/-- The structured catalog lookup; a failure is the empty list.

The whole message is the query text, and no filters are given. -/
def catalogItems (U : Unicode) (stores : Stores) (tenantId message : String) : List Resource :=
  match stores.resources.search U tenantId Dict.empty (some message) none RESOURCE_TOP_K with
  | .ok rows => rows
  | .error _ => []

/-- What `respond` does up to the LLM: it is done, or it waits for a completion.

The function is what becomes of the reply; the rest is fixed before the model is asked. -/
inductive Response
  | done (turn : AgentTurn)
  | awaiting (prompt : List LLMMessage) (model : String) (finish : LLMReply → AgentTurn)

/-- `respond`. A message that the detector escalates ends here, before any store is read for a
prompt. -/
def respond (U : Unicode) (stores : Stores) (tenant : Tenant) (buyerId message : String)
    (soulConfig : Option SoulConfig) (now : Datetime) : Response :=
  let decision := evaluate U message tenant.handoffConfig
  match decision.escalate, tenant.handoffConfig with
  | true, some config =>
    .done { reply := config.handoffMessage, model := HANDOFF_MODEL, handoff := some decision }
  | _, _ =>
    let history := stores.memory.recall_ buyerId (some HISTORY_TURNS)
    let facts := Hindsight.query U stores.facts message (some tenant.id) RAG_TOP_K
    let resources := catalogItems U stores tenant.id message
    .awaiting (composePrompt U stores tenant history facts resources message soulConfig now)
      tenant.model fun reply =>
        { reply := reply.text, model := reply.model, factsCited := facts
          historyUsed := history.length, resourcesCited := resources }

/-- The message list a response sends, if any. A handoff sends none, which is why it is an
option. -/
def Response.sent : Response → Option (List LLMMessage)
  | .done _ => none
  | .awaiting prompt _ _ => some prompt

/-- The resources a response cites, whatever the model answers. -/
def Response.cited : Response → LLMReply → List Resource
  | .done turn, _ => turn.resourcesCited
  | .awaiting _ _ finish, reply => (finish reply).resourcesCited

/-- A handoff short-circuits the LLM. -/
theorem respond_of_escalate {U : Unicode} {tenant : Tenant} {message : String}
    (h : (evaluate U message tenant.handoffConfig).escalate = true) :
    ∃ turn, turn.resourcesCited = [] ∧ ∀ stores buyerId soulConfig now,
      respond U stores tenant buyerId message soulConfig now = .done turn := by
  obtain ⟨config, hconfig⟩ := config_of_escalate h
  refine ⟨{ reply := config.handoffMessage, model := HANDOFF_MODEL
            handoff := some (evaluate U message tenant.handoffConfig) }, rfl, ?_⟩
  intro stores buyerId soulConfig now
  rw [hconfig] at h
  simp only [respond, hconfig, h]

/-- Without one, the response is the composed prompt. -/
theorem sent_of_not_escalate {U : Unicode} {stores : Stores} {tenant : Tenant}
    {buyerId message : String} {soulConfig : Option SoulConfig} {now : Datetime}
    (h : (evaluate U message tenant.handoffConfig).escalate = false) :
    (respond U stores tenant buyerId message soulConfig now).sent =
      some (composePrompt U stores tenant (stores.memory.recall_ buyerId (some HISTORY_TURNS))
        (Hindsight.query U stores.facts message (some tenant.id) RAG_TOP_K)
        (catalogItems U stores tenant.id message) message soulConfig now) := by
  simp only [respond, h]
  rfl

end Wapsell.Agent
