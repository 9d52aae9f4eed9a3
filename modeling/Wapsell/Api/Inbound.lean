import Wapsell.Lib.Run
import Wapsell.Agent.Loop
import Wapsell.Crm.Recorder
import Wapsell.Inbox.Repository
import Wapsell.Tenant.Repository

/-!
# Inbound turns and the inbox, between their awaits

`_process_inbound_message` and the inbox endpoints of
`services/api/main.py` on one event loop. A message in flight is a `Turn`;
its phase says which await it is suspended at, and each label resumes one
of them with what the awaited call did. Between two awaits nothing else
runs, so every stretch of code from one await to the next is one step, and
the order of the labels is the interleaving.

The memory and the gateway may raise, so may the pause store and the
notifier, and the agent answers anything: these outcomes are in the labels.
`trace` and `delivered` are not in the program. They record what was
delivered and what each message caused.

**What this does not establish.** One event loop and one process: two
workers on one database interleave inside of a stretch, too, and are
outside of it. The stores are the in-memory ones. A label may be taken
in any order the awaits allow, also in orders that no scheduler would
choose, so what is shown of every run is shown of more runs than there
are.
-/

namespace Wapsell.Api

open Lib Py Agent Memory Inbox

/-- What a message caused. `paused` tells whether a pause of the buyer was active when the send was
issued, `own` whether this very turn had just set it.

Each names the message it comes from, so that what one message caused can be picked out of the
trace. -/
inductive Effect
  | buyerTurn (tenantId messageId : String)
  | sendText (tenantId messageId toNumber text : String) (paused own : Bool)
  | agentTurn (tenantId messageId : String)
  deriving DecidableEq, Repr

/-- The await a message in flight is suspended at.

What a phase carries is what the coroutine has in its variables at that await. -/
inductive Phase
  /-- `memory.remember` of the buyer turn. -/
  | remembering (at_ : Datetime)
  /-- `agent.respond`. -/
  | responding
  /-- `handoff_notifier.notify`. -/
  | notifying (reply : String) (agentMeta : Dict String String)
  /-- `gateway.send_text`. -/
  | sending (reply : String) (agentMeta : Dict String String)
  /-- `memory.remember` of the agent turn. -/
  | persisting (reply vendorMessageId : String) (agentMeta : Dict String String) (at_ : Datetime)

/-- A message in flight. -/
structure Turn where
  tenant : Tenant
  msg : InboundMessage
  phase : Phase

/-- `bid`. -/
def Turn.buyerId (t : Turn) : String := buyerIdFor t.tenant.slug t.msg.fromNumber

/-- A human send in flight, suspended at the gateway or at the memory.

It is not a turn: no message of a buyer is behind it, and nothing checks a pause for it. -/
structure HumanSend where
  tenantId : String
  buyerId : String
  text : String
  pauseHours : Option Int
  /-- The metadata of the turn, once the gateway has answered. -/
  sent : Option (Dict String String) := none

/-- The state of the process: the stores, the clock, the turns and human sends in flight, and the
two records that are not in the program.

The clock is a part of the state, so two stretches without a tick between them see one time. -/
structure System where
  now : Datetime
  memory : BuyerMemory := Dict.empty
  resources : Resources.Repository := Dict.empty
  pauses : Pauses := Dict.empty
  turns : Dict Nat Turn := Dict.empty
  humans : Dict Nat HumanSend := Dict.empty
  trace : List Effect := []
  delivered : List (String × String) := []

/-- What does not change while the process runs. -/
structure Setting where
  U : Unicode
  tenants : Tenants.Repository
  maxItems : Nat

/-- Nothing in flight at a moment. -/
def System.init (now : Datetime) : System := { now }

/-- One thing that can happen next. -/
inductive Label
  /-- Time passes. -/
  | tick (now : Datetime)
  /-- The webhook hands over a message. -/
  | deliver (i : Nat) (tenant : Tenant) (msg : InboundMessage)
  /-- The buyer turn is stored or not, and the pause store answers or raises. -/
  | remembered (i : Nat) (outcome check : Except String Unit) (contactDraw activityDraw : Crm.Draw)
  | responded (i : Nat) (outcome : Except String AgentTurn)
  /-- The notifier returns or raises, and so does the pause store. -/
  | notified (i : Nat) (outcome store : Except String Unit)
  | sent (i : Nat) (outcome : Except String (Option String))
  | persisted (i : Nat) (outcome : Except String Unit) (draw : Crm.Draw)
  | pause (tenantId buyerId : String) (hours : Int) (store : Except String Unit)
  | resume (tenantId buyerId : String)
  | humanSend (j : Nat) (tenantId buyerId text : String) (pauseHours : Option Int)
  | humanSent (j : Nat) (outcome : Except String (Option String)) (store : Except String Unit)
  | humanPersisted (j : Nat) (outcome : Except String Unit)

/-- `_FALLBACK_REPLY`. -/
def FALLBACK_REPLY : String :=
  "Tuvimos un inconveniente procesando tu mensaje. Te respondemos en unos minutos."

namespace System

/-- A turn of the conversation is stored. -/
def remember (E : Setting) (s : System) (buyerId : String) (interaction : BuyerInteraction) :
    System :=
  { s with memory := s.memory.remember E.maxItems buyerId interaction }

/-- Something is recorded in the trace. -/
def log (s : System) (e : Effect) : System := { s with trace := s.trace ++ [e] }

/-- A turn goes on to its next await. -/
def suspend (s : System) (i : Nat) (t : Turn) : System := { s with turns := s.turns.set i t }

/-- A turn returns. -/
def done (s : System) (i : Nat) : System := { s with turns := s.turns.erase i }

/-- A pause is set. -/
def pauseUntil (s : System) (tenantId buyerId : String) (until_ : Datetime) : System :=
  { s with pauses := s.pauses.pause tenantId buyerId until_ }

end System

/-- `str(exc)[:200]`.

The text goes into metadata, so it is cut. -/
def errorText (message : String) : String := take 200 message

/-- Step 1a: the CRM writes; a failure is silent.

The turn goes on all the same. -/
def recordInbound (E : Setting) (s : System) (t : Turn) (contactDraw activityDraw : Crm.Draw) :
    System :=
  match Crm.recordInbound E.U s.resources t.tenant.id t.msg.fromNumber t.msg.text t.msg.messageId
      t.msg.profileName none contactDraw activityDraw with
  | .ok (_, resources) => { s with resources }
  | .error _ => s

/-- The buyer turn as it is remembered. -/
def buyerInteraction (t : Turn) (at_ : Datetime) : BuyerInteraction where
  text := t.msg.text
  role := .buyer
  at_ := at_
  metadata := (Dict.empty.set "tenant_id" t.tenant.id).set "message_id" t.msg.messageId

/-- Step 1b: is the bot silent? A store that raises counts as no.

A store that is down lets the bot speak, which is the choice of the source. -/
def pauseCheck (s : System) (t : Turn) : Except String Unit → Bool
  | .ok () => s.pauses.isPaused t.tenant.id t.buyerId s.now
  | .error _ => false

/-- Steps 1 and 1a: the conversation and the CRM have the message.

A failure of the memory leaves the CRM write standing and the other way round. -/
def persistInbound (E : Setting) (s : System) (t : Turn) (at_ : Datetime)
    (outcome : Except String Unit) (contactDraw activityDraw : Crm.Draw) : System :=
  let s := match outcome with
    | .ok () => (s.remember E t.buyerId (buyerInteraction t at_)).log
        (.buyerTurn t.tenant.id t.msg.messageId)
    | .error _ => s
  recordInbound E s t contactDraw activityDraw

/-- From the stored buyer turn to the agent, or to the end where the bot is paused. The pause is
checked here and never again, which is what the theorem about silence turns on. -/
def afterRemember (E : Setting) (s : System) (i : Nat) (t : Turn) (at_ : Datetime)
    (outcome check : Except String Unit) (contactDraw activityDraw : Crm.Draw) : System :=
  let s := persistInbound E s t at_ outcome contactDraw activityDraw
  if pauseCheck s t check then s.done i else s.suspend i { t with phase := .responding }

/-- Step 3 up to its await: the reply is sent.

The trace notes the pause as it stands when the send is issued, which is what silence is judged
by. -/
def issueSend (s : System) (i : Nat) (t : Turn) (reply : String) (agentMeta : Dict String String)
    (own : Bool) : System :=
  (s.log (.sendText t.tenant.id t.msg.messageId t.msg.fromNumber reply
    (s.pauses.isPaused t.tenant.id t.buyerId s.now) own)).suspend i
      { t with phase := .sending reply agentMeta }

/-- The metadata of an agent turn. -/
def agentMetaOf (turn : AgentTurn) : Dict String String :=
  ((Dict.empty.set "model" turn.model).set "facts_cited" (toString turn.factsCited.length)).set
    "history_used" (toString turn.historyUsed)

/-- The metadata with the handoff flags. -/
def handoffMeta (turn : AgentTurn) (decision : Handoff.HandoffDecision) : Dict String String :=
  let agentMeta := (agentMetaOf turn).set "handoff" "true"
  match decision.matchedKeyword with
  | some keyword => if keyword ≠ "" then agentMeta.set "handoff_keyword" keyword else agentMeta
  | none => agentMeta

/-- From the agent's answer to the gateway, or to the notifier on a handoff.

Whatever the agent raises, the buyer gets the fallback reply, and the turn goes on as if that were
the answer. -/
def afterRespond (s : System) (i : Nat) (t : Turn) (outcome : Except String AgentTurn) : System :=
  match outcome with
  | .error message =>
    issueSend s i t FALLBACK_REPLY (Dict.empty.set "error" (errorText message)) false
  | .ok turn =>
    match turn.handoff with
    | some decision =>
      if decision.escalate then
        s.suspend i { t with phase := .notifying turn.reply (handoffMeta turn decision) }
      else issueSend s i t turn.reply (agentMetaOf turn) false
    | none => issueSend s i t turn.reply (agentMetaOf turn) false

/-- The hours a handoff of the turn mutes the bot, if it does. -/
def Turn.autoPauseHours (t : Turn) : Option Int :=
  match t.tenant.handoffConfig with
  | some hcfg => if 0 < hcfg.autoPauseHours then some hcfg.autoPauseHours else none
  | none => none

/-- The end of the auto-pause a handoff sets now; an `OverflowError` or a store that raises sets
none.

A tenant without an auto-pause, an overflow and a failing store come to the same: no pause. -/
def autoPauseUntil (s : System) (t : Turn) (store : Except String Unit) : Option Datetime :=
  match t.autoPauseHours, store with
  | some hours, .ok () => s.now.addHours hours
  | _, _ => none

/-- From the notifier to the gateway: the auto-pause, then the handoff message.

The pause is set before the handoff message is sent, so that message goes out under it. -/
def afterNotify (s : System) (i : Nat) (t : Turn) (reply : String) (agentMeta : Dict String String)
    (store : Except String Unit) : System :=
  match autoPauseUntil s t store with
  | some until_ =>
    issueSend (s.pauseUntil t.tenant.id t.buyerId until_) i t reply
      (agentMeta.set "bot_paused_until" until_.isoformat) true
  | none => issueSend s i t reply agentMeta false

/-- From the gateway to the memory.

A send that fails is remembered like one that went out, with the error in its metadata. -/
def afterSend (s : System) (i : Nat) (t : Turn) (reply : String) (agentMeta : Dict String String)
    (outcome : Except String (Option String)) : System :=
  match outcome with
  | .ok vendorMessageId =>
    s.suspend i { t with phase := .persisting reply (vendorMessageId.getD "") agentMeta s.now }
  | .error message =>
    s.suspend i { t with
      phase := .persisting reply "" (agentMeta.set "delivery_error" (errorText message)) s.now }

/-- `{"vendor_message_id": …, **agent_meta}`.

The entries of the agent come behind, so one named `vendor_message_id` would win. -/
def turnMeta (vendorMessageId : String) (agentMeta : Dict String String) : Dict String String :=
  agentMeta.entries.foldl (fun d e => d.set e.1 e.2)
    (Dict.empty.set "vendor_message_id" vendorMessageId)

/-- From the stored agent turn to the end: the CRM's outbound activity.

The CRM activity is written whether the memory took the turn or not. -/
def afterPersist (E : Setting) (s : System) (i : Nat) (t : Turn) (reply vendorMessageId : String)
    (agentMeta : Dict String String) (at_ : Datetime) (outcome : Except String Unit)
    (draw : Crm.Draw) : System :=
  let s := match outcome with
    | .ok () => (s.remember E t.buyerId
        { text := reply, role := .agent, at_, metadata := turnMeta vendorMessageId agentMeta }).log
          (.agentTurn t.tenant.id t.msg.messageId)
    | .error _ => s
  let (_, resources) := Crm.recordOutbound s.resources t.tenant.id t.msg.fromNumber reply
    t.msg.messageId none ((turnMeta vendorMessageId agentMeta).map .str) draw
  { s with resources }.done i

/-! ## The inbox endpoints -/

/-- `_tenant_for_conv`, `none` for the 404.

The id is taken as the caller gives it, and the slug with its colon has to stand in front. -/
def tenantForConv (E : Setting) (tenantId buyerId : String) : Option Tenant :=
  (E.tenants.get tenantId).filter fun tenant => startsWith (tenant.slug ++ ":") buyerId

/-- `pause_bot`: `hours <= 0` is rejected, and an overflow or a store that raises is a 500. -/
def pauseBot (E : Setting) (s : System) (tenantId buyerId : String) (hours : Int)
    (store : Except String Unit) : System :=
  match tenantForConv E tenantId buyerId, store with
  | some tenant, .ok () =>
    if hours ≤ 0 then s
    else match s.now.addHours hours with
      | some until_ => s.pauseUntil tenant.id buyerId until_
      | none => s
  | _, _ => s

/-- `resume_bot`. -/
def resumeBot (E : Setting) (s : System) (tenantId buyerId : String) : System :=
  match tenantForConv E tenantId buyerId with
  | some tenant => { s with pauses := s.pauses.resume tenant.id buyerId }
  | none => s

/-- `send_human_message` up to the gateway: a tenant of the conversation and a text.

The text is stripped before it is sent, and remembered so. -/
def humanSendBegin (E : Setting) (s : System) (j : Nat) (tenantId buyerId text : String)
    (pauseHours : Option Int) : System :=
  match tenantForConv E tenantId buyerId with
  | some tenant =>
    if strip text = "" then s
    else { s with
      humans := s.humans.set j { tenantId := tenant.id, buyerId, text := strip text, pauseHours } }
  | none => s

/-- The end of the pause a human send sets now. -/
def humanPauseUntil (s : System) (h : HumanSend) (store : Except String Unit) : Option Datetime :=
  match h.pauseHours, store with
  | some hours, .ok () => if 0 < hours then s.now.addHours hours else none
  | _, _ => none

/-- The metadata of a human turn. -/
def humanMeta (outcome : Except String (Option String)) (until_ : Option Datetime) :
    Dict String String :=
  let base : Dict String String := Dict.empty.set "human" "true"
  let delivered := match outcome with
    | .ok (some vendorMessageId) =>
      if vendorMessageId ≠ "" then base.set "vendor_message_id" vendorMessageId else base
    | .ok none => base
    | .error message =>
      if errorText message ≠ "" then base.set "delivery_error" (errorText message) else base
  match until_ with
  | some t => delivered.set "bot_paused_until" t.isoformat
  | none => delivered

/-- `send_human_message` from the gateway to the memory: the pause.

The pause is set after the send whatever became of it, and it is the clock of that moment that
counts. -/
def afterHumanSend (s : System) (j : Nat) (h : HumanSend)
    (outcome : Except String (Option String)) (store : Except String Unit) : System :=
  let until_ := humanPauseUntil s h store
  let s := match until_ with
    | some t => s.pauseUntil h.tenantId h.buyerId t
    | none => s
  { s with humans := s.humans.set j { h with sent := some (humanMeta outcome until_) } }

/-- `send_human_message` after the memory. -/
def afterHumanPersist (E : Setting) (s : System) (j : Nat) (h : HumanSend)
    (agentMeta : Dict String String) (outcome : Except String Unit) : System :=
  let s := match outcome with
    | .ok () => s.remember E h.buyerId
        { text := h.text, role := .agent, at_ := s.now, metadata := agentMeta }
    | .error _ => s
  { s with humans := s.humans.erase j }

/-- The step function. A label that resumes an await nobody is suspended at may not be taken; every
other label may be, with whatever outcome it brings. -/
def step (E : Setting) (s : System) : Label → Option System
  | .tick now => if s.now ≤ now then some { s with now } else none
  | .deliver i tenant msg =>
    if (s.turns.get? i).isSome then none
    else some ({ s with delivered := s.delivered ++ [(tenant.id, msg.messageId)] }.suspend i
      { tenant, msg, phase := .remembering s.now })
  | .remembered i outcome check contactDraw activityDraw => do
    let t ← s.turns.get? i
    match t.phase with
    | .remembering at_ => some (afterRemember E s i t at_ outcome check contactDraw activityDraw)
    | _ => none
  | .responded i outcome => do
    let t ← s.turns.get? i
    match t.phase with
    | .responding => some (afterRespond s i t outcome)
    | _ => none
  | .notified i _ store => do
    let t ← s.turns.get? i
    match t.phase with
    | .notifying reply agentMeta => some (afterNotify s i t reply agentMeta store)
    | _ => none
  | .sent i outcome => do
    let t ← s.turns.get? i
    match t.phase with
    | .sending reply agentMeta => some (afterSend s i t reply agentMeta outcome)
    | _ => none
  | .persisted i outcome draw => do
    let t ← s.turns.get? i
    match t.phase with
    | .persisting reply vendorMessageId agentMeta at_ =>
      some (afterPersist E s i t reply vendorMessageId agentMeta at_ outcome draw)
    | _ => none
  | .pause tenantId buyerId hours store => some (pauseBot E s tenantId buyerId hours store)
  | .resume tenantId buyerId => some (resumeBot E s tenantId buyerId)
  | .humanSend j tenantId buyerId text pauseHours =>
    if (s.humans.get? j).isSome then none
    else some (humanSendBegin E s j tenantId buyerId text pauseHours)
  | .humanSent j outcome store => do
    let h ← s.humans.get? j
    match h.sent with
    | none => some (afterHumanSend s j h outcome store)
    | some _ => none
  | .humanPersisted j outcome => do
    let h ← s.humans.get? j
    match h.sent with
    | some agentMeta => some (afterHumanPersist E s j h agentMeta outcome)
    | none => none

end Wapsell.Api
