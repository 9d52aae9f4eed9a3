import Wapsell.Api.Inbound
import Wapsell.Lib.Attempt

/-!
# One inbound turn, as one piece of code

`_process_inbound_message` and `_maybe_dispatch_crm_extractor` of
`services/api/main.py`, from the first line to the last, where every
service may raise. An exception is the text it prints. `Outcomes` is what
the services do on this turn, so the turn over all outcomes is the turn
under every pattern of failures; what it attempts is the list of its
`TurnCall`s.

Where `Wapsell.Api.Inbound` has the turn between its awaits, beside all the
others, this has it alone with its guards.

The two models are tied together by lemmas that say which effects the
guarded code attempts where the interleaved one emits them, so that
neither has to be believed without the other.

**What this does not establish.** Exceptions that are not of
`Exception`'s kind (a cancelled task, an exhausted memory) end a turn in
the source and are no outcomes here. That a send was attempted is not
that it arrived.
-/

namespace Wapsell.Api

open Lib Py Agent Memory Resources

/-- A call of a service. -/
inductive TurnCall
  | remember (buyerId : String) (interaction : BuyerInteraction)
  | recordInbound (tenantId fromNumber text messageId : String) (profileName : Option String)
  | isPaused (tenantId buyerId : String)
  | respond (tenant : Tenant) (buyerId message : String)
  | notify (tenant : Tenant) (buyerId message : String) (decision : Handoff.HandoffDecision)
  | pause (tenantId buyerId : String) (until_ : Datetime)
  | sendText (toNumber text tenantId : String)
  | recordOutbound (tenantId fromNumber text replyToMessageId : String)
      (extra : Dict String String)
  | findByExternalId (tenantId kind externalId : String)
  | createTask (tenantId buyerId fromNumber : String)

/-- What the services do on one turn: each answers or raises. The outcomes are fixed beforehand and
independent of one another, so that every pattern of failures is among them. -/
structure Outcomes where
  rememberBuyer : Except String Unit
  recordInbound : Except String Unit
  isPaused : Except String Bool
  respond : Except String AgentTurn
  notify : Except String Unit
  pause : Except String Unit
  sendText : Except String (Option String)
  rememberAgent : Except String Unit
  recordOutbound : Except String Unit
  findByExternalId : Except String (Option Resource)
  /-- The `RuntimeError` of a process without an event loop. -/
  createTask : Except String Unit
  /-- The clock where the buyer turn, the pause and the agent turn read it. -/
  buyerAt : Datetime
  pausedAt : Datetime
  agentAt : Datetime

/-- The part of the process a turn reads: is there an extractor, and its stride in the
environment. -/
structure Dispatch where
  crmExtractor : Bool
  stride : Option String

/-- A call whose exception is logged and forgotten. -/
def logged (call : TurnCall) (outcome : Except String Unit) : Attempting TurnCall String Unit :=
  tryExcept (attempt call outcome) fun _ => pure PUnit.unit

/-- The end of an auto-pause; the text of its `OverflowError` is only logged. -/
def pauseEnd (now : Datetime) (hours : Int) : Except String Datetime :=
  match now.addHours hours with
  | some until_ => .ok until_
  | none => .error "date value out of range"

/-- The auto-pause of a handoff, where the tenant has a positive window. -/
def autoPause (o : Outcomes) (tenant : Tenant) (bid : String) (agentMeta : Dict String String) :
    Attempting TurnCall String (Dict String String) :=
  match tenant.handoffConfig with
  | some hcfg =>
    if 0 < hcfg.autoPauseHours then
      tryExcept (do
        let until_ ← computed (pauseEnd o.pausedAt hcfg.autoPauseHours)
        let _ ← attempt (.pause tenant.id bid until_) o.pause
        pure (agentMeta.set "bot_paused_until" until_.isoformat))
        fun _ => pure agentMeta
    else pure agentMeta
  | none => pure agentMeta

/-- The metadata of the agent's answer; a handoff is notified and pauses the bot. -/
def handOff (o : Outcomes) (tenant : Tenant) (msg : InboundMessage) (bid : String)
    (turn : AgentTurn) : Attempting TurnCall String (Dict String String) :=
  match turn.handoff with
  | some decision =>
    if decision.escalate then do
      let _ ← logged (.notify tenant bid msg.text decision) o.notify
      autoPause o tenant bid (handoffMeta turn decision)
    else pure (agentMetaOf turn)
  | none => pure (agentMetaOf turn)

/-- Step 2: the reply and its metadata; any error becomes the canned reply. The notifier and the
auto-pause have guards of their own inside, so neither costs the agent's answer. -/
def composeReply (o : Outcomes) (tenant : Tenant) (msg : InboundMessage) (bid : String) :
    Attempting TurnCall String (String × Dict String String) :=
  tryExcept (do
    let turn ← attempt (.respond tenant bid msg.text) o.respond
    let agentMeta ← handOff o tenant msg bid turn
    pure (turn.reply, agentMeta))
    fun message => pure (FALLBACK_REPLY, Dict.empty.set "error" (errorText message))

/-- Step 3: the vendor's id, empty where the gateway raises, and the metadata. -/
def deliverReply (o : Outcomes) (tenant : Tenant) (msg : InboundMessage) (reply : String)
    (agentMeta : Dict String String) : Attempting TurnCall String (String × Dict String String) :=
  tryExcept (do
    let vendorMessageId ← attempt (.sendText msg.fromNumber reply tenant.id) o.sendText
    pure (vendorMessageId.getD "", agentMeta))
    fun message => pure ("", agentMeta.set "delivery_error" (errorText message))

/-- `_crm_extractor_turn_stride`. -/
def crmExtractorTurnStride (U : Unicode) (P : Dispatch) : Int :=
  match parseInt U (P.stride.getD "3") with
  | some n => max 0 n
  | none => 3

/-- `isinstance(turn_count, int) and turn_count > 0 and turn_count % stride != 0`. -/
def offStride (stride : Int) (contact : Resource) : Bool :=
  match contact.data.get? "turn_count" with
  | some (.int turnCount) => decide (0 < turnCount ∧ turnCount % stride ≠ 0)
  | some (.bool true) => decide (1 % stride ≠ 0)
  | _ => false

/-- `_maybe_dispatch_crm_extractor`. -/
def maybeDispatchCrmExtractor (U : Unicode) (P : Dispatch) (o : Outcomes)
    (tenantId bid fromNumber : String) : Attempting TurnCall String Unit :=
  let dispatch := logged (.createTask tenantId bid fromNumber) o.createTask
  if !P.crmExtractor then pure PUnit.unit
  else
    let stride := crmExtractorTurnStride U P
    if 1 < stride then do
      let contact ← tryExcept
        (attempt (.findByExternalId tenantId Crm.CONTACT_KIND (Crm.contactExternalId fromNumber))
          o.findByExternalId)
        fun _ => pure none
      match contact with
      | none => pure PUnit.unit
      | some contact => if offStride stride contact then pure PUnit.unit else dispatch
    else dispatch

/-- Steps 2 to 6: the bot answers. -/
def answerMessage (U : Unicode) (P : Dispatch) (o : Outcomes) (tenant : Tenant)
    (msg : InboundMessage) (bid : String) : Attempting TurnCall String Unit := do
  let (reply, agentMeta) ← composeReply o tenant msg bid
  let (vendorMessageId, agentMeta) ← deliverReply o tenant msg reply agentMeta
  let _ ← logged (.remember bid
    { text := reply, role := .agent, at_ := o.agentAt
      metadata := turnMeta vendorMessageId agentMeta }) o.rememberAgent
  let _ ← logged (.recordOutbound tenant.id msg.fromNumber reply msg.messageId
    (turnMeta vendorMessageId agentMeta)) o.recordOutbound
  maybeDispatchCrmExtractor U P o tenant.id bid msg.fromNumber

/-- `_process_inbound_message`. -/
def processInboundMessage (U : Unicode) (P : Dispatch) (o : Outcomes) (tenant : Tenant)
    (msg : InboundMessage) : Attempting TurnCall String Unit := do
  let bid := buyerIdFor tenant.slug msg.fromNumber
  let _ ← logged (.remember bid
    { text := msg.text, role := .buyer, at_ := o.buyerAt
      metadata := (Dict.empty.set "tenant_id" tenant.id).set "message_id" msg.messageId })
    o.rememberBuyer
  let _ ← logged (.recordInbound tenant.id msg.fromNumber msg.text msg.messageId msg.profileName)
    o.recordInbound
  let paused ← tryExcept (attempt (.isPaused tenant.id bid) o.isPaused) fun _ => pure false
  if paused then pure PUnit.unit else answerMessage U P o tenant msg bid

/-! ## What a turn attempts -/

/-- Is it a send? -/
def TurnCall.isSendText : TurnCall → Bool
  | .sendText _ _ _ => true
  | _ => false

/-- Is it the memory of an agent turn? -/
def TurnCall.remembersAgent : TurnCall → Bool
  | .remember _ interaction => interaction.role == .agent
  | _ => false

/-- Neither a send nor the memory of an agent turn. -/
def TurnCall.Silent (c : TurnCall) : Prop := c.isSendText = false ∧ c.remembersAgent = false

/-- A service that raised. -/
def Failed {α : Type} (outcome : Except String α) : Prop := ∃ message, outcome = .error message

@[simp] theorem not_failed_ok {α : Type} (a : α) : ¬ Failed (.ok a : Except String α) := by
  rintro ⟨message, h⟩
  cases h

@[simp] theorem failed_error {α : Type} (message : String) :
    Failed (.error message : Except String α) := ⟨message, rfl⟩

theorem filter_isSendText_of_silent {calls : List TurnCall} (h : ∀ c ∈ calls, c.Silent) :
    calls.filter TurnCall.isSendText = [] :=
  List.filter_eq_nil_iff.mpr fun c hc => by rw [(h c hc).1]; exact Bool.false_ne_true

theorem filter_remembersAgent_of_silent {calls : List TurnCall} (h : ∀ c ∈ calls, c.Silent) :
    calls.filter TurnCall.remembersAgent = [] :=
  List.filter_eq_nil_iff.mpr fun c hc => by rw [(h c hc).2]; exact Bool.false_ne_true

theorem answers_logged (call : TurnCall) (outcome : Except String Unit) :
    Answers (logged call outcome) fun _ calls => calls = [call] :=
  (answers_try_attempt call outcome PUnit.unit).mono fun _ _ h => h.1

/-- The metadata without the two keys that tell a failure. -/
def Unfailed (agentMeta : Dict String String) : Prop :=
  agentMeta.get? "error" = none ∧ agentMeta.get? "delivery_error" = none

theorem Unfailed.set {agentMeta : Dict String String} (h : Unfailed agentMeta) {key : String}
    (value : String) (herror : key ≠ "error") (hdelivery : key ≠ "delivery_error") :
    Unfailed (agentMeta.set key value) :=
  ⟨(Dict.get?_set_ne _ value herror).trans h.1, (Dict.get?_set_ne _ value hdelivery).trans h.2⟩

theorem unfailed_agentMetaOf (turn : AgentTurn) : Unfailed (agentMetaOf turn) := by
  have hempty : Unfailed Dict.empty := ⟨rfl, rfl⟩
  exact ((hempty.set _ (by decide) (by decide)).set _ (by decide) (by decide)).set _ (by decide)
    (by decide)

theorem unfailed_handoffMeta (turn : AgentTurn) (decision : Handoff.HandoffDecision) :
    Unfailed (handoffMeta turn decision) := by
  have hflag := (unfailed_agentMetaOf turn).set "true"
    (show "handoff" ≠ "error" by decide) (show "handoff" ≠ "delivery_error" by decide)
  unfold handoffMeta
  dsimp only
  split
  · split
    · exact hflag.set _ (by decide) (by decide)
    · exact hflag
  · exact hflag

/-- What the metadata has apart from the vendor's id is in the turn's. -/
theorem get?_turnMeta {key : String} (h : "vendor_message_id" ≠ key) (vendorMessageId : String)
    (agentMeta : Dict String String) :
    (turnMeta vendorMessageId agentMeta).get? key = agentMeta.get? key := by
  unfold turnMeta
  rw [Dict.get?_foldl_set key agentMeta.nodup, Dict.get?_set_ne _ _ h, Dict.get?_empty,
    Option.or_none]
  rfl

section Turn

variable {U : Unicode} {P : Dispatch} {o : Outcomes} {tenant : Tenant} {msg : InboundMessage}
  {bid : String}

/-- Whatever becomes of the pause, the metadata tells no failure. -/
theorem answers_autoPause {agentMeta : Dict String String} (h : Unfailed agentMeta) :
    Answers (autoPause o tenant bid agentMeta) fun agentMeta' calls =>
      (∀ c ∈ calls, c.Silent) ∧ Unfailed agentMeta' := by
  have hkept : Answers (pure agentMeta : Attempting TurnCall String _) fun agentMeta' calls =>
      (∀ c ∈ calls, c.Silent) ∧ Unfailed agentMeta' := answers_pure ⟨List.forall_mem_nil _, h⟩
  unfold autoPause
  split
  · split
    · refine Within.tryExcept ?_ fun _ => h
      refine (within_computed _).bind fun until_ _ => ?_
      refine (within_attempt ⟨rfl, rfl⟩ _).bind fun _ _ => ?_
      exact within_pure (h.set _ (by decide) (by decide))
    · exact hkept
  · exact hkept

/-- The metadata of the agent's answer tells no failure. -/
theorem answers_handOff (turn : AgentTurn) :
    Answers (handOff o tenant msg bid turn) fun agentMeta calls =>
      (∀ c ∈ calls, c.Silent) ∧ Unfailed agentMeta := by
  have hplain : Answers (pure (agentMetaOf turn) : Attempting TurnCall String _)
      fun agentMeta calls => (∀ c ∈ calls, c.Silent) ∧ Unfailed agentMeta :=
    answers_pure ⟨List.forall_mem_nil _, unfailed_agentMetaOf turn⟩
  unfold handOff
  split
  next decision _ =>
    split
    · refine (answers_logged _ _).bind ?_
      rintro _ _ rfl
      refine (answers_autoPause (unfailed_handoffMeta turn decision)).mono ?_
      rintro agentMeta calls ⟨hsilent, hmeta⟩
      exact ⟨List.forall_mem_cons.mpr ⟨⟨rfl, rfl⟩, hsilent⟩, hmeta⟩
    · exact hplain
  · exact hplain

/-- The reply with its metadata, as the agent answers or raises. -/
structure Composed (outcome : Except String AgentTurn) (reply : String)
    (agentMeta : Dict String String) : Prop where
  error_iff : (agentMeta.get? "error").isSome ↔ Failed outcome
  fallback : Failed outcome → reply = FALLBACK_REPLY
  undelivered : agentMeta.get? "delivery_error" = none

theorem answers_composeReply :
    Answers (composeReply o tenant msg bid) fun p calls =>
      (∀ c ∈ calls, c.Silent) ∧ Composed o.respond p.1 p.2 := by
  have hsilent : (TurnCall.respond tenant bid msg.text).Silent := ⟨rfl, rfl⟩
  unfold composeReply
  cases hrespond : o.respond with
  | error message =>
    apply answers_try_error
    apply answers_pure
    exact ⟨List.forall_mem_singleton.mpr hsilent, by simp, fun _ => rfl, rfl⟩
  | ok turn =>
    apply Answers.tryExcept
    refine (answers_attempt _ _).bind ?_
    rintro _ _ ⟨rfl, rfl⟩
    refine (answers_handOff _).bind ?_
    rintro agentMeta calls ⟨hcalls, herror, hdelivery⟩
    apply answers_pure
    rw [List.append_nil]
    refine ⟨List.forall_mem_cons.mpr ⟨hsilent, hcalls⟩, ?_, ?_, hdelivery⟩
    · simp [herror]
    · intro h
      exact absurd h (not_failed_ok _)

/-- The gateway is called once; the metadata tells of its failure and nothing else changes. -/
theorem answers_deliverReply {reply : String} {agentMeta : Dict String String}
    (h : Composed o.respond reply agentMeta) :
    Answers (deliverReply o tenant msg reply agentMeta) fun p calls =>
      calls = [.sendText msg.fromNumber reply tenant.id] ∧
        ((p.2.get? "error").isSome ↔ Failed o.respond) ∧
        ((p.2.get? "delivery_error").isSome ↔ Failed o.sendText) := by
  unfold deliverReply
  cases hsend : o.sendText with
  | error message =>
    apply answers_try_error
    apply answers_pure
    refine ⟨rfl, ?_, by simp⟩
    rw [Dict.get?_set_ne _ _ (show "delivery_error" ≠ "error" by decide)]
    exact h.error_iff
  | ok vendorMessageId =>
    apply Answers.tryExcept
    refine (answers_attempt _ _).bind ?_
    rintro _ _ ⟨rfl, rfl⟩
    apply answers_pure
    exact ⟨rfl, h.error_iff, by simp [h.undelivered]⟩

/-- The dispatcher swallows what the lookup and the event loop raise. -/
theorem answers_maybeDispatchCrmExtractor (tenantId fromNumber : String) :
    Answers (maybeDispatchCrmExtractor U P o tenantId bid fromNumber) fun _ calls =>
      ∀ c ∈ calls, c.Silent := by
  have hreturn : Answers (pure PUnit.unit : Attempting TurnCall String Unit) fun _ calls =>
      ∀ c ∈ calls, c.Silent := answers_pure (List.forall_mem_nil _)
  have hdispatch : Answers (logged (.createTask tenantId bid fromNumber) o.createTask)
      fun _ calls => ∀ c ∈ calls, c.Silent := by
    apply (answers_logged _ _).mono
    rintro _ _ rfl
    exact List.forall_mem_singleton.mpr ⟨rfl, rfl⟩
  unfold maybeDispatchCrmExtractor
  dsimp only
  split
  · exact hreturn
  · split
    · refine (answers_try_attempt _ _ _).bind ?_
      rintro contact _ ⟨rfl, -⟩
      refine Answers.mono (Q := fun _ calls => ∀ c ∈ calls, c.Silent) ?_ ?_
      · split
        · exact hreturn
        · split
          · exact hreturn
          · exact hdispatch
      · intro _ calls hcalls
        exact List.forall_mem_cons.mpr ⟨⟨rfl, rfl⟩, hcalls⟩
    · exact hdispatch

/-- What a turn that answers attempts: one send, and one agent turn that is remembered with the text
of the send, with the failures of the gateway and of the agent told in its metadata. -/
def AnswersOnce (o : Outcomes) (tenant : Tenant) (msg : InboundMessage) (calls : List TurnCall) :
    Prop :=
  ∃ reply agentMeta,
    calls.filter TurnCall.isSendText = [.sendText msg.fromNumber reply tenant.id] ∧
    calls.filter TurnCall.remembersAgent = [.remember (buyerIdFor tenant.slug msg.fromNumber)
      { text := reply, role := .agent, at_ := o.agentAt, metadata := agentMeta }] ∧
    ((agentMeta.get? "delivery_error").isSome ↔ Failed o.sendText) ∧
    ((agentMeta.get? "error").isSome ↔ Failed o.respond) ∧
    (Failed o.respond → reply = FALLBACK_REPLY)

theorem answers_answerMessage :
    Answers (answerMessage U P o tenant msg (buyerIdFor tenant.slug msg.fromNumber))
      fun _ calls => AnswersOnce o tenant msg calls := by
  unfold answerMessage
  refine answers_composeReply.bind ?_
  rintro ⟨reply, agentMeta⟩ composing ⟨hcomposing, hcomposed⟩
  refine (answers_deliverReply hcomposed).bind ?_
  rintro ⟨vendorMessageId, agentMeta'⟩ _ ⟨rfl, herror, hdelivery⟩
  refine (answers_logged _ _).bind ?_
  rintro _ _ rfl
  refine (answers_logged _ _).bind ?_
  rintro _ _ rfl
  refine (answers_maybeDispatchCrmExtractor _ _).mono ?_
  intro _ dispatching hdispatching
  refine ⟨reply, turnMeta vendorMessageId agentMeta', ?_, ?_, ?_, ?_, hcomposed.fallback⟩
  · rw [List.filter_append, filter_isSendText_of_silent hcomposing, List.nil_append]
    simp [List.filter_cons, TurnCall.isSendText, filter_isSendText_of_silent hdispatching]
  · rw [List.filter_append, filter_remembersAgent_of_silent hcomposing, List.nil_append]
    simp [TurnCall.remembersAgent, filter_remembersAgent_of_silent hdispatching]
  · rw [get?_turnMeta (by decide)]
    exact hdelivery
  · rw [get?_turnMeta (by decide)]
    exact herror

end Turn

/-! ## The same turn between its awaits -/

/-- The metadata an auto-pause leaves. -/
def pausedMeta (s : System) (t : Turn) (store : Except String Unit)
    (agentMeta : Dict String String) : Dict String String :=
  match autoPauseUntil s t store with
  | some until_ => agentMeta.set "bot_paused_until" until_.isoformat
  | none => agentMeta

theorem answers_autoPause_eq {s : System} {t : Turn} {o : Outcomes} (hnow : s.now = o.pausedAt)
    (agentMeta : Dict String String) :
    Answers (autoPause o t.tenant t.buyerId agentMeta) fun agentMeta' _ =>
      agentMeta' = pausedMeta s t o.pause agentMeta := by
  unfold autoPause pausedMeta autoPauseUntil Turn.autoPauseHours
  cases t.tenant.handoffConfig with
  | none => exact answers_pure rfl
  | some hcfg =>
    by_cases hhours : 0 < hcfg.autoPauseHours
    · dsimp only
      rw [if_pos hhours, if_pos hhours, hnow, pauseEnd]
      cases hend : o.pausedAt.addHours hcfg.autoPauseHours with
      | none =>
        refine (Within.tryExcept (P := fun _ => True) (Q := fun m => m = agentMeta) ?_ ?_).mono ?_
        · exact (within_computed _).bind fun _ h => by cases h
        · exact fun _ => rfl
        · rintro agentMeta' _ ⟨-, rfl⟩
          cases o.pause with
          | error => rfl
          | ok => simp only [hend]
      | some until_ =>
        cases o.pause with
        | error message =>
          refine (Within.tryExcept (P := fun _ => True) (Q := fun m => m = agentMeta) ?_ ?_).mono ?_
          · refine (within_computed _).bind fun _ _ => ?_
            exact (within_attempt trivial _).bind fun _ h => by cases h
          · exact fun _ => rfl
          · exact fun _ _ h => h.2
        | ok =>
          apply Answers.tryExcept
          refine (answers_computed _).bind ?_
          rintro _ _ ⟨rfl, rfl⟩
          refine (answers_attempt _ _).bind ?_
          rintro _ _ ⟨-, rfl⟩
          exact answers_pure (by simp only [hend])
    · dsimp only
      rw [if_neg hhours, if_neg hhours]
      exact answers_pure rfl

/-- Turn `i` reaches the gateway with this reply and metadata, at once or behind the notifier,
whatever has happened to the system meanwhile. -/
inductive Reaches (s : System) (i : Nat) (t : Turn) (o : Outcomes) (reply : String)
    (agentMeta : Dict String String) : Prop
  | atOnce (own : Bool) (h : afterRespond s i t o.respond = issueSend s i t reply agentMeta own)
  | notified (before : Dict String String)
      (h : afterRespond s i t o.respond =
        s.suspend i { t with phase := .notifying reply before })
      (notified : ∀ s' : System, s'.now = o.pausedAt → ∃ s'' own,
        afterNotify s' i t reply before o.pause = issueSend s'' i t reply agentMeta own)

/-- The reply of the turn, read as one piece of code, is the one the interleaved reading sends. -/
theorem answers_composeReply_reaches (s : System) (i : Nat) (t : Turn) (o : Outcomes) :
    Answers (composeReply o t.tenant t.msg t.buyerId) fun p _ => Reaches s i t o p.1 p.2 := by
  unfold composeReply
  cases hrespond : o.respond with
  | error message =>
    apply answers_try_error
    apply answers_pure
    refine .atOnce false ?_
    rw [hrespond]
    rfl
  | ok turn =>
    apply Answers.tryExcept
    refine (answers_attempt _ _).bind ?_
    rintro turn _ ⟨rfl, rfl⟩
    have hanswer : (∀ decision, turn.handoff = some decision → decision.escalate = false) →
        Answers (handOff o t.tenant t.msg t.buyerId turn >>= fun agentMeta =>
          pure (turn.reply, agentMeta)) fun p _ => Reaches s i t o p.1 p.2 := by
      intro hno
      have hmeta : handOff o t.tenant t.msg t.buyerId turn = pure (agentMetaOf turn) := by
        unfold handOff
        cases hhandoff : turn.handoff with
        | none => rfl
        | some decision =>
          dsimp only
          rw [hno decision hhandoff]
          rfl
      rw [hmeta, pure_bind]
      refine answers_pure (.atOnce false ?_)
      unfold afterRespond
      rw [hrespond]
      cases hhandoff : turn.handoff with
      | none => simp only [hhandoff]
      | some decision => simp [hhandoff, hno decision hhandoff]
    by_cases hhandoff : ∃ decision, turn.handoff = some decision ∧ decision.escalate = true
    · obtain ⟨decision, hsome, hescalate⟩ := hhandoff
      unfold handOff
      rw [hsome]
      dsimp only
      rw [if_pos hescalate, bind_assoc]
      refine (answers_logged _ _).bind ?_
      rintro _ _ rfl
      refine (answers_autoPause_eq (s := { s with now := o.pausedAt }) rfl _).bind ?_
      rintro agentMeta calls rfl
      refine answers_pure (.notified (handoffMeta turn decision) ?_ ?_)
      · unfold afterRespond
        rw [hrespond]
        simp only [hsome, hescalate, if_true]
      · intro s' hnow
        have hpause : autoPauseUntil { s with now := o.pausedAt } t o.pause =
            autoPauseUntil s' t o.pause := by
          unfold autoPauseUntil
          rw [hnow]
        unfold afterNotify pausedMeta
        rw [hpause]
        cases autoPauseUntil s' t o.pause with
        | none => exact ⟨s', false, rfl⟩
        | some until_ => exact ⟨_, true, rfl⟩
    · apply hanswer
      intro decision hsome
      exact Bool.eq_false_iff.mpr fun hescalate => hhandoff ⟨decision, hsome, hescalate⟩

/-- The calls up to the pause check have no part in the answer. -/
theorem AnswersOnce.of_silent {o : Outcomes} {tenant : Tenant} {msg : InboundMessage}
    {before calls : List TurnCall} (hbefore : ∀ c ∈ before, c.Silent)
    (h : AnswersOnce o tenant msg calls) : AnswersOnce o tenant msg (before ++ calls) := by
  obtain ⟨reply, agentMeta, hsend, hremember, hfailed⟩ := h
  refine ⟨reply, agentMeta, ?_, ?_, hfailed⟩
  · rw [List.filter_append, filter_isSendText_of_silent hbefore, List.nil_append, hsend]
  · rw [List.filter_append, filter_remembersAgent_of_silent hbefore, List.nil_append, hremember]

theorem answers_processInboundMessage (U : Unicode) (P : Dispatch) (o : Outcomes)
    (tenant : Tenant) (msg : InboundMessage) :
    Answers (processInboundMessage U P o tenant msg) fun _ calls =>
      (o.isPaused ≠ .ok true → AnswersOnce o tenant msg calls) ∧
      (o.isPaused = .ok true → ∀ c ∈ calls, c.Silent) := by
  unfold processInboundMessage
  refine (answers_logged _ _).bind ?_
  rintro _ _ rfl
  refine (answers_logged _ _).bind ?_
  rintro _ _ rfl
  refine (answers_try_attempt _ _ _).bind ?_
  rintro paused _ ⟨rfl, hpaused⟩
  have hbefore : ∀ c ∈ [.remember (buyerIdFor tenant.slug msg.fromNumber)
      { text := msg.text, role := .buyer, at_ := o.buyerAt
        metadata := (Dict.empty.set "tenant_id" tenant.id).set "message_id" msg.messageId },
      .recordInbound tenant.id msg.fromNumber msg.text msg.messageId msg.profileName,
      .isPaused tenant.id (buyerIdFor tenant.slug msg.fromNumber)], TurnCall.Silent c := by
    simp [TurnCall.Silent, TurnCall.isSendText, TurnCall.remembersAgent]
  cases paused with
  | true =>
    apply answers_pure
    rcases hpaused with hpaused | ⟨-, hfalse⟩
    · exact ⟨fun hne => absurd hpaused hne, fun _ => hbefore⟩
    · cases hfalse
  | false =>
    refine answers_answerMessage.mono ?_
    intro _ calls hcalls
    have hanswered := hcalls.of_silent hbefore
    refine ⟨fun _ => hanswered, ?_⟩
    intro htrue
    rw [htrue] at hpaused
    rcases hpaused with hpaused | ⟨⟨e, he⟩, -⟩
    · cases hpaused
    · cases he

/-- **A turn always completes.** Whatever the services raise, the code returns; and unless the bot
is paused it tries one send, and tries to remember one agent turn with the text sent, whose metadata
tells whether the gateway and the agent raised. A pause store that raises counts as no pause, and so
the turn answers. -/
theorem turn_completes (U : Unicode) (P : Dispatch) (o : Outcomes) (tenant : Tenant)
    (msg : InboundMessage) :
    ∃ calls, exec (processInboundMessage U P o tenant msg) [] = (.ok PUnit.unit, calls) ∧
      (o.isPaused ≠ .ok true → AnswersOnce o tenant msg calls) := by
  obtain ⟨_, calls, hrun, _, rfl, hcalls, -⟩ := answers_processInboundMessage U P o tenant msg []
  exact ⟨calls, hrun, hcalls⟩

end Wapsell.Api
