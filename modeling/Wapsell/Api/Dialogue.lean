import Wapsell.Api.Turns
import Wapsell.Lib.Sort

/-!
# What of the conversation the model is sent

The webhook stores a buyer's message before it asks the agent, and the
agent recalls the conversation before it adds the message again. So the
prompt has the message at the end of its history and once more behind it,
unless the recalled window was already full of this very message.

The condition for the one good case looks contrived, and that is the
point of stating it exactly: outside of it the message stands in the
prompt twice, in every conversation. The window is as long as the loop's
history, and when it is full of equal messages the oldest is pushed out
by the newest, which reads the same.

**What this does not establish.** Other messages of the same buyer are
kept out while the turn waits for the agent. With two in flight the
history of each may hold the other's, and the dialogue is then neither.
-/

namespace Wapsell.Api

open Lib Py Agent Memory

/-! ## What a step stores -/

/-- The turn of a conversation that a label stores. -/
def remembers (s : System) : Label → Option (String × BuyerInteraction)
  | .remembered i (.ok ()) _ _ _ => do
    let t ← s.turns.get? i
    match t.phase with
    | .remembering at_ => some (t.buyerId, buyerInteraction t at_)
    | _ => none
  | .persisted i (.ok ()) _ => do
    let t ← s.turns.get? i
    match t.phase with
    | .persisting reply vendorMessageId agentMeta at_ =>
      some (t.buyerId, { text := reply, role := .agent, at_
                         metadata := turnMeta vendorMessageId agentMeta })
    | _ => none
  | .humanPersisted j (.ok ()) => do
    let h ← s.humans.get? j
    match h.sent with
    | some agentMeta =>
      some (h.buyerId, { text := h.text, role := .agent, at_ := s.now, metadata := agentMeta })
    | none => none
  | _ => none

/-- The memory behind a label. -/
def memoryAfter (E : Setting) (s : System) (l : Label) : BuyerMemory :=
  match remembers s l with
  | some (buyerId, interaction) => s.memory.remember E.maxItems buyerId interaction
  | none => s.memory

/-- The CRM has no part in the memory. -/
theorem persistInbound_memory (E : Setting) (s : System) (t : Turn) (at_ : Datetime)
    (outcome : Except String Unit) (contactDraw activityDraw : Crm.Draw) :
    (persistInbound E s t at_ outcome contactDraw activityDraw).memory = match outcome with
      | .ok () => s.memory.remember E.maxItems t.buyerId (buyerInteraction t at_)
      | .error _ => s.memory := by
  have hrecord : ∀ s : System,
      (recordInbound E s t contactDraw activityDraw).memory = s.memory := by
    intro s
    obtain ⟨resources, heq⟩ := recordInbound_eq (E := E) (s := s) (t := t) contactDraw activityDraw
    rw [heq]
  cases outcome with
  | ok => exact hrecord _
  | error => exact hrecord _

theorem afterRemember_memory (E : Setting) (s : System) (i : Nat) (t : Turn) (at_ : Datetime)
    (outcome check : Except String Unit) (contactDraw activityDraw : Crm.Draw) :
    (afterRemember E s i t at_ outcome check contactDraw activityDraw).memory =
      match outcome with
      | .ok () => s.memory.remember E.maxItems t.buyerId (buyerInteraction t at_)
      | .error _ => s.memory := by
  rw [← persistInbound_memory E s t at_ outcome contactDraw activityDraw]
  unfold afterRemember
  dsimp only
  split <;> rfl

theorem step_memory {E : Setting} {s s' : System} {l : Label} (h : step E s l = some s') :
    s'.memory = memoryAfter E s l := by
  cases stepped_of_step h with
  | tick => rfl
  | deliver => rfl
  | @remembered i t at_ outcome check contactDraw activityDraw hf hphase =>
    rw [afterRemember_memory]
    cases outcome with
    | error => rfl
    | ok => simp only [memoryAfter, remembers, hf, Option.bind_eq_bind, Option.bind_some, hphase]
  | @responded i t outcome _ _ =>
    obtain ⟨turns, trace, heq⟩ := afterRespond_eq (s := s) i t outcome
    rw [heq]
    rfl
  | @notified i t reply agentMeta outcome store _ _ =>
    obtain ⟨turns, trace, pauses, heq⟩ := afterNotify_eq (s := s) i t reply agentMeta store
    rw [heq]
    rfl
  | @sent i t reply agentMeta outcome _ _ =>
    obtain ⟨turns, heq⟩ := afterSend_eq (s := s) i t reply agentMeta outcome
    rw [heq]
    rfl
  | @persisted i t reply vendorMessageId agentMeta at_ outcome draw hf hphase =>
    cases outcome with
    | error => rfl
    | ok => simp only [memoryAfter, remembers, hf, Option.bind_eq_bind, Option.bind_some, hphase]; rfl
  | @pause tenantId buyerId hours store =>
    obtain ⟨pauses, heq⟩ := pauseBot_eq (E := E) (s := s) tenantId buyerId hours store
    rw [heq]
    rfl
  | @resume tenantId buyerId =>
    obtain ⟨pauses, heq⟩ := resumeBot_eq (E := E) (s := s) tenantId buyerId
    rw [heq]
    rfl
  | @humanSend j tenantId buyerId text pauseHours =>
    obtain ⟨humans, heq⟩ := humanSendBegin_eq (E := E) (s := s) j tenantId buyerId text pauseHours
    rw [heq]
    rfl
  | @humanSent j human outcome store _ _ =>
    obtain ⟨humans, pauses, heq⟩ := afterHumanSend_eq (s := s) j human outcome store
    rw [heq]
    rfl
  | @humanPersisted j human agentMeta outcome hf hsent =>
    cases outcome with
    | error => rfl
    | ok => simp only [memoryAfter, remembers, hf, Option.bind_eq_bind, Option.bind_some, hsent]; rfl

/-! ## A turn that waits for the agent -/

/-- Turn `i` waits for the agent, and no other message of its buyer is in flight. It is asked for in
each state of the wait, so messages of other buyers may come and go. -/
structure Awaiting (i : Nat) (t : Turn) (s : System) : Prop where
  responding : s.turns.get? i = some { t with phase := .responding }
  alone : ∀ j u, s.turns.get? j = some u → u.buyerId = t.buyerId → j = i
  noHuman : ∀ j h, s.humans.get? j = some h → h.buyerId ≠ t.buyerId

/-- Nothing is stored of a buyer whose one message waits for the agent. -/
theorem Awaiting.not_remembers {i : Nat} {t : Turn} {s : System} (h : Awaiting i t s) {l : Label}
    {buyerId : String} {x : BuyerInteraction} (hl : remembers s l = some (buyerId, x)) :
    buyerId ≠ t.buyerId := by
  -- a turn that stores is not the one that waits
  have hother : ∀ j u, s.turns.get? j = some u → u.phase ≠ .responding →
      u.buyerId ≠ t.buyerId := by
    intro j u hu hphase hbuyer
    cases h.alone j u hu hbuyer
    rw [h.responding] at hu
    cases hu
    exact hphase rfl
  cases l with
  | remembered j outcome check contactDraw activityDraw =>
    cases outcome with
    | error => cases hl
    | ok =>
      obtain ⟨u, hu, hl⟩ := Option.bind_eq_some_iff.mp hl
      cases hphase : u.phase <;> rw [hphase] at hl <;> cases hl
      exact hother j u hu (by rw [hphase]; exact fun h => by cases h)
  | persisted j outcome draw =>
    cases outcome with
    | error => cases hl
    | ok =>
      obtain ⟨u, hu, hl⟩ := Option.bind_eq_some_iff.mp hl
      cases hphase : u.phase <;> rw [hphase] at hl <;> cases hl
      exact hother j u hu (by rw [hphase]; exact fun h => by cases h)
  | humanPersisted j outcome =>
    cases outcome with
    | error => cases hl
    | ok =>
      obtain ⟨human, hhuman, hl⟩ := Option.bind_eq_some_iff.mp hl
      cases hsent : human.sent <;> rw [hsent] at hl <;> cases hl
      exact h.noHuman j human hhuman
  | tick | deliver | responded | notified | sent | pause | resume | humanSend | humanSent =>
    cases hl

theorem Awaiting.step_memory {E : Setting} {i : Nat} {t : Turn} {s s' : System}
    (h : Awaiting i t s) {l : Label} (hstep : step E s l = some s') :
    s'.memory.get? t.buyerId = s.memory.get? t.buyerId := by
  rw [Api.step_memory hstep, memoryAfter]
  cases hl : remembers s l with
  | none => rfl
  | some p => exact Dict.get?_set_ne _ _ (h.not_remembers hl)

/-- While it waits, its conversation stays as it is. -/
theorem memory_of_awaiting {E : Setting} {i : Nat} {t : Turn} {s s' : System} {ls : List Label}
    (hwait : EachState (step E) (Awaiting i t) s ls) (hrun : run (step E) s ls = some s') :
    s'.memory.get? t.buyerId = s.memory.get? t.buyerId := by
  induction ls generalizing s with
  | nil =>
    cases hrun
    rfl
  | cons l ls ih =>
    obtain ⟨u, hu, hrest⟩ := run_cons_eq_some.mp hrun
    rw [ih (hwait.2 u hu) hrest]
    exact hwait.head.step_memory hu

/-! ## The dialogue of a prompt -/

/-- The messages of a prompt behind the system's. -/
def dialogue (prompt : List LLMMessage) : List LLMMessage :=
  prompt.filter fun m => m.role ≠ .system

/-- A buyer's message as the model sees it. -/
def userMessage (text : String) : LLMMessage := { role := .user, content := text }

theorem historyMessage_role (turn : BuyerInteraction) : (historyMessage turn).role ≠ .system := by
  unfold historyMessage
  cases turn.role <;> exact fun h => by cases h

/-- The prompt ends with the recalled turns and the message. -/
theorem dialogue_of_sent {U : Unicode} {stores : Stores} {tenant : Tenant}
    {buyerId message : String} {soulConfig : Option SoulConfig} {now : Datetime}
    {prompt : List LLMMessage}
    (h : (respond U stores tenant buyerId message soulConfig now).sent = some prompt) :
    dialogue prompt = (stores.memory.recall_ buyerId (some HISTORY_TURNS)).map historyMessage ++
      [userMessage message] := by
  cases hescalate : (Handoff.evaluate U message tenant.handoffConfig).escalate with
  | true =>
    obtain ⟨turn, -, hdone⟩ := respond_of_escalate hescalate
    rw [hdone] at h
    cases h
  | false =>
    rw [sent_of_not_escalate hescalate] at h
    cases h
    have hhistory : ∀ m ∈ (stores.memory.recall_ buyerId (some HISTORY_TURNS)).map historyMessage,
        decide (m.role ≠ .system) = true := by
      intro m hm
      obtain ⟨turn, -, rfl⟩ := List.mem_map.mp hm
      exact decide_eq_true (historyMessage_role turn)
    unfold dialogue composePrompt
    rw [List.filter_cons_of_neg (by simp), List.filter_append,
      List.filter_eq_self.mpr hhistory]
    rfl

theorem recall_history (memory : BuyerMemory) (buyerId : String) :
    memory.recall_ buyerId (some HISTORY_TURNS) =
      lastN HISTORY_TURNS.toNat ((memory.get? buyerId).getD []) := rfl

/-- What is recalled once a turn is stored. -/
theorem recall_remember (memory : BuyerMemory) (maxItems : Nat) (buyerId : String)
    (x : BuyerInteraction) :
    (memory.remember maxItems buyerId x).recall_ buyerId (some HISTORY_TURNS) =
      lastN (min HISTORY_TURNS.toNat maxItems) ((memory.get? buyerId).getD [] ++ [x]) := by
  rw [recall_history, BuyerMemory.remember, Dict.get?_set_self, Option.getD_some]
  exact lastN_lastN _ _ _

/-- The recalled window is full of this message: every turn in it reads as the message, and one more
would push one out. -/
def WindowFull (maxItems : Nat) (window : List BuyerInteraction) (text : String) : Prop :=
  window.length = min HISTORY_TURNS.toNat maxItems ∧
    ∀ turn ∈ window, historyMessage turn = userMessage text

/-- Recalled after it was stored, the message is in the history, and the history as it was is
only the same where it was all this message. -/
theorem recall_after_eq_iff (memory : BuyerMemory) (maxItems : Nat) (t : Turn) (at_ : Datetime) :
    ((memory.remember maxItems t.buyerId (buyerInteraction t at_)).recall_ t.buyerId
        (some HISTORY_TURNS)).map historyMessage =
      (memory.recall_ t.buyerId (some HISTORY_TURNS)).map historyMessage ↔
    WindowFull maxItems (memory.recall_ t.buyerId (some HISTORY_TURNS)) t.msg.text := by
  rw [recall_remember, recall_history, map_lastN, map_lastN, List.map_append]
  show lastN _ (_ ++ [userMessage t.msg.text]) = _ ↔ _
  rw [lastN_append_singleton_eq_iff (Nat.min_le_left _ _), List.eq_replicate_iff, ← map_lastN,
    List.length_map, List.forall_mem_map]
  rfl

/-- **The message is sent twice.** Whatever the conversation, the dialogue of the prompt is the
turns stored before the message and then the message exactly when the recalled window was already
full of this very message. The condition is on the window before the message came, so it can be told
beforehand. -/
theorem message_once_iff {E : Setting} {s s' s'' : System} {i : Nat} {t : Turn}
    {check : Except String Unit} {contactDraw activityDraw : Crm.Draw}
    (hturn : s.turns.get? i = some t)
    (hstored : step E s (.remembered i (.ok ()) check contactDraw activityDraw) = some s')
    {ls : List Label} (hwait : EachState (step E) (Awaiting i t) s' ls)
    (hrun : run (step E) s' ls = some s'') {stores : Stores} (hstores : stores.memory = s''.memory)
    {soulConfig : Option SoulConfig} {now : Datetime} {prompt : List LLMMessage}
    (hsent : (respond E.U stores t.tenant t.buyerId t.msg.text soulConfig now).sent = some prompt) :
    dialogue prompt = (s.memory.recall_ t.buyerId (some HISTORY_TURNS)).map historyMessage ++
        [userMessage t.msg.text] ↔
      WindowFull E.maxItems (s.memory.recall_ t.buyerId (some HISTORY_TURNS)) t.msg.text := by
  obtain ⟨at_, hmemory⟩ : ∃ at_, s'.memory =
      s.memory.remember E.maxItems t.buyerId (buyerInteraction t at_) := by
    obtain ⟨t', ht', hphase⟩ := Option.bind_eq_some_iff.mp hstored
    cases hturn.symm.trans ht'
    cases hp : t.phase <;> rw [hp] at hphase <;> cases hphase
    exact ⟨_, afterRemember_memory E s i t _ (.ok ()) check contactDraw activityDraw⟩
  rw [dialogue_of_sent hsent, List.append_left_inj, hstores, recall_history s''.memory,
    memory_of_awaiting hwait hrun, ← recall_history, hmemory]
  exact recall_after_eq_iff s.memory E.maxItems t at_

/-! ## One message of one buyer -/

def holaSetting : Setting := { U := Unicode.ascii, tenants := Dict.empty, maxItems := 50 }

def holaTurn : Turn where
  tenant := { id := "t1", name := "Ana", slug := "ana", createdAt := 0 }
  msg := { tenantId := "t1", fromNumber := "549", text := "hola", messageId := "m1"
           receivedAt := 0 }
  phase := .remembering 0

def holaDraw (id : String) : Crm.Draw := { now := 0, id, createdAt := 0, updatedAt := 0 }

/-- The message is delivered to a process with this memory. -/
def holaDelivered (memory : BuyerMemory) : System :=
  { System.init 0 with
    memory
    turns := Dict.empty.set 0 holaTurn
    delivered := [("t1", "m1")] }

/-- It is stored, and the agent is asked. -/
def holaStored (memory : BuyerMemory) : System :=
  afterRemember holaSetting (holaDelivered memory) 0 holaTurn 0 (.ok ()) (.ok ()) (holaDraw "c1")
    (holaDraw "a1")

/-- What the model is sent. -/
def holaPrompt (memory : BuyerMemory) : List LLMMessage :=
  (respond Unicode.ascii { memory := (holaStored memory).memory } holaTurn.tenant holaTurn.buyerId
    "hola" none 0).sent.getD []

theorem awaiting_holaStored (memory : BuyerMemory) : Awaiting 0 holaTurn (holaStored memory) := by
  have hmoves := afterRemember_moves (E := holaSetting) (s := holaDelivered memory) (i := 0)
    (t := holaTurn) rfl 0 (.ok ()) (.ok ()) (holaDraw "c1") (holaDraw "a1")
  have hturns : (holaStored memory).turns =
      (Dict.empty.set 0 holaTurn).set 0 { holaTurn with phase := .responding } := hmoves.turns
  refine ⟨?_, ?_, ?_⟩
  · rw [hturns]
    exact Dict.get?_set_self _ _ _
  · intro j u hu _
    rw [hturns, Dict.set_set] at hu
    rcases Dict.get?_set_eq_some hu with ⟨hj, -⟩ | ⟨-, hempty⟩
    · exact hj.symm
    · cases hempty
  · intro j h hh
    have hhumans : (holaStored memory).humans = Dict.empty := by
      obtain ⟨memory', resources, heq⟩ := persistInbound_eq (E := holaSetting)
        (s := holaDelivered memory) (t := holaTurn) 0 (.ok ()) (holaDraw "c1") (holaDraw "a1")
      unfold holaStored afterRemember
      dsimp only
      rw [heq]
      split <;> rfl
    rw [hhumans] at hh
    cases hh

theorem sent_holaPrompt (memory : BuyerMemory) :
    (respond holaSetting.U { memory := (holaStored memory).memory } holaTurn.tenant
      holaTurn.buyerId holaTurn.msg.text none 0).sent = some (holaPrompt memory) := rfl

/-- Six times the same message before it: the window is full. -/
def sixHolas : BuyerMemory :=
  Dict.empty.set holaTurn.buyerId (List.replicate 6 { text := "hola", at_ := 0 })

theorem sixHolas_once : dialogue (holaPrompt sixHolas) =
    (sixHolas.recall_ holaTurn.buyerId (some HISTORY_TURNS)).map historyMessage ++
      [userMessage "hola"] := by
  refine (message_once_iff (s := holaDelivered sixHolas) (t := holaTurn) rfl
    (rfl : step holaSetting (holaDelivered sixHolas) (.remembered 0 (.ok ()) (.ok ())
      (holaDraw "c1") (holaDraw "a1")) = some (holaStored sixHolas))
    (show EachState (step holaSetting) (Awaiting 0 holaTurn) (holaStored sixHolas) [] from
      awaiting_holaStored sixHolas) rfl rfl (sent_holaPrompt sixHolas)).mpr ?_
  exact ⟨rfl, fun turn hturn => by rw [List.eq_of_mem_replicate hturn]; rfl⟩

/-- The first message of a buyer is in the prompt twice. -/
theorem not_message_once :
    ¬ ∀ (E : Setting) (s s' s'' : System) (i : Nat) (t : Turn) (check : Except String Unit)
      (contactDraw activityDraw : Crm.Draw) (ls : List Label) (stores : Stores)
      (soulConfig : Option SoulConfig) (now : Datetime) (prompt : List LLMMessage),
      s.turns.get? i = some t →
      step E s (.remembered i (.ok ()) check contactDraw activityDraw) = some s' →
      EachState (step E) (Awaiting i t) s' ls → run (step E) s' ls = some s'' →
      stores.memory = s''.memory →
      (respond E.U stores t.tenant t.buyerId t.msg.text soulConfig now).sent = some prompt →
      dialogue prompt = (s.memory.recall_ t.buyerId (some HISTORY_TURNS)).map historyMessage ++
        [userMessage t.msg.text] := by
  intro h
  have honce := h holaSetting (holaDelivered Dict.empty) (holaStored Dict.empty)
    (holaStored Dict.empty) 0 holaTurn (.ok ()) (holaDraw "c1") (holaDraw "a1") []
    { memory := (holaStored Dict.empty).memory } none 0 (holaPrompt Dict.empty) rfl rfl
    (awaiting_holaStored Dict.empty) rfl rfl (sent_holaPrompt Dict.empty)
  have htwice := dialogue_of_sent (sent_holaPrompt Dict.empty)
  rw [htwice] at honce
  have hlen := congrArg List.length honce
  have hmemory : (holaStored Dict.empty).memory = _ := afterRemember_memory holaSetting
    (holaDelivered Dict.empty) 0 holaTurn 0 (.ok ()) (.ok ()) (holaDraw "c1") (holaDraw "a1")
  rw [hmemory] at hlen
  exact absurd hlen (by decide)

end Wapsell.Api
