import Wapsell.Api.Inbound

/-!
# What a step does to the turns in flight

One reading of the step function, for every proof about a run of it.
`Stepped` takes a step apart, label by label. Of the turns, a label either
resumes none, or starts one, or resumes one: then the turn goes on from its
phase as `Goes` says, and `Moves` says what that leaves of the system. The
pauses are read apart: `setsPause` is the pause a label sets where it is
taken.

The step function has a dozen labels and each resumes a stretch of code
with branches of its own. Taking it apart once, into what a label does
to the turns, the trace and the deliveries, is what lets the invariants
be stated about these alone: none of the proofs about runs unfolds the
step function again.
-/

namespace Wapsell.Api

open Lib Py Agent Inbox

/-! ## The step, label by label -/

/-- What the system is after a label that was taken, and what it was taken on. One constructor for
each label, with the guards under which it may be taken. -/
inductive Stepped (E : Setting) (s : System) : Label → System → Prop
  | tick {now : Datetime} (later : s.now ≤ now) : Stepped E s (.tick now) { s with now }
  | deliver {i : Nat} {tenant : Tenant} {msg : InboundMessage} (free : s.turns.get? i = none) :
      Stepped E s (.deliver i tenant msg)
        (({ s with delivered := s.delivered ++ [(tenant.id, msg.messageId)] } : System).suspend i
          { tenant, msg, phase := .remembering s.now })
  | remembered {i : Nat} {t : Turn} {at_ : Datetime} {outcome check : Except String Unit}
      {contactDraw activityDraw : Crm.Draw} (found : s.turns.get? i = some t)
      (phase : t.phase = .remembering at_) :
      Stepped E s (.remembered i outcome check contactDraw activityDraw)
        (afterRemember E s i t at_ outcome check contactDraw activityDraw)
  | responded {i : Nat} {t : Turn} {outcome : Except String AgentTurn}
      (found : s.turns.get? i = some t) (phase : t.phase = .responding) :
      Stepped E s (.responded i outcome) (afterRespond s i t outcome)
  | notified {i : Nat} {t : Turn} {reply : String} {agentMeta : Dict String String}
      {outcome store : Except String Unit} (found : s.turns.get? i = some t)
      (phase : t.phase = .notifying reply agentMeta) :
      Stepped E s (.notified i outcome store) (afterNotify s i t reply agentMeta store)
  | sent {i : Nat} {t : Turn} {reply : String} {agentMeta : Dict String String}
      {outcome : Except String (Option String)} (found : s.turns.get? i = some t)
      (phase : t.phase = .sending reply agentMeta) :
      Stepped E s (.sent i outcome) (afterSend s i t reply agentMeta outcome)
  | persisted {i : Nat} {t : Turn} {reply vendorMessageId : String}
      {agentMeta : Dict String String} {at_ : Datetime} {outcome : Except String Unit}
      {draw : Crm.Draw} (found : s.turns.get? i = some t)
      (phase : t.phase = .persisting reply vendorMessageId agentMeta at_) :
      Stepped E s (.persisted i outcome draw)
        (afterPersist E s i t reply vendorMessageId agentMeta at_ outcome draw)
  | pause {tenantId buyerId : String} {hours : Int} {store : Except String Unit} :
      Stepped E s (.pause tenantId buyerId hours store) (pauseBot E s tenantId buyerId hours store)
  | resume {tenantId buyerId : String} :
      Stepped E s (.resume tenantId buyerId) (resumeBot E s tenantId buyerId)
  | humanSend {j : Nat} {tenantId buyerId text : String} {pauseHours : Option Int} :
      Stepped E s (.humanSend j tenantId buyerId text pauseHours)
        (humanSendBegin E s j tenantId buyerId text pauseHours)
  | humanSent {j : Nat} {human : HumanSend} {outcome : Except String (Option String)}
      {store : Except String Unit} (found : s.humans.get? j = some human)
      (waits : human.sent = none) :
      Stepped E s (.humanSent j outcome store) (afterHumanSend s j human outcome store)
  | humanPersisted {j : Nat} {human : HumanSend} {agentMeta : Dict String String}
      {outcome : Except String Unit} (found : s.humans.get? j = some human)
      (sent : human.sent = some agentMeta) :
      Stepped E s (.humanPersisted j outcome) (afterHumanPersist E s j human agentMeta outcome)

/-- **What a step can do.** The guards are part of the answer, so nothing of the step function is
lost by using it.

What a run keeps is proved from it, and not from the step function. -/
theorem stepped_of_step {E : Setting} {s s' : System} {l : Label} (h : step E s l = some s') :
    Stepped E s l s' := by
  cases l with
  | tick now =>
    simp only [step] at h
    split at h
    next hle =>
      cases h
      exact .tick hle
    · cases h
  | deliver i tenant msg =>
    simp only [step] at h
    split at h
    · cases h
    next hfree =>
      cases h
      exact .deliver (Option.not_isSome_iff_eq_none.mp hfree)
  | remembered i outcome check contactDraw activityDraw =>
    obtain ⟨t, hf, ht⟩ := Option.bind_eq_some_iff.mp h
    cases hphase : t.phase <;> rw [hphase] at ht <;> cases ht
    exact .remembered hf hphase
  | responded i outcome =>
    obtain ⟨t, hf, ht⟩ := Option.bind_eq_some_iff.mp h
    cases hphase : t.phase <;> rw [hphase] at ht <;> cases ht
    exact .responded hf hphase
  | notified i outcome store =>
    obtain ⟨t, hf, ht⟩ := Option.bind_eq_some_iff.mp h
    cases hphase : t.phase <;> rw [hphase] at ht <;> cases ht
    exact .notified hf hphase
  | sent i outcome =>
    obtain ⟨t, hf, ht⟩ := Option.bind_eq_some_iff.mp h
    cases hphase : t.phase <;> rw [hphase] at ht <;> cases ht
    exact .sent hf hphase
  | persisted i outcome draw =>
    obtain ⟨t, hf, ht⟩ := Option.bind_eq_some_iff.mp h
    cases hphase : t.phase <;> rw [hphase] at ht <;> cases ht
    exact .persisted hf hphase
  | pause tenantId buyerId hours store =>
    cases h
    exact .pause
  | resume tenantId buyerId =>
    cases h
    exact .resume
  | humanSend j tenantId buyerId text pauseHours =>
    simp only [step] at h
    split at h <;> cases h
    exact .humanSend
  | humanSent j outcome store =>
    obtain ⟨human, hf, hh⟩ := Option.bind_eq_some_iff.mp h
    cases hsent : human.sent <;> rw [hsent] at hh <;> cases hh
    exact .humanSent hf hsent
  | humanPersisted j outcome =>
    obtain ⟨human, hf, hh⟩ := Option.bind_eq_some_iff.mp h
    cases hsent : human.sent <;> rw [hsent] at hh <;> cases hh
    exact .humanPersisted hf hsent

/-! ## What the stretches of code leave alone -/

section Frames

variable {E : Setting} {s : System}

theorem pauseBot_eq (tenantId buyerId : String) (hours : Int) (store : Except String Unit) :
    ∃ pauses, pauseBot E s tenantId buyerId hours store = { s with pauses } := by
  unfold pauseBot
  split
  · split
    · exact ⟨_, rfl⟩
    · split
      · exact ⟨_, rfl⟩
      · exact ⟨_, rfl⟩
  · exact ⟨_, rfl⟩

theorem resumeBot_eq (tenantId buyerId : String) :
    ∃ pauses, resumeBot E s tenantId buyerId = { s with pauses } := by
  unfold resumeBot
  split
  · exact ⟨_, rfl⟩
  · exact ⟨_, rfl⟩

theorem humanSendBegin_eq (j : Nat) (tenantId buyerId text : String) (pauseHours : Option Int) :
    ∃ humans, humanSendBegin E s j tenantId buyerId text pauseHours = { s with humans } := by
  unfold humanSendBegin
  split
  · split
    · exact ⟨_, rfl⟩
    · exact ⟨_, rfl⟩
  · exact ⟨_, rfl⟩

theorem afterHumanSend_eq (j : Nat) (human : HumanSend) (outcome : Except String (Option String))
    (store : Except String Unit) :
    ∃ humans pauses, afterHumanSend s j human outcome store = { s with humans, pauses } := by
  unfold afterHumanSend
  cases humanPauseUntil s human store with
  | none => exact ⟨_, _, rfl⟩
  | some until_ => exact ⟨_, _, rfl⟩

theorem afterRespond_eq (i : Nat) (t : Turn) (outcome : Except String AgentTurn) :
    ∃ turns trace, afterRespond s i t outcome = { s with turns, trace } := by
  unfold afterRespond
  split
  · exact ⟨_, _, rfl⟩
  · split
    · split
      · exact ⟨_, _, rfl⟩
      · exact ⟨_, _, rfl⟩
    · exact ⟨_, _, rfl⟩

theorem afterNotify_eq (i : Nat) (t : Turn) (reply : String) (agentMeta : Dict String String)
    (store : Except String Unit) :
    ∃ turns trace pauses, afterNotify s i t reply agentMeta store =
      { s with turns, trace, pauses } := by
  unfold afterNotify
  split
  · exact ⟨_, _, _, rfl⟩
  · exact ⟨_, _, _, rfl⟩

theorem afterSend_eq (i : Nat) (t : Turn) (reply : String) (agentMeta : Dict String String)
    (outcome : Except String (Option String)) :
    ∃ turns, afterSend s i t reply agentMeta outcome = { s with turns } := by
  cases outcome with
  | ok => exact ⟨_, rfl⟩
  | error => exact ⟨_, rfl⟩

end Frames

/-! ## How a turn goes on -/

/-- A stored turn of the conversation is an effect, a failed one is none. -/
def stored (e : Effect) : Except String Unit → List Effect
  | .ok () => [e]
  | .error _ => []

theorem mem_stored {e e' : Effect} {outcome : Except String Unit} (h : e' ∈ stored e outcome) :
    e' = e := by
  cases outcome with
  | ok => exact List.mem_singleton.mp h
  | error => cases h

/-- The send of a turn, as the trace has it. -/
def sendOf (s : System) (t : Turn) (reply : String) (own : Bool) : Effect :=
  .sendText t.tenant.id t.msg.messageId t.msg.fromNumber reply
    (s.pauses.isPaused t.tenant.id t.buyerId s.now) own

/-- How turn `i` goes on where its await ends: the phase it is suspended in next, `none` at its end,
and the effects it has caused on the way. -/
inductive Goes (s : System) (i : Nat) (t : Turn) : Label → Option Phase → List Effect → Prop
  | remembered {outcome check : Except String Unit} {contactDraw activityDraw : Crm.Draw}
      {at_ : Datetime} (phase : t.phase = .remembering at_) :
      Goes s i t (.remembered i outcome check contactDraw activityDraw)
        (if pauseCheck s t check then none else some .responding)
        (stored (.buyerTurn t.tenant.id t.msg.messageId) outcome)
  | answered {outcome : Except String AgentTurn} {reply : String}
      {agentMeta : Dict String String} (phase : t.phase = .responding) :
      Goes s i t (.responded i outcome) (some (.sending reply agentMeta)) [sendOf s t reply false]
  | handedOff {outcome : Except String AgentTurn} {reply : String}
      {agentMeta : Dict String String} (phase : t.phase = .responding) :
      Goes s i t (.responded i outcome) (some (.notifying reply agentMeta)) []
  | notified {outcome store : Except String Unit} {reply : String}
      {agentMeta : Dict String String} (phase : t.phase = .notifying reply agentMeta)
      (unpaused : autoPauseUntil s t store = none) :
      Goes s i t (.notified i outcome store) (some (.sending reply agentMeta))
        [sendOf s t reply false]
  | autoPaused {outcome store : Except String Unit} {reply : String}
      {agentMeta : Dict String String} {until_ : Datetime}
      (phase : t.phase = .notifying reply agentMeta)
      (paused : autoPauseUntil s t store = some until_) :
      Goes s i t (.notified i outcome store)
        (some (.sending reply (agentMeta.set "bot_paused_until" until_.isoformat)))
        [sendOf (s.pauseUntil t.tenant.id t.buyerId until_) t reply true]
  | sent {outcome : Except String (Option String)} {reply vendorMessageId : String}
      {agentMeta agentMeta' : Dict String String} (phase : t.phase = .sending reply agentMeta) :
      Goes s i t (.sent i outcome) (some (.persisting reply vendorMessageId agentMeta' s.now)) []
  | persisted {outcome : Except String Unit} {draw : Crm.Draw}
      {reply vendorMessageId : String} {agentMeta : Dict String String} {at_ : Datetime}
      (phase : t.phase = .persisting reply vendorMessageId agentMeta at_) :
      Goes s i t (.persisted i outcome draw) none
        (stored (.agentTurn t.tenant.id t.msg.messageId) outcome)

/-- The turns in flight once `i` has gone on. -/
def turnsAfter (s : System) (i : Nat) (t : Turn) : Option Phase → Dict Nat Turn
  | some phase => s.turns.set i { t with phase }
  | none => s.turns.erase i

/-- A turn in flight once `i` has gone on is the one that went on or one that was there. -/
theorem get?_turnsAfter {s : System} {i j : Nat} {t u : Turn} {next : Option Phase}
    (h : (turnsAfter s i t next).get? j = some u) :
    (j = i ∧ ∃ phase, next = some phase ∧ u = { t with phase }) ∨
      (j ≠ i ∧ s.turns.get? j = some u) := by
  cases next with
  | some phase =>
    rcases Dict.get?_set_eq_some h with ⟨hij, hu⟩ | ⟨hij, hold⟩
    · exact .inl ⟨hij.symm, phase, rfl, hu.symm⟩
    · exact .inr ⟨hij.symm, hold⟩
  | none =>
    obtain ⟨hij, hold⟩ := Dict.get?_erase_eq_some h
    exact .inr ⟨hij.symm, hold⟩

/-- Turn `i` went on, and no other did. -/
structure Moves (s s' : System) (i : Nat) (t : Turn) (next : Option Phase) (es : List Effect) :
    Prop where
  found : s.turns.get? i = some t
  turns : s'.turns = turnsAfter s i t next
  trace : s'.trace = s.trace ++ es
  delivered : s'.delivered = s.delivered
  clock : s'.now = s.now

/-- What the clock, the turns, the trace and the deliveries are after a step. -/
inductive Change (s s' : System) (l : Label) : Prop
  | none (turns : s'.turns = s.turns) (trace : s'.trace = s.trace)
      (delivered : s'.delivered = s.delivered) (clock : s.now ≤ s'.now)
  | delivered {i : Nat} {tenant : Tenant} {msg : InboundMessage} (label : l = .deliver i tenant msg)
      (free : s.turns.get? i = none)
      (turns : s'.turns = s.turns.set i { tenant, msg, phase := .remembering s.now })
      (trace : s'.trace = s.trace)
      (delivered : s'.delivered = s.delivered ++ [(tenant.id, msg.messageId)])
      (clock : s'.now = s.now)
  | moved {i : Nat} {t : Turn} {next : Option Phase} {es : List Effect} (goes : Goes s i t l next es)
      (moves : Moves s s' i t next es)

/-- Time does not run backwards. -/
theorem Change.now_le {s s' : System} {l : Label} (h : Change s s' l) : s.now ≤ s'.now := by
  cases h with
  | none _ _ _ clock => exact clock
  | delivered _ _ _ _ _ clock => exact clock.ge
  | moved _ moves => exact moves.clock.ge

/-! ## One lemma for each stretch of code -/

section Segments

variable {E : Setting} {s : System} {i : Nat} {t : Turn}

/-- The CRM writes leave everything but the resources as it was. -/
theorem recordInbound_eq (contactDraw activityDraw : Crm.Draw) :
    ∃ resources, recordInbound E s t contactDraw activityDraw = { s with resources } := by
  unfold recordInbound
  split
  · exact ⟨_, rfl⟩
  · exact ⟨s.resources, rfl⟩

/-- Neither the memory nor the CRM has a part in the turns in flight, the clock or the pauses. -/
theorem persistInbound_eq (at_ : Datetime) (outcome : Except String Unit)
    (contactDraw activityDraw : Crm.Draw) :
    ∃ memory resources, persistInbound E s t at_ outcome contactDraw activityDraw =
      { s with
        memory, resources
        trace := s.trace ++ stored (.buyerTurn t.tenant.id t.msg.messageId) outcome } := by
  cases outcome with
  | ok =>
    obtain ⟨resources, hrec⟩ := recordInbound_eq (E := E) (t := t)
      (s := (s.remember E t.buyerId (buyerInteraction t at_)).log
        (.buyerTurn t.tenant.id t.msg.messageId)) contactDraw activityDraw
    exact ⟨_, resources, hrec⟩
  | error =>
    obtain ⟨resources, hrec⟩ := recordInbound_eq (E := E) (s := s) (t := t) contactDraw activityDraw
    refine ⟨s.memory, resources, ?_⟩
    rw [stored, List.append_nil]
    exact hrec

theorem afterRemember_moves (hf : s.turns.get? i = some t) (at_ : Datetime)
    (outcome check : Except String Unit) (contactDraw activityDraw : Crm.Draw) :
    Moves s (afterRemember E s i t at_ outcome check contactDraw activityDraw) i t
      (if pauseCheck s t check then none else some .responding)
      (stored (.buyerTurn t.tenant.id t.msg.messageId) outcome) := by
  obtain ⟨memory, resources, heq⟩ := persistInbound_eq (E := E) (s := s) (t := t) at_ outcome
    contactDraw activityDraw
  have hcheck : pauseCheck (persistInbound E s t at_ outcome contactDraw activityDraw) t check =
      pauseCheck s t check := by
    rw [heq]
    cases check <;> rfl
  unfold afterRemember
  dsimp only
  rw [hcheck, heq]
  split <;> exact ⟨hf, rfl, rfl, rfl, rfl⟩

theorem issueSend_moves (hf : s.turns.get? i = some t) (reply : String)
    (agentMeta : Dict String String) (own : Bool) :
    Moves s (issueSend s i t reply agentMeta own) i t (some (.sending reply agentMeta))
      [sendOf s t reply own] :=
  ⟨hf, rfl, rfl, rfl, rfl⟩

theorem afterRespond_change (hf : s.turns.get? i = some t) (hphase : t.phase = .responding)
    (outcome : Except String AgentTurn) :
    Change s (afterRespond s i t outcome) (.responded i outcome) := by
  have hanswer : ∀ reply agentMeta,
      Change s (issueSend s i t reply agentMeta false) (.responded i outcome) :=
    fun reply agentMeta => .moved (.answered hphase) (issueSend_moves hf reply agentMeta false)
  unfold afterRespond
  split
  · exact hanswer _ _
  · split
    · split
      · exact .moved (.handedOff hphase) ⟨hf, rfl, (List.append_nil _).symm, rfl, rfl⟩
      · exact hanswer _ _
    · exact hanswer _ _

theorem afterNotify_change (hf : s.turns.get? i = some t) {reply : String}
    {agentMeta : Dict String String} (hphase : t.phase = .notifying reply agentMeta)
    (outcome store : Except String Unit) :
    Change s (afterNotify s i t reply agentMeta store) (.notified i outcome store) := by
  unfold afterNotify
  cases hauto : autoPauseUntil s t store with
  | none => exact .moved (.notified hphase hauto) (issueSend_moves hf reply agentMeta false)
  | some until_ =>
    refine .moved (.autoPaused hphase hauto) ⟨hf, rfl, rfl, rfl, rfl⟩

theorem afterSend_change (hf : s.turns.get? i = some t) {reply : String}
    {agentMeta : Dict String String} (hphase : t.phase = .sending reply agentMeta)
    (outcome : Except String (Option String)) :
    Change s (afterSend s i t reply agentMeta outcome) (.sent i outcome) := by
  cases outcome with
  | ok => exact .moved (.sent hphase) ⟨hf, rfl, (List.append_nil _).symm, rfl, rfl⟩
  | error => exact .moved (.sent hphase) ⟨hf, rfl, (List.append_nil _).symm, rfl, rfl⟩

theorem afterPersist_moves (hf : s.turns.get? i = some t) (reply vendorMessageId : String)
    (agentMeta : Dict String String) (at_ : Datetime) (outcome : Except String Unit)
    (draw : Crm.Draw) :
    Moves s (afterPersist E s i t reply vendorMessageId agentMeta at_ outcome draw) i t none
      (stored (.agentTurn t.tenant.id t.msg.messageId) outcome) := by
  cases outcome with
  | ok => exact ⟨hf, rfl, rfl, rfl, rfl⟩
  | error => exact ⟨hf, rfl, (List.append_nil _).symm, rfl, rfl⟩

end Segments

/-! ## The step -/

/-- **What a step does** to the turns, the trace and the deliveries. The pauses and the stores are
left out, each to the module that is about them.

A step leaves the turns and the trace alone, or adds a turn, or moves one. It is what the theorems
about one kind of effect need, which do not look at the stores. -/
theorem change_of_step {E : Setting} {s s' : System} {l : Label} (h : step E s l = some s') :
    Change s s' l := by
  cases stepped_of_step h with
  | tick hle => exact .none rfl rfl rfl hle
  | deliver hfree => exact .delivered rfl hfree rfl rfl rfl rfl
  | @remembered i t at_ outcome check contactDraw activityDraw hf hphase =>
    exact .moved (.remembered hphase)
      (afterRemember_moves hf at_ outcome check contactDraw activityDraw)
  | responded hf hphase => exact afterRespond_change hf hphase _
  | notified hf hphase => exact afterNotify_change hf hphase _ _
  | sent hf hphase => exact afterSend_change hf hphase _
  | @persisted i t reply vendorMessageId agentMeta at_ outcome draw hf hphase =>
    exact .moved (.persisted hphase)
      (afterPersist_moves hf reply vendorMessageId agentMeta at_ outcome draw)
  | @pause tenantId buyerId hours store =>
    obtain ⟨pauses, heq⟩ := pauseBot_eq (E := E) (s := s) tenantId buyerId hours store
    rw [heq]
    exact .none rfl rfl rfl (le_refl _)
  | @resume tenantId buyerId =>
    obtain ⟨pauses, heq⟩ := resumeBot_eq (E := E) (s := s) tenantId buyerId
    rw [heq]
    exact .none rfl rfl rfl (le_refl _)
  | @humanSend j tenantId buyerId text pauseHours =>
    obtain ⟨humans, heq⟩ := humanSendBegin_eq (E := E) (s := s) j tenantId buyerId text pauseHours
    rw [heq]
    exact .none rfl rfl rfl (le_refl _)
  | @humanSent j human outcome store _ _ =>
    obtain ⟨humans, pauses, heq⟩ := afterHumanSend_eq (s := s) j human outcome store
    rw [heq]
    exact .none rfl rfl rfl (le_refl _)
  | @humanPersisted j human agentMeta outcome _ _ =>
    cases outcome with
    | ok => exact .none rfl rfl rfl (le_refl _)
    | error => exact .none rfl rfl rfl (le_refl _)

end Wapsell.Api
