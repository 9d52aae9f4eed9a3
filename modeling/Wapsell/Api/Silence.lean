import Wapsell.Api.Turns

/-!
# A paused bot stays silent

The pause of a buyer is checked once in a turn, before the agent is asked.
A turn past the check is committed: it will send, whatever happens to the
pauses meanwhile, and only a turn that a handoff makes set its own pause
may do so under one. The invariant is that no committed turn has its pair
paused; the only steps that break it are those that set a pause.

The exact condition would have to look ahead at what a committed turn
does, so the one given looks at the step alone: who sets a pause waits
for the turns that are past their check. It allows all that the product
does with nobody in flight, and forbids exactly the race.

**What this does not establish.** A store that raises in the check
counts as no pause, and the run is one in which it does not. A message
that was sent before the pause may arrive after it.
-/

namespace Wapsell.Api

open Lib Py Agent Inbox

/-- The pause a label sets where it is taken. -/
def setsPause (E : Setting) (s : System) : Label → Option BotPause
  | .notified i _ store => do
    let t ← s.turns.get? i
    match t.phase with
    | .notifying .. => (autoPauseUntil s t store).map (BotPause.mk t.tenant.id t.buyerId)
    | _ => none
  | .pause tenantId buyerId hours (.ok ()) => do
    let tenant ← tenantForConv E tenantId buyerId
    if hours ≤ 0 then none else (s.now.addHours hours).map (BotPause.mk tenant.id buyerId)
  | .humanSent j _ store => do
    let h ← s.humans.get? j
    match h.sent with
    | none => (humanPauseUntil s h store).map (BotPause.mk h.tenantId h.buyerId)
    | some _ => none
  | _ => none

/-- The turn is past its pause check, will send, and sets no pause of its own on the way. One that
waits for the notifier and then sets a pause is not committed: its send is under that very pause. -/
def Turn.Committed (t : Turn) : Prop :=
  match t.phase with
  | .responding => True
  | .notifying .. => t.autoPauseHours = none
  | _ => False

instance : ∀ t : Turn, Decidable t.Committed
  | ⟨_, _, .responding⟩ => .isTrue trivial
  | ⟨tenant, msg, .notifying reply agentMeta⟩ =>
    inferInstanceAs
      (Decidable (Turn.autoPauseHours ⟨tenant, msg, .notifying reply agentMeta⟩ = none))
  | ⟨_, _, .remembering _⟩ | ⟨_, _, .sending ..⟩ | ⟨_, _, .persisting ..⟩ => .isFalse id

/-- No send of the bot under a pause, but the one of the turn that set it: the handoff message
itself is sent while its own pause holds. -/
def Silent (s : System) : Prop :=
  ∀ tenantId messageId toNumber text own,
    .sendText tenantId messageId toNumber text true own ∈ s.trace → own = true

/-- The pause store does not fail. -/
def StoreAnswers : Label → Prop
  | .remembered _ _ check _ _ => check = .ok ()
  | .notified _ _ store => store = .ok ()
  | .pause _ _ _ store => store = .ok ()
  | .humanSent _ _ store => store = .ok ()
  | _ => True

private def decidableOk : ∀ outcome : Except String Unit, Decidable (outcome = .ok ())
  | .ok () => .isTrue rfl
  | .error _ => .isFalse nofun

instance : ∀ l, Decidable (StoreAnswers l)
  | .remembered _ _ check _ _ => decidableOk check
  | .notified _ _ store | .pause _ _ _ store | .humanSent _ _ store => decidableOk store
  | .tick _ | .deliver .. | .responded .. | .sent .. | .persisted .. | .resume .. | .humanSend ..
  | .humanPersisted .. => .isTrue trivial

/-- The step pauses no pair that has a committed turn. -/
def LeavesCommitted (E : Setting) (s : System) (l : Label) : Prop :=
  ∀ p ∈ setsPause E s l, ∀ t ∈ s.turns.values, t.Committed →
    (p.tenantId, p.buyerId) ≠ (t.tenant.id, t.buyerId)

/-- An auto-pause that overflows, and so is not set, belongs to a pair that is not paused. -/
def OverflowUnpaused (s : System) : Label → Prop
  | .notified i _ _ => ∀ t ∈ s.turns.get? i, ∀ hours ∈ t.autoPauseHours,
      s.now.addHours hours = none → s.pauses.isPaused t.tenant.id t.buyerId s.now = false
  | _ => True

instance (s : System) : ∀ l, Decidable (OverflowUnpaused s l)
  | .notified i _ _ => inferInstanceAs (Decidable (∀ t ∈ s.turns.get? i,
      ∀ hours ∈ t.autoPauseHours, s.now.addHours hours = none →
        s.pauses.isPaused t.tenant.id t.buyerId s.now = false))
  | .tick _ | .deliver .. | .remembered .. | .responded .. | .sent .. | .persisted .. | .pause ..
  | .resume .. | .humanSend .. | .humanSent .. | .humanPersisted .. => .isTrue trivial

/-- What keeps the bot silent: the step pauses no pair with a committed turn, and no auto-pause that
overflows belongs to a pair that is paused. Both are on the label and the state before it. -/
def Heeds (E : Setting) (s : System) (l : Label) : Prop :=
  LeavesCommitted E s l ∧ OverflowUnpaused s l

instance (E : Setting) (s : System) (l : Label) : Decidable (Heeds E s l) :=
  inferInstanceAs (Decidable ((∀ p ∈ setsPause E s l, ∀ t ∈ s.turns.values, t.Committed →
    (p.tenantId, p.buyerId) ≠ (t.tenant.id, t.buyerId)) ∧ OverflowUnpaused s l))

/-! ## What a step does to the pauses and the clock -/

/-- What the pauses are after a step that sets `p`. -/
inductive PausesChange (s s' : System) (p : Option BotPause) : Prop
  | set (pause : BotPause) (sets : p = some pause)
      (pauses : s'.pauses = s.pauses.pause pause.tenantId pause.buyerId pause.pausedUntil)
  | resumed {tenantId buyerId : String} (pauses : s'.pauses = s.pauses.resume tenantId buyerId)
  | same (pauses : s'.pauses = s.pauses)

theorem pauses_of_step {E : Setting} {s s' : System} {l : Label} (h : step E s l = some s') :
    PausesChange s s' (setsPause E s l) := by
  cases stepped_of_step h with
  | tick => exact .same rfl
  | deliver => exact .same rfl
  | @remembered i t at_ outcome check contactDraw activityDraw _ _ =>
    obtain ⟨memory, resources, heq⟩ := persistInbound_eq (E := E) (s := s) (t := t) at_ outcome
      contactDraw activityDraw
    unfold afterRemember
    dsimp only
    rw [heq]
    split <;> exact .same rfl
  | @responded i t outcome _ _ =>
    obtain ⟨turns, trace, heq⟩ := afterRespond_eq (s := s) i t outcome
    rw [heq]
    exact .same rfl
  | @notified i t reply agentMeta outcome store hf hphase =>
    unfold afterNotify
    cases hauto : autoPauseUntil s t store with
    | none => exact .same rfl
    | some until_ =>
      refine .set ⟨t.tenant.id, t.buyerId, until_⟩ ?_ rfl
      simp [setsPause, hf, hphase, hauto]
  | @sent i t reply agentMeta outcome _ _ =>
    obtain ⟨turns, heq⟩ := afterSend_eq (s := s) i t reply agentMeta outcome
    rw [heq]
    exact .same rfl
  | @persisted i t reply vendorMessageId agentMeta at_ outcome draw _ _ =>
    cases outcome with
    | ok => exact .same rfl
    | error => exact .same rfl
  | @pause tenantId buyerId hours store =>
    cases store with
    | error message =>
      unfold pauseBot
      cases tenantForConv E tenantId buyerId <;> exact .same rfl
    | ok =>
      cases htenant : tenantForConv E tenantId buyerId with
      | none => exact .same (by simp [pauseBot, htenant])
      | some tenant =>
        by_cases hpos : hours ≤ 0
        · exact .same (by simp [pauseBot, htenant, hpos])
        · cases hadd : s.now.addHours hours with
          | none => exact .same (by simp [pauseBot, htenant, hpos, hadd])
          | some until_ =>
            refine .set ⟨tenant.id, buyerId, until_⟩ ?_ ?_
            · simp [setsPause, htenant, hpos, hadd]
            · simp [pauseBot, htenant, hpos, hadd, System.pauseUntil]
  | @resume tenantId buyerId =>
    unfold resumeBot
    split
    · exact .resumed rfl
    · exact .same rfl
  | @humanSend j tenantId buyerId text pauseHours =>
    obtain ⟨humans, heq⟩ := humanSendBegin_eq (E := E) (s := s) j tenantId buyerId text pauseHours
    rw [heq]
    exact .same rfl
  | @humanSent j human outcome store hf hsent =>
    unfold afterHumanSend
    cases huntil : humanPauseUntil s human store with
    | none => exact .same rfl
    | some until_ =>
      refine .set ⟨human.tenantId, human.buyerId, until_⟩ ?_ rfl
      simp [setsPause, hf, hsent, huntil]
  | @humanPersisted j human agentMeta outcome _ _ =>
    cases outcome with
    | ok => exact .same rfl
    | error => exact .same rfl

/-- A pair that is not paused stays so unless the step pauses it. -/
theorem unpaused_of_step {E : Setting} {s s' : System} {l : Label} (h : step E s l = some s')
    {tenantId buyerId : String}
    (hne : ∀ p, setsPause E s l = some p → (p.tenantId, p.buyerId) ≠ (tenantId, buyerId))
    (hnot : s.pauses.isPaused tenantId buyerId s.now = false) :
    s'.pauses.isPaused tenantId buyerId s'.now = false := by
  have hlater := Pauses.isPaused_mono (change_of_step h).now_le hnot
  cases pauses_of_step h with
  | set pause sets pauses =>
    rw [pauses, Pauses.isPaused_pause_ne (hne _ sets)]
    exact hlater
  | resumed pauses =>
    rw [pauses]
    exact Pauses.isPaused_resume _ _ hlater
  | same pauses =>
    rw [pauses]
    exact hlater

/-! ## The invariant -/

/-- What a run keeps whose steps heed the committed turns. -/
structure Quiet (s : System) : Prop where
  silent : Silent s
  committed : ∀ i t, s.turns.get? i = some t → t.Committed →
    s.pauses.isPaused t.tenant.id t.buyerId s.now = false

theorem Quiet.init (now : Datetime) : Quiet (System.init now) where
  silent _ _ _ _ _ h := by cases h
  committed _ _ h := by cases h

section Step

variable {E : Setting} {s s' : System} {l : Label} {i : Nat} {t : Turn} {next : Option Phase}
  {es : List Effect}

/-- A turn past the notifier that sets no pause of its own is not paused. -/
theorem Quiet.unpaused_of_notified (hQ : Quiet s) {outcome store : Except String Unit}
    (hheeds : Heeds E s (.notified i outcome store))
    (hstore : StoreAnswers (.notified i outcome store)) (hf : s.turns.get? i = some t)
    {reply : String} {agentMeta : Dict String String}
    (hphase : t.phase = .notifying reply agentMeta) (hauto : autoPauseUntil s t store = none) :
    s.pauses.isPaused t.tenant.id t.buyerId s.now = false := by
  cases hhours : t.autoPauseHours with
  | none =>
    refine hQ.committed i t hf ?_
    rw [Turn.Committed, hphase]
    exact hhours
  | some hours =>
    have hok : store = .ok () := hstore
    refine hheeds.2 t hf hours hhours ?_
    simpa only [hok, autoPauseUntil, hhours] using hauto

/-- A turn that sends under a pause has set it. -/
theorem Quiet.own_of_goes (hQ : Quiet s) (hheeds : Heeds E s l) (hstore : StoreAnswers l)
    (hgoes : Goes s i t l next es) (hf : s.turns.get? i = some t)
    {tenantId messageId toNumber text : String} {own : Bool}
    (hmem : .sendText tenantId messageId toNumber text true own ∈ es) : own = true := by
  cases hgoes with
  | remembered => cases mem_stored hmem
  | persisted => cases mem_stored hmem
  | handedOff => cases hmem
  | sent => cases hmem
  | autoPaused => exact (Effect.sendText.inj (List.mem_singleton.mp hmem)).2.2.2.2.2
  | answered phase =>
    have hnot := hQ.committed i t hf (by rw [Turn.Committed, phase]; trivial)
    have heq := List.mem_singleton.mp hmem
    rw [sendOf, hnot] at heq
    cases heq
  | notified phase unpaused =>
    have hnot := hQ.unpaused_of_notified hheeds hstore hf phase unpaused
    have heq := List.mem_singleton.mp hmem
    rw [sendOf, hnot] at heq
    cases heq

/-- The step leaves a committed turn unpaused. -/
theorem Quiet.stays (hQ : Quiet s) (hheeds : Heeds E s l) (hstep : step E s l = some s')
    (hf : s.turns.get? i = some t) (ht : t.Committed) :
    s'.pauses.isPaused t.tenant.id t.buyerId s'.now = false :=
  unpaused_of_step hstep (fun p hp => hheeds.1 p hp t (Dict.mem_values_iff.mpr ⟨i, hf⟩) ht)
    (hQ.committed i t hf ht)

/-- A turn that becomes committed is unpaused when it does. -/
theorem Quiet.of_goes (hQ : Quiet s) (hheeds : Heeds E s l) (hstore : StoreAnswers l)
    (hstep : step E s l = some s') (hgoes : Goes s i t l next es) (hf : s.turns.get? i = some t)
    {phase : Phase} (hnext : next = some phase) (ht : Turn.Committed { t with phase }) :
    s'.pauses.isPaused t.tenant.id t.buyerId s'.now = false := by
  cases hgoes with
  | remembered at_ =>
    have hok : _ = Except.ok () := hstore
    split at hnext
    · cases hnext
    next hcheck =>
      rw [hok, Bool.not_eq_true] at hcheck
      exact unpaused_of_step hstep (fun p hp => by cases hp) hcheck
  | handedOff at_ => exact hQ.stays hheeds hstep hf (by rw [Turn.Committed, at_]; trivial)
  | persisted => cases hnext
  | answered | notified | autoPaused | sent =>
    cases hnext
    exact ht.elim

/-- **The step lemma.** A step that heeds the committed turns keeps the bot silent.

A turn that has passed the check of the pause is committed to its reply, whatever happens then; what
`Heeds` asks of a step is about these turns. -/
theorem Quiet.step (hQ : Quiet s) (hheeds : Heeds E s l) (hstore : StoreAnswers l)
    (hstep : step E s l = some s') : Quiet s' := by
  cases change_of_step hstep with
  | none turns trace =>
    refine ⟨fun a b c d own hmem => hQ.silent a b c d own (trace ▸ hmem), fun i t hf ht => ?_⟩
    exact hQ.stays hheeds hstep (turns ▸ hf) ht
  | delivered _ _ turns trace =>
    refine ⟨fun a b c d own hmem => hQ.silent a b c d own (trace ▸ hmem), fun j t hf ht => ?_⟩
    rw [turns] at hf
    rcases Dict.get?_set_eq_some hf with ⟨-, rfl⟩ | ⟨-, hold⟩
    · exact ht.elim
    · exact hQ.stays hheeds hstep hold ht
  | @moved i t next es goes moves =>
    refine ⟨fun a b c d own hmem => ?_, fun j u hf hu => ?_⟩
    · rw [moves.trace, List.mem_append] at hmem
      rcases hmem with hmem | hmem
      · exact hQ.silent a b c d own hmem
      · exact hQ.own_of_goes hheeds hstore goes moves.found hmem
    · rw [moves.turns] at hf
      rcases get?_turnsAfter hf with ⟨-, phase, hnext, rfl⟩ | ⟨-, hold⟩
      · exact hQ.of_goes hheeds hstore hstep goes moves.found hnext hu (t := t)
      · exact hQ.stays hheeds hstep hold hu

end Step

/-- **A paused bot stays silent.** In a run from the start whose pause store does not fail and whose
steps pause no buyer with a committed turn, no state has the bot send to a paused buyer, save in the
very turn that set the pause. The converse fails: a pause set under a committed turn may be lifted
again before that turn sends. -/
theorem silent_of_heeds (E : Setting) (now : Datetime) (ls : List Label)
    (hstore : EachStep (step E) (fun _ l => StoreAnswers l) (System.init now) ls)
    (hheeds : EachStep (step E) (Heeds E) (System.init now) ls) :
    EachState (step E) Silent (System.init now) ls := by
  have hboth := hstore.and hheeds
  exact (eachState_of_guarded (fun _ _ _ hQ hC hstep => hQ.step hC.2 hC.1 hstep) (Quiet.init now)
    hboth).mono fun _ hQ => hQ.silent

section Takeover

private def kiosk : Tenant := { id := "acme", name := "Acme", slug := "acme", createdAt := 0 }

private def kioskSetting : Setting where
  U := Unicode.ascii
  tenants := Dict.empty.set "acme" kiosk
  maxItems := 50

private def asked (messageId : String) : InboundMessage where
  tenantId := "acme"
  fromNumber := "5491100"
  text := "hola"
  messageId := messageId
  receivedAt := 0

/-- A message up to the question to the agent. -/
private def awaiting (i : Nat) (messageId : String) : List Label :=
  [.deliver i kiosk (asked messageId),
    .remembered i (.ok ()) (.ok ()) ⟨0, "c", 0, 0⟩ ⟨0, "a", 0, 0⟩]

private def answer (i : Nat) : Label :=
  .responded i (.ok { reply := "¡Hola!", model := "gpt-4o-mini" })

private def takeover : Label := .pause "acme" "acme:5491100" 8 (.ok ())

/-- A human takes over between two messages. -/
theorem silent_of_heeds_takeover :
    EachState (step kioskSetting) Silent (System.init 0)
      (awaiting 0 "wamid.1" ++ [answer 0, takeover] ++ awaiting 1 "wamid.2") :=
  silent_of_heeds kioskSetting 0 _ (by decide) (by decide)

/-- A human takes over while the agent thinks, and the bot answers all the same. -/
theorem not_silent : ¬ ∀ (E : Setting) (now : Datetime) (ls : List Label),
    EachStep (step E) (fun _ l => StoreAnswers l) (System.init now) ls →
      EachState (step E) Silent (System.init now) ls := by
  intro h
  have hstates := h kioskSetting 0 (awaiting 0 "wamid.1" ++ [takeover, answer 0]) (by decide)
  have hrun : ((run (step kioskSetting) (System.init 0)
      (awaiting 0 "wamid.1" ++ [takeover, answer 0])).map fun s => decide
        (.sendText "acme" "wamid.1" "5491100" "¡Hola!" true false ∈ s.trace)) = some true := by
    decide
  obtain ⟨s, hs, hsent⟩ := Option.map_eq_some_iff.mp hrun
  have hown := hstates.last hs _ _ _ _ _ (of_decide_eq_true hsent)
  exact absurd hown (by decide)

end Takeover

end Wapsell.Api
