import Wapsell.Api.Turns

/-!
# Redelivered messages

Meta may deliver a message again. Nothing on the way from the webhook to
the gateway looks whether the message was there before, so what a message
causes at most once it causes so because it is delivered once. The
invariant ranks the phases by what is still to come: a turn in flight has
caused nothing of the kinds its phase has before it.

The condition is on the deliveries because nothing else can help: the
first half of the module shows that a turn by itself causes each kind at
most once, whatever its services answer, so a second effect needs a
second turn, and a second turn of the same message needs a second
delivery.

**What this does not establish.** That Meta delivers once; it promises
the opposite. Two different messages with one text are two messages.
-/

namespace Wapsell.Api

open Lib Py Agent

/-- The kinds of effect. -/
inductive EffectKind
  | buyerTurn
  | sendText
  | agentTurn
  deriving DecidableEq, Repr

/-- The order the kinds come in. -/
def EffectKind.rank : EffectKind → Nat
  | .buyerTurn => 0
  | .sendText => 1
  | .agentTurn => 2

namespace Effect

def kind : Effect → EffectKind
  | .buyerTurn .. => .buyerTurn
  | .sendText .. => .sendText
  | .agentTurn .. => .agentTurn

/-- The message that caused it: its tenant and its id. -/
def key : Effect → String × String
  | .buyerTurn tenantId messageId => (tenantId, messageId)
  | .sendText tenantId messageId .. => (tenantId, messageId)
  | .agentTurn tenantId messageId => (tenantId, messageId)

end Effect

/-- The rank of the next kind the phase leads to. -/
def Phase.rank : Phase → Nat
  | .remembering _ => 0
  | .responding | .notifying .. => 1
  | .sending .. | .persisting .. => 2

def Turn.key (t : Turn) : String × String := (t.tenant.id, t.msg.messageId)

/-- How often a message caused a kind of effect. -/
def caused (s : System) (kind : EffectKind) (key : String × String) : Nat :=
  s.trace.countP fun e => e.kind = kind ∧ e.key = key

/-- Every message of a tenant caused at most one buyer turn, one send and one agent turn. A message
is told apart by its tenant and its id, the two by which Meta's redelivery could be recognised. -/
def AtMostOnce (s : System) : Prop :=
  ∀ kind tenantId messageId, caused s kind (tenantId, messageId) ≤ 1

/-- The message is not delivered again. -/
def FirstDelivery (s : System) : Label → Prop
  | .deliver _ tenant msg => (tenant.id, msg.messageId) ∉ s.delivered
  | _ => True

instance (s : System) : ∀ l, Decidable (FirstDelivery s l)
  | .deliver _ tenant msg => inferInstanceAs (Decidable ((tenant.id, msg.messageId) ∉ s.delivered))
  | .tick _ | .remembered .. | .responded .. | .notified .. | .sent .. | .persisted .. | .pause ..
  | .resume .. | .humanSend .. | .humanSent .. | .humanPersisted .. => .isTrue trivial

/-! ## What one turn causes -/

section Goes

variable {s : System} {i : Nat} {t : Turn} {l : Label} {next : Option Phase} {es : List Effect}

theorem length_stored_le (e : Effect) (outcome : Except String Unit) :
    (stored e outcome).length ≤ 1 := by
  cases outcome
  · exact Nat.zero_le 1
  · exact Nat.le_refl 1

/-- What a turn causes in one step is of its message and of the kind its phase has before it. -/
theorem Goes.emits (h : Goes s i t l next es) {e : Effect} (he : e ∈ es) :
    e.key = t.key ∧ e.kind.rank = t.phase.rank := by
  cases h with
  | remembered phase =>
    rw [mem_stored he, phase]
    exact ⟨rfl, rfl⟩
  | answered phase =>
    rw [List.mem_singleton.mp he, phase]
    exact ⟨rfl, rfl⟩
  | handedOff => cases he
  | notified phase =>
    rw [List.mem_singleton.mp he, phase]
    exact ⟨rfl, rfl⟩
  | autoPaused phase =>
    rw [List.mem_singleton.mp he, phase]
    exact ⟨rfl, rfl⟩
  | sent => cases he
  | persisted phase =>
    rw [mem_stored he, phase]
    exact ⟨rfl, rfl⟩

theorem Goes.length_le (h : Goes s i t l next es) : es.length ≤ 1 := by
  cases h with
  | remembered => exact length_stored_le _ _
  | persisted => exact length_stored_le _ _
  | answered => exact Nat.le_refl 1
  | notified => exact Nat.le_refl 1
  | autoPaused => exact Nat.le_refl 1
  | handedOff => exact Nat.zero_le 1
  | sent => exact Nat.zero_le 1

/-- A turn that causes something has left the kind behind it. -/
theorem Goes.advance (h : Goes s i t l next es) {phase : Phase} (hnext : next = some phase) :
    t.phase.rank + es.length ≤ phase.rank := by
  cases h with
  | remembered at_ =>
    split at hnext
    · cases hnext
    · cases hnext
      rw [at_]
      exact (Nat.zero_add _).le.trans (length_stored_le _ _)
  | persisted => cases hnext
  | answered at_ | handedOff at_ | notified at_ | autoPaused at_ | sent at_ =>
    cases hnext
    rw [at_]
    exact Nat.le_refl _

end Goes

/-! ## The invariant -/

/-- What a run without redelivery keeps. The last field is the one the step lemma needs: with the
effects ranked by their place in a turn, a turn in flight has caused nothing that is still before
it. -/
structure Once (s : System) : Prop where
  atMostOnce : AtMostOnce s
  /-- What was not delivered caused nothing. -/
  fresh : ∀ kind key, key ∉ s.delivered → caused s kind key = 0
  known : ∀ i t, s.turns.get? i = some t → t.key ∈ s.delivered
  /-- A message is in flight once. -/
  alone : ∀ i j t u, s.turns.get? i = some t → s.turns.get? j = some u → t.key = u.key → i = j
  /-- A turn caused nothing of the kinds it has before it. -/
  ahead : ∀ i t kind, s.turns.get? i = some t → t.phase.rank ≤ kind.rank → caused s kind t.key = 0

theorem Once.init (now : Datetime) : Once (System.init now) where
  atMostOnce _ _ _ := Nat.zero_le 1
  fresh _ _ _ := rfl
  known _ _ h := by cases h
  alone _ _ _ _ h := by cases h
  ahead _ _ _ h := by cases h

theorem caused_of_trace {s s' : System} {es : List Effect} (h : s'.trace = s.trace ++ es)
    (kind : EffectKind) (key : String × String) :
    caused s' kind key = caused s kind key + es.countP fun e => e.kind = kind ∧ e.key = key := by
  rw [caused, h, List.countP_append]
  rfl

section Moves

variable {s s' : System} {l : Label} {i : Nat} {t : Turn} {next : Option Phase} {es : List Effect}

/-- A turn causes nothing of another message, and nothing of another rank. -/
theorem countP_emits_eq_zero (hgoes : Goes s i t l next es) {kind : EffectKind}
    {key : String × String} (h : key = t.key → es ≠ [] → kind.rank ≠ t.phase.rank) :
    es.countP (fun e => e.kind = kind ∧ e.key = key) = 0 := by
  rw [List.countP_eq_zero]
  intro e he hboth
  simp only [decide_eq_true_eq] at hboth
  obtain ⟨rfl, rfl⟩ := hboth
  obtain ⟨hkey, hrank⟩ := hgoes.emits he
  exact h hkey (List.ne_nil_of_mem he) hrank

theorem Once.moved (hO : Once s) (hgoes : Goes s i t l next es) (hm : Moves s s' i t next es) :
    Once s' where
  atMostOnce kind tenantId messageId := by
    rw [caused_of_trace hm.trace]
    by_cases hown : (tenantId, messageId) = t.key ∧ kind.rank = t.phase.rank
    · rw [hown.1, hO.ahead i t kind hm.found hown.2.ge, Nat.zero_add]
      exact List.countP_le_length.trans hgoes.length_le
    · rw [countP_emits_eq_zero hgoes fun hkey _ hrank => hown ⟨hkey, hrank⟩]
      exact hO.atMostOnce kind tenantId messageId
  fresh kind key hkey := by
    rw [hm.delivered] at hkey
    rw [caused_of_trace hm.trace, hO.fresh kind key hkey]
    refine (Nat.zero_add _).trans (countP_emits_eq_zero hgoes fun heq => ?_)
    exact absurd (heq ▸ hO.known i t hm.found) hkey
  known j u hu := by
    rw [hm.delivered]
    rw [hm.turns] at hu
    rcases get?_turnsAfter hu with ⟨-, phase, -, rfl⟩ | ⟨-, hold⟩
    · exact hO.known i t hm.found
    · exact hO.known j u hold
  alone j k u v hu hv hkey := by
    rw [hm.turns] at hu hv
    rcases get?_turnsAfter hu with ⟨hj, phase, -, rfl⟩ | ⟨-, hu'⟩ <;>
      rcases get?_turnsAfter hv with ⟨hk, phase', -, rfl⟩ | ⟨-, hv'⟩
    · exact hj.trans hk.symm
    · exact hj ▸ hO.alone i k t v hm.found hv' hkey
    · exact hk ▸ hO.alone j i u t hu' hm.found hkey
    · exact hO.alone j k u v hu' hv' hkey
  ahead j u kind hu hrank := by
    rw [hm.turns] at hu
    rw [caused_of_trace hm.trace]
    rcases get?_turnsAfter hu with ⟨rfl, phase, hnext, rfl⟩ | ⟨hj, hu⟩
    · have hadvance := (hgoes.advance hnext).trans hrank
      rw [show caused s kind (Turn.key { t with phase }) = 0 from
        hO.ahead j t kind hm.found (Nat.le_of_add_right_le hadvance), Nat.zero_add]
      refine countP_emits_eq_zero hgoes fun _ hes heq => ?_
      have hlen := List.length_pos_iff.mpr hes
      omega
    · rw [hO.ahead j u kind hu hrank, Nat.zero_add]
      exact countP_emits_eq_zero hgoes fun hkey => absurd (hO.alone j i u t hu hm.found hkey) hj

end Moves

/-- A first delivery puts a message in flight that nothing is known of. -/
theorem Once.delivered {s s' : System} {i : Nat} {tenant : Tenant} {msg : InboundMessage}
    (hO : Once s) (hfirst : (tenant.id, msg.messageId) ∉ s.delivered)
    (hturns : s'.turns = s.turns.set i { tenant, msg, phase := .remembering s.now })
    (htrace : s'.trace = s.trace)
    (hdelivered : s'.delivered = s.delivered ++ [(tenant.id, msg.messageId)]) : Once s' := by
  have hcaused : ∀ kind key, caused s' kind key = caused s kind key := by
    intro kind key
    rw [caused, htrace]
    rfl
  have hget : ∀ {j u}, s'.turns.get? j = some u →
      (j = i ∧ u = { tenant, msg, phase := .remembering s.now }) ∨
        s.turns.get? j = some u := by
    intro j u hu
    rw [hturns] at hu
    rcases Dict.get?_set_eq_some hu with ⟨hij, hnew⟩ | ⟨-, hold⟩
    · exact .inl ⟨hij.symm, hnew.symm⟩
    · exact .inr hold
  refine ⟨fun kind a b => ?_, fun kind key hkey => ?_, fun j u hu => ?_,
    fun j k u v hu hv hkey => ?_, fun j u kind hu hrank => ?_⟩
  · rw [hcaused]
    exact hO.atMostOnce kind a b
  · rw [hdelivered, List.mem_append, not_or] at hkey
    rw [hcaused]
    exact hO.fresh kind key hkey.1
  · rw [hdelivered]
    rcases hget hu with ⟨-, rfl⟩ | hold
    · exact List.mem_append_right _ (List.mem_singleton_self _)
    · exact List.mem_append_left _ (hO.known j u hold)
  · rcases hget hu with ⟨hj, rfl⟩ | hu' <;> rcases hget hv with ⟨hk, rfl⟩ | hv'
    · exact hj.trans hk.symm
    · have hmem := hO.known k v hv'
      rw [← hkey] at hmem
      exact absurd hmem hfirst
    · have hmem := hO.known j u hu'
      rw [hkey] at hmem
      exact absurd hmem hfirst
    · exact hO.alone j k u v hu' hv' hkey
  · rw [hcaused]
    rcases hget hu with ⟨-, rfl⟩ | hold
    · exact hO.fresh kind _ hfirst
    · exact hO.ahead j u kind hold hrank

/-- **The step lemma.** A step that delivers no message again keeps the invariant.

A message that is marked stays marked, and a turn that has sent its reply does not send it again. -/
theorem Once.step {E : Setting} {s s' : System} {l : Label} (hO : Once s)
    (hfirst : FirstDelivery s l) (hstep : step E s l = some s') : Once s' := by
  cases change_of_step hstep with
  | none hturns htrace hdelivered _ =>
    exact ⟨fun kind a b => by rw [caused, htrace]; exact hO.atMostOnce kind a b,
      fun kind key hkey => by rw [caused, htrace]; exact hO.fresh kind key (hdelivered ▸ hkey),
      fun i t ht => hdelivered ▸ hO.known i t (hturns ▸ ht),
      fun i j t u ht hu => hO.alone i j t u (hturns ▸ ht) (hturns ▸ hu),
      fun i t kind ht hrank => by rw [caused, htrace]; exact hO.ahead i t kind (hturns ▸ ht) hrank⟩
  | delivered label free turns trace delivered _ =>
    subst label
    exact hO.delivered hfirst turns trace delivered
  | moved goes moves => exact hO.moved goes moves

/-- **At most one reply.** In a run from the start that delivers no message of a tenant twice,
whatever else happens in between, every message has in every state caused at most one buyer turn,
one send and one agent turn. Human sends, pauses and failures of every service are among what
happens. -/
theorem at_most_once_of_first_deliveries (E : Setting) (now : Datetime) (ls : List Label)
    (hfirst : EachStep (step E) FirstDelivery (System.init now) ls) :
    EachState (step E) AtMostOnce (System.init now) ls :=
  (eachState_of_guarded (fun _ _ _ hO hC hstep => hO.step hC hstep) (Once.init now) hfirst).mono
    fun _ hO => hO.atMostOnce

section Deliveries

private def shop : Tenant := { id := "acme", name := "Acme", slug := "acme", createdAt := 0 }

private def hello (messageId : String) : InboundMessage where
  tenantId := "acme"
  fromNumber := "5491100"
  text := "hola"
  messageId := messageId
  receivedAt := 0

/-- The turn of one message from the webhook to its end. -/
private def served (i : Nat) (messageId : String) : List Label :=
  [.deliver i shop (hello messageId), .remembered i (.ok ()) (.ok ()) ⟨0, "c", 0, 0⟩ ⟨0, "a", 0, 0⟩,
    .responded i (.ok { reply := "¡Hola!", model := "gpt-4o-mini" }), .sent i (.ok (some "wamid.o")),
    .persisted i (.ok ()) ⟨0, "o", 0, 0⟩]

private def setting : Setting := { U := Unicode.ascii, tenants := Dict.empty, maxItems := 50 }

/-- Two messages, one turn each. -/
theorem at_most_once_of_two_messages :
    EachState (step setting) AtMostOnce (System.init 0) (served 0 "wamid.1" ++ served 1 "wamid.2") :=
  at_most_once_of_first_deliveries setting 0 _ (by decide)

/-- One message twice: the buyer is answered twice, and both turns are stored twice. -/
theorem not_at_most_once : ¬ ∀ (E : Setting) (now : Datetime) (ls : List Label),
    EachState (step E) AtMostOnce (System.init now) ls := by
  intro h
  have hrun : ((run (step setting) (System.init 0) (served 0 "wamid.1" ++ served 1 "wamid.1")).map
      fun s => caused s .sendText ("acme", "wamid.1")) = some 2 := by
    decide
  obtain ⟨s, hs, htwo⟩ := Option.map_eq_some_iff.mp hrun
  have hone := (h setting 0 _).last hs .sendText "acme" "wamid.1"
  rw [htwo] at hone
  exact absurd hone (by decide)

end Deliveries

end Wapsell.Api
