import Wapsell.Api.ExtractorRuns
import Wapsell.Api.InboundTurn
import Wapsell.Api.Turns
import Wapsell.Crm.Counter
import Wapsell.Lib.Histogram

/-!
# The cadence of the extractor

A turn counts its message at its start, and decides at its end, several
awaits later, whether it schedules a run of the extractor: it does where
the counter it then reads is a multiple of the stride. In between other
messages of the buyer are counted, and other turns of his read the counter,
so a multiple may be read by several turns, or by none.

The increment and the read are two lines with awaits between them, so
the exact condition cannot be about the messages alone. It is about the
order in which turns are counted and end, and says no more than that at
each multiple exactly one turn ends.

Everything else the process does is in the run as well: other buyers,
other tenants, the runs that were dispatched, and the inbox. None of it
changes the buyer's counter, which is what the step lemma shows.

**What this does not establish.** A buyer who has a contact already
starts from its counter, and is left out here.
-/

namespace Wapsell.Api

open Lib Py Resources
open Crm (CONTACT_KIND contactExternalId contactOf turnsOf Counting)

/-! ## The decision -/

/-- Does `_maybe_dispatch_crm_extractor` schedule a run, where the store answers? With a stride of
at most one it does at every turn. -/
def warrantsRun (U : Unicode) (P : Dispatch) (contact : Option Resource) : Bool :=
  P.crmExtractor &&
    if 1 < crmExtractorTurnStride U P then
      match contact with
      | none => false
      | some contact => !offStride (crmExtractorTurnStride U P) contact
    else true

/-- A turn ends, and where it warrants a run, the run is task `j`: the process behind both, between
which nothing is awaited, and whether there was a run. -/
def endTurn (E : Setting) (P : Dispatch) (b : Background) (i : Nat) (outcome : Except String Unit)
    (draw : Crm.Draw) (j : Nat) : Option (Background × Bool) := do
  let t ← b.sys.turns.get? i
  let b ← backgroundStep E b (.inbound (.persisted i outcome draw))
  if warrantsRun E.U P (contactOf b.sys.resources t.tenant.id t.msg.fromNumber) then
    let b ← backgroundStep E b (.dispatched j t.tenant.id t.buyerId t.msg.fromNumber)
    some (b, true)
  else some (b, false)

/-! ## The messages of one buyer -/

/-- Is the turn one of the buyer's? -/
def Turn.isOf (t : Turn) (tenantId fromNumber : String) : Bool :=
  decide (tenantId = t.tenant.id ∧ fromNumber = t.msg.fromNumber)

/-- The process, and what is counted of one buyer in it: his messages that `record_inbound` has
counted, and for each that came to its end and for each run that one dispatched, how many were
counted then. -/
structure Cadence where
  process : Background
  recorded : Nat := 0
  ended : List Nat := []
  dispatched : List Nat := []

/-- One thing that can happen next. -/
inductive CadenceLabel
  | between (label : BackgroundLabel)
  | ended (i : Nat) (outcome : Except String Unit) (draw : Crm.Draw) (j : Nat)

/-- The labels of what is between the ends of the turns. No run is dispatched there, and the bot is
not paused where a message of the buyer comes to the check. -/
def goesOn (tenantId fromNumber : String) (s : System) : BackgroundLabel → Bool
  | .inbound (.persisted _ _ _) => false
  | .dispatched _ _ _ _ => false
  | .inbound (.remembered i _ check _ _) =>
    (s.turns.get? i).all fun t => !(t.isOf tenantId fromNumber && pauseCheck s t check)
  | _ => true

/-- The step function. -/
def cadenceStep (E : Setting) (P : Dispatch) (tenantId fromNumber : String) (c : Cadence) :
    CadenceLabel → Option Cadence
  | .between label =>
    if goesOn tenantId fromNumber c.process.sys label then
      (backgroundStep E c.process label).map fun process =>
        { c with
          process, recorded := c.recorded + recordCalls tenantId fromNumber c.process label }
    else none
  | .ended i outcome draw j => do
    let t ← c.process.sys.turns.get? i
    let (process, dispatches) ← endTurn E P c.process i outcome draw j
    if t.isOf tenantId fromNumber then
      some { c with
        process
        ended := c.ended ++ [c.recorded]
        dispatched := c.dispatched ++ if dispatches then [c.recorded] else [] }
    else some { c with process }

/-- One run for each multiple of the stride, as many as there are among the messages processed. -/
structure OnCadence (stride : Nat) (c : Cadence) : Prop where
  number : c.dispatched.length = c.ended.length / stride
  once : ∀ m, 0 < m → m ≤ c.ended.length → stride ∣ m → c.dispatched.count m = 1

/-! ## The decision is the dispatcher's -/

/-- Where the store answers, the dispatcher goes for a task exactly where the turn warrants a run. -/
theorem answers_maybeDispatchCrmExtractor_iff {U : Unicode} {P : Dispatch} {o : Outcomes}
    {contact : Option Resource} (hfind : o.findByExternalId = .ok contact)
    (tenantId bid fromNumber : String) :
    Answers (maybeDispatchCrmExtractor U P o tenantId bid fromNumber) fun _ calls =>
      .createTask tenantId bid fromNumber ∈ calls ↔ warrantsRun U P contact = true := by
  have hreturn : warrantsRun U P contact = false → ∀ calls : List TurnCall,
      .createTask tenantId bid fromNumber ∉ calls →
        (.createTask tenantId bid fromNumber ∈ calls ↔ warrantsRun U P contact = true) := by
    intro hno calls hcalls
    rw [hno]
    exact iff_of_false hcalls Bool.false_ne_true
  have hdispatch : warrantsRun U P contact = true → ∀ before : List TurnCall,
      Answers (logged (.createTask tenantId bid fromNumber) o.createTask) fun _ calls =>
        .createTask tenantId bid fromNumber ∈ before ++ calls ↔ warrantsRun U P contact = true := by
    intro hyes before
    refine (answers_logged _ _).mono ?_
    rintro _ _ rfl
    exact iff_of_true (List.mem_append_right _ (List.mem_singleton_self _)) hyes
  unfold maybeDispatchCrmExtractor
  cases hon : P.crmExtractor with
  | false =>
    apply answers_pure
    exact hreturn (by simp [warrantsRun, hon]) [] List.not_mem_nil
  | true =>
    rw [Bool.not_true, if_neg Bool.false_ne_true]
    by_cases hstride : 1 < crmExtractorTurnStride U P
    · simp only [if_pos hstride]
      refine (answers_try_attempt _ _ _).bind ?_
      rintro found _ ⟨rfl, hfound⟩
      rw [hfind] at hfound
      obtain rfl : contact = found := by
        rcases hfound with heq | ⟨⟨e, he⟩, -⟩
        · exact Except.ok.inj heq
        · cases he
      cases contact with
      | none =>
        apply answers_pure
        exact hreturn (by simp [warrantsRun, hstride]) _ (by simp)
      | some contact =>
        simp only
        cases hoff : offStride (crmExtractorTurnStride U P) contact with
        | true =>
          apply answers_pure
          exact hreturn (by simp [warrantsRun, hstride, hoff]) _ (by simp)
        | false => exact hdispatch (by simp [warrantsRun, hon, hoff]) _
    · simp only [if_neg hstride]
      exact hdispatch (by simp [warrantsRun, hon, hstride]) []

/-- The decision over a counter that is a number. -/
theorem warrantsRun_iff {U : Unicode} {P : Dispatch} (hon : P.crmExtractor = true) {stride : Nat}
    (hstride : crmExtractorTurnStride U P = stride) (hmany : 1 < stride) {contact : Resource} {n : Nat}
    (hpos : 0 < n) (hcount : contact.data.get? "turn_count" = some (.int n)) :
    warrantsRun U P (some contact) = decide (stride ∣ n) := by
  have hone : (1 : Int) < stride := by omega
  have hoff : offStride stride contact = decide (¬ stride ∣ n) := by
    unfold offStride
    rw [hcount]
    apply decide_eq_decide.mpr
    rw [and_iff_right (by omega), ne_eq, ← Int.dvd_iff_emod_eq_zero, Int.natCast_dvd_natCast]
  rw [warrantsRun, hon, Bool.true_and, hstride, if_pos hone]
  simp only [hoff, decide_not, Bool.not_not]

/-! ## The turns in flight -/

/-- A message of the buyer that is counted, and whose turn goes on. -/
def Turn.counted (tenantId fromNumber : String) (t : Turn) : Bool :=
  t.isOf tenantId fromNumber &&
    match t.phase with
    | .remembering _ => false
    | _ => true

/-- The buyer's messages that are counted and in flight. -/
def inFlight (tenantId fromNumber : String) (s : System) : Nat :=
  s.turns.values.countP (Turn.counted tenantId fromNumber)

theorem weight_isOf (t : Turn) (tenantId fromNumber : String) :
    Crm.weight t.tenant.id t.msg.fromNumber tenantId fromNumber =
      (t.isOf tenantId fromNumber).toNat := by
  unfold Crm.weight Turn.isOf
  split <;> simp [*]

/-- A turn that goes on leaves the others in flight. -/
theorem countP_turnsAfter {s : System} {i : Nat} {t : Turn} (hf : s.turns.get? i = some t)
    (p : Turn → Bool) (next : Option Phase) :
    (turnsAfter s i t next).values.countP p + (p t).toNat =
      s.turns.values.countP p + (next.elim 0 fun phase => (p { t with phase }).toNat) := by
  have hcount : ∀ (u : Turn) (l : List Turn), (u :: l).countP p = l.countP p + (p u).toNat := by
    intro u l
    rw [List.countP_cons]
    cases p u <;> rfl
  rw [(Dict.values_perm_erase hf).countP_eq, hcount]
  cases next with
  | none => rfl
  | some phase =>
    rw [show turnsAfter s i t (some phase) = s.turns.set i { t with phase } from rfl,
      (Dict.values_perm_set s.turns i _).countP_eq, hcount, Option.elim_some]
    omega

section Steps

variable {E : Setting} {tenantId fromNumber : String}

theorem counting_resourcesAfter {s : System} (h : Counting tenantId fromNumber s.resources)
    (l : Label) : Counting tenantId fromNumber (resourcesAfter E s l) := by
  cases l with
  | remembered i outcome check contactDraw activityDraw =>
    simp only [resourcesAfter]
    cases s.turns.get? i with
    | none => exact h
    | some t => exact h.recordedInbound _ _ _ _ _ _ _ _
  | persisted i outcome draw =>
    simp only [resourcesAfter]
    cases s.turns.get? i with
    | none => exact h
    | some t =>
      simp only
      split
      · exact h.recordOutbound _ _ _ _ _ _ _
      · exact h
  | _ => exact h

theorem counting_backgroundStep {b b' : Background} {l : BackgroundLabel} (hI : b.Inv)
    (h : Counting tenantId fromNumber b.sys.resources) (hstep : backgroundStep E b l = some b') :
    Counting tenantId fromNumber b'.sys.resources := by
  cases backgroundChange_of_step hstep with
  | inbound taken fresh sys runs =>
    rw [step_resources sys]
    exact counting_resourcesAfter h _
  | waited other sys runs =>
    rw [sys]
    exact h
  | applied other run looked fresh sys runs =>
    rw [sys]
    exact h.applied hI.rowIds fresh

/-- A turn that neither starts to count nor ends is in flight as it was. -/
theorem inFlight_step {s s' : System} {l : Label} (hs : step E s l = some s')
    (hcounts : ∀ i outcome check contactDraw activityDraw,
      l ≠ .remembered i outcome check contactDraw activityDraw)
    (hends : ∀ i outcome draw, l ≠ .persisted i outcome draw) :
    inFlight tenantId fromNumber s' = inFlight tenantId fromNumber s := by
  unfold inFlight
  cases change_of_step hs with
  | none turns => rw [turns]
  | delivered label free turns =>
    rw [turns, Dict.values_set_of_none _ free, List.countP_append, List.countP_singleton]
    simp [Turn.counted]
  | @moved i t next es goes moves =>
    have hmoved := countP_turnsAfter moves.found (Turn.counted tenantId fromNumber) next
    rw [← moves.turns] at hmoved
    have hsame : (next.elim 0 fun phase =>
        (Turn.counted tenantId fromNumber { t with phase }).toNat) =
          (Turn.counted tenantId fromNumber t).toNat := by
      cases goes with
      | remembered => exact absurd rfl (hcounts _ _ _ _ _)
      | persisted => exact absurd rfl (hends _ _ _)
      | answered hphase => simp [Turn.counted, Turn.isOf, hphase]
      | handedOff hphase => simp [Turn.counted, Turn.isOf, hphase]
      | notified hphase => simp [Turn.counted, Turn.isOf, hphase]
      | autoPaused hphase => simp [Turn.counted, Turn.isOf, hphase]
      | sent hphase => simp [Turn.counted, Turn.isOf, hphase]
    rw [hsame] at hmoved
    exact Nat.add_right_cancel hmoved

/-- A message of the buyer that is remembered is in flight, unless it finds the bot paused. -/
theorem inFlight_remembered {s s' : System} {i : Nat} {outcome : Except String Unit}
    {check : Except String Unit} {contactDraw activityDraw : Crm.Draw}
    (hs : step E s (.remembered i outcome check contactDraw activityDraw) = some s') {t : Turn}
    (hf : s.turns.get? i = some t)
    (hgoes : (t.isOf tenantId fromNumber && pauseCheck s t check) = false) :
    inFlight tenantId fromNumber s' =
      inFlight tenantId fromNumber s + (t.isOf tenantId fromNumber).toNat := by
  obtain ⟨t', ht', hs⟩ := Option.bind_eq_some_iff.mp hs
  cases hf.symm.trans ht'
  cases hphase : t.phase with
  | remembering at_ =>
    rw [hphase] at hs
    have moves := afterRemember_moves (E := E) hf at_ outcome check contactDraw activityDraw
    rw [Option.some.inj hs] at moves
    have hmoved := countP_turnsAfter hf (Turn.counted tenantId fromNumber)
      (if pauseCheck s t check then none else some .responding)
    have hbefore : Turn.counted tenantId fromNumber t = false := by
      simp [Turn.counted, hphase]
    rw [← moves.turns, hbefore] at hmoved
    refine hmoved.trans (congrArg _ ?_)
    cases hown : t.isOf tenantId fromNumber with
    | true =>
      rw [hown, Bool.true_and] at hgoes
      simp only [hgoes, Bool.false_eq_true, if_false, Option.elim_some, Turn.counted]
      rw [show Turn.isOf { t with phase := .responding } tenantId fromNumber = true from hown]
      rfl
    | false =>
      have hnone : Turn.counted tenantId fromNumber { t with phase := .responding } = false := by
        rw [Turn.counted]
        exact Bool.and_eq_false_imp.mpr fun h => absurd (hown.symm.trans h) Bool.false_ne_true
      split
      · rfl
      · rw [Option.elim_some, hnone]
  | _ =>
    rw [hphase] at hs
    cases hs

/-- A turn that ends was counted, and is in flight no more. -/
theorem inFlight_persisted {s s' : System} {i : Nat} {outcome : Except String Unit}
    {draw : Crm.Draw} (hs : step E s (.persisted i outcome draw) = some s') {t : Turn}
    (ht : s.turns.get? i = some t) :
    inFlight tenantId fromNumber s' + (t.isOf tenantId fromNumber).toNat =
      inFlight tenantId fromNumber s := by
  obtain ⟨t', ht', hs⟩ := Option.bind_eq_some_iff.mp hs
  cases ht.symm.trans ht'
  cases hphase : t.phase with
  | persisting reply vendorMessageId agentMeta at_ =>
    rw [hphase] at hs
    have moves := afterPersist_moves (E := E) ht reply vendorMessageId agentMeta at_ outcome draw
    rw [Option.some.inj hs] at moves
    have hmoved := countP_turnsAfter ht (Turn.counted tenantId fromNumber) none
    have hcounted : Turn.counted tenantId fromNumber t = t.isOf tenantId fromNumber := by
      simp [Turn.counted, hphase]
    rw [← moves.turns, hcounted] at hmoved
    exact hmoved
  | _ =>
    rw [hphase] at hs
    cases hs

/-- Between the ends of the turns, a message of the buyer is in flight from where it is counted. -/
theorem inFlight_backgroundStep {b b' : Background} {l : BackgroundLabel}
    (hgoes : goesOn tenantId fromNumber b.sys l = true) (hstep : backgroundStep E b l = some b') :
    inFlight tenantId fromNumber b'.sys =
      inFlight tenantId fromNumber b.sys + recordCalls tenantId fromNumber b l := by
  cases backgroundChange_of_step hstep with
  | @inbound label taken fresh sys runs =>
    subst taken
    cases label with
    | remembered i outcome check contactDraw activityDraw =>
      obtain ⟨t, hf, -⟩ := Option.bind_eq_some_iff.mp sys
      simp only [goesOn, hf, Option.all_some, Bool.not_eq_true'] at hgoes
      simp only [recordCalls, hf, weight_isOf]
      exact inFlight_remembered sys hf hgoes
    | persisted i outcome draw => cases hgoes
    | _ =>
      rw [inFlight_step sys (fun _ _ _ _ _ hl => by cases hl) (fun _ _ _ hl => by cases hl)]
      rfl
  | waited other sys runs => rw [sys, recordCalls_eq_zero other, Nat.add_zero]
  | applied other run looked fresh sys runs =>
    rw [sys, recordCalls_eq_zero other, Nat.add_zero]
    rfl

/-- The end of a turn. -/
theorem endTurn_spec {P : Dispatch} {b b' : Background} {i j : Nat} {outcome : Except String Unit}
    {draw : Crm.Draw} {dispatches : Bool} (hI : b.Inv)
    (h : endTurn E P b i outcome draw j = some (b', dispatches)) {t : Turn}
    (ht : b.sys.turns.get? i = some t) :
    b'.Inv ∧ ∃ b₁, backgroundStep E b (.inbound (.persisted i outcome draw)) = some b₁ ∧
      b'.sys = b₁.sys ∧
        dispatches = warrantsRun E.U P (contactOf b'.sys.resources t.tenant.id t.msg.fromNumber) := by
  unfold endTurn at h
  obtain ⟨t', ht', h⟩ := Option.bind_eq_some_iff.mp h
  cases ht.symm.trans ht'
  obtain ⟨b₁, hb₁, h⟩ := Option.bind_eq_some_iff.mp h
  have hI₁ := (backgroundStep_spec hI hb₁).1
  cases hrun : warrantsRun E.U P (contactOf b₁.sys.resources t.tenant.id t.msg.fromNumber) with
  | true =>
    rw [if_pos hrun] at h
    obtain ⟨b₂, hb₂, h⟩ := Option.bind_eq_some_iff.mp h
    cases h
    have hsys : b'.sys = b₁.sys := by
      simp only [backgroundStep] at hb₂
      split at hb₂
      · cases hb₂
      · cases hb₂
        rfl
    refine ⟨(backgroundStep_spec hI₁ hb₂).1, b₁, hb₁, hsys, ?_⟩
    rw [hsys, hrun]
  | false =>
    rw [if_neg (by rw [hrun]; exact Bool.false_ne_true)] at h
    cases h
    exact ⟨hI₁, b', hb₁, rfl, hrun.symm⟩

/-! ## Steps and runs -/

/-- What holds of the process and the counts in every state. -/
structure Cadence.Inv (U : Unicode) (tenantId fromNumber : String) (stride : Nat) (c : Cadence) :
    Prop where
  process : c.process.Inv
  counting : Counting tenantId fromNumber c.process.sys.resources
  turns : turnsOf U c.process.sys.resources tenantId fromNumber = .ok c.recorded
  flight : c.recorded = c.ended.length + inFlight tenantId fromNumber c.process.sys
  range : ∀ m ∈ c.ended, 0 < m ∧ m ≤ c.recorded
  dispatched : c.dispatched = c.ended.filter (stride ∣ ·)

/-- **The step lemma.** A turn of the buyer dispatches a run where the messages counted at its end
are a multiple of the stride, and nothing else does.

What carries the induction is that the turns recorded are those that have ended and those in flight,
so a turn that ends alone ends at the number it was recorded under. -/
theorem Cadence.Inv.step {P : Dispatch} (hon : P.crmExtractor = true) {stride : Nat}
    (hstride : crmExtractorTurnStride E.U P = stride) (hmany : 1 < stride) {c c' : Cadence}
    {l : CadenceLabel} (h : c.Inv E.U tenantId fromNumber stride)
    (hstep : cadenceStep E P tenantId fromNumber c l = some c') :
    c'.Inv E.U tenantId fromNumber stride := by
  cases l with
  | between label =>
    simp only [cadenceStep] at hstep
    split at hstep
    next hgoes =>
      obtain ⟨b', hb', rfl⟩ := Option.map_eq_some_iff.mp hstep
      obtain ⟨hI', hadv⟩ := backgroundStep_spec h.process hb'
      constructor
      · exact hI'
      · exact counting_backgroundStep h.process h.counting hb'
      · exact (hadv tenantId fromNumber).turns _ h.turns
      · have hflight := h.flight
        show c.recorded + recordCalls tenantId fromNumber c.process label =
          c.ended.length + inFlight tenantId fromNumber b'.sys
        rw [inFlight_backgroundStep hgoes hb']
        omega
      · intro m hm
        obtain ⟨hpos, hle⟩ := h.range m hm
        exact ⟨hpos, hle.trans (Nat.le_add_right _ _)⟩
      · exact h.dispatched
    · cases hstep
  | ended i outcome draw j =>
    simp only [cadenceStep] at hstep
    obtain ⟨t, ht, hstep⟩ := Option.bind_eq_some_iff.mp hstep
    obtain ⟨⟨b', dispatches⟩, hend, hstep⟩ := Option.bind_eq_some_iff.mp hstep
    obtain ⟨hI', b₁, hb₁, hsys, hdispatches⟩ := endTurn_spec h.process hend ht
    have hcounting := counting_backgroundStep h.process h.counting hb₁
    have hturns : turnsOf E.U b₁.sys.resources tenantId fromNumber = .ok c.recorded :=
      ((backgroundStep_spec h.process hb₁).2 tenantId fromNumber).turns _ h.turns
    have hflight : inFlight tenantId fromNumber b₁.sys + (t.isOf tenantId fromNumber).toNat =
        inFlight tenantId fromNumber c.process.sys :=
      inFlight_persisted (step_of_backgroundStep hb₁) ht
    rw [← hsys] at hcounting hturns hflight
    have hrecorded := h.flight
    cases hown : t.isOf tenantId fromNumber with
    | false =>
      rw [hown] at hstep hflight
      cases hstep
      refine ⟨hI', hcounting, hturns, ?_, h.range, h.dispatched⟩
      show c.recorded = c.ended.length + inFlight tenantId fromNumber b'.sys
      simp only [Bool.toNat_false] at hflight
      omega
    | true =>
      rw [hown] at hstep hflight
      cases hstep
      simp only [Bool.toNat_true] at hflight
      have hpos : 0 < c.recorded := by omega
      -- a counter above zero is a contact's
      obtain ⟨contact, hcontact⟩ : ∃ contact, contactOf b'.sys.resources tenantId fromNumber =
          some contact := by
        rw [← Option.ne_none_iff_exists']
        intro hnone
        rw [turnsOf, hnone] at hturns
        have hzero := Except.ok.inj hturns
        omega
      have hcount := hcounting.turnCount hI'.rowIds hcontact hturns
      obtain ⟨rfl, rfl⟩ := of_decide_eq_true hown
      have hdecided : dispatches = decide (stride ∣ c.recorded) := by
        rw [hdispatches, hcontact, warrantsRun_iff hon hstride hmany hpos hcount]
      refine ⟨hI', hcounting, hturns, ?_, ?_, ?_⟩
      · show c.recorded = (c.ended ++ [c.recorded]).length + inFlight _ _ b'.sys
        rw [List.length_append, List.length_singleton]
        omega
      · intro m hm
        rcases List.mem_append.mp hm with hold | hnew
        · exact h.range m hold
        · rw [List.mem_singleton.mp hnew]
          exact ⟨hpos, le_refl _⟩
      · show c.dispatched ++ (if dispatches then [c.recorded] else []) = _
        rw [List.filter_append, ← h.dispatched, hdecided]
        by_cases hdvd : stride ∣ c.recorded
        · simp [hdvd]
        · simp [hdvd]

end Steps

/-- None of the buyer's messages is in flight. -/
def Idle (tenantId fromNumber : String) (s : System) : Prop :=
  ∀ i t, s.turns.get? i = some t → t.isOf tenantId fromNumber = false

theorem Idle.inFlight {tenantId fromNumber : String} {s : System} (h : Idle tenantId fromNumber s) :
    inFlight tenantId fromNumber s = 0 := by
  apply List.countP_eq_zero.mpr
  intro t ht
  obtain ⟨i, hi⟩ := Dict.mem_values_iff.mp ht
  rw [Turn.counted, h i t hi, Bool.false_and]
  exact Bool.false_ne_true

/-- For each multiple of the stride, up to the number of messages processed, exactly one of the
turns ended while the counter stood at it. It speaks of the order of counting and ending, and of no
dispatch. -/
def EndsOnce (stride : Nat) (c : Cadence) : Prop :=
  ∀ m, 0 < m → m ≤ c.ended.length → stride ∣ m → c.ended.count m = 1

/-- **The cadence.** A buyer without a contact sends any number of messages, which are processed in
any order of their awaits, beside everything else the process does, and none of them finds the bot
paused. The runs dispatched for him are then one for each multiple of the stride, exactly when one
of his messages comes to its end at each. -/
theorem cadence_iff (E : Setting) (P : Dispatch) (hon : P.crmExtractor = true) (stride : Nat)
    (hstride : crmExtractorTurnStride E.U P = stride) (hmany : 1 < stride) (s : System)
    (hrows : RowIds s.resources) (tenantId fromNumber : String)
    (hnew : contactOf s.resources tenantId fromNumber = none) (hidle : Idle tenantId fromNumber s)
    (ls : List CadenceLabel) (c : Cadence)
    (hrun : run (cadenceStep E P tenantId fromNumber) { process := { sys := s } } ls = some c)
    (hdone : Idle tenantId fromNumber c.process.sys) :
    OnCadence stride c ↔ EndsOnce stride c := by
  have hI : c.Inv E.U tenantId fromNumber stride := by
    refine Leads.invariant (fun _ _ _ h hstep => h.step hon hstride hmany hstep) ⟨ls, hrun⟩ ?_
    constructor
    · exact .start hrows
    · exact .of_none hnew
    · rw [turnsOf, hnew]
      rfl
    · show 0 = 0 + inFlight tenantId fromNumber s
      rw [hidle.inFlight]
    · exact List.forall_mem_nil _
    · rfl
  have hall : c.recorded = c.ended.length := by
    rw [hI.flight, hdone.inFlight, Nat.add_zero]
  have hcount : ∀ m, stride ∣ m → c.dispatched.count m = c.ended.count m := by
    intro m hm
    rw [hI.dispatched]
    exact List.count_filter (decide_eq_true hm)
  constructor
  · intro h m hpos hle hdvd
    rw [← hcount m hdvd]
    exact h.once m hpos hle hdvd
  · intro h
    have honce : ∀ m, 0 < m → m ≤ c.ended.length → stride ∣ m → c.dispatched.count m = 1 := by
      intro m hpos hle hdvd
      rw [hcount m hdvd]
      exact h m hpos hle hdvd
    refine ⟨length_eq_div (fun m hm => ?_) honce, honce⟩
    rw [hI.dispatched] at hm
    obtain ⟨hmem, hdvd⟩ := List.mem_filter.mp hm
    obtain ⟨hpos, hle⟩ := hI.range m hmem
    exact ⟨hpos, hall ▸ hle, of_decide_eq_true hdvd⟩

/-- Ana's message `i`, from its delivery to where it is counted. -/
def arrival (i : Nat) (messageId contactId activityId : String) : List CadenceLabel :=
  let tenant : Tenant := { id := "acme", name := "Acme", slug := "acme", createdAt := 0 }
  [.between (.inbound (.deliver i tenant
      { tenantId := "acme", fromNumber := "5491100", text := "hola", messageId, receivedAt := 0 })),
    .between (.inbound (.remembered i (.ok ()) (.ok ()) ⟨0, contactId, 0, 0⟩ ⟨0, activityId, 0, 0⟩))]

/-- From there to its end. -/
def answering (i : Nat) (activityId : String) : List CadenceLabel :=
  [.between (.inbound (.responded i (.ok { reply := "buenas", model := "m" }))),
    .between (.inbound (.sent i (.ok (some "v")))), .ended i (.ok ()) ⟨0, activityId, 0, 0⟩ i]

/-- Every second turn. -/
def everySecond : Dispatch := { crmExtractor := true, stride := some "2" }

example : warrantsRun Unicode.ascii everySecond none = false := by decide +kernel

theorem idle_of_keys {tenantId fromNumber : String} {s : System} (h : s.turns.keys = []) :
    Idle tenantId fromNumber s := by
  intro i t ht
  have hmem : i ∈ s.turns.keys := Dict.get?_isSome_iff.mp (by rw [ht]; rfl)
  rw [h] at hmem
  cases hmem

/-- Two messages, one after the other. -/
theorem cadence_apart :
    let E : Setting := { U := Unicode.ascii, tenants := Dict.empty, maxItems := 200 }
    OnCadence 2 (reached (cadenceStep E everySecond "acme" "5491100")
      { process := { sys := System.init 0 } } (arrival 0 "wamid.1" "c1" "a1" ++ answering 0 "o1" ++
        arrival 1 "wamid.2" "c2" "a2" ++ answering 1 "o2")) := by
  intro E
  have hended : (reached (cadenceStep E everySecond "acme" "5491100")
      { process := { sys := System.init 0 } } (arrival 0 "wamid.1" "c1" "a1" ++ answering 0 "o1" ++
        arrival 1 "wamid.2" "c2" "a2" ++ answering 1 "o2")).ended = [1, 2] := by
    decide
  refine (cadence_iff E everySecond rfl 2 (by decide) (by decide) (System.init 0)
    (fun _ _ h => by cases h) "acme" "5491100" rfl (idle_of_keys rfl) _ _
    (run_eq_some_reached (by decide)) (idle_of_keys (by decide))).mpr ?_
  rw [EndsOnce, hended]
  intro m hpos hle hdvd
  obtain rfl : m = 2 := by
    have : m ≤ 2 := hle
    omega
  rfl

/-- Two messages that overlap are both counted before either comes to its end, and both dispatch a
run at two. -/
theorem not_cadence : ¬ ∀ (E : Setting) (P : Dispatch), P.crmExtractor = true → ∀ stride : Nat,
    crmExtractorTurnStride E.U P = stride → 1 < stride → ∀ s : System, RowIds s.resources →
      ∀ tenantId fromNumber : String, contactOf s.resources tenantId fromNumber = none →
        Idle tenantId fromNumber s → ∀ (ls : List CadenceLabel) (c : Cadence),
          run (cadenceStep E P tenantId fromNumber) { process := { sys := s } } ls = some c →
            Idle tenantId fromNumber c.process.sys → OnCadence stride c := by
  intro h
  let E : Setting := { U := Unicode.ascii, tenants := Dict.empty, maxItems := 200 }
  have hcadence := h E everySecond rfl 2 (by decide) (by decide) (System.init 0)
    (fun _ _ h => by cases h) "acme" "5491100" rfl (idle_of_keys rfl)
    (arrival 0 "wamid.1" "c1" "a1" ++ arrival 1 "wamid.2" "c2" "a2" ++ answering 0 "o1" ++
      answering 1 "o2") _ (run_eq_some_reached (by decide)) (idle_of_keys (by decide))
  have hcounts : (reached (cadenceStep E everySecond "acme" "5491100")
      { process := { sys := System.init 0 } } (arrival 0 "wamid.1" "c1" "a1" ++
        arrival 1 "wamid.2" "c2" "a2" ++ answering 0 "o1" ++ answering 1 "o2")).dispatched = [2, 2] ∧
      (reached (cadenceStep E everySecond "acme" "5491100")
        { process := { sys := System.init 0 } } (arrival 0 "wamid.1" "c1" "a1" ++
          arrival 1 "wamid.2" "c2" "a2" ++ answering 0 "o1" ++ answering 1 "o2")).ended = [2, 2] := by
    decide
  have hnumber := hcadence.number
  rw [hcounts.1, hcounts.2] at hnumber
  cases hnumber

end Wapsell.Api
