import Wapsell.Api.Extractor
import Wapsell.Api.Turns
import Wapsell.Crm.Contacts

/-!
# Turns are counted beside the extractor

Inbound turns and background extractor runs in any order, between awaits.
The extractor writes back a contact it looked up two awaits earlier, but it
reads the row again when it applies, and it leaves the protected fields
alone: what it overwrites of a turn that came between is nothing the turn
wrote. So the counter moves with the calls of `record_inbound` and with
nothing else.

The proof separates what a step does to the store from what it does to
the runs. Of the store only one thing is tracked, how far each buyer's
counter moves; of the runs only that the contact they hold is one that
exists. Then a label of any kind moves the counter by the calls of
`record_inbound` it makes and by nothing else, and a whole run adds
these up.

**What this does not establish.** That the extractor's own writes are
right; only that they are no turn's. Stores that fail belong to the
turns, and are labels there.
-/

namespace Wapsell.Api

open Lib Py Memory Resources Crm

/-- The contact a run has looked up. -/
def ExtractorPhase.contactId? : ExtractorPhase → Option String
  | .scheduled => none
  | .recalling contactId => some contactId
  | .extracting contactId => some contactId

/-- What the proof needs of the process: the store is in order, and each run holds the id of its
buyer's contact. -/
structure Background.Inv (b : Background) : Prop where
  rowIds : RowIds b.sys.resources
  looked : ∀ j r contactId, b.runs.get? j = some r → r.phase.contactId? = some contactId →
    ∃ c, contactOf b.sys.resources r.tenantId r.fromNumber = some c ∧ c.id = contactId

/-- The calls of `record_inbound` for a buyer that a label makes: one when a turn of his is stored
and its contact recorded, none otherwise. -/
def recordCalls (tenantId fromNumber : String) (b : Background) : BackgroundLabel → Nat
  | .inbound (.remembered i _ _ _ _) =>
    match b.sys.turns.get? i with
    | some t => weight t.tenant.id t.msg.fromNumber tenantId fromNumber
    | none => 0
  | _ => 0

/-! ## What a step does to the store -/

/-- The store behind a label of the inbound turns. -/
def resourcesAfter (E : Setting) (s : System) : Label → Resources.Repository
  | .remembered i _ _ contactDraw activityDraw =>
    match s.turns.get? i with
    | some t => recordedInbound E.U s.resources t.tenant.id t.msg.fromNumber t.msg.text
        t.msg.messageId t.msg.profileName none contactDraw activityDraw
    | none => s.resources
  | .persisted i _ draw =>
    match s.turns.get? i with
    | some t =>
      match t.phase with
      | .persisting reply vendorMessageId agentMeta _ =>
        (recordOutbound s.resources t.tenant.id t.msg.fromNumber reply t.msg.messageId none
          ((turnMeta vendorMessageId agentMeta).map .str) draw).2
      | _ => s.resources
    | none => s.resources
  | _ => s.resources

/-- Of the store, a turn writes the CRM rows and nothing else. -/
theorem persistInbound_resources (E : Setting) (s : System) (t : Turn) (at_ : Datetime)
    (outcome : Except String Unit) (contactDraw activityDraw : Draw) :
    (persistInbound E s t at_ outcome contactDraw activityDraw).resources =
      recordedInbound E.U s.resources t.tenant.id t.msg.fromNumber t.msg.text t.msg.messageId
        t.msg.profileName none contactDraw activityDraw := by
  have hrecord : ∀ s : System, (recordInbound E s t contactDraw activityDraw).resources =
      recordedInbound E.U s.resources t.tenant.id t.msg.fromNumber t.msg.text t.msg.messageId
        t.msg.profileName none contactDraw activityDraw := by
    intro s
    unfold Api.recordInbound recordedInbound
    cases Crm.recordInbound E.U s.resources t.tenant.id t.msg.fromNumber t.msg.text t.msg.messageId
      t.msg.profileName none contactDraw activityDraw <;> rfl
  cases outcome <;> exact hrecord _

theorem step_resources {E : Setting} {s s' : System} {l : Label} (h : step E s l = some s') :
    s'.resources = resourcesAfter E s l := by
  cases stepped_of_step h with
  | tick => rfl
  | deliver => rfl
  | @remembered i t at_ outcome check contactDraw activityDraw hf _ =>
    simp only [resourcesAfter, hf]
    rw [← persistInbound_resources E s t at_ outcome contactDraw activityDraw]
    unfold afterRemember
    simp only
    split <;> rfl
  | @responded i t outcome _ _ =>
    obtain ⟨turns, trace, heq⟩ := afterRespond_eq (s := s) i t outcome
    rw [heq]
    rfl
  | @notified i t reply agentMeta outcome store _ _ =>
    obtain ⟨turns, trace, pauses, heq⟩ := afterNotify_eq (s := s) i t reply agentMeta store
    rw [heq]
    rfl
  | @sent i t reply agentMeta outcome _ _ =>
    obtain ⟨turns, heq⟩ := afterSend_eq (s := s) i t reply agentMeta outcome
    rw [heq]
    rfl
  | @persisted i t reply vendorMessageId agentMeta at_ outcome draw hf hphase =>
    simp only [resourcesAfter, hf, hphase]
    cases outcome with
    | ok => rfl
    | error => rfl
  | @pause tenantId buyerId hours store =>
    obtain ⟨pauses, heq⟩ := pauseBot_eq (E := E) (s := s) tenantId buyerId hours store
    rw [heq]
    rfl
  | @resume tenantId buyerId =>
    obtain ⟨pauses, heq⟩ := resumeBot_eq (E := E) (s := s) tenantId buyerId
    rw [heq]
    rfl
  | @humanSend j tenantId buyerId text pauseHours =>
    obtain ⟨humans, heq⟩ := humanSendBegin_eq (E := E) (s := s) j tenantId buyerId text pauseHours
    rw [heq]
    rfl
  | @humanSent j human outcome store _ _ =>
    obtain ⟨humans, pauses, heq⟩ := afterHumanSend_eq (s := s) j human outcome store
    rw [heq]
    rfl
  | @humanPersisted j human agentMeta outcome _ _ =>
    cases outcome with
    | ok => rfl
    | error => rfl

/-- An inbound label advances each buyer by the calls it makes for him. -/
theorem resourcesAfter_advances {E : Setting} {s : System} (hI : RowIds s.resources) {l : Label}
    (hfresh : drawsFresh s l = true) :
    RowIds (resourcesAfter E s l) ∧ ∀ t n, Advances E.U s.resources (resourcesAfter E s l) t n
      (recordCalls t n { sys := s } (.inbound l)) := by
  cases l with
  | remembered i outcome check contactDraw activityDraw =>
    obtain ⟨hcontact, hactivity, hdraws⟩ := of_decide_eq_true hfresh
    simp only [resourcesAfter, recordCalls]
    cases s.turns.get? i with
    | none => exact ⟨hI, fun _ _ => .refl⟩
    | some t => exact recordedInbound_advances hI _ _ _ _ _ _ hcontact hactivity hdraws
  | persisted i outcome draw =>
    simp only [resourcesAfter, recordCalls]
    cases s.turns.get? i with
    | none => exact ⟨hI, fun _ _ => .refl⟩
    | some t =>
      simp only
      split
      · exact recordOutbound_advances hI _ _ _ _ _ _ (of_decide_eq_true hfresh)
      · exact ⟨hI, fun _ _ => .refl⟩
  | _ => exact ⟨hI, fun _ _ => .refl⟩

/-! ## Steps and runs -/

/-- A run in flight holds the contact that it held before, or that it has just looked up. -/
def HoldsContact (b : Background) (j : Nat) (r : ExtractorRun) (contactId : String) : Prop :=
  (∃ before, b.runs.get? j = some before ∧ before.tenantId = r.tenantId ∧
      before.fromNumber = r.fromNumber ∧ before.phase.contactId? = some contactId) ∨
    ∃ c, contactOf b.sys.resources r.tenantId r.fromNumber = some c ∧ c.id = contactId

/-- A contact that was looked up is still the buyer's. -/
theorem Background.Inv.of_advances {b b' : Background} {U : Unicode} (h : b.Inv)
    (hI : RowIds b'.sys.resources) {d : String → String → Nat}
    (hadv : ∀ t n, Advances U b.sys.resources b'.sys.resources t n (d t n))
    (hruns : ∀ j r contactId, b'.runs.get? j = some r → r.phase.contactId? = some contactId →
      HoldsContact b j r contactId) :
    b'.Inv where
  rowIds := hI
  looked j r contactId hr hphase := by
    have hbefore : ∃ c, contactOf b.sys.resources r.tenantId r.fromNumber = some c ∧
        c.id = contactId := by
      rcases hruns j r contactId hr hphase with ⟨before, hbefore, ht, hn, hheld⟩ | hnew
      · rw [← ht, ← hn]
        exact h.looked j before contactId hbefore hheld
      · exact hnew
    obtain ⟨c, hc, hid⟩ := hbefore
    obtain ⟨c', hc', hid', -⟩ := (hadv r.tenantId r.fromNumber).kept c hc
    exact ⟨c', hc', hid'.trans hid⟩

/-- What is behind a step of the process: a step of the system, runs that went on beside a system
that did not, or an application of what the model answered. -/
inductive BackgroundChange (E : Setting) (b b' : Background) (l : BackgroundLabel) : Prop
  | inbound {label : Label} (taken : l = .inbound label) (fresh : drawsFresh b.sys label = true)
      (sys : step E b.sys label = some b'.sys) (runs : b'.runs = b.runs)
  | waited (other : ∀ label, l ≠ .inbound label) (sys : b'.sys = b.sys)
      (runs : ∀ j r contactId, b'.runs.get? j = some r → r.phase.contactId? = some contactId →
        HoldsContact b j r contactId)
  | applied (other : ∀ label, l ≠ .inbound label) {j : Nat} {r : ExtractorRun} {contactId : String}
      {result : ExtractionResult} {draw : ApplyDraw} (run : b.runs.get? j = some r)
      (looked : r.phase.contactId? = some contactId) (fresh : draw.Fresh b.sys.resources result)
      (sys : b'.sys = { b.sys with
        resources := Crm.applied E.U b.sys.resources r.tenantId contactId result draw })
      (runs : ∀ k run, b'.runs.get? k = some run → b.runs.get? k = some run)

/-- A run returns. -/
theorem backgroundChange_done (E : Setting) (b : Background) (j : Nat) {l : BackgroundLabel}
    (hl : ∀ label, l ≠ .inbound label) : BackgroundChange E b (b.done j) l := by
  refine .waited hl rfl fun k r contactId hr hphase => .inl ⟨r, ?_, rfl, rfl, hphase⟩
  exact (Dict.get?_erase_eq_some hr).2

/-- A run goes on. -/
theorem backgroundChange_suspend (E : Setting) {b : Background} {j : Nat} {r : ExtractorRun}
    {l : BackgroundLabel} (hl : ∀ label, l ≠ .inbound label)
    (hr : ∀ contactId, r.phase.contactId? = some contactId → HoldsContact b j r contactId) :
    BackgroundChange E b (b.suspend j r) l := by
  refine .waited hl rfl fun k run contactId hrun hphase => ?_
  rcases Dict.get?_set_eq_some hrun with ⟨rfl, rfl⟩ | ⟨-, hold⟩
  · exact hr contactId hphase
  · exact .inl ⟨run, hold, rfl, rfl, hphase⟩

/-- **What a step can do**, to the system and to the runs. -/
theorem backgroundChange_of_step {E : Setting} {b b' : Background} {l : BackgroundLabel}
    (h : backgroundStep E b l = some b') : BackgroundChange E b b' l := by
  cases l with
  | inbound label =>
    simp only [backgroundStep] at h
    split at h
    next hfresh =>
      obtain ⟨s', hs', rfl⟩ := Option.map_eq_some_iff.mp h
      exact .inbound rfl hfresh hs' rfl
    · cases h
  | dispatched j tenantId buyerId fromNumber =>
    simp only [backgroundStep] at h
    split at h
    · cases h
    · cases h
      exact backgroundChange_suspend E (fun _ hl => by cases hl) fun _ hphase => by cases hphase
  | started j =>
    simp only [backgroundStep] at h
    obtain ⟨r, -, h⟩ := Option.bind_eq_some_iff.mp h
    split at h
    · cases h
      unfold afterStart
      cases hfind : b.sys.resources.findByExternalId r.tenantId CONTACT_KIND
          (contactExternalId r.fromNumber) with
      | none => exact backgroundChange_done E b j fun _ hl => by cases hl
      | some contact =>
        refine backgroundChange_suspend E (fun _ hl => by cases hl) fun contactId hphase => ?_
        exact .inr ⟨contact, hfind, Option.some.inj hphase⟩
    · cases h
  | recalled j outcome =>
    simp only [backgroundStep] at h
    obtain ⟨r, hr, h⟩ := Option.bind_eq_some_iff.mp h
    split at h
    next contactId hphase =>
      cases h
      unfold afterRecall
      cases outcome with
      | error message => exact backgroundChange_done E b j fun _ hl => by cases hl
      | ok =>
        simp only
        split
        · refine backgroundChange_suspend E (fun _ hl => by cases hl) fun held hheld => ?_
          refine .inl ⟨r, hr, rfl, rfl, ?_⟩
          rw [hphase]
          exact hheld
        · exact backgroundChange_done E b j fun _ hl => by cases hl
    · cases h
  | extracted j outcome draw =>
    simp only [backgroundStep] at h
    obtain ⟨r, hr, h⟩ := Option.bind_eq_some_iff.mp h
    cases hphase : r.phase with
    | extracting contactId =>
      simp only [hphase] at h
      cases outcome with
      | error message =>
        cases h
        exact backgroundChange_done E b j fun _ hl => by cases hl
      | ok result =>
        simp only at h
        split at h
        next hF =>
          cases h
          unfold afterExtract
          simp only
          split
          · exact backgroundChange_done E b j fun _ hl => by cases hl
          · refine .applied (fun _ hl => by cases hl) hr (by rw [hphase]; rfl) hF rfl ?_
            exact fun k run hrun => (Dict.get?_erase_eq_some hrun).2
        · cases h
    | _ =>
      simp only [hphase] at h
      cases h

theorem step_of_backgroundStep {E : Setting} {b b' : Background} {label : Label}
    (h : backgroundStep E b (.inbound label) = some b') : step E b.sys label = some b'.sys := by
  simp only [backgroundStep] at h
  split at h
  · obtain ⟨s', hs', rfl⟩ := Option.map_eq_some_iff.mp h
    exact hs'
  · cases h

theorem recordCalls_eq_zero {l : BackgroundLabel} (hl : ∀ label, l ≠ .inbound label)
    (tenantId fromNumber : String) (b : Background) : recordCalls tenantId fromNumber b l = 0 := by
  cases l with
  | inbound label => exact absurd rfl (hl label)
  | _ => rfl

/-- **The step lemma.** Each buyer's counter moves by the calls of `record_inbound` made for him.
The invariant is needed for one case only, the application of a result to the contact that was
looked up. -/
theorem backgroundStep_spec {E : Setting} {b b' : Background} {l : BackgroundLabel} (h : b.Inv)
    (hstep : backgroundStep E b l = some b') :
    b'.Inv ∧ ∀ t n, Advances E.U b.sys.resources b'.sys.resources t n (recordCalls t n b l) := by
  cases backgroundChange_of_step hstep with
  | inbound taken fresh sys runs =>
    subst taken
    obtain ⟨hI, hadv⟩ := resourcesAfter_advances (E := E) h.rowIds fresh
    rw [← step_resources sys] at hI hadv
    refine ⟨h.of_advances hI hadv fun j r contactId hr hphase => ?_, hadv⟩
    rw [runs] at hr
    exact .inl ⟨r, hr, rfl, rfl, hphase⟩
  | waited other sys runs =>
    have hadv : ∀ t n, Advances E.U b.sys.resources b'.sys.resources t n 0 := by
      intro t n
      rw [sys]
      exact .refl
    refine ⟨h.of_advances (sys ▸ h.rowIds) hadv runs, fun t n => ?_⟩
    rw [recordCalls_eq_zero other]
    exact hadv t n
  | @applied other j r contactId result draw run looked fresh sys runs =>
    obtain ⟨c, hc, hid⟩ := h.looked j r contactId run looked
    obtain ⟨hI, hadv⟩ := applied_advances (U := E.U) h.rowIds hc hid fresh
    rw [sys]
    refine ⟨h.of_advances (by rw [sys]; exact hI) (by rw [sys]; exact hadv)
      fun k before _ hbefore hphase => .inl ⟨before, runs k before hbefore, rfl, rfl, hphase⟩,
      fun t n => ?_⟩
    rw [recordCalls_eq_zero other]
    exact hadv t n

theorem Background.Inv.start {s : System} (h : RowIds s.resources) : Background.Inv { sys := s } where
  rowIds := h
  looked j r contactId hr := by cases hr

/-- **Turns are neither lost nor counted twice.** Between any two moments of a run of inbound turns
and extractor runs in any order, whatever the model answers, a contact's counter moves by the number
of `record_inbound` calls for its buyer, and what the first of them wrote stays. The first moment is
any state that is reached, so a contact may be there or not. -/
theorem turns_counted_beside_extractor (E : Setting) (s : System) (hrows : RowIds s.resources)
    (ls ms : List BackgroundLabel) (b b' : Background)
    (hb : run (backgroundStep E) { sys := s } ls = some b)
    (hb' : run (backgroundStep E) b ms = some b') (tenantId fromNumber : String) :
    (∀ n, turnsOf E.U b.sys.resources tenantId fromNumber = .ok n →
      turnsOf E.U b'.sys.resources tenantId fromNumber =
        .ok (n + tally (backgroundStep E) (recordCalls tenantId fromNumber) b ms)) ∧
      ∀ c, contactOf b.sys.resources tenantId fromNumber = some c →
        ∃ c', contactOf b'.sys.resources tenantId fromNumber = some c' ∧ c'.id = c.id ∧
          ∀ key ∈ FIRST_FIELDS, c'.data.get? key = c.data.get? key := by
  have hI : b.Inv := Leads.invariant (fun _ _ _ h hstep => (backgroundStep_spec h hstep).1) ⟨ls, hb⟩
    (.start hrows)
  constructor
  · intro n hn
    have hcounter := run_tally
      (V := fun b n => b.Inv ∧ turnsOf E.U b.sys.resources tenantId fromNumber = .ok n)
      (w := recordCalls tenantId fromNumber)
      (fun b l b' n h (hstep : backgroundStep E b l = some b') => by
        obtain ⟨hI', hadv⟩ := backgroundStep_spec h.1 hstep
        exact ⟨hI', (hadv tenantId fromNumber).turns n h.2⟩) ⟨hI, hn⟩ hb'
    exact hcounter.2
  · intro c hc
    have hkept := Leads.invariant
      (P := fun b => b.Inv ∧ ∃ c', contactOf b.sys.resources tenantId fromNumber = some c' ∧
        c'.id = c.id ∧ ∀ key ∈ FIRST_FIELDS, c'.data.get? key = c.data.get? key)
      (fun b l b' h (hstep : backgroundStep E b l = some b') => by
        obtain ⟨hI, c₁, hc₁, hid₁, hk₁⟩ := h
        obtain ⟨hI', hadv⟩ := backgroundStep_spec hI hstep
        obtain ⟨c₂, hc₂, hid₂, hk₂⟩ := (hadv tenantId fromNumber).kept c₁ hc₁
        exact ⟨hI', c₂, hc₂, hid₂.trans hid₁, fun key hkey =>
          (hk₂ key hkey).trans (hk₁ key hkey)⟩) ⟨ms, hb'⟩
      ⟨hI, c, hc, rfl, fun _ _ => rfl⟩
    exact hkept.2

/-- Ana's first message, and a run of the extractor that waits for the model. -/
def overtaken : List BackgroundLabel :=
  let tenant : Tenant := { id := "acme", name := "Acme", slug := "acme", createdAt := 0 }
  [.inbound (.deliver 0 tenant
      { tenantId := "acme", fromNumber := "5491100", text := "hola", messageId := "wamid.1"
        receivedAt := 0 }),
    .inbound (.remembered 0 (.ok ()) (.ok ()) ⟨0, "c1", 0, 0⟩ ⟨0, "a1", 0, 0⟩),
    .dispatched 0 "acme" "acme:5491100" "5491100", .started 0, .recalled 0 (.ok ())]

/-- Her second message, and then the model's answer to the first. -/
def overtaking : List BackgroundLabel :=
  let updates : Dict String Json := (Dict.empty.set "name" (.str "Ana")).set "turn_count" (.int 1)
  let tenant : Tenant := { id := "acme", name := "Acme", slug := "acme", createdAt := 0 }
  [.inbound (.deliver 1 tenant
      { tenantId := "acme", fromNumber := "5491100", text := "soy Ana", messageId := "wamid.2"
        receivedAt := 1 }),
    .inbound (.remembered 1 (.ok ()) (.ok ()) ⟨1, "c2", 1, 1⟩ ⟨1, "a2", 1, 1⟩),
    .extracted 0 (.ok { contactUpdates := updates }) ⟨2, [], ⟨2, "s1", 2, 2⟩⟩]

theorem overtaken_counted :
    let E : Setting := { U := Unicode.ascii, tenants := Dict.empty, maxItems := 200 }
    let b := reached (backgroundStep E) { sys := System.init 0 } overtaken
    turnsOf E.U (reached (backgroundStep E) b overtaking).sys.resources "acme" "5491100" = .ok 2 := by
  intro E b
  have hb : run (backgroundStep E) { sys := System.init 0 } overtaken = some b :=
    run_eq_some_reached (by decide)
  have hb' : run (backgroundStep E) b overtaking = some (reached (backgroundStep E) b overtaking) :=
    run_eq_some_reached (by decide)
  have hcount := (turns_counted_beside_extractor E (System.init 0) (fun _ _ h => by cases h) overtaken
    overtaking b _ hb hb' "acme" "5491100").1 1 (by decide)
  have htally : tally (backgroundStep E) (recordCalls "acme" "5491100") b overtaking = 1 := by
    decide
  rw [hcount, htally]
  rfl

end Wapsell.Api
