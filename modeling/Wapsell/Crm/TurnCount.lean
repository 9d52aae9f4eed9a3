import Wapsell.Lib.Run
import Wapsell.Crm.Recorder
import Wapsell.Resources.Upsert

/-!
# Counting turns

A contact's `turn_count` and the activities of its timeline are two writes
of `record_inbound`, and only the second looks whether the message is
already there. A run from the empty store keeps the counter of every
contact equal to the number of its inbound activities exactly as long as no
message is recorded twice: the step that repeats one bumps the counter and
adds no activity.

A repeated message is an ordinary event, since Meta delivers again what
was not answered in time. The condition is stated on the store before
the call, and the theorem says that nothing else can set the two numbers
apart.

What this does not establish: anything about contacts that something
else than the recorder has written. Runs start from the empty store.
-/

namespace Wapsell.Crm

open Lib Py Resources

/-- A call on the recorder, with what it draws. -/
inductive Call
  | inbound (tenantId fromNumber text messageId : String) (profileName : Option String)
      (at_ : Option Datetime) (contactDraw activityDraw : Draw)
  | outbound (tenantId fromNumber text replyToMessageId : String) (at_ : Option Datetime)
      (extra : Dict String Json) (draw : Draw)

/-- One call over the in-memory store. A uuid that is in use is not drawn; a call that raises
leaves the store alone. -/
def step (U : Unicode) (repo : Repository) : Call → Option Repository
  | .inbound tenantId fromNumber text messageId profileName at_ contactDraw activityDraw =>
    if (repo.get? contactDraw.id).isSome ∨ (repo.get? activityDraw.id).isSome ∨
        contactDraw.id = activityDraw.id then none
    else match recordInbound U repo tenantId fromNumber text messageId profileName at_ contactDraw
        activityDraw with
      | .ok (_, repo') => some repo'
      | .error _ => some repo
  | .outbound tenantId fromNumber text replyToMessageId at_ extra draw =>
    if (repo.get? draw.id).isSome then none
    else some (recordOutbound repo tenantId fromNumber text replyToMessageId at_ extra draw).2

/-- The contact of a (tenant, phone). -/
def contactOf (repo : Repository) (tenantId fromNumber : String) : Option Resource :=
  repo.findByExternalId tenantId CONTACT_KIND (contactExternalId fromNumber)

/-- An activity of the contact's timeline that records an inbound message. -/
def isInboundOf (contactId : String) (r : Resource) : Bool :=
  r.kind = ACTIVITY_KIND &&
    (match r.externalId with
      | some external => startsWith "inbound:" external
      | none => false) &&
    (match r.data.get? "contact_id" with
      | some (.str id) => id = contactId
      | _ => false)

/-- The inbound activities of a contact. -/
def inboundActivities (repo : Repository) (contactId : String) : List Resource :=
  repo.values.filter (isInboundOf contactId)

/-- Every contact counts its inbound activities: the number in its data is the length of its inbound
timeline. -/
def TurnsCounted (repo : Repository) : Prop :=
  ∀ tenantId fromNumber contact, contactOf repo tenantId fromNumber = some contact →
    contact.data.get? "turn_count" = some (.int (inboundActivities repo contact.id).length)

/-- The inbound message is in the tenant's timeline. -/
def Recorded (repo : Repository) (tenantId messageId : String) : Prop :=
  (repo.findByExternalId tenantId ACTIVITY_KIND
    (activityExternalIdForMessage messageId "inbound")).isSome

/-- The call does not record an inbound message again. It looks at the store before the call, and
only at the tenant's own timeline. -/
def FirstTime (repo : Repository) : Call → Prop
  | .inbound tenantId _ _ messageId _ _ _ _ => ¬ Recorded repo tenantId messageId
  | .outbound .. => True

/-- Recording a message again leaves the contact's counter and the activities as they were. -/
def RepeatKeeps (U : Unicode) (repo : Repository) (call : Call) : Prop :=
  match call with
  | .inbound tenantId fromNumber _ messageId _ _ _ _ =>
    Recorded repo tenantId messageId → ∀ repo', step U repo call = some repo' →
      (contactOf repo' tenantId fromNumber).map (fun c => c.data.getD "turn_count" (.int 0)) =
        (contactOf repo tenantId fromNumber).map (fun c => c.data.getD "turn_count" (.int 0)) ∧
      repo'.values.filter (fun r => decide (r.kind = ACTIVITY_KIND)) =
        repo.values.filter (fun r => decide (r.kind = ACTIVITY_KIND))
  | .outbound .. => True

/-! ## What a call of the recorder does -/

/-- A contact that is written is a new one, or one that was there, bumped from a counter that is a
number. -/
theorem upsertContactForInbound_eq_ok {U : Unicode} {repo repo' : Repository}
    {tenantId fromNumber : String} {profileName : Option String} {at_ : Option Datetime} {draw : Draw}
    {c : Resource} (h : upsertContactForInbound U repo tenantId fromNumber profileName at_ draw =
      .ok (c, repo')) :
    (contactOf repo tenantId fromNumber = none ∧
      c = newContact tenantId fromNumber profileName (at_.getD draw.now) draw ∧ repo' = repo.add c) ∨
    ∃ existing n, contactOf repo tenantId fromNumber = some existing ∧
      (existing.data.getD "turn_count" (.int 0)).toInt U = .ok n ∧
      c = bumpedContact existing fromNumber profileName (at_.getD draw.now) n ∧
      repo' = repo.upsert c := by
  unfold upsertContactForInbound at h
  unfold contactOf
  cases hfind : repo.findByExternalId tenantId CONTACT_KIND (contactExternalId fromNumber) with
  | none =>
    rw [hfind] at h
    cases h
    exact .inl ⟨rfl, rfl, rfl⟩
  | some existing =>
    simp only [hfind] at h
    cases hcount : (existing.data.getD "turn_count" (.int 0)).toInt U with
    | error e =>
      rw [hcount] at h
      cases h
    | ok n =>
      rw [hcount] at h
      cases h
      exact .inr ⟨existing, n, rfl, hcount, rfl, rfl⟩

/-- An activity that is looked for in vain is added. -/
theorem recordActivity_cases (repo : Repository)
    (tenantId contactId direction text messageId activityType : String) (at_ : Option Datetime)
    (extra : Dict String Json) (draw : Draw) :
    (recordActivity repo tenantId contactId direction text messageId activityType at_ extra
      draw).2 = repo ∨
    repo.findByExternalId tenantId ACTIVITY_KIND
        (activityExternalIdForMessage messageId direction) = none ∧
      (recordActivity repo tenantId contactId direction text messageId activityType at_ extra
        draw).2 = repo.add (newActivity tenantId contactId direction text messageId activityType
          (at_.getD draw.now) extra draw) := by
  unfold recordActivity
  cases repo.findByExternalId tenantId ACTIVITY_KIND
      (activityExternalIdForMessage messageId direction) with
  | some existing => exact .inl rfl
  | none => exact .inr ⟨rfl, rfl⟩

/-! ## The rows of the recorder -/

/-- What the recorder keeps of the store. -/
structure Inv (repo : Repository) : Prop where
  rowId : ∀ k r, repo.get? k = some r → r.id = k
  noSource : ∀ k r, repo.get? k = some r → r.sourceId = none
  /-- An inbound activity belongs to a row that is there. -/
  owned : ∀ k r c, repo.get? k = some r → isInboundOf c r = true → (repo.get? c).isSome

theorem Inv.empty : Inv (Dict.empty : Repository) where
  rowId k r h := by cases h
  noSource k r h := by cases h
  owned k r c h := by cases h

theorem contactOf_eq_some {repo : Repository} (hI : RowIds repo) {tenantId fromNumber : String}
    {c : Resource} (h : contactOf repo tenantId fromNumber = some c) :
    repo.get? c.id = some c ∧ c.tenantId = tenantId ∧ c.kind = CONTACT_KIND ∧
      c.externalId = some (contactExternalId fromNumber) := by
  obtain ⟨k, hk⟩ := Dict.mem_values_iff.mp (List.mem_of_find?_eq_some h)
  have hp := List.find?_some h
  rw [decide_eq_true_eq] at hp
  exact ⟨hI k c hk ▸ hk, hp⟩

/-- A contact is no activity. -/
theorem isInboundOf_of_contact {r : Resource} (h : r.kind = CONTACT_KIND) (c : String) :
    isInboundOf c r = false := by
  simp [isInboundOf, h, CONTACT_KIND, ACTIVITY_KIND]

/-- A row without a source replaces nothing but the row under its id. -/
theorem upsert_of_noSource (repo : Repository) {r : Resource} (h : r.sourceId = none) :
    repo.upsert r = repo.set r.id r := by
  simp [Repository.upsert, h]

theorem newContact_turnCount (tenantId fromNumber : String) (profileName : Option String)
    (when_ : Datetime) (draw : Draw) :
    (newContact tenantId fromNumber profileName when_ draw).data.get? "turn_count" =
      some (.int 1) := by
  unfold newContact
  cases profileName.filter (· ≠ "") <;> simp

theorem bumpedContact_turnCount (existing : Resource) (fromNumber : String)
    (profileName : Option String) (when_ : Datetime) (n : Int) :
    (bumpedContact existing fromNumber profileName when_ n).data.get? "turn_count" =
      some (.int (n + 1)) := by
  unfold bumpedContact
  cases profileName.filter (· ≠ "") with
  | none => simp
  | some name =>
    simp only
    split <;> simp

/-- The activity of an inbound message is on the timeline of its contact. -/
theorem isInboundOf_newActivity_inbound (c tenantId contactId text messageId activityType : String)
    (when_ : Datetime) (draw : Draw) :
    isInboundOf c (newActivity tenantId contactId "inbound" text messageId activityType when_
      Dict.empty draw) = decide (contactId = c) := by
  have hext : startsWith "inbound:" (activityExternalIdForMessage messageId "inbound") = true := by
    rw [startsWith, List.isPrefixOf_iff_prefix]
    refine ⟨messageId.toList, ?_⟩
    rw [← String.toList_append]
    rfl
  simp [isInboundOf, newActivity, Dict.empty, hext]

/-- The activity of a reply is no inbound one, whatever is merged over it. -/
theorem isInboundOf_newActivity_outbound (c tenantId contactId text messageId activityType : String)
    (when_ : Datetime) (extra : Dict String Json) (draw : Draw) :
    isInboundOf c (newActivity tenantId contactId "outbound" text messageId activityType when_
      extra draw) = false := by
  have hext : startsWith "inbound:" (activityExternalIdForMessage messageId "outbound") = false := by
    have hlist : (activityExternalIdForMessage messageId "outbound").toList =
        "outbound:".toList ++ messageId.toList := by
      rw [← String.toList_append]
      rfl
    rw [startsWith, hlist]
    rfl
  simp [isInboundOf, newActivity, hext]

/-! ## What a write does to the timelines -/

theorem Inv.set {repo : Repository} (h : Inv repo) {r : Resource} (hsource : r.sourceId = none)
    (howned : ∀ c, isInboundOf c r = true → (repo.get? c).isSome) : Inv (repo.set r.id r) where
  rowId := Dict.Forall.set h.rowId rfl
  noSource := Dict.Forall.set h.noSource hsource
  owned k row c hk hin := by
    rcases Dict.get?_set_eq_some hk with ⟨-, rfl⟩ | ⟨-, hold⟩
    · exact Dict.get?_set_isSome _ _ (howned c hin)
    · exact Dict.get?_set_isSome _ _ (h.owned k row c hold hin)

/-- A new row is found by its own tenant, kind and external id, after the rows that were there. -/
theorem findByExternalId_add {repo : Repository} {r : Resource} (hnew : repo.get? r.id = none)
    (t k e : String) :
    (repo.add r).findByExternalId t k e = (repo.findByExternalId t k e).or
      (if r.tenantId = t ∧ r.kind = k ∧ r.externalId = some e then some r else none) := by
  rw [Repository.findByExternalId, Repository.add, Dict.values_set_of_none r hnew,
    List.find?_append]
  congr 1
  by_cases h : r.tenantId = t ∧ r.kind = k ∧ r.externalId = some e
  · rw [if_pos h, List.find?_cons_of_pos (by simpa using h)]
  · rw [if_neg h, List.find?_cons_of_neg (by simpa using h), List.find?_nil]

/-- A row of another kind is found by nobody who did not find it before. -/
theorem findByExternalId_add_ne {repo : Repository} {r : Resource} (hnew : repo.get? r.id = none)
    {t k e : String} (hne : r.kind ≠ k) :
    (repo.add r).findByExternalId t k e = repo.findByExternalId t k e := by
  rw [findByExternalId_add hnew, if_neg fun h => hne h.2.1, Option.or_none]

/-- A row written back is found where it was found, and the others stay. -/
theorem findByExternalId_rewrite {repo : Repository} (hI : RowIds repo) {r old : Resource}
    (hold : repo.get? r.id = some old) (ht : r.tenantId = old.tenantId) (hk : r.kind = old.kind)
    (he : r.externalId = old.externalId) (t k e : String) :
    Repository.findByExternalId (repo.set r.id r) t k e =
      (repo.findByExternalId t k e).map fun c => if c.id = r.id then r else c := by
  rw [Repository.findByExternalId, Dict.find?_values_set hold (by simp only [ht, hk, he])]
  rw [Repository.findByExternalId, Dict.values, List.find?_map, Option.map_map]
  refine Option.map_congr fun entry hmem => ?_
  have hid : entry.2.id = entry.1 :=
    hI _ _ (Dict.get?_eq_some_iff.mpr (List.mem_of_find?_eq_some hmem))
  simp only [Function.comp_apply, hid]

/-- A row that is added is on no timeline, or on the one it names. -/
theorem inboundActivities_add {repo : Repository} {r : Resource} (hnew : repo.get? r.id = none)
    (x : String) : inboundActivities (repo.add r) x =
      inboundActivities repo x ++ if isInboundOf x r = true then [r] else [] := by
  rw [inboundActivities, Repository.add, Dict.values_set_of_none r hnew, List.filter_append]
  congr 1
  by_cases h : isInboundOf x r = true
  · rw [if_pos h, List.filter_cons_of_pos h, List.filter_nil]
  · rw [if_neg h, List.filter_cons_of_neg h, List.filter_nil]

/-- What `upsert_contact_for_inbound` has done when it returns. -/
structure ContactWritten (repo repo' : Repository) (tenantId fromNumber : String) (draw : Draw)
    (c : Resource) : Prop where
  inv : Inv repo'
  found : contactOf repo' tenantId fromNumber = some c
  counted : c.data.get? "turn_count" = some (.int ((inboundActivities repo c.id).length + 1))
  others : ∀ t n, ¬ (t = tenantId ∧ n = fromNumber) → contactOf repo' t n = contactOf repo t n
  activities : ∀ x, inboundActivities repo' x = inboundActivities repo x
  recorded : ∀ t m, Recorded repo' t m ↔ Recorded repo t m
  free : ∀ k, repo.get? k = none → k ≠ draw.id → repo'.get? k = none

/-- The first inbound of a phone. -/
theorem contactWritten_new {repo : Repository} (hI : Inv repo) {tenantId fromNumber : String}
    (hnone : contactOf repo tenantId fromNumber = none) (profileName : Option String)
    (when_ : Datetime) {draw : Draw} (hfree : repo.get? draw.id = none) :
    ContactWritten repo (repo.add (newContact tenantId fromNumber profileName when_ draw)) tenantId
      fromNumber draw (newContact tenantId fromNumber profileName when_ draw) := by
  have hcontact : ∀ x, isInboundOf x (newContact tenantId fromNumber profileName when_ draw) =
      false := fun x => isInboundOf_of_contact rfl x
  constructor
  · exact hI.set rfl fun c hc => by rw [hcontact] at hc; cases hc
  · refine (findByExternalId_add hfree _ _ _).trans ?_
    rw [show repo.findByExternalId tenantId CONTACT_KIND (contactExternalId fromNumber) = none from
      hnone, Option.none_or, if_pos ⟨rfl, rfl, rfl⟩]
  · rw [newContact_turnCount]
    -- no activity names an id that was not drawn yet
    have hzero : inboundActivities repo draw.id = [] := by
      rw [inboundActivities, List.filter_eq_nil_iff]
      intro r hr hin
      obtain ⟨k, hk⟩ := Dict.mem_values_iff.mp hr
      have := hI.owned k r draw.id hk hin
      rw [hfree] at this
      cases this
    show some (Json.int 1) = some (.int ((inboundActivities repo draw.id).length + 1))
    rw [hzero]
    rfl
  · intro t n hne
    refine (findByExternalId_add hfree _ _ _).trans ?_
    rw [if_neg, Option.or_none]
    · rfl
    · rintro ⟨ht, -, he⟩
      exact hne ⟨ht.symm, (contactExternalId_injective (Option.some.inj he)).symm⟩
  · intro x
    refine (inboundActivities_add hfree x).trans ?_
    rw [if_neg (by rw [hcontact]; exact Bool.false_ne_true), List.append_nil]
  · intro t m
    rw [Recorded, Recorded, findByExternalId_add_ne hfree]
    exact fun h => absurd h (by decide : CONTACT_KIND ≠ ACTIVITY_KIND)
  · intro k hk hne
    exact (Dict.get?_set_ne _ _ (Ne.symm hne)).trans hk

/-- A later inbound of a phone. -/
theorem contactWritten_bumped {repo : Repository} (hI : Inv repo) {tenantId fromNumber : String}
    {existing : Resource} (hfound : contactOf repo tenantId fromNumber = some existing)
    (profileName : Option String) (when_ : Datetime) (draw : Draw) :
    ContactWritten repo (repo.upsert (bumpedContact existing fromNumber profileName when_
        (inboundActivities repo existing.id).length)) tenantId fromNumber draw
      (bumpedContact existing fromNumber profileName when_
        (inboundActivities repo existing.id).length) := by
  obtain ⟨hrow, ht, hk, he⟩ := contactOf_eq_some hI.rowId hfound
  have hsource := hI.noSource _ _ hrow
  rw [upsert_of_noSource repo (r := bumpedContact existing fromNumber profileName when_ _) hsource]
  have hcontact : ∀ x, isInboundOf x existing = false := isInboundOf_of_contact hk
  have hcontact' : ∀ x, isInboundOf x (bumpedContact existing fromNumber profileName when_
      (inboundActivities repo existing.id).length) = false := isInboundOf_of_contact hk
  have hrewrite := findByExternalId_rewrite (r := bumpedContact existing fromNumber profileName
    when_ (inboundActivities repo existing.id).length) hI.rowId hrow rfl rfl rfl
  constructor
  · exact hI.set hsource fun c hc => by rw [hcontact'] at hc; cases hc
  · rw [contactOf, hrewrite, ← contactOf, hfound, Option.map_some]
    exact congrArg some (if_pos rfl)
  · exact bumpedContact_turnCount _ _ _ _ _
  · intro t n hne
    rw [contactOf, hrewrite, ← contactOf]
    cases hother : contactOf repo t n with
    | none => rfl
    | some c =>
      obtain ⟨hc, htc, -, hec⟩ := contactOf_eq_some hI.rowId hother
      have hid : c.id ≠ existing.id := by
        intro h
        rw [h, hrow] at hc
        cases hc
        refine hne ⟨htc.symm.trans ht, ?_⟩
        exact contactExternalId_injective (Option.some.inj (hec.symm.trans he))
      exact congrArg some (if_neg hid)
  · intro x
    exact Dict.filter_values_set hrow (hcontact x) (hcontact' x)
  · intro t m
    rw [Recorded, Recorded, hrewrite, Option.isSome_map]
  · intro k hnone _
    refine (Dict.get?_set_ne _ _ ?_).trans hnone
    rintro rfl
    rw [show repo.get? (bumpedContact existing fromNumber profileName when_ _).id = some existing
      from hrow] at hnone
    cases hnone

/-- Where every contact counts its turns, the counter parses and the contact is written. -/
theorem upsertContactForInbound_spec (U : Unicode) {repo : Repository} (hI : Inv repo)
    (hT : TurnsCounted repo) (tenantId fromNumber : String) (profileName : Option String)
    (at_ : Option Datetime) {draw : Draw} (hfree : repo.get? draw.id = none) :
    ∃ c repo', upsertContactForInbound U repo tenantId fromNumber profileName at_ draw =
      .ok (c, repo') ∧ ContactWritten repo repo' tenantId fromNumber draw c := by
  unfold upsertContactForInbound
  cases hfound : contactOf repo tenantId fromNumber with
  | none =>
    have hfind : repo.findByExternalId tenantId CONTACT_KIND (contactExternalId fromNumber) = none :=
      hfound
    rw [hfind]
    exact ⟨_, _, rfl, contactWritten_new hI hfound profileName _ hfree⟩
  | some existing =>
    have hfind : repo.findByExternalId tenantId CONTACT_KIND (contactExternalId fromNumber) =
      some existing := hfound
    have hcount := hT tenantId fromNumber existing hfound
    rw [hfind]
    simp only [Dict.getD, hcount, Option.getD_some, Json.toInt_int]
    exact ⟨_, _, rfl, contactWritten_bumped hI hfound profileName _ draw⟩

/-- Adding an activity moves no contact. -/
theorem contactOf_add_activity {repo : Repository} {r : Resource} (hnew : repo.get? r.id = none)
    (hkind : r.kind = ACTIVITY_KIND) (t n : String) :
    contactOf (repo.add r) t n = contactOf repo t n := by
  refine findByExternalId_add_ne hnew ?_
  rw [hkind]
  decide

/-! ## Steps and runs -/

/-- The contact is written and the message was there: the counter is one ahead. -/
theorem not_turnsCounted_of_repeat {repo repo' : Repository} {tenantId fromNumber : String}
    {draw : Draw} {c : Resource} (h : ContactWritten repo repo' tenantId fromNumber draw c) :
    ¬ TurnsCounted repo' := by
  intro hT
  have hcount := hT tenantId fromNumber c h.found
  rw [h.counted, h.activities] at hcount
  have hlen := Json.int.inj (Option.some.inj hcount)
  omega

/-- The contact is written and the activity added: every contact counts its turns. -/
theorem turnsCounted_of_first {repo repo' : Repository} (hT : TurnsCounted repo)
    {tenantId fromNumber : String} {draw : Draw} {c r : Resource}
    (h : ContactWritten repo repo' tenantId fromNumber draw c) (hnew : repo'.get? r.id = none)
    (hkind : r.kind = ACTIVITY_KIND) (hin : ∀ x, isInboundOf x r = decide (c.id = x)) :
    TurnsCounted (repo'.add r) := by
  intro t n d hd
  rw [contactOf_add_activity hnew hkind] at hd
  rw [inboundActivities_add hnew, List.length_append, h.activities, hin]
  by_cases hsame : t = tenantId ∧ n = fromNumber
  · obtain ⟨rfl, rfl⟩ := hsame
    rw [h.found] at hd
    cases hd
    rw [h.counted, if_pos (by simp)]
    rfl
  · -- another contact is another row
    have hne : c.id ≠ d.id := by
      intro hid
      obtain ⟨hd', htd, -, hed⟩ := contactOf_eq_some h.inv.rowId hd
      obtain ⟨hc', htc, -, hec⟩ := contactOf_eq_some h.inv.rowId h.found
      rw [← hid, hc'] at hd'
      cases hd'
      refine hsame ⟨htd.symm.trans htc, ?_⟩
      exact contactExternalId_injective (Option.some.inj (hed.symm.trans hec))
    rw [if_neg (by simpa using hne), List.length_nil, Nat.add_zero]
    exact hT t n d ((h.others t n hsame).symm.trans hd)

/-- **The step lemma.** The recorder keeps its rows in order, and keeps the counters right exactly
by not recording an inbound message again. An outbound call moves neither side. -/
theorem step_spec {U : Unicode} {repo repo' : Repository} {call : Call} (hI : Inv repo)
    (hT : TurnsCounted repo) (hstep : step U repo call = some repo') :
    Inv repo' ∧ (TurnsCounted repo' ↔ FirstTime repo call) := by
  cases call with
  | inbound tenantId fromNumber text messageId profileName at_ contactDraw activityDraw =>
    simp only [step] at hstep
    split at hstep
    · cases hstep
    next hfree =>
    simp only [not_or, Option.not_isSome_iff_eq_none] at hfree
    obtain ⟨hcf, haf, hdraws⟩ := hfree
    obtain ⟨c, repo₁, hok, hwritten⟩ :=
      upsertContactForInbound_spec U hI hT tenantId fromNumber profileName at_ hcf
    have haf₁ := hwritten.free _ haf (Ne.symm hdraws)
    simp only [recordInbound, hok, bind, Except.bind, pure, Except.pure, Option.some.injEq] at hstep
    subst hstep
    unfold recordActivity
    cases hrec : repo₁.findByExternalId tenantId ACTIVITY_KIND
        (activityExternalIdForMessage messageId "inbound") with
    | some existing =>
      have hrecorded : Recorded repo tenantId messageId := by
        rw [← hwritten.recorded, Recorded, hrec]
        rfl
      refine ⟨hwritten.inv, ?_⟩
      exact iff_of_false (not_turnsCounted_of_repeat hwritten) fun hfirst => hfirst hrecorded
    | none =>
      have hfirst : ¬ Recorded repo tenantId messageId := by
        rw [← hwritten.recorded, Recorded, hrec]
        exact Bool.false_ne_true
      have hin := fun x => isInboundOf_newActivity_inbound x tenantId c.id text messageId
        "whatsapp_message" (at_.getD activityDraw.now) activityDraw
      refine ⟨hwritten.inv.set rfl fun x hx => ?_,
        iff_of_true (turnsCounted_of_first hT hwritten haf₁ rfl hin) hfirst⟩
      rw [hin, decide_eq_true_eq] at hx
      rw [← hx, (contactOf_eq_some hwritten.inv.rowId hwritten.found).1]
      rfl
  | outbound tenantId fromNumber text replyToMessageId at_ extra draw =>
    simp only [step] at hstep
    split at hstep
    · cases hstep
    next hfree =>
    rw [Option.not_isSome_iff_eq_none] at hfree
    cases hstep
    unfold recordOutbound
    cases repo.findByExternalId tenantId CONTACT_KIND (contactExternalId fromNumber) with
    | none => exact ⟨hI, iff_of_true hT trivial⟩
    | some contact =>
      unfold recordActivity
      cases repo.findByExternalId tenantId ACTIVITY_KIND
          (activityExternalIdForMessage replyToMessageId "outbound") with
      | some existing => exact ⟨hI, iff_of_true hT trivial⟩
      | none =>
        have hin := fun x => isInboundOf_newActivity_outbound x tenantId contact.id text
          replyToMessageId "whatsapp_message" (at_.getD draw.now) extra draw
        refine ⟨hI.set rfl fun x hx => ?_, iff_of_true (fun t n d hd => ?_) trivial⟩
        · rw [hin] at hx
          cases hx
        · rw [contactOf_add_activity hfree rfl] at hd
          rw [inboundActivities_add hfree, hin, if_neg Bool.false_ne_true, List.append_nil]
          exact hT t n d hd

/-- **CRM recording counts a message once.** Along a run of `record_inbound` and `record_outbound`
from the empty store, every contact's `turn_count` is the number of its inbound activities in every
state, and recording a message again changes neither, exactly when no inbound message is recorded
again.

Both halves of the left side fail together. The call that repeats a message raises the counter and
adds no activity, so the state behind it is wrong, and the call did not leave things as they
were. -/
theorem turns_counted_iff (U : Unicode) (calls : List Call) :
    (EachState (step U) TurnsCounted Dict.empty calls ∧
      EachStep (step U) (RepeatKeeps U) Dict.empty calls) ↔
      EachStep (step U) FirstTime Dict.empty calls := by
  have hiff : EachState (step U) TurnsCounted Dict.empty calls ↔
      EachStep (step U) FirstTime Dict.empty calls :=
    eachState_iff_eachStep (fun _ _ _ hI hT hstep => (step_spec hI hT hstep).1)
      (fun _ _ _ hI hT hstep => (step_spec hI hT hstep).2) Inv.empty
      (fun _ _ _ h => by cases h)
  refine ⟨fun h => hiff.mp h.1, fun h => ⟨hiff.mpr h, h.mono fun repo call hfirst => ?_⟩⟩
  cases call with
  | inbound => exact fun hrecorded => absurd hrecorded hfirst
  | outbound => trivial

/-- Meta delivers one message twice. -/
def redelivery : List Call :=
  [.inbound "acme" "5491100" "hola" "wamid.1" (some "Ana") (some 0) ⟨0, "c1", 0, 0⟩ ⟨0, "a1", 0, 0⟩,
    .inbound "acme" "5491100" "hola" "wamid.1" (some "Ana") (some 0) ⟨1, "c2", 1, 1⟩
      ⟨1, "a2", 1, 1⟩]

/-- The contact then counts two turns and has one. -/
theorem not_turns_counted : ¬ ∀ (U : Unicode) (calls : List Call),
    EachState (step U) TurnsCounted Dict.empty calls ∧
      EachStep (step U) (RepeatKeeps U) Dict.empty calls := by
  intro h
  obtain ⟨hstates, -⟩ := h Unicode.ascii redelivery
  have hrun : ((run (step Unicode.ascii) Dict.empty redelivery).map fun repo =>
      (contactOf repo "acme" "5491100").map fun c =>
        ((c.data.getD "turn_count" .null).pyEq (.int 2), (inboundActivities repo c.id).length)) =
          some (some (true, 1)) := by
    decide
  obtain ⟨repo, hrepo, hfound⟩ := Option.map_eq_some_iff.mp hrun
  obtain ⟨c, hc, hpair⟩ := Option.map_eq_some_iff.mp hfound
  have hcount := hstates.last hrepo "acme" "5491100" c hc
  rw [Dict.getD, hcount, Option.getD_some, Prod.mk.injEq] at hpair
  obtain ⟨htwo, hone⟩ := hpair
  rw [hone] at htwo
  exact absurd htwo (by decide)

end Wapsell.Crm
