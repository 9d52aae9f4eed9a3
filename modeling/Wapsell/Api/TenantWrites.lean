import Wapsell.Api.TenantAnswers

/-!
# What the tenant's users write

Route by route, each write of a call is for the tenant whose user calls:
the facts, rows, pauses and log entries carry its id, the turns are of a
conversation that its guard passes, and a row that is replaced or deleted
was the tenant's already. A new row is the one case in which the code looks
at no row before, so its id is to be one that no row has.

From this follow the two things the whole runs need: the tenant's own
writes fall within its part, and all others fall beside it.

There is a lemma for each route, and a call is settled by the lemma of
its route, so a route that is changed in the source touches its own
lemma and no other.
-/

namespace Wapsell.Api.Routes

open Lib Py Agent Ingestion Inbox Memory Resources Skills

/-! ## The writes of a call -/

/-- The id that the route draws for a row. -/
def Asked.drawn? (a : Asked) : Option String :=
  match a.call with
  | .createResource _ _ id => some id
  | _ => none

/-- A write to what belongs to the tenant; a new row has the drawn id. It is made of the state it is
made in, since a delete names an id and not an owner. -/
def Write.For (S : Server) (drawn : Option String) (tenantId : String) (s : Served) : Write → Prop
  | .fact f => f.tenantId = tenantId
  | .upsert row => row.tenantId = tenantId ∧
    (drawn = some row.id ∧ s.data.resources.get row.id = none ∨
      ∃ old, s.data.resources.get row.id = some old ∧ old.tenantId = tenantId)
  | .delete id => ∃ old, s.data.resources.get id = some old ∧ old.tenantId = tenantId
  | .remember buyerId _ =>
    ∃ tenant ∈ S.tenants.values, tenant.id = tenantId ∧ passesGuard tenant buyerId = true
  | .pause id .. | .resume id _ => id = tenantId
  | .record entry => entry.tenantId = tenantId

/-- Each write where it is made. A call may write several times, and the state of the second write
is the one the first has left. -/
def Along (P : Served → Write → Prop) (maxItems : Nat) : Served → List Write → Prop
  | _, [] => True
  | s, w :: ws => P s w ∧ Along P maxItems (s.apply maxItems w) ws

section Writes

variable {U : Unicode} {S : Server} {T : Tenant} {s t : Served} {a : Asked} {tenantId : String}
  {P : Served → Write → Prop} {maxItems : Nat} {ws : List Write}

theorem Along.mono {Q : Served → Write → Prop} (hPQ : ∀ {s w}, P s w → Q s w) :
    ∀ {ws : List Write} {s : Served}, Along P maxItems s ws → Along Q maxItems s ws
  | [], _, _ => trivial
  | _ :: _, _, ⟨hw, hws⟩ => ⟨hPQ hw, hws.mono hPQ⟩

theorem along_of_forall : ∀ {ws : List Write} {s : Served}, (∀ w ∈ ws, ∀ s, P s w) →
    Along P maxItems s ws
  | [], _, _ => trivial
  | w :: _, s, h =>
    ⟨h w List.mem_cons_self s, along_of_forall fun w' hw' => h w' (List.mem_cons_of_mem _ hw')⟩

theorem ok_of_bind {α β : Type} {x : Except HTTPException α} {f : α → Except HTTPException β} {b : β}
    (h : (x >>= f) = .ok b) : ∃ a, x = .ok a ∧ f a = .ok b := by
  cases x with
  | error e => cases h
  | ok a => exact ⟨a, rfl, h⟩

theorem ownedOr404_eq_ok {D : TenantData} {id detail : String} {kind : Option String} {r : Resource}
    (h : ownedOr404 D tenantId id kind detail = .ok r) :
    D.resources.get id = some r ∧ r.tenantId = tenantId := by
  unfold ownedOr404 at h
  cases hget : D.resources.get id with
  | none =>
    rw [hget] at h
    cases h
  | some found =>
    rw [hget] at h
    dsimp only at h
    split at h
    next hboth =>
      cases h
      exact ⟨rfl, hboth.1⟩
    next => cases h

/-- The writes are for the tenant whose user calls, each where it is made. -/
def Asked.WritesOwn (S : Server) (a : Asked) (s : Served) (ws : List Write) : Prop :=
  Along (fun s w => ∃ id, a.tenantId? = some id ∧ w.For S a.drawn? id s) S.maxItems s ws

theorem ingestWrites_own (hg : a.Gated S) (tenantId source : String) (facts : List CatalogFactIn) :
    a.WritesOwn S s (ingestWrites tenantId source facts
      (Routes.ingestCatalogFacts (S.deployment s a.now) a.caller tenantId
        (facts.map (·.draw.id)))) := by
  unfold ingestWrites
  split
  next body hbody =>
    obtain ⟨tenant, htenant, -⟩ := ok_of_bind hbody
    refine along_of_forall fun w hw s => ?_
    obtain ⟨f, -, rfl⟩ := List.mem_map.mp hw
    exact ⟨tenantId, (hg.tenant htenant).2.2, rfl⟩
  next => trivial

/-- The pause and the turn of a human reply are the tenant's that the guard let through, whatever
the answer was. -/
theorem sendHumanMessageWrites_own (hg : a.Gated S) (tenantId buyerId : String)
    (req : SendMessageRequest) (outcome : Answer) :
    a.WritesOwn S s (sendHumanMessageWrites a.now buyerId req
      (tenantForConv (S.deployment s a.now) a.caller tenantId buyerId) outcome) := by
  unfold sendHumanMessageWrites
  split
  next _ tenant out htenant =>
    obtain ⟨hmem, hid, hpass⟩ := hg.conversation htenant
    refine along_of_forall fun w hw s => ⟨tenant.id, hid, ?_⟩
    rcases List.mem_append.mp hw with hpause | hturn
    · obtain ⟨until_, -, rfl⟩ := Option.mem_map.mp (Option.mem_toList.mp hpause)
      exact rfl
    · cases List.mem_singleton.mp hturn
      exact ⟨tenant, hmem, rfl, hpass⟩
  next => trivial

theorem pauseWrites_own (hg : a.Gated S) (tenantId buyerId : String) (outcome : Answer) :
    a.WritesOwn S s (pauseWrites buyerId
      (tenantForConv (S.deployment s a.now) a.caller tenantId buyerId) outcome) := by
  unfold pauseWrites
  split
  next tenant until_ htenant => exact ⟨⟨_, (hg.conversation htenant).2.1, rfl⟩, trivial⟩
  next tenant htenant => exact ⟨⟨_, (hg.conversation htenant).2.1, rfl⟩, trivial⟩
  next => trivial

/-- The id of a new row is drawn, so no row of another tenant is replaced. -/
theorem createWrites_own (hg : a.Gated S) (tenantId : String) (req : ResourceCreate) {id : String}
    (hdrawn : a.drawn? = some id) (hunused : s.data.resources.get id = none) :
    a.WritesOwn S s (createWrites
      (Routes.createResource U (S.deployment s a.now) a.caller tenantId req id)) := by
  unfold createWrites
  split
  next row hrow =>
    obtain ⟨tenant, htenant, hrow⟩ := ok_of_bind hrow
    cases hrow
    exact ⟨⟨tenantId, (hg.tenant htenant).2.2, rfl, .inl ⟨hdrawn, hunused⟩⟩, trivial⟩
  next => trivial

theorem searchWrites_own (hg : a.Gated S) (tenantId : String) (req : ResourceSearchRequest)
    (buyerId : Option String) : a.WritesOwn S s (searchWrites a.now tenantId req buyerId
      (Routes.searchResources U (S.deployment s a.now) s.data a.caller tenantId req)) := by
  unfold searchWrites
  split
  next rows hrows =>
    obtain ⟨tenant, htenant, -⟩ := ok_of_bind hrows
    exact ⟨⟨tenantId, (hg.tenant htenant).2.2, rfl⟩, trivial⟩
  next => trivial

/-- Both routes that delete look at whose the row is first. -/
theorem deleteWrites_own (hg : a.Gated S) (tenantId id : String) (kind : Option String)
    (detail : String) : a.WritesOwn S s (deleteWrites id (do
      let _ ← assertTenantAccess S.authRequired a.caller tenantId
      let _ ← ownedOr404 s.data tenantId id kind detail
      .ok .noContent)) := by
  unfold deleteWrites
  split
  next body hbody =>
    obtain ⟨user, huser, hbody⟩ := ok_of_bind hbody
    obtain ⟨row, hrow, -⟩ := ok_of_bind hbody
    obtain ⟨hget, hof⟩ := ownedOr404_eq_ok hrow
    exact ⟨⟨tenantId, hg.user huser, row, hget, hof⟩, trivial⟩
  next => trivial

/-- The row that a PATCH edits is stored, and the tenant's. -/
theorem stored_of_editedTask (hg : a.Gated S) (hrows : RowIds s.data.resources) {taskId : String}
    {req : TaskPatchRequest} {row : Resource} {rest : Dict String Json × TaskPatch.Sliced}
    (h : TaskPatch.editedTask S.authRequired a.caller s.data.resources tenantId taskId req =
      .ok (row, rest)) :
    a.tenantId? = some tenantId ∧ row.tenantId = tenantId ∧
      s.data.resources.get row.id = some row := by
  obtain ⟨user, huser, h⟩ := ok_of_bind h
  obtain ⟨found, hfound, h⟩ := ok_of_bind h
  obtain ⟨data, -, h⟩ := ok_of_bind h
  obtain ⟨sliced, -, h⟩ := ok_of_bind h
  cases h
  obtain ⟨hget, hof⟩ := ownedOr404_eq_ok hfound
  have hid : row.id = taskId := hrows taskId row hget
  rw [hid]
  exact ⟨hg.user huser, hof, hget⟩

theorem patchWrites_own (hg : a.Gated S) (hrows : RowIds s.data.resources)
    (tenantId taskId : String) (req : TaskPatchRequest) :
    a.WritesOwn S s (patchWrites S s a.caller a.now tenantId taskId req) := by
  unfold patchWrites
  split
  next => trivial
  next row data summary hedited =>
    obtain ⟨hid, hof, hget⟩ := stored_of_editedTask hg hrows hedited
    exact ⟨⟨tenantId, hid, hof, .inr ⟨row, hget, hof⟩⟩, trivial⟩
  next row data items hedited =>
    obtain ⟨hid, hof, hget⟩ := stored_of_editedTask hg hrows hedited
    exact ⟨⟨tenantId, hid, hof, .inr ⟨row, hget, hof⟩⟩, trivial⟩

/-- The search of a skill is logged for the tenant of its context. -/
theorem invokeSkillWrites_own (ha : a.Allowed U) {req : SkillRequest}
    (hcall : a.call = .invokeSkill req) : a.WritesOwn S s (invokeSkillWrites U s a.now req) := by
  unfold invokeSkillWrites
  split
  next hname =>
    split
    next call hsearch =>
      obtain ⟨htruthy, htenant⟩ := tenant_of_searchCall hsearch
      split
      next hits buyerId _ _ =>
        exact ⟨⟨_, ha.ownSkills req hcall (.inr hname) htruthy, htenant⟩, trivial⟩
      next => trivial
    next => trivial
  next => trivial

/-- **The writes of a call** are for the tenant whose user calls.

One case for each route that writes; the cases are the lemmas above. The other routes write
nothing. -/
theorem writes_for (ha : a.Allowed U) (hauth : S.authRequired = true) (hS : S.TellsTenants)
    (hrows : RowIds s.data.resources)
    (hunused : ∀ id, a.drawn? = some id → s.data.resources.get id = none) :
    a.WritesOwn S s (writes U S s a.caller a.now a.call) := by
  have hg : a.Gated S := ha.gated hauth hS
  cases hcall : a.call with
  | reads q only => trivial
  | ingestCatalogFacts tenantId source facts => exact ingestWrites_own hg tenantId source facts
  | sendHumanMessage tenantId buyerId req sent =>
    exact sendHumanMessageWrites_own hg tenantId buyerId req _
  | pauseBot tenantId buyerId hours => exact pauseWrites_own hg tenantId buyerId _
  | resumeBot tenantId buyerId => exact pauseWrites_own hg tenantId buyerId _
  | createResource tenantId req id =>
    have hdrawn : a.drawn? = some id := by
      rw [Asked.drawn?, hcall]
    exact createWrites_own hg tenantId req hdrawn (hunused id hdrawn)
  | searchResources tenantId req buyerId => exact searchWrites_own hg tenantId req buyerId
  | deleteResource tenantId id => exact deleteWrites_own hg tenantId id none "resource not found"
  | deleteCrmTask tenantId id => exact deleteWrites_own hg tenantId id (some "task") "task not found"
  | patchCrmTask tenantId taskId req => exact patchWrites_own hg hrows tenantId taskId req
  | invokeSkill req => exact invokeSkillWrites_own ha hcall

/-- The tenant's own users write within its part. -/
theorem Write.For.within (hS : S.TellsTenants) (hT : T ∈ S.tenants.values) {drawn : Option String}
    {w : Write} (h : w.For S drawn T.id s) : w.Within T s := by
  cases w with
  | fact | pause | resume | record => exact h
  | delete => trivial
  | upsert row =>
    refine ⟨h.1, fun old hold => ?_⟩
    rcases h.2 with ⟨-, hnone⟩ | ⟨old', hold', hof⟩
    · rw [hnone] at hold
      cases hold
    · rw [hold'] at hold
      cases hold
      exact hof
  | remember buyerId turn =>
    obtain ⟨tenant, htenant, hid, hpass⟩ := h
    rw [hS.eq_of_id htenant hT hid] at hpass
    exact hpass

/-- All others write beside it. -/
theorem Write.For.beside (hS : S.TellsTenants) (hT : T ∈ S.tenants.values) {drawn : Option String}
    {w : Write} (hne : tenantId ≠ T.id) (h : w.For S drawn tenantId s) : w.Beside T s := by
  cases w with
  | fact f => exact fun hof => hne (h.symm.trans hof)
  | pause | resume => exact fun hof => hne (h.symm.trans hof)
  | record entry => exact fun hof => hne (h.symm.trans hof)
  | delete id =>
    obtain ⟨old', hold', hof⟩ := h
    intro old hold hT'
    rw [hold'] at hold
    cases hold
    exact hne (hof.symm.trans hT')
  | upsert row =>
    refine ⟨fun hof => hne (h.1.symm.trans hof), fun old hold hT' => ?_⟩
    rcases h.2 with ⟨-, hnone⟩ | ⟨old', hold', hof⟩
    · rw [hnone] at hold
      cases hold
    · rw [hold'] at hold
      cases hold
      exact hne (hof.symm.trans hT')
  | remember buyerId turn =>
    obtain ⟨tenant, htenant, rfl, hpass⟩ := h
    exact hS.guards htenant hT hne hpass

theorem rowIds_apply (h : RowIds s.data.resources) (w : Write) :
    RowIds (s.apply maxItems w).data.resources := by
  cases w with
  | upsert row => exact h.upsert row
  | delete id => exact Dict.Forall.erase h id
  | fact | remember | pause | resume | record => exact h

theorem recorded_apply (h : Recorded s.queryLog) (w : Write) :
    Recorded (s.apply maxItems w).queryLog := by
  cases w with
  | record entry => exact h.record entry
  | fact | upsert | delete | remember | pause | resume => exact h

/-- Writes within the part, in two states that hold the same of it. -/
theorem SameTo.applyAll : ∀ {ws : List Write} {s t : Served}, SameTo T s t →
    RowIds s.data.resources → RowIds t.data.resources → Along (fun s w => w.Within T s) maxItems s ws →
    Along (fun s w => w.Within T s) maxItems t ws →
    SameTo T (ws.foldl (Served.apply maxItems) s) (ws.foldl (Served.apply maxItems) t)
  | [], _, _, h, _, _, _, _ => h
  | w :: _, _, _, h, hs, ht, ⟨hw, hws⟩, ⟨hw', hws'⟩ =>
    (h.apply hs ht hw hw').applyAll (rowIds_apply hs w) (rowIds_apply ht w) hws hws'

/-- Writes beside the part. -/
theorem sameTo_applyAll : ∀ {ws : List Write} {s : Served}, RowIds s.data.resources →
    Along (fun s w => w.Beside T s) maxItems s ws →
    SameTo T (ws.foldl (Served.apply maxItems) s) s
  | [], s, _, _ => .refl T s
  | w :: _, _, hs, ⟨hw, hws⟩ => (sameTo_applyAll (rowIds_apply hs w) hws).trans (sameTo_apply hs hw)

/-- An id that is not drawn stays unused. -/
theorem unused_applyAll {id : String} {drawn : Option String} (hid : drawn ≠ some id) :
    ∀ {ws : List Write} {s : Served}, RowIds s.data.resources → s.data.resources.get id = none →
      Along (fun s w => ∃ tenantId, w.For S drawn tenantId s) maxItems s ws →
      (ws.foldl (Served.apply maxItems) s).data.resources.get id = none
  | [], _, _, h, _ => h
  | w :: ws, s, hs, h, ⟨⟨_, hw⟩, hws⟩ => by
    have hstep : (s.apply maxItems w).data.resources.get id = none := by
      cases w with
      | fact | remember | pause | resume | record => exact h
      | delete other =>
        show (Dict.erase s.data.resources other).get? id = none
        rw [Dict.get?_erase, show s.data.resources.get? id = none from h, ite_self]
      | upsert row =>
        have hne : id ≠ row.id := by
          rintro rfl
          rcases hw.2 with ⟨hdrawn, -⟩ | ⟨old, hold, -⟩
          · exact hid hdrawn
          · rw [h] at hold
            cases hold
        have hget := Repository.get?_upsert_ne hs hne
        rw [show s.data.resources.get? id = none from h] at hget
        exact hget
    rw [List.foldl_cons]
    exact unused_applyAll hid (rowIds_apply hs w) hstep hws

theorem SameTo.patchWrites (h : SameTo T s t) (hc : a.Confined S T) (tenantId taskId : String)
    (req : TaskPatchRequest) : patchWrites S s a.caller a.now tenantId taskId req =
      patchWrites S t a.caller a.now tenantId taskId req := by
  have hedited : TaskPatch.editedTask S.authRequired a.caller s.data.resources tenantId taskId req =
      TaskPatch.editedTask S.authRequired a.caller t.data.resources tenantId taskId req := by
    refine bind_congr_of_ok fun user huser => ?_
    obtain rfl := hc.user huser
    have hload : Routes.loadTaskResource { resources := s.data.resources } T.id taskId =
      Routes.loadTaskResource { resources := t.data.resources } T.id taskId := h.loadTaskResource taskId
    rw [hload]
  rw [Routes.patchWrites, Routes.patchWrites, hedited]

theorem SameTo.invokeSkillWrites (h : SameTo T s t) (ha : a.Allowed U)
    (hof : a.tenantId? = some T.id) {req : SkillRequest} (hcall : a.call = .invokeSkill req) :
    invokeSkillWrites U s a.now req = invokeSkillWrites U t a.now req := by
  unfold Routes.invokeSkillWrites
  split
  next hname =>
    split
    next call hsearch =>
      obtain ⟨htruthy, htenant⟩ := tenant_of_searchCall hsearch
      have hid := ha.ownSkills req hcall (.inr hname) htruthy
      rw [hof] at hid
      rw [htenant, ← Option.some.inj hid, h.search]
    next => rfl
  next => rfl

/-- The tenant's users write alike in states that hold the same of the tenant. -/
theorem SameTo.writes (h : SameTo T s t) (ha : a.Allowed U) (hauth : S.authRequired = true)
    (hS : S.TellsTenants) (hT : T ∈ S.tenants.values) (hof : a.tenantId? = some T.id)
    (hs : Recorded s.queryLog) (ht : Recorded t.queryLog) :
    writes U S s a.caller a.now a.call = writes U S t a.caller a.now a.call := by
  have hc : a.Confined S T := (ha.gated hauth hS).confined hS hT hof
  have hanswer : Routes.answer U (S.deployment s a.now) s.data a.caller a.call.request =
    Routes.answer U (S.deployment t a.now) t.data a.caller a.call.request :=
    h.answer ha hauth hS hT hof hs ht
  unfold Routes.writes
  dsimp only
  rw [hanswer]
  cases hcall : a.call with
  | patchCrmTask tenantId taskId req => exact h.patchWrites hc tenantId taskId req
  | invokeSkill req => exact h.invokeSkillWrites ha hof hcall
  | _ => rfl

end Writes

end Wapsell.Api.Routes
