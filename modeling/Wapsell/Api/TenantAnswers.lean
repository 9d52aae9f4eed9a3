import Wapsell.Api.Parts

/-!
# What the tenant's users are answered

A request gets access to the tenant of its caller or to none: every route
of a tenant goes through one of two checks, and behind either stands the
tenant itself (`Asked.Gated`). So what a route reads is the part of the
stores that is the tenant's, and two states that hold the same of it
answer alike, route by route.

Two things are asked for. The slugs are without a colon, or one tenant's
conversations begin like another's; and the skills, which take the tenant
from the request body and check nothing, are called for the caller's own.
Neither is checked by the code.
-/

namespace Wapsell.Api.Routes

open Lib Py Agent Ingestion Inbox Memory Resources Skills

/-- The tenants are kept under their ids, and told apart by slugs without a colon. The code keeps
the first. A slug made by `slugify` has no colon; one from a request may have any character, and
nothing keeps two requests from taking the same. -/
structure Server.TellsTenants (S : Server) : Prop where
  keyed : S.tenants.Forall fun id tenant => tenant.id = id
  slugs : ∀ t ∈ S.tenants.values, ∀ t' ∈ S.tenants.values, t.slug = t'.slug → t.id = t'.id
  colonless : ∀ t ∈ S.tenants.values, ':' ∉ t.slug.toList

/-- The tenant whose user asks. -/
def Asked.tenantId? (a : Asked) : Option String := a.caller.bind User.tenantId

/-- No admin asks, and a skill that reads a store is called for the caller's tenant. The first is a
restriction to the dashboard's tenants, the second one the code ought to make and does not. -/
structure Asked.Allowed (U : Unicode) (a : Asked) : Prop where
  notAdmin : ∀ u, a.caller = some u → u.role ≠ .admin
  ownSkills : ∀ req, a.call = .invokeSkill req →
    req.skill = "catalog-lookup" ∨ req.skill = "resource-search" →
    (req.context.getD "tenant_id" .null).truthy = true →
    a.tenantId? = some ((req.context.getD "tenant_id" .null).toStr U)

section Access

variable {U : Unicode} {S : Server} {T : Tenant} {s t : Served} {a : Asked} {tenantId : String}

theorem Server.TellsTenants.get (hS : S.TellsTenants) (hT : T ∈ S.tenants.values) :
    S.tenants.get T.id = some T := by
  obtain ⟨id, hid⟩ := Dict.mem_values_iff.mp hT
  have hkey : T.id = id := hS.keyed id T hid
  rw [hkey]
  exact hid

/-- Two tenants with one id are one. -/
theorem Server.TellsTenants.eq_of_id (hS : S.TellsTenants) {t t' : Tenant}
    (ht : t ∈ S.tenants.values) (ht' : t' ∈ S.tenants.values) (h : t.id = t'.id) : t = t' := by
  have hget := hS.get ht
  rw [h, hS.get ht'] at hget
  exact (Option.some.inj hget).symm

/-- No conversation passes the guards of two tenants. -/
theorem Server.TellsTenants.guards (hS : S.TellsTenants) {tenant : Tenant}
    (htenant : tenant ∈ S.tenants.values) (hT : T ∈ S.tenants.values) (hne : tenant.id ≠ T.id)
    {buyerId : String} (hpass : passesGuard tenant buyerId = true) :
    passesGuard T buyerId = false := by
  by_contra hboth
  rw [Bool.not_eq_false] at hboth
  obtain ⟨rest, hrest⟩ := List.isPrefixOf_iff_prefix.mp hboth
  have hid : buyerId = buyerIdFor T.slug (String.ofList rest) := by
    rw [← String.toList_inj, toList_buyerIdFor, String.toList_ofList, ← hrest, String.toList_append,
      List.append_assoc]
    rfl
  rw [hid] at hpass
  have hslug := slug_eq_of_passesGuard (hS.colonless _ htenant) (hS.colonless _ hT) hpass
  exact hne (hS.slugs _ htenant _ hT hslug)

/-- Who gets past the check is of the tenant. -/
theorem Asked.Allowed.access (ha : a.Allowed U) {user : Option User}
    (h : assertTenantAccess true a.caller tenantId = .ok user) : a.tenantId? = some tenantId := by
  rw [Asked.tenantId?]
  cases hcaller : a.caller with
  | none =>
    rw [hcaller] at h
    cases h
  | some u =>
    rw [hcaller] at h
    change (if u.role = .admin then _ else if u.tenantId ≠ some tenantId then _ else _) = _ at h
    rw [if_neg (ha.notAdmin u hcaller)] at h
    by_cases hown : u.tenantId = some tenantId
    · exact hown
    · rw [if_pos hown] at h
      cases h

theorem Asked.Allowed.accessed (ha : a.Allowed U) (hauth : S.authRequired = true)
    (hS : S.TellsTenants) {tenant : Tenant}
    (h : accessedTenant (S.deployment s a.now) a.caller tenantId = .ok tenant) :
    tenant ∈ S.tenants.values ∧ tenant.id = tenantId ∧ a.tenantId? = some tenantId := by
  unfold accessedTenant at h
  cases huser : assertTenantAccess S.authRequired a.caller tenantId with
  | error e =>
    change (assertTenantAccess S.authRequired a.caller tenantId >>= _) = _ at h
    rw [huser] at h
    cases h
  | ok user =>
    change (assertTenantAccess S.authRequired a.caller tenantId >>= _) = _ at h
    rw [huser] at h
    change tenantOr404 S.tenants tenantId = .ok tenant at h
    rw [hauth] at huser
    unfold tenantOr404 at h
    cases hget : S.tenants.get tenantId with
    | none =>
      rw [hget] at h
      cases h
    | some found =>
      rw [hget] at h
      cases h
      exact ⟨Dict.mem_values_iff.mpr ⟨tenantId, hget⟩, hS.keyed _ _ hget, ha.access huser⟩

/-- Behind the checks of the routes is the tenant whose user asks, under its id as under its slug:
the two ways in which a path can name it. -/
structure Asked.Gated (S : Server) (a : Asked) : Prop where
  tenant : ∀ {s : Served} {tenantId : String} {tenant : Tenant},
    accessedTenant (S.deployment s a.now) a.caller tenantId = .ok tenant →
      tenant ∈ S.tenants.values ∧ tenant.id = tenantId ∧ a.tenantId? = some tenantId
  user : ∀ {tenantId : String} {user : Option User},
    assertTenantAccess S.authRequired a.caller tenantId = .ok user → a.tenantId? = some tenantId

theorem Asked.Allowed.gated (ha : a.Allowed U) (hauth : S.authRequired = true)
    (hS : S.TellsTenants) : a.Gated S where
  tenant := ha.accessed hauth hS
  user := by
    intro tenantId user huser
    rw [hauth] at huser
    exact ha.access huser

theorem tenantForConv_eq_ok_iff {E : Deployment Unit} {caller : Option User}
    {buyerId : String} {tenant : Tenant} : tenantForConv E caller tenantId buyerId = .ok tenant ↔
      accessedTenant E caller tenantId = .ok tenant ∧ passesGuard tenant buyerId = true := by
  unfold tenantForConv
  cases accessedTenant E caller tenantId with
  | error e => exact iff_of_false nofun fun h => nomatch h.1
  | ok found =>
    rw [bind_of_ok]
    split
    next hpass =>
      constructor
      · rintro ⟨⟩
        exact ⟨rfl, hpass⟩
      · rintro ⟨⟨⟩, -⟩
        rfl
    next hpass =>
      refine iff_of_false nofun ?_
      rintro ⟨⟨⟩, hpass'⟩
      exact hpass hpass'

/-- Behind the guard of the conversations too. -/
theorem Asked.Gated.conversation (hg : a.Gated S) {tenant : Tenant} {buyerId : String}
    (h : tenantForConv (S.deployment s a.now) a.caller tenantId buyerId = .ok tenant) :
    tenant ∈ S.tenants.values ∧ a.tenantId? = some tenant.id ∧ passesGuard tenant buyerId = true := by
  obtain ⟨haccess, hpass⟩ := tenantForConv_eq_ok_iff.mp h
  obtain ⟨hmem, rfl, hid⟩ := hg.tenant haccess
  exact ⟨hmem, hid, hpass⟩

end Access

/-! ## The answers to the tenant's users -/

section Answers

variable {U : Unicode} {S : Server} {T : Tenant} {s t : Served} {a : Asked} {tenantId : String}

/-- The checks let a request through for the tenant itself, by its own id. -/
structure Asked.Confined (S : Server) (T : Tenant) (a : Asked) : Prop where
  tenant : ∀ {s : Served} {tenantId : String} {tenant : Tenant},
    accessedTenant (S.deployment s a.now) a.caller tenantId = .ok tenant → tenantId = T.id ∧ tenant = T
  user : ∀ {tenantId : String} {user : Option User},
    assertTenantAccess S.authRequired a.caller tenantId = .ok user → tenantId = T.id

/-- The requests of the tenant's users are confined to it. -/
theorem Asked.Gated.confined (hg : a.Gated S) (hS : S.TellsTenants) (hT : T ∈ S.tenants.values)
    (hof : a.tenantId? = some T.id) : a.Confined S T where
  tenant := by
    intro s tenantId tenant h
    obtain ⟨hmem, hid, hcaller⟩ := hg.tenant h
    rw [hof] at hcaller
    cases hcaller
    exact ⟨rfl, hS.eq_of_id hmem hT hid⟩
  user := by
    intro tenantId user h
    have hcaller := hg.user h
    rw [hof] at hcaller
    exact (Option.some.inj hcaller).symm

theorem Asked.Confined.conversation (hc : a.Confined S T) {tenant : Tenant} {buyerId : String}
    (h : tenantForConv (S.deployment s a.now) a.caller tenantId buyerId = .ok tenant) :
    tenant = T ∧ passesGuard T buyerId = true := by
  obtain ⟨haccess, hpass⟩ := tenantForConv_eq_ok_iff.mp h
  obtain ⟨-, rfl⟩ := hc.tenant haccess
  exact ⟨rfl, hpass⟩

/-! ### The routes that read, one by one -/

/-- A request is answered alike in the two states. The answer is all of it, the status and the
body. -/
def AnswersAlike (U : Unicode) (S : Server) (a : Asked) (s t : Served) (q : Request Unit) : Prop :=
  answer U (S.deployment s a.now) s.data a.caller q =
    answer U (S.deployment t a.now) t.data a.caller q

theorem SameTo.listCatalogFacts (h : SameTo T s t) (hc : a.Confined S T) (tenantId : String) :
    AnswersAlike U S a s t (.listCatalogFacts tenantId) := by
  refine bind_congr_of_ok fun tenant htenant => ?_
  obtain ⟨rfl, rfl⟩ := hc.tenant htenant
  rw [h.facts]

theorem SameTo.listConversations (h : SameTo T s t) (hc : a.Confined S T) (tenantId : String) :
    AnswersAlike U S a s t (.listConversations tenantId) := by
  refine bind_congr_of_ok fun tenant htenant => ?_
  obtain ⟨rfl, rfl⟩ := hc.tenant htenant
  simp only [h.listThreads, h.pausedByBid]

theorem SameTo.getConversationThread (h : SameTo T s t) (hc : a.Confined S T)
    (tenantId buyerId : String) :
    AnswersAlike U S a s t (.getConversationThread tenantId buyerId) := by
  refine bind_congr_of_ok fun tenant htenant => ?_
  obtain ⟨rfl, hpass⟩ := hc.conversation htenant
  have hpause : (S.deployment s a.now).pauses.get? (tenant.id, buyerId) =
    (S.deployment t a.now).pauses.get? (tenant.id, buyerId) := h.pause buyerId
  rw [h.recall hpass, hpause]
  rfl

theorem SameTo.getAnalytics (h : SameTo T s t) (hc : a.Confined S T) (tenantId : String)
    (days : Int) : AnswersAlike U S a s t (.getAnalytics tenantId days) := by
  refine bind_congr_of_ok fun tenant htenant => ?_
  obtain ⟨rfl, rfl⟩ := hc.tenant htenant
  rw [h.threadsOf]
  rfl

theorem SameTo.listResources (h : SameTo T s t) (hc : a.Confined S T) (tenantId : String)
    (kind : Option String) (limit : Int) :
    AnswersAlike U S a s t (.listResources tenantId kind limit) := by
  refine bind_congr_of_ok fun tenant htenant => ?_
  obtain ⟨rfl, rfl⟩ := hc.tenant htenant
  rw [h.listFor]

/-- The insights read the log of the searches as well, and of that no ids. -/
theorem SameTo.getLearningInsights (h : SameTo T s t) (hc : a.Confined S T)
    (hs : Recorded s.queryLog) (ht : Recorded t.queryLog) (tenantId : String)
    (kind : Option String) (sampleSize days topN : Int) :
    AnswersAlike U S a s t (.getLearningInsights tenantId kind sampleSize days topN) := by
  refine bind_congr_of_ok fun tenant htenant => ?_
  obtain ⟨rfl, rfl⟩ := hc.tenant htenant
  dsimp only [Server.deployment]
  rw [h.insights hs ht, h.renderSoulHints hs ht]

theorem SameTo.listCrmContacts (h : SameTo T s t) (hc : a.Confined S T) (tenantId : String)
    (limit : Int) : AnswersAlike U S a s t (.listCrmContacts tenantId limit) := by
  refine bind_congr_of_ok fun tenant htenant => ?_
  obtain ⟨rfl, rfl⟩ := hc.tenant htenant
  rw [h.listFor]

theorem SameTo.contactOr404 (h : SameTo T s t) (contactId : String) :
    contactOr404 s.data T.id contactId = contactOr404 t.data T.id contactId :=
  h.ownedOr404 contactId (some "contact") "contact not found"

theorem SameTo.loadTaskResource (h : SameTo T s t) (taskId : String) :
    loadTaskResource s.data T.id taskId = loadTaskResource t.data T.id taskId :=
  h.ownedOr404 taskId (some "task") "task not found"

theorem SameTo.linkedTo (h : SameTo T s t) (kind contactId : String) :
    linkedTo s.data T.id kind contactId = linkedTo t.data T.id kind contactId := by
  rw [Routes.linkedTo, Routes.linkedTo, h.listFor]

theorem SameTo.getCrmContact (h : SameTo T s t) (hc : a.Confined S T)
    (tenantId contactId : String) : AnswersAlike U S a s t (.getCrmContact tenantId contactId) := by
  refine bind_congr_of_ok fun user huser => ?_
  obtain rfl := hc.user huser
  rw [h.contactOr404]

theorem SameTo.listCrmActivities (h : SameTo T s t) (hc : a.Confined S T)
    (tenantId contactId : String) (limit : Int) :
    AnswersAlike U S a s t (.listCrmActivities tenantId contactId limit) := by
  refine bind_congr_of_ok fun user huser => ?_
  obtain rfl := hc.user huser
  rw [h.contactOr404, h.linkedTo]

theorem SameTo.getCrmContactByPhone (h : SameTo T s t) (hc : a.Confined S T)
    (tenantId fromNumber : String) :
    AnswersAlike U S a s t (.getCrmContactByPhone tenantId fromNumber) := by
  refine bind_congr_of_ok fun user huser => ?_
  obtain rfl := hc.user huser
  rw [h.findByExternalId]

theorem SameTo.listCrmTasksForContact (h : SameTo T s t) (hc : a.Confined S T)
    (tenantId contactId : String) (limit : Int) :
    AnswersAlike U S a s t (.listCrmTasksForContact tenantId contactId limit) := by
  refine bind_congr_of_ok fun user huser => ?_
  obtain rfl := hc.user huser
  rw [h.contactOr404, h.linkedTo]

theorem SameTo.listCrmTasksForTenant (h : SameTo T s t) (hc : a.Confined S T) (tenantId : String)
    (status : Option String) (limit : Int) :
    AnswersAlike U S a s t (.listCrmTasksForTenant tenantId status limit) := by
  refine bind_congr_of_ok fun tenant htenant => ?_
  obtain ⟨rfl, rfl⟩ := hc.tenant htenant
  dsimp only
  rw [h.listFor]

/-- The routes that write nothing. -/
theorem SameTo.reads (h : SameTo T s t) (hc : a.Confined S T) (hs : Recorded s.queryLog)
    (ht : Recorded t.queryLog) {q : Request Unit} (only : q.OnlyReads) :
    AnswersAlike U S a s t q := by
  cases q with
  | listCatalogFacts tenantId => exact h.listCatalogFacts hc tenantId
  | listConversations tenantId => exact h.listConversations hc tenantId
  | getConversationThread tenantId buyerId => exact h.getConversationThread hc tenantId buyerId
  | getAnalytics tenantId days => exact h.getAnalytics hc tenantId days
  | listResources tenantId kind limit => exact h.listResources hc tenantId kind limit
  | getLearningInsights tenantId kind sampleSize days topN =>
    exact h.getLearningInsights hc hs ht tenantId kind sampleSize days topN
  | listCrmContacts tenantId limit => exact h.listCrmContacts hc tenantId limit
  | getCrmContact tenantId contactId => exact h.getCrmContact hc tenantId contactId
  | listCrmActivities tenantId contactId limit => exact h.listCrmActivities hc tenantId contactId limit
  | getCrmContactByPhone tenantId fromNumber => exact h.getCrmContactByPhone hc tenantId fromNumber
  | listCrmTasksForContact tenantId contactId limit =>
    exact h.listCrmTasksForContact hc tenantId contactId limit
  | listCrmTasksForTenant tenantId status limit =>
    exact h.listCrmTasksForTenant hc tenantId status limit
  | _ => exact only.elim

/-! ### The routes that read and write -/

theorem SameTo.searchResources (h : SameTo T s t) (hc : a.Confined S T) (tenantId : String)
    (req : ResourceSearchRequest) : AnswersAlike U S a s t (.searchResources tenantId req) := by
  refine bind_congr_of_ok fun tenant htenant => ?_
  obtain ⟨rfl, rfl⟩ := hc.tenant htenant
  rw [h.search]

theorem SameTo.deleteResource (h : SameTo T s t) (hc : a.Confined S T)
    (tenantId resourceId : String) :
    AnswersAlike U S a s t (.deleteResource tenantId resourceId) := by
  refine bind_congr_of_ok fun user huser => ?_
  obtain rfl := hc.user huser
  rw [h.ownedOr404]

theorem SameTo.patchCrmTask (h : SameTo T s t) (hc : a.Confined S T) (tenantId taskId : String)
    (req : TaskPatchRequest) : AnswersAlike U S a s t (.patchCrmTask tenantId taskId req) := by
  refine bind_congr_of_ok fun user huser => ?_
  obtain rfl := hc.user huser
  rw [h.loadTaskResource]
  rfl

theorem SameTo.deleteCrmTask (h : SameTo T s t) (hc : a.Confined S T) (tenantId taskId : String) :
    AnswersAlike U S a s t (.deleteCrmTask tenantId taskId) := by
  refine bind_congr_of_ok fun user huser => ?_
  obtain rfl := hc.user huser
  rw [h.loadTaskResource]

/-- A search is made for the tenant that the context names. -/
theorem tenant_of_searchCall {context params : Dict String Json} {call : SearchCall}
    (h : searchCall U context params = .ok (.ok call)) :
    (context.getD "tenant_id" .null).truthy = true ∧
      call.tenantId = (context.getD "tenant_id" .null).toStr U := by
  unfold searchCall at h
  dsimp only at h
  by_cases htruthy : (context.getD "tenant_id" .null).truthy = false
  · rw [if_pos htruthy] at h
    cases h
  · rw [if_neg htruthy] at h
    split at h
    · cases h
    · obtain ⟨query, -, h⟩ := bind_eq_ok.mp h
      obtain ⟨limit, -, h⟩ := bind_eq_ok.mp h
      cases h
      exact ⟨Bool.not_eq_false _ ▸ htruthy, rfl⟩

/-- A skill called for the tenant reads the tenant's part. -/
theorem SameTo.invoke (h : SameTo T s t) (storeless : Storeless) {name : String}
    {context params : Dict String Json}
    (hnamed : name = "catalog-lookup" ∨ name = "resource-search" →
      (context.getD "tenant_id" .null).truthy = true →
      (context.getD "tenant_id" .null).toStr U = T.id) :
    invoke U storeless s.data.facts s.data.resources name context params =
      invoke U storeless t.data.facts t.data.resources name context params := by
  have hlookup : name = "catalog-lookup" → catalogLookup U s.data.facts context params =
      catalogLookup U t.data.facts context params := by
    intro hname
    unfold catalogLookup
    refine bind_congr_of_ok fun text _ => ?_
    dsimp only
    split_ifs with hempty htruthy
    · rfl
    · rfl
    · rw [hnamed (.inl hname) (Bool.not_eq_false _ ▸ htruthy)]
      simp only [h.query]
  have hsearch : name = "resource-search" → resourceSearch U s.data.resources context params =
      resourceSearch U t.data.resources context params := by
    intro hname
    unfold resourceSearch
    refine bind_congr_of_ok fun result hresult => ?_
    cases result with
    | error error => rfl
    | ok call =>
      obtain ⟨htruthy, htenant⟩ := tenant_of_searchCall hresult
      dsimp only
      rw [htenant, hnamed (.inr hname) htruthy, h.search]
  unfold Skills.invoke
  split_ifs with hname _ _ hname
  · exact hlookup hname
  · rfl
  · rfl
  · exact hsearch hname
  · rfl

/-- A skill is not checked; that it is called for the tenant is what the request brings along. -/
theorem SameTo.invokeSkill (h : SameTo T s t) (ha : a.Allowed U) (hof : a.tenantId? = some T.id)
    {req : SkillRequest} (hcall : a.call = .invokeSkill req) :
    AnswersAlike U S a s t (.invokeSkill req) := by
  show Routes.invokeSkill U _ s.data req = Routes.invokeSkill U _ t.data req
  rw [Routes.invokeSkill, Routes.invokeSkill, h.invoke _ fun hname htruthy => ?_]
  · rfl
  · have hid := ha.ownSkills req hcall hname htruthy
    rw [hof] at hid
    exact (Option.some.inj hid).symm

/-- **The tenant's users are answered alike** in states that hold the same of the tenant. What the
other routes answer depends on no store.

The two states may differ in everything that is not the tenant's: other tenants' facts, rows,
conversations, pauses, and the entries of the log between its own. -/
theorem SameTo.answer (h : SameTo T s t) (ha : a.Allowed U) (hauth : S.authRequired = true)
    (hS : S.TellsTenants) (hT : T ∈ S.tenants.values) (hof : a.tenantId? = some T.id)
    (hs : Recorded s.queryLog) (ht : Recorded t.queryLog) :
    AnswersAlike U S a s t a.call.request := by
  have hc : a.Confined S T := (ha.gated hauth hS).confined hS hT hof
  cases hcall : a.call with
  | reads q only => exact h.reads hc hs ht only
  | searchResources tenantId req buyerId => exact h.searchResources hc tenantId req
  | deleteResource tenantId resourceId => exact h.deleteResource hc tenantId resourceId
  | patchCrmTask tenantId taskId req => exact h.patchCrmTask hc tenantId taskId req
  | deleteCrmTask tenantId taskId => exact h.deleteCrmTask hc tenantId taskId
  | invokeSkill req => exact h.invokeSkill ha hof hcall
  | _ => rfl

end Answers

end Wapsell.Api.Routes
