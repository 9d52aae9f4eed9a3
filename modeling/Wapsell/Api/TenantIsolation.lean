import Wapsell.Agent.TenantIsolation
import Wapsell.Api.Routes
import Wapsell.Lib.Select
import Wapsell.Memory.Threads
import Wapsell.Skills.Scope

/-!
# What the routes tell an outsider

Two runs of one request, over data that differs in what belongs to one
tenant. The access check stands at the head of every route of a tenant, and
behind it most routes read the rows of the tenant in the path alone. The
conversations are kept by a slug and a number, which the inbox reads back by
a prefix. The skills take the tenant from the body, behind no check.

Obliviousness is asked of the answer and not of the log or the time it
takes. Both directions are proved by hand, route by route; for a request
that is not confined two stores are built that it tells apart, one of
them with a single conversation or a single row of the tenant.

**What this does not establish.** Admins, who may read everything, are
no outsiders. What a request writes for another tenant is not looked at
here; the module on the tenants alone does that for whole runs.
-/

namespace Wapsell.Api.Routes

open Lib Py Agent Ingestion Memory Resources Skills

/-- The ids of a tenant's conversations, with these numbers. -/
def conversationsOf (tenant : Tenant) (numbers : Set String) : Set String :=
  { buyerId | ∃ n ∈ numbers, buyerId = buyerIdFor tenant.slug n }

open Classical in
/-- The same data, but for the facts, the resources and the conversations of a tenant. What is not
the tenant's is the same in the same order, so a listing of it is the same list. -/
structure SameBut (B : Tenant) (numbers : Set String) (D D' : TenantData) : Prop where
  facts : D.facts.filter (fun f => f.tenantId ≠ B.id) =
    D'.facts.filter (fun f => f.tenantId ≠ B.id)
  resources : D.resources.entries.filter (fun e => e.2.tenantId ≠ B.id) =
    D'.resources.entries.filter (fun e => e.2.tenantId ≠ B.id)
  memory : D.memory.entries.filter (fun e => e.1 ∉ conversationsOf B numbers) =
    D'.memory.entries.filter (fun e => e.1 ∉ conversationsOf B numbers)

/-- No session, or that of a user of another tenant. -/
def Outsider (caller : Option User) (B : Tenant) : Prop :=
  ∀ user, caller = some user → user.role ≠ .admin ∧ user.tenantId ≠ some B.id

section Reads

variable {B : Tenant} {numbers : Set String} {D D' : TenantData} {tenantId : String}

theorem SameBut.symm (h : SameBut B numbers D D') : SameBut B numbers D' D :=
  ⟨h.facts.symm, h.resources.symm, h.memory.symm⟩

theorem SameBut.allFor (h : SameBut B numbers D D') (hne : tenantId ≠ B.id) :
    D.facts.allFor tenantId = D'.facts.allFor tenantId := by
  have hof : ∀ facts : Hindsight, facts.allFor tenantId =
      (facts.filter fun f => f.tenantId ≠ B.id).filter fun f => f.tenantId = tenantId := by
    intro facts
    rw [List.filter_filter, Hindsight.allFor]
    refine List.filter_congr fun f _ => ?_
    by_cases hf : f.tenantId = tenantId
    · simp [hf, hne]
    · simp [hf]
  rw [hof, hof, h.facts]

theorem SameBut.query (h : SameBut B numbers D D') (hne : tenantId ≠ B.id) (U : Unicode)
    (text : String) (topK : Int) :
    D.facts.query U text (some tenantId) topK = D'.facts.query U text (some tenantId) topK := by
  rw [query_eq_of_allFor, h.allFor hne, ← query_eq_of_allFor]

theorem SameBut.resourcesOf (h : SameBut B numbers D D') (hne : tenantId ≠ B.id) :
    resourcesOf D.resources tenantId = resourcesOf D'.resources tenantId := by
  have hof : ∀ repo : Repository, Agent.resourcesOf repo tenantId =
      ((repo.entries.filter fun e => e.2.tenantId ≠ B.id).map Prod.snd).filter
        fun r => r.tenantId = tenantId := by
    intro repo
    rw [Agent.resourcesOf, Dict.values, List.filter_map, List.filter_map, List.filter_filter]
    refine congrArg _ (List.filter_congr fun e _ => ?_)
    by_cases he : e.2.tenantId = tenantId
    · simp [he, hne]
    · simp [he]
  rw [hof, hof, h.resources]

theorem SameBut.listFor (h : SameBut B numbers D D') (hne : tenantId ≠ B.id)
    (kind : Option String) (limit : Int) :
    D.resources.listFor tenantId kind limit = D'.resources.listFor tenantId kind limit := by
  rw [listFor_eq_of_resourcesOf, h.resourcesOf hne, ← listFor_eq_of_resourcesOf]

theorem SameBut.search (h : SameBut B numbers D D') (hne : tenantId ≠ B.id) (U : Unicode)
    (filters : Dict String Json) (queryText kind : Option String) (limit : Int) :
    D.resources.search U tenantId filters queryText kind limit =
      D'.resources.search U tenantId filters queryText kind limit := by
  rw [Repository.search, Repository.search, h.listFor hne]

theorem SameBut.insights (h : SameBut B numbers D D') (hne : tenantId ≠ B.id) (U : Unicode)
    (queryLog : List QueryLogEntry) (now : Datetime) (kind : Option String)
    (sampleSize days topN : Int) :
    insights U D.resources queryLog tenantId now kind sampleSize days topN =
      insights U D'.resources queryLog tenantId now kind sampleSize days topN := by
  simp only [Resources.insights, discoverSchema, h.listFor hne]

theorem SameBut.renderSoulHints (h : SameBut B numbers D D') (hne : tenantId ≠ B.id) (U : Unicode)
    (queryLog : List QueryLogEntry) (now : Datetime) (kind : Option String) :
    renderSoulHints U D.resources queryLog tenantId now kind =
      renderSoulHints U D'.resources queryLog tenantId now kind := by
  simp only [Resources.renderSoulHints, h.insights hne]

theorem SameBut.findByExternalId (h : SameBut B numbers D D') (hne : tenantId ≠ B.id)
    (kind externalId : String) :
    D.resources.findByExternalId tenantId kind externalId =
      D'.resources.findByExternalId tenantId kind externalId := by
  have hof : ∀ repo : Repository, repo.findByExternalId tenantId kind externalId =
      (Agent.resourcesOf repo tenantId).find? fun r =>
        r.kind = kind ∧ r.externalId = some externalId := by
    intro repo
    rw [Repository.findByExternalId, Agent.resourcesOf, List.find?_filter]
    refine congrArg (fun p => List.find? p repo.values) (funext fun r => ?_)
    rw [Bool.eq_iff_iff]
    simp
  rw [hof, hof, h.resourcesOf hne]

/-- The row of another tenant is no different from none. -/
theorem SameBut.ownedOr404 (h : SameBut B numbers D D') (hne : tenantId ≠ B.id) (id : String)
    (kind : Option String) (detail : String) :
    ownedOr404 D tenantId id kind detail = ownedOr404 D' tenantId id kind detail := by
  have hrow : ∀ {D D' : TenantData}, SameBut B numbers D D' → ∀ {r},
      D.resources.get id = some r → r.tenantId = tenantId → D'.resources.get id = some r := by
    intro D D' h r hr hof
    exact Dict.get?_of_filter_eq h.resources hr (decide_eq_true (by rw [hof]; exact hne))
  have habsent : ∀ {D : TenantData}, (∀ r, D.resources.get id = some r → r.tenantId ≠ tenantId) →
      Routes.ownedOr404 D tenantId id kind detail = .error ⟨404, detail⟩ := by
    intro D hno
    unfold Routes.ownedOr404
    cases hr : D.resources.get id with
    | none => rfl
    | some r => exact if_neg fun hboth => hno r hr hboth.1
  by_cases hex : ∃ r, D.resources.get id = some r ∧ r.tenantId = tenantId
  · obtain ⟨r, hr, hof⟩ := hex
    rw [Routes.ownedOr404, Routes.ownedOr404, hr, hrow h hr hof]
  · rw [habsent fun r hr hof => hex ⟨r, hr, hof⟩,
      habsent fun r hr hof => hex ⟨r, hrow h.symm hr hof, hof⟩]

open Classical in
/-- What is recalled of a conversation that is not the tenant's. -/
theorem SameBut.recall (h : SameBut B numbers D D') {buyerId : String}
    (hnot : buyerId ∉ conversationsOf B numbers) :
    D.memory.recall_ buyerId none = D'.memory.recall_ buyerId none := by
  have hget : D.memory.get? buyerId = D'.memory.get? buyerId := by
    refine Option.ext fun bucket => ⟨fun hb => ?_, fun hb => ?_⟩
    · exact Dict.get?_of_filter_eq h.memory hb (decide_eq_true hnot)
    · exact Dict.get?_of_filter_eq h.memory.symm hb (decide_eq_true hnot)
  show (D.memory.get? buyerId).getD [] = (D'.memory.get? buyerId).getD []
  rw [hget]

/-- No conversation of the one tenant has the other's prefix. -/
def Apart (tenant B : Tenant) (numbers : Set String) : Prop :=
  ∀ n ∈ numbers, passesGuard tenant (buyerIdFor B.slug n) = false

theorem Apart.not_mem {tenant : Tenant} (h : Apart tenant B numbers) {buyerId : String}
    (hpass : passesGuard tenant buyerId = true) : buyerId ∉ conversationsOf B numbers := by
  rintro ⟨n, hn, rfl⟩
  rw [h n hn] at hpass
  cases hpass

open Classical in
theorem SameBut.listThreads (h : SameBut B numbers D D') {tenant : Tenant}
    (hapart : Apart tenant B numbers) (limit : Int) :
    D.memory.listThreads (some (tenant.slug ++ ":")) limit =
      D'.memory.listThreads (some (tenant.slug ++ ":")) limit := by
  have hof : ∀ memory : BuyerMemory,
      memory.entries.filterMap (summaryOfBucket (some (tenant.slug ++ ":"))) =
        (memory.entries.filter fun e => e.1 ∉ conversationsOf B numbers).filterMap
          (summaryOfBucket (some (tenant.slug ++ ":"))) := by
    intro memory
    rw [List.filterMap_filter]
    refine List.filterMap_congr fun e _ => ?_
    by_cases he : e.1 ∈ conversationsOf B numbers
    · have hpass : hasPrefix (some (tenant.slug ++ ":")) e.1 = false := by
        by_contra hpass
        exact hapart.not_mem (Bool.not_eq_false _ ▸ hpass) he
      simp [he, summaryOfBucket, hpass]
    · simp [he]
  rw [BuyerMemory.listThreads, BuyerMemory.listThreads, hof, hof D'.memory, h.memory]

theorem SameBut.threadsOf (h : SameBut B numbers D D') {tenant : Tenant}
    (hapart : Apart tenant B numbers) :
    threadsOf D.memory (tenant.slug ++ ":") = threadsOf D'.memory (tenant.slug ++ ":") := by
  rw [Api.threadsOf, Api.threadsOf, h.listThreads hapart]
  refine List.map_congr_left fun thread hthread => ?_
  have hpass := BuyerMemory.startsWith_of_mem_listThreads hthread
  rw [h.recall (hapart.not_mem hpass)]

end Reads

/-! ## The access check -/

section Access

variable {ρ : Type} {E : Deployment ρ} {B : Tenant} {caller : Option User} {tenantId : String}

/-- The check turns an outsider away from the tenant. -/
theorem Outsider.ne_of_access (hout : Outsider caller B) {user : Option User}
    (h : assertTenantAccess true caller tenantId = .ok user) : tenantId ≠ B.id := by
  cases caller with
  | none => cases h
  | some u =>
    obtain ⟨hrole, htenant⟩ := hout u rfl
    change (if u.role = .admin then _ else if u.tenantId ≠ some tenantId then _ else _) = _ at h
    rw [if_neg hrole] at h
    by_cases hown : u.tenantId = some tenantId
    · rintro rfl
      exact htenant hown
    · rw [if_pos hown] at h
      cases h

/-- Behind the check the route is not about the tenant. -/
theorem Outsider.access_congr (hout : Outsider caller B) (hauth : E.authRequired = true)
    {f g : Option User → Answer} (h : tenantId ≠ B.id → ∀ user, f user = g user) :
    (assertTenantAccess E.authRequired caller tenantId >>= f) =
      (assertTenantAccess E.authRequired caller tenantId >>= g) := by
  refine bind_congr_of_ok fun user huser => ?_
  rw [hauth] at huser
  exact h (hout.ne_of_access huser) user

/-- Nor behind the check and the look at the tenant. -/
theorem Outsider.accessed_congr (hout : Outsider caller B) (hauth : E.authRequired = true)
    {f g : Tenant → Answer}
    (h : tenantId ≠ B.id → ∀ tenant, accessedTenant E caller tenantId = .ok tenant →
      f tenant = g tenant) :
    (accessedTenant E caller tenantId >>= f) = (accessedTenant E caller tenantId >>= g) := by
  refine bind_congr_of_ok fun tenant htenant => h ?_ tenant htenant
  unfold accessedTenant at htenant
  cases huser : assertTenantAccess E.authRequired caller tenantId with
  | error e =>
    rw [huser] at htenant
    cases htenant
  | ok user =>
    rw [hauth] at huser
    exact hout.ne_of_access huser

end Access

/-! ## Requests -/

variable {ρ : Type}

/-- The answer does not tell what the tenant has. -/
def Oblivious (U : Unicode) (E : Deployment ρ) (B : Tenant) (numbers : Set String)
    (caller : Option User) (q : Request ρ) : Prop :=
  ∀ D D', SameBut B numbers D D' → answer U E D caller q = answer U E D' caller q

/-- An inbox the caller may open is apart from the tenant's conversations, and a skill is not called
for the tenant. Every other request is confined as it is. -/
def Confined (U : Unicode) (E : Deployment ρ) (B : Tenant) (numbers : Set String)
    (caller : Option User) : Request ρ → Prop
  | .listConversations tenantId =>
    ∀ tenant, accessedTenant E caller tenantId = .ok tenant → Apart tenant B numbers
  | .getConversationThread tenantId buyerId =>
    ∀ tenant, tenantForConv E caller tenantId buyerId = .ok tenant →
      buyerId ∉ conversationsOf B numbers
  | .getAnalytics tenantId days =>
    0 < days → days ≤ ANALYTICS_MAX_DAYS → E.now.subDays days ≠ none →
      ∀ tenant, accessedTenant E caller tenantId = .ok tenant → Apart tenant B numbers
  | .invokeSkill req => ¬ Reads U B.id req.context req.params req.skill
  | _ => True

section Requests

variable {U : Unicode} {E : Deployment ρ} {B : Tenant} {numbers : Set String}
  {caller : Option User}

/-- Confined requests are answered alike, route by route. -/
theorem oblivious_of_confined (hauth : E.authRequired = true) (hout : Outsider caller B)
    {q : Request ρ} (h : Confined U E B numbers caller q) : Oblivious U E B numbers caller q := by
  intro D D' hsame
  cases q with
  | ingestCatalogFacts | sendHumanMessage | pauseBot | resumeBot | createResource | elsewhere => rfl
  | listCatalogFacts tenantId =>
    refine hout.accessed_congr hauth fun hne _ _ => ?_
    rw [hsame.allFor hne]
  | listConversations tenantId =>
    refine bind_congr_of_ok fun tenant htenant => ?_
    dsimp only
    rw [hsame.listThreads (h tenant htenant)]
  | getConversationThread tenantId buyerId =>
    refine bind_congr_of_ok fun tenant htenant => ?_
    rw [hsame.recall (h tenant htenant)]
  | getAnalytics tenantId days =>
    refine bind_congr_of_ok fun tenant htenant => ?_
    by_cases hdays : days ≤ 0 ∨ ANALYTICS_MAX_DAYS < days
    · rw [if_pos hdays, if_pos hdays]
    rw [if_neg hdays, if_neg hdays]
    rw [not_or, not_le, not_lt] at hdays
    cases hsince : E.now.subDays days with
    | none => rfl
    | some since =>
      have hapart := h hdays.1 hdays.2 (by rw [hsince]; exact nofun) tenant htenant
      dsimp only
      rw [hsame.threadsOf hapart]
  | listResources tenantId kind limit =>
    refine hout.accessed_congr hauth fun hne _ _ => ?_
    rw [hsame.listFor hne]
  | searchResources tenantId req =>
    refine hout.accessed_congr hauth fun hne _ _ => ?_
    rw [hsame.search hne]
  | deleteResource tenantId resourceId =>
    refine hout.access_congr hauth fun hne _ => ?_
    rw [hsame.ownedOr404 hne]
  | getLearningInsights tenantId kind sampleSize days topN =>
    refine hout.accessed_congr hauth fun hne _ _ => ?_
    rw [hsame.insights hne, hsame.renderSoulHints hne]
  | listCrmContacts tenantId limit =>
    refine hout.accessed_congr hauth fun hne _ _ => ?_
    rw [hsame.listFor hne]
  | getCrmContact tenantId contactId =>
    refine hout.access_congr hauth fun hne _ => ?_
    rw [contactOr404, contactOr404, hsame.ownedOr404 hne]
  | listCrmActivities tenantId contactId limit =>
    refine hout.access_congr hauth fun hne _ => ?_
    rw [contactOr404, contactOr404, hsame.ownedOr404 hne, linkedTo, linkedTo, hsame.listFor hne]
  | getCrmContactByPhone tenantId fromNumber =>
    refine hout.access_congr hauth fun hne _ => ?_
    rw [hsame.findByExternalId hne]
  | listCrmTasksForContact tenantId contactId limit =>
    refine hout.access_congr hauth fun hne _ => ?_
    rw [contactOr404, contactOr404, hsame.ownedOr404 hne, linkedTo, linkedTo, hsame.listFor hne]
  | listCrmTasksForTenant tenantId status limit =>
    refine hout.accessed_congr hauth fun hne _ _ => ?_
    dsimp only
    rw [hsame.listFor hne]
  | patchCrmTask tenantId taskId req =>
    refine hout.access_congr hauth fun hne _ => ?_
    rw [loadTaskResource, loadTaskResource, hsame.ownedOr404 hne]
  | deleteCrmTask tenantId taskId =>
    refine hout.access_congr hauth fun hne _ => ?_
    rw [loadTaskResource, loadTaskResource, hsame.ownedOr404 hne]
  | invokeSkill req =>
    show invokeSkill U E D req = invokeSkill U E D' req
    rw [invokeSkill, invokeSkill, invoke_congr (fun _ hne => hsame.query hne U)
      (fun _ hne => hsame.search hne U) h]

/-! ## Requests that are not confined -/

/-- One conversation, of one message. -/
def oneConversation (buyerId : String) (now : Datetime) : TenantData where
  memory := Dict.empty.set buyerId [{ text := "hola", at_ := now }]

open Classical in
theorem sameBut_oneConversation {buyerId : String} (h : buyerId ∈ conversationsOf B numbers)
    (now : Datetime) : SameBut B numbers (oneConversation buyerId now) {} := by
  refine ⟨rfl, rfl, ?_⟩
  rw [List.filter_eq_nil_iff.mpr fun e he => ?_]
  · rfl
  · rw [List.mem_singleton.mp he, decide_eq_true_iff]
    exact not_not_intro h

theorem listThreads_oneConversation {tenant : Tenant} {buyerId : String}
    (hpass : passesGuard tenant buyerId = true) (now : Datetime) :
    (oneConversation buyerId now).memory.listThreads (some (tenant.slug ++ ":")) 100 =
      [{ buyerId, messageCount := 1, lastAt := now, lastText := preview "hola" }] := by
  have hbucket : summaryOfBucket (some (tenant.slug ++ ":"))
      (buyerId, [{ text := "hola", at_ := now }]) =
        some ⟨buyerId, 1, now, preview "hola"⟩ := by
    rw [summaryOfBucket, if_pos (show hasPrefix (some _) buyerId = true from hpass)]
    rfl
  have hentries : (oneConversation buyerId now).memory.entries =
      [(buyerId, [{ text := "hola", at_ := now }])] := rfl
  rw [BuyerMemory.listThreads, hentries, List.filterMap_cons_some hbucket]
  rfl

theorem recall_oneConversation (buyerId : String) (now : Datetime) :
    (oneConversation buyerId now).memory.recall_ buyerId none =
      [{ text := "hola", at_ := now }] := by
  show ((Dict.set _ buyerId _).get? buyerId).getD [] = _
  rw [Dict.get?_set_self]
  rfl

/-- The message is in the window. -/
theorem messagesTotal_oneConversation {tenant : Tenant} {buyerId : String}
    (hpass : passesGuard tenant buyerId = true) {since now : Datetime} (hsince : since ≤ now)
    (days : Int) :
    (analyticsOf since now days
      (threadsOf (oneConversation buyerId now).memory (tenant.slug ++ ":"))).messagesTotal = 1 := by
  rw [threadsOf, listThreads_oneConversation hpass, List.map_singleton, recall_oneConversation]
  show (countTurn since buyerId ({}, none) { text := "hola", at_ := now }).1.messagesBuyer +
    (countTurn since buyerId ({}, none) { text := "hola", at_ := now }).1.messagesAgent = 1
  rw [countTurn, if_neg (not_lt.mpr hsince)]
  rfl

theorem le_of_subDays {now since : Datetime} {days : Int} (hdays : 0 < days)
    (h : now.subDays days = some since) : since ≤ now := by
  rw [Datetime.subDays, Datetime.shift] at h
  split_ifs at h
  cases h
  have hday : 0 ≤ days * Datetime.day := mul_nonneg hdays.le (by decide)
  exact add_le_of_nonpos_right (neg_nonpos.mpr hday)

/-- The answer with a body is the result of the skill. -/
theorem invokeSkill_eq_ok_iff {D : TenantData} {req : SkillRequest} {body : Json} :
    invokeSkill U E D req = .ok (.json body) ↔
      (invoke U E.storeless D.facts D.resources req.skill req.context req.params).map
        SkillResult.toJson = .ok body := by
  unfold invokeSkill
  cases invoke U E.storeless D.facts D.resources req.skill req.context req.params with
  | error e => exact ⟨nofun, nofun⟩
  | ok result =>
    constructor
    · intro h
      exact congrArg Except.ok (Body.json.inj (Except.ok.inj h))
    · intro h
      exact congrArg (fun body => Except.ok (Body.json body)) (Except.ok.inj h)

theorem not_reads_of_oblivious {req : SkillRequest}
    (h : Oblivious U E B numbers caller (.invokeSkill req)) :
    ¬ Reads U B.id req.context req.params req.skill := by
  intro hreads
  obtain ⟨facts, repo, body, hfacts, hrepo, hempty, hsome⟩ := hreads.tells E.storeless
  have hbut : SameBut B numbers { facts, resources := repo } {} := by
    refine ⟨List.filter_eq_nil_iff.mpr fun f hf => ?_, List.filter_eq_nil_iff.mpr fun e he => ?_,
      rfl⟩
    · rw [hfacts f hf]
      simp
    · rw [hrepo e he]
      simp
  have hsame : invokeSkill U E { facts, resources := repo } req = invokeSkill U E {} req :=
    h _ _ hbut
  have hnone : invokeSkill U E {} req = .ok (.json body) := invokeSkill_eq_ok_iff.mpr hempty
  have hjson := invokeSkill_eq_ok_iff.mp (hsame.trans hnone)
  exact hsome hjson

/-- A request that is not confined tells the tenant's data from none. -/
theorem confined_of_oblivious {q : Request ρ} (h : Oblivious U E B numbers caller q) :
    Confined U E B numbers caller q := by
  cases q with
  | listConversations tenantId =>
    intro tenant htenant n hn
    by_contra hpass
    rw [Bool.not_eq_false] at hpass
    have hsame : listConversations E _ caller tenantId = listConversations E _ caller tenantId :=
      h _ _ (sameBut_oneConversation ⟨n, hn, rfl⟩ 0)
    rw [listConversations, listConversations, htenant, bind_of_ok, bind_of_ok] at hsame
    dsimp only at hsame
    rw [listThreads_oneConversation hpass] at hsame
    exact List.cons_ne_nil _ _ (Body.threads.inj (Except.ok.inj hsame))
  | getConversationThread tenantId buyerId =>
    intro tenant htenant hmem
    have hsame : getConversationThread E _ caller tenantId buyerId =
        getConversationThread E _ caller tenantId buyerId :=
      h _ _ (sameBut_oneConversation hmem 0)
    rw [getConversationThread, getConversationThread, htenant, bind_of_ok, bind_of_ok] at hsame
    dsimp only at hsame
    rw [recall_oneConversation] at hsame
    exact List.cons_ne_nil _ _ (Body.thread.inj (Except.ok.inj hsame)).1
  | getAnalytics tenantId days =>
    intro hpos hmax hsince tenant htenant n hn
    by_contra hpass
    rw [Bool.not_eq_false] at hpass
    obtain ⟨since, hsince⟩ := Option.ne_none_iff_exists'.mp hsince
    have hsame : getAnalytics E _ caller tenantId days = getAnalytics E _ caller tenantId days :=
      h _ _ (sameBut_oneConversation ⟨n, hn, rfl⟩ E.now)
    rw [getAnalytics, getAnalytics, htenant, bind_of_ok, bind_of_ok] at hsame
    dsimp only at hsame
    have hdays : ¬ (days ≤ 0 ∨ ANALYTICS_MAX_DAYS < days) := by
      rw [not_or, not_le, not_lt]
      exact ⟨hpos, hmax⟩
    rw [if_neg hdays, if_neg hdays, hsince] at hsame
    have htotal := congrArg AnalyticsOut.messagesTotal (Body.analytics.inj (Except.ok.inj hsame))
    rw [messagesTotal_oneConversation hpass (le_of_subDays hpos hsince)] at htotal
    exact absurd htotal Nat.one_ne_zero
  | invokeSkill req =>
    exact not_reads_of_oblivious h
  | _ => trivial

/-- **What the routes tell an outsider.** A request with no session, or of another tenant's user, is
answered alike over any two stores that differ in the tenant's data alone exactly when it opens no
inbox whose prefix takes in the tenant's conversations and calls no skill for the tenant. The
condition is read off the request and the list of tenants; no store is in it. -/
theorem oblivious_iff_confined (hauth : E.authRequired = true) (hout : Outsider caller B)
    (q : Request ρ) : Oblivious U E B numbers caller q ↔ Confined U E B numbers caller q :=
  ⟨confined_of_oblivious, oblivious_of_confined hauth hout⟩

end Requests

/-! ## Two shops -/

/-- The tenant of the data. -/
def boutique : Tenant where
  id := "t2"
  name := "Boutique"
  slug := "boutique"
  createdAt := 0

/-- A deployment of two tenants, with access control. -/
def shops : Deployment Unit where
  authRequired := true
  tenants := Tenants.Repository.add (Tenants.Repository.add Dict.empty bazaar) boutique
  pauses := Dict.empty
  queryLog := []
  storeless := ⟨fun _ _ => .ok (.ok []), fun _ _ => .ok (.ok [])⟩
  now := 0
  others := ()

/-- A user of the other tenant. -/
def clerk : User where
  id := "u1"
  email := "clerk"
  passwordHash := ""
  tenantId := some "t1"
  createdAt := 0

/-- A lookup in the catalog of the boutique. -/
def silkLookup : Request Unit :=
  .invokeSkill
    { skill := "catalog-lookup", context := Dict.empty.set "tenant_id" (.str "t2")
      params := Dict.empty.set "query" (.str "silk") }

/-- A fact of that catalog. -/
def silkScarf : Fact where
  id := "f1"
  tenantId := "t2"
  source := "catalog.csv"
  content := "silk scarf"
  createdAt := 0

/-- How many matches an answer shows. -/
def matchCount : Answer → Nat
  | .ok (.json (.obj (("matches", .arr found) :: _))) => found.length
  | _ => 0

/-- The clerk's own conversations do not tell what the boutique has. -/
theorem oblivious_shops :
    Oblivious Unicode.ascii shops boutique phoneNumbers (some clerk) (.listConversations "t1") := by
  refine (oblivious_iff_confined rfl (fun _ h => by cases h; decide) (.listConversations "t1")).mpr ?_
  intro tenant htenant n _
  obtain rfl : bazaar = tenant := Except.ok.inj htenant
  by_contra hpass
  rw [Bool.not_eq_false] at hpass
  exact absurd (slug_eq_of_passesGuard (by decide) (by decide) hpass) (by decide)

/-- With no session, the lookup shows the scarf where the boutique has it. -/
theorem not_oblivious : ¬ ∀ (U : Unicode) (E : Deployment Unit) (B : Tenant)
    (caller : Option User) (q : Request Unit), E.authRequired = true → B ∈ E.tenants.values →
      Outsider caller B → Oblivious U E B phoneNumbers caller q := by
  intro h
  have hsame := h Unicode.ascii shops boutique none silkLookup rfl (by decide) nofun
    { facts := [silkScarf] } {} ⟨rfl, rfl, rfl⟩
  have hcount := congrArg matchCount hsame
  revert hcount
  decide

end Wapsell.Api.Routes
