import Wapsell.Api.TenantIsolation
import Wapsell.Api.Writes
import Wapsell.Lib.Part

/-!
# The part of a tenant

What the stores hold of one tenant: the facts, rows, pauses and searches
with its id, and the conversations its guard lets through. What the routes
read of it depends on it alone, and each write either falls within it, and
makes of it what it would in any other state, or leaves it as it is.

The conversations have no tenant of their own in the store: whose they
are is said by the guard of the inbox, a prefix of the buyer id. So the
part is defined by what the tenant may open and not by what was written
for it, and that the two coincide is a matter of the slugs.

**What this does not establish.** That parts of two tenants do not
overlap; for the conversations that needs slugs without a colon.
-/

namespace Wapsell.Api.Routes

open Lib Py Agent Ingestion Inbox Memory Resources Skills

/-- A resource of the tenant. -/
def isRowOf (tenantId : String) (e : String × Resource) : Bool := e.2.tenantId = tenantId

/-- A conversation that the guard lets the tenant see. -/
def isThreadOf (tenant : Tenant) (e : String × List BuyerInteraction) : Bool :=
  passesGuard tenant e.1

/-- A pause of the tenant. -/
def isPauseOf (tenantId : String) (e : (String × String) × BotPause) : Bool := e.1.1 = tenantId

/-- Two states of the stores that hold the same of a tenant. The log is compared without its ids,
which are counted over all tenants and which no route shows. -/
structure SameTo (T : Tenant) (s t : Served) : Prop where
  facts : s.data.facts.allFor T.id = t.data.facts.allFor T.id
  resources : s.data.resources.part (isRowOf T.id) = t.data.resources.part (isRowOf T.id)
  memory : s.data.memory.part (isThreadOf T) = t.data.memory.part (isThreadOf T)
  pauses : s.pauses.part (isPauseOf T.id) = t.pauses.part (isPauseOf T.id)
  queryLog : (ofTenant s.queryLog T.id).map QueryLogEntry.withoutId =
    (ofTenant t.queryLog T.id).map QueryLogEntry.withoutId

section Reads

variable {T : Tenant} {s t u : Served}

theorem SameTo.refl (T : Tenant) (s : Served) : SameTo T s s := ⟨rfl, rfl, rfl, rfl, rfl⟩

theorem SameTo.trans (h : SameTo T s t) (h' : SameTo T t u) : SameTo T s u :=
  ⟨h.facts.trans h'.facts, h.resources.trans h'.resources, h.memory.trans h'.memory,
    h.pauses.trans h'.pauses, h.queryLog.trans h'.queryLog⟩

theorem SameTo.symm (h : SameTo T s t) : SameTo T t s :=
  ⟨h.facts.symm, h.resources.symm, h.memory.symm, h.pauses.symm, h.queryLog.symm⟩

theorem resourcesOf_eq_part (repo : Repository) (tenantId : String) :
    resourcesOf repo tenantId = (repo.part (isRowOf tenantId)).map Prod.snd := by
  rw [resourcesOf, Dict.values, List.filter_map, Dict.part]
  rfl

theorem SameTo.resourcesOf (h : SameTo T s t) :
    resourcesOf s.data.resources T.id = resourcesOf t.data.resources T.id := by
  rw [resourcesOf_eq_part, h.resources, ← resourcesOf_eq_part]

theorem SameTo.query (h : SameTo T s t) (U : Unicode) (text : String) (topK : Int) :
    s.data.facts.query U text (some T.id) topK = t.data.facts.query U text (some T.id) topK := by
  rw [query_eq_of_allFor, h.facts, ← query_eq_of_allFor]

theorem SameTo.listFor (h : SameTo T s t) (kind : Option String) (limit : Int) :
    s.data.resources.listFor T.id kind limit = t.data.resources.listFor T.id kind limit := by
  rw [listFor_eq_of_resourcesOf, h.resourcesOf, ← listFor_eq_of_resourcesOf]

theorem SameTo.search (h : SameTo T s t) (U : Unicode) (filters : Dict String Json)
    (queryText kind : Option String) (limit : Int) :
    s.data.resources.search U T.id filters queryText kind limit =
      t.data.resources.search U T.id filters queryText kind limit := by
  rw [Repository.search, Repository.search, h.listFor]

theorem SameTo.insights (h : SameTo T s t) (hs : Recorded s.queryLog) (ht : Recorded t.queryLog)
    (U : Unicode) (now : Datetime) (kind : Option String) (sampleSize days topN : Int) :
    insights U s.data.resources s.queryLog T.id now kind sampleSize days topN =
      insights U t.data.resources t.queryLog T.id now kind sampleSize days topN := by
  have hrecent := listRecent_withoutId hs ht h.queryLog 500
  simp only [Resources.insights, discoverSchema, h.listFor, topFilterKeys_congr hrecent]

theorem SameTo.renderSoulHints (h : SameTo T s t) (hs : Recorded s.queryLog)
    (ht : Recorded t.queryLog) (U : Unicode) (now : Datetime) (kind : Option String) :
    renderSoulHints U s.data.resources s.queryLog T.id now kind =
      renderSoulHints U t.data.resources t.queryLog T.id now kind := by
  rw [Resources.renderSoulHints, Resources.renderSoulHints, h.insights hs ht]

/-- `find_by_external_id` looks at the tenant's resources. -/
theorem findByExternalId_eq_of_resourcesOf (repo : Repository) (tenantId kind externalId : String) :
    repo.findByExternalId tenantId kind externalId = (Agent.resourcesOf repo tenantId).find? fun r =>
      r.kind = kind ∧ r.externalId = some externalId := by
  rw [Repository.findByExternalId, Agent.resourcesOf, List.find?_filter]
  refine congrArg (fun p => List.find? p repo.values) (funext fun r => ?_)
  rw [Bool.eq_iff_iff]
  simp

theorem SameTo.findByExternalId (h : SameTo T s t) (kind externalId : String) :
    s.data.resources.findByExternalId T.id kind externalId =
      t.data.resources.findByExternalId T.id kind externalId := by
  rw [findByExternalId_eq_of_resourcesOf, h.resourcesOf, ← findByExternalId_eq_of_resourcesOf]

theorem SameTo.get (h : SameTo T s t) {id : String} {r : Resource}
    (hr : s.data.resources.get id = some r) (hof : r.tenantId = T.id) :
    t.data.resources.get id = some r :=
  Dict.get?_of_part_eq h.resources hr (decide_eq_true hof)

/-- A row that is not there or another tenant's is not found. -/
theorem ownedOr404_eq_error {D : TenantData} {tenantId id detail : String} {kind : Option String}
    (hno : ∀ r, D.resources.get id = some r → r.tenantId ≠ tenantId) :
    ownedOr404 D tenantId id kind detail = .error ⟨404, detail⟩ := by
  unfold ownedOr404
  cases hr : D.resources.get id with
  | none => rfl
  | some r => exact if_neg fun hboth => hno r hr hboth.1

theorem SameTo.ownedOr404 (h : SameTo T s t) (id : String) (kind : Option String)
    (detail : String) :
    ownedOr404 s.data T.id id kind detail = ownedOr404 t.data T.id id kind detail := by
  by_cases hex : ∃ r, s.data.resources.get id = some r ∧ r.tenantId = T.id
  · obtain ⟨r, hr, hof⟩ := hex
    rw [Routes.ownedOr404, Routes.ownedOr404, hr, h.get hr hof]
  · rw [ownedOr404_eq_error fun r hr hof => hex ⟨r, hr, hof⟩,
      ownedOr404_eq_error fun r hr hof => hex ⟨r, h.symm.get hr hof, hof⟩]

/-- What is kept of a conversation that the tenant sees. -/
theorem SameTo.bucket (h : SameTo T s t) {buyerId : String} (hpass : passesGuard T buyerId = true) :
    s.data.memory.get? buyerId = t.data.memory.get? buyerId := by
  refine Option.ext fun bucket => ⟨fun hb => ?_, fun hb => ?_⟩
  · exact Dict.get?_of_part_eq h.memory hb hpass
  · exact Dict.get?_of_part_eq h.memory.symm hb hpass

theorem SameTo.recall (h : SameTo T s t) {buyerId : String} (hpass : passesGuard T buyerId = true) :
    s.data.memory.recall_ buyerId none = t.data.memory.recall_ buyerId none := by
  show (s.data.memory.get? buyerId).getD [] = (t.data.memory.get? buyerId).getD []
  rw [h.bucket hpass]

theorem SameTo.listThreads (h : SameTo T s t) (limit : Int) :
    s.data.memory.listThreads (some (T.slug ++ ":")) limit =
      t.data.memory.listThreads (some (T.slug ++ ":")) limit := by
  have hof : ∀ memory : BuyerMemory,
      memory.entries.filterMap (summaryOfBucket (some (T.slug ++ ":"))) =
        (memory.part (isThreadOf T)).filterMap (summaryOfBucket (some (T.slug ++ ":"))) := by
    intro memory
    rw [Dict.part, List.filterMap_filter]
    refine List.filterMap_congr fun e _ => ?_
    cases hpass : isThreadOf T e with
    | true => rfl
    | false =>
      have hpre : hasPrefix (some (T.slug ++ ":")) e.1 = false := hpass
      rw [summaryOfBucket, hpre]
      rfl
  rw [BuyerMemory.listThreads, BuyerMemory.listThreads, hof, hof t.data.memory, h.memory]

theorem SameTo.threadsOf (h : SameTo T s t) :
    threadsOf s.data.memory (T.slug ++ ":") = threadsOf t.data.memory (T.slug ++ ":") := by
  rw [Api.threadsOf, Api.threadsOf, h.listThreads]
  refine List.map_congr_left fun thread hthread => ?_
  rw [h.recall (BuyerMemory.startsWith_of_mem_listThreads hthread)]

theorem SameTo.pause (h : SameTo T s t) (buyerId : String) :
    s.pauses.get? (T.id, buyerId) = t.pauses.get? (T.id, buyerId) := by
  refine Option.ext fun pause => ⟨fun hp => ?_, fun hp => ?_⟩
  · exact Dict.get?_of_part_eq h.pauses hp (decide_eq_true rfl)
  · exact Dict.get?_of_part_eq h.pauses.symm hp (decide_eq_true rfl)

theorem SameTo.pausedByBid (h : SameTo T s t) (S : Server) (now : Datetime) :
    pausedByBid (S.deployment s now) T.id = pausedByBid (S.deployment t now) T.id := by
  have hof : ∀ pauses : Pauses,
      (pauses.entries.filter fun e => e.1.1 = T.id ∧ now < e.2.pausedUntil) =
        (pauses.part (isPauseOf T.id)).filter fun e => now < e.2.pausedUntil := by
    intro pauses
    rw [Dict.part, List.filter_filter]
    refine List.filter_congr fun e _ => ?_
    rw [Bool.decide_and]
    exact Bool.and_comm _ _
  have hactive := (hof s.pauses).trans ((congrArg _ h.pauses).trans (hof t.pauses).symm)
  exact congrArg (List.foldl (fun d e => Dict.set d e.2.buyerId e.2) Dict.empty) hactive

end Reads

/-! ## Writes -/

section Resources

variable {repo repo' : Repository} {r : Resource} {tenantId : String}

/-- The row goes when the other is upserted. -/
def displaces (r existing : Resource) : Bool :=
  decide (r.externalId ≠ none ∧ r.sourceId ≠ none) &&
    decide (existing.tenantId = r.tenantId ∧ existing.sourceId = r.sourceId ∧
      existing.externalId = r.externalId ∧ existing.id ≠ r.id)

/-- No row of another tenant goes. -/
theorem displaces_eq_false {existing : Resource} (h : existing.tenantId ≠ r.tenantId) :
    displaces r existing = false := by
  have hnot : ¬ (existing.tenantId = r.tenantId ∧ existing.sourceId = r.sourceId ∧
    existing.externalId = r.externalId ∧ existing.id ≠ r.id) := fun hsame => h hsame.1
  rw [displaces, decide_eq_false hnot, Bool.and_false]

/-- An upsert assigns the row, behind the removal of the rows it displaces. -/
theorem exists_upsert_eq (hI : RowIds repo) (r : Resource) :
    ∃ rest : Repository, repo.upsert r = rest.set r.id r ∧
      rest.entries = repo.entries.filter fun e => !displaces r e.2 := by
  refine ⟨_, rfl, ?_⟩
  rw [Repository.entries_foldl_erase]
  refine List.filter_congr fun e he => ?_
  have hget : repo.get? e.1 = some e.2 := Dict.get?_eq_some_iff.mpr he
  split
  next hkey =>
    rw [displaces, decide_eq_true hkey, Bool.true_and, decide_not]
    refine congrArg not (decide_eq_decide.mpr ?_)
    rw [List.mem_map]
    constructor
    · rintro ⟨row, hrow, hid⟩
      obtain ⟨hrow, hsame⟩ := List.mem_filter.mp hrow
      obtain ⟨k, hk⟩ := Dict.mem_values_iff.mp hrow
      rw [← hI k row hk, hid, hget] at hk
      cases hk
      exact of_decide_eq_true hsame
    · intro hsame
      have hrow : e.2 ∈ repo.values := Dict.mem_values_iff.mpr ⟨e.1, hget⟩
      exact ⟨e.2, List.mem_filter.mpr ⟨hrow, decide_eq_true hsame⟩, hI e.1 e.2 hget⟩
  next hkey =>
    rw [displaces, decide_eq_false hkey, Bool.false_and, List.map_nil]
    exact decide_eq_true List.not_mem_nil

theorem part_upsert (hI : RowIds repo) (hr : r.tenantId = tenantId)
    (hold : ∀ old, repo.get r.id = some old → old.tenantId = tenantId) :
    (repo.upsert r).part (isRowOf tenantId) =
      Dict.assign r.id r ((repo.part (isRowOf tenantId)).filter fun e => !displaces r e.2) := by
  obtain ⟨rest, heq, hrest⟩ := exists_upsert_eq hI r
  have hkept : ∀ old, rest.get? r.id = some old → isRowOf tenantId (r.id, old) = true := by
    intro old hget
    rw [Dict.get?_eq_some_iff, hrest] at hget
    exact decide_eq_true (hold old (Dict.get?_eq_some_iff.mpr (List.mem_filter.mp hget).1))
  rw [heq, Dict.part_set (decide_eq_true hr) hkept, Dict.part, hrest, List.filter_filter, Dict.part,
    List.filter_filter]
  exact congrArg _ (List.filter_congr fun e _ => Bool.and_comm _ _)

theorem part_upsert_of_ne (hI : RowIds repo) (hr : r.tenantId ≠ tenantId)
    (hold : ∀ old, repo.get r.id = some old → old.tenantId ≠ tenantId) :
    (repo.upsert r).part (isRowOf tenantId) = repo.part (isRowOf tenantId) := by
  obtain ⟨rest, heq, hrest⟩ := exists_upsert_eq hI r
  have hkept : ∀ old, rest.get? r.id = some old → isRowOf tenantId (r.id, old) = false := by
    intro old hget
    rw [Dict.get?_eq_some_iff, hrest] at hget
    exact decide_eq_false (hold old (Dict.get?_eq_some_iff.mpr (List.mem_filter.mp hget).1))
  rw [heq, Dict.part_set_of_not (decide_eq_false hr) hkept, Dict.part, hrest, List.filter_filter]
  refine List.filter_congr fun e _ => ?_
  cases hof : isRowOf tenantId e with
  | false => rfl
  | true =>
    rw [displaces_eq_false fun hsame => hr (hsame.symm.trans (of_decide_eq_true hof))]
    rfl

end Resources

/-- A write to the part of a tenant, made where the row it replaces is the tenant's as well. -/
def Write.Within (T : Tenant) (s : Served) : Write → Prop
  | .fact f => f.tenantId = T.id
  | .upsert row => row.tenantId = T.id ∧
    ∀ old, s.data.resources.get row.id = some old → old.tenantId = T.id
  | .delete _ => True
  | .remember buyerId _ => passesGuard T buyerId = true
  | .pause tenantId .. | .resume tenantId _ => tenantId = T.id
  | .record entry => entry.tenantId = T.id

/-- A write beside the part of a tenant: neither what is written nor what is replaced or removed
belongs to it. -/
def Write.Beside (T : Tenant) (s : Served) : Write → Prop
  | .fact f => f.tenantId ≠ T.id
  | .upsert row => row.tenantId ≠ T.id ∧
    ∀ old, s.data.resources.get row.id = some old → old.tenantId ≠ T.id
  | .delete id => ∀ old, s.data.resources.get id = some old → old.tenantId ≠ T.id
  | .remember buyerId _ => passesGuard T buyerId = false
  | .pause tenantId .. | .resume tenantId _ => tenantId ≠ T.id
  | .record entry => entry.tenantId ≠ T.id

section Writes

variable {T : Tenant} {s t : Served} {maxItems : Nat} {w : Write}

theorem withoutId_record (queryLog : List QueryLogEntry) (entry : QueryLogEntry)
    (tenantId : String) : (ofTenant (record queryLog entry) tenantId).map QueryLogEntry.withoutId =
      (ofTenant queryLog tenantId).map QueryLogEntry.withoutId ++
        if entry.tenantId = tenantId then [entry.withoutId] else [] := by
  rw [record, ofTenant, List.filter_append, List.map_append, ofTenant]
  congr 1
  by_cases h : entry.tenantId = tenantId
  · simp [h, QueryLogEntry.withoutId]
  · simp [h]

/-- A write to the part makes of the part what it makes of it in any other state. -/
theorem SameTo.apply (h : SameTo T s t) (hs : RowIds s.data.resources) (ht : RowIds t.data.resources)
    (hw : w.Within T s) (hw' : w.Within T t) :
    SameTo T (s.apply maxItems w) (t.apply maxItems w) := by
  cases w with
  | fact f =>
    refine ⟨?_, h.resources, h.memory, h.pauses, h.queryLog⟩
    have hfacts : s.data.facts.filter (fun f => f.tenantId = T.id) =
      t.data.facts.filter fun f => f.tenantId = T.id := h.facts
    show (s.data.facts ++ [f]).filter _ = (t.data.facts ++ [f]).filter _
    rw [List.filter_append, List.filter_append, hfacts]
  | upsert row =>
    refine ⟨h.facts, ?_, h.memory, h.pauses, h.queryLog⟩
    show (s.data.resources.upsert row).part _ = (t.data.resources.upsert row).part _
    rw [part_upsert hs hw.1 hw.2, part_upsert ht hw'.1 hw'.2, h.resources]
  | delete id =>
    refine ⟨h.facts, ?_, h.memory, h.pauses, h.queryLog⟩
    show (Dict.erase s.data.resources id).part _ = (Dict.erase t.data.resources id).part _
    rw [Dict.part_erase, Dict.part_erase, h.resources]
  | remember buyerId turn =>
    refine ⟨h.facts, h.resources, ?_, h.pauses, h.queryLog⟩
    show (Dict.set s.data.memory buyerId _).part _ = (Dict.set t.data.memory buyerId _).part _
    have hof : ∀ turns, isThreadOf T (buyerId, turns) = true := fun _ => hw
    rw [Dict.part_set (hof _) fun _ _ => hof _, Dict.part_set (hof _) fun _ _ => hof _, h.memory,
      Dict.getD, Dict.getD, h.bucket hw]
  | pause tenantId buyerId until_ =>
    refine ⟨h.facts, h.resources, h.memory, ?_, h.queryLog⟩
    have hof : tenantId = T.id := hw
    show (Dict.set s.pauses _ _).part _ = (Dict.set t.pauses _ _).part _
    rw [Dict.part_set (decide_eq_true hof) fun _ _ => decide_eq_true hof,
      Dict.part_set (decide_eq_true hof) fun _ _ => decide_eq_true hof, h.pauses]
  | resume tenantId buyerId =>
    refine ⟨h.facts, h.resources, h.memory, ?_, h.queryLog⟩
    show (Dict.erase s.pauses _).part _ = (Dict.erase t.pauses _).part _
    rw [Dict.part_erase, Dict.part_erase, h.pauses]
  | record entry =>
    refine ⟨h.facts, h.resources, h.memory, h.pauses, ?_⟩
    show (ofTenant (record s.queryLog entry) T.id).map _ = (ofTenant (record t.queryLog entry) T.id).map _
    rw [withoutId_record, withoutId_record, h.queryLog]

/-- A write beside the part leaves it as it is. -/
theorem sameTo_apply (hs : RowIds s.data.resources) (hw : w.Beside T s) :
    SameTo T (s.apply maxItems w) s := by
  cases w with
  | fact f =>
    refine ⟨?_, rfl, rfl, rfl, rfl⟩
    have hof : f.tenantId ≠ T.id := hw
    show (s.data.facts ++ [f]).filter _ = s.data.facts.filter _
    have hnone : [f].filter (fun f => f.tenantId = T.id) = [] := by simp [hof]
    rw [List.filter_append, hnone, List.append_nil]
  | upsert row => exact ⟨rfl, part_upsert_of_ne hs hw.1 hw.2, rfl, rfl, rfl⟩
  | delete id =>
    exact ⟨rfl, Dict.part_erase_of_not fun old hold => decide_eq_false (hw old hold), rfl, rfl, rfl⟩
  | remember buyerId turn =>
    exact ⟨rfl, rfl, Dict.part_set_of_not hw fun _ _ => hw, rfl, rfl⟩
  | pause tenantId buyerId until_ =>
    have hof : tenantId ≠ T.id := hw
    exact ⟨rfl, rfl, rfl,
      Dict.part_set_of_not (decide_eq_false hof) fun _ _ => decide_eq_false hof, rfl⟩
  | resume tenantId buyerId =>
    have hof : tenantId ≠ T.id := hw
    exact ⟨rfl, rfl, rfl, Dict.part_erase_of_not fun _ _ => decide_eq_false hof, rfl⟩
  | record entry =>
    refine ⟨rfl, rfl, rfl, rfl, ?_⟩
    have hof : entry.tenantId ≠ T.id := hw
    show (ofTenant (record s.queryLog entry) T.id).map _ = _
    rw [withoutId_record, if_neg hof, List.append_nil]

end Writes

end Wapsell.Api.Routes
