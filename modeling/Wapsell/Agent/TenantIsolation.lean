import Wapsell.Agent.Loop
import Wapsell.Resources.QueryLog

/-!
# What one tenant's prompt knows of the others

Facts, resources and searches of all tenants lie in shared containers. Every
read of the agent loop selects the tenant's rows before it orders, cuts or
counts them, so it commutes with the removal of the other rows. The one trace
they leave is in the ids of the query log, which are counted over all tenants:
the learning hints read the log in the order of the ids and never show one.

Removing the other tenants' rows before a read and selecting the
tenant's rows in it come to the same, and that is proved for each read
by itself; `respond` is then a function of what the reads answer. The
two states need not have been reached by the code, except that the ids
of their logs are those that recording gives out.

**What this does not establish.** The prompt is taken for one and the
same tenant record in both states. Whether the record is the right one
for a number is a matter of the routing.
-/

namespace Wapsell.Agent

open Lib Py Handoff Ingestion Memory Resources

/-- The resources of one tenant, in insertion order. -/
def resourcesOf (repo : Repository) (tenantId : String) : List Resource :=
  repo.values.filter fun r => r.tenantId = tenantId

/-- The two states agree on what belongs to the tenant and on what is recalled of the buyer. The
logs agree up to their ids, which count the entries of all tenants. -/
structure SameForTenant (tenantId buyerId : String) (s s' : Stores) : Prop where
  facts : Hindsight.allFor s'.facts tenantId = Hindsight.allFor s.facts tenantId
  resources : resourcesOf s'.resources tenantId = resourcesOf s.resources tenantId
  queryLog : (ofTenant s'.queryLog tenantId).map QueryLogEntry.withoutId =
    (ofTenant s.queryLog tenantId).map QueryLogEntry.withoutId
  memory : s'.memory.recall_ buyerId (some HISTORY_TURNS) =
    s.memory.recall_ buyerId (some HISTORY_TURNS)

/-- `query` looks at the tenant's facts. -/
theorem query_eq_of_allFor (U : Unicode) (facts : Hindsight) (text tenantId : String) (topK : Int) :
    Hindsight.query U facts text (some tenantId) topK =
      Hindsight.query U (Hindsight.allFor facts tenantId) text (some tenantId) topK := by
  have hscope :
      facts.filter (fun f => (some tenantId = none ∨ some tenantId = some f.tenantId : Bool)) =
      (Hindsight.allFor facts tenantId).filter fun f =>
        (some tenantId = none ∨ some tenantId = some f.tenantId : Bool) := by
    rw [Hindsight.allFor, List.filter_filter]
    refine List.filter_congr fun f _ => ?_
    by_cases hf : f.tenantId = tenantId
    · simp [hf]
    · simp [hf, Ne.symm hf]
  simp only [Hindsight.query]
  rw [hscope]

/-- `list_for` looks at the tenant's resources. -/
theorem listFor_eq_of_resourcesOf (repo : Repository) (tenantId : String) (kind : Option String)
    (limit : Int) :
    repo.listFor tenantId kind limit =
      upTo limit (Repository.newestFirst
        ((resourcesOf repo tenantId).filter (Repository.listed tenantId kind))) := by
  have hrows : repo.values.filter (Repository.listed tenantId kind) =
      (resourcesOf repo tenantId).filter (Repository.listed tenantId kind) := by
    rw [resourcesOf, List.filter_filter]
    refine List.filter_congr fun r _ => ?_
    by_cases hr : r.tenantId = tenantId
    · simp [hr]
    · simp [Repository.listed, hr]
  rw [Repository.listFor, hrows]

variable {tenantId buyerId : String} {s s' : Stores}

theorem SameForTenant.listFor (h : SameForTenant tenantId buyerId s s') (kind : Option String)
    (limit : Int) :
    s'.resources.listFor tenantId kind limit = s.resources.listFor tenantId kind limit := by
  rw [listFor_eq_of_resourcesOf, listFor_eq_of_resourcesOf, h.resources]

theorem SameForTenant.query (h : SameForTenant tenantId buyerId s s') (U : Unicode) (text : String)
    (topK : Int) :
    Hindsight.query U s'.facts text (some tenantId) topK =
      Hindsight.query U s.facts text (some tenantId) topK := by
  rw [query_eq_of_allFor, h.facts, ← query_eq_of_allFor]

theorem SameForTenant.catalogItems (h : SameForTenant tenantId buyerId s s') (U : Unicode)
    (message : String) :
    Agent.catalogItems U s' tenantId message = Agent.catalogItems U s tenantId message := by
  simp only [Agent.catalogItems, Repository.search, h.listFor]

/-- The filters a search log shows do not depend on how its entries are numbered. -/
theorem topFilterKeys_congr {log log' : List QueryLogEntry} {limit : Int}
    (h : (listRecent log' tenantId 500).map QueryLogEntry.withoutId =
      (listRecent log tenantId 500).map QueryLogEntry.withoutId) (now : Datetime) (days : Int) :
    topFilterKeys log' tenantId now days limit = topFilterKeys log tenantId now days limit := by
  unfold topFilterKeys
  cases now.subDays days with
  | none => rfl
  | some cutoff =>
    -- the date and the filters of an entry are those of the entry without its id
    have hkeys : ∀ entries : List QueryLogEntry,
        ((entries.filter fun e => cutoff ≤ e.createdAt).flatMap fun e =>
          e.filters.keys.map filterField) =
        ((entries.map QueryLogEntry.withoutId).filter fun e => cutoff ≤ e.createdAt).flatMap fun e =>
          e.filters.keys.map filterField := by
      intro entries
      rw [List.filter_map, List.flatMap_map]
      rfl
    dsimp only
    rw [hkeys (listRecent log' tenantId 500), hkeys (listRecent log tenantId 500), h]

theorem SameForTenant.learningHints (h : SameForTenant tenantId buyerId s s')
    (hlog : Recorded s.queryLog) (hlog' : Recorded s'.queryLog) (U : Unicode) (now : Datetime) :
    Agent.learningHints U s' tenantId now = Agent.learningHints U s tenantId now := by
  have hfields : ∀ sampleSize kind, discoverSchema U s'.resources tenantId sampleSize kind =
      discoverSchema U s.resources tenantId sampleSize kind := by
    intro sampleSize kind
    rw [discoverSchema, discoverSchema, h.listFor]
  have hfilters : ∀ days limit, topFilterKeys s'.queryLog tenantId now days limit =
      topFilterKeys s.queryLog tenantId now days limit :=
    fun days _ => topFilterKeys_congr (listRecent_withoutId hlog' hlog h.queryLog 500) now days
  simp only [Agent.learningHints, renderSoulHints, insights, hfields, hfilters]

/-- **Tenant-level noninterference of the prompt.** Two states that agree on the tenant's facts,
resources and searches and on the buyer's history make the loop do the same: hand the message off,
or send the same message list and cite the same facts and resources, whatever they hold for every
other tenant. The equality is of the whole response, so it covers what is done with any answer of
the model as well. -/
theorem respond_tenant_noninterference (U : Unicode) (tenant : Tenant) (buyerId message : String)
    (soulConfig : Option SoulConfig) (now : Datetime) {s s' : Stores}
    (hlog : Recorded s.queryLog) (hlog' : Recorded s'.queryLog)
    (h : SameForTenant tenant.id buyerId s s') :
    respond U s' tenant buyerId message soulConfig now =
      respond U s tenant buyerId message soulConfig now := by
  have hprompt : ∀ history facts resources,
      composePrompt U s' tenant history facts resources message soulConfig now =
        composePrompt U s tenant history facts resources message soulConfig now := by
    intro history facts resources
    rw [composePrompt, composePrompt, h.learningHints hlog hlog' U now]
  simp only [respond, hprompt, h.memory, h.query U, h.catalogItems U]

/-- A tenant with one search in the log. -/
def bazaar : Tenant where
  id := "t1"
  name := "Bazaar"
  slug := "bazaar"
  createdAt := 0

/-- A search for blue things. -/
def blueSearch (tenantId : String) : QueryLogEntry where
  tenantId := tenantId
  filters := Dict.empty.set "color" (.str "azul")
  createdAt := 0

/-- Another tenant's fact, with the word the buyer writes. -/
def foreignFact : Fact where
  id := "f1"
  tenantId := "t2"
  source := "catalog.csv"
  content := "hola"
  createdAt := 0

/-- Another tenant's item, with the word the buyer writes. -/
def foreignItem : Resource where
  id := "r1"
  tenantId := "t2"
  summary := "hola"
  createdAt := 0
  updatedAt := 0

/-- A second tenant arrives with a fact, an item and an earlier search; the first one's search is
renumbered and its prompt is not. -/
theorem respond_beside_another_tenant :
    respond Unicode.ascii
        { facts := [foreignFact], resources := Dict.empty.set "r1" foreignItem
          queryLog := record (record [] (blueSearch "t2")) (blueSearch "t1") }
        bazaar "bazaar:549" "hola" none 0 =
      respond Unicode.ascii { queryLog := record [] (blueSearch "t1") } bazaar "bazaar:549" "hola"
        none 0 :=
  respond_tenant_noninterference Unicode.ascii bazaar "bazaar:549" "hola" none 0
    (.record .empty (blueSearch "t1")) (.record (.record .empty (blueSearch "t2")) (blueSearch "t1"))
    ⟨rfl, rfl, rfl, rfl⟩

end Wapsell.Agent
