import Wapsell.Lib.Transaction
import Wapsell.Ingestion.Hindsight
import Wapsell.Postgres.Statements

/-!
# The methods of the Postgres adapters

The eleven repositories that `services/api/main.py` builds on its one
connection. A method is a script: the statements it sends, what it does
with their rows, and its commit. None of them catches an exception, and
none rolls back.

A script says which statements follow each other and where an exception
of its own comes between them; what the database answers is left to the
connection. Written so, the isolation of all eleven is one theorem about
scripts and not eleven about tables.

The decoders are left out: a row of an answer is the entity already, so
a script says nothing of a row that does not decode. The codecs do.
-/

namespace Wapsell.Postgres

open Lib Py Billing Ingestion Memory Resources

/-- An exception a method raises by itself. -/
structure Raised where
  kind : Exc
  message : String
  deriving DecidableEq, Repr

/-- What a method does on the connection. -/
abbrev Op := Script Statement (List Row) Raised Value

/-! ## The shapes the methods share -/

/-- A write: one statement, then the commit. -/
def write (s : Statement) (v : Value) : Op := .execute s fun _ => .commit v

/-- A read of at most one row. -/
def fetchOne (s : Statement) : Op := .execute s fun rows => .ret (.row rows.head?)

/-- A read of all rows. -/
def fetchAll (s : Statement) : Op := .execute s fun rows => .ret (.rows rows)

/-- `SELECT`, then a write: where the row is missing, the method ends otherwise. -/
def guarded (guard : Statement) (missing : Op) (s : Statement) (v : Value) : Op :=
  .execute guard fun rows => if rows.isEmpty then missing else write s v

/-! ## The repositories -/

/-- `PostgresTenantRepository`. -/
inductive TenantCall
  | add (tenant : Tenant)
  | get (tenantId : String)
  | bySlug (slug : String)
  | byPhoneNumberId (phoneNumberId : String)
  | listAll
  | update (tenant : Tenant)

def TenantCall.script : TenantCall → Op
  | .add tenant => write (.tenants (.insert tenant)) (.row (some (.tenant tenant)))
  | .get tenantId => fetchOne (.tenants (.selectById tenantId))
  | .bySlug slug => fetchOne (.tenants (.selectBySlug slug))
  | .byPhoneNumberId phoneNumberId => fetchOne (.tenants (.selectByPnid phoneNumberId))
  | .listAll => fetchAll (.tenants .selectAll)
  | .update tenant =>
    guarded (.tenants (.selectExists tenant.id))
      (.raise ⟨.keyError, s!"unknown tenant: {tenant.id}"⟩) (.tenants (.update tenant))
      (.row (some (.tenant tenant)))

/-- `PostgresHindsight`. -/
inductive FactCall
  | addFact (fact : Fact)
  | query (text : String) (tenantId : Option String) (topK : Int)
  | allFor (tenantId : String)

def FactCall.script (U : Unicode) : FactCall → Op
  | .addFact fact => write (.facts (.insert fact)) (.row (some (.fact fact)))
  | .query text tenantId topK =>
    if strip text = "" then .ret (.rows [])
    else if toOrTsquery U text = "" then .ret (.rows [])
    else fetchAll (.facts (.query tenantId (toOrTsquery U text) topK))
  | .allFor tenantId => fetchAll (.facts (.allFor tenantId))

/-- `PostgresUserRepository`. -/
inductive UserCall
  | add (user : User)
  | get (userId : String)
  | byEmail (email : String)
  | listAll

def UserCall.script : UserCall → Op
  | .add user =>
    .execute (.users (.byEmail user.email)) fun rows =>
      if rows.isEmpty then write (.users (.insert user)) (.row (some (.user user)))
      else .raise ⟨.valueError, s!"email already exists: {user.email}"⟩
  | .get userId => fetchOne (.users (.byId userId))
  | .byEmail email => fetchOne (.users (.byEmail email))
  | .listAll => fetchAll (.users .listAll)

/-- `PostgresSessionRepository`. -/
inductive SessionCall
  | add (session : Session)
  | get (token : String)
  | delete (token : String)

def SessionCall.script : SessionCall → Op
  | .add session => write (.sessions (.insert session)) (.row (some (.session session)))
  | .get token => fetchOne (.sessions (.byToken token))
  | .delete token =>
    guarded (.sessions (.byToken token)) (.ret (.flag false)) (.sessions (.delete token))
      (.flag true)

/-- `PostgresTemplateRepository`. -/
inductive TemplateCall
  | add (template : MessageTemplate)
  | get (templateId : String)
  | listFor (tenantId : String)
  | update (template : MessageTemplate)
  | delete (templateId : String)

def TemplateCall.script : TemplateCall → Op
  | .add template => write (.templates (.insert template)) (.row (some (.template template)))
  | .get templateId => fetchOne (.templates (.selectById templateId))
  | .listFor tenantId => fetchAll (.templates (.listByTenant tenantId))
  | .update template =>
    guarded (.templates (.selectExists template.id))
      (.raise ⟨.keyError, s!"unknown template: {template.id}"⟩) (.templates (.update template))
      (.row (some (.template template)))
  | .delete templateId =>
    guarded (.templates (.selectExists templateId)) (.ret (.flag false))
      (.templates (.delete templateId)) (.flag true)

/-- `PostgresSubscriptionRepository`. -/
inductive SubscriptionCall
  | add (subscription : Subscription)
  | get (subscriptionId : String)
  | getByPreapprovalId (preapprovalId : String)
  | listFor (tenantId : String)
  | activeForTenant (tenantId : String)
  | update (subscription : Subscription)

def SubscriptionCall.script : SubscriptionCall → Op
  | .add subscription =>
    write (.subscriptions (.insert subscription)) (.row (some (.subscription subscription)))
  | .get subscriptionId => fetchOne (.subscriptions (.get subscriptionId))
  | .getByPreapprovalId preapprovalId =>
    fetchOne (.subscriptions (.getByPreapproval preapprovalId))
  | .listFor tenantId => fetchAll (.subscriptions (.list tenantId))
  | .activeForTenant tenantId => fetchOne (.subscriptions (.active tenantId))
  | .update subscription =>
    write (.subscriptions (.update subscription)) (.row (some (.subscription subscription)))

/-- `PostgresBotPauseRepository`. -/
inductive PauseCall
  | isPaused (tenantId buyerId : String) (cutoff : Datetime)
  | pause (tenantId buyerId : String) (until_ : Datetime)
  | resume (tenantId buyerId : String)
  | get (tenantId buyerId : String)
  | listActive (tenantId : String) (cutoff : Datetime)

def PauseCall.script : PauseCall → Op
  | .isPaused tenantId buyerId cutoff =>
    .execute (.botPauses (.isPaused tenantId buyerId cutoff)) fun rows =>
      .ret (.flag !rows.isEmpty)
  | .pause tenantId buyerId until_ =>
    write (.botPauses (.upsert tenantId buyerId until_))
      (.row (some (.pause { tenantId, buyerId, pausedUntil := until_ })))
  | .resume tenantId buyerId => write (.botPauses (.delete tenantId buyerId)) .none
  | .get tenantId buyerId => fetchOne (.botPauses (.selectOne tenantId buyerId))
  | .listActive tenantId cutoff => fetchAll (.botPauses (.selectActive tenantId cutoff))

/-- `PostgresResourceRepository`. -/
inductive ResourceCall
  | add (resource : Resource)
  | upsert (resource : Resource)
  | get (resourceId : String)
  | findByExternalId (tenantId kind externalId : String)
  | listFor (tenantId : String) (kind : Option String) (limit : Int)
  | search (tenantId : String) (filters : Dict String Json) (queryText kind : Option String)
      (limit : Int)
  | delete (resourceId : String)

def ResourceCall.script : ResourceCall → Op
  | .add resource => write (.resources (.insert resource)) (.row (some (.resource resource)))
  | .upsert resource => write (.resources (.upsert resource)) (.row (some (.resource resource)))
  | .get resourceId => fetchOne (.resources (.get resourceId))
  | .findByExternalId tenantId kind externalId =>
    fetchOne (.resources (.findByExt tenantId kind externalId))
  | .listFor tenantId kind limit => fetchAll (.resources (.list tenantId kind limit))
  | .search tenantId filters queryText kind limit =>
    fetchAll (.resources (.search tenantId filters queryText kind limit))
  | .delete resourceId => write (.resources (.delete resourceId)) .none

/-- `PostgresDataSourceRepository`. -/
inductive SourceCall
  | add (source : DataSource)
  | get (sourceId : String)
  | listFor (tenantId : String)
  | listAllActive
  | update (source : DataSource)
  | delete (sourceId : String)

def SourceCall.script : SourceCall → Op
  | .add source => write (.dataSources (.insert source)) (.row (some (.source source)))
  | .get sourceId => fetchOne (.dataSources (.get sourceId))
  | .listFor tenantId => fetchAll (.dataSources (.list tenantId))
  | .listAllActive => fetchAll (.dataSources .listAllActive)
  | .update source => write (.dataSources (.update source)) (.row (some (.source source)))
  | .delete sourceId => write (.dataSources (.delete sourceId)) .none

/-- `PostgresQueryLogRepository`. -/
inductive QueryLogCall
  | record (entry : QueryLogEntry)
  | listRecent (tenantId : String) (limit : Int)

def QueryLogCall.script : QueryLogCall → Op
  | .record entry =>
    .execute (.queryLog (.insert entry)) fun rows =>
      let newId := match rows with
        | .newId id :: _ => some id
        | _ => none
      .commit (.row (some (.entry { entry with id := newId })))
  | .listRecent tenantId limit => fetchAll (.queryLog (.list tenantId limit))

/-- `max_items` and `dialectic_depth`, as wired. -/
def BUYER_MAX_ITEMS : Nat := 50

def DIALECTIC_DEPTH : Int := 2

/-- `PostgresBuyerMemory`. -/
inductive MemoryCall
  | remember (buyerId : String) (interaction : BuyerInteraction)
  | recall_ (buyerId : String) (limit : Option Int)
  | summary (buyerId : String)
  | listThreads (prefix_ : Option String) (limit : Int)

/-- The turns among the rows of a recall. -/
def interactionsOf (rows : List Row) : List BuyerInteraction :=
  rows.filterMap fun row => match row with
    | .interaction interaction => some interaction
    | _ => none

def MemoryCall.script : MemoryCall → Op
  | .remember buyerId interaction =>
    .execute (.interactions (.insert buyerId interaction)) fun _ =>
      write (.interactions (.trim buyerId BUYER_MAX_ITEMS)) .none
  | .recall_ buyerId none => fetchAll (.interactions (.recallAll buyerId))
  | .recall_ buyerId (some limit) =>
    if limit ≤ 0 then .ret (.rows [])
    else fetchAll (.interactions (.recallLimited buyerId limit))
  | .summary buyerId =>
    .execute (.interactions (.recallLimited buyerId (DIALECTIC_DEPTH * 2))) fun rows =>
      .ret (.text (summaryOf (interactionsOf rows)))
  | .listThreads prefix_ limit => fetchAll (.interactions (.listThreads prefix_ limit))

/-- A call on one of the repositories. -/
inductive Call
  | tenants (call : TenantCall)
  | hindsight (call : FactCall)
  | users (call : UserCall)
  | sessions (call : SessionCall)
  | templates (call : TemplateCall)
  | subscriptions (call : SubscriptionCall)
  | botPauses (call : PauseCall)
  | resources (call : ResourceCall)
  | dataSources (call : SourceCall)
  | queryLog (call : QueryLogCall)
  | memory (call : MemoryCall)

def Call.script (U : Unicode) : Call → Op
  | .tenants call => call.script
  | .hindsight call => call.script U
  | .users call => call.script
  | .sessions call => call.script
  | .templates call => call.script
  | .subscriptions call => call.script
  | .botPauses call => call.script
  | .resources call => call.script
  | .dataSources call => call.script
  | .queryLog call => call.script
  | .memory call => call.script

/-- No method commits without having sent a statement. -/
theorem Call.bareCommit (U : Unicode) (call : Call) : (call.script U).bareCommit = false := by
  cases call with
  | hindsight call =>
    cases call with
    | query text tenantId topK =>
      unfold Call.script FactCall.script
      dsimp only
      split
      · rfl
      · split <;> rfl
    | _ => rfl
  | memory call =>
    cases call with
    | recall_ buyerId limit =>
      cases limit with
      | none => rfl
      | some n =>
        unfold Call.script MemoryCall.script
        dsimp only
        split <;> rfl
    | _ => rfl
  | tenants call | users call | sessions call | templates call | subscriptions call
  | botPauses call | resources call | dataSources call | queryLog call => cases call <;> rfl

/-- The methods that may answer without a statement: a recall of no turns, and a search for a text
without a word to look for. -/
def Call.Silent (U : Unicode) : Call → Prop
  | .memory (.recall_ _ (some limit)) => limit ≤ 0
  | .hindsight (.query text _ _) => strip text = "" ∨ toOrTsquery U text = ""
  | _ => False

theorem Call.silent_iff {U : Unicode} {call : Call} :
    (call.script U).executes = false ↔ call.Silent U := by
  cases call with
  | hindsight call =>
    cases call with
    | query text tenantId topK =>
      unfold Call.script FactCall.script Call.Silent
      by_cases hblank : strip text = ""
      · simp [hblank, Script.executes]
      · by_cases hquery : toOrTsquery U text = ""
        · simp [hblank, hquery, Script.executes]
        · simp [hblank, hquery, Script.executes, fetchAll]
    | addFact fact => exact iff_of_false nofun nofun
    | allFor tenantId => exact iff_of_false nofun nofun
  | memory call =>
    cases call with
    | recall_ buyerId limit =>
      cases limit with
      | none => exact iff_of_false nofun nofun
      | some n =>
        unfold Call.script MemoryCall.script Call.Silent
        by_cases hn : n ≤ 0
        · simp [hn, Script.executes]
        · simp [hn, Script.executes, fetchAll]
    | remember buyerId interaction => exact iff_of_false nofun nofun
    | summary buyerId => exact iff_of_false nofun nofun
    | listThreads prefix_ limit => exact iff_of_false nofun nofun
  | tenants call | users call | sessions call | templates call | subscriptions call
  | botPauses call | resources call | dataSources call | queryLog call =>
    cases call <;> exact iff_of_false nofun nofun

end Wapsell.Postgres
