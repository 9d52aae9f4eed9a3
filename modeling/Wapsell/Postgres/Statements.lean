import Wapsell.Billing.Models
import Wapsell.Inbox.Repository
import Wapsell.Memory.Buyer
import Wapsell.Resources.Models

/-!
# The SQL of the adapters

One constructor for each statement the Postgres adapters send, with the
parameters it binds, and one for each kind of row they read. What Postgres
does with a statement is not said here.

The texts of the statements are not repeated: a constructor stands for
one and carries what its placeholders are bound to, in their order.
Where a text is built from its arguments, the constructor carries these.

The rows and the values at the end are what an answer is made of. They
are decoded here; how a row of cells becomes an entity is the matter of
the codecs.
-/

namespace Wapsell.Postgres

open Lib Py Billing Inbox Memory Resources

/-- Table `tenants`. -/
inductive TenantSql
  | insert (tenant : Tenant)
  | selectById (tenantId : String)
  | selectBySlug (slug : String)
  | selectByPnid (phoneNumberId : String)
  | selectAll
  | selectExists (tenantId : String)
  | update (tenant : Tenant)

/-- Table `facts`. -/
inductive FactSql
  | insert (fact : Fact)
  | query (tenantId : Option String) (tsquery : String) (topK : Int)
  | allFor (tenantId : String)

/-- Table `users`. -/
inductive UserSql
  | insert (user : User)
  | byId (userId : String)
  | byEmail (email : String)
  | listAll

/-- Table `sessions`. -/
inductive SessionSql
  | insert (session : Session)
  | byToken (token : String)
  | delete (token : String)

/-- Table `message_templates`. -/
inductive TemplateSql
  | insert (template : MessageTemplate)
  | selectById (templateId : String)
  | listByTenant (tenantId : String)
  | selectExists (templateId : String)
  | update (template : MessageTemplate)
  | delete (templateId : String)

/-- Table `subscriptions`. -/
inductive SubscriptionSql
  | insert (subscription : Subscription)
  | update (subscription : Subscription)
  | get (subscriptionId : String)
  | getByPreapproval (preapprovalId : String)
  | list (tenantId : String)
  | active (tenantId : String)

/-- Table `bot_pauses`. -/
inductive PauseSql
  | isPaused (tenantId buyerId : String) (cutoff : Datetime)
  | upsert (tenantId buyerId : String) (until_ : Datetime)
  | delete (tenantId buyerId : String)
  | selectOne (tenantId buyerId : String)
  | selectActive (tenantId : String) (cutoff : Datetime)

/-- Table `resources`. The text of a search is built from its arguments. -/
inductive ResourceSql
  | insert (resource : Resource)
  | upsert (resource : Resource)
  | get (resourceId : String)
  | findByExt (tenantId kind externalId : String)
  | list (tenantId : String) (kind : Option String) (limit : Int)
  | search (tenantId : String) (filters : Dict String Json) (queryText kind : Option String)
      (limit : Int)
  | delete (resourceId : String)

/-- Table `data_sources`. -/
inductive SourceSql
  | insert (source : DataSource)
  | update (source : DataSource)
  | get (sourceId : String)
  | list (tenantId : String)
  | listAllActive
  | delete (sourceId : String)

/-- Table `resource_query_log`. -/
inductive QueryLogSql
  | insert (entry : QueryLogEntry)
  | list (tenantId : String) (limit : Int)

/-- Table `buyer_interactions`. -/
inductive InteractionSql
  | insert (buyerId : String) (interaction : BuyerInteraction)
  | recallAll (buyerId : String)
  | recallLimited (buyerId : String) (limit : Int)
  | trim (buyerId : String) (maxItems : Nat)
  | listThreads (prefix_ : Option String) (limit : Int)

/-- A statement with its parameters. -/
inductive Statement
  | tenants (sql : TenantSql)
  | facts (sql : FactSql)
  | users (sql : UserSql)
  | sessions (sql : SessionSql)
  | templates (sql : TemplateSql)
  | subscriptions (sql : SubscriptionSql)
  | botPauses (sql : PauseSql)
  | resources (sql : ResourceSql)
  | dataSources (sql : SourceSql)
  | queryLog (sql : QueryLogSql)
  | interactions (sql : InteractionSql)

/-- A row of an answer, decoded. -/
inductive Row
  | tenant (tenant : Tenant)
  | fact (fact : Fact)
  | user (user : User)
  | session (session : Session)
  | template (template : MessageTemplate)
  | subscription (subscription : Subscription)
  | pause (pause : BotPause)
  | resource (resource : Resource)
  | source (source : DataSource)
  | entry (entry : QueryLogEntry)
  | interaction (interaction : BuyerInteraction)
  | thread (summary : BuyerThreadSummary)
  /-- `SELECT 1`. -/
  | one
  /-- `RETURNING id`. -/
  | newId (id : Nat)

/-- What a method returns. -/
inductive Value
  | none
  | flag (b : Bool)
  | row (row : Option Row)
  | rows (rows : List Row)
  | text (s : String)

end Wapsell.Postgres
