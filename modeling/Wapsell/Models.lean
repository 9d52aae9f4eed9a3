import Wapsell.Lib.Dict
import Wapsell.Py.Text
import Wapsell.Py.Datetime

/-!
# Core domain models

`sdk/wapsell/models.py`: the tenant with its two configurations, the fact,
the normalized inbound message, the dashboard's users and sessions, and the
message template.

The defaults are those of the source, in its language, because an
operation that builds a record with some fields left out has them in its
result. Enums of strings are inductive types; a value that is none of
the members cannot come out of Pydantic, and where a raw column is
turned into one, the codec of that table says what happens.

**What this does not establish.** Pydantic's own checks of a request,
unless a route's model says so; the records here are the ones it lets
through.
-/

namespace Wapsell

open Lib Py

/-- Where a tenant is in its life. -/
inductive TenantStatus
  | provisioning
  | active
  | suspended
  deriving DecidableEq, Repr

/-- Per-tenant SOUL parameters.

The defaults are the texts a tenant starts with, and part of what is rendered for one that has set
nothing. -/
structure SoulConfig where
  language : String := "español"
  tone : String := "cercano y profesional"
  mission : String := "Vender los productos del catálogo y cerrar ventas por WhatsApp."
  rules : List String :=
    ["Nunca inventes stock ni precios.",
      "Confirmá el pago antes de dar por cerrada una venta.",
      "Si no sabés algo, decilo y ofrecé escalarlo a un humano."]
  includeSkills : Bool := true
  deriving DecidableEq, Repr

/-- Per-tenant bot → human handoff.

It is off unless it is switched on, and then the six keywords stand until others are set. -/
structure HandoffConfig where
  enabled : Bool := false
  keywords : List String :=
    ["humano", "persona real", "vendedor", "asesor", "agente humano", "hablar con alguien"]
  webhookUrl : Option String := none
  handoffMessage : String :=
    "Te paso con un compañero humano para que te ayude personalmente. " ++
      "En breve te escriben por acá."
  /-- Hours the bot stays muted after a handoff; 0 disables the auto-pause. -/
  autoPauseHours : Int := 8
  deriving DecidableEq, Repr

/-- A Wapsell customer: their own agent, catalog, and WhatsApp number. Neither the slug nor the
number is unique by the type: that is for the repositories to keep, or not. -/
structure Tenant where
  id : String
  name : String
  slug : String
  status : TenantStatus := .provisioning
  whatsappPhoneNumberId : Option String := none
  model : String := "openai/gpt-4o-mini"
  soulConfig : Option SoulConfig := none
  handoffConfig : Option HandoffConfig := none
  createdAt : Datetime
  deriving DecidableEq, Repr

/-- A unit of knowledge ingested into Hindsight.

The content is text as it was ingested; the source and the metadata say where it came from. -/
structure Fact where
  id : String
  tenantId : String
  source : String
  content : String
  metadata : Dict String String := Dict.empty
  createdAt : Datetime

/-- A normalized inbound WhatsApp message.

The texts are as Meta sent them. The id is Meta's, and is what a delivery that is repeated has in
common with the first. -/
structure InboundMessage where
  tenantId : String
  fromNumber : String
  text : String
  messageId : String
  profileName : Option String := none
  receivedAt : Datetime
  deriving DecidableEq, Repr

/-- Where a template is in Meta's review. -/
inductive TemplateStatus
  | draft
  | submitted
  | approved
  | rejected
  deriving DecidableEq, Repr

/-- Meta's three official template categories. -/
inductive TemplateCategory
  | utility
  | marketing
  | authentication
  deriving DecidableEq, Repr

/-- A WhatsApp Business message template. The stamps and the rejection reason are options that no
field ties to the status; which combinations occur is a matter of the routes. -/
structure MessageTemplate where
  id : String
  tenantId : String
  name : String
  language : String := "es_AR"
  category : TemplateCategory := .utility
  body : String
  status : TemplateStatus := .draft
  vendorTemplateId : Option String := none
  rejectionReason : Option String := none
  createdAt : Datetime
  submittedAt : Option Datetime := none
  approvedAt : Option Datetime := none
  deriving DecidableEq, Repr

/-- Coarse role split for the dashboard. -/
inductive UserRole
  | admin
  | tenant
  deriving DecidableEq, Repr

/-- A login-capable identity.

A user of role tenant without a tenant id has access to no tenant. -/
structure User where
  id : String
  email : String
  passwordHash : String
  role : UserRole := .tenant
  tenantId : Option String := none
  createdAt : Datetime
  deriving DecidableEq, Repr

/-- An active authenticated session.

The token is the whole of the secret: who has it is the user. -/
structure Session where
  token : String
  userId : String
  expiresAt : Datetime
  createdAt : Datetime
  deriving DecidableEq, Repr

/-- `buyer_id_for`: memories of different tenants never collide, says the source. Nothing escapes a
colon in the slug, so that is so between slugs without one. -/
def buyerIdFor (tenantSlug fromNumber : String) : String := s!"{tenantSlug}:{fromNumber}"

end Wapsell
