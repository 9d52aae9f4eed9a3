import Wapsell.Lib.Dict
import Wapsell.Lib.Run
import Wapsell.Lib.Refinement
import Wapsell.Lib.Table
import Wapsell.Lib.Simulation
import Wapsell.Lib.Separability
import Wapsell.Lib.Part
import Wapsell.Lib.Regex
import Wapsell.Lib.Transaction
import Wapsell.Lib.Select
import Wapsell.Lib.Sort
import Wapsell.Lib.Like
import Wapsell.Lib.Attempt
import Wapsell.Lib.Columns
import Wapsell.Py.Text
import Wapsell.Py.Datetime
import Wapsell.Py.Number
import Wapsell.Py.Json
import Wapsell.Py.Isoformat
import Wapsell.Py.JsonText
import Wapsell.Py.JsonRoundTrip
import Wapsell.Postgres.Jsonb
import Wapsell.Postgres.Cells
import Wapsell.Postgres.Adapter
import Wapsell.Py.Logging
import Wapsell.Resources.Models
import Wapsell.Resources.Repository
import Wapsell.Resources.Search
import Wapsell.Resources.Filters
import Wapsell.Resources.Rows
import Wapsell.Resources.Agreement
import Wapsell.Skills.Registry
import Wapsell.Skills.Scope
import Wapsell.Skills.Conversions
import Wapsell.Api.Analytics
import Wapsell.Resources.Codec
import Wapsell.Resources.Postgres
import Wapsell.Resources.Upsert
import Wapsell.Resources.Adapters
import Wapsell.Resources.Sync
import Wapsell.Resources.Resync
import Wapsell.Resources.InPlace
import Wapsell.Models
import Wapsell.Tenant.Codec
import Wapsell.Tenant.Repository
import Wapsell.Tenant.Manager
import Wapsell.Onboarding.Slug
import Wapsell.Onboarding.Flow
import Wapsell.Onboarding.Replay
import Wapsell.Tenant.System
import Wapsell.Tenant.Invariant
import Wapsell.Tenant.Uniqueness
import Wapsell.Tenant.Lifecycle
import Wapsell.Onboarding.Concurrency
import Wapsell.Whatsapp.Webhook
import Wapsell.Api.Access
import Wapsell.Api.Tenants
import Wapsell.Api.Conversations
import Wapsell.Api.Webhook
import Wapsell.Handoff.Detector
import Wapsell.Handoff.Spellings
import Wapsell.Ingestion.Hindsight
import Wapsell.Ingestion.Freshness
import Wapsell.Memory.Buyer
import Wapsell.Memory.Postgres
import Wapsell.Memory.Agreement
import Wapsell.Memory.Threads
import Wapsell.Resources.Learning
import Wapsell.Resources.QueryLog
import Wapsell.Agent.Soul
import Wapsell.Agent.Loop
import Wapsell.Agent.Noninterference
import Wapsell.Agent.TenantIsolation
import Wapsell.Inbox.Repository
import Wapsell.Inbox.Registry
import Wapsell.Inbox.Postgres
import Wapsell.Api.Inbound
import Wapsell.Api.InboundTurn
import Wapsell.Api.Turns
import Wapsell.Api.Dialogue
import Wapsell.Api.Redelivery
import Wapsell.Api.Silence
import Wapsell.Api.Routes
import Wapsell.Api.TenantIsolation
import Wapsell.Api.PauseViews
import Wapsell.Crm.Recorder
import Wapsell.Crm.TurnCount
import Wapsell.Crm.Extractor
import Wapsell.Crm.Patch
import Wapsell.Crm.Identities
import Wapsell.Crm.Reapply
import Wapsell.Crm.Contacts
import Wapsell.Api.CrmRows
import Wapsell.Api.TaskPatch
import Wapsell.Api.Extractor
import Wapsell.Api.ExtractorRuns
import Wapsell.Api.DataSources
import Wapsell.Api.SourceReferences
import Wapsell.Billing.Models
import Wapsell.Billing.Repository
import Wapsell.Billing.Service
import Wapsell.Billing.Codec
import Wapsell.Billing.System
import Wapsell.Billing.Invariant
import Wapsell.Billing.Postgres
import Wapsell.Billing.ActiveSubscription
import Wapsell.Billing.Cancellation
import Wapsell.Security.LogFilter
import Wapsell.Security.Redaction
import Wapsell.Postgres.Statements
import Wapsell.Postgres.Operations
import Wapsell.Postgres.Isolation
import Wapsell.Templates.Codec
import Wapsell.Postgres.Codecs
import Wapsell.Templates.Repository
import Wapsell.Templates.Table
import Wapsell.Api.Templates
import Wapsell.Templates.Keys
import Wapsell.Auth.Repository
import Wapsell.Auth.Service
import Wapsell.Auth.Sessions
import Wapsell.Auth.Store
import Wapsell.Auth.Postgres
import Wapsell.Api.Writes
import Wapsell.Api.Parts
import Wapsell.Api.Separation
import Wapsell.Api.Authorization
import Wapsell.Lib.Histogram
import Wapsell.Api.AnalyticsTotals
import Wapsell.Py.Rounding
import Wapsell.Api.ResponseTimes
import Wapsell.Whatsapp.Tolerance
import Wapsell.Api.Delivery
import Wapsell.Py.Interpreter
import Wapsell.Billing.Signature
import Wapsell.Api.MpWebhook
import Wapsell.Billing.Reconcile
import Wapsell.Api.ScanBound
import Wapsell.Crm.Frame
import Wapsell.Crm.Reply
import Wapsell.Crm.Prose
import Wapsell.Crm.OpenTasks
import Wapsell.Api.OpenTitles
import Wapsell.Crm.Counter
import Wapsell.Api.Cadence
import Wapsell.Resources.Request
import Wapsell.Resources.SyncReports
import Wapsell.Resources.Scheduler
import Wapsell.Resources.Lifecycle
import Wapsell.Resources.Passes
import Wapsell.Ingestion.Preprocessor
import Wapsell.Ingestion.Worker
import Wapsell.Api.TemplateLifecycle
import Wapsell.Auth.Passwords
import Wapsell.Lib.RegexMatch
import Wapsell.Lib.Masking
import Wapsell.Lib.Replacement
import Wapsell.Security.Characters
import Wapsell.Security.Maskings
import Wapsell.Security.Passes
import Wapsell.Security.Idempotence
import Wapsell.Security.Renderings
import Wapsell.Skills.SalesCloser
import Wapsell.Resources.Popularity
import Wapsell.Resources.Schema
import Wapsell.Dashboard.Csv
import Wapsell.Dashboard.CsvRoundTrip
import Wapsell.Py.Base64
import Wapsell.Security.TokenCipher
import Wapsell.Onboarding.SlugForm
import Wapsell.Lib.Distinct
import Wapsell.Lib.MaximalRuns
import Wapsell.Ingestion.Tsquery
import Wapsell.Dashboard.BlankLines
import Wapsell.Py.Csv
import Wapsell.Ingestion.CsvExtractor
