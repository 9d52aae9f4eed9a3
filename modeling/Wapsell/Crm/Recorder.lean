import Wapsell.Resources.Repository

/-!
# The CRM recorder

`sdk/wapsell/crm/recorder.py` over the in-memory resource store: a contact
for each (tenant, phone) and an activity for each turn. What a call draws
from outside, the clock and the defaults of a fresh `Resource`, is an
argument.

`upsert_contact_for_inbound` writes without looking whether the message
was recorded before; `record_activity` looks. The two are modelled one
after the other, as the source runs them, because that order is the
reason a repeated message counts twice and is listed once.

**What this does not establish.** Whether a message was delivered once;
that is the webhook's matter, and the recorder is given what it is
given.
-/

namespace Wapsell.Crm

open Lib Py Resources

def CONTACT_KIND : String := "contact"

def ACTIVITY_KIND : String := "activity"

/-- Truncation cap for the activity summary. -/
def SUMMARY_MAX_CHARS : Nat := 240

/-- What a call draws: the clock where no `at` is given, and the defaults of the `Resource` it may
create. -/
structure Draw where
  now : Datetime
  id : String
  createdAt : Datetime
  updatedAt : Datetime
  deriving DecidableEq, Repr

/-- Canonical external id for a contact. The tenant is not in it, since every lookup names the
tenant besides. -/
def contactExternalId (fromNumber : String) : String := s!"buyer:{fromNumber}"

/-- Two numbers have two contacts. -/
theorem contactExternalId_injective {m n : String} (h : contactExternalId m = contactExternalId n) :
    m = n := by
  have h' : "buyer:".toList ++ m.toList = "buyer:".toList ++ n.toList := by
    rw [← String.toList_append, ← String.toList_append]
    exact congrArg String.toList h
  exact String.toList_injective (List.append_cancel_left h')

/-- Per-turn external id. -/
def activityExternalIdForMessage (messageId direction : String) : String :=
  s!"{direction}:{messageId}"

/-- `f"+{from_number}"`. -/
def phoneLabel (fromNumber : String) : String := s!"+{fromNumber}"

/-- The contact a first inbound creates. -/
def newContact (tenantId fromNumber : String) (profileName : Option String) (when_ : Datetime)
    (draw : Draw) : Resource :=
  let data : Dict String Json :=
    ((((Dict.empty.set "phone" (.str fromNumber)).set "source" (.str "whatsapp")).set
      "first_contact_at" (.str when_.isoformat)).set "last_seen_at" (.str when_.isoformat)).set
        "turn_count" (.int 1)
  let name := profileName.filter (· ≠ "")
  { id := draw.id, tenantId, kind := CONTACT_KIND
    externalId := some (contactExternalId fromNumber)
    data := match name with
      | some n => data.set "name" (.str n)
      | none => data
    summary := take SUMMARY_MAX_CHARS (name.getD (phoneLabel fromNumber))
    createdAt := draw.createdAt, updatedAt := draw.updatedAt }

/-- The first non-empty of the contact's name, its old summary and its phone. -/
def contactSummary (data : Dict String Json) (existing : Resource) (fromNumber : String) : String :=
  let name := match data.get? "name" with
    | some (.str n) => n
    | _ => ""
  if name ≠ "" then name
  else if existing.summary ≠ "" then existing.summary
  else phoneLabel fromNumber

/-- The contact a later inbound writes back: one turn more, seen now, and a name if it had none. -/
def bumpedContact (existing : Resource) (fromNumber : String) (profileName : Option String)
    (when_ : Datetime) (turnCount : Int) : Resource :=
  let data := (existing.data.set "last_seen_at" (.str when_.isoformat)).set "turn_count"
    (.int (turnCount + 1))
  let data := match profileName.filter (· ≠ "") with
    | some n => if (data.getD "name" .null).truthy then data else data.set "name" (.str n)
    | none => data
  { existing with
    data
    summary := take SUMMARY_MAX_CHARS (contactSummary data existing fromNumber)
    updatedAt := when_ }

/-- `upsert_contact_for_inbound`: the contact and the store with it. `int(…)` of a counter that is
no number raises. -/
def upsertContactForInbound (U : Unicode) (repo : Repository) (tenantId fromNumber : String)
    (profileName : Option String) (at_ : Option Datetime) (draw : Draw) :
    Except Exc (Resource × Repository) := do
  let when_ := at_.getD draw.now
  match repo.findByExternalId tenantId CONTACT_KIND (contactExternalId fromNumber) with
  | none =>
    let contact := newContact tenantId fromNumber profileName when_ draw
    pure (contact, repo.add contact)
  | some existing =>
    let turnCount ← (existing.data.getD "turn_count" (.int 0)).toInt U
    let contact := bumpedContact existing fromNumber profileName when_ turnCount
    pure (contact, repo.upsert contact)

/-- The one-line, bounded summary of an activity. -/
def activitySummary (text : String) : String :=
  let summary := replaceChar '\n' " " (strip text)
  if SUMMARY_MAX_CHARS < summary.length then
    rstrip (take (SUMMARY_MAX_CHARS - 1) summary) ++ "…"
  else summary

/-- The activity row of one turn; `extra` is merged over the fixed keys. -/
def newActivity (tenantId contactId direction text messageId activityType : String)
    (when_ : Datetime) (extra : Dict String Json) (draw : Draw) : Resource :=
  let data : Dict String Json :=
    (((((Dict.empty.set "contact_id" (.str contactId)).set "type" (.str activityType)).set
      "direction" (.str direction)).set "at" (.str when_.isoformat)).set "text" (.str text)).set
        "message_id" (.str messageId)
  { id := draw.id, tenantId, kind := ACTIVITY_KIND
    externalId := some (activityExternalIdForMessage messageId direction)
    data := extra.entries.foldl (fun d e => d.set e.1 e.2) data
    summary := activitySummary text
    createdAt := draw.createdAt, updatedAt := draw.updatedAt }

/-- `record_activity`: a turn that is already recorded is answered as it is. -/
def recordActivity (repo : Repository) (tenantId contactId direction text messageId : String)
    (activityType : String) (at_ : Option Datetime) (extra : Dict String Json) (draw : Draw) :
    Resource × Repository :=
  match repo.findByExternalId tenantId ACTIVITY_KIND
      (activityExternalIdForMessage messageId direction) with
  | some existing => (existing, repo)
  | none =>
    let activity := newActivity tenantId contactId direction text messageId activityType
      (at_.getD draw.now) extra draw
    (activity, repo.add activity)

/-- `record_inbound`: upsert the contact, then append the activity. -/
def recordInbound (U : Unicode) (repo : Repository) (tenantId fromNumber text messageId : String)
    (profileName : Option String) (at_ : Option Datetime) (contactDraw activityDraw : Draw) :
    Except Exc ((Resource × Resource) × Repository) := do
  let (contact, repo) ← upsertContactForInbound U repo tenantId fromNumber profileName at_
    contactDraw
  let (activity, repo) := recordActivity repo tenantId contact.id "inbound" text messageId
    "whatsapp_message" at_ Dict.empty activityDraw
  pure ((contact, activity), repo)

/-- `record_outbound`: no contact, no activity. -/
def recordOutbound (repo : Repository) (tenantId fromNumber text replyToMessageId : String)
    (at_ : Option Datetime) (extra : Dict String Json) (draw : Draw) :
    Option Resource × Repository :=
  match repo.findByExternalId tenantId CONTACT_KIND (contactExternalId fromNumber) with
  | none => (none, repo)
  | some contact =>
    let (activity, repo) := recordActivity repo tenantId contact.id "outbound" text
      replyToMessageId "whatsapp_message" at_ extra draw
    (some activity, repo)

end Wapsell.Crm
