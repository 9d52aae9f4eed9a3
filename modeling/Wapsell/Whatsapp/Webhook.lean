import Wapsell.Models
import Wapsell.Py.Json

/-!
# WhatsApp webhook payloads

`sdk/wapsell/whatsapp/webhook.py`. Meta nests messages as
`entry[*].changes[*].value.messages[*]`, and each change carries in its
metadata the number it was delivered to. One function looks for a number,
another collects the messages; both walk the whole payload by themselves.

A payload is well formed when every container has the shape the code
assumes. On such a payload neither function raises, and what they answer is
what the changes of the payload, in order, hold.

The two walks share nothing, so a payload with changes for several
numbers is resolved by the first number found, and its messages are all
normalized for the tenant of that one.
-/

namespace Wapsell.Whatsapp

open Lib Py

/-- `change.get("value", {}).get("metadata", {}).get("phone_number_id")`, when it is a non-empty
string.

A number that is no text, or an empty one, is passed over. Where a level is no object the call
raises. -/
def changePhoneNumberId (change : Json) : Except Exc (Option String) := do
  let value ← change.get "value" (.obj [])
  let metadata ← value.get "metadata" (.obj [])
  match ← metadata.get "phone_number_id" .null with
  | .str pnid => pure (if pnid ≠ "" then some pnid else none)
  | _ => pure none

/-- `extract_phone_number_id`: the first one found.

Nothing is read behind the first, so a payload that is broken further on is still resolved. -/
def extractPhoneNumberId (body : Json) : Except Exc (Option String) := do
  let entries ← (← body.get "entry" (.arr [])).iter
  firstM (fun entry => do
    let changes ← (← entry.get "changes" (.arr [])).iter
    firstM changePhoneNumberId changes) entries

/-- The profile names of a change, by `wa_id`.

A later contact of one id wins. -/
def profileByWaId (U : Unicode) (contacts : List Json) (acc : Dict String String) :
    Except Exc (Dict String String) :=
  match contacts with
  | [] => .ok acc
  | contact :: rest => do
    let waId := strip ((← contact.get "wa_id" (.str "")).toStr U)
    let profile ← contact.get "profile" (.obj [])
    let name := strip ((← profile.get "name" (.str "")).toStr U)
    profileByWaId U rest (if waId ≠ "" ∧ name ≠ "" then acc.set waId name else acc)

/-- One item of `value.messages`: a text message, or nothing. Of another type nothing is read but
the type.

A field that is missing is an empty text, and one that is no text is spelled by `str`. -/
def parseMessage (U : Unicode) (tenantId : String) (receivedAt : Datetime)
    (profiles : Dict String String) (msg : Json) : Except Exc (List InboundMessage) := do
  if !(← msg.get "type" .null).pyEq (.str "text") then pure []
  else
    let fromNumber := (← msg.get "from" (.str "")).toStr U
    let text ← msg.get "text" (.obj [])
    pure [{
      tenantId, fromNumber
      text := (← text.get "body" (.str "")).toStr U
      messageId := (← msg.get "id" (.str "")).toStr U
      profileName := profiles.get? fromNumber
      receivedAt }]

/-- The messages of one change.

The contacts are read before the messages, so a contact that is no object raises even where no
message is a text. -/
def parseChange (U : Unicode) (tenantId : String) (receivedAt : Datetime) (change : Json) :
    Except Exc (List InboundMessage) := do
  let value ← change.get "value" (.obj [])
  let contacts ← (← value.get "contacts" (.arr [])).iter
  let profiles ← profileByWaId U contacts Dict.empty
  let messages ← (← value.get "messages" (.arr [])).iter
  flatMapM (parseMessage U tenantId receivedAt profiles) messages

/-- `parse_messages`; `receivedAt` is the clock as the delivery is parsed. -/
def parseMessages (U : Unicode) (tenantId : String) (receivedAt : Datetime) (body : Json) :
    Except Exc (List InboundMessage) := do
  let entries ← (← body.get "entry" (.arr [])).iter
  flatMapM (fun entry => do
    let changes ← (← entry.get "changes" (.arr [])).iter
    flatMapM (parseChange U tenantId receivedAt) changes) entries

/-! ## Well-formed payloads -/

section WellFormed

/-- `value` of a change. -/
def changeValue (change : Json) : Json := change.lookup "value" (.obj [])

/-- The messages a change carries, of any type. -/
def changeMessages (change : Json) : List Json :=
  ((changeValue change).lookup "messages" (.arr [])).items

/-- A message of type `text`. -/
def isText (msg : Json) : Bool := (msg.lookup "type" .null).pyEq (.str "text")

/-- The text messages a change carries. -/
def textMessages (change : Json) : List Json := (changeMessages change).filter isText

/-- The changes of a payload, in the order of its entries. -/
def changesOf (body : Json) : List Json :=
  (body.lookup "entry" (.arr [])).items.flatMap fun entry =>
    (entry.lookup "changes" (.arr [])).items

/-- The number in the metadata of a change. -/
def numberOf (change : Json) : Option String :=
  match ((changeValue change).lookup "metadata" (.obj [])).lookup "phone_number_id" .null with
  | .str pnid => if pnid ≠ "" then some pnid else none
  | _ => none

/-- A contact is an object, and so is its profile. -/
def wellFormedContact (contact : Json) : Bool :=
  contact.isObj && (contact.lookup "profile" (.obj [])).isObj

/-- A message is an object, and so is the text of a text message. -/
def wellFormedMessage (msg : Json) : Bool :=
  msg.isObj && (!isText msg || (msg.lookup "text" (.obj [])).isObj)

/-- The containers of a change have their shapes. -/
def wellFormedChange (change : Json) : Bool :=
  change.isObj && (changeValue change).isObj &&
    ((changeValue change).lookup "metadata" (.obj [])).isObj &&
    ((changeValue change).lookup "contacts" (.arr [])).isArr &&
    ((changeValue change).lookup "contacts" (.arr [])).items.all wellFormedContact &&
    ((changeValue change).lookup "messages" (.arr [])).isArr &&
    (changeMessages change).all wellFormedMessage

/-- An entry is an object with a list of changes. -/
def wellFormedEntry (entry : Json) : Bool :=
  entry.isObj && (entry.lookup "changes" (.arr [])).isArr &&
    (entry.lookup "changes" (.arr [])).items.all wellFormedChange

/-- A payload is an object with a list of entries, and so on for each level down to the text of a
message.

It asks for containers only. The values at the ends, ids and texts, may be any JSON. -/
def wellFormed (body : Json) : Bool :=
  body.isObj && (body.lookup "entry" (.arr [])).isArr &&
    (body.lookup "entry" (.arr [])).items.all wellFormedEntry

/-- The profile names, where nothing raises. -/
def profilesOf (U : Unicode) : List Json → Dict String String → Dict String String
  | [], acc => acc
  | contact :: rest, acc =>
    let waId := strip ((contact.lookup "wa_id" (.str "")).toStr U)
    let name := strip (((contact.lookup "profile" (.obj [])).lookup "name" (.str "")).toStr U)
    profilesOf U rest (if waId ≠ "" ∧ name ≠ "" then acc.set waId name else acc)

/-- A text message of a change, normalized for a tenant. -/
def normalize (U : Unicode) (tenantId : String) (receivedAt : Datetime) (change msg : Json) :
    InboundMessage :=
  let profiles := profilesOf U ((changeValue change).lookup "contacts" (.arr [])).items Dict.empty
  let fromNumber := (msg.lookup "from" (.str "")).toStr U
  { tenantId, fromNumber
    text := ((msg.lookup "text" (.obj [])).lookup "body" (.str "")).toStr U
    messageId := (msg.lookup "id" (.str "")).toStr U
    profileName := profiles.get? fromNumber
    receivedAt }

/-- The text messages of a change, normalized for a tenant. -/
def messagesOf (U : Unicode) (tenantId : String) (receivedAt : Datetime) (change : Json) :
    List InboundMessage :=
  (textMessages change).map (normalize U tenantId receivedAt change)

theorem changePhoneNumberId_ok {change : Json} (h : wellFormedChange change = true) :
    changePhoneNumberId change = .ok (numberOf change) := by
  simp only [wellFormedChange, Bool.and_eq_true, changeValue] at h
  obtain ⟨⟨⟨⟨⟨⟨hobj, hvalue⟩, hmeta⟩, -⟩, -⟩, -⟩, -⟩ := h
  simp only [changePhoneNumberId, Json.get_of_isObj hobj, Json.get_of_isObj hvalue,
    Json.get_of_isObj hmeta, ok_bind, numberOf, changeValue]
  cases ((change.lookup "value" (.obj [])).lookup "metadata" (.obj [])).lookup "phone_number_id"
    .null <;> rfl

theorem profileByWaId_ok {U : Unicode} : ∀ {contacts : List Json} {acc : Dict String String},
    contacts.all wellFormedContact = true →
      profileByWaId U contacts acc = .ok (profilesOf U contacts acc)
  | [], _, _ => rfl
  | contact :: rest, acc, h => by
    simp only [List.all_cons, Bool.and_eq_true, wellFormedContact] at h
    obtain ⟨⟨hobj, hprofile⟩, hrest⟩ := h
    simp only [profileByWaId, Json.get_of_isObj hobj, Json.get_of_isObj hprofile, ok_bind,
      profilesOf]
    exact profileByWaId_ok hrest

theorem parseMessage_ok {U : Unicode} {tenantId : String} {receivedAt : Datetime}
    {profiles : Dict String String} {msg : Json} (h : wellFormedMessage msg = true) :
    parseMessage U tenantId receivedAt profiles msg = .ok (if isText msg then
      [{ tenantId, fromNumber := (msg.lookup "from" (.str "")).toStr U
         text := ((msg.lookup "text" (.obj [])).lookup "body" (.str "")).toStr U
         messageId := (msg.lookup "id" (.str "")).toStr U
         profileName := profiles.get? ((msg.lookup "from" (.str "")).toStr U)
         receivedAt }] else []) := by
  simp only [wellFormedMessage, Bool.and_eq_true, Bool.or_eq_true, Bool.not_eq_true'] at h
  obtain ⟨hobj, htext⟩ := h
  simp only [parseMessage, Json.get_of_isObj hobj, ok_bind]
  cases hty : isText msg with
  | false =>
    have hty' : (msg.lookup "type" .null).pyEq (.str "text") = false := hty
    rw [hty']
    rfl
  | true =>
    have hty' : (msg.lookup "type" .null).pyEq (.str "text") = true := hty
    rw [hty] at htext
    have hobj' := htext.resolve_left (by decide)
    rw [hty']
    simp only [Json.get_of_isObj hobj', ok_bind]
    rfl

theorem parseChange_ok {U : Unicode} {tenantId : String} {receivedAt : Datetime} {change : Json}
    (h : wellFormedChange change = true) :
    parseChange U tenantId receivedAt change = .ok (messagesOf U tenantId receivedAt change) := by
  simp only [wellFormedChange, Bool.and_eq_true, changeValue, changeMessages] at h
  obtain ⟨⟨⟨⟨⟨⟨hobj, hvalue⟩, -⟩, hcontacts⟩, hcs⟩, hmessages⟩, hms⟩ := h
  simp only [parseChange, Json.get_of_isObj hobj, Json.get_of_isObj hvalue, ok_bind,
    Json.iter_of_isArr hcontacts, Json.iter_of_isArr hmessages, profileByWaId_ok hcs]
  rw [flatMapM_ok fun msg hmsg => parseMessage_ok (List.all_eq_true.mp hms msg hmsg)]
  simp only [messagesOf, textMessages, changeMessages, changeValue]
  congr 1
  generalize ((change.lookup "value" (.obj [])).lookup "messages" (.arr [])).items = msgs
  induction msgs with
  | nil => rfl
  | cons msg msgs ih =>
    rw [List.flatMap_cons, ih]
    cases hty : isText msg with
    | false => simp [hty]
    | true => simp [hty, normalize, changeValue]

/-- On a well-formed payload the number found is the first that a change carries. -/
theorem extractPhoneNumberId_ok {body : Json} (h : wellFormed body = true) :
    extractPhoneNumberId body = .ok ((changesOf body).findSome? numberOf) := by
  simp only [wellFormed, Bool.and_eq_true] at h
  obtain ⟨⟨hobj, hentries⟩, hes⟩ := h
  simp only [extractPhoneNumberId, Json.get_of_isObj hobj, ok_bind, Json.iter_of_isArr hentries]
  rw [firstM_ok (g := fun entry => (entry.lookup "changes" (.arr [])).items.findSome? numberOf),
    changesOf, findSome?_flatMap]
  intro entry hentry
  have he := List.all_eq_true.mp hes entry hentry
  simp only [wellFormedEntry, Bool.and_eq_true] at he
  obtain ⟨⟨heobj, hchanges⟩, hcs⟩ := he
  simp only [Json.get_of_isObj heobj, ok_bind, Json.iter_of_isArr hchanges]
  exact firstM_ok fun change hchange =>
    changePhoneNumberId_ok (List.all_eq_true.mp hcs change hchange)

/-- On a well-formed payload the messages are those of its changes, in order. -/
theorem parseMessages_ok {U : Unicode} {tenantId : String} {receivedAt : Datetime} {body : Json}
    (h : wellFormed body = true) :
    parseMessages U tenantId receivedAt body =
      .ok ((changesOf body).flatMap (messagesOf U tenantId receivedAt)) := by
  simp only [wellFormed, Bool.and_eq_true] at h
  obtain ⟨⟨hobj, hentries⟩, hes⟩ := h
  simp only [parseMessages, Json.get_of_isObj hobj, ok_bind, Json.iter_of_isArr hentries]
  rw [flatMapM_ok (g := fun entry => (entry.lookup "changes" (.arr [])).items.flatMap
    (messagesOf U tenantId receivedAt)), changesOf, List.flatMap_assoc]
  intro entry hentry
  have he := List.all_eq_true.mp hes entry hentry
  simp only [wellFormedEntry, Bool.and_eq_true] at he
  obtain ⟨⟨heobj, hchanges⟩, hcs⟩ := he
  simp only [Json.get_of_isObj heobj, ok_bind, Json.iter_of_isArr hchanges]
  exact flatMapM_ok fun change hchange => parseChange_ok (List.all_eq_true.mp hcs change hchange)

end WellFormed

end Wapsell.Whatsapp
