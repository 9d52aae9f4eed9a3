import Wapsell.Billing.Signature

/-!
# The Mercado Pago webhook

`mp_webhook` of `services/api/main.py`, from the bytes of the body to the
answer. Mercado Pago retries what is not a 200 for days, so an exception that
escapes is a notification sent over and over; `Answerable` is what it takes
for none to escape.

The four conditions are the four places at which an exception can
escape, in the order of the code: the parse catches what is no JSON but
not a stack that is too deep, `payload.get` asks for a dictionary, the
signature check encodes and compares texts, and an answer that only
acknowledges repeats the topic. Errors of the reconciliation are caught
and answered.

**What this does not establish.** That the notification is acted on;
what the reconciliation does has modules of its own. The HTTP framework
is trusted to send what the function returns.
-/

namespace Wapsell.Api

open Lib Py Billing

/-- A notification. -/
structure MpRequest where
  body : ByteArray
  /-- `x-signature`, empty where it is missing. -/
  signature : String
  /-- `x-request-id`, empty where it is missing. -/
  requestId : String

/-- What the webhook reads of its process: the secret, and what comes of `reconcile_from_webhook`
where there is a billing service. -/
structure MpProcess where
  /-- `os.environ.get("MP_WEBHOOK_SECRET", "").strip()`. -/
  secret : String
  reconcile : Option (Except String Unit)

/-- What the webhook answers: its dictionary, or HTTP 401. -/
inductive MpAnswer
  | content (status : String) (reason : Option String)
  | unauthorized
  deriving DecidableEq, Repr

/-- The HTTP status of an answer. -/
def MpAnswer.code : MpAnswer → Nat
  | .content _ _ => 200
  | .unauthorized => 401

/-- `json.loads(body.decode("utf-8"))`, an empty dictionary for an empty body. -/
def loadBody (I : Interpreter) (body : ByteArray) : Except LoadsError Json :=
  if body.size = 0 then .ok (.obj [])
  else match String.fromUTF8? body with
    | some text => I.loads text
    | none => .error .decode

/-- Is the value at this path of the body a string that cannot be encoded? A surrogate without its
partner is read as U+FFFD, and the text of any other value escapes it. -/
def unpairedIn (I : Interpreter) (body : ByteArray) (path : List String) : Json → Bool
  | .str s =>
    match String.fromUTF8? body with
    | some text => decide (Char.ofNat 0xFFFD ∈ s.toList) && I.unpaired text path
    | none => false
  | _ => false

/-- The key the topic is under: `type`, or `topic` where that is falsy. -/
def topicKey (payload : Json) : String :=
  if (payload.lookup "type" .null).truthy then "type" else "topic"

/-- `payload.get("type") or payload.get("topic") or ""`. -/
def topicValue (payload : Json) : Json :=
  let value := payload.lookup (topicKey payload) .null
  if value.truthy then value else .str ""

/-- `data.get("id", "")` of `payload.get("data") or {}`, empty where that is not a dictionary. -/
def dataIdValue (payload : Json) : Json := (payload.lookup "data" .null).lookup "id" (.str "")

/-- The topics that are reconciled. -/
def MP_TOPICS : List String := ["preapproval", "subscription_preapproval"]

/-- `mp_webhook` behind its signature check. -/
def mpVerified (U : Unicode) (I : Interpreter) (P : MpProcess) (req : MpRequest) (payload : Json) :
    Except Escape MpAnswer :=
  let topic := (topicValue payload).toStr U
  if topic ∉ MP_TOPICS then
    -- the topic is part of the answer, which is encoded
    if unpairedIn I req.body [topicKey payload] (topicValue payload) then .error .unicodeEncodeError
    else .ok (.content "ignored" (some s!"topic={topic}"))
  else if (dataIdValue payload).toStr U = "" then .ok (.content "ignored" (some "no data.id"))
  else match P.reconcile with
    | none => .ok (.content "ignored" (some "billing not configured"))
    | some (.error _) => .ok (.content "error" none)
    | some (.ok _) => .ok (.content "ok" none)

/-- The signature check of a notification. -/
def mpSignature (U : Unicode) (I : Interpreter) (hmac : Hmac) (P : MpProcess) (req : MpRequest)
    (payload : Json) : Except Escape Bool :=
  verifyMpWebhookSignature hmac P.secret req.signature req.requestId
    ((dataIdValue payload).toStr U)
    (unpairedIn I req.body ["data", "id"] (dataIdValue payload))

/-- `mp_webhook` for a dictionary. -/
def mpNotified (U : Unicode) (I : Interpreter) (hmac : Hmac) (P : MpProcess) (req : MpRequest)
    (payload : Json) : Except Escape MpAnswer := do
  let verified ← mpSignature U I hmac P req payload
  if verified then mpVerified U I P req payload else .ok .unauthorized

/-- `mp_webhook`. -/
def mpWebhook (U : Unicode) (I : Interpreter) (hmac : Hmac) (P : MpProcess) (req : MpRequest) :
    Except Escape MpAnswer :=
  match loadBody I req.body with
  | .error (.limit .recursion) => .error .recursionError
  | .error _ => .ok (.content "ignored" none)
  | .ok payload =>
    -- only a dictionary has a `get`
    if payload.isObj then mpNotified U I hmac P req payload else .error .attributeError

/-- The notifications nothing escapes on: the body does not nest too deep, a JSON body is a
dictionary, what the signature is checked with can be encoded and compared, and so can a topic that
is only acknowledged. Each is a condition on the request and the secret. -/
structure Answerable (U : Unicode) (I : Interpreter) (hmac : Hmac) (P : MpProcess)
    (req : MpRequest) : Prop where
  shallow : loadBody I req.body ≠ .error (.limit .recursion)
  dictionary : ∀ payload, loadBody I req.body = .ok payload → payload.isObj = true
  comparable : ∀ payload, loadBody I req.body = .ok payload →
    comparable P.secret req.signature
      (unpairedIn I req.body ["data", "id"] (dataIdValue payload)) = true
  encodable : ∀ payload, loadBody I req.body = .ok payload →
    mpSignature U I hmac P req payload = .ok true → (topicValue payload).toStr U ∉ MP_TOPICS →
    unpairedIn I req.body [topicKey payload] (topicValue payload) = false

variable {U : Unicode} {I : Interpreter} {hmac : Hmac} {P : MpProcess} {req : MpRequest}

/-- Both answers are among the two a sender expects. -/
theorem MpAnswer.code_eq (answer : MpAnswer) : answer.code = 200 ∨ answer.code = 401 := by
  cases answer with
  | content status reason => exact .inl rfl
  | unauthorized => exact .inr rfl

/-- Behind the check, only the topic of an acknowledgement has to be encoded. -/
theorem isOk_mpVerified (payload : Json) :
    (mpVerified U I P req payload).isOk = true ↔
      ((topicValue payload).toStr U ∉ MP_TOPICS →
        unpairedIn I req.body [topicKey payload] (topicValue payload) = false) := by
  unfold mpVerified
  dsimp only
  by_cases htopic : (topicValue payload).toStr U ∉ MP_TOPICS
  · rw [if_pos htopic]
    cases unpairedIn I req.body [topicKey payload] (topicValue payload) with
    | true => exact iff_of_false (fun h => by cases h) fun h => Bool.false_ne_true (h htopic).symm
    | false => exact ⟨fun _ _ => rfl, fun _ => rfl⟩
  · rw [if_neg htopic]
    refine ⟨fun _ h => absurd h htopic, fun _ => ?_⟩
    split
    · rfl
    · cases P.reconcile with
      | none => rfl
      | some outcome => cases outcome <;> rfl

/-- A dictionary is answered when the check comes out and an acknowledged topic can be encoded. -/
theorem isOk_mpNotified (payload : Json) :
    (mpNotified U I hmac P req payload).isOk = true ↔
      comparable P.secret req.signature
          (unpairedIn I req.body ["data", "id"] (dataIdValue payload)) = true ∧
        (mpSignature U I hmac P req payload = .ok true →
          (topicValue payload).toStr U ∉ MP_TOPICS →
          unpairedIn I req.body [topicKey payload] (topicValue payload) = false) := by
  have hcheck : (mpSignature U I hmac P req payload).isOk = _ := isOk_verify hmac P.secret _ _ _ _
  rw [← hcheck, mpNotified]
  cases mpSignature U I hmac P req payload with
  | error e =>
    constructor
    · intro h
      cases h
    · intro h
      cases h.1
  | ok verified =>
    cases verified with
    | false => exact ⟨fun _ => ⟨rfl, fun h => by cases h⟩, fun _ => rfl⟩
    | true =>
      refine (isOk_mpVerified payload).trans ⟨fun h => ⟨rfl, fun _ => h⟩, fun h => h.2 rfl⟩

/-- Nothing escapes on a body that is no JSON, but a recursion that is too deep. -/
theorem answerable_of_error {e : LoadsError} (hload : loadBody I req.body = .error e) :
    Answerable U I hmac P req ↔ e ≠ .limit .recursion := by
  have hnot : ∀ payload, loadBody I req.body ≠ .ok payload := by
    intro payload h
    rw [hload] at h
    cases h
  constructor
  · intro h he
    exact h.shallow (he ▸ hload)
  · intro he
    refine ⟨?_, fun payload h => absurd h (hnot payload), fun payload h => absurd h (hnot payload),
      fun payload h => absurd h (hnot payload)⟩
    rw [hload]
    exact fun h => he (Except.error.inj h)

/-- And on a JSON body, where it is a dictionary that `mp_webhook` answers. -/
theorem answerable_of_ok {payload : Json} (hload : loadBody I req.body = .ok payload) :
    Answerable U I hmac P req ↔
      payload.isObj = true ∧ (mpNotified U I hmac P req payload).isOk = true := by
  have hsame : ∀ other, loadBody I req.body = .ok other → other = payload := by
    intro other h
    rw [hload] at h
    exact (Except.ok.inj h).symm
  rw [isOk_mpNotified]
  constructor
  · intro h
    exact ⟨h.dictionary payload hload, h.comparable payload hload, h.encodable payload hload⟩
  · rintro ⟨hobj, hcomparable, hencodable⟩
    refine ⟨?_, ?_, ?_, ?_⟩
    · rw [hload]
      exact fun h => by cases h
    · intro other h
      rw [hsame other h]
      exact hobj
    · intro other h
      rw [hsame other h]
      exact hcomparable
    · intro other h
      rw [hsame other h]
      exact hencodable

/-- **The webhook answers only 200 or 401** exactly on the notifications nothing escapes on. All
else is a 500, since the two are the only codes the function itself answers with.

What comes behind the signature is caught by the handler. So the condition is on how the body is
read, on whether the check of the signature itself raises, and on the topic, which the answer
repeats. -/
theorem mp_webhook_answers_iff (U : Unicode) (I : Interpreter) (hmac : Hmac) (P : MpProcess)
    (req : MpRequest) :
    (∃ answer, mpWebhook U I hmac P req = .ok answer ∧
      (answer.code = 200 ∨ answer.code = 401)) ↔ Answerable U I hmac P req := by
  have hok : (∃ answer, mpWebhook U I hmac P req = .ok answer ∧
      (answer.code = 200 ∨ answer.code = 401)) ↔ (mpWebhook U I hmac P req).isOk = true := by
    cases mpWebhook U I hmac P req with
    | error e => exact iff_of_false (fun ⟨_, h, _⟩ => by cases h) fun h => by cases h
    | ok answer => exact ⟨fun _ => rfl, fun _ => ⟨answer, rfl, answer.code_eq⟩⟩
  rw [hok, mpWebhook]
  cases hload : loadBody I req.body with
  | error e =>
    rw [answerable_of_error hload]
    cases e with
    | decode => exact iff_of_true rfl fun h => by cases h
    | limit limit =>
      cases limit with
      | digits => exact iff_of_true rfl fun h => by cases h
      | recursion => exact iff_of_false (fun h => by cases h) fun h => h rfl
  | ok payload =>
    rw [answerable_of_ok hload]
    dsimp only
    cases payload.isObj with
    | false => exact iff_of_false (fun h => by cases h) fun h => Bool.false_ne_true h.1
    | true => rw [if_pos rfl, eq_self, true_and]

/-- A notification whose body is an empty list. -/
def emptyList : MpRequest := ⟨"[]".toUTF8, "", ""⟩

/-- The digest of a process without a secret, which is never taken. -/
def noDigest : Hmac := fun _ _ => ⟨"", rfl⟩

/-- A list has no `get`. -/
theorem not_mp_webhook_answers : ¬ ∀ (U : Unicode) (I : Interpreter) (hmac : Hmac) (P : MpProcess)
    (req : MpRequest), ∃ answer, mpWebhook U I hmac P req = .ok answer ∧
      (answer.code = 200 ∨ answer.code = 401) := by
  intro h
  obtain ⟨answer, hanswer, -⟩ := h Unicode.ascii Interpreter.boundless noDigest ⟨"", none⟩ emptyList
  have hfails : mpWebhook Unicode.ascii Interpreter.boundless noDigest ⟨"", none⟩ emptyList =
      .error .attributeError := by
    decide
  rw [hfails] at hanswer
  cases hanswer

end Wapsell.Api
