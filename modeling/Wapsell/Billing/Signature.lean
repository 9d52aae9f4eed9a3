import Wapsell.Py.Interpreter

/-!
# The signature of a Mercado Pago notification

`verify_mp_webhook_signature` of `sdk/wapsell/billing/adapter.py`. The digest
is a parameter; the comparison in constant time refuses a text outside ASCII.

The notification names a preapproval and carries two headers. What the
webhook does with a request is decided before the service is called, and
the exceptions that can escape here are the two of Python's own
functions: an id that has no UTF-8 form, and a digest text outside
ASCII.

The canonical text ends in a semicolon, as the code builds it. That the
digest is a good one is asked of nobody: what is proved is which
requests get an answer, for every digest.
-/

namespace Wapsell.Billing

open Lib Py

/-- What escapes from the webhook. -/
inductive Escape
  | recursionError
  | attributeError
  | unicodeEncodeError
  | typeError
  deriving DecidableEq, Repr

/-- The digits of a digest. -/
def HexDigest : Type := { s : String // isAscii s = true }

/-- `hmac.new(secret, canonical, hashlib.sha256).hexdigest()`. -/
abbrev Hmac := String → String → HexDigest

/-- `hmac.compare_digest(expected, provided)`.

The digest that is expected is ASCII by its type, so only the header can make it raise. -/
def compareDigest (expected : HexDigest) (provided : String) : Except Escape Bool :=
  if isAscii provided then .ok (expected.1 == provided) else .error .typeError

/-- The parts of the header, by their names; of a name that comes twice the last. -/
def signatureParts (header : String) : Dict String String :=
  (header.toList.splitOn ',').foldl (fun parts chunk =>
    match partitionChar '=' (strip (String.ofList chunk)) with
    | some (k, v) => parts.set (strip k) (strip v)
    | none => parts) Dict.empty

/-- `parts.get("ts")`, empty where there is none. -/
def signatureTs (header : String) : String := (signatureParts header).getD "ts" ""

/-- `parts.get("v1")`, empty where there is none. -/
def signatureV1 (header : String) : String := (signatureParts header).getD "v1" ""

/-- `verify_mp_webhook_signature`; `unpaired` tells whether the id cannot be encoded.

Without a secret every request is let through, so that the webhook works before one is set. A header
without the two parts is refused before anything is encoded. -/
def verifyMpWebhookSignature (hmac : Hmac) (secret signatureHeader requestIdHeader dataId : String)
    (unpaired : Bool) : Except Escape Bool :=
  if secret = "" then .ok true
  else
    let ts := signatureTs signatureHeader
    let provided := signatureV1 signatureHeader
    if ts = "" ∨ provided = "" then .ok false
    else if unpaired then .error .unicodeEncodeError
    else
      compareDigest (hmac secret s!"id:{dataId};request-id:{requestIdHeader};ts:{ts};") provided

/-- Either there is nothing to compare, or the id can be encoded and the digest of the header
compared. -/
def comparable (secret signatureHeader : String) (unpaired : Bool) : Bool :=
  decide (secret = "" ∨ signatureTs signatureHeader = "" ∨ signatureV1 signatureHeader = "") ||
    (!unpaired && isAscii (signatureV1 signatureHeader))

/-- The check comes out exactly then. -/
theorem isOk_verify (hmac : Hmac) (secret signatureHeader requestIdHeader dataId : String)
    (unpaired : Bool) :
    (verifyMpWebhookSignature hmac secret signatureHeader requestIdHeader dataId unpaired).isOk =
      comparable secret signatureHeader unpaired := by
  unfold verifyMpWebhookSignature comparable compareDigest
  by_cases hsecret : secret = ""
  · simp [hsecret, Except.isOk, Except.toBool]
  · by_cases hparts : signatureTs signatureHeader = "" ∨ signatureV1 signatureHeader = ""
    · simp [hsecret, hparts, Except.isOk, Except.toBool]
    · rw [if_neg hsecret]
      dsimp only
      rw [if_neg hparts, decide_eq_false (by simp only [hsecret, hparts, or_self, not_false_eq_true])]
      cases unpaired with
      | true => rfl
      | false => cases isAscii (signatureV1 signatureHeader) <;> rfl

end Wapsell.Billing
