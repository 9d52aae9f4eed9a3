import Mathlib.Algebra.Order.BigOperators.Group.List
import Wapsell.Tenant.Repository
import Wapsell.Whatsapp.Webhook

/-!
# Routing a delivery

`webhook_receive` of `services/api/main.py`: one traversal of the payload
finds a number, the router finds its tenant, and a second traversal
collects every text message of the payload for that tenant. A delivery may
carry changes of several numbers; each message is then processed under its
own tenant exactly when all of them have the owner of the first number.

The router looks at the payload once and takes the first number it
meets, and the second traversal no longer looks at numbers at all. So a
delivery with changes of several numbers is processed under one tenant.
Whether that happens is up to Meta; a delivery of one number is routed
as it should be.

**What this does not establish.** The signature check, and what becomes
of the messages behind the endpoint. Payloads that are not of Meta's
form may raise, and are the matter of the module on what Meta is
answered.
-/

namespace Wapsell.Api

open Lib Py Whatsapp

/-- What the endpoint answers. -/
structure Response where
  status : Nat
  content : String
  deriving DecidableEq, Repr

/-- `webhook_receive`, for a body that parsed: the response, and the messages handed to
`_process_inbound_message` with their tenant, in order. `signed` is the outcome of the signature
check. -/
def webhookReceive (U : Unicode) (tenants : Tenants.Repository) (signed : Bool) (now : Datetime)
    (payload : Json) : Except Exc (Response × List (Tenant × InboundMessage)) :=
  if !signed then .ok (⟨401, "invalid signature"⟩, [])
  else do
    let phoneNumberId ← extractPhoneNumberId payload
    match phoneNumberId.bind (Tenants.tryResolve tenants) with
    | none => .ok (⟨200, "no tenant for this phone_number_id"⟩, [])
    | some tenant => do
      let messages ← parseMessages U tenant.id now payload
      .ok (⟨200, s!"received {messages.length} for {tenant.slug}"⟩,
        messages.map fun m => (tenant, m))

/-- The tenant that owns the number in the metadata of a change. -/
def ownerOf (tenants : Tenants.Repository) (change : Json) : Option Tenant :=
  (numberOf change).bind (Tenants.tryResolve tenants)

/-- The tenant that owns the first number of a payload. -/
def deliveryOwner (tenants : Tenants.Repository) (payload : Json) : Option Tenant :=
  ((changesOf payload).findSome? numberOf).bind (Tenants.tryResolve tenants)

/-- A change's text messages under a tenant; under none when there is none. -/
def processedUnder (U : Unicode) (now : Datetime) (owner : Option Tenant) (change : Json) :
    List (Tenant × InboundMessage) :=
  match owner with
  | none => []
  | some tenant => (messagesOf U tenant.id now change).map fun m => (tenant, m)

/-- Every text message once, under the tenant that owns the number of its own change: what the
endpoint is for, and not what it does. -/
def routedPerNumber (U : Unicode) (tenants : Tenants.Repository) (now : Datetime) (payload : Json) :
    List (Tenant × InboundMessage) :=
  (changesOf payload).flatMap fun change => processedUnder U now (ownerOf tenants change) change

/-- Every change that carries a text message has the owner of the first number. Two numbers of one
tenant have one owner, and so have two numbers that nobody owns. -/
def OneOwner (tenants : Tenants.Repository) (payload : Json) : Prop :=
  ∀ change ∈ changesOf payload, textMessages change ≠ [] →
    ownerOf tenants change = deliveryOwner tenants payload

/-- What the endpoint processes: every text message, under the owner of the first number. -/
theorem webhookReceive_ok (U : Unicode) (tenants : Tenants.Repository) (now : Datetime)
    {payload : Json} (h : wellFormed payload = true) :
    ∃ response, webhookReceive U tenants true now payload = .ok (response,
      (changesOf payload).flatMap (processedUnder U now (deliveryOwner tenants payload))) := by
  unfold webhookReceive
  simp only [Bool.not_true, Bool.false_eq_true, if_false, extractPhoneNumberId_ok h, ok_bind]
  cases howner : deliveryOwner tenants payload with
  | none =>
    have hbind : ((changesOf payload).findSome? numberOf).bind (Tenants.tryResolve tenants) = none :=
      howner
    rw [hbind]
    have hnil : (changesOf payload).flatMap (processedUnder U now none) = [] :=
      List.flatMap_eq_nil_iff.mpr fun _ _ => rfl
    exact ⟨_, by rw [hnil]⟩
  | some tenant =>
    have hbind : ((changesOf payload).findSome? numberOf).bind (Tenants.tryResolve tenants) =
      some tenant := howner
    rw [hbind]
    simp only [parseMessages_ok h, ok_bind, List.map_flatMap]
    exact ⟨_, rfl⟩

theorem processedUnder_of_noText {U : Unicode} {now : Datetime} {owner : Option Tenant}
    {change : Json} (h : textMessages change = []) : processedUnder U now owner change = [] := by
  cases owner with
  | none => rfl
  | some tenant => simp [processedUnder, messagesOf, h]

theorem length_processedUnder_some (U : Unicode) (now : Datetime) (tenant : Tenant)
    (change : Json) :
    (processedUnder U now (some tenant) change).length = (textMessages change).length := by
  simp [processedUnder, messagesOf]

theorem length_processedUnder_le (U : Unicode) (now : Datetime) (owner : Option Tenant)
    (change : Json) :
    (processedUnder U now owner change).length ≤ (textMessages change).length := by
  cases owner with
  | none => exact Nat.zero_le _
  | some tenant => exact (length_processedUnder_some U now tenant change).le

/-- A message under a tenant says which. -/
theorem fst_of_mem_processedUnder {U : Unicode} {now : Datetime} {owner : Option Tenant}
    {change : Json} {p : Tenant × InboundMessage} (h : p ∈ processedUnder U now owner change) :
    owner = some p.1 := by
  cases owner with
  | none => cases h
  | some tenant =>
    obtain ⟨m, -, rfl⟩ := List.mem_map.mp h
    rfl

/-- If the two lists hold the same messages, every change with a text message has the owner of the
first number. -/
theorem oneOwner_of_perm {U : Unicode} {tenants : Tenants.Repository} {now : Datetime}
    {payload : Json}
    (h : ((changesOf payload).flatMap (processedUnder U now (deliveryOwner tenants payload))).Perm
      (routedPerNumber U tenants now payload)) : OneOwner tenants payload := by
  intro change hchange htext
  have hown : ∀ p ∈ processedUnder U now (ownerOf tenants change) change,
      deliveryOwner tenants payload = some p.1 := by
    intro p hp
    have hmem : p ∈ routedPerNumber U tenants now payload :=
      List.mem_flatMap.mpr ⟨change, hchange, hp⟩
    obtain ⟨other, -, hother⟩ := List.mem_flatMap.mp (h.mem_iff.mpr hmem)
    exact fst_of_mem_processedUnder hother
  cases howner : ownerOf tenants change with
  | some tenant =>
    -- one of its messages is processed under the delivery's owner
    have hpos : 0 < (processedUnder U now (ownerOf tenants change) change).length := by
      rw [howner, length_processedUnder_some]
      exact List.length_pos_iff.mpr htext
    obtain ⟨p, hp⟩ := List.exists_mem_of_length_pos hpos
    rw [hown p hp, ← fst_of_mem_processedUnder hp, howner]
  | none =>
    cases hdelivery : deliveryOwner tenants payload with
    | none => rfl
    | some tenant =>
      -- its messages are processed and should not be: the lengths differ
      have hlen := h.length_eq
      rw [routedPerNumber, List.length_flatMap, List.length_flatMap, hdelivery] at hlen
      have hlt := List.sum_lt_sum
        (fun change => (processedUnder U now (ownerOf tenants change) change).length)
        (fun change => (processedUnder U now (some tenant) change).length)
        (fun c _ => (length_processedUnder_le U now _ c).trans
          (length_processedUnder_some U now tenant c).ge)
        ⟨change, hchange, by
          rw [howner, length_processedUnder_some]
          exact List.length_pos_iff.mpr htext⟩
      exact absurd hlen (ne_of_gt hlt)

/-- **Per-number routing.** A well-formed delivery has every text message processed exactly once,
under the tenant that owns the number of its own change and under no tenant where there is none,
exactly when every change with a text message has the owner of the first number in the payload. The
order in which messages are processed is not part of it. -/
theorem routed_per_number_iff (U : Unicode) (tenants : Tenants.Repository) (now : Datetime)
    {payload : Json} (h : wellFormed payload = true) :
    (∃ response processed, webhookReceive U tenants true now payload = .ok (response, processed) ∧
      processed.Perm (routedPerNumber U tenants now payload)) ↔ OneOwner tenants payload := by
  obtain ⟨response, hok⟩ := webhookReceive_ok U tenants now h
  constructor
  · rintro ⟨response', processed, hok', hperm⟩
    rw [hok] at hok'
    cases hok'
    exact oneOwner_of_perm hperm
  · intro hone
    refine ⟨response, _, hok, ?_⟩
    suffices hsame : (changesOf payload).flatMap
        (processedUnder U now (deliveryOwner tenants payload)) =
        routedPerNumber U tenants now payload by rw [hsame]
    refine List.flatMap_congr fun change hchange => ?_
    by_cases htext : textMessages change = []
    · rw [processedUnder_of_noText htext, processedUnder_of_noText htext]
    · rw [hone change hchange htext]

/-- A change as Meta sends it, with one text message. -/
def textChange (phoneNumberId messageId : String) : Json :=
  .obj [("field", .str "messages"), ("value", .obj [
    ("metadata", .obj [("phone_number_id", .str phoneNumberId)]),
    ("contacts", .arr [.obj [("wa_id", .str "5491100"), ("profile", .obj [("name", .str "Ana")])]]),
    ("messages", .arr [.obj [("from", .str "5491100"), ("id", .str messageId),
      ("type", .str "text"), ("text", .obj [("body", .str "hola")])]])])]

/-- A delivery of one entry. -/
def delivery (changes : List Json) : Json :=
  .obj [("object", .str "whatsapp_business_account"),
    ("entry", .arr [.obj [("id", .str "1"), ("changes", .arr changes)]])]

/-- A tenant with a number. -/
def tenantOf (id phoneNumberId : String) : Tenant where
  id := id
  name := id
  slug := id
  whatsappPhoneNumberId := some phoneNumberId
  createdAt := 0

/-- Two tenants with a number each. -/
def twoTenants : Tenants.Repository :=
  (Dict.empty.set "acme" (tenantOf "acme" "111")).set "beta" (tenantOf "beta" "222")

/-- Two messages to one number both get to its tenant. -/
theorem routed_to_one_number :
    ∃ response processed, webhookReceive Unicode.ascii twoTenants true 0
        (delivery [textChange "222" "wamid.1", textChange "222" "wamid.2"]) =
          .ok (response, processed) ∧
      processed.Perm (routedPerNumber Unicode.ascii twoTenants 0
        (delivery [textChange "222" "wamid.1", textChange "222" "wamid.2"])) :=
  (routed_per_number_iff Unicode.ascii twoTenants 0 (by decide)).mpr (by unfold OneOwner; decide)

/-- A delivery with a message to each of two tenants: both go to the first. -/
theorem not_routed_per_number : ¬ ∀ (U : Unicode) (tenants : Tenants.Repository) (now : Datetime)
    (payload : Json), wellFormed payload = true → Tenants.NumbersDistinct tenants →
    ∃ response processed, webhookReceive U tenants true now payload = .ok (response, processed) ∧
      processed.Perm (routedPerNumber U tenants now payload) := by
  intro h
  have hdistinct : Tenants.NumbersDistinct twoTenants := by
    intro t ht t' ht' n hn hn'
    have hall : ∀ t ∈ twoTenants.values, ∀ t' ∈ twoTenants.values,
        t.whatsappPhoneNumberId = t'.whatsappPhoneNumberId → t = t' := by decide
    exact hall t ht t' ht' (hn.trans hn'.symm)
  obtain ⟨_, processed, hok, hperm⟩ := h Unicode.ascii twoTenants 0
    (delivery [textChange "111" "wamid.1", textChange "222" "wamid.2"]) (by decide) hdistinct
  obtain ⟨_, hok'⟩ := webhookReceive_ok Unicode.ascii twoTenants 0
    (show wellFormed (delivery [textChange "111" "wamid.1", textChange "222" "wamid.2"]) = true by
      decide)
  rw [hok] at hok'
  cases hok'
  have hlen : (textMessages (textChange "222" "wamid.2")).length = 1 := by decide
  have howner := oneOwner_of_perm hperm (textChange "222" "wamid.2")
    (List.mem_cons_of_mem _ List.mem_cons_self) (List.ne_nil_of_length_eq_add_one hlen)
  exact absurd howner (by decide)

end Wapsell.Api
