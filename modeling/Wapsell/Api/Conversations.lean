import Mathlib.Data.Set.Basic
import Wapsell.Memory.Threads
import Wapsell.Tenant.Repository

/-!
# Whose conversation a buyer id is

A buyer id is a slug, a colon and a number. The inbox routes of
`services/api/main.py` read it back in two places: the guard tests the
tenant's slug and a colon as a prefix, and the address of a human reply is
what follows the first colon. Nothing escapes a colon inside a slug, so the
three agree exactly on the tenants whose slug has none.

That is the condition of the equivalence, and it is on the tenants
alone: the numbers are any. What a caller of another tenant is shown is
not settled here, only whose the guard takes a conversation to be; the
listing, which asks the store by the same prefix, is treated with the
store.
-/

namespace Wapsell.Api

open Lib Py

/-- `buyer_id.startswith(f"{tenant.slug}:")`, the guard of `_tenant_for_conv`. -/
def passesGuard (tenant : Tenant) (buyerId : String) : Bool :=
  startsWith (tenant.slug ++ ":") buyerId

/-- `_split_from_number`. -/
def splitFromNumber (buyerId : String) : String :=
  match partitionChar ':' buyerId with
  | some (_, rest) => rest
  | none => buyerId

theorem toList_buyerIdFor (slug number : String) :
    (buyerIdFor slug number).toList = slug.toList ++ ':' :: number.toList := by
  show (slug ++ ":" ++ number).toList = _
  rw [String.toList_append, String.toList_append, List.append_assoc]
  rfl

/-- A slug without a colon is cut off whole. -/
theorem partitionChar_buyerIdFor {slug : String} (h : ':' ∉ slug.toList) (number : String) :
    partitionChar ':' (buyerIdFor slug number) = some (slug, number) := by
  rw [partitionChar, toList_buyerIdFor, dropWhile_sep h, takeWhile_sep h, String.ofList_toList]
  exact congrArg (fun rest => some (slug, rest)) String.ofList_toList

/-- Any other slug leaves its own end in the number. -/
theorem splitFromNumber_of_mem {slug : String} (h : ':' ∈ slug.toList) (number : String) :
    splitFromNumber (buyerIdFor slug number) ≠ number := by
  obtain ⟨a, b, hslug, ha⟩ := List.eq_append_cons_of_mem h
  rw [splitFromNumber, partitionChar, toList_buyerIdFor, hslug, List.append_assoc, List.cons_append,
    dropWhile_sep ha]
  intro heq
  have hlen := congrArg String.length heq
  rw [String.length_ofList, List.length_append, List.length_cons, String.length_toList] at hlen
  omega

/-- A human reply goes to the number that wrote exactly when the slug has no colon. -/
theorem splitFromNumber_buyerIdFor_iff {slug number : String} :
    splitFromNumber (buyerIdFor slug number) = number ↔ ':' ∉ slug.toList := by
  constructor
  · intro h hmem
    exact splitFromNumber_of_mem hmem number h
  · intro h
    rw [splitFromNumber, partitionChar_buyerIdFor h]

/-- Between slugs without a colon the guard lets a tenant's own ids through. -/
theorem slug_eq_of_passesGuard {tenant : Tenant} {slug number : String}
    (h : ':' ∉ tenant.slug.toList) (h' : ':' ∉ slug.toList)
    (hpass : passesGuard tenant (buyerIdFor slug number) = true) : tenant.slug = slug := by
  obtain ⟨rest, hrest⟩ := List.isPrefixOf_iff_prefix.mp hpass
  rw [toList_buyerIdFor, String.toList_append, List.append_assoc] at hrest
  have htake := congrArg (List.takeWhile (· ≠ ':')) hrest
  rw [show ":".toList ++ rest = ':' :: rest from rfl, takeWhile_sep h, takeWhile_sep h'] at htake
  exact String.toList_inj.mp htake

/-- The page of a tenant lists no thread of another in Postgres, when both slugs are without a
colon and the tenant's own is literal. -/
theorem slug_eq_of_listed {tenant : Tenant} {slug number : String} (hlit : Memory.IsLiteral tenant.slug)
    (h : ':' ∉ tenant.slug.toList) (h' : ':' ∉ slug.toList) {limit : Int}
    {table : Memory.BuyerTable} {threads : List Memory.BuyerThreadSummary}
    (hthreads : table.listThreads (some (tenant.slug ++ ":")) limit = some threads)
    {thread : Memory.BuyerThreadSummary} (hmem : thread ∈ threads)
    (hid : thread.buyerId = buyerIdFor slug number) : tenant.slug = slug := by
  have hbegins := (Memory.page_confined_iff tenant.slug).mpr hlit table limit threads hthreads
    thread hmem
  rw [hid] at hbegins
  exact slug_eq_of_passesGuard h h' hbegins

/-- The three readings of a buyer id agree on whose it is, for these tenants and numbers. -/
structure Namespaced (tenants : Tenants.Repository) (numbers : Set String) : Prop where
  injective : ∀ t ∈ tenants.values, ∀ t' ∈ tenants.values, ∀ n ∈ numbers, ∀ n' ∈ numbers,
    buyerIdFor t.slug n = buyerIdFor t'.slug n' → t.slug = t'.slug ∧ n = n'
  guarded : ∀ t ∈ tenants.values, ∀ t' ∈ tenants.values, t.slug ≠ t'.slug → ∀ n ∈ numbers,
    passesGuard t (buyerIdFor t'.slug n) = false
  addressed : ∀ t ∈ tenants.values, ∀ n ∈ numbers, splitFromNumber (buyerIdFor t.slug n) = n

/-- **Buyer ids keep tenants apart** exactly when no slug has a colon, whatever the phone numbers
are.

The numbers are any texts. The condition is on the slugs alone: the first colon of a buyer id is the
one behind the slug exactly when the slug has none. -/
theorem namespaced_iff {numbers : Set String} (hne : numbers.Nonempty)
    (tenants : Tenants.Repository) :
    Namespaced tenants numbers ↔ ∀ t ∈ tenants.values, ':' ∉ t.slug.toList := by
  constructor
  · intro h t ht
    obtain ⟨n, hn⟩ := hne
    exact splitFromNumber_buyerIdFor_iff.mp (h.addressed t ht n hn)
  · intro h
    refine ⟨fun t ht t' ht' n _ n' _ heq => ?_, fun t ht t' ht' hslug n _ => ?_, fun t ht n _ => ?_⟩
    · have hparts := congrArg (partitionChar ':') heq
      rw [partitionChar_buyerIdFor (h t ht), partitionChar_buyerIdFor (h t' ht'),
        Option.some.injEq, Prod.mk.injEq] at hparts
      exact hparts
    · by_contra hpass
      rw [Bool.not_eq_false] at hpass
      exact hslug (slug_eq_of_passesGuard (h t ht) (h t' ht') hpass)
    · exact splitFromNumber_buyerIdFor_iff.mpr (h t ht)

/-- Phone numbers as WhatsApp sends them: digits alone. -/
def phoneNumbers : Set String := { n | n.toList ≠ [] ∧ n.toList.all Char.isDigit = true }

/-- A tenant by its slug. -/
def tenantOfSlug (slug : String) : Tenant where
  id := slug
  name := slug
  slug := slug
  createdAt := 0

/-- Tenants by their slugs. -/
def tenantsOfSlugs (slugs : List String) : Tenants.Repository :=
  slugs.foldl (fun repo slug => repo.add (tenantOfSlug slug)) Dict.empty

/-- Two tenants, the slug of one in front of the other's: their conversations stay apart. -/
theorem namespaced_acme_acme2 : Namespaced (tenantsOfSlugs ["acme", "acme-2"]) phoneNumbers :=
  (namespaced_iff (show phoneNumbers.Nonempty from ⟨"549", by decide, by decide⟩)
    (tenantsOfSlugs ["acme", "acme-2"])).mpr (by decide)

/-- The tenant `a` reads the conversations of the tenant `a:b`, and a reply to one of these is
addressed to `b:549`. -/
theorem not_namespaced : ¬ ∀ tenants : Tenants.Repository,
    (tenants.values.map Tenant.slug).Nodup → Namespaced tenants phoneNumbers := by
  intro h
  have hall := h (tenantsOfSlugs ["a", "a:b"]) (by decide)
  have hguard := hall.guarded (tenantOfSlug "a") (by decide) (tenantOfSlug "a:b") (by decide)
    (by decide) "549" ⟨by decide, by decide⟩
  revert hguard
  decide

end Wapsell.Api
