import Wapsell.Models
import Wapsell.Py.Number

/-!
# Tenants and their router

`InMemoryTenantRepository` of `sdk/wapsell/tenant/repository.py`, and the
`TenantRouter` over it.

Each lookup answers the first row that fits, in the order of the
dictionary. With two tenants of one number the router would answer the
one that was added first for both, which is why the number is a key in
all but name.

`update` writes a whole row and checks that the id is there. Neither
`add` nor `update` looks at the slugs or the numbers of other rows.
-/

namespace Wapsell.Tenants

open Lib Py

/-- `_by_id`. -/
abbrev Repository := Dict String Tenant

namespace Repository

/-- `add`. -/
def add (repo : Repository) (tenant : Tenant) : Repository := repo.set tenant.id tenant

/-- `get`. -/
def get (repo : Repository) (tenantId : String) : Option Tenant := repo.get? tenantId

/-- `by_slug`. -/
def bySlug (repo : Repository) (slug : String) : Option Tenant :=
  repo.values.find? fun t => t.slug = slug

/-- `by_phone_number_id`. -/
def byPhoneNumberId (repo : Repository) (phoneNumberId : String) : Option Tenant :=
  repo.values.find? fun t => t.whatsappPhoneNumberId = some phoneNumberId

/-- `list_all`. -/
def listAll (repo : Repository) : List Tenant := repo.values

/-- `update`. -/
def update (repo : Repository) (tenant : Tenant) : Except Exc Repository :=
  if (repo.get? tenant.id).isSome then .ok (repo.set tenant.id tenant) else .error .keyError

end Repository

/-- `TenantRouter.try_resolve`. -/
def tryResolve (repo : Repository) (phoneNumberId : String) : Option Tenant :=
  repo.byPhoneNumberId phoneNumberId

/-- No two tenants share a number. Tenants without one are not compared. -/
def NumbersDistinct (repo : Repository) : Prop :=
  ∀ t ∈ repo.values, ∀ t' ∈ repo.values, ∀ n, t.whatsappPhoneNumberId = some n →
    t'.whatsappPhoneNumberId = some n → t = t'

/-- With distinct numbers the router answers the owner. -/
theorem tryResolve_eq_some_iff {repo : Repository} (h : NumbersDistinct repo) {n : String}
    {t : Tenant} :
    tryResolve repo n = some t ↔ t ∈ repo.values ∧ t.whatsappPhoneNumberId = some n := by
  constructor
  · intro hfound
    refine ⟨List.mem_of_find?_eq_some hfound, ?_⟩
    simpa only [decide_eq_true_eq] using List.find?_some hfound
  · rintro ⟨hmem, hn⟩
    cases hfound : tryResolve repo n with
    | none =>
      have := List.find?_eq_none.mp hfound t hmem
      simp [hn] at this
    | some t' =>
      have hn' : t'.whatsappPhoneNumberId = some n := by
        simpa only [decide_eq_true_eq] using List.find?_some hfound
      rw [h t' (List.mem_of_find?_eq_some hfound) t hmem n hn' hn]

end Wapsell.Tenants
