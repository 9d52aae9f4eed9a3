import Wapsell.Tenant.Invariant

/-!
# One tenant for each id, slug and number

Ids are drawn and slugs are checked; a number is looked up by the onboarding
and by nobody else. So the table names one tenant for each id and each slug
whatever happens, and one for each number as long as no request and no
returning lifecycle operation writes a number that another tenant has.

The schema has an index on the number that is not unique, and the
in-memory adapter compares nothing, so a `PATCH` that sets a number
already taken is accepted. The condition is on the number the step
writes and the table before it.

What this does not establish: that a number belongs to the tenant's
business. The endpoint takes any text.
-/

namespace Wapsell.Tenants

open Lib Py Api Onboarding

/-- Ids, slugs and numbers are distinct, and the router answers the owner of a number. -/
structure Distinct (repo : Repository) : Prop where
  ids : repo.Unique fun t => some t.id
  slugs : repo.Unique fun t => some t.slug
  numbers : repo.Unique Tenant.whatsappPhoneNumberId
  resolves : ∀ n t, tryResolve repo n = some t ↔ t ∈ repo.values ∧ t.whatsappPhoneNumberId = some n

/-- Given ids and slugs, the numbers decide. -/
theorem distinct_iff {repo : Repository} (hkeyed : repo.Forall fun k t => t.id = k)
    (hslugs : repo.Unique fun t => some t.slug) :
    Distinct repo ↔ repo.Unique Tenant.whatsappPhoneNumberId := by
  refine ⟨Distinct.numbers, fun hnumbers => ⟨?_, hslugs, hnumbers, fun n t => ?_⟩⟩
  · intro k k' t t' id ht ht' hid hid'
    rw [← hkeyed k t ht, ← hkeyed k' t' ht']
    exact Option.some.inj (hid.trans hid'.symm)
  · refine tryResolve_eq_some_iff fun t ht t' ht' n hn hn' => ?_
    obtain ⟨k, hk⟩ := Dict.mem_values_iff.mp ht
    obtain ⟨k', hk'⟩ := Dict.mem_values_iff.mp ht'
    have hkk := hnumbers k k' t t' n hk hk' hn hn'
    subst hkk
    exact Option.some.inj (hk.symm.trans hk')

/-- The number the step sets is no other tenant's. A step that sets none is free. -/
def NumberFree (s : System) (l : Label) : Prop :=
  ∀ id n, writtenNumber s l = some (id, n) → ∀ k t, s.world.repo.get? k = some t →
    t.whatsappPhoneNumberId = some n → k = id

/-- A write keeps the numbers apart exactly when the number it sets is free. -/
theorem numbers_write_iff {s s' : System} {l : Label} {written : Option Tenant}
    (h : Written s l s' written) (hnumbers : s.world.repo.Unique Tenant.whatsappPhoneNumberId) :
    s'.world.repo.Unique Tenant.whatsappPhoneNumberId ↔ NumberFree s l := by
  have hset : ∀ t : Tenant, NumberOrigin s l (some t) →
      ((s.world.repo.set t.id t).Unique Tenant.whatsappPhoneNumberId ↔ NumberFree s l) := by
    intro t horigin
    rw [hnumbers.set_iff]
    rcases horigin with hsaid | ⟨hnone, horigin⟩
    · constructor
      · intro hfree id n hwritten k w hk hw
        rw [hsaid] at hwritten
        obtain ⟨m, hm, hpair⟩ := Option.map_eq_some_iff.mp hwritten
        cases hpair
        by_contra hne
        exact hfree k w (Ne.symm hne) hk n hm hw
      · intro hfree k w hne hk n hn hw
        exact hne (hfree t.id n (by rw [hsaid, hn]; rfl) k w hk hw).symm
    · have hguard : NumberFree s l := by
        intro id n hwritten
        rw [hnone] at hwritten
        cases hwritten
      refine iff_of_true (fun k w hne hk n hn hw => ?_) hguard
      rcases horigin with ⟨old, hold, hsame⟩ | hunowned
      · exact hne (hnumbers t.id k old w n hold hk (hsame ▸ hn) hw)
      · exact byPhoneNumberId_eq_none_iff.mp (hunowned n hn) k w hk hw
  obtain ⟨hwrite, horigin, -⟩ := h
  generalize s'.world.repo = repo' at hwrite ⊢
  cases hwrite with
  | nothing =>
    refine iff_of_true hnumbers fun id n hwritten => ?_
    rw [show writtenNumber s l = none from horigin] at hwritten
    cases hwritten
  | insert => exact hset _ horigin
  | rewrite => exact hset _ horigin

theorem distinct_init : Distinct System.init.world.repo :=
  (distinct_iff Inv.init.keyed Inv.init.slugs).mpr fun _ _ _ _ _ h => by cases h

/-- **The tenant table names one tenant for each id, slug and number** in every state of a run
exactly when no step of it writes a number that another tenant has.

Ids and slugs need no condition and are the invariant's part; the number is checked by nobody but
the onboarding. -/
theorem tenants_distinct_iff (U : Unicode) (ls : List Label) :
    EachState (step U) (fun s => Distinct s.world.repo) System.init ls ↔
      EachStep (step U) NumberFree System.init ls := by
  refine eachState_iff_eachStep (I := Inv) (fun s l s' h _ hs => h.step hs)
    (fun s l s' h hP hs => ?_) Inv.init distinct_init
  obtain ⟨written, hwritten⟩ := step_written h hs
  have h' := h.step hs
  rw [distinct_iff h'.keyed h'.slugs]
  exact numbers_write_iff hwritten hP.numbers

/-- Two tenants are created, the first with a number, and the second is given the same one. -/
def oneNumberTwice : List Label :=
  [.request (.create ⟨"t1", 0⟩ ⟨"Acme", "acme", none, some "111"⟩),
    .request (.create ⟨"t2", 0⟩ ⟨"Bazaar", "bazaar", none, none⟩),
    .request (.patch "t2" ⟨none, some "111"⟩)]

/-- `PATCH` gives a tenant the number another one has. -/
theorem not_tenants_distinct : ¬ ∀ (U : Unicode) (ls : List Label),
    EachState (step U) (fun s => Distinct s.world.repo) System.init ls := by
  intro h
  have hrun : ((run (step Unicode.ascii) System.init oneNumberTwice).map fun s =>
      ((s.world.repo.get? "t1").bind Tenant.whatsappPhoneNumberId,
        (s.world.repo.get? "t2").bind Tenant.whatsappPhoneNumberId)) =
      some (some "111", some "111") := by decide
  obtain ⟨s, hs, hnumbers⟩ := Option.map_eq_some_iff.mp hrun
  obtain ⟨hfirst, hsecond⟩ := Prod.mk.inj hnumbers
  obtain ⟨t, ht, hn⟩ := Option.bind_eq_some_iff.mp hfirst
  obtain ⟨t', ht', hn'⟩ := Option.bind_eq_some_iff.mp hsecond
  have hlast := (h Unicode.ascii oneNumberTwice).last hs
  exact absurd (hlast.numbers "t1" "t2" t t' "111" ht ht' hn hn') (by decide)

end Wapsell.Tenants
