import Wapsell.Crm.Contacts
import Wapsell.Crm.Frame

/-!
# The counter is a number

`isinstance(turn_count, int)` is asked of a contact that two writers share.
The recorder puts a number there, and the extractor leaves the one there
was, so a contact that this process created always has one.

Without this fact the recorder would start a counter over at one
whenever it found something else than a number, and the count would be
lost. It is an invariant of the interleaving of both writers, and each
of them keeps it by itself.

A contact that something else wrote, with a text for a counter, is not
covered.
-/

namespace Wapsell.Crm

open Lib Py Resources

/-- The row has a number for a counter, if it is the contact of the phone. -/
def Counts (tenantId fromNumber : String) (r : Resource) : Prop :=
  r.tenantId = tenantId → r.kind = CONTACT_KIND →
    r.externalId = some (contactExternalId fromNumber) →
      ∃ n : Int, r.data.get? "turn_count" = some (.int n)

/-- Whatever row is the contact of the phone has a number for a counter. -/
def Counting (tenantId fromNumber : String) (repo : Repository) : Prop :=
  Dict.Forall (fun _ r => Counts tenantId fromNumber r) repo

section Rules

variable {tenantId fromNumber : String} {repo : Repository} {r : Resource}

theorem Counts.of_number {n : Int} (h : r.data.get? "turn_count" = some (.int n)) :
    Counts tenantId fromNumber r :=
  fun _ _ _ => ⟨n, h⟩

theorem Counts.of_kind (h : r.kind ≠ CONTACT_KIND) : Counts tenantId fromNumber r :=
  fun _ hkind _ => absurd hkind h

/-- A phone without a contact. -/
theorem Counting.of_none (h : contactOf repo tenantId fromNumber = none) :
    Counting tenantId fromNumber repo := by
  intro k r hk ht hkind he
  have hnot := List.find?_eq_none.mp h r (Dict.mem_values_iff.mpr ⟨k, hk⟩)
  rw [decide_eq_true_eq] at hnot
  exact absurd ⟨ht, hkind, he⟩ hnot

theorem Counting.add (h : Counting tenantId fromNumber repo) (hr : Counts tenantId fromNumber r) :
    Counting tenantId fromNumber (repo.add r) :=
  Dict.Forall.set h hr

theorem Counting.upsert (h : Counting tenantId fromNumber repo)
    (hr : Counts tenantId fromNumber r) : Counting tenantId fromNumber (repo.upsert r) := by
  intro k row hk
  rcases Repository.get?_upsert_eq_some hk with rfl | hold
  · exact hr
  · exact h k row hold

/-- The number is what the contact is said to count. -/
theorem Counting.turnCount {U : Unicode} {c : Resource} {n : Int}
    (h : Counting tenantId fromNumber repo) (hI : RowIds repo)
    (hc : contactOf repo tenantId fromNumber = some c)
    (hn : turnsOf U repo tenantId fromNumber = .ok n) :
    c.data.get? "turn_count" = some (.int n) := by
  obtain ⟨hget, ht, hkind, he⟩ := contactOf_eq_some hI hc
  obtain ⟨m, hm⟩ := h c.id c hget ht hkind he
  rw [turnsOf, hc] at hn
  simp only [Dict.getD, hm, Option.getD_some, Json.toInt_int] at hn
  cases hn
  exact hm

end Rules

/-! ## The writers -/

section Writers

variable {U : Unicode} {t n : String} {repo : Repository} (h : Counting t n repo)

include h

theorem Counting.recordActivity (tenantId contactId direction text messageId activityType : String)
    (at_ : Option Datetime) (extra : Dict String Json) (draw : Draw) :
    Counting t n (recordActivity repo tenantId contactId direction text messageId activityType at_
      extra draw).2 := by
  rcases recordActivity_cases repo tenantId contactId direction text messageId activityType at_ extra
    draw with hrepo | ⟨-, hrepo⟩
  · rw [hrepo]
    exact h
  · rw [hrepo]
    exact h.add (.of_kind (show ACTIVITY_KIND ≠ CONTACT_KIND by decide))

theorem Counting.upsertContactForInbound {tenantId fromNumber : String}
    {profileName : Option String} {at_ : Option Datetime} {draw : Draw} {c : Resource}
    {repo' : Repository} (hok : upsertContactForInbound U repo tenantId fromNumber profileName at_
      draw = .ok (c, repo')) : Counting t n repo' := by
  rcases upsertContactForInbound_eq_ok hok with ⟨-, rfl, rfl⟩ | ⟨existing, m, -, -, rfl, rfl⟩
  · exact h.add (.of_number (newContact_turnCount _ _ _ _ _))
  · exact h.upsert (.of_number (bumpedContact_turnCount _ _ _ _ _))

theorem Counting.recordedInbound (tenantId fromNumber text messageId : String)
    (profileName : Option String) (at_ : Option Datetime) (contactDraw activityDraw : Draw) :
    Counting t n (recordedInbound U repo tenantId fromNumber text messageId profileName at_
      contactDraw activityDraw) := by
  unfold Crm.recordedInbound recordInbound
  cases hup : Crm.upsertContactForInbound U repo tenantId fromNumber profileName at_ contactDraw with
  | error e => exact h
  | ok pair =>
    obtain ⟨c, repo'⟩ := pair
    exact (h.upsertContactForInbound hup).recordActivity _ _ _ _ _ _ _ _ _

theorem Counting.recordOutbound (tenantId fromNumber text replyToMessageId : String)
    (at_ : Option Datetime) (extra : Dict String Json) (draw : Draw) :
    Counting t n (recordOutbound repo tenantId fromNumber text replyToMessageId at_ extra draw).2 := by
  unfold Crm.recordOutbound
  cases repo.findByExternalId tenantId CONTACT_KIND (contactExternalId fromNumber) with
  | none => exact h
  | some contact => exact h.recordActivity _ _ _ _ _ _ _ _ _

/-- The patch leaves the counter alone, and what is written beside it is no contact. -/
theorem Counting.applied (hI : RowIds repo) {tenantId contactId : String}
    {result : ExtractionResult} {draw : ApplyDraw} (hF : draw.Fresh repo result) :
    Counting t n (applied U repo tenantId contactId result draw) := by
  by_cases hA : Applies U repo tenantId contactId result
  · obtain ⟨hempty, contact, hget, ht, data, changed, hok⟩ := hA
    obtain rfl := hI contactId contact hget
    intro x row hrow
    cases hx : repo.get? x with
    | none =>
      obtain ⟨-, hkind, -⟩ := applied_added hI hget hempty ht hok hx hrow
      refine .of_kind fun hcontact => ?_
      rw [hcontact] at hkind
      exact absurd hkind (by decide)
    | some old =>
      rw [get?_applied hI hget hempty ht hok hF hx] at hrow
      split at hrow
      · cases hrow
        have hcounts := h contact.id contact hget
        cases changed with
        | false => exact hcounts
        | true =>
          intro htenant hkind he
          obtain ⟨m, hm⟩ := hcounts htenant hkind he
          refine ⟨m, ?_⟩
          rw [← hm]
          exact patched_protected hok (by decide)
      · split at hrow
        · cases hrow
          exact h x row hx
        · cases hrow
  · rw [applied_of_not_applies hA]
    exact h

end Writers

end Wapsell.Crm
