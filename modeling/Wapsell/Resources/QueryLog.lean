import Wapsell.Lib.Sort
import Wapsell.Resources.Learning

/-!
# The query log

`InMemoryQueryLogRepository` of `sdk/wapsell/resources/repository.py`: one
list for all tenants. `record` numbers the entries of the whole log, so the
ids of one tenant depend on what the others searched; their order does not,
and the order is all that `list_recent` takes from them.

That the numbers of one tenant show how much the others searched is the
only way one tenant's log depends on another's, and the learning loop
does not look at the numbers.
-/

namespace Wapsell.Resources

open Lib Py

/-- `record`: the next id is one more than the number of entries. -/
def record (queryLog : List QueryLogEntry) (entry : QueryLogEntry) : List QueryLogEntry :=
  queryLog ++ [{ entry with id := some (queryLog.length + 1) }]

/-- A log that was written by `record` alone.

The numbers of its entries are what the log gave them. A list that was put together by hand can have
any. -/
inductive Recorded : List QueryLogEntry → Prop
  | empty : Recorded []
  | record {queryLog : List QueryLogEntry} (h : Recorded queryLog) (entry : QueryLogEntry) :
      Recorded (record queryLog entry)

/-- An entry without its id. -/
def QueryLogEntry.withoutId (e : QueryLogEntry) : QueryLogEntry := { e with id := none }

/-- The entries of one tenant. -/
def ofTenant (queryLog : List QueryLogEntry) (tenantId : String) : List QueryLogEntry :=
  queryLog.filter fun e => e.tenantId = tenantId

/-- The ids of a recorded log increase, up to its length. -/
theorem Recorded.numbered {queryLog : List QueryLogEntry} (h : Recorded queryLog) :
    (queryLog.Pairwise fun a b => a.id.getD 0 < b.id.getD 0) ∧
      ∀ e ∈ queryLog, e.id.getD 0 ≤ queryLog.length := by
  induction h with
  | empty => exact ⟨List.Pairwise.nil, fun e he => absurd he List.not_mem_nil⟩
  | record _ entry ih =>
    obtain ⟨hpair, hle⟩ := ih
    constructor
    · refine List.pairwise_append.mpr ⟨hpair, List.pairwise_singleton _ _, fun a ha b hb => ?_⟩
      cases List.mem_singleton.mp hb
      exact Nat.lt_succ_of_le (hle a ha)
    · intro e he
      rw [Resources.record, List.length_append, List.length_singleton]
      rcases List.mem_append.mp he with hold | hnew
      · exact (hle e hold).trans (Nat.le_succ _)
      · cases List.mem_singleton.mp hnew
        exact Nat.le_refl _

theorem Recorded.numbered_ofTenant {queryLog : List QueryLogEntry} (h : Recorded queryLog)
    (tenantId : String) :
    (ofTenant queryLog tenantId).Pairwise fun a b => a.id.getD 0 < b.id.getD 0 :=
  h.numbered.1.sublist List.filter_sublist

/-- `list_recent` does not see the ids, only the order they were given in. -/
theorem listRecent_withoutId {log log' : List QueryLogEntry} {tenantId : String}
    (h : Recorded log) (h' : Recorded log')
    (hsame : (ofTenant log tenantId).map QueryLogEntry.withoutId =
      (ofTenant log' tenantId).map QueryLogEntry.withoutId) (limit : Int) :
    (listRecent log tenantId limit).map QueryLogEntry.withoutId =
      (listRecent log' tenantId limit).map QueryLogEntry.withoutId := by
  have hids := pairwise_zip (length_eq_of_map_eq hsame) (h.numbered_ofTenant tenantId)
    (h'.numbered_ofTenant tenantId)
  have hdates : ∀ p ∈ (ofTenant log tenantId).zip (ofTenant log' tenantId),
      p.1.createdAt = p.2.createdAt := fun p hp => by
    have hentry := congrArg QueryLogEntry.createdAt (map_eq_of_mem_zip hsame hp)
    exact hentry
  unfold listRecent
  rw [map_upTo, map_upTo]
  congr 1
  refine map_insertionSort_congr hsame ?_ fun p hp => by rw [hdates p hp]; simp
  refine hids.imp_of_mem fun {p q} hp hq hlt => ?_
  -- the earlier entry has the smaller id in both logs
  rw [hdates p hp, hdates q hq]
  constructor
  · exact or_congr Iff.rfl (and_congr Iff.rfl (iff_of_false hlt.1.not_ge hlt.2.not_ge))
  · exact or_congr Iff.rfl (and_congr Iff.rfl (iff_of_true hlt.1.le hlt.2.le))

end Wapsell.Resources
