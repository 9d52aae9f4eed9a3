import Wapsell.Ingestion.Hindsight

/-!
# The freshest fact

Facts are only ever added, so a price is updated by adding a fact that says
the new one. Which of the facts that match is quoted then depends on the
order of the answer. `InMemoryHindsight` answers in the order of adding: the
oldest come first, and once `top_k` facts match, no update is ever seen.

The comment over the endpoint promises the freshest match and names what
decides it in Postgres: the rank, then the time of creation. This
adapter orders by neither. The statement compares the answer with the
newest `k` matches and asks when they are the same list; with two
different matches and room for one they are not.
-/

namespace Wapsell.Ingestion

open Py

/-- The store after the calls of `add_fact`. -/
def addAll (added : List Fact) : Hindsight := added.foldl Hindsight.addFact []

theorem addAll_eq (added : List Fact) : addAll added = added := Hindsight.foldl_addFact [] added

/-- A fact of the tenant that contains the text. A text of white space matches nothing. -/
def matchesQuery (U : Unicode) (text : String) (tenantId : Option String) (f : Fact) : Bool :=
  strip (lower U text) ≠ "" && decide (tenantId = none ∨ tenantId = some f.tenantId) &&
    isSubstring (strip (lower U text)) (lower U f.content)

/-- The `k` facts that match and were added last, newest first: what the comment over the endpoint
promises. -/
def freshest (U : Unicode) (text : String) (tenantId : Option String) (k : Nat)
    (added : List Fact) : List Fact :=
  (added.filter (matchesQuery U text tenantId)).reverse.take k

/-- What the adapter answers: the `k` that were added first. -/
theorem query_addAll (U : Unicode) (text : String) (tenantId : Option String) (k : Nat)
    (added : List Fact) : (addAll added).query U text tenantId k =
      (added.filter (matchesQuery U text tenantId)).take k := by
  rw [addAll_eq, Hindsight.query, upTo, if_pos (Int.natCast_nonneg k), Int.toNat_natCast]
  refine congrArg (List.take k) ?_
  by_cases hneedle : strip (lower U text) = ""
  · have hnone : added.filter (matchesQuery U text tenantId) = [] :=
      List.filter_eq_nil_iff.mpr fun f _ => by simp [matchesQuery, hneedle]
    rw [hnone, if_neg (not_not.mpr hneedle), List.filter_nil]
  · rw [if_pos hneedle, List.filter_filter]
    refine List.filter_congr fun f _ => ?_
    rw [matchesQuery, decide_eq_true hneedle, Bool.true_and, Bool.and_comm]

/-! ## Both ends of a list -/

theorem take_eq_take_reverse_iff {α : Type*} (k : Nat) (l : List α) :
    l.take k = l.reverse.take k ↔ ∀ i < k, l[i]? = l.reverse[i]? := by
  constructor
  · intro h i hi
    have hget := congrArg (·[i]?) h
    simpa only [List.getElem?_take, if_pos hi] using hget
  · intro h
    refine List.ext_getElem? fun i => ?_
    rw [List.getElem?_take, List.getElem?_take]
    split
    · next hi => exact h i hi
    · rfl

/-- Without repetitions, the first are the last only where there is no choice. -/
theorem take_eq_take_reverse_iff_of_nodup {α : Type*} {k : Nat} {l : List α} (h : l.Nodup) :
    l.take k = l.reverse.take k ↔ k = 0 ∨ l.length ≤ 1 := by
  constructor
  · intro heq
    rcases Nat.eq_zero_or_pos k with hk | hk
    · exact .inl hk
    right
    by_contra hlen
    have hfirst := (take_eq_take_reverse_iff k l).mp heq 0 hk
    rw [List.getElem?_reverse (by omega), List.getElem?_eq_getElem (by omega),
      List.getElem?_eq_getElem (by omega), Option.some_inj, h.getElem_inj_iff] at hfirst
    omega
  · rintro (rfl | hlen)
    · rw [List.take_zero, List.take_zero]
    · cases l with
      | nil => rfl
      | cons a rest =>
        rw [List.length_cons] at hlen
        rw [List.eq_nil_of_length_eq_zero (l := rest) (by omega), List.reverse_singleton]

/-! ## The freshest wins -/

/-- **The oldest win.** The answer is the freshest facts only where, as far as the answer goes, the
matches are the same from either end; for distinct facts, where there is at most one.

The first part compares the list of the matches with its reverse, as far as `k` reaches. The second
says what that means where no two facts are the same. -/
theorem query_freshest_iff (U : Unicode) (added : List Fact) (text : String)
    (tenantId : Option String) (k : Nat) :
    ((addAll added).query U text tenantId k = freshest U text tenantId k added ↔
      ∀ i < k, (added.filter (matchesQuery U text tenantId))[i]? =
        (added.filter (matchesQuery U text tenantId)).reverse[i]?) ∧
    ((added.filter (matchesQuery U text tenantId)).Nodup →
      ((addAll added).query U text tenantId k = freshest U text tenantId k added ↔
        k = 0 ∨ (added.filter (matchesQuery U text tenantId)).length ≤ 1)) := by
  rw [query_addAll, freshest]
  exact ⟨take_eq_take_reverse_iff k _, take_eq_take_reverse_iff_of_nodup⟩

/-- A price. -/
def price (id content : String) (createdAt : Datetime) : Fact where
  id := id
  tenantId := "acme"
  source := "catalog"
  content := content
  createdAt := createdAt

/-- After an update the old price is quoted. -/
theorem not_query_freshest : ¬ ∀ (U : Unicode) (added : List Fact) (text : String)
    (tenantId : Option String) (k : Nat),
      (addAll added).query U text tenantId k = freshest U text tenantId k added := by
  intro h
  have hquery := congrArg (List.map Fact.content) (h Unicode.ascii
    [price "f1" "shoes cost 100" 0, price "f2" "shoes cost 120" 1] "shoes" (some "acme") 1)
  revert hquery
  decide

end Wapsell.Ingestion
