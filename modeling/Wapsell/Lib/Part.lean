import Wapsell.Lib.Dict

/-!
# A part of a dictionary

The entries of a dictionary that pass a test, in order. An assignment or a
removal outside the part leaves it as it is; inside it, what becomes of the
part depends on the part alone.

It is how one party's share of a common store is spoken of. The test may
look at the key and at the value, since a row can belong to a party by
either; so an assignment inside the part needs that the entry it
replaces was inside as well, and one outside that it was not. Both
premises fail for a store that lets a row change hands, and the laws
then say nothing.
-/

namespace Lib.Dict

variable {κ ν : Type*}

/-- The entries that pass the test, in the order of the dictionary: a listing of the part is the
listing of the whole, filtered. -/
def part (p : κ × ν → Bool) (d : Dict κ ν) : List (κ × ν) := d.entries.filter p

variable [DecidableEq κ] {p : κ × ν → Bool} {d d' : Dict κ ν} {k : κ} {v : ν}

theorem mem_part {e : κ × ν} : e ∈ d.part p ↔ d.get? e.1 = some e.2 ∧ p e = true := by
  rw [part, List.mem_filter, get?_eq_some_iff]

/-- An entry of the part is found in any dictionary with the same part. -/
theorem get?_of_part_eq (h : d.part p = d'.part p) (hget : d.get? k = some v)
    (hp : p (k, v) = true) : d'.get? k = some v :=
  get?_of_filter_eq h hget hp

theorem filter_assign_of_mem : ∀ {l : List (κ × ν)}, p (k, v) = true →
    (∀ w, (k, w) ∈ l → p (k, w) = true) → (assign k v l).filter p = assign k v (l.filter p)
  | [], hp, _ => by rw [assign, List.filter_cons_of_pos hp, List.filter_nil, assign]
  | (k', v') :: rest, hp, hold => by
    have hrest : ∀ w, (k, w) ∈ rest → p (k, w) = true := fun w hw => hold w (List.mem_cons_of_mem _ hw)
    by_cases hk : k' = k
    · subst hk
      rw [assign, if_pos rfl, List.filter_cons_of_pos hp,
        List.filter_cons_of_pos (hold v' List.mem_cons_self), assign, if_pos rfl]
    · rw [assign, if_neg hk]
      cases hp' : p (k', v') with
      | true =>
        rw [List.filter_cons_of_pos hp', List.filter_cons_of_pos hp', assign, if_neg hk,
          filter_assign_of_mem hp hrest]
      | false =>
        rw [List.filter_cons_of_neg (ne_true_of_eq_false hp'),
          List.filter_cons_of_neg (ne_true_of_eq_false hp'), filter_assign_of_mem hp hrest]

theorem filter_assign_of_not_mem : ∀ {l : List (κ × ν)}, p (k, v) = false →
    (∀ w, (k, w) ∈ l → p (k, w) = false) → (assign k v l).filter p = l.filter p
  | [], hp, _ => by rw [assign, List.filter_cons_of_neg (ne_true_of_eq_false hp)]
  | (k', v') :: rest, hp, hold => by
    have hrest : ∀ w, (k, w) ∈ rest → p (k, w) = false :=
      fun w hw => hold w (List.mem_cons_of_mem _ hw)
    by_cases hk : k' = k
    · subst hk
      have hp' := hold v' List.mem_cons_self
      rw [assign, if_pos rfl, List.filter_cons_of_neg (ne_true_of_eq_false hp),
        List.filter_cons_of_neg (ne_true_of_eq_false hp')]
    · rw [assign, if_neg hk]
      cases hp' : p (k', v') with
      | true =>
        rw [List.filter_cons_of_pos hp', List.filter_cons_of_pos hp',
          filter_assign_of_not_mem hp hrest]
      | false =>
        rw [List.filter_cons_of_neg (ne_true_of_eq_false hp'),
          List.filter_cons_of_neg (ne_true_of_eq_false hp'), filter_assign_of_not_mem hp hrest]

/-- An assignment inside the part is one to the part. -/
theorem part_set (hp : p (k, v) = true) (hold : ∀ w, d.get? k = some w → p (k, w) = true) :
    (d.set k v).part p = assign k v (d.part p) :=
  filter_assign_of_mem hp fun w hw => hold w (get?_eq_some_iff.mpr hw)

/-- An assignment outside the part does not change it. -/
theorem part_set_of_not (hp : p (k, v) = false) (hold : ∀ w, d.get? k = some w → p (k, w) = false) :
    (d.set k v).part p = d.part p :=
  filter_assign_of_not_mem hp fun w hw => hold w (get?_eq_some_iff.mpr hw)

/-- A removal is one from the part. -/
theorem part_erase (d : Dict κ ν) (k : κ) :
    (d.erase k).part p = (d.part p).filter fun e => decide (e.1 ≠ k) := by
  rw [part, part, erase, List.filter_filter, List.filter_filter]
  exact List.filter_congr fun e _ => Bool.and_comm _ _

/-- A removal of an entry outside the part does not change it. -/
theorem part_erase_of_not (hold : ∀ w, d.get? k = some w → p (k, w) = false) :
    (d.erase k).part p = d.part p := by
  rw [part_erase, List.filter_eq_self]
  intro e he
  obtain ⟨hget, hp⟩ := mem_part.mp he
  refine decide_eq_true fun heq => ?_
  rw [← heq] at hold
  have hnot := hold e.2 hget
  rw [hp] at hnot
  cases hnot

end Lib.Dict
