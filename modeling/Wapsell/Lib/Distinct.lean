import Mathlib.Data.List.Induction
import Wapsell.Lib.Dict

/-!
# Distinct elements

The keys of a dictionary that a list of keys was assigned to, one after the
other: each element once, in the order in which they first occur.

It is the ordered set of Python: a dictionary of which only the keys are
used. What the proofs need of it is that the result has every element once
(`nodup_distinct`, `mem_distinct`) and keeps the order of the first
occurrences, so that what holds along the list holds along the result.

Nothing is said of how often an element occurs; counting is the matter
of the dictionary whose keys these are.
-/

namespace Lib

variable {α κ : Type*} [DecidableEq κ]

/-- The elements of a list, each where it first occurs: the keys of a dictionary that they are
assigned to, which an assignment to a key that is there leaves in its place. -/
def distinct (l : List κ) : List κ :=
  (l.foldl (fun (d : Dict κ Unit) k => d.set k ()) Dict.empty).keys

theorem distinct_concat (l : List κ) (k : κ) :
    distinct (l ++ [k]) = if k ∈ distinct l then distinct l else distinct l ++ [k] := by
  rw [distinct, List.foldl_append, List.foldl_cons, List.foldl_nil]
  split
  · next h => exact Dict.keys_set_of_mem () h
  · next h => exact Dict.keys_set_of_not_mem () h

theorem nodup_distinct (l : List κ) : (distinct l).Nodup := Dict.nodup _

@[simp] theorem mem_distinct {l : List κ} {k : κ} : k ∈ distinct l ↔ k ∈ l := by
  induction l using List.reverseRecOn with
  | nil => rfl
  | append_singleton l a ih =>
    rw [distinct_concat, List.mem_append, List.mem_singleton]
    split
    · next h =>
      rw [ih]
      constructor
      · exact .inl
      · rintro (hk | rfl)
        · exact hk
        · exact ih.mp h
    · rw [List.mem_append, List.mem_singleton, ih]

/-- Of two distinct elements in a list in which elements stand in relation, some occurrence of the
former stands in relation to every occurrence of the latter. -/
theorem pairwise_distinct {R : α → α → Prop} (f : α → κ) {l : List α} (h : l.Pairwise R) :
    (distinct (l.map f)).Pairwise fun k k' =>
      ∃ a ∈ l, f a = k ∧ ∀ b ∈ l, f b = k' → R a b := by
  induction l using List.reverseRecOn with
  | nil => exact .nil
  | append_singleton l x ih =>
    obtain ⟨hl, -, hlast⟩ := List.pairwise_append.mp h
    -- what stands in relation to the occurrences so far does so to the last one
    have hmore : (distinct (l.map f)).Pairwise fun k k' =>
        ∃ a ∈ l ++ [x], f a = k ∧ ∀ b ∈ l ++ [x], f b = k' → R a b := by
      refine (ih hl).imp fun {k k'} hpair => ?_
      obtain ⟨a, ha, hk, hbefore⟩ := hpair
      refine ⟨a, List.mem_append_left _ ha, hk, fun b hb hk' => ?_⟩
      rcases List.mem_append.mp hb with hb | hb
      · exact hbefore b hb hk'
      · exact hlast a ha b hb
    rw [List.map_append, List.map_singleton, distinct_concat]
    split
    · exact hmore
    · next hnew =>
      refine List.pairwise_append.mpr ⟨hmore, List.pairwise_singleton _ _, fun k hk k' hk' => ?_⟩
      rw [List.mem_singleton.mp hk']
      obtain ⟨a, ha, rfl⟩ := List.mem_map.mp (mem_distinct.mp hk)
      refine ⟨a, List.mem_append_left _ ha, rfl, fun b hb hfb => ?_⟩
      rcases List.mem_append.mp hb with hb | hb
      · exact absurd (mem_distinct.mpr (List.mem_map.mpr ⟨b, hb, hfb⟩)) hnew
      · exact hlast a ha b hb

end Lib
