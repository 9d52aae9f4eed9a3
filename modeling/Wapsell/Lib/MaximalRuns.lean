import Mathlib.Data.List.Infix

/-!
# Maximal runs

The maximal runs of a class in a list: what they are, that two of them that
overlap are one, and that one pass over the list finds them all in the order
in which they begin.

The pass keeps the run read so far and closes it at the first element
outside of the class. That it misses none and invents none is one
equivalence (`mem_maximalRuns`), and that the runs come in order and do
not overlap follows from it; so a user of the pass may reason about
`IsRun` and forget the accumulator.
-/

namespace Lib

variable {α : Type*} {p : α → Bool} {l : List α} {start : Nat} {run : List α}

/-- The elements of a class from `start` on, with none of the class before them or behind. The
position is part of it, so two equal runs at two places are two. -/
def IsRun (p : α → Bool) (l : List α) (start : Nat) (run : List α) : Prop :=
  ∃ before behind, l = before ++ (run ++ behind) ∧ before.length = start ∧ run ≠ [] ∧
    (∀ a ∈ run, p a = true) ∧ (∀ a, before.getLast? = some a → p a = false) ∧
      ∀ a, behind.head? = some a → p a = false

namespace IsRun

theorem ne_nil (h : IsRun p l start run) : run ≠ [] := by
  obtain ⟨_, _, -, -, hne, -⟩ := h
  exact hne

theorem of_class (h : IsRun p l start run) : ∀ a ∈ run, p a = true := by
  obtain ⟨_, _, -, -, -, hclass, -⟩ := h
  exact hclass

/-- A run is read off the list. -/
theorem eq_take (h : IsRun p l start run) : run = (l.drop start).take run.length := by
  obtain ⟨before, behind, rfl, rfl, -⟩ := h
  rw [List.drop_left, List.take_left]

theorem length_le (h : IsRun p l start run) : start + run.length ≤ l.length := by
  obtain ⟨before, behind, rfl, rfl, -⟩ := h
  simp only [List.length_append]
  omega

/-- In the run every element is of the class. -/
theorem inside (h : IsRun p l start run) {i : Nat} (hle : start ≤ i)
    (hlt : i < start + run.length) : l[i]?.any p = true := by
  obtain ⟨before, behind, rfl, rfl, -, hclass, -⟩ := h
  have hi : i - before.length < run.length := by omega
  rw [List.getElem?_append_right hle, List.getElem?_append_left hi, List.getElem?_eq_getElem hi]
  exact hclass _ (List.getElem_mem hi)

/-- Behind it none is. -/
theorem behind (h : IsRun p l start run) : l[start + run.length]?.any p = false := by
  obtain ⟨before, behind, rfl, rfl, -, -, -, hbehind⟩ := h
  rw [List.getElem?_append_right (Nat.le_add_right _ _), Nat.add_sub_cancel_left,
    List.getElem?_append_right (Nat.le_refl _), Nat.sub_self, ← List.head?_eq_getElem?]
  cases hhead : behind.head? with
  | none => rfl
  | some a => exact hbehind a hhead

/-- Before it none is. -/
theorem before {i : Nat} (h : IsRun p l (i + 1) run) : l[i]?.any p = false := by
  obtain ⟨before, behind, rfl, hlength, -, -, hbefore, -⟩ := h
  rw [List.getElem?_append_left (by omega)]
  have hlast : before.getLast? = before[i]? := by
    rw [List.getLast?_eq_getElem?, hlength, Nat.add_sub_cancel]
  rw [← hlast]
  cases hhead : before.getLast? with
  | none => rfl
  | some a => exact hbefore a hhead

/-- Two runs that overlap are one. -/
theorem eq_of_overlap {start' : Nat} {run' : List α} (h : IsRun p l start run)
    (h' : IsRun p l start' run') (hle : start ≤ start') (hlt : start' < start + run.length) :
    start' = start ∧ run' = run := by
  have hstart : start' = start := by
    by_contra hne
    obtain ⟨i, rfl⟩ := Nat.exists_eq_add_of_lt (Nat.lt_of_le_of_ne hle (Ne.symm hne))
    have hin := h.inside (Nat.le_add_right start i) (by omega)
    rw [h'.before] at hin
    cases hin
  subst hstart
  have hlength : run'.length = run.length := by
    rcases Nat.lt_trichotomy run'.length run.length with hless | heq | hmore
    · have hin := h.inside (Nat.le_add_right start' run'.length) (by omega)
      rw [h'.behind] at hin
      cases hin
    · exact heq
    · have hin := h'.inside (Nat.le_add_right start' run.length) (by omega)
      rw [h.behind] at hin
      cases hin
  refine ⟨rfl, ?_⟩
  rw [h'.eq_take, hlength]
  exact h.eq_take.symm

/-- From the end of what is known to hold no run on, the next run is the one that follows there, or
begins behind it. -/
theorem iff_next {before mid behind r : List α}
    (hbefore : ∀ a, before.getLast? = some a → p a = false) (hmid : ∀ a ∈ mid, p a = true)
    (hbehind : ∀ a, behind.head? = some a → p a = false) :
    before.length ≤ start ∧ IsRun p (before ++ (mid ++ behind)) start r ↔
      (mid ≠ [] ∧ start = before.length ∧ r = mid) ∨
        before.length + mid.length < start ∧ IsRun p (before ++ (mid ++ behind)) start r := by
  have hthere : mid ≠ [] → IsRun p (before ++ (mid ++ behind)) before.length mid := fun hne =>
    ⟨before, behind, rfl, rfl, hne, hmid, hbefore, hbehind⟩
  constructor
  · rintro ⟨hle, h⟩
    rcases Nat.lt_trichotomy start (before.length + mid.length) with hlt | heq | hgt
    · have hne : mid ≠ [] := by
        rintro rfl
        rw [List.length_nil] at hlt
        omega
      obtain ⟨hstart, hrun⟩ := (hthere hne).eq_of_overlap h hle hlt
      exact .inl ⟨hne, hstart, hrun⟩
    · -- the element there is not of the class
      have hpos : 0 < r.length := List.length_pos_iff.mpr h.ne_nil
      have hin := h.inside (Nat.le_refl start) (by omega)
      rw [heq, List.getElem?_append_right (Nat.le_add_right _ _), Nat.add_sub_cancel_left,
        List.getElem?_append_right (Nat.le_refl _), Nat.sub_self, ← List.head?_eq_getElem?] at hin
      cases hhead : behind.head? with
      | none =>
        rw [hhead] at hin
        cases hin
      | some a =>
        rw [hhead, Option.any_some, hbehind a hhead] at hin
        cases hin
    · exact .inr ⟨hgt, h⟩
  · rintro (⟨hne, rfl, rfl⟩ | ⟨hlt, h⟩)
    · exact ⟨Nat.le_refl _, hthere hne⟩
    · exact ⟨by omega, h⟩

end IsRun

/-- The run read so far, when there is one. -/
def closeRun (start : Nat) (run : List α) : List (Nat × List α) :=
  if run = [] then [] else [(start, run.reverse)]

/-- The maximal runs, with the run read so far and where it began. -/
def maximalRuns (p : α → Bool) : Nat → List α → List α → List (Nat × List α)
  | start, [], run => closeRun start run
  | start, a :: rest, run =>
    if p a then maximalRuns p start rest (a :: run)
    else closeRun start run ++ maximalRuns p (start + run.length + 1) rest []

theorem mem_closeRun {r : List α} {s : Nat} :
    (s, r) ∈ closeRun start run ↔ run ≠ [] ∧ s = start ∧ r = run.reverse := by
  unfold closeRun
  split
  · next h => simp [h]
  · next h => simp [h]

theorem le_of_mem_maximalRuns {e : Nat × List α} {rest : List α}
    (h : e ∈ maximalRuns p start rest run) : start ≤ e.1 := by
  induction rest generalizing start run with
  | nil => exact (mem_closeRun.mp h).2.1.ge
  | cons a rest ih =>
    rw [maximalRuns] at h
    split at h
    · exact ih h
    · rcases List.mem_append.mp h with hclose | hmore
      · exact (mem_closeRun.mp hclose).2.1.ge
      · have hle := ih hmore
        omega

/-- The runs are found in the order in which they begin. -/
theorem pairwise_maximalRuns (p : α → Bool) (start : Nat) (rest run : List α) :
    (maximalRuns p start rest run).Pairwise fun r r' => r.1 < r'.1 := by
  have hclose : ∀ (start : Nat) (run : List α),
      (closeRun start run).Pairwise fun r r' => r.1 < r'.1 := by
    intro start run
    unfold closeRun
    split
    · exact .nil
    · exact List.pairwise_singleton _ _
  induction rest generalizing start run with
  | nil => exact hclose start run
  | cons a rest ih =>
    rw [maximalRuns]
    split
    · exact ih start (a :: run)
    · refine List.pairwise_append.mpr ⟨hclose start run, ih _ [], fun r hr r' hr' => ?_⟩
      have hat := (mem_closeRun.mp hr).2.1
      have hle := le_of_mem_maximalRuns hr'
      omega

/-- From the end of what is known to hold no run on, the pass finds the runs. -/
theorem mem_maximalRuns_from {rest before r : List α} {s : Nat}
    (hbefore : ∀ a, before.getLast? = some a → p a = false) (hrun : ∀ a ∈ run, p a = true) :
    (s, r) ∈ maximalRuns p before.length rest run ↔
      before.length ≤ s ∧ IsRun p (before ++ (run.reverse ++ rest)) s r := by
  induction rest generalizing before run with
  | nil =>
    have hmid : ∀ a ∈ run.reverse, p a = true := fun a ha => hrun a (List.mem_reverse.mp ha)
    have hnone : ∀ a, ([] : List α).head? = some a → p a = false := fun a h => by cases h
    rw [maximalRuns, mem_closeRun, IsRun.iff_next hbefore hmid hnone, ne_eq, ne_eq,
      List.reverse_eq_nil_iff]
    refine ⟨.inl, fun h => h.resolve_right ?_⟩
    -- there is no room for a run behind the list
    rintro ⟨hlt, hr⟩
    have hle := hr.length_le
    simp only [List.length_append, List.length_nil] at hle
    omega
  | cons a rest ih =>
    rw [maximalRuns]
    split
    · next ha =>
      have hrun' : ∀ b ∈ a :: run, p b = true := List.forall_mem_cons.mpr ⟨ha, hrun⟩
      rw [ih hbefore hrun', List.reverse_cons, List.append_assoc]
      rfl
    · next ha =>
      have hgap : p a = false := Bool.eq_false_iff.mpr ha
      have hmid : ∀ b ∈ run.reverse, p b = true := fun b hb => hrun b (List.mem_reverse.mp hb)
      have hhead : ∀ b, (a :: rest).head? = some b → p b = false := by
        intro b hb
        cases hb
        exact hgap
      have hlength : (before ++ (run.reverse ++ [a])).length = before.length + run.length + 1 := by
        simp only [List.length_append, List.length_reverse, List.length_singleton]
        omega
      have hsplit : before ++ (run.reverse ++ [a]) ++ ([].reverse ++ rest) =
          before ++ (run.reverse ++ a :: rest) := by simp
      have hlast : ∀ b, (before ++ (run.reverse ++ [a])).getLast? = some b → p b = false := by
        intro b hb
        rw [← List.append_assoc, List.getLast?_concat] at hb
        cases hb
        exact hgap
      have hmore := ih hlast (List.forall_mem_nil _)
      rw [hlength, hsplit] at hmore
      rw [List.mem_append, mem_closeRun, hmore, IsRun.iff_next hbefore hmid hhead, ne_eq, ne_eq,
        List.reverse_eq_nil_iff, List.length_reverse]
      rfl

/-- **The maximal runs** are what the pass finds. The induction is on the list with the run read so
far and its start generalised; here both are at their beginning.

It is the specification that the users of the function cite. -/
theorem mem_maximalRuns {r : List α} {s : Nat} :
    (s, r) ∈ maximalRuns p 0 l [] ↔ IsRun p l s r := by
  have hnone : ∀ a, ([] : List α).getLast? = some a → p a = false := fun a h => by cases h
  have h : (s, r) ∈ maximalRuns p 0 l [] ↔ 0 ≤ s ∧ IsRun p l s r :=
    mem_maximalRuns_from hnone (List.forall_mem_nil _)
  exact h.trans (and_iff_right (Nat.zero_le s))

end Lib
