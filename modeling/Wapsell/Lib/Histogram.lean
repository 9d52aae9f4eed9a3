import Mathlib.Algebra.BigOperators.Group.List.Basic
import Mathlib.Data.Nat.Factorization.Basic
import Wapsell.Lib.Dict

/-!
# Histograms

A dictionary of counters, ticked once for each element that is counted, and
the sum of its bars over an interval of keys: the number of elements whose
key the interval holds. Last, how many are counted where there is one for
each multiple.

Two counts of the same thing are compared through it: a loop that ticks
a counter for the day of each event, and a count of the events between
two moments. The sum over an interval of bars is the second, whatever
the order of the events, and an event outside of the interval shows in
neither.
-/

namespace Lib

variable {α κ : Type*}

/-- A tick moves one bar, by one. -/
theorem Dict.getD_tick [DecidableEq κ] (counts : Dict κ Nat) (key x : κ) :
    (counts.set key (counts.getD key 0 + 1)).getD x 0 =
      counts.getD x 0 + if key = x then 1 else 0 := by
  unfold Dict.getD
  rw [Dict.get?_set]
  by_cases h : key = x
  · subst h
    simp
  · simp [h]

/-- `counts[x] += 1` for each element. A key is there only once it was counted, so a bar that is not
listed is a zero and not a missing value. -/
def tallied [DecidableEq κ] (l : List κ) : Dict κ Nat :=
  l.foldl (fun c k => c.set k (c.getD k 0 + 1)) Dict.empty

section Tallied

variable [DecidableEq κ]

theorem getD_foldl_tick (l : List κ) (counts : Dict κ Nat) (x : κ) :
    (l.foldl (fun c k => c.set k (c.getD k 0 + 1)) counts).getD x 0 =
      counts.getD x 0 + l.count x := by
  induction l generalizing counts with
  | nil => rfl
  | cons k l ih =>
    rw [List.foldl_cons, ih, Dict.getD_tick, List.count_cons]
    by_cases h : k = x
    · subst h
      simp
      omega
    · simp [h]

theorem mem_keys_foldl_tick (l : List κ) (counts : Dict κ Nat) (x : κ) :
    x ∈ (l.foldl (fun c k => c.set k (c.getD k 0 + 1)) counts).keys ↔ x ∈ counts.keys ∨ x ∈ l := by
  induction l generalizing counts with
  | nil => simp
  | cons k l ih =>
    rw [List.foldl_cons, ih, List.mem_cons, ← Dict.get?_isSome_iff, ← Dict.get?_isSome_iff,
      Dict.get?_set, eq_comm (a := x)]
    by_cases h : k = x
    · simp [h]
    · simp [h]

/-- The bars are those of the elements, each as high as its element is frequent. -/
theorem mem_entries_tallied (l : List κ) (x : κ) (n : Nat) :
    (x, n) ∈ (tallied l).entries ↔ x ∈ l ∧ n = l.count x := by
  have hcount : (tallied l).getD x 0 = l.count x := by
    rw [tallied, getD_foldl_tick]
    exact Nat.zero_add _
  have hmem : ((tallied l).get? x).isSome ↔ x ∈ l := by
    rw [Dict.get?_isSome_iff, tallied, mem_keys_foldl_tick]
    exact or_iff_right List.not_mem_nil
  rw [← Dict.get?_eq_some_iff, ← hmem]
  unfold Dict.getD at hcount
  cases h : (tallied l).get? x with
  | none => simp
  | some m =>
    rw [h] at hcount
    simp only [Option.getD_some] at hcount
    simp [hcount, eq_comm]

end Tallied

/-- What two tests split between them. -/
theorem countP_eq_add {p q r : α → Bool} {l : List α}
    (h : ∀ x ∈ l, (r x).toNat = (p x).toNat + (q x).toNat) :
    l.countP r = l.countP p + l.countP q := by
  induction l with
  | nil => rfl
  | cons x l ih =>
    have hrest := ih fun y hy => h y (List.mem_cons_of_mem _ hy)
    have hx := h x List.mem_cons_self
    have hcount : ∀ s : α → Bool, (x :: l).countP s = l.countP s + (s x).toNat := by
      intro s
      rw [List.countP_cons]
      cases s x <;> rfl
    simp only [hcount]
    omega

/-- The bars over consecutive keys add up to what the interval holds. -/
theorem sum_bars (l : List α) (p : α → Bool) (key : α → Int) (first : Int) (n : Nat) :
    ((List.range n).map fun i : Nat =>
        l.countP fun x => p x && decide (key x = first + i)).sum =
      l.countP fun x => p x && decide (first ≤ key x ∧ key x < first + n) := by
  induction n with
  | zero =>
    have hnone : ∀ x ∈ l, ¬ (p x && decide (first ≤ key x ∧ key x < first + (0 : Nat))) = true := by
      intro x _ h
      simp at h
      omega
    exact (List.countP_eq_zero.mpr hnone).symm
  | succ n ih =>
    rw [List.range_succ, List.map_append, List.sum_append, ih, List.map_singleton,
      List.sum_singleton]
    symm
    apply countP_eq_add
    intro x _
    cases p x with
    | false => rfl
    | true =>
      simp only [Bool.true_and]
      by_cases hin : first ≤ key x ∧ key x < first + n
      · rw [decide_eq_true hin, decide_eq_true (by omega), decide_eq_false (by omega)]
        rfl
      · by_cases heq : key x = first + n
        · rw [decide_eq_false hin, decide_eq_true heq, decide_eq_true (by omega)]
          rfl
        · rw [decide_eq_false hin, decide_eq_false heq, decide_eq_false (by omega)]
          rfl

/-- What is counted at each multiple of `s` up to `n` once, and nowhere else, comes to `n / s`. -/
theorem length_eq_div {l : List Nat} {s n : Nat} (hmem : ∀ m ∈ l, 0 < m ∧ m ≤ n ∧ s ∣ m)
    (hcount : ∀ m, 0 < m → m ≤ n → s ∣ m → l.count m = 1) : l.length = n / s := by
  have hnodup : l.Nodup := by
    rw [List.nodup_iff_count_le_one]
    intro m
    by_cases hm : m ∈ l
    · obtain ⟨hpos, hle, hdvd⟩ := hmem m hm
      exact (hcount m hpos hle hdvd).le
    · rw [List.count_eq_zero_of_not_mem hm]
      exact Nat.zero_le 1
  have hset : l.toFinset = (Finset.Ioc 0 n).filter (s ∣ ·) := by
    ext m
    rw [List.mem_toFinset, Finset.mem_filter, Finset.mem_Ioc]
    constructor
    · intro hm
      obtain ⟨hpos, hle, hdvd⟩ := hmem m hm
      exact ⟨⟨hpos, hle⟩, hdvd⟩
    · rintro ⟨⟨hpos, hle⟩, hdvd⟩
      apply List.count_pos_iff.mp
      rw [hcount m hpos hle hdvd]
      exact Nat.one_pos
  rw [← List.toFinset_card_of_nodup hnodup, hset, Nat.Ioc_filter_dvd_card_eq_div]

end Lib
