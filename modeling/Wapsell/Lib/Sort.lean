import Mathlib.Data.List.Pairwise
import Mathlib.Data.List.Sort
import Wapsell.Lib.Dict

/-!
# Sorting

A stable sort looks at its elements through a comparison only. Two lists
that look alike through `f`, and whose elements compare alike position by
position, sort to lists that look alike through `f`.

A list that is sorted already is its own sort, and a list that is strictly
sorted the other way is reversed: that is how a table in the order of its
keys is read newest first.

Sorting is Mathlib's insertion sort throughout, which is stable, and so
is the sort of the source. Stability is what makes two sorts of
different lists comparable at all: elements that compare equal stay in
the order of the input, and the input's order is then part of what is
stated.

A sort cut after `n` elements is a selection by rank. That is how a page
over a sorted query is compared with a page over a sorted dictionary
without looking at either sort.
-/

namespace Lib

variable {α β : Type*} {r : α → α → Prop} [DecidableRel r] {f : α → β}

/-- Two lists of the same pairs, one comparison. -/
theorem map_insertionSort_pairs {pairs : List (α × α)} (hf : ∀ p ∈ pairs, f p.1 = f p.2)
    (hr : ∀ p ∈ pairs, ∀ q ∈ pairs, r p.1 q.1 ↔ r p.2 q.2) :
    ((pairs.map Prod.fst).insertionSort r).map f = ((pairs.map Prod.snd).insertionSort r).map f := by
  have hfst : (pairs.insertionSort fun p q => r p.1 q.1).map Prod.fst =
      (pairs.map Prod.fst).insertionSort r :=
    List.map_insertionSort _ _ _ _ fun _ _ _ _ => Iff.rfl
  have hsnd : (pairs.insertionSort fun p q => r p.1 q.1).map Prod.snd =
      (pairs.map Prod.snd).insertionSort r :=
    List.map_insertionSort _ _ _ _ hr
  rw [← hfst, ← hsnd, List.map_map, List.map_map]
  refine List.map_congr_left fun p hp => ?_
  exact hf p ((List.mem_insertionSort _).mp hp)

/-- Lists with one image agree on it position by position. -/
theorem map_eq_of_mem_zip : ∀ {l l' : List α}, l.map f = l'.map f → ∀ {p}, p ∈ l.zip l' →
    f p.1 = f p.2
  | [], _, _, _, hp => by cases hp
  | _ :: _, [], _, _, hp => by cases hp
  | a :: l, b :: l', h, p, hp => by
    rw [List.map_cons, List.map_cons, List.cons.injEq] at h
    rw [List.zip_cons_cons] at hp
    rcases List.mem_cons.mp hp with rfl | hrest
    · exact h.1
    · exact map_eq_of_mem_zip h.2 hrest

theorem length_eq_of_map_eq {l l' : List α} (h : l.map f = l'.map f) : l.length = l'.length := by
  have := congrArg List.length h
  rwa [List.length_map, List.length_map] at this

/-- Lists with one image, whose elements compare alike position by position. -/
theorem map_insertionSort_congr {l l' : List α} (hf : l.map f = l'.map f)
    (hr : (l.zip l').Pairwise fun p q => (r p.1 q.1 ↔ r p.2 q.2) ∧ (r q.1 p.1 ↔ r q.2 p.2))
    (hrefl : ∀ p ∈ l.zip l', r p.1 p.1 ↔ r p.2 p.2) :
    (l.insertionSort r).map f = (l'.insertionSort r).map f := by
  have hlen := length_eq_of_map_eq hf
  have hpair : ∀ p ∈ l.zip l', ∀ q ∈ l.zip l', r p.1 q.1 ↔ r p.2 q.2 := by
    have hsymm : Std.Symm fun p q : α × α =>
        (r p.1 q.1 ↔ r p.2 q.2) ∧ (r q.1 p.1 ↔ r q.2 p.2) := ⟨fun _ _ h => ⟨h.2, h.1⟩⟩
    intro p hp q hq
    exact (List.Pairwise.forall_of_forall (fun x hx => ⟨hrefl x hx, hrefl x hx⟩) hr hp hq).1
  have := map_insertionSort_pairs (fun _ hp => map_eq_of_mem_zip hf hp) hpair
  rwa [List.map_fst_zip hlen.le, List.map_snd_zip hlen.ge] at this

/-- Two lists in the order of a relation, zipped. -/
theorem pairwise_zip {l l' : List α} (hlen : l.length = l'.length) {s : α → α → Prop}
    (h : l.Pairwise s) (h' : l'.Pairwise s) :
    (l.zip l').Pairwise fun p q => s p.1 q.1 ∧ s p.2 q.2 := by
  rw [← List.map_fst_zip hlen.le, List.pairwise_map] at h
  rw [← List.map_snd_zip hlen.ge, List.pairwise_map] at h'
  exact h.and h'

/-- An element that comes before none goes to the end. -/
theorem orderedInsert_of_not {a : α} : ∀ {l : List α}, (∀ b ∈ l, ¬ r a b) →
    l.orderedInsert r a = l ++ [a]
  | [], _ => rfl
  | b :: l, h => by
    obtain ⟨hb, hl⟩ := List.forall_mem_cons.mp h
    rw [List.orderedInsert_cons, if_neg hb, orderedInsert_of_not hl, List.cons_append]

/-- A list in the strict reverse of an order is sorted by reversing it. -/
theorem insertionSort_eq_reverse : ∀ {l : List α}, (l.Pairwise fun a b => ¬ r a b) →
    l.insertionSort r = l.reverse
  | [], _ => rfl
  | a :: l, h => by
    obtain ⟨ha, hl⟩ := List.pairwise_cons.mp h
    rw [List.insertionSort_cons, insertionSort_eq_reverse hl, List.reverse_cons]
    exact orderedInsert_of_not fun b hb => ha b (List.mem_reverse.mp hb)

section Antisymmetric

variable [Std.Total r] [IsTrans α r] {l l' : List α}

/-- Where ties are equal the sort does not depend on the order before it. -/
theorem insertionSort_eq_of_perm (hanti : ∀ a ∈ l, ∀ b ∈ l, r a b → r b a → a = b)
    (h : l.Perm l') : l.insertionSort r = l'.insertionSort r := by
  refine List.Perm.eq_of_pairwise (fun a b ha hb => ?_) (List.pairwise_insertionSort r l)
    (List.pairwise_insertionSort r l') ?_
  · have hb := h.mem_iff.mpr ((List.mem_insertionSort r).mp hb)
    exact hanti a ((List.mem_insertionSort r).mp ha) b hb
  · exact (List.perm_insertionSort r l).trans (h.trans (List.perm_insertionSort r l').symm)

/-- Where ties are equal one may sort first and select then. -/
theorem insertionSort_filter (hanti : ∀ a ∈ l, ∀ b ∈ l, r a b → r b a → a = b) (p : α → Bool) :
    (l.filter p).insertionSort r = (l.insertionSort r).filter p := by
  refine List.Perm.eq_of_pairwise (fun a b ha hb => ?_) (List.pairwise_insertionSort r _)
    ((List.pairwise_insertionSort r l).filter p) ?_
  · have ha := (List.mem_filter.mp ((List.mem_insertionSort r).mp ha)).1
    exact hanti a ha b ((List.mem_insertionSort r).mp (List.mem_filter.mp hb).1)
  · exact (List.perm_insertionSort r _).trans ((List.perm_insertionSort r l).filter p).symm

end Antisymmetric

/-- One comparison may stand for another that says the same of the elements. -/
theorem insertionSort_congr {s : α → α → Prop} [DecidableRel s] {l : List α}
    (h : ∀ a ∈ l, ∀ b ∈ l, r a b ↔ s a b) : l.insertionSort r = l.insertionSort s := by
  have hmap := List.map_insertionSort r s id l h
  rwa [List.map_id, List.map_id] at hmap

section ByScore

variable {β γ : Type*} [LinearOrder β] [LinearOrder γ] (score : α → β) (name : α → γ)

/-- The higher score first, then the smaller name. Names are compared as texts, so the order is
total and a list of distinct names has only one such order. -/
def byScore (a b : α) : Prop := score b < score a ∨ score a = score b ∧ name a ≤ name b

instance : DecidableRel (byScore score name) := fun a b =>
  inferInstanceAs (Decidable (score b < score a ∨ score a = score b ∧ name a ≤ name b))

instance : Std.Total (byScore score name) where
  total a b := by
    rcases lt_trichotomy (score a) (score b) with h | h | h
    · exact .inr (.inl h)
    · exact (le_total (name a) (name b)).imp (fun hle => .inr ⟨h, hle⟩) fun hle => .inr ⟨h.symm, hle⟩
    · exact .inl (.inl h)

instance : IsTrans α (byScore score name) where
  trans a b c hab hbc := by
    rcases hab with hab | ⟨hab, hle⟩
    · rcases hbc with hbc | ⟨hbc, -⟩
      · exact .inl (hbc.trans hab)
      · exact .inl (hbc ▸ hab)
    · rcases hbc with hbc | ⟨hbc, hle'⟩
      · exact .inl (hab ▸ hbc)
      · exact .inr ⟨hab.trans hbc, hle.trans hle'⟩

variable {score name}

theorem byScore_antisymm {a b : α} (hab : byScore score name a b) (hba : byScore score name b a) :
    score a = score b ∧ name a = name b := by
  rcases hab with hab | ⟨hscore, hle⟩
  · rcases hba with hba | ⟨hscore, -⟩
    · exact absurd hab hba.not_gt
    · exact absurd hscore hab.ne
  · rcases hba with hba | ⟨-, hle'⟩
    · exact absurd hscore hba.ne
    · exact ⟨hscore, le_antisymm hle hle'⟩

/-- Elements of different names are ordered strictly. -/
theorem byScore.strict {a b : α} (h : byScore score name a b) (hne : name a ≠ name b) :
    score b < score a ∨ score a = score b ∧ name a < name b :=
  h.imp_right fun h => ⟨h.1, lt_of_le_of_ne h.2 hne⟩

end ByScore

/-- In a sorted list without repetitions, an element stands where as many are before it as come
before it in the order. -/
theorem countP_before {a : α} {front back : List α} [DecidableEq α]
    (hanti : ∀ x ∈ front ++ a :: back, ∀ y ∈ front ++ a :: back, r x y → r y x → x = y)
    (h : (front ++ a :: back).Pairwise r) (hnodup : (front ++ a :: back).Nodup) :
    (front ++ a :: back).countP (fun x => decide (r x a ∧ x ≠ a)) = front.length := by
  obtain ⟨-, hback, hacross⟩ := List.pairwise_append.mp h
  obtain ⟨-, hnodup, hapart⟩ := List.nodup_append.mp hnodup
  have hfront : ∀ x ∈ front, decide (r x a ∧ x ≠ a) = true := fun x hx =>
    decide_eq_true ⟨hacross x hx a List.mem_cons_self, hapart x hx a List.mem_cons_self⟩
  have hrest : ∀ x ∈ a :: back, ¬ decide (r x a ∧ x ≠ a) = true := by
    intro x hx
    rw [decide_eq_true_eq]
    rintro ⟨hrx, hne⟩
    rcases List.mem_cons.mp hx with rfl | hx
    · exact hne rfl
    · have hra := (List.pairwise_cons.mp hback).1 x hx
      exact hne (hanti x (by simp [hx]) a (by simp) hrx hra)
  rw [List.countP_append, List.countP_eq_length.mpr hfront, List.countP_eq_zero.mpr hrest,
    Nat.add_zero]

/-- **Selection by rank.** The first `n` of a sort are the elements that fewer than `n` come before.
No position is mentioned, so the lemma applies to any list with the same elements. -/
theorem mem_take_insertionSort_iff [DecidableEq α] [Std.Total r] [IsTrans α r] {l : List α}
    (hnodup : l.Nodup) (hanti : ∀ x ∈ l, ∀ y ∈ l, r x y → r y x → x = y) {a : α} (n : Nat) :
    a ∈ (l.insertionSort r).take n ↔
      a ∈ l ∧ l.countP (fun x => decide (r x a ∧ x ≠ a)) < n := by
  have hperm := List.perm_insertionSort r l
  have hsorted := List.pairwise_insertionSort r l
  rw [← hperm.mem_iff, ← hperm.countP_eq]
  have hanti' : ∀ x ∈ l.insertionSort r, ∀ y ∈ l.insertionSort r, r x y → r y x → x = y :=
    fun x hx y hy => hanti x (hperm.mem_iff.mp hx) y (hperm.mem_iff.mp hy)
  have hnodup' := hperm.nodup_iff.mpr hnodup
  generalize l.insertionSort r = s at *
  constructor
  · intro ha
    have hs := List.mem_of_mem_take ha
    obtain ⟨front, back, hsplit⟩ := List.append_of_mem ha
    have hwhole : s = front ++ a :: (back ++ s.drop n) := by
      conv_lhs => rw [← List.take_append_drop n s, hsplit]
      simp
    have hlen := congrArg List.length hsplit
    rw [List.length_take, List.length_append, List.length_cons] at hlen
    refine ⟨hs, ?_⟩
    rw [hwhole] at hanti' hsorted hnodup' ⊢
    rw [countP_before hanti' hsorted hnodup']
    omega
  · rintro ⟨ha, hlt⟩
    obtain ⟨front, back, rfl⟩ := List.append_of_mem ha
    rw [countP_before hanti' hsorted hnodup'] at hlt
    rw [List.take_append, List.take_of_length_le hlt.le]
    refine List.mem_append_right _ ?_
    obtain ⟨m, hm⟩ : ∃ m, n - front.length = m + 1 := ⟨n - front.length - 1, by omega⟩
    rw [hm, List.take_succ_cons]
    exact List.mem_cons_self

/-- In a sorted list, the elements up to a position are at most the one there. -/
theorem le_countP_le_getElem {γ : Type*} [LinearOrder γ] {l : List γ} (h : l.Pairwise (· ≤ ·))
    {i : Nat} (hi : i < l.length) : i + 1 ≤ l.countP fun x => decide (x ≤ l[i]) := by
  have hall : ∀ x ∈ l.take (i + 1), decide (x ≤ l[i]) = true := by
    intro x hx
    obtain ⟨j, hj, rfl⟩ := List.mem_iff_getElem.mp hx
    rw [List.length_take] at hj
    rw [List.getElem_take]
    apply decide_eq_true
    rcases Nat.lt_or_eq_of_le (show j ≤ i by omega) with hlt | rfl
    · exact List.pairwise_iff_getElem.mp h j i (by omega) hi hlt
    · exact le_refl _
  have hcount := (List.take_sublist (i + 1) l).countP_le (p := fun x => decide (x ≤ l[i]))
  rw [List.countP_eq_length.mpr hall, List.length_take] at hcount
  omega

/-- And those from it on are at least it. -/
theorem le_countP_getElem_le {γ : Type*} [LinearOrder γ] {l : List γ} (h : l.Pairwise (· ≤ ·))
    {i : Nat} (hi : i < l.length) : l.length - i ≤ l.countP fun x => decide (l[i] ≤ x) := by
  have hall : ∀ x ∈ l.drop i, decide (l[i] ≤ x) = true := by
    intro x hx
    obtain ⟨j, hj, rfl⟩ := List.mem_iff_getElem.mp hx
    rw [List.length_drop] at hj
    rw [List.getElem_drop]
    apply decide_eq_true
    rcases Nat.eq_zero_or_pos j with rfl | hpos
    · exact le_refl _
    · exact List.pairwise_iff_getElem.mp h i (i + j) hi (by omega) (by omega)
  have hcount := (List.drop_sublist i l).countP_le (p := fun x => decide (l[i] ≤ x))
  rw [List.countP_eq_length.mpr hall, List.length_drop] at hcount
  exact hcount

namespace Dict

variable {κ ν : Type*}

/-- The same entries in the order of their keys. -/
def sortKeys (before : κ → κ → Prop) [DecidableRel before] (d : Dict κ ν) : Dict κ ν :=
  ⟨d.entries.insertionSort fun a b => before a.1 b.1,
    ((List.perm_insertionSort _ d.entries).map Prod.fst).nodup_iff.mpr d.nodup⟩

/-- `d == e`: the same entries, whatever their order. -/
def Same [DecidableEq κ] (d e : Dict κ ν) : Prop := ∀ k, d.get? k = e.get? k

theorem Same.values_perm [DecidableEq κ] {d e : Dict κ ν} (h : d.Same e) :
    d.values.Perm e.values := by
  refine List.Perm.map Prod.snd ((List.perm_ext_iff_of_nodup ?_ ?_).mpr fun entry => ?_)
  · exact d.nodup.of_map
  · exact e.nodup.of_map
  · rw [← get?_eq_some_iff, ← get?_eq_some_iff, h]

theorem sortKeys_same [DecidableEq κ] (before : κ → κ → Prop) [DecidableRel before]
    (d : Dict κ ν) : (d.sortKeys before).Same d := by
  intro k
  refine Option.ext fun v => ?_
  rw [get?_eq_some_iff, get?_eq_some_iff]
  exact List.mem_insertionSort _

end Dict

/-- A stable sort by a flag is a partition: the elements with the flag come first. -/
theorem insertionSort_flag (o : α → Bool) (l : List α) :
    l.insertionSort (fun a b => o b = true → o a = true) =
      l.filter o ++ l.filter fun a => !o a := by
  induction l with
  | nil => rfl
  | cons a l ih =>
    rw [List.insertionSort_cons, ih]
    cases ha : o a with
    | true =>
      rw [List.filter_cons_of_pos ha, List.filter_cons_of_neg (by simp [ha])]
      cases hrest : l.filter o ++ l.filter fun b => !o b with
      | nil => simp [hrest]
      | cons b rest => rw [List.orderedInsert_cons_of_le _ _ fun _ => ha, ← hrest, List.cons_append]
    | false =>
      rw [List.filter_cons_of_neg (by simp [ha]), List.filter_cons_of_pos (by simp [ha])]
      -- the element passes those with the flag, and stops at the first without
      have hpass : ∀ front : List α, (∀ b ∈ front, o b = true) → ∀ back : List α,
          (∀ b ∈ back, o b = false) →
          (front ++ back).orderedInsert (fun a b => o b = true → o a = true) a =
            front ++ a :: back := by
        intro front hfront back hback
        induction front with
        | nil =>
          cases back with
          | nil => rfl
          | cons b back =>
            exact List.orderedInsert_cons_of_le _ _ fun hb => by simp [hback b] at hb
        | cons b front ihf =>
          have hb := hfront b List.mem_cons_self
          rw [List.cons_append, List.orderedInsert_of_not_le _ _ (by simp [hb, ha]),
            ihf fun c hc => hfront c (List.mem_cons_of_mem _ hc), List.cons_append]
      exact hpass _ (fun b hb => (List.mem_filter.mp hb).2) _ fun b hb => by
        simpa using (List.mem_filter.mp hb).2

/-- The last `n` elements, as `list[-n:]` with `n` positive. -/
def lastN (n : Nat) (l : List α) : List α := l.drop (l.length - n)

theorem length_lastN (n : Nat) (l : List α) : (lastN n l).length = min n l.length := by
  rw [lastN, List.length_drop]
  omega

theorem lastN_lastN (m n : Nat) (l : List α) : lastN m (lastN n l) = lastN (min m n) l := by
  rw [lastN, length_lastN, lastN, lastN, List.drop_drop]
  congr 1
  omega

/-- Keeping the last `n` at each step keeps the last `n` of all. -/
theorem lastN_append (n : Nat) (l l' : List α) : lastN n (lastN n l ++ l') = lastN n (l ++ l') := by
  have hlen : (lastN n l ++ l').length - n = (l ++ l').length - n - (l.length - n) := by
    rw [List.length_append, length_lastN, List.length_append]
    omega
  have hle : l.length - n ≤ (l ++ l').length - n := by
    rw [List.length_append]
    omega
  rw [lastN, hlen, lastN, lastN, ← List.drop_append_of_le_length (Nat.sub_le _ _), List.drop_drop,
    Nat.add_sub_cancel' hle]

theorem lastN_of_length_le {n : Nat} {l : List α} (h : l.length ≤ n) : lastN n l = l := by
  rw [lastN, Nat.sub_eq_zero_of_le h, List.drop_zero]

/-- A list that moves up by one when `u` is put behind it is all `u`. -/
theorem eq_of_tail_append {u : α} : ∀ {l : List α}, (l ++ [u]).tail = l → ∀ x ∈ l, x = u
  | [], _, x, hx => by cases hx
  | [y], h, x, hx => by
    rw [List.mem_singleton.mp hx]
    exact (List.singleton_inj.mp h).symm
  | y :: z :: l, h, x, hx => by
    obtain ⟨hzy, hrest⟩ := List.cons_eq_cons.mp (show z :: (l ++ [u]) = y :: z :: l from h)
    have hall : ∀ x ∈ z :: l, x = u := eq_of_tail_append (l := z :: l) hrest
    rcases List.mem_cons.mp hx with rfl | hx
    · rw [← hzy]
      exact hall z List.mem_cons_self
    · exact hall x hx

/-- One more `u` leaves the last elements as they were exactly when the window is full of it. -/
theorem lastN_append_singleton_eq_iff {k n : Nat} (hk : k ≤ n) {l : List α} {u : α} :
    lastN k (l ++ [u]) = lastN n l ↔ lastN n l = List.replicate k u := by
  have hinner : lastN k (lastN n l) = lastN k l := by rw [lastN_lastN, Nat.min_eq_left hk]
  constructor
  · intro h
    have hlen : (lastN n l).length = k := by
      have hlens := congrArg List.length h
      rw [length_lastN, length_lastN, List.length_append, List.length_singleton] at hlens
      rw [length_lastN]
      omega
    rw [lastN_of_length_le hlen.le] at hinner
    rw [← lastN_append k l [u], ← hinner] at h
    refine List.eq_replicate_iff.mpr ⟨hlen, eq_of_tail_append ?_⟩
    rwa [lastN, List.length_append, hlen, List.length_singleton, Nat.add_sub_cancel_left,
      List.drop_one] at h
  · intro h
    rw [h] at hinner ⊢
    rw [lastN_of_length_le (List.length_replicate.le)] at hinner
    rw [← lastN_append k l [u], ← hinner, ← List.replicate_succ', lastN, List.length_replicate,
      Nat.add_sub_cancel_left, List.drop_replicate, Nat.add_sub_cancel]

theorem map_lastN {β : Type*} (f : α → β) (n : Nat) (l : List α) :
    (lastN n l).map f = lastN n (l.map f) := by
  rw [lastN, lastN, List.map_drop, List.length_map]

end Lib
