import Mathlib.Data.List.Nodup

/-!
# Selecting from a list

A selection by a test that may fail, and when two selections of one list,
both cut after so many elements, are the same: where the tests first part,
as many elements as are asked for have been selected already.

A page is a test behind a limit, and two implementations may apply them
the other way round: a scan looks at the first so many rows and then
tests, a query tests all rows and then cuts. They agree on a list
exactly when the rows the scan never saw are not missed, and this is
said by position: at the first element on which the two part, the page
is full already.

The elements have to be distinct, as rows with a primary key are. With
two equal elements a page can be right by accident.
-/

namespace Lib

variable {α ε : Type}

theorem bind_of_ok {β : Type} (x : α) (f : α → Except ε β) :
    ((Except.ok x : Except ε α) >>= f) = f x := rfl

/-- A failure is no result. -/
theorem error_not_ok (e : ε) : ¬ ∃ a : α, (Except.error e : Except ε α) = .ok a := by
  rintro ⟨_, h⟩
  cases h

/-- What is made of a result may differ on the results there are not. -/
theorem bind_congr_of_ok {β : Type} {x : Except ε α} {f g : α → Except ε β}
    (h : ∀ a, x = .ok a → f a = g a) : (x >>= f) = (x >>= g) := by
  cases x with
  | error e => rfl
  | ok a => exact h a rfl

/-- The test was passed. -/
def passes : Except ε Bool → Bool
  | .ok b => b
  | .error _ => false

/-- `[x for x in xs if p(x)]`, of a test that may fail. The first failure ends the loop, and the
elements selected until then are lost with it. -/
def selectE (p : α → Except ε Bool) : List α → Except ε (List α)
  | [] => .ok []
  | x :: xs => do
    let keep ← p x
    let kept ← selectE p xs
    .ok (if keep then x :: kept else kept)

/-- The selection succeeds when every test does. -/
theorem selectE_eq_ok_iff {p : α → Except ε Bool} : ∀ {xs ys : List α},
    selectE p xs = .ok ys ↔ (∀ x ∈ xs, ∃ b, p x = .ok b) ∧ xs.filter (fun x => passes (p x)) = ys
  | [], ys => by simp [selectE]
  | x :: xs, ys => by
    rw [selectE, List.forall_mem_cons, List.filter_cons]
    cases hx : p x with
    | error e =>
      refine iff_of_false (fun h => by cases h) ?_
      rintro ⟨⟨⟨b, hb⟩, -⟩, -⟩
      cases hb
    | ok b =>
      cases hxs : selectE p xs with
      | error e =>
        refine iff_of_false (fun h => by cases h) ?_
        rintro ⟨⟨-, hall⟩, -⟩
        have hkept := selectE_eq_ok_iff.mpr ⟨hall, rfl⟩
        rw [hxs] at hkept
        cases hkept
      | ok kept =>
        obtain ⟨hall, hkept⟩ := selectE_eq_ok_iff.mp hxs
        rw [hkept]
        show Except.ok _ = Except.ok _ ↔ _
        rw [Except.ok.injEq]
        exact ⟨fun h => ⟨⟨⟨b, rfl⟩, hall⟩, h⟩, fun h => h.2⟩

/-- A selection, and what is made of it. -/
theorem selectE_then_eq_ok_iff {β : Type} {p : α → Except ε Bool} {xs : List α} {f : List α → β}
    {y : β} : (selectE p xs >>= fun ys => .ok (f ys)) = .ok y ↔
      (∀ x ∈ xs, ∃ b, p x = .ok b) ∧ f (xs.filter fun x => passes (p x)) = y := by
  cases hxs : selectE p xs with
  | error e =>
    refine iff_of_false (fun h => by cases h) fun h => ?_
    have := selectE_eq_ok_iff.mpr ⟨h.1, rfl⟩
    rw [hxs] at this
    cases this
  | ok ys =>
    obtain ⟨hall, rfl⟩ := selectE_eq_ok_iff.mp hxs
    rw [bind_of_ok, Except.ok.injEq]
    exact (and_iff_right hall).symm

/-- Where a list parts in two, at its head or in its tail. -/
theorem forall_split_cons {x : α} {xs : List α} {P : List α → α → Prop} :
    (∀ before y after, x :: xs = before ++ y :: after → P before y) ↔
      P [] x ∧ ∀ before y after, xs = before ++ y :: after → P (x :: before) y := by
  constructor
  · intro h
    refine ⟨h [] x xs rfl, fun before y after hxs => h (x :: before) y after ?_⟩
    rw [hxs, List.cons_append]
  · rintro ⟨hhead, htail⟩ before y after heq
    cases before with
    | nil =>
      cases heq
      exact hhead
    | cons z before =>
      rw [List.cons_append, List.cons.injEq] at heq
      obtain ⟨rfl, hxs⟩ := heq
      exact htail before y after hxs

/-- **Two selections, one length.** The first looks at the first `m` elements only.

The first test is asked of the first `m` elements only. An element on which the two part matters
only where fewer than `n` were found before it. -/
theorem take_filter_eq_iff {p q : α → Bool} : ∀ {xs : List α}, xs.Nodup → ∀ m n : Nat,
    (((xs.take m).filter p).take n = (xs.filter q).take n ↔
      ∀ before x after, xs = before ++ x :: after → (decide (before.length < m) && p x) ≠ q x →
        n ≤ (before.filter q).length)
  | [], _, m, n => by simp
  | x :: xs, hnodup, m, n => by
    obtain ⟨hx, hnodup⟩ := List.nodup_cons.mp hnodup
    have htake : ((x :: xs).take m).filter p =
        (if decide (0 < m) && p x then [x] else []) ++ (xs.take (m - 1)).filter p := by
      cases m with
      | zero => simp
      | succ m => cases hp : p x <;> simp [hp]
    have hlen : ∀ l : List α, decide ((x :: l).length < m) = decide (l.length < m - 1) := by
      intro l
      rw [List.length_cons]
      exact decide_eq_decide.mpr Nat.lt_sub_iff_add_lt.symm
    rw [forall_split_cons (P := fun before y => (decide (before.length < m) && p y) ≠ q y →
      n ≤ (before.filter q).length), htake]
    simp only [hlen]
    have ih := fun n => take_filter_eq_iff (p := p) (q := q) hnodup (m - 1) n
    have hnot : ∀ {l : List α}, l.Sublist xs → x ∉ l := fun hl hmem => hx (hl.subset hmem)
    have hp := hnot (List.filter_sublist (p := p)|>.trans (List.take_sublist (m - 1) xs))
    have hq := hnot (List.filter_sublist (p := q) (l := xs))
    cases n with
    | zero => simp
    | succ n =>
      cases ha : (decide (0 < m) && p x) <;> cases hb : q x
      · simpa [ha, hb, List.filter_cons] using ih (n + 1)
      -- only one of the tests takes the head, and in the tail there is no second one
      · refine iff_of_false (fun h => hp ?_) fun h => Nat.not_succ_le_zero n (h.1 (by simp))
        have hmem : x ∈ ((x :: xs).filter q).take (n + 1) := by simp [hb]
        rw [← h] at hmem
        simpa using List.mem_of_mem_take hmem
      · refine iff_of_false (fun h => hq ?_) fun h => Nat.not_succ_le_zero n (h.1 (by simp))
        have hmem : x ∈ ((x :: xs).filter q).take (n + 1) := by
          rw [← h]
          simp
        simpa [hb] using List.mem_of_mem_take hmem
      · simpa [ha, hb, List.filter_cons] using ih n

/-! ## A selection behind a cut -/

/-- A first part has the first `n` elements of the whole if it is the whole, or long enough. -/
theorem take_append_eq_iff {A B : List α} {n : Nat} :
    A.take n = (A ++ B).take n ↔ B = [] ∨ n ≤ A.length := by
  constructor
  · intro h
    have hlen := congrArg List.length h
    rw [List.length_take, List.length_take, List.length_append] at hlen
    rcases Nat.eq_zero_or_pos B.length with hB | hB
    · exact .inl (List.length_eq_zero_iff.mp hB)
    · exact .inr (by omega)
  · rintro (rfl | h)
    · rw [List.append_nil]
    · exact (List.take_append_of_le_length h).symm

/-- The first `m` elements have the first `n` that pass, for all that comes behind: either nothing
behind the cut passes, or enough of them passed before it. -/
def Covers (p : α → Bool) (m n : Nat) (xs : List α) : Prop :=
  (xs.drop m).filter p = [] ∨ n ≤ ((xs.take m).filter p).length

theorem filter_take_append_drop (p : α → Bool) (m : Nat) (xs : List α) :
    (xs.take m).filter p ++ (xs.drop m).filter p = xs.filter p := by
  rw [← List.filter_append, List.take_append_drop]

/-- **A selection behind a cut.** It has the first `n` that pass exactly when the cut covers
them. -/
theorem map_take_filter_eq_iff {β : Type} (f : α → β) (p : α → Bool) (m n : Nat) (xs : List α) :
    (((xs.take m).filter p).take n).map f = ((xs.filter p).take n).map f ↔ Covers p m n xs := by
  rw [List.map_take, List.map_take, ← filter_take_append_drop p m xs, List.map_append,
    take_append_eq_iff, List.map_eq_nil_iff, List.length_map]
  rfl

/-- The elements with a flag, and then those without it. -/
def flaggedFirst (o : α → Bool) (xs : List α) : List α :=
  xs.filter o ++ xs.filter fun x => !o x

theorem length_flaggedFirst (o : α → Bool) (xs : List α) :
    (flaggedFirst o xs).length = xs.length := by
  rw [flaggedFirst, List.length_append]
  induction xs with
  | nil => rfl
  | cons x xs ih => cases h : o x <;> simp [h] <;> omega

/-- **A selection behind a cut, flagged elements first.** The cut has to cover the flagged ones and
all of them. `f` keeps the flag. -/
theorem take_flaggedFirst_eq_iff {β : Type} (f : α → β) {o : α → Bool} {o' : β → Bool}
    (ho : ∀ x, o' (f x) = o x) (A B : List α) (n : Nat) :
    ((flaggedFirst o A).take n).map f = ((flaggedFirst o (A ++ B)).take n).map f ↔
      (B.filter o = [] ∨ n ≤ (A.filter o).length) ∧ (B = [] ∨ n ≤ A.length) := by
  constructor
  · intro h
    constructor
    · by_contra hnot
      rw [not_or, Nat.not_le] at hnot
      obtain ⟨b, rest, hrest⟩ := List.exists_cons_of_ne_nil hnot.1
      -- behind the flagged ones of the first part the whole goes on with a flagged one
      have hwhole : ((flaggedFirst o (A ++ B)).take n)[(A.filter o).length]? = some b := by
        rw [flaggedFirst, List.filter_append, hrest, List.getElem?_take_of_lt hnot.2,
          List.append_assoc, List.getElem?_append_right (Nat.le_refl _), Nat.sub_self]
        rfl
      have hpart : ∀ a, ((flaggedFirst o A).take n)[(A.filter o).length]? = some a → o a = false := by
        intro a ha
        rw [flaggedFirst, List.getElem?_take_of_lt hnot.2,
          List.getElem?_append_right (Nat.le_refl _)] at ha
        simpa using (List.mem_filter.mp (List.mem_of_getElem? ha)).2
      have hb : o b = true := (List.mem_filter.mp (hrest ▸ List.mem_cons_self)).2
      have hsame := congrArg (fun l => l[(A.filter o).length]?) h
      simp only [List.getElem?_map, hwhole, Option.map_some] at hsame
      obtain ⟨a, ha, hfa⟩ := Option.map_eq_some_iff.mp hsame
      have hflag := ho b
      rw [← hfa, ho a, hpart a ha, hb] at hflag
      cases hflag
    · have hlen := congrArg List.length h
      simp only [List.length_map, List.length_take, length_flaggedFirst, List.length_append] at hlen
      rcases Nat.eq_zero_or_pos B.length with hB | hB
      · exact .inl (List.length_eq_zero_iff.mp hB)
      · exact .inr (by omega)
  · rintro ⟨hflagged, hall⟩
    congr 1
    rcases hflagged with hnone | hlong
    · have hwhole : flaggedFirst o (A ++ B) = flaggedFirst o A ++ B := by
        have hB : (B.filter fun x => !o x) = B := by
          apply List.filter_eq_self.mpr
          intro x hx
          rw [Bool.eq_false_iff.mpr (List.filter_eq_nil_iff.mp hnone x hx)]
          rfl
        rw [flaggedFirst, List.filter_append, List.filter_append, hnone, hB, List.append_nil,
          ← List.append_assoc, flaggedFirst]
      rw [hwhole, take_append_eq_iff, length_flaggedFirst]
      exact hall
    · rw [flaggedFirst, flaggedFirst, List.filter_append, List.append_assoc,
        List.take_append_of_le_length hlong, List.take_append_of_le_length hlong]

end Lib
