import Mathlib.Data.List.Forall2
import Wapsell.Lib.Regex

/-!
# What a match reads

`Reads` is what a pattern stands for without its engine: the texts it may
cover between what is before and what is behind. The results of a pattern
are exactly its readings, and the first result of a pattern that ends in a
greedy run covers the whole run. For a pattern that ends in a capture group
this determines the match and the span of the group.

An engine is hard to reason about and its answers are not: the first
match is preferred by the order of backtracking, and for a pattern whose
last part is a greedy run of a class that preference is simply "as far
as the class goes". The theorem about groups states that for a pattern
that ends in a capture group, which is the form a masking pattern has,
and neither its user nor its statement mentions backtracking.
-/

namespace Lib

namespace Cursor

/-- The cursor behind a text. -/
def after (cur : Cursor) (w rest : List Char) : Cursor :=
  ⟨w.getLast?.or cur.prev, cur.pos + w.length, rest⟩

@[simp] theorem after_nil (cur : Cursor) : cur.after [] cur.rest = cur := rfl

theorem after_append (cur : Cursor) (w₁ w₂ mid rest : List Char) :
    (cur.after w₁ mid).after w₂ rest = cur.after (w₁ ++ w₂) rest := by
  simp [after, List.getLast?_append, Option.or_assoc, Nat.add_assoc]

end Cursor

namespace Regex

variable {word : Char → Bool}

/-- The pattern reads `w`, with `prev` before it and `rest` behind it. The surroundings are there
for the word boundaries only; a reading says nothing of which match is preferred. -/
def Reads (word : Char → Bool) : Regex → Option Char → List Char → List Char → Prop
  | .empty, _, w, _ => w = []
  | .one p, _, w, _ => ∃ c, w = [c] ∧ p c = true
  | .rep min max p, _, w, _ => (∀ c ∈ w, p c = true) ∧ admits min max w.length = true
  | .boundary, prev, w, rest => w = [] ∧ prev.any word ≠ rest.head?.any word
  | .seq r s, prev, w, rest => ∃ w₁ w₂, w = w₁ ++ w₂ ∧ Reads word r prev w₁ (w₂ ++ rest) ∧
      Reads word s (w₁.getLast?.or prev) w₂ rest
  | .alt r s, prev, w, rest => Reads word r prev w rest ∨ Reads word s prev w rest
  | .group _ r, prev, w, rest => Reads word r prev w rest

/-- Between two letters there is no boundary. -/
example : ¬ Reads Char.isAlpha .boundary (some 'a') [] ['b'] := by simp [Reads]

theorem reads_literal {same : Char → Char → Bool} {cs w rest : List Char} {prev : Option Char} :
    Reads word (literal same cs) prev w rest ↔ List.Forall₂ (fun c x => same c x = true) cs w := by
  induction cs using literal.induct generalizing prev w with
  | case1 =>
    rw [literal, Reads]
    exact List.forall₂_nil_left_iff.symm
  | case2 c =>
    rw [literal, Reads, List.forall₂_cons_left_iff]
    simp only [List.forall₂_nil_left_iff]
    constructor
    · rintro ⟨x, rfl, hx⟩
      exact ⟨x, [], hx, rfl, rfl⟩
    · rintro ⟨x, _, hx, rfl, rfl⟩
      exact ⟨x, rfl, hx⟩
  | case3 c cs hne ih =>
    rw [literal, Reads, List.forall₂_cons_left_iff]
    · constructor
      · rintro ⟨w₁, w₂, rfl, ⟨x, rfl, hx⟩, hcs⟩
        exact ⟨x, w₂, hx, ih.mp hcs, rfl⟩
      · rintro ⟨x, w₂, hx, hcs, rfl⟩
        exact ⟨[x], w₂, rfl, ⟨x, rfl, hx⟩, ih.mpr hcs⟩
    · exact hne

theorem reads_oneOf {rs : List Regex} {w rest : List Char} {prev : Option Char} :
    Reads word (oneOf rs) prev w rest ↔ ∃ r ∈ rs, Reads word r prev w rest := by
  induction rs using oneOf.induct with
  | case1 => simp [oneOf, Reads]
  | case2 r => simp [oneOf]
  | case3 r rs hne ih =>
    rw [oneOf, Reads, ih, List.exists_mem_cons_iff]
    exact hne

/-! ## The results are the readings -/

theorem mem_runs {p : Char → Bool} {l : List Char} {prev : Option Char} {pos : Nat} {e : Cursor} :
    e ∈ runs p prev pos l ↔
      ∃ w, (∀ c ∈ w, p c = true) ∧ l = w ++ e.rest ∧
        e = Cursor.after ⟨prev, pos, l⟩ w e.rest := by
  induction l generalizing prev pos with
  | nil =>
    simp only [runs, List.mem_singleton]
    constructor
    · rintro rfl
      exact ⟨[], by simp, rfl, rfl⟩
    · rintro ⟨w, -, hl, he⟩
      obtain ⟨rfl, hrest⟩ := List.append_eq_nil_iff.mp hl.symm
      rw [he, hrest]
      rfl
  | cons c cs ih =>
    have hempty : e = ⟨prev, pos, c :: cs⟩ → ∃ w, (∀ c ∈ w, p c = true) ∧ c :: cs = w ++ e.rest ∧
        e = Cursor.after ⟨prev, pos, c :: cs⟩ w e.rest := by
      rintro rfl
      exact ⟨[], by simp, rfl, rfl⟩
    have hfirst : ∀ w, c :: cs = w ++ e.rest → e = Cursor.after ⟨prev, pos, c :: cs⟩ w e.rest →
        e = ⟨prev, pos, c :: cs⟩ ∨ ∃ w', w = c :: w' ∧ cs = w' ++ e.rest ∧
          e = Cursor.after ⟨some c, pos + 1, cs⟩ w' e.rest := by
      intro w hl he
      cases w with
      | nil =>
        left
        rw [List.nil_append] at hl
        rw [he, ← hl]
        rfl
      | cons d w' =>
        right
        obtain ⟨rfl, hcs⟩ := List.cons.inj hl
        refine ⟨w', rfl, hcs, ?_⟩
        have happ := Cursor.after_append ⟨prev, pos, c :: cs⟩ [c] w' cs e.rest
        rw [List.singleton_append, ← he] at happ
        exact happ.symm
    rw [runs]
    split
    next hp =>
      rw [List.mem_append, List.mem_singleton, ih]
      constructor
      · rintro (⟨w, hw, hl, he⟩ | h)
        · refine ⟨c :: w, by simpa [hp] using hw, by rw [hl]; rfl, ?_⟩
          have happ := Cursor.after_append ⟨prev, pos, c :: cs⟩ [c] w cs e.rest
          rw [List.singleton_append] at happ
          exact he.trans happ
        · exact hempty h
      · rintro ⟨w, hw, hl, he⟩
        rcases hfirst w hl he with h | ⟨w', rfl, hcs, he'⟩
        · exact .inr h
        · exact .inl ⟨w', fun d hd => hw d (List.mem_cons_of_mem c hd), hcs, he'⟩
    next hp =>
      rw [List.mem_singleton]
      constructor
      · exact hempty
      · rintro ⟨w, hw, hl, he⟩
        rcases hfirst w hl he with h | ⟨w', rfl, -, -⟩
        · exact h
        · exact absurd (hw c List.mem_cons_self) hp

/-- Every result reads the text up to its cursor. -/
theorem reads_of_mem_results {r : Regex} {cur : Cursor} {spans : Spans} {m : Cursor × Spans}
    (hm : m ∈ results word r cur spans) :
    ∃ w, cur.rest = w ++ m.1.rest ∧ m.1 = cur.after w m.1.rest ∧
      Reads word r cur.prev w m.1.rest := by
  induction r generalizing cur spans m with
  | empty =>
    rw [results, List.mem_singleton] at hm
    subst hm
    exact ⟨[], rfl, rfl, rfl⟩
  | one p =>
    rw [results] at hm
    split at hm
    next => cases hm
    next c cs hrest =>
      split at hm
      next hp =>
        rw [List.mem_singleton] at hm
        subst hm
        exact ⟨[c], hrest, rfl, c, rfl, hp⟩
      next => cases hm
  | rep min max p =>
    rw [results] at hm
    obtain ⟨e, he, rfl⟩ := List.mem_map.mp hm
    obtain ⟨hrun, hadm⟩ := List.mem_filter.mp he
    obtain ⟨w, hw, hl, he⟩ := mem_runs.mp hrun
    refine ⟨w, hl, he, hw, ?_⟩
    rw [he] at hadm
    simpa [Cursor.after] using hadm
  | boundary =>
    rw [results] at hm
    split at hm
    next hb =>
      rw [List.mem_singleton] at hm
      subst hm
      exact ⟨[], rfl, rfl, rfl, by simpa [Cursor.atBoundary] using hb⟩
    next => cases hm
  | seq r s ihr ihs =>
    rw [results] at hm
    obtain ⟨m₁, hm₁, hm₂⟩ := List.mem_flatMap.mp hm
    obtain ⟨w₁, hl₁, he₁, hr⟩ := ihr hm₁
    obtain ⟨w₂, hl₂, he₂, hs⟩ := ihs hm₂
    refine ⟨w₁ ++ w₂, by rw [hl₁, hl₂, List.append_assoc], ?_, w₁, w₂, rfl, hl₂ ▸ hr, ?_⟩
    · rw [he₂, he₁]
      exact Cursor.after_append ..
    · rw [he₁] at hs
      exact hs
  | alt r s ihr ihs =>
    rw [results] at hm
    rcases List.mem_append.mp hm with hm | hm
    · obtain ⟨w, hl, he, hr⟩ := ihr hm
      exact ⟨w, hl, he, .inl hr⟩
    · obtain ⟨w, hl, he, hs⟩ := ihs hm
      exact ⟨w, hl, he, .inr hs⟩
  | group n r ih =>
    rw [results] at hm
    obtain ⟨m₀, hm₀, rfl⟩ := List.mem_map.mp hm
    obtain ⟨w, hl, he, hr⟩ := ih hm₀
    exact ⟨w, hl, he, hr⟩

/-- Every reading is among the results. -/
theorem mem_results_of_reads {r : Regex} {cur : Cursor} {w rest : List Char} (spans : Spans)
    (hl : cur.rest = w ++ rest) (hr : Reads word r cur.prev w rest) :
    ∃ spans', (cur.after w rest, spans') ∈ results word r cur spans := by
  induction r generalizing cur w rest spans with
  | empty =>
    cases hr
    refine ⟨spans, ?_⟩
    rw [List.nil_append] at hl
    rw [results, List.mem_singleton, ← hl, Cursor.after_nil]
  | one p =>
    obtain ⟨c, rfl, hp⟩ := hr
    refine ⟨spans, ?_⟩
    rw [results, hl]
    simp [hp, Cursor.next, Cursor.after]
  | rep min max p =>
    obtain ⟨hw, hadm⟩ := hr
    refine ⟨spans, ?_⟩
    rw [results]
    refine List.mem_map.mpr ⟨_, List.mem_filter.mpr ⟨mem_runs.mpr ⟨w, hw, hl, rfl⟩, ?_⟩, rfl⟩
    simpa [Cursor.after] using hadm
  | boundary =>
    obtain ⟨rfl, hb⟩ := hr
    refine ⟨spans, ?_⟩
    rw [List.nil_append] at hl
    rw [results, ← hl, if_pos (by simpa [Cursor.atBoundary, hl] using hb), List.mem_singleton,
      Cursor.after_nil]
  | seq r s ihr ihs =>
    obtain ⟨w₁, w₂, rfl, hr, hs⟩ := hr
    obtain ⟨spans₁, hm₁⟩ := ihr spans (hl.trans (List.append_assoc ..)) hr
    obtain ⟨spans₂, hm₂⟩ := @ihs (cur.after w₁ (w₂ ++ rest)) w₂ rest spans₁ rfl hs
    rw [Cursor.after_append] at hm₂
    exact ⟨spans₂, List.mem_flatMap.mpr ⟨_, hm₁, hm₂⟩⟩
  | alt r s ihr ihs =>
    rcases hr with hr | hs
    · obtain ⟨spans', hm⟩ := ihr spans hl hr
      exact ⟨spans', List.mem_append_left _ hm⟩
    · obtain ⟨spans', hm⟩ := ihs spans hl hs
      exact ⟨spans', List.mem_append_right _ hm⟩
  | group n r ih =>
    obtain ⟨spans', hm⟩ := ih spans hl hr
    exact ⟨_, List.mem_map.mpr ⟨_, hm, rfl⟩⟩

/-! ## Greedy ends -/

/-- The first result of the pattern stops where the class does. -/
def EndsGreedy (word : Char → Bool) (p : Char → Bool) (r : Regex) : Prop :=
  ∀ cur spans m, (results word r cur spans).head? = some m → ∀ c ∈ m.1.rest.head?, p c = false

/-- The longest run of a class comes first, and it stops where the class does. -/
theorem runs_eq_cons (p : Char → Bool) (prev : Option Char) (pos : Nat) (l : List Char) :
    ∃ e es, runs p prev pos l = e :: es ∧ (∀ c ∈ e.rest.head?, p c = false) ∧
      ∀ e' ∈ es, e'.pos ≤ e.pos := by
  induction l generalizing prev pos with
  | nil => exact ⟨_, [], rfl, by simp, by simp⟩
  | cons c cs ih =>
    rw [runs]
    split
    next hp =>
      obtain ⟨e, es, heq, hstop, hle⟩ := ih (some c) (pos + 1)
      refine ⟨e, es ++ [⟨prev, pos, c :: cs⟩], by rw [heq]; rfl, hstop, fun e' he' => ?_⟩
      rcases List.mem_append.mp he' with he' | he'
      · exact hle e' he'
      · obtain ⟨w, -, -, he⟩ := mem_runs.mp (heq ▸ List.mem_cons_self :
          e ∈ runs p (some c) (pos + 1) cs)
        have hpos : e.pos = pos + 1 + w.length := congrArg Cursor.pos he
        rw [List.mem_singleton.mp he']
        show pos ≤ e.pos
        omega
    next hp =>
      refine ⟨_, [], rfl, fun d hd => ?_, by simp⟩
      cases hd
      simpa using hp

theorem endsGreedy_rep (n : Nat) (p : Char → Bool) : EndsGreedy word p (.rep n none p) := by
  intro cur spans m hm
  obtain ⟨e, es, heq, hstop, hle⟩ := runs_eq_cons p cur.prev cur.pos cur.rest
  rw [results, heq, List.head?_map, List.filter_cons] at hm
  split at hm
  next =>
    obtain rfl := Option.some.inj hm
    exact hstop
  next hshort =>
    -- the longest run is too short, and so are the others
    have hnone : es.filter (fun e => admits n none (e.pos - cur.pos)) = [] := by
      refine List.filter_eq_nil_iff.mpr fun e' he' hadm => hshort ?_
      have := hle e' he'
      simp only [admits, Option.all_none, Bool.and_true, decide_eq_true_eq] at hadm ⊢
      omega
    rw [hnone] at hm
    cases hm

theorem EndsGreedy.seq {p : Char → Bool} {s : Regex} (h : EndsGreedy word p s) (r : Regex) :
    EndsGreedy word p (.seq r s) := by
  intro cur spans m hm
  rw [results, List.head?_flatMap] at hm
  obtain ⟨m₁, -, hm₁⟩ := List.exists_of_findSome?_eq_some hm
  exact h m₁.1 m₁.2 m hm₁

theorem EndsGreedy.group {p : Char → Bool} {r : Regex} (h : EndsGreedy word p r) (n : Nat) :
    EndsGreedy word p (.group n r) := by
  intro cur spans m hm
  rw [results, List.head?_map] at hm
  obtain ⟨m₀, hm₀, rfl⟩ := Option.map_eq_some_iff.mp hm
  exact h cur spans m₀ hm₀

/-! ## Patterns that end in a group -/

theorem results_inOrder_concat (rs : List Regex) (r : Regex) (cur : Cursor) (spans : Spans) :
    results word (inOrder (rs ++ [r])) cur spans =
      (results word (inOrder rs) cur spans).flatMap fun m => results word r m.1 m.2 := by
  induction rs generalizing cur spans with
  | nil => simp [inOrder, results]
  | cons r₀ rs ih =>
    cases rs with
    | nil => rfl
    | cons r₁ rs =>
      show results word (.seq r₀ (inOrder (r₁ :: rs ++ [r]))) cur spans =
        (results word (.seq r₀ (inOrder (r₁ :: rs))) cur spans).flatMap _
      simp only [results, ih, List.flatMap_assoc]

/-- Where there is no match, the pattern has no reading. -/
theorem not_reads_of_matchAt_eq_none {rs : List Regex} {v : Regex} {n : Nat} {cur : Cursor}
    (hm : matchAt word (inOrder (rs ++ [.group n v])) false cur = none)
    {key value rest : List Char} (hl : cur.rest = key ++ (value ++ rest))
    (hkey : Reads word (inOrder rs) cur.prev key (value ++ rest)) :
    ¬ Reads word v (key.getLast?.or cur.prev) value rest := by
  intro hvalue
  obtain ⟨spans, hmem⟩ := mem_results_of_reads [] hl hkey
  obtain ⟨spans', hmem'⟩ := @mem_results_of_reads word (.group n v)
    (cur.after key (value ++ rest)) value rest spans rfl hvalue
  have hin : ((cur.after key (value ++ rest)).after value rest, spans') ∈
      results word (inOrder (rs ++ [.group n v])) cur [] := by
    rw [results_inOrder_concat]
    exact List.mem_flatMap.mpr ⟨_, hmem, hmem'⟩
  rw [matchAt, Option.map_eq_none_iff, List.find?_eq_none] at hm
  exact hm _ hin rfl

/-- The match of a pattern that ends in a group is a reading of it, and the group spans a value that
goes as far as its class does. Which of several readings of the parts before the group is preferred
is left open; the users of the lemma have patterns for which it does not matter. -/
theorem matchAt_group {rs : List Regex} {v : Regex} {n : Nat} {p : Char → Bool}
    (hgreedy : EndsGreedy word p v) {cur : Cursor} {m : Match}
    (hm : matchAt word (inOrder (rs ++ [.group n v])) false cur = some m) :
    ∃ key value rest, cur.rest = key ++ (value ++ rest) ∧
      Reads word (inOrder rs) cur.prev key (value ++ rest) ∧
      Reads word v (key.getLast?.or cur.prev) value rest ∧ (∀ c ∈ rest.head?, p c = false) ∧
      m.start = cur.pos ∧ m.text = key ++ value ∧
      m.span n = some (cur.pos + key.length, cur.pos + key.length + value.length) := by
  have hfirst : ∀ l : List (Cursor × Spans),
      l.find? (fun e => !false || decide (cur.pos < e.1.pos)) = l.head? := by
    intro l
    cases l <;> rfl
  rw [matchAt, hfirst, results_inOrder_concat] at hm
  obtain ⟨e, he, rfl⟩ := Option.map_eq_some_iff.mp hm
  rw [List.head?_flatMap] at he
  obtain ⟨m₁, hm₁, he⟩ := List.exists_of_findSome?_eq_some he
  obtain ⟨key, hl, hat, hkey⟩ := reads_of_mem_results hm₁
  have hstop := (hgreedy.group n) _ _ _ he
  rw [results, List.head?_map] at he
  obtain ⟨e₀, he₀, rfl⟩ := Option.map_eq_some_iff.mp he
  obtain ⟨value, hl', hat', hvalue⟩ := reads_of_mem_results (List.mem_of_mem_head? he₀)
  have hstart : m₁.1.pos = cur.pos + key.length := by rw [hat]; rfl
  have hend : e₀.1.pos = cur.pos + key.length + value.length := by
    rw [hat', ← hstart]
    rfl
  rw [hat] at hvalue
  refine ⟨key, value, e₀.1.rest, hl' ▸ hl, hl' ▸ hkey, hvalue, hstop, rfl, ?_, ?_⟩
  · show cur.rest.take (e₀.1.pos - cur.pos) = key ++ value
    rw [hend, hl, hl', ← List.append_assoc]
    exact List.take_left' (by simp; omega)
  · simp [Match.span, hstart, hend]

end Regex

end Lib
