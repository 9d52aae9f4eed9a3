import Mathlib.Data.List.Basic
import Mathlib.Data.List.Induction

/-!
# Masking

A masking pass reads a text from left to right and puts a marker in the
place of every value that stands behind a key. The pass is described by what
it has written: a value is masked where the text written so far ends in a
key, so that a text in which every value behind a key is the marker is one
that the pass leaves as it is, and a pass always writes such a text.

What several passes do to a text is read off the states of a pass. A part
of the output without the marker's ends was copied, and a key with a value
behind it in the output stands in the input too, unless it begins right
behind a value that the pass has masked.

A key is looked for at the end of what was written, and not of what was
read, because that is where the second of two passes looks: its text is
the first one's output. Keys, values and what may stand before a key are
parameters, and a value is the longest run from a beginning on, which
makes it the one a greedy pattern takes; so the results hold of any pass
of this shape, and `Lib.Replacement` shows that replacing the matches of
a pattern is one.

The main results are three. A pass writes a clean text (`Masks.clean`)
and leaves a clean text as it is (`Masks.eq_of_clean`), so one pass is
idempotent. The pass of another masking keeps a text clean under
conditions on where its values end (`Masks.clean_of_apart`), and where
they fail it is said which key the marker has uncovered
(`Masks.behind`). And white space separates: what stands in a clean text
on both sides of an entry does not matter for the entry (`Masks.keeps`).

**What this does not establish.** That what is masked was secret, or
that nothing secret is left: that is a matter of the keys. And nothing
is said of a masking whose values may begin inside its own marker;
`Lawful` rules it out.
-/

namespace Lib

/-- A marker: its first symbol stands nowhere else in it. -/
structure Marker (α : Type) where
  first : α
  inner : List α
  last : α
  first_notMem : first ∉ inner ++ [last]

namespace Marker

variable {α : Type} (M : Marker α)

/-- The text of a marker. -/
def text : List α := M.first :: (M.inner ++ [M.last])

theorem text_ne_nil : M.text ≠ [] := List.cons_ne_nil _ _

@[simp] theorem getLast?_text : M.text.getLast? = some M.last := by
  simp [text, List.getLast?_cons]

end Marker

/-- What a pass looks for: what may stand before a key, the keys, and how a value begins and goes
on. All four are predicates and not patterns, so that a masking says what is masked and not how it
is found. -/
structure Masking (α : Type) where
  /-- What may stand before a key, `none` at the start of the text. -/
  opens : Option α → Prop
  key : List α → Prop
  /-- How a value begins. -/
  core : List α → Prop
  /-- What a value goes on with, as long as it can. -/
  more : α → Bool

namespace Masking

variable {α : Type} {M : Marker α} {G H : Masking α}

/-- `v` is a value, with `r` behind it. -/
def Value (G : Masking α) (v r : List α) : Prop :=
  ∃ a w, v = a ++ w ∧ G.core a ∧ (∀ c ∈ w, G.more c = true) ∧ ∀ c ∈ r.head?, G.more c = false

/-- The text ends in a key. -/
def Ready (G : Masking α) (o : List α) : Prop := ∃ b k, o = b ++ k ∧ G.key k ∧ G.opens b.getLast?

/-- Behind `o`, the value `v` is masked. Only the text written so far and the value itself are
looked at, never the rest of the text. -/
def Spot (G : Masking α) (o v r : List α) : Prop := G.Ready o ∧ G.Value v r

/-- Nothing but the marker stands behind a key. It is a property of a text and not of a pass, and
the invariant that all results about several passes go through. -/
def Clean (G : Masking α) (M : Marker α) (t : List α) : Prop :=
  ∀ b v r, t = b ++ (v ++ r) → G.Spot b v r → v = M.text

/-- A value is any run of its symbols. -/
def Runs (G : Masking α) : Prop := ∀ a, G.core a ↔ ∃ c, a = [c] ∧ G.more c = true

/-- The marker is a value as any other. -/
def Holds (G : Masking α) (M : Marker α) : Prop := G.Runs ∧ ∀ c ∈ M.text, G.more c = true

/-- What a masking has to be for its pass to do its work with the marker: values are never empty and
are determined by where they begin, no key holds the last symbol of the marker, and no value begins
inside the marker. Without the last two the pass could mask a part of what it has itself written. -/
structure Lawful (G : Masking α) (M : Marker α) : Prop where
  core_ne_nil : ∀ a, G.core a → a ≠ []
  core_unique : ∀ a a' l l', G.core a → G.core a' → a ++ l = a' ++ l' → a = a'
  core_tail : ∀ a, G.core a → M.first ∉ a.tail
  key_last : ∀ k, G.key k → M.last ∉ k
  /-- No value begins inside the marker. -/
  apart : ∀ b m₁ m₂ v r y, m₁ ≠ [] → m₂ ≠ [] → M.text = m₁ ++ m₂ → v ++ r = m₂ ++ y →
    ¬ G.Spot (b ++ m₁) v r
  /-- The marker is no value, or a value as any other. -/
  marker_value : (∀ a, G.core a → a.head? ≠ some M.first) ∨ G.Holds M

/-- What the pass makes of a text, with `o` written before. A relation and not a function: the three
rules are the three things a pass can do at a place, and proofs go by induction on them. -/
inductive Masks (G : Masking α) (M : Marker α) : List α → List α → List α → Prop
  | nil (o : List α) : Masks G M o [] []
  | copy {o l l' : List α} {c : α} (h : ∀ v r, c :: l = v ++ r → ¬ G.Spot o v r)
      (hm : Masks G M (o ++ [c]) l l') : Masks G M o (c :: l) (c :: l')
  | mark {o v r r' : List α} (h : G.Spot o v r) (hm : Masks G M (o ++ M.text) r r') :
      Masks G M o (v ++ r) (M.text ++ r')

/-- A state of the pass over `t`: what it has read, what it has written, and what is left. -/
inductive Reach (G : Masking α) (M : Marker α) (t : List α) : List α → List α → List α → Prop
  | start : Reach G M t [] [] t
  | copy {x o l : List α} {c : α} (h : Reach G M t x o (c :: l))
      (hc : ∀ v r, c :: l = v ++ r → ¬ G.Spot o v r) : Reach G M t (x ++ [c]) (o ++ [c]) l
  | mark {x o v r : List α} (h : Reach G M t x o (v ++ r)) (hv : G.Spot o v r) :
      Reach G M t (x ++ v) (o ++ M.text) r

/-- Keys do not get in each other's way. -/
structure Separate (G : Masking α) : Prop where
  key_unique : ∀ k v r k' v' r', G.key k → G.Value v r → G.key k' → G.Value v' r' →
    k ++ (v ++ r) = k' ++ (v' ++ r') → k = k'
  /-- No key begins inside a key. -/
  inside : ∀ a b k, G.key (a ++ b) → a ≠ [] → b ≠ [] → G.opens a.getLast? → G.key k → ¬ k <+: b
  /-- Right behind a value, what is before a key does not matter. -/
  after : ∀ v k v' r o o', G.Value v (k ++ (v' ++ r)) → G.key k → G.Value v' r → G.opens o →
    G.opens o'

/-! ## Runs and values -/

/-- A run up to where its class ends is determined by the text. -/
theorem eq_of_runs {p : α → Bool} {w w' l l' : List α} (hw : ∀ c ∈ w, p c = true)
    (hl : ∀ c ∈ l.head?, p c = false) (hw' : ∀ c ∈ w', p c = true)
    (hl' : ∀ c ∈ l'.head?, p c = false) (h : w ++ l = w' ++ l') : w = w' ∧ l = l' := by
  induction w generalizing w' with
  | nil =>
    cases w' with
    | nil => exact ⟨rfl, h⟩
    | cons c w' =>
      have hc := hl c (by rw [show l = c :: w' ++ l' from h]; rfl)
      rw [hw' c List.mem_cons_self] at hc
      cases hc
  | cons c w ih =>
    cases w' with
    | nil =>
      have hc := hl' c (by rw [show l' = c :: w ++ l from h.symm]; rfl)
      rw [hw c List.mem_cons_self] at hc
      cases hc
    | cons d w' =>
      obtain ⟨rfl, htail⟩ := List.cons.inj h
      obtain ⟨rfl, rfl⟩ := ih (fun e he => hw e (List.mem_cons_of_mem c he))
        (fun e he => hw' e (List.mem_cons_of_mem c he)) htail
      exact ⟨rfl, rfl⟩

/-- Where a value begins, there is a value. -/
theorem exists_value {a : List α} (ha : G.core a) (l : List α) :
    ∃ w r, l = w ++ r ∧ G.Value (a ++ w) r := by
  refine ⟨l.takeWhile G.more, l.dropWhile G.more, List.takeWhile_append_dropWhile.symm,
    a, _, rfl, ha, fun c hc => List.all_eq_true.mp List.all_takeWhile c hc, fun c hc => ?_⟩
  have hhead := List.head?_dropWhile_not G.more l
  rw [hc] at hhead
  simpa using hhead

theorem Value.ne_nil (hG : G.Lawful M) {v r : List α} (h : G.Value v r) : v ≠ [] := by
  obtain ⟨a, w, rfl, ha, -, -⟩ := h
  exact fun hnil => hG.core_ne_nil a ha (List.append_eq_nil_iff.mp hnil).1

theorem Value.unique (hG : G.Lawful M) {v r v' r' : List α} (h : G.Value v r)
    (h' : G.Value v' r') (heq : v ++ r = v' ++ r') : v = v' ∧ r = r' := by
  obtain ⟨a, w, rfl, ha, hw, hr⟩ := h
  obtain ⟨a', w', rfl, ha', hw', hr'⟩ := h'
  rw [List.append_assoc, List.append_assoc] at heq
  obtain rfl := hG.core_unique a a' _ _ ha ha' heq
  obtain ⟨rfl, rfl⟩ := eq_of_runs hw hr hw' hr' (List.append_cancel_left heq)
  exact ⟨rfl, rfl⟩

/-- In a masking of runs, every symbol of a value is one of the class. -/
theorem Value.all (hruns : G.Runs) {v r : List α} (h : G.Value v r) : ∀ c ∈ v, G.more c = true := by
  obtain ⟨a, w, rfl, ha, hw, -⟩ := h
  obtain ⟨c, rfl, hc⟩ := (hruns a).mp ha
  intro d hd
  rcases List.mem_append.mp hd with hd | hd
  · rwa [List.mem_singleton.mp hd]
  · exact hw d hd

theorem Value.stops {v r : List α} (h : G.Value v r) : ∀ c ∈ r.head?, G.more c = false := by
  obtain ⟨-, -, -, -, -, hr⟩ := h
  exact hr

/-- If keys end in symbols that are not the marker's, no value begins inside the marker. -/
theorem apart_of_last {p : α → Bool}
    (hlast : ∀ k, G.key k → ∃ c, k.getLast? = some c ∧ p c = true)
    (hM : ∀ c ∈ M.text, p c = false) {b m₁ m₂ v r : List α} (h₁ : m₁ ≠ [])
    (heq : M.text = m₁ ++ m₂) : ¬ G.Spot (b ++ m₁) v r := by
  rintro ⟨⟨b', k, hready, hk, -⟩, -⟩
  obtain ⟨c, hc, hp⟩ := hlast k hk
  have hk : k ≠ [] := fun hnil => by rw [hnil] at hc; cases hc
  have hends := congrArg List.getLast? hready
  rw [List.getLast?_append_of_ne_nil _ h₁, List.getLast?_append_of_ne_nil _ hk, hc] at hends
  have hno := hM c (heq ▸ List.mem_append_left m₂ (List.mem_of_getLast? hends))
  rw [hp] at hno
  cases hno

/-- If values begin with symbols that are not the marker's, none begins inside the marker. -/
theorem apart_of_head (hhead : ∀ a, G.core a → ∃ c, a.head? = some c ∧ c ∉ M.text)
    {o m₁ m₂ v r y : List α} (h₂ : m₂ ≠ []) (heq : M.text = m₁ ++ m₂)
    (hv : v ++ r = m₂ ++ y) : ¬ G.Spot o v r := by
  rintro ⟨-, a, w, rfl, ha, -, -⟩
  obtain ⟨c, hc, hno⟩ := hhead a ha
  have ha : a ≠ [] := fun hnil => by rw [hnil] at hc; cases hc
  have hbegins := congrArg List.head? hv
  rw [List.append_assoc, List.head?_append_of_ne_nil a ha, List.head?_append_of_ne_nil m₂ h₂,
    hc] at hbegins
  exact hno (heq ▸ List.mem_append_right m₁ (List.mem_of_head? hbegins.symm))

/-! ## The states of a pass -/

/-- One step: the pass is done, or it copies a symbol, or it masks a value. -/
theorem Masks.step {o l l' : List α} (h : G.Masks M o l l') :
    l = [] ∧ l' = [] ∨
      (∃ c m m', l = c :: m ∧ l' = c :: m' ∧ (∀ v r, l = v ++ r → ¬ G.Spot o v r) ∧
        G.Masks M (o ++ [c]) m m') ∨
      ∃ v r r', l = v ++ r ∧ l' = M.text ++ r' ∧ G.Spot o v r ∧ G.Masks M (o ++ M.text) r r' := by
  cases h with
  | nil => exact .inl ⟨rfl, rfl⟩
  | copy h hm => exact .inr (.inl ⟨_, _, _, rfl, rfl, h, hm⟩)
  | mark h hm => exact .inr (.inr ⟨_, _, _, rfl, rfl, h, hm⟩)

/-- What begins with another symbol than the marker was copied. -/
theorem Masks.copied {o l l' : List α} {c : α} (h : G.Masks M o l (c :: l')) (hc : c ≠ M.first) :
    ∃ m, l = c :: m ∧ (∀ v r, l = v ++ r → ¬ G.Spot o v r) ∧ G.Masks M (o ++ [c]) m l' := by
  rcases h.step with ⟨-, h⟩ | ⟨d, m, m', hl, hl', hno, hm⟩ | ⟨v, r, r', -, hl', -, -⟩
  · cases h
  · obtain ⟨rfl, rfl⟩ := List.cons.inj hl'
    exact ⟨m, hl, hno, hm⟩
  · exact absurd (List.cons.inj hl').1 hc

/-- What does not hold the marker's first symbol was copied. -/
theorem Masks.copied_append {o l l' a : List α} (h : G.Masks M o l (a ++ l'))
    (ha : M.first ∉ a) : ∃ m, l = a ++ m ∧ G.Masks M (o ++ a) m l' := by
  induction a generalizing o l with
  | nil => exact ⟨l, rfl, by simpa using h⟩
  | cons c a ih =>
    obtain ⟨m, rfl, -, hm⟩ := h.copied fun hc => ha (hc ▸ List.mem_cons_self)
    obtain ⟨m', rfl, hm'⟩ := ih hm fun hmem => ha (List.mem_cons_of_mem c hmem)
    exact ⟨m', rfl, by simpa using hm'⟩

/-- Between `o` and `l`, no value begins in `k`. -/
def Quiet (G : Masking α) (o k l : List α) : Prop :=
  ∀ k₁ k₂, k = k₁ ++ k₂ → k₂ ≠ [] → ∀ v r, k₂ ++ l = v ++ r → ¬ G.Spot (o ++ k₁) v r

theorem Quiet.append {o k k' l : List α} (h : G.Quiet o k (k' ++ l))
    (h' : G.Quiet (o ++ k) k' l) : G.Quiet o (k ++ k') l := by
  intro k₁ k₂ hsplit hne v r heq
  rcases List.append_eq_append_iff.mp hsplit with ⟨e, rfl, rfl⟩ | ⟨e, rfl, rfl⟩
  · rw [← List.append_assoc]
    exact h' e k₂ rfl hne v r heq
  · cases e with
    | nil =>
      have hat := h' [] k' rfl hne v r (by simpa using heq)
      simpa using hat
    | cons c e =>
      exact h k₁ (c :: e) rfl (List.cons_ne_nil c e) v r (by simpa using heq)

/-- One symbol, with no value at its place. -/
theorem quiet_singleton {o l : List α} {c : α} (h : ∀ v r, c :: l = v ++ r → ¬ G.Spot o v r) :
    G.Quiet o [c] l := by
  intro k₁ k₂ hsplit hne v r heq
  cases k₁ with
  | nil =>
    rw [List.nil_append] at hsplit
    rw [List.append_nil]
    exact h v r (by rw [← heq, ← hsplit]; rfl)
  | cons d k₁ =>
    have hnil := (List.cons.inj hsplit).2
    exact absurd (List.append_eq_nil_iff.mp hnil.symm).2 hne

theorem not_spot_of_head (hG : G.Lawful M) {c : α} (hc : ∀ a, G.core a → a.head? ≠ some c)
    {o l v r : List α} (heq : c :: l = v ++ r) : ¬ G.Spot o v r := by
  rintro ⟨-, a, w, rfl, ha, -, -⟩
  refine hc a ha ?_
  have hhead := congrArg List.head? heq
  rw [List.append_assoc, List.head?_append_of_ne_nil a (hG.core_ne_nil a ha)] at hhead
  exact hhead.symm

/-- Symbols with which no value begins. -/
theorem quiet_of_heads (hG : G.Lawful M) {k : List α}
    (hk : ∀ c ∈ k, ∀ a, G.core a → a.head? ≠ some c) (o l : List α) : G.Quiet o k l := by
  rintro k₁ k₂ rfl hne v r heq
  obtain ⟨c, k₂, rfl⟩ := List.exists_cons_of_ne_nil hne
  exact not_spot_of_head hG (hk c (by simp)) heq

/-- Symbols with which no key ends, where no value begins with the first of them. -/
theorem quiet_of_last {o k l : List α} (hstart : ∀ v r, k ++ l = v ++ r → ¬ G.Spot o v r)
    (hk : ∀ c ∈ k, ∀ x, ¬ G.Ready (x ++ [c])) : G.Quiet o k l := by
  intro k₁ k₂ hsplit hne v r heq hspot
  rcases List.eq_nil_or_concat k₁ with rfl | ⟨k₁, c, rfl⟩
  · rw [List.append_nil] at hspot
    exact hstart v r (by rw [hsplit]; exact heq) hspot
  · rw [List.concat_eq_append] at *
    refine hk c (by rw [hsplit]; simp) (o ++ k₁) ?_
    rw [List.append_assoc]
    exact hspot.1

/-- Where no value begins in a part of the text, the part is copied. -/
theorem Masks.forward {o k l l' : List α} (h : G.Masks M o (k ++ l) l') (hno : G.Quiet o k l) :
    ∃ m', l' = k ++ m' ∧ G.Masks M (o ++ k) l m' := by
  induction k generalizing o l' with
  | nil => exact ⟨l', rfl, by simpa using h⟩
  | cons c k ih =>
    rcases h.step with ⟨h, -⟩ | ⟨d, m, m', hl, rfl, -, hm⟩ | ⟨v, r, r', hl, -, hspot, -⟩
    · cases h
    · obtain ⟨rfl, rfl⟩ := List.cons.inj hl
      obtain ⟨m'', rfl, hm'⟩ := ih hm fun k₁ k₂ hk hne v r heq => by
        have hat := hno (c :: k₁) k₂ (by rw [hk]; rfl) hne v r heq
        rwa [List.append_cons] at hat
      exact ⟨m'', rfl, by simpa using hm'⟩
    · have hat := hno [] (c :: k) rfl (List.cons_ne_nil _ _) v r hl
      rw [List.append_nil] at hat
      exact absurd hspot hat

/-- The converse of `forward`. -/
theorem Masks.copies {o k l l' : List α} (h : G.Masks M (o ++ k) l l') (hno : G.Quiet o k l) :
    G.Masks M o (k ++ l) (k ++ l') := by
  induction k generalizing o with
  | nil => simpa using h
  | cons c k ih =>
    refine .copy (fun v r heq => ?_) (ih (by simpa using h) fun k₁ k₂ hk hne v r heq => ?_)
    · have hat := hno [] (c :: k) rfl (List.cons_ne_nil _ _) v r heq
      rwa [List.append_nil] at hat
    · have hat := hno (c :: k₁) k₂ (by rw [hk]; rfl) hne v r heq
      rwa [List.append_cons] at hat

/-- Where no value begins at a marker, none begins in it. -/
theorem quiet_marker (hG : G.Lawful M) {o l : List α}
    (hfirst : ∀ v r, M.text ++ l = v ++ r → ¬ G.Spot o v r) : G.Quiet o M.text l := by
  intro k₁ k₂ hk hne v r heq
  cases k₁ with
  | nil =>
    rw [List.nil_append] at hk
    rw [List.append_nil]
    exact hfirst v r (hk ▸ heq)
  | cons c k₁ => exact hG.apart o (c :: k₁) k₂ v r l (List.cons_ne_nil _ _) hne hk heq.symm

/-- Once its first symbol is copied, a marker in the text is copied whole. -/
theorem Masks.over_marker (hG : G.Lawful M) {o l l' : List α} (h : G.Masks M o (M.text ++ l) l')
    (hfirst : ∀ v r, M.text ++ l = v ++ r → ¬ G.Spot o v r) :
    ∃ m', l' = M.text ++ m' ∧ G.Masks M (o ++ M.text) l m' :=
  h.forward (quiet_marker hG hfirst)

/-- The end of what was read is the end of what was written, or a value was masked last. -/
theorem Reach.last {t x o l : List α} (h : G.Reach M t x o l) :
    x.getLast? = o.getLast? ∨ ∃ x₀ o₀ v, x = x₀ ++ v ∧ o = o₀ ++ M.text ∧ G.Spot o₀ v l ∧
      G.Reach M t x₀ o₀ (v ++ l) := by
  cases h with
  | start => exact .inl rfl
  | copy => exact .inl (by simp)
  | mark h hv => exact .inr ⟨_, _, _, rfl, rfl, hv, h⟩

/-- What does not hold the marker's last symbol was copied. -/
theorem Reach.back {t x o k l : List α} (h : G.Reach M t x (o ++ k) l) (hk : M.last ∉ k) :
    ∃ x₀, x = x₀ ++ k ∧ G.Reach M t x₀ o (k ++ l) := by
  induction k using List.reverseRecOn generalizing x l with
  | nil => exact ⟨x, by simp, by simpa using h⟩
  | append_singleton k c ih =>
    rw [← List.append_assoc] at h
    have hlast : M.last ≠ c := fun hc => hk (hc ▸ List.mem_append_right k (List.mem_singleton_self _))
    generalize ho : o ++ k ++ [c] = o' at h
    cases h with
    | start => simp at ho
    | copy h =>
      obtain ⟨rfl, hcs⟩ := List.append_inj' ho rfl
      obtain rfl := (List.cons.inj hcs).1
      obtain ⟨x₀, rfl, h₀⟩ := ih h fun hmem => hk (List.mem_append_left _ hmem)
      exact ⟨x₀, by simp, by simpa using h₀⟩
    | mark =>
      have hends := congrArg List.getLast? ho
      rw [List.getLast?_append_of_ne_nil _ M.text_ne_nil] at hends
      exact absurd (by simpa using hends.symm) hlast

/-- A place in the output is a state of the pass or lies inside a marker that the pass has
written. -/
theorem Reach.cut {t x o l w' y' : List α} (h : G.Reach M t x o l)
    (hm : G.Masks M o l (w' ++ y')) :
    (∃ w y, l = w ++ y ∧ G.Reach M t (x ++ w) (o ++ w') y ∧ G.Masks M (o ++ w') y y') ∨
      ∃ b m₁ m₂ y, m₁ ≠ [] ∧ m₂ ≠ [] ∧ M.text = m₁ ++ m₂ ∧ o ++ w' = b ++ m₁ ∧ y' = m₂ ++ y := by
  generalize hl' : w' ++ y' = l' at hm
  induction hm generalizing x w' with
  | nil o =>
    obtain ⟨rfl, rfl⟩ := List.append_eq_nil_iff.mp hl'
    exact .inl ⟨[], [], rfl, by simpa using h, by simpa using .nil o⟩
  | @copy o l l' c hno hm ih =>
    cases w' with
    | nil =>
      rw [List.nil_append] at hl'
      subst hl'
      exact .inl ⟨[], c :: l, rfl, by simpa using h, by simpa using Masks.copy hno hm⟩
    | cons d w' =>
      obtain ⟨rfl, hrest⟩ := List.cons.inj hl'
      rcases ih (h.copy hno) hrest with ⟨w, y, rfl, hreach, hy⟩ | ⟨b, m₁, m₂, y, h₁, h₂, hM, ho, hy⟩
      · exact .inl ⟨d :: w, y, rfl, by simpa using hreach, by simpa using hy⟩
      · exact .inr ⟨b, m₁, m₂, y, h₁, h₂, hM, by simpa using ho, hy⟩
  | @mark o v r r' hspot hm ih =>
    rcases List.append_eq_append_iff.mp hl' with ⟨m₂, hM, hy⟩ | ⟨w'', rfl, hrest⟩
    · -- the place lies before the end of the marker
      cases w' with
      | nil =>
        subst hy
        refine .inl ⟨[], v ++ r, rfl, by simpa using h, ?_⟩
        rw [List.append_nil, ← List.nil_append m₂, ← hM]
        exact .mark hspot hm
      | cons d w' =>
        cases m₂ with
        | nil =>
          rw [List.append_nil] at hM
          rw [List.nil_append] at hy
          subst hy
          exact .inl ⟨v, r, rfl, hM ▸ h.mark hspot, hM ▸ hm⟩
        | cons e m₂ =>
          exact .inr ⟨o, d :: w', e :: m₂, r', List.cons_ne_nil _ _, List.cons_ne_nil _ _, hM, rfl, hy⟩
    · rcases ih (h.mark hspot) hrest.symm with
        ⟨w, y, rfl, hreach, hy⟩ | ⟨b, m₁, m₂, y, h₁, h₂, hM, ho, hy⟩
      · exact .inl ⟨v ++ w, y, by simp, by simpa using hreach, by simpa using hy⟩
      · exact .inr ⟨b, m₁, m₂, y, h₁, h₂, hM, by simpa using ho, hy⟩

/-! ## What a pass leaves alone and what it leaves behind -/

/-- The clean rest of a text is left as it is. -/
theorem Masks.eq_of_clean_append {o l l' : List α} (h : G.Masks M o l l')
    (hclean : G.Clean M (o ++ l)) : l' = l := by
  induction h with
  | nil => rfl
  | copy _ _ ih => rw [ih (by simpa using hclean)]
  | @mark o v r r' hspot hm ih =>
    obtain rfl := hclean o v r rfl hspot
    rw [ih (by simpa using hclean)]

/-- A clean text is left as it is. -/
theorem Masks.eq_of_clean {t t' : List α} (h : G.Masks M [] t t') (hclean : G.Clean M t) : t' = t :=
  h.eq_of_clean_append (by rwa [List.nil_append])

/-- Where no value begins as the marker does, no value stands where the marker does. -/
theorem Value.append_ne (hG : G.Lawful M) (hshy : ∀ a, G.core a → a.head? ≠ some M.first)
    {v r : List α} (h : G.Value v r) (y : List α) : v ++ r ≠ M.text ++ y := by
  obtain ⟨a, w, rfl, ha, -, -⟩ := h
  intro heq
  refine hshy a ha ?_
  have hhead := congrArg List.head? heq
  rwa [List.append_assoc, List.head?_append_of_ne_nil a (hG.core_ne_nil a ha)] at hhead

/-- Where a masking's own marker stands as a value, it is the whole value. -/
theorem Value.eq_marker (hG : G.Lawful M) {v r y : List α} (h : G.Value v r)
    (heq : v ++ r = M.text ++ y) (hy : G.Holds M → ∀ c ∈ y.head?, G.more c = false) : v = M.text := by
  rcases hG.marker_value with hshy | hholds
  · exact absurd heq (h.append_ne hG hshy y)
  · exact (eq_of_runs (h.all hholds.1) h.stops hholds.2 (hy hholds) heq).1

/-- Behind a part of the text that ends where a run does, the output does not go on with the run,
if no value to be masked begins with another symbol. -/
theorem Masks.stops {p : α → Bool} {o y y' : List α} (h : G.Masks M o y y')
    (hcore : ∀ a, G.core a → a ≠ [] ∧ ∀ c ∈ a.head?, p c = true) (hy : ∀ c ∈ y.head?, p c = false) :
    y'.head? = y.head? := by
  rcases h.step with ⟨rfl, rfl⟩ | ⟨c, m, m', rfl, rfl, -, -⟩ | ⟨v, r, r', rfl, -, hspot, -⟩
  · rfl
  · rfl
  · obtain ⟨-, a, w, rfl, ha, -, -⟩ := hspot
    obtain ⟨hne, hhead⟩ := hcore a ha
    cases a with
    | nil => exact absurd rfl hne
    | cons c a =>
      have hno := hy c rfl
      rw [hhead c rfl] at hno
      cases hno

/-- A pass leaves nothing but the marker behind a key. A value behind a key in the output begins at
a state of the pass, or inside a marker, which `Lawful` excludes; at a state of the pass its
beginning was copied, and so it stood in the text and would have been masked. -/
theorem Masks.clean (hG : G.Lawful M) {t t' : List α} (h : G.Masks M [] t t') : G.Clean M t' := by
  intro b v r ht' ⟨hready, hvalue⟩
  subst ht'
  rcases Reach.start.cut h with ⟨l, y, rfl, -, hm⟩ | ⟨b', m₁, m₂, y, h₁, h₂, hM, hb, hy⟩
  · rw [List.nil_append] at hm
    rcases hm.step with ⟨-, hnil⟩ | ⟨c, m, m', rfl, hl', hno, hm'⟩ |
      ⟨w, r₀, r', rfl, hl', hspot, hm'⟩
    · exact absurd (List.append_eq_nil_iff.mp hnil).1 (hvalue.ne_nil hG)
    · -- the core of the value was copied, so it would have been masked
      obtain ⟨a, w, rfl, ha, -, -⟩ := hvalue
      cases a with
      | nil => exact absurd rfl (hG.core_ne_nil _ ha)
      | cons d a =>
        simp only [List.cons_append, List.cons.injEq, List.append_assoc] at hl'
        obtain ⟨rfl, rfl⟩ := hl'
        obtain ⟨m, rfl, -⟩ := hm'.copied_append (hG.core_tail _ ha)
        obtain ⟨w', r', rfl, hv⟩ := exists_value ha m
        exact absurd ⟨hready, hv⟩ (hno _ r' (by simp))
    · refine hvalue.eq_marker hG hl' fun hholds c hc => ?_
      have hstops := hm'.stops (p := G.more) (fun a ha => by
        obtain ⟨d, rfl, hd⟩ := (hholds.1 a).mp ha
        exact ⟨by simp, by simpa using hd⟩) hspot.2.stops
      exact hspot.2.stops c (hstops ▸ hc)
  · rw [List.nil_append] at hb
    subst hb
    exact absurd ⟨hready, hvalue⟩ (hG.apart b' m₁ m₂ v r y h₁ h₂ hM hy)

/-- The values of `H` begin with symbols of the values of `G`, if the marker is one of those. -/
def Under (H G : Masking α) (M : Marker α) : Prop :=
  G.Holds M → ∀ a, H.core a → ∀ c ∈ a.head?, c ≠ M.first ∧ G.more c = true

/-- Where the output goes on with a value that is not the marker, so does the text. -/
theorem Masks.value_back (hG : G.Lawful M) (hH : H.Lawful M) (hunder : H.Under G M)
    {o l v r : List α} (h : H.Masks M o l (v ++ r)) (hvalue : G.Value v r) (hv : v ≠ M.text) :
    ∃ v₀ r₀, l = v₀ ++ r₀ ∧ G.Value v₀ r₀ ∧ v₀ ≠ M.text := by
  rcases h.step with ⟨-, hnil⟩ | ⟨c, m, m', rfl, hl', hno, hm⟩ | ⟨w, r₀, r', rfl, hl', hspot, -⟩
  · exact absurd (List.append_eq_nil_iff.mp hnil).1 (hvalue.ne_nil hG)
  · have hcopy : ∃ v₀ r₀, c :: m = v₀ ++ r₀ ∧ G.Value v₀ r₀ := by
      obtain ⟨a, w, rfl, ha, -, -⟩ := hvalue
      cases a with
      | nil => exact absurd rfl (hG.core_ne_nil _ ha)
      | cons d a =>
        simp only [List.cons_append, List.cons.injEq, List.append_assoc] at hl'
        obtain ⟨rfl, rfl⟩ := hl'
        obtain ⟨m, rfl, -⟩ := hm.copied_append (hG.core_tail _ ha)
        obtain ⟨w', r', rfl, hval⟩ := exists_value ha m
        exact ⟨_, r', by simp, hval⟩
    obtain ⟨v₀, r₀, heq, hval⟩ := hcopy
    refine ⟨v₀, r₀, heq, hval, ?_⟩
    rintro rfl
    -- a marker in the text would have been copied whole
    rw [heq] at h hno
    obtain ⟨m'', hout, hrest⟩ := h.over_marker hH hno
    refine hv (hvalue.eq_marker hG hout fun hholds => ?_)
    rw [hrest.stops (p := G.more)
      (fun a ha => ⟨hH.core_ne_nil a ha, fun c hc => (hunder hholds a ha c hc).2⟩) hval.stops]
    exact hval.stops
  · rcases hG.marker_value with hshy | hholds
    · exact absurd hl' (hvalue.append_ne hG hshy r')
    · obtain ⟨-, a, w', rfl, ha, -, -⟩ := hspot
      cases a with
      | nil => exact absurd rfl (hH.core_ne_nil _ ha)
      | cons c a =>
        obtain ⟨hfirst, hmore⟩ := hunder hholds _ ha c rfl
        obtain ⟨w, r₁, heq, hval⟩ :=
          exists_value ((hholds.1 [c]).mpr ⟨c, rfl, hmore⟩) (a ++ w' ++ r₀)
        exact ⟨[c] ++ w, r₁, by simpa using heq, hval, fun h => hfirst (List.cons.inj h).1⟩

/-- A value that is not the marker and stands behind a key in the output, but behind none in the
text: the key begins right behind a value that was masked. -/
theorem Masks.behind (hG : G.Lawful M) (hH : H.Lawful M) (hunder : H.Under G M) {t t' b v r : List α}
    (h : H.Masks M [] t t') (hclean : G.Clean M t) (ht' : t' = b ++ (v ++ r))
    (hspot : G.Spot b v r) (hv : v ≠ M.text) :
    ∃ x o w k l, b = o ++ M.text ++ k ∧ G.key k ∧ G.opens (some M.last) ∧
      H.Reach M t x o (w ++ (k ++ l)) ∧ H.Spot o w (k ++ l) ∧ H.Masks M b l (v ++ r) := by
  subst ht'
  obtain ⟨⟨b₀, k, rfl, hk, hopens⟩, hvalue⟩ := hspot
  rcases Reach.start.cut h with ⟨x, l, rfl, hreach, hm⟩ | ⟨b', m₁, m₂, y, h₁, h₂, hM, hb, hy⟩
  · rw [List.nil_append] at hm
    simp only [List.nil_append] at hreach
    obtain ⟨x₀, rfl, hback⟩ := hreach.back (hG.key_last k hk)
    rcases hback.last with hsame | ⟨x₁, o, w, -, rfl, hw, hbefore⟩
    · -- the key stands in the text as well
      obtain ⟨v₀, r₀, rfl, hval, hne⟩ := hm.value_back hG hH hunder hvalue hv
      exact absurd (hclean _ v₀ r₀ rfl ⟨⟨x₀, k, rfl, hk, hsame ▸ hopens⟩, hval⟩) hne
    · refine ⟨x₁, o, w, k, l, rfl, hk, ?_, hbefore, hw, hm⟩
      rwa [List.getLast?_append_of_ne_nil _ M.text_ne_nil, M.getLast?_text] at hopens
  · rw [List.nil_append] at hb
    exact absurd ⟨⟨b₀, k, rfl, hk, hopens⟩, hvalue⟩
      (hb ▸ hG.apart b' m₁ m₂ v r y h₁ h₂ hM hy)

/-- Where the values of `H` do not end in front of a key of `G`, a pass of `H` keeps a text clean. A
marker can uncover a key only right behind a value that was masked, and there the key would have to
begin with a symbol that the value would have taken. -/
theorem Masks.clean_of_apart (hG : G.Lawful M) (hH : H.Lawful M) (hunder : H.Under G M)
    (hapart : ∀ k, G.key k → ∃ c, k.head? = some c ∧ H.more c = true) {t t' : List α}
    (h : H.Masks M [] t t') (hclean : G.Clean M t) : G.Clean M t' := by
  intro b v r ht' hspot
  by_contra hv
  obtain ⟨x, o, w, k, l, -, hk, -, -, hw, -⟩ := h.behind hG hH hunder hclean ht' hspot hv
  obtain ⟨c, hc, hmore⟩ := hapart k hk
  cases k with
  | nil => cases hc
  | cons d k =>
    cases hc
    have hstop := hw.2.stops c rfl
    rw [hmore] at hstop
    cases hstop

/-! ## A text between others -/

/-- White space keeps a masking in its place: no value holds a blank, no key begins with one, and in
no key a blank follows a symbol that ends an entry. -/
structure Spaced (G : Masking α) (blank : α → Bool) (stop : α → Prop) : Prop where
  value : ∀ v r, G.Value v r → ∀ c ∈ v, blank c = false
  key_head : ∀ c k, G.key (c :: k) → blank c = false
  key_stop : ∀ x, stop x → ∀ a b c, G.key (a ++ x :: c :: b) → blank c = false

section Between

variable {blank : α → Bool} {stop : α → Prop}

/-- A clean text in front of another is left as it is, if it ends in a blank. -/
theorem Masks.past_clean (hG : G.Spaced blank stop) {o w l y : List α}
    (h : G.Masks M o (w ++ l) y) (hclean : G.Clean M (o ++ w))
    (hend : ∀ c ∈ w.getLast?, blank c = true) :
    ∃ y', y = w ++ y' ∧ G.Masks M (o ++ w) l y' := by
  generalize hn : w.length = n
  induction n using Nat.strongRecOn generalizing o w y with
  | ind n ih =>
    cases w with
    | nil => exact ⟨y, rfl, by simpa using h⟩
    | cons c w =>
      have hlast : ∀ w' : List α, w' ≠ [] → ∀ u, c :: w = u ++ w' →
          ∀ d ∈ w'.getLast?, blank d = true := by
        intro w' hne u hu d hd
        rw [hu, List.getLast?_append_of_ne_nil u hne] at hend
        exact hend d hd
      rcases h.step with ⟨hnil, -⟩ | ⟨d, m, m', hl, rfl, -, hm⟩ | ⟨v, r, r', hl, rfl, hspot, hm⟩
      · cases hnil
      · obtain ⟨rfl, rfl⟩ := List.cons.inj hl
        obtain ⟨y', rfl, hm'⟩ := ih w.length (by rw [← hn]; exact Nat.lt_succ_self _) hm
          (by simpa using hclean) (fun d hd => by
            cases w with
            | nil => cases hd
            | cons e w => exact hlast (e :: w) (List.cons_ne_nil e w) [c] rfl d hd) rfl
        exact ⟨y', rfl, by simpa using hm'⟩
      · rcases List.append_eq_append_iff.mp hl with ⟨e, rfl, -⟩ | ⟨e, hw, rfl⟩
        · -- the value would hold the blank
          obtain ⟨d, hd⟩ : ∃ d, (c :: w).getLast? = some d :=
            ⟨_, List.getLast?_eq_some_getLast (List.cons_ne_nil c w)⟩
          have hno := hG.value _ r hspot.2 d (List.mem_append_left e (List.mem_of_getLast? hd))
          rw [hend d hd] at hno
          cases hno
        · have hne : e ≠ [] := by
            rintro rfl
            rw [List.append_nil] at hw
            have hno := hG.value v _ hspot.2 ((c :: w).getLast (List.cons_ne_nil c w))
              (hw ▸ List.getLast_mem _)
            rw [hend _ (List.getLast?_eq_some_getLast _)] at hno
            cases hno
          have hv : G.Value v e := by
            obtain ⟨a, u, rfl, ha, hu, hstop⟩ := hspot.2
            refine ⟨a, u, rfl, ha, hu, fun d hd => hstop d ?_⟩
            rwa [List.head?_append_of_ne_nil e hne]
          obtain rfl := hclean o v e (by rw [hw]) ⟨hspot.1, hv⟩
          obtain ⟨y', rfl, hm'⟩ := ih e.length
            (by
              have hlen := congrArg List.length hw
              have hpos := List.length_pos_iff.mpr M.text_ne_nil
              rw [List.length_append] at hlen
              omega)
            hm (by rw [List.append_assoc, ← hw]; exact hclean) (hlast e hne M.text hw) rfl
          exact ⟨y', by rw [hw, List.append_assoc], by rw [hw, ← List.append_assoc]; exact hm'⟩

/-- A clean text behind an entry is left as it is, if it begins with a blank. -/
theorem Masks.rest_clean (hG : G.Lawful M) (hspaced : G.Spaced blank stop) {o : List α} {x : α}
    (hx : stop x) (ho' : o.getLast? = some x) {p l y : List α} (h : G.Masks M (o ++ p) l y)
    (hclean : G.Clean M (p ++ l)) (hbegin : ∀ c ∈ (p ++ l).head?, blank c = true) : y = l := by
  generalize ho : o ++ p = o' at h
  induction h generalizing p with
  | nil => rfl
  | @copy o' l l' c _ _ ih =>
    rw [ih (p := p ++ [c]) (by simpa using hclean) (by simpa using hbegin)
      (by rw [← ho, List.append_assoc])]
  | @mark o' v r r' hspot hm ih =>
    subst ho
    cases p with
    | nil =>
      -- the value would begin with a blank
      obtain ⟨d, v, rfl⟩ := List.exists_cons_of_ne_nil (hspot.2.ne_nil hG)
      have hno := hspaced.value _ _ hspot.2 d List.mem_cons_self
      rw [hbegin d rfl] at hno
      cases hno
    | cons d p =>
      have hready : G.Ready (d :: p) := by
        obtain ⟨⟨b, k, heq, hk, hopens⟩, -⟩ := hspot
        rcases List.append_eq_append_iff.mp heq with ⟨e, rfl, hp⟩ | ⟨e, rfl, rfl⟩
        · cases e with
          | nil =>
            rw [List.nil_append] at hp
            have hno := hspaced.key_head d p (hp ▸ hk)
            rw [hbegin d rfl] at hno
            cases hno
          | cons x e =>
            rw [List.getLast?_append_of_ne_nil _ (List.cons_ne_nil x e)] at hopens
            exact ⟨x :: e, k, hp, hk, hopens⟩
        · rcases List.eq_nil_or_concat e with rfl | ⟨e, x', rfl⟩
          · have hno := hspaced.key_head d p hk
            rw [hbegin d rfl] at hno
            cases hno
          · obtain rfl : x' = x := by simpa using ho'
            have hno := hspaced.key_stop x' hx e p d (by simpa using hk)
            rw [hbegin d rfl] at hno
            cases hno
      obtain rfl := hclean (d :: p) v r rfl ⟨hready, hspot.2⟩
      rw [ih (p := d :: p ++ M.text) (by simpa using hclean) (by simpa using hbegin) (by simp)]

/-- A clean text in front and a part in which no value begins are copied. -/
theorem Masks.past_quiet (hspaced : G.Spaced blank stop) {pre mid l y : List α}
    (hpre : G.Clean M pre) (hend : ∀ c ∈ pre.getLast?, blank c = true) (hquiet : G.Quiet pre mid l)
    (h : G.Masks M [] (pre ++ (mid ++ l)) y) :
    ∃ y', y = pre ++ (mid ++ y') ∧ G.Masks M (pre ++ mid) l y' := by
  obtain ⟨y, rfl, hm⟩ := h.past_clean hspaced (by rwa [List.nil_append]) hend
  rw [List.nil_append] at hm
  obtain ⟨y', rfl, hrest⟩ := hm.forward hquiet
  exact ⟨y', rfl, hrest⟩

/-- A clean text in front, a part in which no value begins, and a clean text behind: the pass
leaves the whole as it is. -/
theorem Masks.keeps (hG : G.Lawful M) (hspaced : G.Spaced blank stop) {pre mid post y : List α}
    {x : α} (hx : stop x) (hlast : (pre ++ mid).getLast? = some x)
    (hpre : G.Clean M pre) (hpost : G.Clean M post) (hend : ∀ c ∈ pre.getLast?, blank c = true)
    (hbegin : ∀ c ∈ post.head?, blank c = true) (hquiet : G.Quiet pre mid post)
    (h : G.Masks M [] (pre ++ (mid ++ post)) y) : y = pre ++ (mid ++ post) := by
  obtain ⟨y, rfl, hm⟩ := h.past_quiet hspaced hpre hend hquiet
  have hrest : y = post := Masks.rest_clean hG hspaced hx hlast (p := [])
    (by rwa [List.append_nil]) (by rwa [List.nil_append]) (by rwa [List.nil_append])
  rw [hrest]

/-- Where a value stands, it is masked. -/
theorem Masks.at_value (hG : G.Lawful M) {o v r y : List α} (h : G.Masks M o (v ++ r) y)
    (hspot : G.Spot o v r) : ∃ y', y = M.text ++ y' ∧ G.Masks M (o ++ M.text) r y' := by
  rcases h.step with ⟨hnil, -⟩ | ⟨c, m, m', -, -, hno, -⟩ | ⟨v', r', y', heq, rfl, hspot', hm⟩
  · exact absurd (List.append_eq_nil_iff.mp hnil).1 (hspot.2.ne_nil hG)
  · exact absurd hspot (hno v r rfl)
  · obtain ⟨rfl, rfl⟩ := hspot.2.unique hG hspot'.2 heq
    exact ⟨y', rfl, hm⟩

/-- A marker in the output was copied, or a value was masked there. -/
theorem Masks.marker_back {o l y : List α} (h : G.Masks M o l (M.text ++ y)) :
    (∃ m, l = M.text ++ m ∧ G.Masks M (o ++ M.text) m y) ∨
      ∃ v r, l = v ++ r ∧ G.Spot o v r ∧ G.Masks M (o ++ M.text) r y := by
  rcases h.step with ⟨-, hnil⟩ | ⟨c, m, m', rfl, hl', -, hm⟩ | ⟨v, r, r', rfl, hl', hspot, hm⟩
  · exact absurd (List.append_eq_nil_iff.mp hnil).1 M.text_ne_nil
  · obtain ⟨rfl, rfl⟩ := List.cons.inj hl'
    obtain ⟨m, rfl, hm'⟩ := hm.copied_append M.first_notMem
    refine .inl ⟨m, rfl, ?_⟩
    rw [List.append_assoc] at hm'
    exact hm'
  · obtain rfl := List.append_cancel_left hl'
    exact .inr ⟨v, r, rfl, hspot, hm⟩

/-- A marker in the output with no key before it was copied. -/
theorem Masks.copied_marker {o l y : List α} (h : G.Masks M o l (M.text ++ y))
    (hno : ¬ G.Ready o) : ∃ m, l = M.text ++ m ∧ G.Masks M (o ++ M.text) m y := by
  rcases h.marker_back with hm | ⟨_, _, -, hspot, -⟩
  · exact hm
  · exact absurd hspot.1 hno

end Between

/-! ## How much a pass masks -/

/-- Symbols that are in no marker are never written, and as many are left only where nothing is
masked whose value holds one. -/
theorem Masks.countP_le (p : α → Bool) (hp : ∀ c ∈ M.text, p c = false) {o l l' : List α}
    (h : G.Masks M o l l') : l'.countP p ≤ l.countP p := by
  induction h with
  | nil => exact Nat.le_refl _
  | copy _ _ ih => simpa [List.countP_cons] using ih
  | @mark o v r r' _ _ ih =>
    have hmarker : M.text.countP p = 0 := List.countP_eq_zero.mpr fun c hc => by simp [hp c hc]
    rw [List.countP_append, List.countP_append, hmarker]
    omega

theorem Masks.eq_of_countP (p : α → Bool) (hp : ∀ c ∈ M.text, p c = false)
    (hcore : ∀ a, G.core a → ∃ c ∈ a, p c = true) {o l l' : List α} (h : G.Masks M o l l')
    (heq : l'.countP p = l.countP p) : l' = l := by
  induction h with
  | nil => rfl
  | copy _ _ ih => rw [ih (by simpa [List.countP_cons] using heq)]
  | @mark o v r r' hspot hm _ =>
    have hmarker : M.text.countP p = 0 := List.countP_eq_zero.mpr fun c hc => by simp [hp c hc]
    obtain ⟨-, a, w, rfl, ha, -, -⟩ := hspot
    obtain ⟨c, hc, hpc⟩ := hcore a ha
    have hpos : 0 < a.countP p := List.countP_pos_iff.mpr ⟨c, hc, hpc⟩
    have hle := hm.countP_le p hp
    rw [List.countP_append, List.countP_append, List.countP_append, hmarker] at heq
    omega

end Masking

end Lib
