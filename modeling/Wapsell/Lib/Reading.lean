import Wapsell.Lib.Masking

/-!
# What maskings take of a text

A masking pass writes another text; here the text itself is read. A reading is
the text, symbol by symbol, with the values taken out of sight that some
masking takes: `Glyph.source` puts them back and is the text again
(`Takes.source`). A masking reads past the values that others have taken
before it, and takes a value where it stands in sight behind a key in sight.

`Takes.masks` connects the two views: with a marker shown for every value that
is taken, the readings of a masking are the states of its pass. What that buys
is a question about several passes that can be asked of the text: whether a
masking has anything to do once others have run (`clean_shown_iff`) depends
only on what stands right behind the values that are taken, since everywhere
else the keys and the values are as they were.

**What this does not establish.** The markers must not be written into what a
masking still has to look at: a pass reads on only where its values end in
front of a marker (`Stops`) or where no value is taken yet (`Bare`). A masking
whose values run over a marker, read after others, is outside of it.
-/

namespace Lib

/-- One step of a reading: a symbol in sight, or a value that is taken. -/
inductive Glyph (α : Type)
  | plain (c : α)
  | value (v : List α)

namespace Glyph

variable {α : Type}

/-- The text that is read. -/
def source : List (Glyph α) → List α
  | [] => []
  | .plain c :: F => c :: source F
  | .value v :: F => v ++ source F

/-- The text with a marker for every value that is taken. -/
def shown (M : Marker α) : List (Glyph α) → List α
  | [] => []
  | .plain c :: F => c :: shown M F
  | .value _ :: F => M.text ++ shown M F

/-- What is in sight up to the first value. -/
def front : List (Glyph α) → List α
  | .plain c :: F => c :: front F
  | _ => []

/-- A text in sight. -/
def plains (l : List α) : List (Glyph α) := l.map .plain

/-- No value is taken yet. -/
def Bare (F : List (Glyph α)) : Prop := ∀ g ∈ F, ∃ c, g = .plain c

@[simp] theorem plains_nil : plains ([] : List α) = [] := rfl

@[simp] theorem plains_cons (c : α) (l : List α) : plains (c :: l) = .plain c :: plains l := rfl

@[simp] theorem plains_append (l l' : List α) : plains (l ++ l') = plains l ++ plains l' :=
  List.map_append

@[simp] theorem source_append (F F' : List (Glyph α)) : source (F ++ F') = source F ++ source F' := by
  induction F with
  | nil => rfl
  | cons g F ih => cases g <;> simp [source, ih]

@[simp] theorem source_plains (l : List α) : source (plains l) = l := by
  induction l with
  | nil => rfl
  | cons c l ih => simp [source, ih]

section Shown

variable {M : Marker α}

@[simp] theorem shown_append (F F' : List (Glyph α)) :
    shown M (F ++ F') = shown M F ++ shown M F' := by
  induction F with
  | nil => rfl
  | cons g F ih => cases g <;> simp [shown, ih]

@[simp] theorem shown_plains (l : List α) : shown M (plains l) = l := by
  induction l with
  | nil => rfl
  | cons c l ih => simp [shown, ih]

@[simp] theorem front_plains_append (l : List α) (F : List (Glyph α)) :
    front (plains l ++ F) = l ++ front F := by
  induction l with
  | nil => rfl
  | cons c l ih => simp [front, ih]

/-- A part of what is in sight. -/
theorem split_front {F : List (Glyph α)} {v r : List α} (h : front F = v ++ r) :
    ∃ B, F = plains v ++ B ∧ r = front B := by
  induction v generalizing F with
  | nil => exact ⟨F, rfl, h.symm⟩
  | cons c v ih =>
    cases F with
    | nil => cases h
    | cons g F =>
      cases g with
      | plain d =>
        obtain ⟨rfl, hrest⟩ := List.cons.inj h
        obtain ⟨B, rfl, hr⟩ := ih hrest
        exact ⟨B, rfl, hr⟩
      | value v => cases h

theorem Bare.exists_eq {F : List (Glyph α)} (h : Bare F) : ∃ l, F = plains l := by
  induction F with
  | nil => exact ⟨[], rfl⟩
  | cons g F ih =>
    obtain ⟨c, rfl⟩ := h g List.mem_cons_self
    obtain ⟨l, rfl⟩ := ih fun g hg => h g (List.mem_cons_of_mem _ hg)
    exact ⟨c :: l, rfl⟩

theorem bare_plains (l : List α) : Bare (plains l) := by
  intro g hg
  obtain ⟨c, -, rfl⟩ := List.mem_map.mp hg
  exact ⟨c, rfl⟩

/-- A part of what is shown that does not hold the marker's first symbol is in sight. -/
theorem plains_of_shown {F : List (Glyph α)} {k y : List α} (h : shown M F = k ++ y)
    (hk : M.first ∉ k) : ∃ F', F = plains k ++ F' ∧ y = shown M F' := by
  induction k generalizing F with
  | nil => exact ⟨F, rfl, h.symm⟩
  | cons c k ih =>
    cases F with
    | nil => cases h
    | cons g F =>
      cases g with
      | plain d =>
        obtain ⟨rfl, hrest⟩ := List.cons.inj h
        obtain ⟨F', rfl, hy⟩ := ih hrest fun hmem => hk (List.mem_cons_of_mem d hmem)
        exact ⟨F', rfl, hy⟩
      | value v => exact absurd ((List.cons.inj h).1 ▸ List.mem_cons_self) hk

/-- The same from behind, with its last symbol. -/
theorem plains_of_shown_back {F : List (Glyph α)} {b k : List α} (h : shown M F = b ++ k)
    (hk : M.last ∉ k) : ∃ A, F = A ++ plains k ∧ b = shown M A := by
  induction k using List.reverseRecOn generalizing F with
  | nil => exact ⟨F, by simp, by simpa using h.symm⟩
  | append_singleton k c ih =>
    rw [← List.append_assoc] at h
    rcases List.eq_nil_or_concat F with rfl | ⟨F, g, rfl⟩
    · simp [shown] at h
    rw [List.concat_eq_append, shown_append] at h
    cases g with
    | plain d =>
      obtain ⟨hrest, hc⟩ := List.append_inj' h rfl
      obtain rfl : d = c := (List.cons.inj hc).1
      obtain ⟨A, rfl, hb⟩ := ih hrest fun hmem => hk (List.mem_append_left _ hmem)
      exact ⟨A, by simp, hb⟩
    | value v =>
      have hends := congrArg List.getLast? h
      rw [shown, shown, List.append_nil, List.getLast?_append_of_ne_nil _ M.text_ne_nil,
        M.getLast?_text, List.getLast?_concat] at hends
      exact absurd (by simp [Option.some.inj hends]) hk

/-- A place in what is shown is one of the reading, or lies inside a marker. -/
theorem cut_shown {F : List (Glyph α)} {b y : List α} (h : shown M F = b ++ y) :
    (∃ A B, F = A ++ B ∧ b = shown M A ∧ y = shown M B) ∨
      ∃ A B m₁ m₂, m₁ ≠ [] ∧ m₂ ≠ [] ∧ M.text = m₁ ++ m₂ ∧ b = shown M A ++ m₁ ∧
        y = m₂ ++ shown M B := by
  induction F generalizing b with
  | nil =>
    obtain ⟨rfl, rfl⟩ := List.append_eq_nil_iff.mp h.symm
    exact .inl ⟨[], [], rfl, rfl, rfl⟩
  | cons g F ih =>
    cases g with
    | plain c =>
      cases b with
      | nil => exact .inl ⟨[], .plain c :: F, rfl, rfl, h.symm⟩
      | cons d b =>
        obtain ⟨rfl, hrest⟩ := List.cons.inj h
        rcases ih hrest with ⟨A, B, rfl, rfl, rfl⟩ | ⟨A, B, m₁, m₂, h₁, h₂, hM, rfl, rfl⟩
        · exact .inl ⟨.plain c :: A, B, rfl, rfl, rfl⟩
        · exact .inr ⟨.plain c :: A, B, m₁, m₂, h₁, h₂, hM, rfl, rfl⟩
    | value v =>
      rcases List.append_eq_append_iff.mp (show M.text ++ shown M F = b ++ y from h) with
        ⟨e, rfl, hrest⟩ | ⟨m₂, hM, rfl⟩
      · rcases ih hrest with ⟨A, B, rfl, rfl, rfl⟩ | ⟨A, B, m₁, m₂, h₁, h₂, hM, rfl, rfl⟩
        · exact .inl ⟨.value v :: A, B, rfl, rfl, rfl⟩
        · exact .inr ⟨.value v :: A, B, m₁, m₂, h₁, h₂, hM, by simp [shown], rfl⟩
      · cases b with
        | nil =>
          rw [List.nil_append] at hM
          exact .inl ⟨[], .value v :: F, rfl, rfl, by rw [← hM]; rfl⟩
        | cons d b =>
          cases m₂ with
          | nil =>
            rw [List.append_nil] at hM
            exact .inl ⟨[.value v], F, rfl, by simp [shown, hM], rfl⟩
          | cons e m₂ =>
            exact .inr ⟨[], F, d :: b, e :: m₂, List.cons_ne_nil _ _, List.cons_ne_nil _ _, hM, rfl,
              rfl⟩

end Shown

end Glyph

namespace Masking

open Glyph

variable {α : Type} {M : Marker α} {G H : Masking α} {F F' : List (Glyph α)}

/-- What the masking takes, with `c` in sight since the last value: it reads past the values that
are taken, and takes those that stand behind a key, all of it in sight. -/
inductive Takes (G : Masking α) : List α → List (Glyph α) → List (Glyph α) → Prop
  | nil (c : List α) : Takes G c [] []
  | skip {c v : List α} {F F' : List (Glyph α)} (h : Takes G [] F F') :
      Takes G c (.value v :: F) (.value v :: F')
  | pass {c : List α} {d : α} {F F' : List (Glyph α)}
      (hno : ∀ v r, d :: front F = v ++ r → ¬ G.Spot c v r) (h : Takes G (c ++ [d]) F F') :
      Takes G c (.plain d :: F) (.plain d :: F')
  | take {c v : List α} {F F' : List (Glyph α)} (hspot : G.Spot c v (front F))
      (h : Takes G [] F F') : Takes G c (plains v ++ F) (.value v :: F')

/-- The values end in front of a marker. -/
def Stops (G : Masking α) (M : Marker α) : Prop :=
  G.more M.first = false ∧ ∀ a, G.core a → M.first ∉ a

/-- What a pass with the marker `M` has written where the masking has `c` in sight. -/
def Behind (M : Marker α) (o c : List α) : Prop := o = c ∨ ∃ b, o = b ++ M.text ++ c

/-! ## The reading of a masking -/

/-- What is read is the text, whatever is taken. -/
theorem Takes.source {c : List α} {F F' : List (Glyph α)} (h : G.Takes c F F') :
    source F' = source F := by
  induction h with
  | nil => rfl
  | skip _ ih => simp [Glyph.source, ih]
  | pass _ _ ih => simp [Glyph.source, ih]
  | take _ _ ih => simp [Glyph.source, ih]

/-- Every value that is taken was taken before, or is one of the masking's. -/
theorem Takes.values {c : List α} {F F' : List (Glyph α)} (h : G.Takes c F F') {v : List α}
    (hv : .value v ∈ F') : .value v ∈ F ∨ ∃ r, G.Value v r := by
  induction h with
  | nil => cases hv
  | skip _ ih =>
    rcases List.mem_cons.mp hv with heq | hv
    · exact .inl (heq ▸ List.mem_cons_self)
    · exact (ih hv).imp_left (List.mem_cons_of_mem _)
  | pass _ _ ih =>
    rcases List.mem_cons.mp hv with heq | hv
    · cases heq
    · exact (ih hv).imp_left (List.mem_cons_of_mem _)
  | take hspot _ ih =>
    rcases List.mem_cons.mp hv with heq | hv
    · obtain rfl := Glyph.value.inj heq
      exact .inr ⟨_, hspot.2⟩
    · exact (ih hv).imp_left (List.mem_append_right _)

/-- Every text can be read. -/
theorem exists_takes (hG : G.Lawful M) (c : List α) (F : List (Glyph α)) : ∃ F', G.Takes c F F' := by
  generalize hn : F.length = n
  induction n using Nat.strongRecOn generalizing c F with
  | ind n ih =>
    cases F with
    | nil => exact ⟨[], .nil c⟩
    | cons g F =>
      have hlt : F.length < n := by rw [← hn, List.length_cons]; exact Nat.lt_succ_self _
      cases g with
      | value v =>
        obtain ⟨F', h⟩ := ih _ hlt [] F rfl
        exact ⟨_, h.skip⟩
      | plain d =>
        by_cases hspot : ∃ v r, d :: front F = v ++ r ∧ G.Spot c v r
        · obtain ⟨v, r, heq, hspot⟩ := hspot
          obtain ⟨B, hB, rfl⟩ : ∃ B, Glyph.plain d :: F = plains v ++ B ∧ r = front B :=
            split_front heq
          have hshort : B.length < n := by
            have hlen := congrArg List.length hB
            have hpos := List.length_pos_iff.mpr (hspot.2.ne_nil hG)
            rw [List.length_append, plains, List.length_map] at hlen
            omega
          obtain ⟨F', h⟩ := ih _ hshort [] B rfl
          exact ⟨_, hB ▸ h.take hspot⟩
        · obtain ⟨F', h⟩ := ih _ hlt (c ++ [d]) F rfl
          exact ⟨_, h.pass fun v r heq hv => hspot ⟨v, r, heq, hv⟩⟩

/-! ## The reading and the pass -/

theorem Behind.snoc {o c : List α} (h : Behind M o c) (d : α) : Behind M (o ++ [d]) (c ++ [d]) := by
  rcases h with rfl | ⟨b, rfl⟩
  · exact .inl rfl
  · exact .inr ⟨b, by simp⟩

theorem behind_text (o : List α) : Behind M (o ++ M.text) [] := .inr ⟨o, by simp⟩

/-- What stands before the marker does not matter for what is a key behind it. -/
theorem Behind.ready (hG : G.Lawful M) (hopens : G.opens (some M.last) ↔ G.opens none)
    {o c : List α} (h : Behind M o c) : G.Ready o ↔ G.Ready c := by
  rcases h with rfl | ⟨b, rfl⟩
  · rfl
  have hlast : (b ++ M.text).getLast? = some M.last := by
    rw [List.getLast?_append_of_ne_nil _ M.text_ne_nil, M.getLast?_text]
  constructor
  · rintro ⟨b', k, heq, hk, hbefore⟩
    rcases List.append_eq_append_iff.mp heq with ⟨e, rfl, rfl⟩ | ⟨e, he, rfl⟩
    · refine ⟨e, k, rfl, hk, ?_⟩
      rcases List.eq_nil_or_concat e with rfl | ⟨e, d, rfl⟩
      · rw [List.append_nil, hlast] at hbefore
        exact hopens.mp hbefore
      · rw [List.concat_eq_append] at *
        rw [List.getLast?_concat]
        rwa [← List.append_assoc, List.getLast?_concat] at hbefore
    · rcases List.eq_nil_or_concat e with rfl | ⟨e, d, rfl⟩
      · refine ⟨[], c, rfl, hk, ?_⟩
        rw [List.append_nil] at he
        rw [← he, hlast] at hbefore
        exact hopens.mp hbefore
      · -- the key would hold the end of the marker
        rw [List.concat_eq_append, ← List.append_assoc] at he
        rw [he, List.getLast?_concat] at hlast
        exact absurd (by simp [Option.some.inj hlast]) (hG.key_last _ hk)
  · rintro ⟨e, k, rfl, hk, hbefore⟩
    refine ⟨b ++ M.text ++ e, k, by simp, hk, ?_⟩
    rcases List.eq_nil_or_concat e with rfl | ⟨e, d, rfl⟩
    · rw [List.append_nil, hlast]
      exact hopens.mpr hbefore
    · rw [List.concat_eq_append] at *
      rw [← List.append_assoc, List.getLast?_concat]
      rwa [List.getLast?_concat] at hbefore

/-- A value in sight and the value shown are one: in front of a marker either the masking's values
end, or there is none yet. -/
theorem value_shown (hF : G.Stops M ∨ Bare F) {v : List α} :
    G.Value v (shown M F) ↔ G.Value v (front F) := by
  have hhead : ∀ c, G.more c = true → (c ∈ (shown M F).head? ↔ c ∈ (front F).head?) := by
    intro c hc
    cases F with
    | nil => rfl
    | cons g F =>
      cases g with
      | plain d => rfl
      | value u =>
        rcases hF with hstops | hbare
        · refine iff_of_false (fun h => ?_) fun h => by cases h
          cases h
          exact absurd (hstops.1.symm.trans hc) (by decide)
        · obtain ⟨d, hd⟩ := hbare _ List.mem_cons_self
          cases hd
  have hstop : (∀ c ∈ (shown M F).head?, G.more c = false) ↔ ∀ c ∈ (front F).head?, G.more c = false := by
    constructor
    · intro h c hc
      by_contra hmore
      rw [Bool.not_eq_false] at hmore
      exact absurd ((h c ((hhead c hmore).mpr hc)).symm.trans hmore) (by decide)
    · intro h c hc
      by_contra hmore
      rw [Bool.not_eq_false] at hmore
      exact absurd ((h c ((hhead c hmore).mp hc)).symm.trans hmore) (by decide)
  unfold Value
  simp only [hstop]

theorem exists_plains (hF : G.Stops M ∨ Bare F) {v r : List α} (h : shown M F = v ++ r)
    (hv : G.Value v r) : ∃ B, F = plains v ++ B ∧ r = shown M B := by
  rcases hF with ⟨hmore, hcore⟩ | hbare
  · refine plains_of_shown h ?_
    obtain ⟨a, w, rfl, ha, hw, -⟩ := hv
    intro hmem
    rcases List.mem_append.mp hmem with hmem | hmem
    · exact hcore a ha hmem
    · exact absurd ((hw _ hmem).symm.trans hmore) (by decide)
  · obtain ⟨l, rfl⟩ := hbare.exists_eq
    rw [shown_plains] at h
    subst h
    exact ⟨plains r, by simp, by simp⟩

/-- **A reading is the state of a pass.** With the marker shown for what is taken, reading on is
what the pass does. -/
theorem Takes.masks (hG : G.Lawful M) (hopens : G.opens (some M.last) ↔ G.opens none)
    {c : List α} {F F' : List (Glyph α)} (h : G.Takes c F F') (hF : G.Stops M ∨ Bare F) {o : List α}
    (ho : Behind M o c) : G.Masks M o (shown M F) (shown M F') := by
  induction h generalizing o with
  | nil => exact .nil o
  | @skip c v F F' _ ih =>
    rcases hF with hstops | hbare
    · refine (ih (.inl hstops) (behind_text o)).copies (quiet_marker hG fun v r heq => ?_)
      refine not_spot_of_head hG (fun a ha hhead => ?_) heq
      exact hstops.2 a ha (List.mem_of_mem_head? hhead)
    · obtain ⟨d, hd⟩ := hbare _ List.mem_cons_self
      cases hd
  | @pass c d F F' hno _ ih =>
    have hrest : G.Stops M ∨ Bare F := hF.imp_right fun hbare g hg => hbare g (List.mem_cons_of_mem _ hg)
    refine .copy (fun v r heq hspot => ?_) (ih hrest (ho.snoc d))
    obtain ⟨B, hB, rfl⟩ := exists_plains hF heq hspot.2
    have hB' : G.Stops M ∨ Bare B := hF.imp_right fun hbare g hg =>
      hbare g (hB ▸ List.mem_append_right _ hg)
    refine hno v (front B) ?_ ⟨(ho.ready hG hopens).mp hspot.1, (value_shown hB').mp hspot.2⟩
    rw [← front_plains_append, ← hB]
    rfl
  | @take c v F F' hspot _ ih =>
    have hrest : G.Stops M ∨ Bare F := hF.imp_right fun hbare g hg => hbare g (List.mem_append_right _ hg)
    rw [shown_append, shown_plains]
    exact .mark ⟨(ho.ready hG hopens).mpr hspot.1, (value_shown hrest).mpr hspot.2⟩
      (ih hrest (behind_text o))

/-- What a pass makes of a text is determined. -/
theorem Masks.unique (hG : G.Lawful M) {o l y y' : List α} (h : G.Masks M o l y)
    (h' : G.Masks M o l y') : y = y' := by
  induction h generalizing y' with
  | nil =>
    rcases h'.step with ⟨-, rfl⟩ | ⟨c, m, m', hl, -⟩ | ⟨v, r, r', hl, -, hspot, -⟩
    · rfl
    · cases hl
    · exact absurd (List.append_eq_nil_iff.mp hl.symm).1 (hspot.2.ne_nil hG)
  | copy hno _ ih =>
    rcases h'.step with ⟨hl, -⟩ | ⟨c, m, m', hl, rfl, -, hm⟩ | ⟨v, r, r', hl, -, hspot, -⟩
    · cases hl
    · obtain ⟨rfl, rfl⟩ := List.cons.inj hl
      rw [ih hm]
    · exact absurd hspot (hno v r hl)
  | mark hspot _ ih =>
    rcases h'.step with ⟨hl, -⟩ | ⟨c, m, m', -, -, hno, -⟩ | ⟨v, r, r', hl, rfl, hspot', hm⟩
    · exact absurd (List.append_eq_nil_iff.mp hl).1 (hspot.2.ne_nil hG)
    · exact absurd hspot (hno _ _ rfl)
    · obtain ⟨rfl, rfl⟩ := hspot.2.unique hG hspot'.2 hl
      rw [ih hm]

/-! ## Where a reading is clean -/

/-- What is in sight after the masking has read on was in sight before. -/
theorem Takes.plains {c k : List α} {L : List (Glyph α)} (h : G.Takes c F (plains k ++ L)) :
    ∃ B, F = plains k ++ B ∧ G.Takes (c ++ k) B L := by
  induction k generalizing c F with
  | nil => exact ⟨F, rfl, by simpa using h⟩
  | cons d k ih =>
    cases h with
    | pass hno h =>
      obtain ⟨B, rfl, hB⟩ := ih h
      exact ⟨B, rfl, by simpa using hB⟩

/-- A place in a reading, before the masking read on. It is behind the same symbol, or behind a value. -/
theorem Takes.split {c : List α} {A' B' : List (Glyph α)} (h : G.Takes c F (A' ++ B')) :
    ∃ A B c', F = A ++ B ∧ G.Takes c' B B' ∧
      (A'.getLast? = A.getLast? ∨ ∃ v, A'.getLast? = some (.value v)) := by
  induction A' generalizing c F with
  | nil => exact ⟨[], F, c, rfl, h, .inl rfl⟩
  | cons g A' ih =>
    have hends : ∀ (p A : List (Glyph α)), p.getLast? = some g →
        (A'.getLast? = A.getLast? ∨ ∃ v, A'.getLast? = some (.value v)) →
          (g :: A').getLast? = (p ++ A).getLast? ∨ ∃ v, (g :: A').getLast? = some (.value v) := by
      intro p A hp hA
      rw [List.getLast?_cons, List.getLast?_append]
      rcases hA with heq | ⟨v, hv⟩
      · rw [heq, hp]
        cases A.getLast? <;> exact .inl rfl
      · rw [hv]
        exact .inr ⟨v, rfl⟩
    cases h with
    | skip h =>
      obtain ⟨A, B, c', rfl, hB, hA⟩ := ih h
      exact ⟨_ :: A, B, c', rfl, hB, hends [_] A rfl hA⟩
    | pass hno h =>
      obtain ⟨A, B, c', rfl, hB, hA⟩ := ih h
      exact ⟨_ :: A, B, c', rfl, hB, hends [_] A rfl hA⟩
    | @take c v F F' hspot h =>
      obtain ⟨A, B, c', rfl, hB, hA⟩ := ih h
      refine ⟨Glyph.plains v ++ A, B, c', by simp, hB, ?_⟩
      cases A' with
      | nil => exact .inr ⟨v, rfl⟩
      | cons g A' =>
        rw [List.getLast?_cons_cons, List.getLast?_append]
        refine hA.imp_left fun heq => ?_
        rw [heq]
        cases hnone : A.getLast? with
        | none => rw [List.getLast?_cons, hnone] at heq; cases heq
        | some g => rfl

/-- In what is shown, nothing but the marker stands behind a key that is not right behind a value. -/
def Tidy (H : Masking α) (M : Marker α) (F : List (Glyph α)) : Prop :=
  ∀ A k L v r, F = A ++ (Glyph.plains k ++ L) → (∀ u, A.getLast? ≠ some (.value u)) → H.key k →
    H.opens (shown M A).getLast? → shown M L = v ++ r → H.Value v r → v = M.text

theorem Clean.tidy (h : H.Clean M (shown M F)) : H.Tidy M F := by
  rintro A k L v r rfl - hk hopens hL hvalue
  refine h (shown M A ++ k) v r (by simp [hL]) ⟨⟨_, k, rfl, hk, hopens⟩, hvalue⟩

/-- The last symbol shown, where no value is last. -/
theorem getLast?_shown {A A' : List (Glyph α)} (h : A'.getLast? = A.getLast?)
    (hA' : ∀ u, A'.getLast? ≠ some (.value u)) : (shown M A').getLast? = (shown M A).getLast? := by
  rcases List.eq_nil_or_concat A' with rfl | ⟨A', g', rfl⟩
  · rw [List.getLast?_eq_none_iff.mp h.symm]
  rcases List.eq_nil_or_concat A with rfl | ⟨A, g, rfl⟩
  · simp at h
  simp only [List.concat_eq_append, List.getLast?_concat] at h hA' ⊢
  obtain rfl := Option.some.inj h
  cases g' with
  | value u => exact absurd rfl (hA' u)
  | plain d => simp [shown]

/-- Reading on leaves a reading tidy, whatever the masking takes. -/
theorem Takes.tidy (hH : H.Lawful M) (hG : G.Lawful M) (hunder : G.Under H M)
    (hopens : G.opens (some M.last) ↔ G.opens none) (hstops : G.Stops M) {c : List α}
    (h : G.Takes c F F') (htidy : H.Tidy M F) : H.Tidy M F' := by
  rintro A' k L' v r rfl hA' hk hbefore hL' hvalue
  obtain ⟨A, B, c', rfl, hB, hends⟩ := h.split
  obtain ⟨L, rfl, hL⟩ := hB.plains
  have heq : A'.getLast? = A.getLast? := by
    rcases hends with heq | ⟨u, hu⟩
    · exact heq
    · exact absurd hu (hA' u)
  by_contra hv
  have hm := hL.masks (M := M) hG hopens (.inl hstops) (.inl rfl)
  rw [hL'] at hm
  obtain ⟨v₀, r₀, hL₀, hval, hne⟩ := hm.value_back hH hG hunder hvalue hv
  refine hne (htidy A k L v₀ r₀ rfl (fun u => ?_) hk ?_ hL₀ hval)
  · exact heq ▸ hA' u
  · rwa [← getLast?_shown heq hA']

/-- **Where a masking has nothing to do.** In what a tidy reading shows nothing but the marker stands
behind a key exactly when that holds right behind the values that are taken: there, and nowhere else,
the marker opens a place for a key that the text does not have. -/
theorem clean_shown_iff (hH : H.Lawful M) (hopens : H.opens (some M.last)) (htidy : H.Tidy M F) :
    H.Clean M (shown M F) ↔ ∀ A u k L, F = A ++ .value u :: (Glyph.plains k ++ L) → H.key k →
      ∀ v r, shown M L = v ++ r → H.Value v r → v = M.text := by
  constructor
  · rintro h A u k L rfl hk v r hL hvalue
    refine h (shown M A ++ M.text ++ k) v r (by simp [shown, hL]) ⟨⟨_, k, rfl, hk, ?_⟩, hvalue⟩
    rwa [List.getLast?_append_of_ne_nil _ M.text_ne_nil, M.getLast?_text]
  · rintro h b v r heq ⟨⟨b₀, k, rfl, hk, hbefore⟩, hvalue⟩
    rcases cut_shown heq with ⟨A₁, L, rfl, hA₁, hL⟩ | ⟨A, B, m₁, m₂, h₁, h₂, hM, hb, hy⟩
    · obtain ⟨A, rfl, rfl⟩ := plains_of_shown_back hA₁.symm (hH.key_last k hk)
      rcases List.eq_nil_or_concat A with rfl | ⟨A, g, rfl⟩
      · exact htidy [] k L v r (by simp) nofun hk hbefore hL.symm hvalue
      rw [List.concat_eq_append] at *
      cases g with
      | value u => exact h A u k L (by simp) hk v r hL.symm hvalue
      | plain d =>
        refine htidy _ k L v r (by simp) (fun u hu => ?_) hk hbefore hL.symm hvalue
        rw [List.getLast?_concat] at hu
        cases hu
    · exact absurd ⟨⟨b₀, k, rfl, hk, hbefore⟩, hvalue⟩ (hb ▸ hH.apart _ m₁ m₂ v r _ h₁ h₂ hM hy)

/-! ## Values that are runs -/

/-- The value that stands here is taken, or is the marker and in sight. -/
def Settled (H : Masking α) (M : Marker α) (L : List (Glyph α)) : Prop :=
  ∀ w r, Glyph.source L = w ++ r → H.Value w r →
    (∃ L', L = .value w :: L') ∨ w = M.text ∧ ∃ L', L = Glyph.plains w ++ L'

/-- A text goes on with a symbol of the run where what is shown does, if only values of the run are
taken. -/
theorem stops_shown_iff (hholds : H.Holds M) {L : List (Glyph α)}
    (hL : ∀ u, .value u ∈ L → u ≠ [] ∧ ∀ c ∈ u, H.more c = true) :
    (∀ c ∈ (shown M L).head?, H.more c = false) ↔ ∀ c ∈ (Glyph.source L).head?, H.more c = false := by
  cases L with
  | nil => rfl
  | cons g L =>
    cases g with
    | plain c => rfl
    | value u =>
      obtain ⟨hne, hmore⟩ := hL u List.mem_cons_self
      obtain ⟨c, u, rfl⟩ := List.exists_cons_of_ne_nil hne
      refine iff_of_false (fun h => ?_) fun h => ?_
      · have hfirst := h M.first rfl
        rw [hholds.2 M.first List.mem_cons_self] at hfirst
        cases hfirst
      · have hc := h c rfl
        rw [hmore c List.mem_cons_self] at hc
        cases hc

/-- A part of a run, behind which the run ends, is a value. -/
theorem value_of_stops (hruns : H.Runs) {v r : List α} (hv : v ≠ []) (hmore : ∀ c ∈ v, H.more c = true)
    (hr : ∀ c ∈ r.head?, H.more c = false) : H.Value v r := by
  obtain ⟨c, v, rfl⟩ := List.exists_cons_of_ne_nil hv
  exact ⟨[c], v, rfl, (hruns _).mpr ⟨c, rfl, hmore c List.mem_cons_self⟩,
    fun d hd => hmore d (List.mem_cons_of_mem c hd), hr⟩

/-- A symbol of the run begins a value. -/
theorem exists_value_cons (hholds : H.Holds M) {c : α} (hc : H.more c = true) (l : List α) :
    ∃ w r, l = w ++ r ∧ H.Value (c :: w) r :=
  exists_value ((hholds.1 [c]).mpr ⟨c, rfl, hc⟩) l

/-- A value begins with a symbol of the run. -/
theorem Value.more_head (hH : H.Lawful M) (hholds : H.Holds M) {c : α} {l v r : List α}
    (hvalue : H.Value v r) (h : c :: l = v ++ r) : H.more c = true := by
  obtain ⟨d, w, rfl⟩ := List.exists_cons_of_ne_nil (hvalue.ne_nil hH)
  rw [(List.cons.inj h).1]
  exact hvalue.all hholds.1 d List.mem_cons_self

/-- The marker is a value where the run ends behind it. -/
theorem value_text (hholds : H.Holds M) {r : List α} (hr : ∀ c ∈ r.head?, H.more c = false) :
    H.Value M.text r :=
  value_of_stops hholds.1 M.text_ne_nil hholds.2 hr

/-- Where nothing but the marker is shown, a value that is taken is the one that stands here: the
run ends behind the marker, and so it does behind the value. -/
theorem eq_of_shown_value (hH : H.Lawful M) (hholds : H.Holds M) {L : List (Glyph α)} {u : List α}
    (hL : ∀ u', .value u' ∈ .value u :: L → u' ≠ [] ∧ ∀ c ∈ u', H.more c = true)
    (h : ∀ v r, shown M (.value u :: L) = v ++ r → H.Value v r → v = M.text) {w r : List α}
    (hsource : Glyph.source (.value u :: L) = w ++ r) (hvalue : H.Value w r) : u = w := by
  obtain ⟨hne, hmore⟩ := hL u List.mem_cons_self
  have hrest := stops_shown_iff hholds fun u' hu' => hL u' (List.mem_cons_of_mem _ hu')
  obtain ⟨w', r', heq, hval⟩ :=
    exists_value_cons hholds (hholds.2 M.first List.mem_cons_self) (M.inner ++ [M.last] ++ shown M L)
  have hw' : M.first :: w' = M.text := h _ r' (by simp [shown, Marker.text, ← heq]) hval
  have hr' : r' = shown M L := by
    have hall : M.text ++ shown M L = (M.first :: w') ++ r' := by simp [Marker.text, ← heq]
    rw [hw'] at hall
    exact (List.append_cancel_left hall).symm
  exact ((value_of_stops hholds.1 hne hmore (hrest.mp (hr' ▸ hval.stops))).unique hH hvalue
    hsource).1

/-- And where a symbol in sight begins the value, the value is the marker, all of it in sight. -/
theorem eq_text_of_shown_plain (hH : H.Lawful M) (hholds : H.Holds M) {L : List (Glyph α)} {c : α}
    (hL : ∀ u, .value u ∈ .plain c :: L → u ≠ [] ∧ ∀ c ∈ u, H.more c = true)
    (h : ∀ v r, shown M (.plain c :: L) = v ++ r → H.Value v r → v = M.text) {w r : List α}
    (hsource : Glyph.source (.plain c :: L) = w ++ r) (hvalue : H.Value w r) :
    w = M.text ∧ ∃ L', .plain c :: L = Glyph.plains w ++ L' := by
  obtain ⟨w', r', heq, hval⟩ :=
    exists_value_cons hholds (hvalue.more_head hH hholds hsource) (shown M L)
  have hw' : c :: w' = M.text := h _ r' (by simp [shown, heq]) hval
  obtain ⟨rfl, rfl⟩ := List.cons.inj hw'
  obtain ⟨B, rfl, rfl⟩ := plains_of_shown heq M.first_notMem
  have hB := stops_shown_iff hholds fun u hu =>
    hL u (List.mem_cons_of_mem _ (List.mem_append_right _ hu))
  obtain ⟨rfl, rfl⟩ := (value_text hholds (hB.mp hval.stops)).unique hH hvalue
    (by rw [← hsource]; simp [Glyph.source, Marker.text])
  exact ⟨rfl, B, rfl⟩

/-- Where a value is shown, one stands in the text. -/
theorem exists_value_source (hH : H.Lawful M) (hholds : H.Holds M) {L : List (Glyph α)}
    (hL : ∀ u, .value u ∈ L → u ≠ [] ∧ ∀ c ∈ u, H.more c = true) {v r : List α}
    (hshown : shown M L = v ++ r) (hvalue : H.Value v r) :
    ∃ w r', Glyph.source L = w ++ r' ∧ H.Value w r' := by
  obtain ⟨c, l, hl, hc⟩ : ∃ c l, Glyph.source L = c :: l ∧ H.more c = true := by
    cases L with
    | nil => exact absurd (List.append_eq_nil_iff.mp hshown.symm).1 (hvalue.ne_nil hH)
    | cons g L =>
      cases g with
      | plain c => exact ⟨c, Glyph.source L, rfl, hvalue.more_head hH hholds hshown⟩
      | value u =>
        obtain ⟨hne, hmore⟩ := hL u List.mem_cons_self
        obtain ⟨c, u, rfl⟩ := List.exists_cons_of_ne_nil hne
        exact ⟨c, _, rfl, hmore c List.mem_cons_self⟩
  obtain ⟨w, r', rfl, hval⟩ := exists_value_cons hholds hc l
  exact ⟨c :: w, r', hl, hval⟩

/-- **What stands here is shown as the marker** exactly where the text's own value is settled. The
marker is of the run, so the run that is shown may go on past it; it does so exactly where the
text's run goes on past the value (`stops_shown_iff`). -/
theorem settled_iff (hH : H.Lawful M) (hholds : H.Holds M) {L : List (Glyph α)}
    (hL : ∀ u, .value u ∈ L → u ≠ [] ∧ ∀ c ∈ u, H.more c = true) :
    (∀ v r, shown M L = v ++ r → H.Value v r → v = M.text) ↔ H.Settled M L := by
  constructor
  · intro h w r hsource hvalue
    cases L with
    | nil => exact absurd (List.append_eq_nil_iff.mp hsource.symm).1 (hvalue.ne_nil hH)
    | cons g L =>
      cases g with
      | value u => exact .inl ⟨L, by rw [eq_of_shown_value hH hholds hL h hsource hvalue]⟩
      | plain c => exact .inr (eq_text_of_shown_plain hH hholds hL h hsource hvalue)
  · intro h v r hshown hvalue
    obtain ⟨w, r', hsource, hval⟩ := exists_value_source hH hholds hL hshown hvalue
    rcases h w r' hsource hval with ⟨L', rfl⟩ | ⟨rfl, L', rfl⟩
    · have hrest := stops_shown_iff hholds fun u hu => hL u (List.mem_cons_of_mem _ hu)
      have hr' : r' = Glyph.source L' := (List.append_cancel_left hsource).symm
      exact (hvalue.unique hH (value_text hholds (hrest.mpr (hr' ▸ hval.stops))) hshown.symm).1
    · have hrest := stops_shown_iff hholds fun u hu => hL u (List.mem_append_right _ hu)
      rw [source_append, source_plains] at hsource
      have hr' : r' = Glyph.source L' := (List.append_cancel_left hsource).symm
      rw [shown_append, shown_plains] at hshown
      exact (hvalue.unique hH (value_text hholds (hrest.mpr (hr' ▸ hval.stops))) hshown.symm).1

end Masking

end Lib
