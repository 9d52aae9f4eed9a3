import Wapsell.Lib.Masking
import Wapsell.Lib.RegexMatch

/-!
# Replacement as a masking pass

A search looks for a key and the value behind it at once, from left to right,
and asks what stood before the key in the text it reads. A masking pass looks
for a key at the end of what it has written, whenever a value could begin.
Where keys do not get in each other's way, both mask the same values.

The two disagree in general: a pattern that has taken a key and a value
goes on behind the value, while a pass looks back at all that it has
written. `Separate` is what is needed for the difference not to show,
and the proof carries two invariants of the place the search has come
to, one for keys that would have begun earlier and one for the character
that decides whether a key may begin.
-/

namespace Lib

namespace Regex

variable {word : Char → Bool} {G : Masking Char} {M : Marker Char} {r : Regex}
  {f : Match → List Char}

/-- A pattern finds what a masking describes: a key behind what may stand before it, and a value
right behind the key, and the replacement keeps the key. Both directions are asked for, so a pattern
that matches too much is as little a finder as one that matches too little. -/
structure Finds (word : Char → Bool) (r : Regex) (f : Match → List Char) (G : Masking Char)
    (M : Marker Char) : Prop where
  none : ∀ cur : Cursor, matchAt word r false cur = none → ∀ k v rest,
    cur.rest = k ++ (v ++ rest) → G.opens cur.prev → G.key k → ¬ G.Value v rest
  some : ∀ (cur : Cursor) m, matchAt word r false cur = some m → ∃ k v rest,
    cur.rest = k ++ (v ++ rest) ∧ G.opens cur.prev ∧ G.key k ∧ G.Value v rest ∧
      f m = k ++ M.text ∧ m.text = k ++ v

/-- The characters a match has taken are passed over. -/
theorem subFrom_skip (w rest : List Char) (prev : Option Char) (pos : Nat) :
    subFrom word r f w.length prev pos (w ++ rest) =
      subFrom word r f 0 (w.getLast?.or prev) (pos + w.length) rest := by
  induction w generalizing prev pos with
  | nil => rfl
  | cons c w ih =>
    rw [List.length_cons, List.cons_append, subFrom, ih]
    congr 1
    · cases w <;> simp [List.getLast?_cons]
    · omega

/-- No key that ends to the right of a place begins to the left of it. -/
private def NonePending (G : Masking Char) (o l : List Char) : Prop :=
  ∀ b k₁ k₂ v r, o = b ++ k₁ → k₁ ≠ [] → l = k₂ ++ (v ++ r) → G.opens b.getLast? →
    G.key (k₁ ++ k₂) → ¬ G.Value v r

/-- For a key at a place, the character read before matters as the one written before. -/
private def SameBefore (G : Masking Char) (prev : Option Char) (o l : List Char) : Prop :=
  ∀ k v r, l = k ++ (v ++ r) → G.key k → G.Value v r → (G.opens prev ↔ G.opens o.getLast?)

/-- Inside a key that is found, no value begins. -/
private theorem not_spot_inside (hsep : G.Separate) {o k v rest : List Char}
    (hpending : NonePending G o (k ++ (v ++ rest))) (hk : G.key k) (hv : G.Value v rest)
    {k₁ k₂ v' r' : List Char} (hsplit : k = k₁ ++ k₂) (hne : k₂ ≠ [])
    (heq : k₂ ++ (v ++ rest) = v' ++ r') : ¬ G.Spot (o ++ k₁) v' r' := by
  rintro ⟨⟨b, k', hready, hk', hopens⟩, hv'⟩
  subst hsplit
  have hsame : k₁ ++ k₂ ++ (v ++ rest) = k₁ ++ (v' ++ r') := by rw [List.append_assoc, heq]
  have hhere : k₁ ≠ k' := by
    rintro rfl
    have hkey := hsep.key_unique _ _ _ _ _ _ hk hv hk' hv' hsame
    exact hne (List.append_right_eq_self.mp hkey)
  rcases List.append_eq_append_iff.mp hready with ⟨a, rfl, rfl⟩ | ⟨a, rfl, rfl⟩
  · cases a with
    | nil => exact hhere rfl
    | cons c a =>
      rw [List.getLast?_append_of_ne_nil _ (List.cons_ne_nil c a)] at hopens
      rw [List.append_assoc] at hk
      exact hsep.inside (c :: a) (k' ++ k₂) k' hk (List.cons_ne_nil c a) (by simp [hne]) hopens hk'
        (List.prefix_append k' k₂)
  · cases a with
    | nil => exact hhere rfl
    | cons c a =>
      exact hpending b (c :: a) k₁ v' r' rfl (List.cons_ne_nil c a) hsame hopens hk' hv'

/-- Searching and replacing from a place on is the pass from there. -/
private theorem masks_subFrom (hG : G.Lawful M) (hsep : G.Separate) (hfinds : Finds word r f G M)
    (n : Nat) : ∀ (l : List Char) (prev : Option Char) (pos : Nat) (o : List Char), l.length ≤ n →
      NonePending G o l → SameBefore G prev o l → G.Masks M o l (subFrom word r f 0 prev pos l) := by
  induction n with
  | zero =>
    intro l prev pos o hlen _ _
    obtain rfl := List.length_eq_zero_iff.mp (Nat.le_zero.mp hlen)
    rw [subFrom]
    cases hm : matchAt word r false ⟨prev, pos, []⟩ with
    | none => exact .nil o
    | some m =>
      obtain ⟨k, v, rest, hl, -, -, hv, -, -⟩ := hfinds.some _ _ hm
      obtain ⟨-, hnil⟩ := List.append_eq_nil_iff.mp hl.symm
      exact absurd (List.append_eq_nil_iff.mp hnil).1 (hv.ne_nil hG)
  | succ n ih =>
    intro l prev pos o hlen hpending hbefore
    cases l with
    | nil => exact ih [] prev pos o (Nat.zero_le n) hpending hbefore
    | cons c cs =>
      rw [subFrom]
      cases hm : matchAt word r false ⟨prev, pos, c :: cs⟩ with
      | none =>
        have hnone : ∀ k v rest, c :: cs = k ++ (v ++ rest) → G.opens o.getLast? → G.key k →
            ¬ G.Value v rest := fun k v rest hl hopens hk hv =>
          hfinds.none _ hm k v rest hl ((hbefore k v rest hl hk hv).mpr hopens) hk hv
        refine .copy (fun v rest hl ⟨⟨b, k, ho, hk, hopens⟩, hv⟩ => ?_)
          (ih cs (some c) (pos + 1) (o ++ [c]) (Nat.le_of_succ_le_succ hlen) ?_ fun k v rest _ _ _ => by
            simp)
        · cases k with
          | nil =>
            rw [List.append_nil] at ho
            exact hnone [] v rest hl (ho ▸ hopens) hk hv
          | cons d k =>
            exact hpending b (d :: k) [] v rest ho (List.cons_ne_nil d k) hl hopens
              (by rwa [List.append_nil]) hv
        · -- a key that goes on past `c` begins at `c` or before it
          intro b k₁ k₂ v rest ho hne hl hopens hk hv
          rcases List.eq_nil_or_concat k₁ with rfl | ⟨k₀, d, rfl⟩
          · exact hne rfl
          · rw [List.concat_eq_append, ← List.append_assoc] at ho
            obtain ⟨rfl, hd⟩ := List.append_inj' ho rfl
            obtain rfl := (List.cons.inj hd).1
            rw [List.concat_eq_append, List.append_assoc] at hk
            cases k₀ with
            | nil =>
              exact hnone (c :: k₂) v rest (by rw [hl]; rfl) (by simpa using hopens) hk hv
            | cons e k₀ =>
              exact hpending b (e :: k₀) (c :: k₂) v rest rfl (List.cons_ne_nil e k₀) (by rw [hl]; rfl)
                hopens hk hv
      | some m =>
        obtain ⟨k, v, rest, hl, hopens, hk, hv, hf, htext⟩ := hfinds.some _ _ hm
        simp only at hl
        have hne : m.text ≠ [] := fun h =>
          hv.ne_nil hG (List.append_eq_nil_iff.mp (htext ▸ h)).2
        have hlen' : m.text.length = (m.text.length - 1) + 1 := by
          have := List.length_pos_iff.mpr hne
          omega
        have hskip : subFrom word r f (m.text.length - 1) (some c) (pos + 1) cs =
            subFrom word r f 0 (m.text.getLast?.or prev) (pos + m.text.length) rest := by
          have hsub := @subFrom_skip word r f m.text rest prev pos
          rw [show m.text ++ rest = c :: cs by rw [htext, List.append_assoc, ← hl], hlen',
            subFrom] at hsub
          rwa [← hlen'] at hsub
        have hpending' := hpending
        rw [hl] at hpending' hbefore
        have hopens' := (hbefore k v rest rfl hk hv).mp hopens
        show G.Masks M o (c :: cs) (if m.text ≠ [] then
          f m ++ subFrom word r f (m.text.length - 1) (some c) (pos + 1) cs else _)
        rw [if_pos hne, hskip, hf, hl, List.append_assoc]
        refine Masking.Masks.copies (.mark ⟨⟨o, k, rfl, hk, hopens'⟩, hv⟩ (ih rest _ _ _ ?_ ?_ ?_))
          fun k₁ k₂ hsplit hne v' r' heq => not_spot_inside hsep hpending' hk hv hsplit hne heq
        · have hsum := congrArg List.length hl
          have hvpos := List.length_pos_iff.mpr (hv.ne_nil hG)
          simp only [List.length_cons, List.length_append] at hsum hlen
          omega
        · -- a key would hold the end of the marker
          intro b k₁ k₂ v' r' ho hne' _ _ hk' _
          have hlast := congrArg List.getLast? ho
          rw [List.getLast?_append_of_ne_nil _ M.text_ne_nil, List.getLast?_append_of_ne_nil _ hne',
            M.getLast?_text] at hlast
          exact hG.key_last _ hk' (List.mem_append_left _ (List.mem_of_getLast? hlast.symm))
        · intro k' v' r' hl' hk' hv'
          exact ⟨hsep.after v k' v' r' _ _ (hl' ▸ hv) hk' hv',
            hsep.after v k' v' r' _ _ (hl' ▸ hv) hk' hv'⟩

/-- **Replacement masks.** Replacing every match of a pattern that finds what a masking describes is
the pass of the masking.

From here on a pass over a text is an inductive relation, and the engine of the regular expressions
is not mentioned again. -/
theorem masks_sub (hG : G.Lawful M) (hsep : G.Separate) (hfinds : Finds word r f G M)
    (t : List Char) : G.Masks M [] t (sub word r f t) :=
  masks_subFrom hG hsep hfinds t.length t none 0 [] (Nat.le_refl _)
    (fun _ _ _ _ _ ho hne _ _ _ _ => hne (List.append_eq_nil_iff.mp ho.symm).2)
    fun _ _ _ _ _ _ => Iff.rfl

end Regex

end Lib
