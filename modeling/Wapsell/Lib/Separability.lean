import Mathlib.Logic.Basic

/-!
# Machines whose users do not disturb one another

A machine answers actions one after the other. Whether the actions of one
user are answered as if the others were not there is a property of all its
runs; it unwinds into two conditions on one step, over a relation of what the
user can tell apart: the user's own actions are answered alike in states that
look alike and lead to such states, and the actions of the others lead to a
state that looks the same.

The relation is chosen by the user of the module, and that is where all
the content is: it must be fine enough to fix the answers and coarse
enough not to see the others. `Admits` is there for what is assumed of
the actions still to come, such as ids that are drawn only once; it may
depend on the state, and every step has to hand it on.

**What this does not establish.** Nothing about time, nor about what a
user learns from being refused: a refusal is an answer like any other,
and counts.
-/

namespace Lib

variable {σ α ω : Type*}

/-- A machine: the state an action leads to, and what it answers. Both are functions, so whatever is
drawn or asked of elsewhere comes with the action. -/
structure Machine (σ α ω : Type*) where
  next : σ → α → σ
  answer : σ → α → ω

namespace Machine

variable (M : Machine σ α ω) (mine : α → Bool)

/-- The state a run leads to. -/
def after (s : σ) (actions : List α) : σ := actions.foldl M.next s

/-- The answers to the user's own actions in a run. -/
def answersTo : σ → List α → List ω
  | _, [] => []
  | s, a :: rest =>
    if mine a then M.answer s a :: answersTo (M.next s a) rest else answersTo (M.next s a) rest

/-- What one step must do for a user who tells states apart by `Same`, as long as what is yet to come
is admitted. -/
structure Unwinds (Admits : σ → List α → Prop) (Same : σ → σ → Prop) : Prop where
  admits : ∀ {s a rest}, Admits s (a :: rest) → Admits (M.next s a) rest
  answers : ∀ {s t a rest rest'}, mine a = true → Admits s (a :: rest) → Admits t (a :: rest') →
    Same s t → M.answer s a = M.answer t a
  own : ∀ {s t a rest rest'}, mine a = true → Admits s (a :: rest) → Admits t (a :: rest') →
    Same s t → Same (M.next s a) (M.next t a)
  other : ∀ {s t a rest}, mine a = false → Admits s (a :: rest) → Same s t → Same (M.next s a) t

variable {M mine}

/-- The others change nothing in what the user is answered, nor in what the user's part of the state
comes to. The run on the right has the others' actions taken out, and may start in any state that
looks the same. -/
theorem Unwinds.alone {Admits : σ → List α → Prop} {Same : σ → σ → Prop}
    (h : M.Unwinds mine Admits Same) : ∀ {actions : List α} {s t : σ}, Same s t →
      Admits s actions → Admits t (actions.filter mine) →
      M.answersTo mine s actions = M.answersTo mine t (actions.filter mine) ∧
        Same (M.after s actions) (M.after t (actions.filter mine))
  | [], _, _, hsame, _, _ => ⟨rfl, hsame⟩
  | a :: rest, s, t, hsame, hs, ht => by
    cases hmine : mine a with
    | true =>
      rw [List.filter_cons_of_pos hmine] at ht ⊢
      have hstep := h.own hmine hs ht hsame
      obtain ⟨hanswers, hafter⟩ := h.alone hstep (h.admits hs) (h.admits ht)
      rw [answersTo, answersTo, if_pos hmine, if_pos hmine, h.answers hmine hs ht hsame, hanswers]
      exact ⟨rfl, hafter⟩
    | false =>
      have hnot : ¬ mine a = true := by
        rw [hmine]
        exact Bool.false_ne_true
      rw [List.filter_cons_of_neg hnot] at ht ⊢
      have hstep := h.other hmine hs hsame
      obtain ⟨hanswers, hafter⟩ := h.alone hstep (h.admits hs) ht
      rw [answersTo, if_neg hnot, hanswers]
      exact ⟨rfl, hafter⟩

end Machine

end Lib
