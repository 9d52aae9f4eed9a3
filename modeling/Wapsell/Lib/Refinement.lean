import Mathlib.Data.List.Forall2

/-!
# Objects, clients and refinement

An interface is a type of calls with the type of answers of each. An object
implements it: which answers a call may get in a state, and the state it
leaves. Nothing forces one answer, so an object may stand for a contract
that leaves something open, the order of a listing for one. A client is a
program over the calls that may look at the answers.

An object refines another when the states can be related so that whatever
it answers, the other may answer too. Then the clients of the first see
nothing the second does not allow. Where the second leaves no more open
than a relation of answers, two objects that refine it answer any calls
alike.

The observer is a program and not a list of calls because a caller
decides what to ask next by what it was answered: with lists alone, two
objects that differ after an answer could still be refinements of one
another. The rules are the usual ones, a relation that every answer
keeps, and what makes them usable here is `through`: an object built
from another by programs for its calls inherits the refinement.

**What this does not establish.** Termination is not hidden in it. A
client is a finite tree, and that an object answers at all is a property
of its own (`Total`), to be shown beside a refinement; otherwise an
object that never answers would refine everything.
-/

namespace Lib

universe u v w x

variable {κ : Type u} {α : κ → Type v} {σ τ : Type w} {ρ : Type x}

/-- An implementation of an interface: what a call may answer in a state, and the state after it. A
call without an answer raises. -/
structure Object (α : κ → Type v) (σ : Type w) where
  Answers : (c : κ) → σ → α c → σ → Prop

/-- An object whose calls are functions. -/
def Object.ofFun (f : (c : κ) → σ → α c × σ) : Object α σ where
  Answers c s a s' := f c s = (a, s')

/-- A program over the calls of an interface. It may look at each answer before it calls again, and
it is finite along every path. -/
inductive Client (α : κ → Type v) (ρ : Type x)
  | done (result : ρ)
  | call (c : κ) (next : α c → Client α ρ)

namespace Client

/-- The client comes to the result, and the object to the state. -/
def Ends (O : Object α σ) : Client α ρ → σ → ρ → σ → Prop
  | done result, s, r, s' => r = result ∧ s' = s
  | call c next, s, r, s' => ∃ a t, O.Answers c s a t ∧ (next a).Ends O t r s'

/-- No call of the client goes without an answer. -/
def Answered (O : Object α σ) : Client α ρ → σ → Prop
  | done _, _ => True
  | call c next, s =>
    (∃ a t, O.Answers c s a t) ∧ ∀ a t, O.Answers c s a t → (next a).Answered O t

theorem Answered.exists_ends {O : Object α σ} : ∀ {client : Client α ρ} {s : σ},
    client.Answered O s → ∃ r s', client.Ends O s r s'
  | done result, s, _ => ⟨result, s, rfl, rfl⟩
  | call _ _, _, ⟨⟨a, t, hanswer⟩, hnext⟩ => by
    obtain ⟨r, s', hrest⟩ := (hnext a t hanswer).exists_ends
    exact ⟨r, s', a, t, hanswer, hrest⟩

/-- One client, and another that starts from its result. -/
def bind {ρ' : Type x} : Client α ρ → (ρ → Client α ρ') → Client α ρ'
  | done result, f => f result
  | call c next, f => call c fun a => (next a).bind f

theorem ends_bind {ρ' : Type x} {O : Object α σ} {f : ρ → Client α ρ'} :
    ∀ {client : Client α ρ} {s s' : σ} {r : ρ'}, (client.bind f).Ends O s r s' ↔
      ∃ r₀ t, client.Ends O s r₀ t ∧ (f r₀).Ends O t r s'
  | done result, s, s', r => by
    constructor
    · intro h
      exact ⟨result, s, ⟨rfl, rfl⟩, h⟩
    · rintro ⟨_, _, ⟨rfl, rfl⟩, h⟩
      exact h
  | call c next, s, s', r => by
    constructor
    · rintro ⟨a, t, hanswer, hrest⟩
      obtain ⟨r₀, t', hfirst, hthen⟩ := ends_bind.mp hrest
      exact ⟨r₀, t', ⟨a, t, hanswer, hfirst⟩, hthen⟩
    · rintro ⟨r₀, t', ⟨a, t, hanswer, hfirst⟩, hthen⟩
      exact ⟨a, t, hanswer, ends_bind.mpr ⟨r₀, t', hfirst, hthen⟩⟩

/-- The calls one after the other, with what they answer. -/
def calls : List κ → Client α (List ((c : κ) × α c))
  | [] => done []
  | c :: cs => call c fun a => (calls cs).bind fun answers => done (⟨c, a⟩ :: answers)

theorem Answered.bind {ρ' : Type x} {O : Object α σ} {f : ρ → Client α ρ'} :
    ∀ {client : Client α ρ} {s : σ}, client.Answered O s →
      (∀ r t, client.Ends O s r t → (f r).Answered O t) → (client.bind f).Answered O s
  | done result, s, _, hf => hf result s ⟨rfl, rfl⟩
  | call _ _, _, h, hf => ⟨h.1, fun a t hanswer =>
      (h.2 a t hanswer).bind fun r t' hends => hf r t' ⟨a, t, hanswer, hends⟩⟩

/-- Of calls one after the other, each must be answered where it comes. -/
theorem answered_calls_cons {O : Object α σ} {c : κ} {cs : List κ} {s : σ}
    (hc : ∃ a t, O.Answers c s a t) (hcs : ∀ a t, O.Answers c s a t → (calls cs).Answered O t) :
    (calls (c :: cs)).Answered O s :=
  ⟨hc, fun a t hanswer => (hcs a t hanswer).bind fun _ _ _ => trivial⟩

/-- The calls and their answers, one by one. -/
theorem ends_calls_cons {O : Object α σ} {c : κ} {cs : List κ} {s s' : σ}
    {answers : List ((c : κ) × α c)} : (calls (c :: cs)).Ends O s answers s' ↔
      ∃ a t rest, O.Answers c s a t ∧ (calls cs).Ends O t rest s' ∧ answers = ⟨c, a⟩ :: rest := by
  constructor
  · rintro ⟨a, t, hanswer, hrest⟩
    obtain ⟨rest, t', hcalls, rfl, rfl⟩ := ends_bind.mp hrest
    exact ⟨a, t, rest, hanswer, hcalls, rfl⟩
  · rintro ⟨a, t, rest, hanswer, hcalls, rfl⟩
    exact ⟨a, t, hanswer, ends_bind.mpr ⟨rest, s', hcalls, rfl, rfl⟩⟩

end Client

namespace Object

/-- Every answer of `O` is one of `A`, and the states stay related. The direction is from the code
to its contract: what the contract leaves open, the code may settle as it likes. -/
structure Refines (O : Object α σ) (A : Object α τ) (R : σ → τ → Prop) : Prop where
  answer : ∀ {c s a s' t}, R s t → O.Answers c s a s' → ∃ t', A.Answers c t a t' ∧ R s' t'

/-- An object whose calls are functions brings a client to one result. -/
theorem ends_ofFun_unique {f : (c : κ) → σ → α c × σ} :
    ∀ {client : Client α ρ} {s t t' : σ} {r r' : ρ}, client.Ends (ofFun f) s r t →
      client.Ends (ofFun f) s r' t' → r = r'
  | .done _, _, _, _, _, _, h, h' => h.1.trans h'.1.symm
  | .call c _, s, _, _, _, _, ⟨_, _, ha, h⟩, ⟨_, _, ha', h'⟩ => by
    cases ha.symm.trans ha'
    exact ends_ofFun_unique h h'

/-- What a program for each call of an interface makes of the object it runs on. -/
def through {κ' : Type u} {β : κ' → Type v} (O : Object α σ) (program : (c : κ') → Client α (β c)) :
    Object β σ where
  Answers c s b s' := (program c).Ends O s b s'

/-- Every call has an answer in every state. -/
def Total (O : Object α σ) : Prop := ∀ c s, ∃ a s', O.Answers c s a s'

/-- What a call answers is fixed up to `Alike`, and the state it leaves is fixed. -/
structure Determinate (A : Object α τ) (Alike : (c : κ) → α c → α c → Prop) : Prop where
  answer : ∀ {c t a b t' t''}, A.Answers c t a t' → A.Answers c t b t'' → Alike c a b ∧ t' = t''

variable {O : Object α σ} {A : Object α τ} {R : σ → τ → Prop}

theorem ofFun_total (f : (c : κ) → σ → α c × σ) : (ofFun f).Total :=
  fun c s => ⟨(f c s).1, (f c s).2, rfl⟩

theorem Total.answered (h : O.Total) : ∀ (client : Client α ρ) (s : σ), client.Answered O s
  | .done _, _ => trivial
  | .call c next, s => ⟨h c s, fun a t _ => h.answered (next a) t⟩

/-- A client of the refining object sees what the refined one allows. -/
theorem Refines.ends (h : O.Refines A R) :
    ∀ {client : Client α ρ} {s s' : σ} {t : τ} {r : ρ}, R s t → client.Ends O s r s' →
      ∃ t', client.Ends A t r t' ∧ R s' t'
  | .done result, s, s', t, r, hR, hends => by
    obtain ⟨rfl, rfl⟩ := hends
    exact ⟨t, ⟨rfl, rfl⟩, hR⟩
  | .call c next, s, s', t, r, hR, hends => by
    obtain ⟨a, s₁, hanswer, hrest⟩ := hends
    obtain ⟨t₁, hanswer', hR₁⟩ := h.answer hR hanswer
    obtain ⟨t', hrest', hR'⟩ := h.ends hR₁ hrest
    exact ⟨t', ⟨a, t₁, hanswer', hrest'⟩, hR'⟩

/-- A layer on top of the object refines the same layer on top of the other. -/
theorem Refines.through {κ' : Type u} {β : κ' → Type v} (h : O.Refines A R)
    (program : (c : κ') → Client α (β c)) : (O.through program).Refines (A.through program) R where
  answer hR hends := h.ends hR hends

/-- One answer to one call, in two lists. -/
inductive AnswersAlike (Alike : (c : κ) → α c → α c → Prop) :
    (c : κ) × α c → (c : κ) × α c → Prop
  | same {c : κ} {a b : α c} (alike : Alike c a b) : AnswersAlike Alike ⟨c, a⟩ ⟨c, b⟩

/-- **Two refinements of one contract** answer the same calls alike. The contract must fix its
answers up to `Alike` and its states fully; then the two never drift apart, because both are related
to one and the same state of the contract. -/
theorem Refines.calls_alike {σ' : Type w} {O' : Object α σ'} {R' : σ' → τ → Prop}
    {Alike : (c : κ) → α c → α c → Prop} (h : O.Refines A R) (h' : O'.Refines A R')
    (hA : A.Determinate Alike) : ∀ {cs : List κ} {s s₁ : σ} {s' s₁' : σ'} {t : τ}
      {as bs : List ((c : κ) × α c)}, R s t → R' s' t → (Client.calls cs).Ends O s as s₁ →
      (Client.calls cs).Ends O' s' bs s₁' → List.Forall₂ (AnswersAlike Alike) as bs
  | [], _, _, _, _, _, _, _, _, _, hends, hends' => by
    obtain ⟨rfl, -⟩ := hends
    obtain ⟨rfl, -⟩ := hends'
    exact .nil
  | c :: cs, _, _, _, _, t, _, _, hR, hR', hends, hends' => by
    obtain ⟨a, u, as, hanswer, hrest, rfl⟩ := Client.ends_calls_cons.mp hends
    obtain ⟨b, u', bs, hanswer', hrest', rfl⟩ := Client.ends_calls_cons.mp hends'
    obtain ⟨t₁, hA₁, hR₁⟩ := h.answer hR hanswer
    obtain ⟨t₂, hA₂, hR₂⟩ := h'.answer hR' hanswer'
    obtain ⟨halike, rfl⟩ := hA.answer hA₁ hA₂
    exact .cons (.same halike) (h.calls_alike h' hA hR₁ hR₂ hrest hrest')

end Object

end Lib
