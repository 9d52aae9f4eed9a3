import Wapsell.Lib.History
import Wapsell.Lib.MaximalRuns
import Wapsell.Skills.Registry

/-!
# The sales closer

`sdk/wapsell/skills/sales_closer.py`: one step of the conversation's stage
machine per invocation. A caller passes the stage it was answered back in.

The server keeps no stage. So what holds of a conversation holds of one
in which the caller plays its part, and a caller that passes another
stage back may enter the machine anywhere.

The keywords are looked for as substrings of the lower-cased message.
Where one of them stands inside a longer word a move is made that no
word of the list asks for: `no` is in many words of Spanish.
`PlainSpoken` says of which messages this cannot be the reason, from the
words of the message alone.

What this does not establish: that a payment was made. `CLOSED` says
that a buyer wrote a payment word behind a `CONFIRM`.
-/

namespace Wapsell.Skills

open Lib Py

/-- `Stage`. -/
inductive Stage
  | identify
  | present
  | objections
  | confirm
  | notify
  | closed
  | escalated
  deriving DecidableEq, Repr

def Stage.value : Stage → String
  | .identify => "IDENTIFY"
  | .present => "PRESENT"
  | .objections => "OBJECTIONS"
  | .confirm => "CONFIRM"
  | .notify => "NOTIFY"
  | .closed => "CLOSED"
  | .escalated => "ESCALATED"

def Stage.all : List Stage :=
  [.identify, .present, .objections, .confirm, .notify, .closed, .escalated]

/-- `Stage(value)`. -/
def Stage.ofValue (value : String) : Option Stage := Stage.all.find? fun s => s.value = value

theorem Stage.ofValue_value (s : Stage) : Stage.ofValue s.value = some s := by
  cases s <;> rfl

theorem Stage.value_injective : Function.Injective Stage.value := fun s t h =>
  Option.some.inj ((ofValue_value s).symm.trans ((congrArg ofValue h).trans (ofValue_value t)))

/-- `_STAGE_PROMPTS.get(stage, "")`. -/
def stagePrompt : Stage → String
  | .identify => "Preguntá al cliente qué producto busca, cantidad y uso."
  | .present => "Presentá los productos del catálogo que matchean su necesidad. " ++
      "Incluí precio y stock. Nunca inventes datos."
  | .objections => "Respondé objeciones con honestidad. Ofrecé alternativas si no hay stock. " ++
      "Si la objeción se repite, escalá a humano."
  | .confirm => "Pedí confirmación de compra y método de pago. " ++
      "No marques como cerrado sin pago confirmado."
  | .notify => "Confirmá la venta y notificá al canal correspondiente."
  | .closed => ""
  | .escalated => ""

/-! ## `_transition` -/

/-- What sends a presentation to the objections. -/
def objectionWords : List String := ["no", "caro", "otro", "alternativa"]

/-- What sends the objections to a human. -/
def escalationWords : List String := ["escalar", "humano", "hablar con"]

/-- What settles the objections. -/
def buyWords : List String := ["ok", "sí", "si", "compro", "quiero", "dame"]

/-- What confirms the payment. -/
def paymentWords : List String := ["pagado", "transferí", "ok", "listo"]

/-- `any(w in msg for w in words)`. -/
def mentions (words : List String) (msg : String) : Bool := words.any fun w => isSubstring w msg

/-- `_transition`: the next stage. In three of the stages the lower-cased message decides, in the
others the stage alone. -/
def transition (U : Unicode) (current : Stage) (message : String) : Stage :=
  let msg := lower U message
  match current with
  | .identify => .present
  | .present => if mentions objectionWords msg then .objections else .confirm
  | .objections =>
    if mentions escalationWords msg then .escalated
    else if mentions buyWords msg then .confirm
    else .objections
  | .confirm => if mentions paymentWords msg then .notify else .confirm
  | .notify => .closed
  | .closed => .closed
  | .escalated => .escalated

/-! ## `SalesCloserSkill.execute` -/

/-- `str.upper`, `upperNonAscii` being what it does with a code point above U+007F. -/
def upper (upperNonAscii : String → String) (s : String) : String :=
  if isAscii s then String.ofList (s.toList.map Char.toUpper) else upperNonAscii s

/-- `params.get(key) or otherwise`, on which a method of `str` is called. -/
def textParam (params : Dict String Json) (key otherwise : String) : Except Exc String :=
  match params.getD key .null with
  | .str s => .ok (if s = "" then otherwise else s)
  | value => if value.truthy then .error .attributeError else .ok otherwise

section Execute

variable (U : Unicode) (upperNonAscii : String → String)

/-- `SalesCloserSkill.execute`. The context is not read. -/
def salesCloser (_context params : Dict String Json) : Except Exc SkillResult := do
  let current_raw := upper upperNonAscii (← textParam params "current_stage" "IDENTIFY")
  match Stage.ofValue current_raw with
  | none => .ok (.fail ("invalid stage: " ++ current_raw))
  | some current =>
    let message ← textParam params "message" ""
    let next_stage := transition U current message
    .ok (.ok [("current_stage", .str current.value), ("next_stage", .str next_stage.value),
      ("prompt", .str (stagePrompt next_stage)),
      ("is_terminal", .bool (next_stage = .closed || next_stage = .escalated)),
      ("needs_escalation", .bool (next_stage = .escalated))])

/-! ## Conversations -/

/-- The parameters of one step. -/
def stepParams (stage message : String) : Dict String Json :=
  (Dict.empty.set "current_stage" (.str stage)).set "message" (.str message)

/-- The `next_stage` of an answer. -/
def SkillResult.nextStage (r : SkillResult) : Option String :=
  match Json.field "next_stage" r.data with
  | some (.str stage) => some stage
  | _ => none

/-- The messages of a buyer fed to the skill from a stage on, each answer's `next_stage` passed
back in, as long as there is one. -/
def conversation (context : Dict String Json) : String → List String → List (Taken String String)
  | _, [] => []
  | stage, message :: messages =>
    match salesCloser U upperNonAscii context (stepParams stage message) with
    | .error _ => []
    | .ok answer =>
      match answer.nextStage with
      | none => []
      | some next => ⟨stage, message, next⟩ :: conversation context next messages

theorem upper_value (s : Stage) : upper upperNonAscii s.value = s.value := by
  cases s <;> rfl

/-- A step from a stage of the machine is answered with its transition. -/
theorem salesCloser_step (context : Dict String Json) (stage : Stage) (message : String) :
    ∃ answer, salesCloser U upperNonAscii context (stepParams stage.value message) = .ok answer ∧
      answer.nextStage = some (transition U stage message).value := by
  have hstage : textParam (stepParams stage.value message) "current_stage" "IDENTIFY" =
      .ok stage.value := by
    cases stage <;> rfl
  have hmessage : textParam (stepParams stage.value message) "message" "" = .ok message := by
    show Except.ok (if message = "" then "" else message) = Except.ok message
    split
    next h => rw [h]
    next => rfl
  rw [salesCloser, hstage, ok_bind, upper_value]
  simp only [Stage.ofValue_value, hmessage, ok_bind]
  exact ⟨_, rfl, rfl⟩

/-- A conversation is the history of the stage machine. -/
theorem conversation_eq (context : Dict String Json) (stage : Stage) (messages : List String) :
    conversation U upperNonAscii context stage.value messages =
      (history (transition U) stage messages).map (Taken.map Stage.value) := by
  induction messages generalizing stage with
  | nil => rfl
  | cons message messages ih =>
    obtain ⟨answer, hanswer, hnext⟩ := salesCloser_step U upperNonAscii context stage message
    rw [conversation, hanswer]
    simp only [hnext]
    rw [ih, history, List.map_cons]
    rfl

end Execute

/-! ## How a sale closes -/

/-- What holds of a conversation that began with `IDENTIFY`: how it came to each of the stages from
which a sale can close, and that the last two are not left. -/
structure SoundSale (U : Unicode) (messages : List String) (run : List (Taken String String)) :
    Prop where
  /-- Every message is answered with a next stage. -/
  answered : run.map Taken.label = messages
  /-- Before `CLOSED`, a payment was confirmed. -/
  paid : ∀ (i : Nat) (t : Taken String String), run[i]? = some t → t.after = "CLOSED" →
    ∃ j < i, ∃ u : Taken String String, run[j]? = some u ∧ u.before = "CONFIRM" ∧
      mentions paymentWords (lower U u.label) = true ∧ u.after = "NOTIFY"
  /-- Before `CONFIRM`, there was a presentation. -/
  presented : ∀ (i : Nat) (t : Taken String String), run[i]? = some t → t.after = "CONFIRM" →
    ∃ j ≤ i, ∃ u : Taken String String, run[j]? = some u ∧ u.before = "PRESENT"
  absorbed : ∀ t ∈ run, t.before = "CLOSED" ∨ t.before = "ESCALATED" → t.after = t.before
  /-- Only an objection is escalated, and only by an escalation word. -/
  escalated : ∀ t ∈ run, t.before ≠ "ESCALATED" → t.after = "ESCALATED" →
    t.before = "OBJECTIONS" ∧ mentions escalationWords (lower U t.label) = true

/-- The moves of the machine on a lower-cased message. -/
inductive Move (msg : String) : Stage → Stage → Prop
  | identify : Move msg .identify .present
  | object (h : mentions objectionWords msg = true) : Move msg .present .objections
  | accept (h : mentions objectionWords msg = false) : Move msg .present .confirm
  | escalate (h : mentions escalationWords msg = true) : Move msg .objections .escalated
  | settle (he : mentions escalationWords msg = false) (h : mentions buyWords msg = true) :
    Move msg .objections .confirm
  | insist (he : mentions escalationWords msg = false) (h : mentions buyWords msg = false) :
    Move msg .objections .objections
  | pay (h : mentions paymentWords msg = true) : Move msg .confirm .notify
  | wait (h : mentions paymentWords msg = false) : Move msg .confirm .confirm
  | close : Move msg .notify .closed
  | closed : Move msg .closed .closed
  | escalated : Move msg .escalated .escalated

theorem move_transition (U : Unicode) (s : Stage) (m : String) :
    Move (lower U m) s (transition U s m) := by
  cases s with
  | identify => exact .identify
  | present =>
    simp only [transition]
    split
    next h => exact .object h
    next h => exact .accept (Bool.not_eq_true _ ▸ h)
  | objections =>
    simp only [transition]
    split
    next h => exact .escalate h
    next he =>
      have he := Bool.not_eq_true _ ▸ he
      split
      next h => exact .settle he h
      next h => exact .insist he (Bool.not_eq_true _ ▸ h)
  | confirm =>
    simp only [transition]
    split
    next h => exact .pay h
    next h => exact .wait (Bool.not_eq_true _ ▸ h)
  | notify => exact .close
  | closed => exact .closed
  | escalated => exact .escalated

section Moves

variable {msg : String} {s t : Stage}

/-- `NOTIFY` and `CLOSED` are reached from the other stages by a confirmed payment only. -/
theorem Move.unpaid (h : Move msg s t) (hs : s ≠ .notify ∧ s ≠ .closed)
    (hpaid : ¬ (s = .confirm ∧ mentions paymentWords msg = true)) : t ≠ .notify ∧ t ≠ .closed := by
  cases h with
  | pay h => exact absurd ⟨rfl, h⟩ hpaid
  | close => exact absurd rfl hs.1
  | closed => exact absurd rfl hs.2
  | _ => exact ⟨by decide, by decide⟩

/-- From the first stage the way leads to the presentation. -/
theorem Move.unpresented (h : Move msg s t) (hs : s = .identify ∨ s = .present)
    (hpresent : s ≠ .present) : t = .identify ∨ t = .present := by
  cases h with
  | identify => exact .inr rfl
  | object => exact absurd rfl hpresent
  | accept => exact absurd rfl hpresent
  | _ => rcases hs with hs | hs <;> cases hs

theorem Move.into_closed (h : Move msg s .closed) : s = .notify ∨ s = .closed := by
  cases h with
  | close => exact .inl rfl
  | closed => exact .inr rfl

theorem Move.absorbed (h : Move msg s t) (hs : s = .closed ∨ s = .escalated) : t = s := by
  cases h with
  | closed => rfl
  | escalated => rfl
  | _ => rcases hs with hs | hs <;> cases hs

theorem Move.into_escalated (h : Move msg s .escalated) (hs : s ≠ .escalated) :
    s = .objections ∧ mentions escalationWords msg = true := by
  cases h with
  | escalate h => exact ⟨rfl, h⟩
  | escalated => exact absurd rfl hs

end Moves

/-- **A sale closes only through payment confirmation.** Whatever a buyer writes, a conversation
that begins with `IDENTIFY` comes to `CLOSED` only behind a `CONFIRM` answered with a payment word,
and to `CONFIRM` only behind a `PRESENT`; it stays in `CLOSED` and in `ESCALATED`, and comes to the
latter only from `OBJECTIONS`, by an escalation word.

The induction is on the messages, and what it carries is `SoundSale` of the conversation so far. -/
theorem sound_sale (U : Unicode) (upperNonAscii : String → String) (context : Dict String Json)
    (messages : List String) :
    SoundSale U messages (conversation U upperNonAscii context "IDENTIFY" messages) := by
  have hvalue := Stage.value_injective
  have hmove : ∀ t ∈ history (transition U) .identify messages,
      Move (lower U t.label) t.before t.after := fun t ht => by
    rw [after_of_mem_history ht]
    exact move_transition U t.before t.label
  have hget : ∀ i, ((history (transition U) .identify messages).map (Taken.map Stage.value))[i]? =
      ((history (transition U) .identify messages)[i]?).map (Taken.map Stage.value) := fun i =>
    List.getElem?_map
  rw [show "IDENTIFY" = Stage.identify.value from rfl, conversation_eq]
  refine ⟨?_, fun i t ht hclosed => ?_, fun i t ht hconfirm => ?_, fun t ht hstage => ?_,
    fun t ht hstage hescalated => ?_⟩
  · rw [List.map_map]
    exact label_history Stage.identify messages
  · rw [hget] at ht
    obtain ⟨u, hu, rfl⟩ := Option.map_eq_some_iff.mp ht
    have hinto := hmove u (List.mem_of_getElem? hu)
    rw [hvalue (show u.after.value = Stage.closed.value from hclosed)] at hinto
    -- the step into `CLOSED` is not the one that confirmed the payment
    have hlate : ¬ (u.before ≠ .notify ∧ u.before ≠ .closed) := fun h =>
      hinto.into_closed.elim h.1 h.2
    obtain ⟨j, hj, p, hp, hbefore, hwords⟩ :=
      exists_earlier (fun s m => s = .confirm ∧ mentions paymentWords (lower U m) = true)
        (fun s m => (move_transition U s m).unpaid) ⟨by decide, by decide⟩ hu hlate
    have hafter : p.after = .notify := by
      rw [after_of_mem_history (List.mem_of_getElem? hp), hbefore]
      exact if_pos hwords
    refine ⟨j, hj, p.map Stage.value, by rw [hget, hp]; rfl, congrArg Stage.value hbefore, hwords,
      congrArg Stage.value hafter⟩
  · rw [hget] at ht
    obtain ⟨u, hu, rfl⟩ := Option.map_eq_some_iff.mp ht
    have hlate : ¬ (u.after = .identify ∨ u.after = .present) := by
      rw [hvalue (show u.after.value = Stage.confirm.value from hconfirm)]
      decide
    obtain ⟨j, hj, p, hp, hpresent⟩ := exists_cause (fun s _ => s = .present)
      (fun s m => (move_transition U s m).unpresented) (.inl rfl) hu hlate
    exact ⟨j, hj, p.map Stage.value, by rw [hget, hp]; rfl, congrArg Stage.value hpresent⟩
  · obtain ⟨u, hu, rfl⟩ := List.mem_map.mp ht
    have hstage : u.before = .closed ∨ u.before = .escalated :=
      hstage.imp (fun h => hvalue h) fun h => hvalue h
    exact congrArg Stage.value ((hmove u hu).absorbed hstage)
  · obtain ⟨u, hu, rfl⟩ := List.mem_map.mp ht
    have hinto := hmove u hu
    rw [hvalue (show u.after.value = Stage.escalated.value from hescalated)] at hinto
    obtain ⟨hbefore, hwords⟩ := hinto.into_escalated fun h => hstage (congrArg Stage.value h)
    exact ⟨congrArg Stage.value hbefore, hwords⟩

/-! ## Words and fragments of words -/

section Words

variable (letter : Char → Bool)

/-- The word stands in the text with no letter right before it and none right behind it. -/
def WholeWord (w msg : String) : Prop :=
  ∃ a b : List Char, msg.toList = a ++ w.toList ++ b ∧ (∀ c ∈ a.getLast?, letter c = false) ∧
    ∀ c ∈ b.head?, letter c = false

theorem wholeWord_iff (w msg : String) : WholeWord letter w msg ↔
    ∃ i ∈ List.range (msg.toList.length + 1), w.toList <+: msg.toList.drop i ∧
      (∀ c ∈ (msg.toList.take i).getLast?, letter c = false) ∧
        ∀ c ∈ (msg.toList.drop (i + w.toList.length)).head?, letter c = false := by
  constructor
  · rintro ⟨a, b, hmsg, ha, hb⟩
    refine ⟨a.length, ?_, ?_, ?_, ?_⟩
    · rw [List.mem_range, hmsg, List.length_append, List.length_append]
      omega
    · rw [hmsg, List.append_assoc, List.drop_left]
      exact List.prefix_append _ _
    · rwa [hmsg, List.append_assoc, List.take_left]
    · rwa [hmsg, ← List.length_append, List.drop_left]
  · rintro ⟨i, -, ⟨b, hb⟩, hbefore, hbehind⟩
    refine ⟨msg.toList.take i, b, ?_, hbefore, ?_⟩
    · rw [List.append_assoc, hb, List.take_append_drop]
    · rwa [← List.drop_drop, ← hb, List.drop_left] at hbehind

instance (w msg : String) : Decidable (WholeWord letter w msg) :=
  decidable_of_iff _ (wholeWord_iff letter w msg).symm

/-- The words of a text: its maximal runs of letters, in order. -/
def wordsOf (msg : String) : List (List Char) := (maximalRuns letter 0 msg.toList []).map Prod.snd

/-- A keyword among the words of a text speaks for itself, whatever else is in the text; without
one, no word of the text may have a keyword inside it. -/
def PlainSpoken (keywords : List String) (msg : String) : Prop :=
  (∃ w ∈ keywords, w.toList ∈ wordsOf letter msg) ∨
    ∀ run ∈ wordsOf letter msg, ∀ w ∈ keywords, ¬ w.toList <:+: run

instance (keywords : List String) (msg : String) : Decidable (PlainSpoken letter keywords msg) :=
  inferInstanceAs (Decidable (_ ∨ _))

variable {letter}

theorem mem_wordsOf {run : List Char} {msg : String} :
    run ∈ wordsOf letter msg ↔ ∃ start, IsRun letter msg.toList start run := by
  simp only [wordsOf, List.mem_map, Prod.exists, exists_eq_right, mem_maximalRuns]

/-- A word made of letters stands whole where it is one of the words of the text. -/
theorem wholeWord_iff_mem_wordsOf {w msg : String} (hne : w.toList ≠ [])
    (hw : ∀ c ∈ w.toList, letter c = true) :
    WholeWord letter w msg ↔ w.toList ∈ wordsOf letter msg := by
  rw [mem_wordsOf]
  constructor
  · rintro ⟨a, b, hmsg, ha, hb⟩
    exact ⟨a.length, a, b, by rw [hmsg, List.append_assoc], rfl, hne, hw, ha, hb⟩
  · rintro ⟨-, a, b, hmsg, -, -, -, ha, hb⟩
    exact ⟨a, b, by rw [hmsg, List.append_assoc], ha, hb⟩

/-- A stretch of letters lies within one word of the text: the word is what it grows to on both
sides. -/
theorem exists_word_around {l part : List Char} (hne : part ≠ [])
    (hpart : ∀ c ∈ part, letter c = true) (h : part <:+: l) :
    ∃ start run, IsRun letter l start run ∧ part <:+: run := by
  obtain ⟨a, b, rfl⟩ := h
  have hbehind := List.head?_dropWhile_not letter b
  have hbefore := List.head?_dropWhile_not letter a.reverse
  refine ⟨(a.reverse.dropWhile letter).length,
    (a.reverse.takeWhile letter).reverse ++ part ++ b.takeWhile letter,
    ⟨(a.reverse.dropWhile letter).reverse, b.dropWhile letter, ?_, ?_, ?_, ?_, ?_, ?_⟩,
    List.infix_append _ _ _⟩
  · have ha : a = (a.reverse.dropWhile letter).reverse ++ (a.reverse.takeWhile letter).reverse := by
      rw [← List.reverse_append, List.takeWhile_append_dropWhile, List.reverse_reverse]
    calc a ++ part ++ b
        = (a.reverse.dropWhile letter).reverse ++ (a.reverse.takeWhile letter).reverse ++ part ++
            (b.takeWhile letter ++ b.dropWhile letter) := by
          rw [← ha, List.takeWhile_append_dropWhile]
      _ = _ := by simp only [List.append_assoc]
  · rw [List.length_reverse]
  · simp [hne]
  · intro c hc
    rcases List.mem_append.mp hc with hc | hc
    · rcases List.mem_append.mp hc with hc | hc
      · exact List.all_eq_true.mp List.all_takeWhile c (List.mem_reverse.mp hc)
      · exact hpart c hc
    · exact List.all_eq_true.mp List.all_takeWhile c hc
  · intro c hc
    rw [List.getLast?_reverse] at hc
    rw [hc] at hbefore
    simpa using hbefore
  · intro c hc
    rw [hc] at hbehind
    simpa using hbehind

/-- A substring test for a word of letters is a test of the words of the text. -/
theorem isSubstring_iff_wordsOf {w msg : String} (hne : w.toList ≠ [])
    (hw : ∀ c ∈ w.toList, letter c = true) :
    isSubstring w msg = true ↔ ∃ run ∈ wordsOf letter msg, w.toList <:+: run := by
  rw [isSubstring, decide_eq_true_eq]
  constructor
  · intro h
    obtain ⟨start, run, hrun, hin⟩ := exists_word_around hne hw h
    exact ⟨run, mem_wordsOf.mpr ⟨start, hrun⟩, hin⟩
  · rintro ⟨run, hrun, hin⟩
    obtain ⟨-, a, b, hmsg, -⟩ := (mem_wordsOf.mp hrun)
    exact hin.trans ⟨a, b, by rw [hmsg, List.append_assoc]⟩

/-- Keywords that are words of letters and looked for anywhere are found as whole words only, exactly
in a text that is plain-spoken with respect to them. -/
theorem mentions_whole_iff {keywords : List String} {msg : String}
    (hkeywords : ∀ w ∈ keywords, w.toList ≠ [] ∧ ∀ c ∈ w.toList, letter c = true) :
    (mentions keywords msg = true → ∃ w ∈ keywords, WholeWord letter w msg) ↔
      PlainSpoken letter keywords msg := by
  have hwhole : (∃ w ∈ keywords, WholeWord letter w msg) ↔
      ∃ w ∈ keywords, w.toList ∈ wordsOf letter msg :=
    exists_congr fun w => and_congr_right fun hw =>
      wholeWord_iff_mem_wordsOf (hkeywords w hw).1 (hkeywords w hw).2
  have hmentions : mentions keywords msg = true ↔
      ∃ run ∈ wordsOf letter msg, ∃ w ∈ keywords, w.toList <:+: run := by
    rw [mentions, List.any_eq_true]
    constructor
    · rintro ⟨w, hw, hsub⟩
      obtain ⟨run, hrun, hin⟩ :=
        (isSubstring_iff_wordsOf (hkeywords w hw).1 (hkeywords w hw).2).mp hsub
      exact ⟨run, hrun, w, hw, hin⟩
    · rintro ⟨run, hrun, w, hw, hin⟩
      exact ⟨w, hw, (isSubstring_iff_wordsOf (hkeywords w hw).1 (hkeywords w hw).2).mpr
        ⟨run, hrun, hin⟩⟩
  rw [hwhole, hmentions, PlainSpoken]
  constructor
  · intro h
    by_cases hno : ∃ run ∈ wordsOf letter msg, ∃ w ∈ keywords, w.toList <:+: run
    · exact .inl (h hno)
    · exact .inr fun run hrun w hw hin => hno ⟨run, hrun, w, hw, hin⟩
  · rintro (hplain | hnone) ⟨run, hrun, w, hw, hin⟩
    · exact hplain
    · exact absurd hin (hnone run hrun w hw)

/-- The keywords of the three moves are words of ASCII letters, save for the `í`. -/
theorem keywords_letters (hascii : ∀ c : Char, c.isAlpha = true → letter c = true)
    (hí : letter 'í' = true) : ∀ w ∈ objectionWords ++ buyWords ++ paymentWords,
      w.toList ≠ [] ∧ ∀ c ∈ w.toList, letter c = true := by
  have hspelled : ∀ w ∈ objectionWords ++ buyWords ++ paymentWords,
      w.toList ≠ [] ∧ ∀ c ∈ w.toList, c.isAlpha = true ∨ c = 'í' := by
    decide
  intro w hw
  obtain ⟨hne, hchars⟩ := hspelled w hw
  refine ⟨hne, fun c hc => ?_⟩
  rcases hchars c hc with halpha | rfl
  · exact hascii c halpha
  · exact hí

end Words

/-- **When the keywords are words.** The three moves on which a keyword decides are made on a whole
word only, exactly when the lower-cased message is plain-spoken with respect to the objections, to
the payments and, unless it escalates, to the buy words: one of its words is a keyword of the list,
or none of its words has one inside it. What counts as a letter is open, as long as the letters the
keywords are written with do. -/
theorem transition_words_iff (U : Unicode) (letter : Char → Bool)
    (hascii : ∀ c : Char, c.isAlpha = true → letter c = true) (hí : letter 'í' = true)
    (message : String) :
    ((transition U .present message = .objections →
        ∃ w ∈ objectionWords, WholeWord letter w (lower U message)) ∧
      (transition U .objections message = .confirm →
        ∃ w ∈ buyWords, WholeWord letter w (lower U message)) ∧
      (transition U .confirm message = .notify →
        ∃ w ∈ paymentWords, WholeWord letter w (lower U message))) ↔
    PlainSpoken letter objectionWords (lower U message) ∧
      (mentions escalationWords (lower U message) = true ∨
        PlainSpoken letter buyWords (lower U message)) ∧
      PlainSpoken letter paymentWords (lower U message) := by
  have hobject : transition U .present message = .objections ↔
      mentions objectionWords (lower U message) = true := by
    rw [transition]
    split <;> simp_all
  have hbuy : transition U .objections message = .confirm ↔
      mentions escalationWords (lower U message) = false ∧
        mentions buyWords (lower U message) = true := by
    rw [transition]
    split
    next => simp_all
    next => split <;> simp_all
  have hpay : transition U .confirm message = .notify ↔
      mentions paymentWords (lower U message) = true := by
    rw [transition]
    split <;> simp_all
  have hletters := keywords_letters hascii hí
  have hwhole : ∀ {keywords : List String}, keywords ⊆ objectionWords ++ buyWords ++ paymentWords →
      ((mentions keywords (lower U message) = true →
          ∃ w ∈ keywords, WholeWord letter w (lower U message)) ↔
        PlainSpoken letter keywords (lower U message)) :=
    fun hsub => mentions_whole_iff fun w hw => hletters w (hsub hw)
  rw [hobject, hbuy, hpay, hwhole (by decide), and_imp, hwhole (by decide), hwhole (by decide),
    ← Bool.not_eq_true, ← or_iff_not_imp_left]

/-- The letters of Spanish that the keywords are written with. -/
private def keywordLetter (c : Char) : Bool := c.isAlpha || c = 'í'

/-- The `no` inside `bueno` does not matter to a message that says `no` itself. -/
theorem transition_words_no :
    transition Unicode.ascii .present "No, bueno" = .objections ∧
      ∃ w ∈ objectionWords, WholeWord keywordLetter w (lower Unicode.ascii "No, bueno") :=
  ⟨by decide, ((transition_words_iff Unicode.ascii keywordLetter
    (fun c hc => by rw [keywordLetter, hc]; rfl) (by decide) "No, bueno").mpr (by decide +kernel)).1
    (by decide)⟩

/-- `bueno` holds `no`, and a buyer who says it and wants the product is sent to the objections. -/
theorem not_transition_words : ¬ ∀ (U : Unicode) (letter : Char → Bool),
    (∀ c : Char, c.isAlpha = true → letter c = true) → letter 'í' = true → ∀ message : String,
      (transition U .present message = .objections →
          ∃ w ∈ objectionWords, WholeWord letter w (lower U message)) ∧
        (transition U .objections message = .confirm →
          ∃ w ∈ buyWords, WholeWord letter w (lower U message)) ∧
        (transition U .confirm message = .notify →
          ∃ w ∈ paymentWords, WholeWord letter w (lower U message)) := by
  intro h
  have hbueno := (h Unicode.ascii keywordLetter (fun c hc => by rw [keywordLetter, hc]; rfl)
    (by decide) "bueno, lo quiero").1 (by decide +kernel)
  exact absurd hbueno (by decide +kernel)

end Wapsell.Skills
