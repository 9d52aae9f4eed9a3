import Wapsell.Handoff.Detector

/-!
# Spellings of a keyword

The detector compares what is left of a text once accents and case are gone.
Where both go character by character, a keyword leaves the same in every
spelling, and trimming the message takes no part of it: the keyword was
trimmed too. The marks that go are the nonspacing ones. An enclosing mark
stays, and hides a keyword.

`CharacterWise` is what the Unicode tables document of the characters a
buyer types: decomposition and lower-casing look at one character at a
time. The final sigma of Greek is an exception. The tables for Spanish
below meet the assumption.

What this does not establish: that a keyword means what the operator
meant. The search is for a substring, so a keyword inside a longer word
escalates too.
-/

namespace Wapsell.Handoff

open Py

/-- The text decomposed, without its nonspacing marks. It is what `_normalize` has before
lower-casing and trimming. -/
def bare (U : Unicode) (text : String) : String :=
  let decomposed := if isAscii text then text else U.nfd text
  String.ofList (decomposed.toList.filter fun ch => 128 > ch.toNat || !U.isMn ch)

/-- What is compared, before it is trimmed. -/
def folded (U : Unicode) (text : String) : String := lower U (bare U text)

theorem normalize_eq (U : Unicode) (text : String) : normalize U text = strip (folded U text) := rfl

/-- A nonspacing mark. -/
def Nonspacing (U : Unicode) (m : Char) : Prop := 128 ≤ m.toNat ∧ U.isMn m = true

/-- Decomposing and lower-casing act character by character, up to the marks that are removed, and
of a mark nothing else is left. -/
structure CharacterWise (U : Unicode) : Prop where
  bare : ∀ s t, bare U (s ++ t) = bare U s ++ bare U t
  lower : ∀ s t, lower U (s ++ t) = lower U s ++ lower U t
  marks : ∀ m, Nonspacing U m → Handoff.bare U (String.singleton m) = ""

/-- The lower-cased base letter of a character. -/
def base (U : Unicode) (c : Char) : String := folded U (String.singleton c)

/-- The second text spells the first: characters are replaced by others of the same base letter, and
marks are put in or left out. -/
inductive Spells (U : Unicode) (mark : Char → Prop) : List Char → List Char → Prop
  | nil : Spells U mark [] []
  | letter {c c' : Char} {k k' : List Char} (h : base U c' = base U c) (rest : Spells U mark k k') :
      Spells U mark (c :: k) (c' :: k')
  | marked {m : Char} {k k' : List Char} (h : mark m) (rest : Spells U mark k k') :
      Spells U mark k (m :: k')

section CharacterWise

variable {U : Unicode} (hU : CharacterWise U)
include hU

theorem folded_append (s t : String) : folded U (s ++ t) = folded U s ++ folded U t := by
  rw [folded, hU.bare, hU.lower, folded, folded]

theorem folded_cons (c : Char) (k : List Char) :
    folded U (String.ofList (c :: k)) = base U c ++ folded U (String.ofList k) := by
  have hcons : String.ofList (c :: k) = String.singleton c ++ String.ofList k :=
    String.toList_inj.mp (by simp)
  rw [hcons, folded_append hU, base]

/-- A mark leaves nothing. -/
theorem base_mark {m : Char} (h : Nonspacing U m) : base U m = "" := by
  rw [base, folded, hU.marks m h, lower_empty]

/-- Every spelling leaves what the keyword leaves. -/
theorem folded_spells {k k' : List Char} (h : Spells U (Nonspacing U) k k') :
    folded U (String.ofList k') = folded U (String.ofList k) := by
  induction h with
  | nil => rfl
  | letter h _ ih => rw [folded_cons hU, folded_cons hU, h, ih]
  | marked h _ ih => rw [folded_cons hU, base_mark hU h, ih, String.empty_append]

/-- A spelling of the keyword is found in every message around it. -/
theorem normalize_infix {k k' : String} (h : Spells U (Nonspacing U) k.toList k'.toList)
    (a b : String) :
    (normalize U k).toList <:+: (normalize U (a ++ k' ++ b)).toList := by
  have hsame : folded U k' = folded U k := by
    have hfolded := folded_spells hU h
    rwa [String.ofList_toList, String.ofList_toList] at hfolded
  rw [normalize_eq, normalize_eq, folded_append hU, folded_append hU, hsame]
  refine strip_infix_strip ?_
  rw [String.toList_append, String.toList_append]
  exact List.infix_append _ _ _

end CharacterWise

/-! ## The decision -/

/-- The keyword leaves something, and the message contains it. Both are normalized before they are
compared. -/
def Occurs (U : Unicode) (message keyword : String) : Prop :=
  normalize U keyword ≠ "" ∧ (normalize U keyword).toList <:+: (normalize U message).toList

instance (U : Unicode) (message keyword : String) : Decidable (Occurs U message keyword) :=
  inferInstanceAs (Decidable (_ ∧ _))

/-- The first keyword that occurs is the one that is reported. -/
theorem evaluate_eq (U : Unicode) (message : String) {config : HandoffConfig}
    (henabled : config.enabled = true) :
    (evaluate U message (some config)).matchedKeyword =
        config.keywords.find? (fun keyword => Occurs U message keyword) ∧
      (evaluate U message (some config)).escalate =
        (config.keywords.find? fun keyword => Occurs U message keyword).isSome := by
  have hoccurs : (fun keyword => decide (Occurs U message keyword)) = fun keyword =>
      decide (normalize U keyword ≠ "") && isSubstring (normalize U keyword) (normalize U message) := by
    funext keyword
    rw [isSubstring, ← Bool.decide_and]
    rfl
  rw [evaluate, henabled, hoccurs, Bool.not_true, if_neg Bool.false_ne_true]
  dsimp only
  cases config.keywords.find? fun keyword =>
    decide (normalize U keyword ≠ "") && isSubstring (normalize U keyword) (normalize U message) <;>
    exact ⟨rfl, rfl⟩

theorem escalate_iff (U : Unicode) (message : String) {config : HandoffConfig}
    (henabled : config.enabled = true) : (evaluate U message (some config)).escalate = true ↔
      ∃ keyword ∈ config.keywords, Occurs U message keyword := by
  rw [(evaluate_eq U message henabled).2, List.find?_isSome]
  simp only [decide_eq_true_eq]

theorem matchedKeyword_iff (U : Unicode) (message : String) {config : HandoffConfig}
    (henabled : config.enabled = true) (keyword : String) :
    (evaluate U message (some config)).matchedKeyword = some keyword ↔
      Occurs U message keyword ∧ ∃ front back, config.keywords = front ++ keyword :: back ∧
        ∀ k ∈ front, ¬ Occurs U message k := by
  rw [(evaluate_eq U message henabled).1, List.find?_eq_some_iff_append]
  simp only [decide_eq_true_eq, Bool.not_eq_true', decide_eq_false_iff_not]

/-- **No false negatives.** Every spelling of a keyword escalates in every message, the keyword that
is reported is the first that occurs, and without one nothing escalates.

The spelling may stand anywhere in the message, also inside a word. What the detector reports is the
keyword as configured and not as it was spelled. -/
theorem spellings_escalate {U : Unicode} (hU : CharacterWise U) {config : HandoffConfig}
    (henabled : config.enabled = true) (message : String) :
    (∀ keyword ∈ config.keywords, normalize U keyword ≠ "" → ∀ a k' b, message = a ++ k' ++ b →
      Spells U (Nonspacing U) keyword.toList k'.toList →
        (evaluate U message (some config)).escalate = true) ∧
    (∀ keyword, (evaluate U message (some config)).matchedKeyword = some keyword ↔
      Occurs U message keyword ∧ ∃ front back, config.keywords = front ++ keyword :: back ∧
        ∀ k ∈ front, ¬ Occurs U message k) ∧
    ((∀ keyword ∈ config.keywords, ¬ Occurs U message keyword) →
      (evaluate U message (some config)).escalate = false) := by
  refine ⟨?_, matchedKeyword_iff U message henabled, ?_⟩
  · rintro keyword hmem hne a k' b rfl hspells
    exact (escalate_iff U _ henabled).mpr ⟨keyword, hmem, hne, normalize_infix hU hspells a b⟩
  · intro hnone
    rw [← Bool.not_eq_true, escalate_iff U message henabled]
    rintro ⟨keyword, hmem, hoccurs⟩
    exact hnone keyword hmem hoccurs

/-! ## Marks that stay -/

/-- The accented letters of Spanish, decomposed. -/
def decomposition (c : Char) : List Char :=
  if c = 'á' then ['a', '\u0301'] else if c = 'é' then ['e', '\u0301']
  else if c = 'í' then ['i', '\u0301'] else if c = 'ó' then ['o', '\u0301']
  else if c = 'ú' then ['u', '\u0301'] else if c = 'ñ' then ['n', '\u0303']
  else if c = 'Á' then ['A', '\u0301'] else if c = 'É' then ['E', '\u0301']
  else if c = 'Í' then ['I', '\u0301'] else if c = 'Ó' then ['O', '\u0301']
  else if c = 'Ú' then ['U', '\u0301'] else if c = 'Ñ' then ['N', '\u0303'] else [c]

/-- Tables for Spanish text and combining diacritics. -/
def spanish : Unicode where
  lowerNonAscii s := String.ofList (s.toList.map Char.toLower)
  nfd s := String.ofList (s.toList.flatMap decomposition)
  isMn c := 0x300 ≤ c.toNat && c.toNat ≤ 0x36F
  isAlnum c := decomposition c ≠ [c]
  isPrintable c := decomposition c ≠ [c]
  decimal _ := none

theorem decomposition_of_small {c : Char} (h : c.toNat < 128 ∨ 0x300 ≤ c.toNat) :
    decomposition c = [c] := by
  have hne : ∀ d : Char, 128 ≤ d.toNat → d.toNat < 0x300 → c ≠ d := by
    rintro d hlow hhigh rfl
    omega
  unfold decomposition
  repeat' rw [if_neg (hne _ (by decide) (by decide))]

theorem bare_spanish (s : String) : bare spanish s =
    String.ofList ((s.toList.flatMap decomposition).filter fun ch =>
      128 > ch.toNat || !spanish.isMn ch) := by
  rw [bare]
  cases hascii : isAscii s with
  | false => simp [spanish]
  | true =>
    have hself : s.toList.flatMap decomposition = s.toList := by
      rw [isAscii, List.all_eq_true] at hascii
      have hmap : s.toList.map decomposition = s.toList.map fun c => [c] :=
        List.map_congr_left fun c hc =>
          decomposition_of_small (.inl (of_decide_eq_true (hascii c hc)))
      rw [List.flatMap_def, hmap, ← List.flatMap_def, List.flatMap_singleton']
    rw [hself]
    rfl

theorem lower_spanish (s : String) : lower spanish s = String.ofList (s.toList.map Char.toLower) := by
  rw [lower]
  split <;> rfl

theorem characterWise_spanish : CharacterWise spanish where
  bare s t := by
    rw [bare_spanish, bare_spanish, bare_spanish, String.toList_append, List.flatMap_append,
      List.filter_append, String.ofList_append]
  lower s t := by
    rw [lower_spanish, lower_spanish, lower_spanish, String.toList_append, List.map_append,
      String.ofList_append]
  marks m h := by
    obtain ⟨hlarge, hmn⟩ := h
    have hlow : 0x300 ≤ m.toNat := by
      simp only [spanish, Bool.and_eq_true, decide_eq_true_eq] at hmn
      exact hmn.1
    rw [bare_spanish, String.toList_singleton, List.flatMap_singleton,
      decomposition_of_small (.inr hlow), List.filter_cons_of_neg, List.filter_nil]
    rw [hmn]
    simpa using hlarge

/-- A configuration with one keyword. -/
def oneKeyword (keyword : String) : HandoffConfig := { enabled := true, keywords := [keyword] }

theorem spellings_escalate_asesor :
    (evaluate spanish ("Quiero un " ++ "ASÉSo\u0301R" ++ " ya") (some (oneKeyword "asesor"))).escalate =
      true := by
  refine (spellings_escalate characterWise_spanish rfl _).1 "asesor" List.mem_cons_self
    (by decide +kernel) "Quiero un " "ASÉSo\u0301R" " ya" rfl ?_
  refine .letter (by decide +kernel) (.letter (by decide +kernel) (.letter (by decide +kernel)
    (.letter (by decide +kernel) (.letter rfl (.marked ⟨by decide, by decide⟩
      (.letter (by decide +kernel) .nil))))))

/-- The enclosing marks, category `Me`. -/
def Enclosing (m : Char) : Prop :=
  let n := m.toNat
  n = 0x488 ∨ n = 0x489 ∨ n = 0x1ABE ∨ (0x20DD ≤ n ∧ n ≤ 0x20E0) ∨ (0x20E2 ≤ n ∧ n ≤ 0x20E4) ∨
    (0xA670 ≤ n ∧ n ≤ 0xA672)

/-- The combining enclosing circle. -/
theorem enclosing_circle : Enclosing '\u20DD' := .inr (.inr (.inr (.inl ⟨by decide, by decide⟩)))

/-- A letter in a combining enclosing circle hides the keyword. -/
theorem not_spellings_escalate : ¬ ∀ U : Unicode, CharacterWise U →
    ∀ config : HandoffConfig, config.enabled = true → ∀ keyword ∈ config.keywords,
      normalize U keyword ≠ "" → ∀ a k' b,
        Spells U (fun m => Nonspacing U m ∨ Enclosing m) keyword.toList k'.toList →
          (evaluate U (a ++ k' ++ b) (some config)).escalate = true := by
  intro h
  have hspells : Spells spanish (fun m => Nonspacing spanish m ∨ Enclosing m) "humano".toList
      "h\u20DDumano".toList :=
    .letter rfl (.marked (m := '\u20DD') (.inr enclosing_circle)
      (.letter rfl (.letter rfl (.letter rfl (.letter rfl (.letter rfl .nil))))))
  have hescalate := h spanish characterWise_spanish (oneKeyword "humano") rfl "humano"
    List.mem_cons_self (by decide +kernel) "" "h\u20DDumano" "" hspells
  revert hescalate
  decide +kernel

end Wapsell.Handoff
