import Wapsell.Lib.Reading
import Wapsell.Security.Passes

/-!
# When `redact` is idempotent

`redact` is documented as a no-op on redacted text. A pass leaves nothing for
itself to do, and no later pass gives the authorization or the signature pass
anything to do again. But the marker ends in a character that is no word
character: where it takes the place of a value in the middle of a word, a key
can begin behind it that no pass has seen, and the second `redact` masks what
stands behind that key.

What goes wrong is a matter of the text that comes in. Its reading is the text
with the values that the patterns take in their order, each past the values of
the ones before, as `re` finds them from left to right. `redact` is idempotent
exactly where this reading has no seam: right behind no value that is taken
begins a naked key, or an assignment of the default families whose own value
is neither taken nor the marker already (`redact_idempotent_iff`).

In practice the value in front of the seam is a signature, whose digits may
run into letters, or a naked key in front of one of the four letters that only
fold to ASCII; a credential or an assigned value ends in front of no key.
-/

namespace Wapsell.Security

open Lib Py Glyph

section

variable {U : Unicode}

/-! ## The maskings beside each other -/

theorem under_of_not_mem {G H : Masking Char} {c : Char} (hc : c ∈ marker.text)
    (hno : G.more c = false) : H.Under G marker := fun hholds =>
  absurd ((hholds.2 c hc).symm.trans hno) (by decide)

theorem authorization_under : (authorization U).Under (assignment U) marker := by
  rintro - a ⟨c, rfl, hc⟩ d hd
  cases hd
  refine ⟨?_, isValueChar_of_isCredentialChar hc⟩
  rintro rfl
  exact absurd hc (by decide)

theorem nakedKey_under : (nakedKey U).Under (assignment U) marker := by
  intro _ a ha c hc
  rw [nakedKey_core_head ha] at hc
  cases hc
  exact ⟨by decide, show isValueChar 's' = true by decide⟩

theorem signature_under : signature.Under (assignment U) marker := by
  intro _ a ha c hc
  obtain ⟨d, a', rfl, hd⟩ := signature_core_head ha
  cases hc
  refine ⟨?_, isValueChar_of_isLetter (isLetter_of_caseFold hd rfl)⟩
  rintro rfl
  exact absurd hd (by decide)

/-- An authorization header begins with an A, which ends no value of the other patterns. -/
theorem authorization_key_first {k : List Char} (hk : IsAuthorization k) :
    ∃ c, k.head? = some c ∧ isValueChar c = true ∧ isNakedKeyChar c = true ∧
      isHexDigit c = true := by
  obtain ⟨c, k', rfl, hc⟩ := authorization_key_head hk
  have hletter := isLetter_of_caseFold hc rfl
  refine ⟨c, rfl, isValueChar_of_isLetter hletter, ?_⟩
  rw [char_eq_iff, toNat_caseFold] at hc
  rw [isNakedKeyChar_iff, isHexDigit_iff]
  simp only [Char.reduceToNat] at hc
  split_ifs at hc <;> omega

/-! ## The reading of a text -/

/-- How the default patterns read a text: each in its turn, past the values that the ones before
have taken. It is a relation between the text and its glyphs and does not run `redact`. -/
def Reads (U : Unicode) (s : List Char) (F : List (Glyph Char)) : Prop :=
  ∃ F₁ F₂ F₃, (assignment U).Takes [] (plains s) F₁ ∧ (authorization U).Takes [] F₁ F₂ ∧
    (nakedKey U).Takes [] F₂ F₃ ∧ signature.Takes [] F₃ F

/-- Right behind a value that is taken begins no naked key, and no assignment whose value is still
to be masked. It is a condition on the text as it comes in. -/
def Seamless (U : Unicode) (s : List Char) : Prop :=
  ∀ A u k L, Reads U s (A ++ .value u :: (plains k ++ L)) →
    ¬ (nakedKey U).core k ∧ ((assignment U).key k → (assignment U).Settled marker L)

theorem opens_boundary : (assignment U).opens (some marker.last) ↔ (assignment U).opens none :=
  iff_of_true rfl rfl

theorem authorization_stops : (authorization U).Stops marker := by
  refine ⟨rfl, ?_⟩
  rintro a ⟨c, rfl, hc⟩ hmem
  obtain rfl := List.mem_singleton.mp hmem
  exact absurd hc (by decide)

theorem nakedKey_stops : (nakedKey U).Stops marker := by
  refine ⟨rfl, fun a ha hmem => ?_⟩
  exact absurd (nakedKey_core_chars ha _ hmem) (by decide)

theorem signature_stops : signature.Stops marker :=
  ⟨rfl, fun _ ha => signature_core_not_mem ha (by decide) (by decide)⟩

/-- A reading holds the text and nothing else. -/
theorem Reads.source {s : List Char} {F : List (Glyph Char)} (h : Reads U s F) : source F = s := by
  obtain ⟨F₁, F₂, F₃, h₁, h₂, h₃, h₄⟩ := h
  rw [h₄.source, h₃.source, h₂.source, h₁.source, source_plains]

/-- Every text has a reading. -/
theorem exists_reads (s : List Char) : ∃ F, Reads U s F := by
  obtain ⟨F₁, h₁⟩ := Masking.exists_takes (assignment_lawful (U := U)) [] (plains s)
  obtain ⟨F₂, h₂⟩ := Masking.exists_takes (authorization_lawful (U := U)) [] F₁
  obtain ⟨F₃, h₃⟩ := Masking.exists_takes (nakedKey_lawful (U := U)) [] F₂
  obtain ⟨F, h₄⟩ := Masking.exists_takes signature_lawful [] F₃
  exact ⟨F, F₁, F₂, F₃, h₁, h₂, h₃, h₄⟩

/-- A signature holds no character that ends a value. -/
theorem signature_value_chars {v r : List Char} (hv : signature.Value v r) :
    ∀ c ∈ v, isValueChar c = true := by
  intro c hc
  by_contra hno
  rw [isValueChar_iff, isSpace_iff] at hno
  refine signature_value_not_mem hv (c := c) ?_ ?_ hc
  · have hlist : "sha256=".toList = ['s', 'h', 'a', '2', '5', '6', '='] := by decide
    simp only [hlist, List.mem_cons, List.not_mem_nil, or_false, char_eq_iff, toNat_caseFold,
      Char.reduceToNat]
    split_ifs <;> omega
  · rw [← Bool.not_eq_true, isHexDigit_iff]
    omega

/-- What the patterns take is never empty and holds no character that ends a value. -/
theorem Reads.values {s : List Char} {F : List (Glyph Char)} (h : Reads U s F) :
    ∀ u, .value u ∈ F → u ≠ [] ∧ ∀ c ∈ u, isValueChar c = true := by
  obtain ⟨F₁, F₂, F₃, h₁, h₂, h₃, h₄⟩ := h
  intro u hu
  rcases h₄.values hu with hu | ⟨r, hv⟩
  · rcases h₃.values hu with hu | ⟨r, hv⟩
    · rcases h₂.values hu with hu | ⟨r, hv⟩
      · rcases h₁.values hu with hu | ⟨r, hv⟩
        · obtain ⟨c, hc⟩ := bare_plains s _ hu
          cases hc
        · exact ⟨hv.ne_nil assignment_lawful, hv.all assignment_runs⟩
      · exact ⟨hv.ne_nil authorization_lawful, fun c hc =>
          isValueChar_of_isCredentialChar (hv.all (fun _ => Iff.rfl) c hc)⟩
    · refine ⟨hv.ne_nil nakedKey_lawful, fun c hc => isValueChar_of_isNakedKeyChar ?_⟩
      obtain ⟨a, w, rfl, ha, hw, -⟩ := hv
      exact (List.mem_append.mp hc).elim (nakedKey_core_chars ha c) (hw c)
  · exact ⟨hv.ne_nil signature_lawful, signature_value_chars hv⟩

/-- `redact` with the default patterns. -/
theorem toList_redact_default (text : String) : (redact U text).toList = pass U signaturePattern
    (pass U nakedKeyPattern (pass U authorizationPattern (pass U assignmentPattern text.toList))) := by
  rw [toList_redact]
  rfl

/-- **What `redact` answers is its reading** with the marker for every value that is taken.

So what is to be said of the redacted text can be said of the reading, where the values that were
taken are still told from the marker. -/
theorem Reads.shown (hU : Alphabet U) {s : String} {F : List (Glyph Char)} (h : Reads U s.toList F) :
    shown marker F = (redact U s).toList := by
  obtain ⟨F₁, F₂, F₃, h₁, h₂, h₃, h₄⟩ := h
  have hm₁ := h₁.masks assignment_lawful opens_boundary (.inr (bare_plains s.toList)) (.inl rfl)
  have hm₂ := h₂.masks authorization_lawful opens_boundary (.inl authorization_stops) (.inl rfl)
  have hm₃ := h₃.masks nakedKey_lawful opens_boundary (.inl nakedKey_stops) (.inl rfl)
  have hm₄ := h₄.masks signature_lawful Iff.rfl (.inl signature_stops) (.inl rfl)
  rw [shown_plains] at hm₁
  rw [hm₁.unique assignment_lawful (masks_assignment hU _)] at hm₂
  rw [hm₂.unique authorization_lawful (masks_authorization hU _)] at hm₃
  rw [hm₃.unique nakedKey_lawful (masks_nakedKey _)] at hm₄
  rw [hm₄.unique signature_lawful (masks_signature (U := U) _), toList_redact_default]

/-- In front of every assignment that begins in sight the pattern has been: no later one gives it
anything to do there. -/
theorem Reads.tidy_assignment {s : List Char} {F : List (Glyph Char)} (h : Reads U s F) :
    (assignment U).Tidy marker F := by
  obtain ⟨F₁, F₂, F₃, h₁, h₂, h₃, h₄⟩ := h
  have hm₁ := h₁.masks assignment_lawful opens_boundary (.inr (bare_plains s)) (.inl rfl)
  have htidy₁ := (hm₁.clean assignment_lawful).tidy
  have htidy₂ := h₂.tidy assignment_lawful authorization_lawful authorization_under opens_boundary
    authorization_stops htidy₁
  have htidy₃ := h₃.tidy assignment_lawful nakedKey_lawful nakedKey_under opens_boundary
    nakedKey_stops htidy₂
  exact h₄.tidy assignment_lawful signature_lawful signature_under Iff.rfl signature_stops htidy₃

theorem Reads.tidy_nakedKey {s : List Char} {F : List (Glyph Char)} (h : Reads U s F) :
    (nakedKey U).Tidy marker F := by
  obtain ⟨F₁, F₂, F₃, h₁, h₂, h₃, h₄⟩ := h
  have hm₃ := h₃.masks nakedKey_lawful opens_boundary (.inl nakedKey_stops) (.inl rfl)
  exact h₄.tidy nakedKey_lawful signature_lawful
    (under_of_not_mem (c := '<') (by decide) (show isNakedKeyChar '<' = false by decide)) Iff.rfl
    signature_stops (hm₃.clean nakedKey_lawful).tidy

/-! ## What the passes leave for each other -/

/-- The authorization pass finds nothing in what `redact` answers. -/
theorem clean_authorization (hU : Alphabet U) (t : List Char) :
    (authorization U).Clean marker
      (pass U signaturePattern (pass U nakedKeyPattern (pass U authorizationPattern t))) := by
  have hunder : ∀ H : Masking Char, H.Under (authorization U) marker := fun _ =>
    under_of_not_mem (c := '<') (by decide) (show isCredentialChar '<' = false by decide)
  have h₂ := (masks_authorization hU t).clean authorization_lawful
  have h₃ := (masks_nakedKey (U := U) (pass U authorizationPattern t)).clean_of_apart authorization_lawful
    nakedKey_lawful (hunder _) (fun k hk => by
      obtain ⟨c, hc, -, hnaked, -⟩ := authorization_key_first hk
      exact ⟨c, hc, hnaked⟩) h₂
  exact (masks_signature _).clean_of_apart authorization_lawful signature_lawful (hunder _)
    (fun k hk => by
      obtain ⟨c, hc, -, -, hhex⟩ := authorization_key_first hk
      exact ⟨c, hc, hhex⟩) h₃

/-! ## What the second `redact` would have to do -/

/-- The letters S, which are in every naked key and every signature and not in the marker. -/
def isS (c : Char) : Bool := caseFold c = 's'

example : "sha256=".toList.filter isS = ['s'] := by decide +kernel

theorem isS_marker : ∀ c ∈ marker.text, isS c = false := by decide

/-- If `redact` leaves a text as it is in which the authorization pass finds nothing, so does each
of the other passes that can have something to do. -/
theorem passes_of_redact_eq (hU : Alphabet U) {x : List Char}
    (hclean : (authorization U).Clean marker x)
    (heq : pass U signaturePattern (pass U nakedKeyPattern (pass U authorizationPattern
      (pass U assignmentPattern x))) = x) :
    (assignment U).Clean marker x ∧ (nakedKey U).Clean marker x := by
  have h₁ := masks_assignment hU x
  have h₂ := masks_authorization hU (pass U assignmentPattern x)
  have h₃ := masks_nakedKey (U := U) (pass U authorizationPattern (pass U assignmentPattern x))
  have h₄ := masks_signature (U := U)
    (pass U nakedKeyPattern (pass U authorizationPattern (pass U assignmentPattern x)))
  -- no pass adds an S, so the last two mask nothing
  have hle₁ := h₁.countP_le isS isS_marker
  have hle₂ := h₂.countP_le isS isS_marker
  have hle₃ := h₃.countP_le isS isS_marker
  have hle₄ := h₄.countP_le isS isS_marker
  have hcount := congrArg (List.countP isS) heq
  have hsame₃ := h₃.eq_of_countP isS isS_marker (fun a ha => ⟨'s', List.mem_of_mem_head?
    (by rw [nakedKey_core_head ha]; rfl), by decide⟩) (by omega)
  have hsame₄ := h₄.eq_of_countP isS isS_marker (fun a ha => by
    obtain ⟨c, a', rfl, hc⟩ := signature_core_head ha
    exact ⟨c, List.mem_cons_self, decide_eq_true hc⟩) (by omega)
  have hx₂ : pass U authorizationPattern (pass U assignmentPattern x) = x := by
    rw [← hsame₃, ← hsame₄]
    exact heq
  have hclean₁ := h₁.clean_of_apart authorization_lawful assignment_lawful
    (under_of_not_mem (c := '<') (by decide) (show isCredentialChar '<' = false by decide))
    (fun k hk => by
      obtain ⟨c, hc, hvalue, -, -⟩ := authorization_key_first hk
      exact ⟨c, hc, hvalue⟩) hclean
  have hsame₂ := h₂.eq_of_clean hclean₁
  have hx₁ : pass U assignmentPattern x = x := hsame₂.symm.trans hx₂
  refine ⟨?_, ?_⟩
  · have := h₁.clean assignment_lawful
    rwa [hx₁] at this
  · have := h₃.clean nakedKey_lawful
    rwa [hsame₃, hx₂] at this

/-- What a second `redact` has to do is what the first and the third pass find in the redacted text;
the other two find nothing there. -/
theorem redact_again_iff (hU : Alphabet U) (s : String) :
    redact U (redact U s) = redact U s ↔ (assignment U).Clean marker (redact U s).toList ∧
      (nakedKey U).Clean marker (redact U s).toList := by
  have hauth : (authorization U).Clean marker (redact U s).toList := by
    rw [toList_redact_default]
    exact clean_authorization hU (pass U assignmentPattern s.toList)
  have hsignature : signature.Clean marker (redact U s).toList := by
    rw [toList_redact_default]
    exact (masks_signature (U := U) _).clean signature_lawful
  rw [← String.toList_inj, toList_redact_default (redact U s)]
  generalize (redact U s).toList = x at hauth hsignature
  constructor
  · exact passes_of_redact_eq hU hauth
  · rintro ⟨hassign, hnaked⟩
    have h₁ := (masks_assignment hU x).eq_of_clean hassign
    have h₂ := (masks_authorization hU x).eq_of_clean hauth
    have h₃ := (masks_nakedKey x).eq_of_clean hnaked
    have h₄ := (masks_signature (U := U) x).eq_of_clean hsignature
    rw [h₁, h₂, h₃, h₄]

/-- A naked key begins in sight where one is shown. -/
theorem nakedKey_shown_iff {L : List (Glyph Char)} :
    (∀ v r, shown marker L = v ++ r → (nakedKey U).Value v r → v = marker.text) ↔
      ∀ a L', L = plains a ++ L' → ¬ (nakedKey U).core a := by
  constructor
  · rintro h a L' rfl ha
    obtain ⟨w, r, heq, hvalue⟩ := Masking.exists_value (G := nakedKey U) ha (shown marker L')
    have hv := h (a ++ w) r (by simp [heq]) hvalue
    have hhead := congrArg List.head? hv
    rw [List.head?_append_of_ne_nil a (nakedKey_lawful.core_ne_nil a ha), nakedKey_core_head ha]
      at hhead
    exact absurd (Option.some.inj hhead) (by decide)
  · rintro h v r heq ⟨a, w, rfl, ha, -, -⟩
    rw [List.append_assoc] at heq
    obtain ⟨L', rfl, -⟩ := plains_of_shown heq (nakedKey_stops.2 a ha)
    exact absurd ha (h a L' rfl)

end

/-- **When `redact` is idempotent.** A second `redact` finds nothing to mask exactly when the text
is seamless: in front of no naked key, and of no assignment whose value is still to be masked, ends
a value that the patterns take.

From right to left, a pass that had something to do in the second round would begin at a seam. From
left to right, each kind of seam is one at which the second round masks something. -/
theorem redact_idempotent_iff (U : Unicode) (hU : Alphabet U) (s : String) :
    redact U (redact U s) = redact U s ↔ Seamless U s.toList := by
  rw [redact_again_iff hU s]
  have hclean : ∀ F, Reads U s.toList F →
      (((assignment U).Clean marker (redact U s).toList ∧
        (nakedKey U).Clean marker (redact U s).toList) ↔
      ∀ A u k L, F = A ++ .value u :: (plains k ++ L) →
        ¬ (nakedKey U).core k ∧ ((assignment U).key k → (assignment U).Settled marker L)) := by
    intro F hF
    rw [← hF.shown hU, Masking.clean_shown_iff assignment_lawful rfl hF.tidy_assignment,
      Masking.clean_shown_iff nakedKey_lawful rfl hF.tidy_nakedKey]
    constructor
    · rintro ⟨hassign, hnaked⟩ A u k L rfl
      refine ⟨nakedKey_shown_iff.mp (hnaked A u [] (plains k ++ L) rfl rfl) k L rfl, fun hk => ?_⟩
      refine (Masking.settled_iff assignment_lawful assignment_holds fun u' hu' => ?_).mp
        (hassign A u k L rfl hk)
      exact hF.values u' (by simp [hu'])
    · intro h
      refine ⟨fun A u k L hsplit hk => ?_, fun A u k L hsplit hk => ?_⟩
      · refine (Masking.settled_iff assignment_lawful assignment_holds fun u' hu' => ?_).mpr
          ((h A u k L hsplit).2 hk)
        exact hF.values u' (by simp [hsplit, hu'])
      · obtain rfl : k = [] := hk
        refine nakedKey_shown_iff.mpr fun a L' hL => (h A u a L' ?_).1
        rw [hsplit, hL]
        rfl
  constructor
  · intro h A u k L hF
    exact (hclean _ hF).mp h A u k L rfl
  · intro h
    obtain ⟨F, hF⟩ := exists_reads (U := U) s.toList
    exact (hclean F hF).mpr fun A u k L hsplit => h A u k L (hsplit ▸ hF)

/-- Tables in which the letters that fold to ASCII are alphanumeric. -/
private def foldingTables : Unicode := { Unicode.ascii with isAlnum := isLetter }

private theorem foldingTables_alphabet : Alphabet foldingTables where
  isAlnum_letter _ h _ := h
  isAlnum_space _ h _ := isLetter_of_isSpace h

/-- What is taken of the text is the value of its key, and blank space stands behind it. -/
private theorem seamless_loaded :
    Seamless foldingTables "GEMINI_API_KEY=hunter2 loaded".toList := by
  intro A u k L hF
  have hshown : shown marker A ++ marker.text ++ (k ++ shown marker L) =
      "GEMINI_API_KEY=<redacted".toList ++ '>' :: " loaded".toList := by
    have h := hF.shown foldingTables_alphabet
    rw [show redact foldingTables "GEMINI_API_KEY=hunter2 loaded" =
      "GEMINI_API_KEY=<redacted> loaded" by decide] at h
    rw [shown_append, shown, shown_append, shown_plains, ← List.append_assoc] at h
    exact h.trans (by decide)
  have hsplit : "GEMINI_API_KEY=<redacted".toList ++ '>' :: " loaded".toList =
      (shown marker A ++ "<redacted".toList) ++ '>' :: (k ++ shown marker L) := by
    rw [← hshown, show marker.text = "<redacted".toList ++ ['>'] by decide]
    simp only [List.append_assoc, List.singleton_append]
  have hrest := ((List.append_cons_inj_of_notMem (by decide) (by decide)).mp hsplit).2.2
  have hhead : ∀ c ∈ k.head?, c = ' ' := by
    cases k with
    | nil =>
      intro c hc
      cases hc
    | cons c k =>
      intro d hd
      obtain rfl := Option.mem_some_iff.mp hd
      exact (List.cons.inj hrest).1.symm
  refine ⟨fun hcore => ?_, fun hkey => ?_⟩
  · exact absurd (hhead _ (nakedKey_core_head hcore)) (by decide)
  · obtain ⟨c, k', rfl, hc⟩ := assignment_key_head hkey
    rw [hhead c rfl] at hc
    exact absurd hc (by decide)

/-- A masked assignment stays as it is. -/
theorem assignment_idempotent :
    redact foldingTables (redact foldingTables "GEMINI_API_KEY=hunter2 loaded") =
      redact foldingTables "GEMINI_API_KEY=hunter2 loaded" :=
  (redact_idempotent_iff foldingTables foldingTables_alphabet "GEMINI_API_KEY=hunter2 loaded").mpr
    seamless_loaded

/-- The marker in the place of a signature is the boundary before a name of the default families. -/
theorem not_redact_idempotent : ¬ ∀ U : Unicode, Alphabet U →
    ∀ s : String, redact U (redact U s) = redact U s := by
  intro h
  exact absurd (h foldingTables foldingTables_alphabet
    "X-Hub-Signature-256: sha256=0GX_TOKEN=secret") (by decide)

end Wapsell.Security
