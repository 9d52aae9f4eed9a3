import Mathlib.Data.List.TakeWhile
import Wapsell.Py.JsonText

/-!
# `json.loads` reads what `json.dumps` writes

Token by token, each before any continuation that does not go on with it,
and then over the value, with the length of its text as fuel.

The lemma that carries the induction is `ReadsBack`: the scanner reads
the text of a value as that value whatever comes behind it, as long as
that does not go on with a numeral. Without the condition it is false,
and with it the cases for lists and objects follow from the ones for
their parts. Fuel is the length of the text, which every step of the
scanner shortens.

**What this does not establish.** The converse is false and not needed:
a text that is read need not be the one that is written, by its white
space, its escapes or a key that comes twice. And the values are those
Python can hold (`wellFormed`); a float in another spelling than
`repr`'s is none.
-/

namespace Py

open Lib

/-! ## Scanning what was written -/

theorem takeWhile_append_of_stop {p : Char → Bool} {rest : List Char}
    (h : ∀ c ∈ rest.head?, p c = false) : ∀ cs : List Char,
    (cs ++ rest).takeWhile p = cs.takeWhile p
  | [] => by
    cases rest with
    | nil => rfl
    | cons c rest =>
      rw [List.nil_append, List.takeWhile_cons_of_neg (by rw [h c rfl]; exact Bool.false_ne_true)]
      rfl
  | c :: cs => by
    cases hp : p c with
    | true =>
      rw [List.cons_append, List.takeWhile_cons_of_pos hp, List.takeWhile_cons_of_pos hp,
        takeWhile_append_of_stop h cs]
    | false =>
      have hneg : ¬ p c = true := by rw [hp]; exact Bool.false_ne_true
      rw [List.cons_append, List.takeWhile_cons_of_neg hneg, List.takeWhile_cons_of_neg hneg]

theorem dropWhile_append_of_stop {p : Char → Bool} {rest : List Char}
    (h : ∀ c ∈ rest.head?, p c = false) (cs : List Char) :
    (cs ++ rest).dropWhile p = cs.dropWhile p ++ rest := by
  have hsplit := List.takeWhile_append_dropWhile (p := p) (l := cs ++ rest)
  rw [takeWhile_append_of_stop h] at hsplit
  refine List.append_cancel_left (hsplit.trans ?_)
  rw [← List.append_assoc, List.takeWhile_append_dropWhile]

/-- What may follow a numeral: nothing that goes on with it. -/
def Stop (rest : List Char) : Prop :=
  ∀ c ∈ rest.head?, c.isDigit = false ∧ c ≠ '.' ∧ c ≠ 'e' ∧ c ≠ 'E'

theorem Stop.digit {rest : List Char} (h : Stop rest) : ∀ c ∈ rest.head?, c.isDigit = false :=
  fun c hc => (h c hc).1

theorem scanWhole_append {cs rest : List Char} (hcs : cs ≠ []) (h : Stop rest) :
    scanWhole (cs ++ rest) = ((scanWhole cs).1, (scanWhole cs).2 ++ rest) := by
  cases cs with
  | nil => exact absurd rfl hcs
  | cons c cs =>
    rw [List.cons_append, scanWhole, scanWhole, ← List.cons_append,
      takeWhile_append_of_stop h.digit, dropWhile_append_of_stop h.digit]
    split <;> rfl

theorem scanFrac_append {rest : List Char} (h : Stop rest) (cs : List Char) :
    scanFrac (cs ++ rest) = ((scanFrac cs).1, (scanFrac cs).2 ++ rest) := by
  cases cs with
  | nil =>
    cases rest with
    | nil => rfl
    | cons c rest => exact if_neg fun hc => (h c rfl).2.1 hc.1
  | cons c cs =>
    rw [List.cons_append, scanFrac, scanFrac, takeWhile_append_of_stop h.digit,
      dropWhile_append_of_stop h.digit]
    split <;> rfl

theorem scanSign_append {cs rest : List Char} (hcs : cs ≠ []) :
    scanSign (cs ++ rest) = ((scanSign cs).1, (scanSign cs).2 ++ rest) := by
  cases cs with
  | nil => exact absurd rfl hcs
  | cons c cs =>
    rw [List.cons_append, scanSign, scanSign]
    split <;> rfl

theorem scanExp_append {cs rest : List Char} (hcs : (scanExp cs).2 = []) (h : Stop rest) :
    scanExp (cs ++ rest) = ((scanExp cs).1, rest) := by
  cases cs with
  | nil =>
    cases rest with
    | nil => rfl
    | cons c rest => exact if_neg fun hc => hc.1.elim (h c rfl).2.2.1 (h c rfl).2.2.2
  | cons c cs =>
    rw [scanExp] at hcs
    by_cases hexp : (c = 'e' ∨ c = 'E') ∧ (scanSign cs).2.takeWhile Char.isDigit ≠ []
    · dsimp only at hcs
      rw [if_pos hexp] at hcs
      dsimp only at hcs
      have hne : cs ≠ [] := by
        intro hnil
        rw [hnil] at hexp
        exact hexp.2 rfl
      rw [List.cons_append, scanExp, scanExp, scanSign_append hne]
      dsimp only
      rw [takeWhile_append_of_stop h.digit, dropWhile_append_of_stop h.digit, if_pos hexp,
        if_pos hexp, hcs]
      rfl
    · dsimp only at hcs
      rw [if_neg hexp] at hcs
      cases hcs

/-- A numeral that is a text of its own is scanned as such before what does not go on with it. -/
theorem scanNumeral_append {cs rest : List Char} {n : Numeral}
    (hcs : scanNumeral cs = some (n, [])) (h : Stop rest) :
    scanNumeral (cs ++ rest) = some (n, rest) := by
  have hbody : ∀ (negative : Bool) (body : List Char),
      (if (scanWhole body).1 = [] then none else
        some ((⟨negative, (scanWhole body).1, (scanFrac (scanWhole body).2).1,
          (scanExp (scanFrac (scanWhole body).2).2).1⟩ : Numeral),
          (scanExp (scanFrac (scanWhole body).2).2).2)) = some (n, []) →
      (if (scanWhole (body ++ rest)).1 = [] then none else
        some ((⟨negative, (scanWhole (body ++ rest)).1, (scanFrac (scanWhole (body ++ rest)).2).1,
          (scanExp (scanFrac (scanWhole (body ++ rest)).2).2).1⟩ : Numeral),
          (scanExp (scanFrac (scanWhole (body ++ rest)).2).2).2)) = some (n, rest) := by
    intro negative body hscan
    rw [Option.ite_none_left_eq_some] at hscan
    obtain ⟨hwhole, heq⟩ := hscan
    have hne : body ≠ [] := by
      intro hnil
      rw [hnil] at hwhole
      exact hwhole rfl
    obtain ⟨hn, hrest⟩ := Prod.mk.inj (Option.some.inj heq)
    rw [scanWhole_append hne h, scanFrac_append h, scanExp_append hrest h, if_neg hwhole, hn]
  cases cs with
  | nil => cases hcs
  | cons c cs =>
    rw [List.cons_append]
    unfold scanNumeral at hcs ⊢
    by_cases hminus : c = '-'
    · dsimp only at hcs ⊢
      rw [if_pos hminus] at hcs ⊢
      exact hbody true cs hcs
    · dsimp only at hcs ⊢
      rw [if_neg hminus] at hcs ⊢
      exact hbody false (c :: cs) hcs

theorem scanWhole_split (cs : List Char) : (scanWhole cs).1 ++ (scanWhole cs).2 = cs := by
  cases cs with
  | nil => rfl
  | cons c cs =>
    rw [scanWhole]
    split
    next hzero => rw [hzero]; rfl
    next => exact List.takeWhile_append_dropWhile

theorem scanFrac_split (cs : List Char) : (scanFrac cs).1 ++ (scanFrac cs).2 = cs := by
  cases cs with
  | nil => rfl
  | cons c cs =>
    rw [scanFrac]
    split
    next hpoint =>
      rw [hpoint.1, List.cons_append, List.takeWhile_append_dropWhile]
    next => rfl

theorem scanExp_split (cs : List Char) : (scanExp cs).1 ++ (scanExp cs).2 = cs := by
  have hsign : ∀ cs : List Char, (scanSign cs).1 ++ (scanSign cs).2 = cs := by
    intro cs
    cases cs with
    | nil => rfl
    | cons c cs =>
      rw [scanSign]
      split <;> rfl
  cases cs with
  | nil => rfl
  | cons c cs =>
    rw [scanExp]
    dsimp only
    split
    · rw [List.cons_append, List.append_assoc, List.takeWhile_append_dropWhile, hsign]
    · rfl

/-- A scanned numeral is what the text begins with, a sign and a digit first. -/
theorem scanNumeral_spec {cs rest : List Char} {n : Numeral}
    (h : scanNumeral cs = some (n, rest)) :
    cs = n.chars ++ rest ∧
      ∃ c tail, c.isDigit = true ∧ (cs = c :: tail ∨ cs = '-' :: c :: tail) := by
  have hbody : ∀ (negative : Bool) (body : List Char),
      (if (scanWhole body).1 = [] then none else
        some ((⟨negative, (scanWhole body).1, (scanFrac (scanWhole body).2).1,
          (scanExp (scanFrac (scanWhole body).2).2).1⟩ : Numeral),
          (scanExp (scanFrac (scanWhole body).2).2).2)) = some (n, rest) →
      (if negative then ['-'] else []) ++ body = n.chars ++ rest ∧
        ∃ c tail, c.isDigit = true ∧ body = c :: tail := by
    intro negative body hscan
    rw [Option.ite_none_left_eq_some] at hscan
    obtain ⟨hwhole, heq⟩ := hscan
    obtain ⟨hn, hrest⟩ := Prod.mk.inj (Option.some.inj heq)
    refine ⟨?_, ?_⟩
    · rw [← hn, ← hrest, Numeral.chars]
      simp only [List.append_assoc, scanExp_split, scanFrac_split, scanWhole_split]
    · cases body with
      | nil => exact absurd rfl hwhole
      | cons c tail =>
        refine ⟨c, tail, ?_, rfl⟩
        rw [scanWhole] at hwhole
        by_cases hzero : c = '0'
        · rw [hzero]
          rfl
        · rw [if_neg hzero] at hwhole
          by_contra hdigit
          exact hwhole (List.takeWhile_cons_of_neg hdigit)
  cases cs with
  | nil => cases h
  | cons c cs =>
    unfold scanNumeral at h
    by_cases hminus : c = '-'
    · dsimp only at h
      rw [if_pos hminus] at h
      obtain ⟨htext, d, tail, hdigit, hcs⟩ := hbody true cs h
      rw [hminus]
      exact ⟨htext, d, tail, hdigit, .inr (by rw [hcs])⟩
    · dsimp only at h
      rw [if_neg hminus] at h
      obtain ⟨htext, d, tail, hdigit, hcs⟩ := hbody false (c :: cs) h
      exact ⟨htext, d, tail, hdigit, .inl hcs⟩

theorem afterWord_none (word : String) {c d : Char} {cs tail : List Char}
    (hword : word.toList = d :: tail) (hne : d ≠ c) : afterWord word (c :: cs) = none := by
  rw [afterWord, hword, if_neg]
  rw [List.isPrefixOf, Bool.and_eq_true, beq_iff_eq]
  exact fun h => hne h.1

/-- A numeral is none of the words. -/
theorem scanScalar_of_scanNumeral {cs rest : List Char} {n : Numeral}
    (h : scanNumeral cs = some (n, rest)) : scanScalar cs = some (n.value, rest) := by
  have hdigit : ∀ {d : Char}, d.isDigit = true →
      d ≠ 'n' ∧ d ≠ 't' ∧ d ≠ 'f' ∧ d ≠ 'N' ∧ d ≠ 'I' ∧ d ≠ '-' := by
    intro d hd
    refine ⟨?_, ?_, ?_, ?_, ?_, ?_⟩ <;> (rintro rfl; exact absurd hd (by decide))
  obtain ⟨-, c, tail, hc, hcs⟩ := scanNumeral_spec h
  obtain ⟨hn, ht, hf, hN, hI, hminus⟩ := hdigit hc
  unfold scanScalar
  rcases hcs with hcs | hcs
  · rw [hcs] at h ⊢
    rw [afterWord_none "null" rfl hn.symm, afterWord_none "true" rfl ht.symm,
      afterWord_none "false" rfl hf.symm, afterWord_none "NaN" rfl hN.symm,
      afterWord_none "Infinity" rfl hI.symm,
      afterWord_none "-Infinity" rfl hminus.symm, h]
    rfl
  · have hinf : afterWord "-Infinity" ('-' :: c :: tail) = none := by
      have hword : "-Infinity".toList = '-' :: 'I' :: "nfinity".toList := rfl
      rw [afterWord, hword, if_neg]
      rw [List.isPrefixOf, List.isPrefixOf]
      simp [hI.symm]
    rw [hcs] at h ⊢
    rw [afterWord_none "null" rfl (by decide), afterWord_none "true" rfl (by decide),
      afterWord_none "false" rfl (by decide), afterWord_none "NaN" rfl (by decide),
      afterWord_none "Infinity" rfl (by decide), hinf, h]
    rfl

/-- A positive number is written without a leading zero. -/
theorem toDigits_head {k : Nat} (h : 0 < k) :
    ∃ c tail, Nat.toDigits 10 k = c :: tail ∧ c ≠ '0' := by
  induction k using Nat.strong_induction_on with
  | _ k ih =>
    rw [Nat.toDigits_eq_if (by decide)]
    split
    next hlt =>
      have hdigit : ∀ m < 10, 0 < m → m.digitChar ≠ '0' := by decide
      exact ⟨_, _, rfl, hdigit k hlt h⟩
    next hge =>
      obtain ⟨c, tail, htail, hc⟩ := ih (k / 10) (by omega) (by omega)
      exact ⟨c, tail ++ [(k % 10).digitChar], by rw [htail, List.cons_append], hc⟩

theorem scanWhole_toDigits (k : Nat) : scanWhole (Nat.toDigits 10 k) = (Nat.toDigits 10 k, []) := by
  rcases Nat.eq_zero_or_pos k with rfl | hk
  · rfl
  · obtain ⟨c, tail, htext, hc⟩ := toDigits_head hk
    have hall : ∀ d ∈ c :: tail, d.isDigit = true := by
      intro d hd
      rw [← htext] at hd
      exact Nat.isDigit_of_mem_toDigits (by decide) (by decide) hd
    rw [htext, scanWhole, if_neg hc, List.takeWhile_eq_self_iff.mpr hall,
      List.dropWhile_eq_nil_iff.mpr hall]

/-- The numeral of an integer. -/
def Numeral.ofInt (n : Int) : Numeral := ⟨decide (n < 0), Nat.toDigits 10 n.natAbs, [], []⟩

theorem Numeral.value_ofInt (n : Int) : (Numeral.ofInt n).value = .int n := by
  have hval : ofDigits (Nat.toDigits 10 n.natAbs) = n.natAbs := by
    rw [ofDigits_eq, Nat.ofDigitChars_ten_toDigits]
  unfold Numeral.value Numeral.ofInt
  dsimp only
  rw [if_pos ⟨rfl, rfl⟩, hval]
  congr 1
  split
  next hneg =>
    have := of_decide_eq_true hneg
    omega
  next hneg =>
    have := of_decide_eq_false (Bool.eq_false_iff.mpr hneg)
    omega

theorem scanNumeral_int (n : Int) :
    scanNumeral (toString n).toList = some (Numeral.ofInt n, []) := by
  have hscan : ∀ (negative : Bool) (k : Nat),
      (if (scanWhole (Nat.toDigits 10 k)).1 = [] then none else
        some ((⟨negative, (scanWhole (Nat.toDigits 10 k)).1,
          (scanFrac (scanWhole (Nat.toDigits 10 k)).2).1,
          (scanExp (scanFrac (scanWhole (Nat.toDigits 10 k)).2).2).1⟩ : Numeral),
          (scanExp (scanFrac (scanWhole (Nat.toDigits 10 k)).2).2).2)) =
        some (⟨negative, Nat.toDigits 10 k, [], []⟩, []) := by
    intro negative k
    rw [scanWhole_toDigits, if_neg Nat.toDigits_ne_nil]
    rfl
  rw [Int.toString_eq_repr, Int.repr_eq_if]
  unfold Numeral.ofInt
  split
  next hpos =>
    rw [Nat.toList_repr, show n.natAbs = n.toNat by omega, decide_eq_false (by omega)]
    obtain ⟨c, tail, htext⟩ :=
      List.exists_cons_of_ne_nil (Nat.toDigits_ne_nil (n := n.toNat) (b := 10))
    have hminus : c ≠ '-' := by
      have hdigit : c.isDigit = true := Nat.isDigit_of_mem_toDigits (by decide) (by decide)
        (show c ∈ Nat.toDigits 10 n.toNat by rw [htext]; exact List.mem_cons_self)
      rintro rfl
      cases hdigit
    rw [← hscan false n.toNat, htext, scanNumeral]
    dsimp only
    rw [if_neg hminus]
  next hneg =>
    rw [String.toList_append, Nat.toList_repr, show (-n).toNat = n.natAbs by omega,
      decide_eq_true (by omega), ← hscan true n.natAbs]
    rfl

theorem scanNumeral_float {text : String} (h : isFloatText text = true) :
    ∃ n, scanNumeral text.toList = some (n, []) ∧ n.value = .float text := by
  unfold isFloatText at h
  split at h
  next n hscan =>
    obtain ⟨hfloat, hrepr⟩ := of_decide_eq_true h
    have hchars : String.ofList n.chars = text := by
      rw [← List.append_nil n.chars, ← (scanNumeral_spec hscan).1, String.ofList_toList]
    refine ⟨n, hscan, ?_⟩
    rw [Numeral.value, if_neg hfloat, hchars, hrepr]
  next => cases h

/-- Such a text is the numeral JSON has for the float. -/
theorem dumpFloat_of_isFloatText {text : String} (h : isFloatText text = true) :
    Json.dumpFloat text = text := by
  obtain ⟨n, hscan, -⟩ := scanNumeral_float h
  unfold Json.dumpFloat
  rw [if_neg, if_neg, if_neg]
  all_goals
    rintro rfl
    cases hscan

/-! ## Strings -/

/-- The digits of a control character are those of a number below the surrogates. -/
theorem hexFour_hex {n : Nat} (hn : n < 32) :
    ∃ a b c d, hex 4 n = [a, b, c, d] ∧ hexFour a b c d = some n := by
  have hall : ∀ n < 32, hex 4 n = ['0', '0', (n / 16).digitChar, (n % 16).digitChar] ∧
      hexFour '0' '0' (n / 16).digitChar (n % 16).digitChar = some n := by decide +kernel
  exact ⟨_, _, _, _, hall n hn⟩

theorem scanChar_escaped {n : Nat} (hn : n < 32) (rest : List Char) :
    scanChar ('\\' :: 'u' :: (hex 4 n ++ rest)) = some (Char.ofNat n, rest) := by
  obtain ⟨a, b, c, d, htext, hvalue⟩ := hexFour_hex hn
  have hpoint : codePoint n = Char.ofNat n := if_neg (by omega)
  rw [htext]
  simp only [List.cons_append, List.nil_append, scanChar, hvalue, Option.bind_eq_bind,
    Option.bind_some]
  split
  next => rw [if_neg (by omega), hpoint]
  next => rw [hpoint]

theorem scanChar_dumpChar (c : Char) (rest : List Char) :
    scanChar (Json.dumpChar c ++ rest) = some (c, rest) := by
  unfold Json.dumpChar
  split
  next hquote => rcases hquote with rfl | rfl <;> rfl
  split
  next hc => subst hc; rfl
  split
  next hc => subst hc; rfl
  split
  next hc => subst hc; rfl
  split
  next hc => rw [← Char.ofNat_toNat c, hc]; rfl
  split
  next hc => rw [← Char.ofNat_toNat c, hc]; rfl
  split
  next hcontrol =>
    rw [List.cons_append, List.cons_append, scanChar_escaped hcontrol, Char.ofNat_toNat]
  next hquote _ _ _ _ _ hcontrol =>
    rw [not_or] at hquote
    rw [List.cons_append, List.nil_append]
    unfold scanChar
    split
    next heq => exact absurd (List.cons.inj heq).1 hquote.2
    next heq => exact absurd (List.cons.inj heq).1 hquote.2
    next heq =>
      obtain ⟨rfl, rfl⟩ := List.cons.inj heq
      rw [if_neg]
      rintro (h | h | h)
      · exact hquote.1 h
      · exact hquote.2 h
      · exact hcontrol h
    next heq => cases heq

theorem dumpChar_ne_nil (c : Char) : Json.dumpChar c ≠ [] := by
  intro hnil
  have hscan := scanChar_dumpChar c []
  rw [hnil] at hscan
  cases hscan

/-- No character of a string is written as the quote that closes it. -/
theorem scanString_dumpChar (n : Nat) (c : Char) (rest : List Char) :
    scanString (n + 1) (Json.dumpChar c ++ rest) =
      (scanString n rest).map fun p => (c :: p.1, p.2) := by
  have hscan := scanChar_dumpChar c rest
  rw [scanString.eq_def (n + 1)]
  split
  next heq =>
    rw [heq] at hscan
    cases hscan
  next hzero _ => cases hzero
  next hsucc _ =>
    cases hsucc
    rw [hscan]
    dsimp only [Option.bind_eq_bind, Option.bind_some]
    cases scanString n rest <;> rfl

theorem scanString_flatMap (rest : List Char) : ∀ (cs : List Char) {n : Nat}, cs.length ≤ n →
    scanString n (cs.flatMap Json.dumpChar ++ '"' :: rest) = some (cs, rest)
  | [], _, _ => by
    rw [List.flatMap_nil, List.nil_append, scanString]
  | c :: cs, n, hn => by
    obtain ⟨m, rfl⟩ := Nat.exists_eq_add_of_le' (Nat.lt_of_lt_of_le (Nat.succ_pos cs.length) hn)
    rw [List.flatMap_cons, List.append_assoc, scanString_dumpChar,
      scanString_flatMap rest cs (by simpa using hn)]
    rfl

theorem length_le_flatMap : ∀ cs : List Char, cs.length ≤ (cs.flatMap Json.dumpChar).length
  | [] => Nat.le_refl 0
  | c :: cs => by
    have hc := List.length_pos_of_ne_nil (dumpChar_ne_nil c)
    have hcs := length_le_flatMap cs
    rw [List.flatMap_cons, List.length_append, List.length_cons]
    omega

theorem toList_dumpStr (s : String) :
    (Json.dumpStr s).toList = '"' :: (s.toList.flatMap Json.dumpChar ++ ['"']) := by
  rw [Json.dumpStr, String.toList_ofList, List.cons_append]

/-- A string is read up to its own closing quote. -/
theorem scanString_dumpStr (s : String) (rest : List Char) :
    ∃ body, (Json.dumpStr s).toList ++ rest = '"' :: body ∧
      scanString body.length body = some (s.toList, rest) := by
  refine ⟨s.toList.flatMap Json.dumpChar ++ '"' :: rest, ?_, ?_⟩
  · rw [toList_dumpStr, List.cons_append, List.append_assoc]
    rfl
  · apply scanString_flatMap
    have := length_le_flatMap s.toList
    rw [List.length_append]
    omega

/-! ## Values -/

theorem skipSpace_cons {c : Char} (h : isJsonSpace c = false) (cs : List Char) :
    skipSpace (c :: cs) = c :: cs := by
  rw [skipSpace, List.dropWhile_cons_of_neg]
  rw [h]
  exact Bool.false_ne_true

/-- What a numeral begins with is neither white space nor a bracket. -/
theorem numeral_head {cs rest : List Char} {m : Numeral} (h : scanNumeral cs = some (m, rest)) :
    ∃ c tail, cs = c :: tail ∧ isJsonSpace c = false ∧ c ≠ ']' ∧ c ≠ '"' ∧ c ≠ '[' ∧
      c ≠ '\x7b' := by
  obtain ⟨-, c, tail, hdigit, hcs | hcs⟩ := scanNumeral_spec h
  · refine ⟨c, tail, hcs, ?_, ?_, ?_, ?_, ?_⟩
    · rw [isJsonSpace]
      simp only [Bool.or_eq_false_iff, decide_eq_false_iff_not]
      refine ⟨⟨⟨?_, ?_⟩, ?_⟩, ?_⟩ <;> (rintro rfl; exact absurd hdigit (by decide))
    all_goals
      rintro rfl
      exact absurd hdigit (by decide)
  · exact ⟨'-', c :: tail, hcs, by decide, by decide, by decide, by decide, by decide⟩

theorem scanValue_scalar {c : Char} (hquote : c ≠ '"') (hbracket : c ≠ '[') (hbrace : c ≠ '\x7b')
    (n : Nat) (cs : List Char) : scanValue (n + 1) (c :: cs) = scanScalar (c :: cs) := by
  rw [scanValue, if_neg hquote, if_neg hbracket, if_neg hbrace]

theorem scanValue_numeral {cs rest : List Char} {m : Numeral}
    (h : scanNumeral cs = some (m, [])) (hrest : Stop rest) (n : Nat) :
    scanValue (n + 1) (cs ++ rest) = some (m.value, rest) := by
  have hscan := scanNumeral_append h hrest
  obtain ⟨c, tail, htext, -, -, hquote, hbracket, hbrace⟩ := numeral_head hscan
  rw [htext] at hscan ⊢
  rw [scanValue_scalar hquote hbracket hbrace, scanScalar_of_scanNumeral hscan]

/-- The members of a dictionary, in its order. -/
theorem members_eq {fields : List (String × Json)} (h : (fields.map Prod.fst).Nodup) :
    members fields = fields := by
  have hfold : ∀ (rest acc : List (String × Json)), ((acc ++ rest).map Prod.fst).Nodup →
      rest.foldl (fun fields p => Dict.assign p.1 p.2 fields) acc = acc ++ rest := by
    intro rest
    induction rest with
    | nil =>
      intro acc _
      rw [List.append_nil]
      rfl
    | cons p rest ih =>
      intro acc hnodup
      have hnew : p.1 ∉ acc.map Prod.fst := by
        rw [List.map_append, List.map_cons, List.nodup_append] at hnodup
        intro hmem
        exact hnodup.2.2 _ hmem _ List.mem_cons_self rfl
      have happend : acc ++ p :: rest = (acc ++ [p]) ++ rest := by
        rw [List.append_assoc]
        rfl
      rw [List.foldl_cons, Dict.assign_of_not_mem hnew, happend]
      rw [happend] at hnodup
      exact ih (acc ++ [p]) hnodup
  exact hfold fields [] h

section Values

variable (gap : List Char)

/-- What the text of a value begins with. -/
theorem textOf_head {v : Json} (h : v.wellFormed = true) (rest : List Char) :
    ∃ c tail, textOf gap v ++ rest = c :: tail ∧ isJsonSpace c = false ∧ c ≠ ']' := by
  cases v with
  | null => exact ⟨'n', "ull".toList ++ rest, rfl, by decide, by decide⟩
  | bool b =>
    cases b
    · exact ⟨'f', "alse".toList ++ rest, rfl, by decide, by decide⟩
    · exact ⟨'t', "rue".toList ++ rest, rfl, by decide, by decide⟩
  | int n =>
    obtain ⟨c, tail, htext, hspace, hbracket, -⟩ := numeral_head (scanNumeral_int n)
    refine ⟨c, tail ++ rest, ?_, hspace, hbracket⟩
    rw [textOf, htext, List.cons_append]
  | float text =>
    rw [Json.wellFormed, Bool.or_eq_true] at h
    rcases h with h | h
    · obtain ⟨m, hscan, -⟩ := scanNumeral_float h
      obtain ⟨c, tail, htext, hspace, hbracket, -⟩ := numeral_head hscan
      refine ⟨c, tail ++ rest, ?_, hspace, hbracket⟩
      rw [textOf, dumpFloat_of_isFloatText h, htext, List.cons_append]
    · have hmem := of_decide_eq_true h
      simp only [List.mem_cons, List.not_mem_nil, or_false] at hmem
      rcases hmem with rfl | rfl | rfl
      · exact ⟨'N', "aN".toList ++ rest, rfl, by decide, by decide⟩
      · exact ⟨'I', "nfinity".toList ++ rest, rfl, by decide, by decide⟩
      · exact ⟨'-', "Infinity".toList ++ rest, rfl, by decide, by decide⟩
  | str s =>
    obtain ⟨body, hbody, -⟩ := scanString_dumpStr s rest
    exact ⟨'"', body, by rw [textOf, hbody], by decide, by decide⟩
  | arr items =>
    cases items with
    | nil => exact ⟨'[', ']' :: rest, rfl, by decide, by decide⟩
    | cons item items => exact ⟨'[', _, by rw [textOf, List.cons_append], by decide, by decide⟩
  | obj fields =>
    cases fields with
    | nil => exact ⟨'\x7b', '\x7d' :: rest, rfl, by decide, by decide⟩
    | cons f fields => exact ⟨'\x7b', _, by rw [textOf, List.cons_append], by decide, by decide⟩

theorem skipSpace_textOf {v : Json} (h : v.wellFormed = true) (rest : List Char) :
    skipSpace (textOf gap v ++ rest) = textOf gap v ++ rest := by
  obtain ⟨c, tail, htext, hspace, -⟩ := textOf_head gap h rest
  rw [htext, skipSpace_cons hspace]

/-- The scanner reads the text of a value as the value, whatever stops it. What is behind is a
parameter, since in a list it is a comma or a bracket and at the top it is nothing. -/
def ReadsBack (v : Json) : Prop :=
  ∀ n rest, (textOf gap v).length ≤ n → Stop rest →
    scanValue n (textOf gap v ++ rest) = some (v, rest)

variable {gap}

theorem readsBack_int (n : Int) : ReadsBack gap (.int n) := by
  intro k rest hk hrest
  obtain ⟨c, tail, htext, -⟩ := numeral_head (scanNumeral_int n)
  rw [textOf] at hk ⊢
  obtain ⟨m, rfl⟩ : ∃ m, k = m + 1 := Nat.exists_eq_add_one.mpr (by
    rw [htext, List.length_cons] at hk
    omega)
  rw [scanValue_numeral (scanNumeral_int n) hrest, Numeral.value_ofInt]

theorem readsBack_float {text : String} (h : (Json.float text).wellFormed = true) :
    ReadsBack gap (.float text) := by
  intro k rest hk hrest
  obtain ⟨c, tail, htext, -⟩ := textOf_head gap h []
  obtain ⟨m, rfl⟩ : ∃ m, k = m + 1 := Nat.exists_eq_add_one.mpr (by
    rw [← List.append_nil (textOf gap _), htext, List.length_cons] at hk
    omega)
  rw [Json.wellFormed, Bool.or_eq_true] at h
  rcases h with h | h
  · obtain ⟨numeral, hscan, hvalue⟩ := scanNumeral_float h
    rw [textOf, dumpFloat_of_isFloatText h, scanValue_numeral hscan hrest, hvalue]
  · have hmem := of_decide_eq_true h
    simp only [List.mem_cons, List.not_mem_nil, or_false] at hmem
    rcases hmem with rfl | rfl | rfl <;> rfl

theorem readsBack_str (s : String) : ReadsBack gap (.str s) := by
  intro k rest hk _
  obtain ⟨body, hbody, hscan⟩ := scanString_dumpStr s rest
  rw [textOf] at hk ⊢
  obtain ⟨m, rfl⟩ : ∃ m, k = m + 1 := Nat.exists_eq_add_one.mpr (by
    rw [toList_dumpStr, List.length_cons] at hk
    omega)
  rw [hbody, scanValue, if_pos rfl, hscan, Option.map_some, String.ofList_toList]

/-- A text that is the same for every value of its kind. -/
theorem readsBack_word {v : Json} {c : Char} {cs : List Char} (htext : textOf gap v = c :: cs)
    (hscan : ∀ m rest, scanValue (m + 1) (c :: (cs ++ rest)) = some (v, rest)) :
    ReadsBack gap v := by
  intro k rest hk _
  rw [htext, List.length_cons] at hk
  obtain ⟨m, rfl⟩ : ∃ m, k = m + 1 := Nat.exists_eq_add_one.mpr (by omega)
  rw [htext, List.cons_append, hscan]

theorem stop_textOfItems (items : List Json) (rest : List Char) :
    Stop (textOfItems gap items ++ rest) := by
  intro c hc
  cases items with
  | nil =>
    obtain rfl : ']' = c := Option.some.inj hc
    decide
  | cons item items =>
    rw [textOfItems] at hc
    obtain rfl : ',' = c := Option.some.inj hc
    decide

theorem stop_textOfMembers (fields : List (String × Json)) (rest : List Char) :
    Stop (textOfMembers gap fields ++ rest) := by
  intro c hc
  cases fields with
  | nil =>
    obtain rfl : '\x7d' = c := Option.some.inj hc
    decide
  | cons f fields =>
    rw [textOfMembers] at hc
    obtain rfl : ',' = c := Option.some.inj hc
    decide

theorem skipSpace_gap (hgap : ∀ c ∈ gap, isJsonSpace c = true)
    (cs : List Char) : skipSpace (gap ++ cs) = skipSpace cs :=
  List.dropWhile_append_of_pos hgap

mutual

/-- The fuel is the length of the text: every call is on a shorter one. -/
theorem readsBack (hgap : ∀ c ∈ gap, isJsonSpace c = true) :
    ∀ v : Json, v.wellFormed = true → ReadsBack gap v
  | .null, _ => readsBack_word rfl fun _ _ => rfl
  | .bool true, _ => readsBack_word rfl fun _ _ => rfl
  | .bool false, _ => readsBack_word rfl fun _ _ => rfl
  | .int n, _ => readsBack_int n
  | .float _, h => readsBack_float h
  | .str s, _ => readsBack_str s
  | .arr [], _ => readsBack_word rfl fun _ _ => rfl
  | .arr (item :: items), h => by
    intro k rest hk _
    rw [Json.wellFormed, Json.wellFormedItems, Bool.and_eq_true] at h
    rw [textOf, List.length_cons, List.length_append] at hk
    obtain ⟨m, rfl⟩ : ∃ m, k = m + 1 := Nat.exists_eq_add_one.mpr (by omega)
    have hscan := scanItems_textOf hgap items (readsBack hgap item h.1) h.2 rest (n := m) (by omega)
    obtain ⟨c, tail, htext, hspace, hbracket⟩ :=
      textOf_head gap h.1 (textOfItems gap items ++ rest)
    rw [htext] at hscan
    rw [textOf, List.cons_append, List.append_assoc, htext, scanValue, if_neg (by decide),
      if_pos rfl, skipSpace_cons hspace]
    dsimp only
    rw [if_neg hbracket, hscan, Option.map_some]
  | .obj [], _ => readsBack_word rfl fun _ _ => rfl
  | .obj ((key, value) :: fields), h => by
    intro k rest hk _
    rw [Json.wellFormed, Json.wellFormedFields, Bool.and_eq_true, Bool.and_eq_true] at h
    have hnodup := of_decide_eq_true h.1
    rw [textOf, List.length_cons, List.length_append, List.length_cons, List.length_append,
      List.length_append] at hk
    obtain ⟨m, rfl⟩ : ∃ m, k = m + 1 := Nat.exists_eq_add_one.mpr (by omega)
    have hscan := scanMembers_textOf hgap fields key (readsBack hgap value h.2.1) h.2.1 h.2.2 rest
      (n := m) (by omega)
    obtain ⟨body, hbody, -⟩ := scanString_dumpStr key
      (':' :: (gap ++ (textOf gap value ++ (textOfMembers gap fields ++ rest))))
    rw [hbody] at hscan
    rw [textOf, List.cons_append, List.append_assoc, List.cons_append, List.append_assoc,
      List.append_assoc, hbody, scanValue, if_neg (by decide), if_neg (by decide), if_pos rfl,
      skipSpace_cons (by decide)]
    dsimp only
    rw [if_neg (by decide), hscan, Option.map_some, members_eq hnodup]

theorem scanItems_textOf (hgap : ∀ c ∈ gap, isJsonSpace c = true) :
    ∀ (items : List Json) {item : Json}, ReadsBack gap item →
    Json.wellFormedItems items = true → ∀ (rest : List Char) {n : Nat},
    (textOf gap item).length + (textOfItems gap items).length ≤ n →
    scanItems n (textOf gap item ++ (textOfItems gap items ++ rest)) = some (item :: items, rest)
  | [], item, hitem, _, rest, n, hn => by
    have hlen : (textOfItems gap []).length = 1 := rfl
    obtain ⟨m, rfl⟩ : ∃ m, n = m + 1 := Nat.exists_eq_add_one.mpr (by omega)
    rw [scanItems, hitem m _ (by omega) (stop_textOfItems [] rest)]
    rfl
  | next :: items, item, hitem, h, rest, n, hn => by
    rw [Json.wellFormedItems, Bool.and_eq_true] at h
    have hlen : (textOfItems gap (next :: items)).length =
        gap.length + ((textOf gap next).length + (textOfItems gap items).length) + 1 := by
      rw [textOfItems, List.length_cons, List.length_append, List.length_append]
    obtain ⟨m, rfl⟩ : ∃ m, n = m + 1 := Nat.exists_eq_add_one.mpr (by omega)
    have hscan := scanItems_textOf hgap items (readsBack hgap next h.1) h.2 rest (n := m) (by omega)
    rw [scanItems, hitem m _ (by omega) (stop_textOfItems (next :: items) rest)]
    rw [textOfItems, List.cons_append, List.append_assoc, List.append_assoc]
    dsimp only
    rw [skipSpace_cons (by decide)]
    dsimp only
    rw [if_neg (by decide), if_pos rfl, skipSpace_gap hgap, skipSpace_textOf gap h.1, hscan,
      Option.map_some]

theorem scanMembers_textOf (hgap : ∀ c ∈ gap, isJsonSpace c = true) :
    ∀ (fields : List (String × Json)) (key : String) {value : Json},
    ReadsBack gap value → value.wellFormed = true → Json.wellFormedFields fields = true →
    ∀ (rest : List Char) {n : Nat},
    (textOf gap value).length + (textOfMembers gap fields).length ≤ n →
    scanMembers n ((Json.dumpStr key).toList ++
      ':' :: (gap ++ (textOf gap value ++ (textOfMembers gap fields ++ rest)))) =
        some ((key, value) :: fields, rest)
  | [], key, value, hvalue, hwf, _, rest, n, hn => by
    have hlen : (textOfMembers gap []).length = 1 := rfl
    obtain ⟨m, rfl⟩ : ∃ m, n = m + 1 := Nat.exists_eq_add_one.mpr (by omega)
    obtain ⟨body, hbody, hkey⟩ := scanString_dumpStr key
      (':' :: (gap ++ (textOf gap value ++ (textOfMembers gap [] ++ rest))))
    rw [hbody, scanMembers, if_neg (by decide), hkey]
    dsimp only
    rw [skipSpace_cons (by decide)]
    dsimp only
    rw [if_neg (by decide), skipSpace_gap hgap, skipSpace_textOf gap hwf,
      hvalue m _ (by omega) (stop_textOfMembers [] rest), String.ofList_toList]
    rfl
  | (next, value') :: fields, key, value, hvalue, hwf, h, rest, n, hn => by
    rw [Json.wellFormedFields, Bool.and_eq_true] at h
    have hlen : (textOfMembers gap ((next, value') :: fields)).length = gap.length +
        ((Json.dumpStr next).toList.length + (gap.length +
          ((textOf gap value').length + (textOfMembers gap fields).length) + 1)) + 1 := by
      rw [textOfMembers]
      simp only [List.length_cons, List.length_append]
    obtain ⟨m, rfl⟩ : ∃ m, n = m + 1 := Nat.exists_eq_add_one.mpr (by omega)
    have hscan := scanMembers_textOf hgap fields next (readsBack hgap value' h.1) h.1 h.2 rest
      (n := m) (by omega)
    obtain ⟨body, hbody, hkey⟩ := scanString_dumpStr key (':' :: (gap ++ (textOf gap value ++
      (textOfMembers gap ((next, value') :: fields) ++ rest))))
    rw [hbody, scanMembers, if_neg (by decide), hkey]
    dsimp only
    rw [skipSpace_cons (by decide)]
    dsimp only
    rw [if_neg (by decide), skipSpace_gap hgap, skipSpace_textOf gap hwf,
      hvalue m _ (by omega) (stop_textOfMembers _ rest), String.ofList_toList, textOfMembers]
    simp only [List.cons_append, List.append_assoc]
    rw [skipSpace_cons (by decide)]
    dsimp only
    obtain ⟨body', hbody', -⟩ := scanString_dumpStr next
      (':' :: (gap ++ (textOf gap value' ++ (textOfMembers gap fields ++ rest))))
    rw [hbody'] at hscan ⊢
    rw [if_neg (by decide), if_pos rfl, skipSpace_gap hgap, skipSpace_cons (by decide), hscan,
      Option.map_some]

end

theorem loads_textOf (hgap : ∀ c ∈ gap, isJsonSpace c = true)
    {v : Json} (h : v.wellFormed = true) :
    loads (String.ofList (textOf gap v)) = some v := by
  have hscan := readsBack hgap v h ((textOf gap v).length + 1) []
    (Nat.le_succ _) (by intro c hc; cases hc)
  rw [List.append_nil] at hscan
  have hspace := skipSpace_textOf gap h []
  rw [List.append_nil] at hspace
  rw [loads, String.toList_ofList, hspace, hscan]
  rfl

end Values

/-- What `json.dumps` writes of a value of Python's, `json.loads` reads as that value. The round
trips of the JSON columns rest on it. -/
theorem loads_dumps {v : Json} (h : v.wellFormed = true) : loads v.dumps = some v := by
  rw [← String.ofList_toList (s := v.dumps), toList_dumps]
  refine loads_textOf (fun c hc => ?_) h
  obtain rfl := List.mem_singleton.mp hc
  rfl

end Py
