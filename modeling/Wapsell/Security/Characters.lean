import Mathlib.Data.List.Forall2
import Wapsell.Lib.RegexMatch
import Wapsell.Security.LogFilter

/-!
# The characters of the patterns

The character classes of the default patterns as ranges of code points, and
the caseless literals as an equation between folded texts.

Under `(?i)` a letter of a pattern also matches the few characters
outside ASCII that fold to it, as the long s does to `s`. They are why a
naked key can begin in the middle of what reads as a word, and so they
are kept.

The ranges are proved of the classes once and for all characters, so
that behind this module a proof about a pattern argues with ranges and
not with a class of the source. White space is Python's, which is wider
than that of ASCII.
-/

namespace Wapsell.Security

open Lib Py

/-! ## Classes as ranges -/

theorem isLetter_iff (c : Char) : isLetter c = true ↔ (65 ≤ c.toNat ∧ c.toNat ≤ 90) ∨
    (97 ≤ c.toNat ∧ c.toNat ≤ 122) ∨ c.toNat = 0x130 ∨ c.toNat = 0x131 ∨ c.toNat = 0x17F ∨
      c.toNat = 0x212A := by
  simp only [isLetter, isAlpha_iff, Bool.or_eq_true, isUpper_iff, isLower_iff,
    List.contains_iff_mem, List.mem_cons, List.not_mem_nil, or_false, char_eq_iff, or_assoc,
    Char.reduceToNat]

theorem isKeyChar_iff (c : Char) : isKeyChar c = true ↔
    isLetter c = true ∨ (48 ≤ c.toNat ∧ c.toNat ≤ 57) ∨ c.toNat = 95 := by
  simp [isKeyChar, isDigit_iff, char_eq_iff, or_assoc]

theorem isValueChar_iff (c : Char) : isValueChar c = true ↔
    ¬ isSpace c = true ∧ c.toNat ≠ 39 ∧ c.toNat ≠ 34 ∧ c.toNat ≠ 44 := by
  simp [isValueChar, char_eq_iff, and_assoc]

theorem isCredentialChar_iff (c : Char) : isCredentialChar c = true ↔ isLetter c = true ∨
    (48 ≤ c.toNat ∧ c.toNat ≤ 57) ∨ c.toNat = 46 ∨ c.toNat = 95 ∨ c.toNat = 45 ∨ c.toNat = 43 ∨
      c.toNat = 47 ∨ c.toNat = 61 := by
  simp [isCredentialChar, isDigit_iff, char_eq_iff, or_assoc]

theorem isNakedKeyChar_iff (c : Char) : isNakedKeyChar c = true ↔
    (65 ≤ c.toNat ∧ c.toNat ≤ 90) ∨ (97 ≤ c.toNat ∧ c.toNat ≤ 122) ∨
      (48 ≤ c.toNat ∧ c.toNat ≤ 57) ∨ c.toNat = 95 ∨ c.toNat = 45 := by
  simp [isNakedKeyChar, Char.isAlphanum, isAlpha_iff, isUpper_iff, isLower_iff, isDigit_iff,
    char_eq_iff, or_assoc]

theorem isHexDigit_iff (c : Char) : isHexDigit c = true ↔ (48 ≤ c.toNat ∧ c.toNat ≤ 57) ∨
    (97 ≤ c.toNat ∧ c.toNat ≤ 102) ∨ (65 ≤ c.toNat ∧ c.toNat ≤ 70) := by
  have hle : ∀ a b : Char, a ≤ b ↔ a.toNat ≤ b.toNat := fun _ _ => Iff.rfl
  simp only [isHexDigit, Bool.or_eq_true, Bool.and_eq_true, decide_eq_true_eq, isDigit_iff, hle,
    toNat_toLower, Char.reduceToNat]
  split <;> omega

/-! ## Caseless literals -/

/-- The lower-case ASCII letter that a character folds to, itself where there is none. -/
def caseFold (c : Char) : Char :=
  if c = 'İ' ∨ c = 'ı' then 'i' else if c = 'ſ' then 's' else if c = '\u212A' then 'k'
  else c.toLower

/-- The long s is not ASCII and folds to a letter that is. -/
example : caseFold 'ſ' = 's' := by decide +kernel

theorem toNat_caseFold (c : Char) : (caseFold c).toNat =
    if c.toNat = 0x130 ∨ c.toNat = 0x131 then 105 else if c.toNat = 0x17F then 115
    else if c.toNat = 0x212A then 107
    else if 65 ≤ c.toNat ∧ c.toNat ≤ 90 then c.toNat + 32 else c.toNat := by
  rw [← toNat_toLower]
  simp only [caseFold, char_eq_iff, Char.reduceToNat, apply_ite Char.toNat]

/-- A caseless literal of one ASCII character matches what folds to it. -/
theorem sameIgnoreCase_iff {c : Char} (hc : c.toNat < 128) (x : Char) :
    sameIgnoreCase c x = true ↔ caseFold x = c.toLower := by
  have hlower : c.toLower.toNat < 128 := by rw [toNat_toLower]; split <;> omega
  rw [sameIgnoreCase, Bool.or_eq_true, decide_eq_true_eq, List.contains_iff_mem]
  unfold foldsTo
  split
  case h_4 hi hs hk =>
    simp only [char_eq_iff, Char.reduceToNat, imp_false] at hi hs hk
    simp only [List.not_mem_nil, or_false, char_eq_iff, toNat_caseFold]
    rw [toNat_toLower x]
    split_ifs <;> omega
  -- the letters to which other characters than their two cases fold
  all_goals
    rename_i h
    rw [h]
    simp only [List.mem_cons, List.not_mem_nil, or_false, char_eq_iff, toNat_caseFold,
      toNat_toLower, Char.reduceToNat]
    split_ifs <;> omega

/-- The text is the literal, whatever the case of its letters. -/
def Spells (s : String) (w : List Char) : Prop := w.map caseFold = s.toList.map Char.toLower

theorem reads_caseless {word : Char → Bool} {s : String} (hs : ∀ c ∈ s.toList, c.toNat < 128)
    {prev : Option Char} {w rest : List Char} :
    Regex.Reads word (caseless s) prev w rest ↔ Spells s w := by
  rw [caseless, Regex.reads_literal, Spells]
  generalize s.toList = cs at hs
  induction cs generalizing w with
  | nil => simp
  | cons c cs ih =>
    cases w with
    | nil => simp
    | cons x w =>
      rw [List.forall₂_cons, sameIgnoreCase_iff (hs c List.mem_cons_self),
        ih fun d hd => hs d (List.mem_cons_of_mem c hd), List.map_cons, List.map_cons, List.cons.injEq]

theorem isLetter_caseFold (c : Char) : isLetter (caseFold c) = isLetter c := by
  rw [Bool.eq_iff_iff, isLetter_iff, isLetter_iff, toNat_caseFold]
  split_ifs <;> omega

theorem caseFold_eq_iff {c d : Char} (hd : isLetter d = false) : caseFold c = d ↔ c = d := by
  rw [← Bool.not_eq_true, isLetter_iff] at hd
  rw [char_eq_iff, char_eq_iff, toNat_caseFold]
  split_ifs <;> omega

end Wapsell.Security
