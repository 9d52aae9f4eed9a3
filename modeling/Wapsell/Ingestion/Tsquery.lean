import Wapsell.Lib.Distinct
import Wapsell.Lib.MaximalRuns
import Wapsell.Ingestion.Hindsight

/-!
# The text search query

`_to_or_tsquery` of `sdk/wapsell/ingestion/hindsight.py` rebuilds the text of
a buyer as a query. Its tokens are the maximal runs of word characters in
lower case, the short ones left out, each once where it first occurs. No
token has a character in it that the query language reads.

So whatever a buyer writes, what is sent has words and bars in it and
nothing else. The tables of Unicode are a parameter, with what they
document of word characters as the assumption: in lower case these are
word characters or marks.

What this does not establish: that the query finds the right facts. A
word that is in every fact matches every fact.
-/

namespace Wapsell.Ingestion

open Lib Py

/-- What `to_tsquery` reads in a query: the operators `& | ! : *`, parentheses, quotes, the
backslash and white space. -/
def isOperator (c : Char) : Bool :=
  ['&', '|', '!', ':', '*', '(', ')', '\'', '"', '\\'].contains c || isSpace c

/-- What the tables say of word characters. In lower case they are word characters again, but for
the dot that `İ` leaves behind its `i`, a nonspacing mark. Neither these nor marks are white space,
and no mark is ASCII. -/
structure WordTables (U : Unicode) : Prop where
  lower : ∀ s, isAscii s = false → (∀ c ∈ s.toList, isWord U c = true) →
    ∀ c ∈ (U.lowerNonAscii s).toList, isWord U c = true ∨ U.isMn c = true
  alnum : ∀ c, 128 ≤ c.toNat → U.isAlnum c = true → isSpace c = false
  mark : ∀ c, U.isMn c = true → 128 ≤ c.toNat ∧ isSpace c = false

/-- A run of word characters that begins at `start` and in lower case is long enough. -/
def TokenAt (U : Unicode) (text : String) (start : Nat) (token : String) : Prop :=
  ∃ run, IsRun (isWord U) text.toList start run ∧ lower U (String.ofList run) = token ∧
    MIN_TOKEN_LEN ≤ token.length

/-! ## Characters -/

theorem isOperator_iff (c : Char) : isOperator c = true ↔ c.toNat = 38 ∨ c.toNat = 124 ∨
    c.toNat = 33 ∨ c.toNat = 58 ∨ c.toNat = 42 ∨ c.toNat = 40 ∨ c.toNat = 41 ∨ c.toNat = 39 ∨
      c.toNat = 34 ∨ c.toNat = 92 ∨ isSpace c = true := by
  simp only [isOperator, Bool.or_eq_true, List.contains_iff_mem, List.mem_cons, List.not_mem_nil,
    or_false, char_eq_iff, Char.reduceToNat, or_assoc]

/-- The word characters of ASCII. -/
theorem isWord_iff_of_lt {U : Unicode} {c : Char} (h : c.toNat < 128) : isWord U c = true ↔
    (65 ≤ c.toNat ∧ c.toNat ≤ 90) ∨ (97 ≤ c.toNat ∧ c.toNat ≤ 122) ∨
      (48 ≤ c.toNat ∧ c.toNat ≤ 57) ∨ c.toNat = 95 := by
  rw [isWord, if_pos h]
  simp only [Char.isAlphanum, Bool.or_eq_true, isAlpha_iff, isUpper_iff, isLower_iff, isDigit_iff,
    beq_iff_eq, char_eq_iff, Char.reduceToNat, or_assoc]

theorem isWord_toLower {U : Unicode} {c : Char} (hascii : c.toNat < 128) (h : isWord U c = true) :
    isWord U c.toLower = true := by
  rw [isWord_iff_of_lt hascii] at h
  have hlower := toNat_toLower c
  rw [isWord_iff_of_lt (by split at hlower <;> omega)]
  split at hlower <;> omega

section Tables

variable {U : Unicode} (hU : WordTables U)
include hU

theorem isOperator_of_isWord {c : Char} (h : isWord U c = true) : isOperator c = false := by
  rw [← Bool.not_eq_true, isOperator_iff]
  by_cases hascii : c.toNat < 128
  · have hword := (isWord_iff_of_lt hascii).mp h
    rw [isSpace_iff]
    omega
  · rw [isWord, if_neg hascii] at h
    rw [hU.alnum c (by omega) h]
    simp only [Bool.false_eq_true, or_false]
    omega

theorem isOperator_of_isMn {c : Char} (h : U.isMn c = true) : isOperator c = false := by
  obtain ⟨hrange, hspace⟩ := hU.mark c h
  rw [← Bool.not_eq_true, isOperator_iff, hspace]
  simp only [Bool.false_eq_true, or_false]
  omega

/-- Word characters in lower case are no operators. -/
theorem isOperator_lower {s : String} (h : ∀ c ∈ s.toList, isWord U c = true) {c : Char}
    (hc : c ∈ (lower U s).toList) : isOperator c = false := by
  rw [lower] at hc
  split at hc
  · next hascii =>
    rw [String.toList_ofList] at hc
    obtain ⟨d, hd, rfl⟩ := List.mem_map.mp hc
    have hlt : d.toNat < 128 := of_decide_eq_true (List.all_eq_true.mp hascii d hd)
    exact isOperator_of_isWord hU (isWord_toLower hlt (h d hd))
  · next hascii =>
    rcases hU.lower s (Bool.eq_false_iff.mpr hascii) h c hc with hword | hmark
    · exact isOperator_of_isWord hU hword
    · exact isOperator_of_isMn hU hmark

theorem isOperator_token {text token : String} {start : Nat} (h : TokenAt U text start token)
    {c : Char} (hc : c ∈ token.toList) : isOperator c = false := by
  obtain ⟨run, hrun, rfl, -⟩ := h
  refine isOperator_lower hU (fun d hd => hrun.of_class d ?_) hc
  rwa [String.toList_ofList] at hd

end Tables

/-! ## The tokens -/

/-- The tokens are read from the maximal runs. -/
theorem wordRuns_eq (U : Unicode) (start : Nat) (rest run : List Char) :
    wordRuns U rest run =
      (maximalRuns (isWord U) start rest run).map fun r => String.ofList r.2 := by
  have hclose : ∀ (start : Nat) (run : List Char),
      (if run = [] then [] else [String.ofList run.reverse]) =
        (closeRun start run).map fun r => String.ofList r.2 := by
    intro start run
    unfold closeRun
    split <;> rfl
  induction rest generalizing start run with
  | nil => exact hclose start run
  | cons c rest ih =>
    rw [wordRuns, maximalRuns]
    split
    · exact ih start (c :: run)
    · rw [List.map_append, ← hclose start run, ih (start + run.length + 1) []]

/-- The maximal runs that in lower case are long enough. -/
def significantRuns (U : Unicode) (text : String) : List (Nat × List Char) :=
  (maximalRuns (isWord U) 0 text.toList []).filter fun r =>
    MIN_TOKEN_LEN ≤ (lower U (String.ofList r.2)).length

theorem toOrTsquery_eq (U : Unicode) (text : String) : toOrTsquery U text =
    join " | " (distinct ((significantRuns U text).map fun r => lower U (String.ofList r.2))) := by
  have htokens : (wordRuns U text.toList []).map (lower U) =
      (maximalRuns (isWord U) 0 text.toList []).map fun r => lower U (String.ofList r.2) := by
    rw [wordRuns_eq U 0, List.map_map]
    rfl
  have hsignificant : ((maximalRuns (isWord U) 0 text.toList []).map fun r =>
      lower U (String.ofList r.2)).filter (fun t => MIN_TOKEN_LEN ≤ t.length) =
        (significantRuns U text).map fun r => lower U (String.ofList r.2) := by
    simp only [significantRuns, List.filter_map, Function.comp_def]
  rw [toOrTsquery, htokens, hsignificant, distinct]

/-- A token is what such a run becomes. -/
theorem tokenAt_iff {U : Unicode} {text token : String} {start : Nat} :
    TokenAt U text start token ↔
      ∃ r ∈ significantRuns U text, r.1 = start ∧ lower U (String.ofList r.2) = token := by
  constructor
  · rintro ⟨run, hrun, rfl, hlength⟩
    exact ⟨(start, run), List.mem_filter.mpr ⟨mem_maximalRuns.mpr hrun, by simpa using hlength⟩,
      rfl, rfl⟩
  · rintro ⟨r, hr, rfl, rfl⟩
    obtain ⟨hmem, hlength⟩ := List.mem_filter.mp hr
    exact ⟨r.2, mem_maximalRuns.mp hmem, rfl, by simpa using hlength⟩

/-- **The query.** It is the distinct tokens of the text with ` | ` between them, the empty text
when there is none. They stand in the order in which they first occur, none has an operator in it,
and every run that is long enough is one.

A run that begins at one place and one that begins at another can be the same token; it is then in
the query once, at the place of the first. -/
theorem toOrTsquery_valid {U : Unicode} (hU : WordTables U) (text : String) :
    ∃ tokens, toOrTsquery U text = join " | " tokens ∧ tokens.Nodup ∧
      (∀ token, token ∈ tokens ↔ ∃ start, TokenAt U text start token) ∧
      (∀ token ∈ tokens, ∀ c ∈ token.toList, isOperator c = false) ∧
      tokens.Pairwise fun token token' =>
        ∃ start, TokenAt U text start token ∧
          ∀ start', TokenAt U text start' token' → start < start' := by
  have hmem : ∀ token, token ∈ distinct ((significantRuns U text).map fun r =>
      lower U (String.ofList r.2)) ↔ ∃ start, TokenAt U text start token := by
    intro token
    rw [mem_distinct, List.mem_map]
    constructor
    · rintro ⟨r, hr, rfl⟩
      exact ⟨r.1, tokenAt_iff.mpr ⟨r, hr, rfl, rfl⟩⟩
    · rintro ⟨start, htoken⟩
      obtain ⟨r, hr, -, heq⟩ := tokenAt_iff.mp htoken
      exact ⟨r, hr, heq⟩
  refine ⟨_, toOrTsquery_eq U text, nodup_distinct _, hmem, ?_, ?_⟩
  · intro token htoken c hc
    obtain ⟨start, hat⟩ := (hmem token).mp htoken
    exact isOperator_token hU hat hc
  · have hsorted := (pairwise_maximalRuns (isWord U) 0 text.toList []).filter fun r =>
      MIN_TOKEN_LEN ≤ (lower U (String.ofList r.2)).length
    have hfirst := pairwise_distinct (fun r => lower U (String.ofList r.2)) hsorted
    refine hfirst.imp fun {token token'} hpair => ?_
    obtain ⟨r, hr, htoken, hbefore⟩ := hpair
    refine ⟨r.1, tokenAt_iff.mpr ⟨r, hr, rfl, htoken⟩, fun start' hat => ?_⟩
    obtain ⟨r', hr', hstart, htoken'⟩ := tokenAt_iff.mp hat
    exact hstart ▸ hbefore r' hr' htoken'

theorem wordTables_ascii : WordTables Unicode.ascii where
  lower _ _ h c hc := .inl (h c hc)
  alnum _ _ h := by cases h
  mark _ h := by cases h

/-- A question with operators in it. -/
theorem toOrTsquery_valid_question :
    ∃ tokens, toOrTsquery Unicode.ascii "Zapatillas & (medias | ZAPATILLAS) 42?" =
        join " | " tokens ∧ tokens.Nodup ∧
      (∀ token, token ∈ tokens ↔
        ∃ start, TokenAt Unicode.ascii "Zapatillas & (medias | ZAPATILLAS) 42?" start token) ∧
      (∀ token ∈ tokens, ∀ c ∈ token.toList, isOperator c = false) ∧
      tokens.Pairwise fun token token' =>
        ∃ start, TokenAt Unicode.ascii "Zapatillas & (medias | ZAPATILLAS) 42?" start token ∧
          ∀ start', TokenAt Unicode.ascii "Zapatillas & (medias | ZAPATILLAS) 42?" start' token' →
            start < start' :=
  toOrTsquery_valid wordTables_ascii "Zapatillas & (medias | ZAPATILLAS) 42?"

example : toOrTsquery Unicode.ascii "Zapatillas & (medias | ZAPATILLAS) 42?" =
    "zapatillas | medias" := by decide +kernel

end Wapsell.Ingestion
