import Mathlib.Data.List.Infix

/-!
# LIKE patterns

The pattern language of SQL: a percent sign stands for any text, an
underscore for any character, and a backslash takes the next character as
it is. A pattern that ends in its escape character is an error.

A text is a pattern for what begins with it, once a percent sign is
appended, exactly when none of the three characters is in it: `shortest`
is a text that matches and that only such a pattern is a prefix of.

Matching is by recursion on the tokens of a pattern, which are made
once; a pattern that ends in its escape has none. Case and collation are
the database's and play no part.
-/

namespace Lib

/-- One element of a pattern. -/
inductive LikeToken
  | literal (c : Char)
  | one
  | many
  deriving DecidableEq, Repr

/-- The elements of a pattern, `none` when it ends in its escape character. -/
def likeTokens : List Char → Option (List LikeToken)
  | [] => some []
  | ['\\'] => none
  | '\\' :: c :: cs => (likeTokens cs).map (.literal c :: ·)
  | '%' :: cs => (likeTokens cs).map (.many :: ·)
  | '_' :: cs => (likeTokens cs).map (.one :: ·)
  | c :: cs => (likeTokens cs).map (.literal c :: ·)

example (c : Char) : likeTokens ['\\', c] = some [.literal c] := by simp [likeTokens]

/-- A text matches the elements. -/
def matchesTokens : List LikeToken → List Char → Bool
  | [], text => text.isEmpty
  | .literal _ :: _, [] => false
  | .literal c :: tokens, x :: text => x = c && matchesTokens tokens text
  | .one :: _, [] => false
  | .one :: tokens, _ :: text => matchesTokens tokens text
  | .many :: tokens, text => text.tails.any fun rest => matchesTokens tokens rest

/-- `text LIKE pattern`, `none` for the error. -/
def like (text pattern : List Char) : Option Bool :=
  (likeTokens pattern).map fun tokens => matchesTokens tokens text

/-- The characters with a meaning of their own. -/
def isLikeSpecial (c : Char) : Bool := c = '%' || c = '_' || c = '\\'

/-- The shortest text that matches, with `x` where any character would do. -/
def shortest : List LikeToken → List Char
  | [] => []
  | .literal c :: tokens => c :: shortest tokens
  | .one :: tokens => 'x' :: shortest tokens
  | .many :: tokens => shortest tokens

theorem matchesTokens_shortest : ∀ tokens, matchesTokens tokens (shortest tokens) = true
  | [] => rfl
  | .literal c :: tokens => by
    rw [shortest, matchesTokens, matchesTokens_shortest tokens]
    simp
  | .one :: tokens => matchesTokens_shortest tokens
  | .many :: tokens => by
    rw [shortest, matchesTokens, List.any_eq_true]
    exact ⟨_, (List.mem_tails _ _).mpr List.suffix_rfl, matchesTokens_shortest tokens⟩

/-- A trailing percent sign matches whatever is left. -/
theorem matchesTokens_many (text : List Char) : matchesTokens [.many] text = true := by
  rw [matchesTokens, List.any_eq_true]
  exact ⟨[], (List.mem_tails _ _).mpr (List.nil_suffix), rfl⟩

theorem likeTokens_of_not_special {c : Char} (h : isLikeSpecial c = false) (cs : List Char) :
    likeTokens (c :: cs) = (likeTokens cs).map (.literal c :: ·) := by
  simp only [isLikeSpecial, Bool.or_eq_false_iff, decide_eq_false_iff_not] at h
  obtain ⟨⟨hpercent, hunderscore⟩, hbackslash⟩ := h
  rw [likeTokens]
  · exact fun hc _ => hbackslash hc
  · exact fun c' cs' hc _ => hbackslash hc
  · exact hpercent
  · exact hunderscore

/-- The pattern of a prefix is well formed, and its shortest match begins with the prefix exactly
when the prefix is literal. -/
def PrefixPattern (pre : List Char) : Prop :=
  ∃ tokens, likeTokens (pre ++ ['%']) = some tokens ∧ (shortest tokens).length ≤ pre.length ∧
    (pre <+: shortest tokens ↔ ∀ c ∈ pre, isLikeSpecial c = false)

/-- A text shorter than a prefix does not begin with it. -/
theorem prefix_iff_of_length_lt {pre text : List Char} {c : Char} (h : text.length < pre.length)
    (hc : c ∈ pre) (hspecial : isLikeSpecial c = true) :
    pre <+: text ↔ ∀ c ∈ pre, isLikeSpecial c = false := by
  refine iff_of_false (fun hpre => absurd hpre.length_le (Nat.not_le_of_lt h)) fun hall => ?_
  rw [hall c hc] at hspecial
  cases hspecial

theorem PrefixPattern.escape {cs : List Char} (h : PrefixPattern cs) (c : Char) :
    PrefixPattern ('\\' :: c :: cs) := by
  obtain ⟨tokens, htokens, hlen, -⟩ := h
  refine ⟨.literal c :: tokens, ?_, Nat.succ_le_succ (hlen.trans (Nat.le_succ _)), ?_⟩
  · rw [List.cons_append, List.cons_append, likeTokens, htokens]
    rfl
  · exact prefix_iff_of_length_lt (Nat.succ_lt_succ (Nat.lt_succ_of_le hlen)) List.mem_cons_self
      (by decide)

theorem PrefixPattern.percent {cs : List Char} (h : PrefixPattern cs) :
    PrefixPattern ('%' :: cs) := by
  obtain ⟨tokens, htokens, hlen, -⟩ := h
  refine ⟨.many :: tokens, ?_, hlen.trans (Nat.le_succ _), ?_⟩
  · rw [List.cons_append, likeTokens, htokens]
    rfl
  · exact prefix_iff_of_length_lt (Nat.lt_succ_of_le hlen) List.mem_cons_self (by decide)

theorem PrefixPattern.underscore {cs : List Char} (h : PrefixPattern cs) :
    PrefixPattern ('_' :: cs) := by
  obtain ⟨tokens, htokens, hlen, -⟩ := h
  refine ⟨.one :: tokens, ?_, Nat.succ_le_succ hlen, iff_of_false (fun hpre => ?_) fun hall => ?_⟩
  · rw [List.cons_append, likeTokens, htokens]
    rfl
  · exact absurd (List.cons_prefix_cons.mp hpre).1 (by decide)
  · exact absurd (hall '_' List.mem_cons_self) (by decide)

theorem PrefixPattern.literal {cs : List Char} (h : PrefixPattern cs) {c : Char}
    (hc : isLikeSpecial c = false) : PrefixPattern (c :: cs) := by
  obtain ⟨tokens, htokens, hlen, hprefix⟩ := h
  refine ⟨.literal c :: tokens, ?_, Nat.succ_le_succ hlen, ?_⟩
  · rw [List.cons_append, likeTokens_of_not_special hc, htokens]
    rfl
  · rw [shortest, List.cons_prefix_cons, hprefix, List.forall_mem_cons]
    exact and_congr (iff_of_true rfl hc) Iff.rfl

theorem prefixPattern : ∀ pre : List Char, PrefixPattern pre
  | [] => ⟨[.many], rfl, Nat.le_refl 0, iff_of_true List.nil_prefix nofun⟩
  | c :: cs => by
    cases hc : isLikeSpecial c with
    | false => exact (prefixPattern cs).literal hc
    | true =>
      simp only [isLikeSpecial, Bool.or_eq_true, decide_eq_true_eq] at hc
      rcases hc with (rfl | rfl) | rfl
      · exact (prefixPattern cs).percent
      · exact (prefixPattern cs).underscore
      · -- what a backslash takes may be the percent sign that was appended
        match cs with
        | [] =>
          have hspecial : isLikeSpecial '\\' ≠ false := by decide
          exact ⟨[.literal '%'], rfl, Nat.le_refl 1,
            iff_of_false (by decide) fun h => hspecial (h _ List.mem_cons_self)⟩
        | c :: cs => exact (prefixPattern cs).escape c

/-- A literal prefix is matched by the texts that begin with it. -/
theorem matchesTokens_of_literal : ∀ {pre : List Char}, (∀ c ∈ pre, isLikeSpecial c = false) →
    ∃ tokens, likeTokens (pre ++ ['%']) = some tokens ∧
      ∀ text, matchesTokens tokens text = true ↔ pre <+: text
  | [], _ => ⟨[.many], rfl, fun text => iff_of_true (matchesTokens_many text) List.nil_prefix⟩
  | c :: cs, h => by
    obtain ⟨hc, hcs⟩ := List.forall_mem_cons.mp h
    obtain ⟨tokens, htokens, hmatch⟩ := matchesTokens_of_literal hcs
    refine ⟨.literal c :: tokens, ?_, fun text => ?_⟩
    · rw [List.cons_append, likeTokens_of_not_special hc, htokens]
      rfl
    · cases text with
      | nil => exact iff_of_false Bool.false_ne_true (by simp)
      | cons x text =>
        rw [matchesTokens, Bool.and_eq_true, decide_eq_true_eq, hmatch, List.cons_prefix_cons,
          eq_comm]

/-- **LIKE as a prefix test.** The texts that match a prefix followed by a percent sign all begin
with the prefix exactly when nothing in the prefix has a meaning of its own.

For the failing direction a text is built that the pattern matches and the prefix does not begin: at
the first special character another text is put in its place. -/
theorem like_prefix_iff {pre : List Char} :
    (∀ text, like text (pre ++ ['%']) = some true → pre <+: text) ↔
      ∀ c ∈ pre, isLikeSpecial c = false := by
  constructor
  · intro h
    obtain ⟨tokens, htokens, -, hprefix⟩ := prefixPattern pre
    refine hprefix.mp (h _ ?_)
    rw [like, htokens, Option.map_some, matchesTokens_shortest]
  · intro h text hlike
    obtain ⟨tokens, htokens, hmatch⟩ := matchesTokens_of_literal h
    rw [like, htokens] at hlike
    exact (hmatch text).mp (Option.some.inj hlike)

end Lib
