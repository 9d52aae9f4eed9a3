import Mathlib.Data.List.Basic

/-!
# Backtracking regular expressions

Patterns over characters with classes, greedy repetition of a class, word
boundaries and capture groups. The meaning of a pattern at a cursor is the
list of its matches in the order a backtracking engine tries them, so the
match an engine finds is the head of the list. Searching goes from left to
right and a replaced match is not read again; an empty match does not stop
a longer one at the same place.

The list of all matches in order is kept, and not the first one alone,
because backtracking into a group needs the matches that come after;
what an engine does for speed is left out, what it answers is not.
Classes are predicates on characters, so that case folding and the
Unicode tables stay parameters of the user.

**What this does not establish.** Of the constructs of a full engine
there are those that greedy patterns without back references use: no
lazy or possessive repetition, no look-ahead, no anchors. Repetition is
of a class only, so a match always ends.
-/

namespace Lib

/-- Where a matcher stands in a text.

The character before is kept for the word boundaries, the position for the spans. -/
structure Cursor where
  /-- The character before, if there is one. -/
  prev : Option Char
  pos : Nat
  rest : List Char
  deriving DecidableEq, Repr

namespace Cursor

/-- One character on. -/
def next (cur : Cursor) (c : Char) (rest : List Char) : Cursor := ⟨some c, cur.pos + 1, rest⟩

/-- One of the two characters around the cursor is a word character and the other is not. -/
def atBoundary (word : Char → Bool) (cur : Cursor) : Bool :=
  (cur.prev.any word) != (cur.rest.head?.any word)

end Cursor

/-- A pattern. -/
inductive Regex
  | empty
  /-- One character of a class. -/
  | one (p : Char → Bool)
  /-- At least `min` and, where there is a bound, at most `max` characters of a class, as many as
  possible. -/
  | rep (min : Nat) (max : Option Nat) (p : Char → Bool)
  | boundary
  | seq (r s : Regex)
  | alt (r s : Regex)
  /-- The capture group `n`. -/
  | group (n : Nat) (r : Regex)

namespace Regex

/-- What a class is tested for, character by character. -/
def literal (same : Char → Char → Bool) : List Char → Regex
  | [] => .empty
  | [c] => .one (same c)
  | c :: cs => .seq (.one (same c)) (literal same cs)

/-- Alternatives, the first preferred. -/
def oneOf : List Regex → Regex
  | [] => .one fun _ => false
  | [r] => r
  | r :: rs => .alt r (oneOf rs)

/-- One pattern after the other. -/
def inOrder : List Regex → Regex
  | [] => .empty
  | [r] => r
  | r :: rs => .seq r (inOrder rs)

/-- A pattern alone is its only alternative and its only part. -/
example (r : Regex) : oneOf [r] = inOrder [r] := by rw [oneOf, inOrder]

/-- The number of capture groups. -/
def groups : Regex → Nat
  | .empty | .one _ | .rep .. | .boundary => 0
  | .seq r s | .alt r s => r.groups + s.groups
  | .group _ r => r.groups + 1

/-- The last span of each group, the latest first. -/
abbrev Spans := List (Nat × Nat × Nat)

/-- The cursors past a run of a class, the longest run first. -/
def runs (p : Char → Bool) (prev : Option Char) (pos : Nat) : List Char → List Cursor
  | [] => [⟨prev, pos, []⟩]
  | c :: cs =>
    if p c then runs p (some c) (pos + 1) cs ++ [⟨prev, pos, c :: cs⟩] else [⟨prev, pos, c :: cs⟩]

example (p : Char → Bool) : runs p none 0 [] = [⟨none, 0, []⟩] := by rw [runs]

/-- A run of `n` characters is of an admitted length. -/
def admits (min : Nat) (max : Option Nat) (n : Nat) : Bool := min ≤ n && max.all (n ≤ ·)

/-- The matches from a cursor, in the order of backtracking: the alternatives from left to right,
the longer run before the shorter. The spans of the groups are carried along as they close. -/
def results (word : Char → Bool) : Regex → Cursor → Spans → List (Cursor × Spans)
  | .empty, cur, spans => [(cur, spans)]
  | .one p, cur, spans =>
    match cur.rest with
    | [] => []
    | c :: cs => if p c then [(cur.next c cs, spans)] else []
  | .rep min max p, cur, spans =>
    ((runs p cur.prev cur.pos cur.rest).filter fun e => admits min max (e.pos - cur.pos)).map
      (·, spans)
  | .boundary, cur, spans => if cur.atBoundary word then [(cur, spans)] else []
  | .seq r s, cur, spans => (results word r cur spans).flatMap fun m => results word s m.1 m.2
  | .alt r s, cur, spans => results word r cur spans ++ results word s cur spans
  | .group n r, cur, spans =>
    (results word r cur spans).map fun m => (m.1, (n, cur.pos, m.1.pos) :: m.2)

example (word : Char → Bool) (r : Regex) (cur : Cursor) (spans : Spans) :
    results word (.seq .empty r) cur spans = results word r cur spans := by
  simp [results]

/-- A match: where it starts, its text and the spans of its groups. -/
structure Match where
  start : Nat
  text : List Char
  spans : Spans
  deriving DecidableEq, Repr

/-- The span of a group, `none` when it took no part. -/
def Match.span (m : Match) (n : Nat) : Option (Nat × Nat) :=
  (m.spans.find? fun g => g.1 = n).map Prod.snd

/-- The match at a cursor; with `advance`, the first that is not empty, which is what a search asks
for right behind an empty match. -/
def matchAt (word : Char → Bool) (r : Regex) (advance : Bool) (cur : Cursor) : Option Match :=
  ((results word r cur []).find? fun m => !advance || cur.pos < m.1.pos).map fun m =>
    { start := cur.pos, text := cur.rest.take (m.1.pos - cur.pos), spans := m.2 }

/-- Replacement from a cursor on, past the `skip` characters a match has taken. -/
def subFrom (word : Char → Bool) (r : Regex) (f : Match → List Char) :
    Nat → Option Char → Nat → List Char → List Char
  | _ + 1, _, _, [] => []
  | skip + 1, _, pos, c :: cs => subFrom word r f skip (some c) (pos + 1) cs
  | 0, prev, pos, [] => ((matchAt word r false ⟨prev, pos, []⟩).map f).getD []
  | 0, prev, pos, c :: cs =>
    let kept := c :: subFrom word r f 0 (some c) (pos + 1) cs
    let taken := fun m : Match => f m ++ subFrom word r f (m.text.length - 1) (some c) (pos + 1) cs
    match matchAt word r false ⟨prev, pos, c :: cs⟩ with
    | none => kept
    | some m =>
      if m.text ≠ [] then taken m
      else f m ++ ((matchAt word r true ⟨prev, pos, c :: cs⟩).map taken).getD kept

/-- Every match replaced, from left to right. -/
def sub (word : Char → Bool) (r : Regex) (f : Match → List Char) (text : List Char) : List Char :=
  subFrom word r f 0 none 0 text

end Regex

end Lib
