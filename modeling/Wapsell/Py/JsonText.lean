import Wapsell.Lib.Dict
import Wapsell.Py.Json

/-!
# JSON texts

`json.loads`, and the text of a value character by character. The scanner
is the one of the standard library: white space between tokens, the escapes
of a string with their surrogate pairs, the three constants JSON has no
numeral for, and of a key that is written twice the last value. A surrogate
without its partner, which no `String` holds, is read as U+FFFD; the limits
on the depth of a text and the digits of an integer are left out.

The scanner goes with fuel, one unit for a value or a member, because a
text may be nested as deep as it is long; `loads` gives it the length of
the text, which is always enough. `repr` of a float is the shortest
decimal that denotes it, found by trying one to seventeen digits, and is
here so that a float read from a text is printed as CPython prints it.
-/

namespace Py

open Lib

/-! ## `repr` of a float -/

/-- The decimal exponent of a positive rational: `10 ^ e <= q < 10 ^ (e + 1)`. -/
def exponentOf (q : ℚ) : Int :=
  let n := q.num.natAbs
  if q.den ≤ n then (Nat.toDigits 10 (n / q.den)).length - 1
  else -(Nat.toDigits 10 ((q.den - 1) / n)).length

/-- The decimal `m * 10 ^ s`. -/
def decimalValue (m : Nat) (s : Int) : ℚ :=
  if 0 ≤ s then (m * 10 ^ s.toNat : Nat) else mkRat m (10 ^ (-s).toNat)

/-- The nearer of the decimals of `p` digits around `q` that denote the double `q`. -/
def decimalOf (q : ℚ) (p : Nat) : Option (Nat × Int) :=
  let s := exponentOf q - p + 1
  let scaled := q / decimalValue 1 s
  let below := (scaled.num / scaled.den).toNat
  let denotes (m : Nat) : Bool := decide (Double.ofRat (decimalValue m s) = .finite q)
  match denotes below, denotes (below + 1) with
  | true, true =>
    let gap := scaled - below
    if gap < 1 / 2 ∨ (gap = 1 / 2 ∧ below % 2 = 0) then some (below, s) else some (below + 1, s)
  | true, false => some (below, s)
  | false, true => some (below + 1, s)
  | false, false => none

/-- The digits of a decimal with the point behind the first `point` of them. -/
def layout (digits : List Char) (point : Int) : List Char :=
  if -4 < point ∧ point ≤ 16 then
    if point ≤ 0 then '0' :: '.' :: (List.replicate (-point).toNat '0' ++ digits)
    else if digits.length ≤ point.toNat then
      digits ++ List.replicate (point.toNat - digits.length) '0' ++ ['.', '0']
    else digits.take point.toNat ++ '.' :: digits.drop point.toNat
  else
    let e := point - 1
    let mantissa := match digits with
      | [] => []
      | [d] => [d]
      | d :: ds => d :: '.' :: ds
    let size := Nat.toDigits 10 e.natAbs
    mantissa ++ 'e' :: (if e < 0 then '-' else '+') :: (List.replicate (2 - size.length) '0' ++ size)

/-- `repr` of a positive double: the shortest decimal that denotes it. Seventeen digits always do,
so the search ends with an answer. -/
def reprMagnitude (q : ℚ) : List Char :=
  match (List.range 17).findSome? fun i => decimalOf q (i + 1) with
  | some (m, s) =>
    let digits := Nat.toDigits 10 m
    layout (digits.reverse.dropWhile (· = '0')).reverse (digits.length + s)
  | none => []

/-- `repr(x)`, with the sign the double was read with. -/
def reprFloat (negative : Bool) (x : Double) : String :=
  let sign := if negative then ['-'] else []
  String.ofList (sign ++ match x with
    | .nan => "nan".toList
    | .inf _ => "inf".toList
    | .finite q => if q = 0 then "0.0".toList else reprMagnitude |q|)

/-! ## Tokens -/

/-- White space between tokens. -/
def isJsonSpace (c : Char) : Bool := c = ' ' || c = '\t' || c = '\n' || c = '\r'

def skipSpace (cs : List Char) : List Char := cs.dropWhile isJsonSpace

/-- The value of a hexadecimal digit. -/
def hexDigit (c : Char) : Option Nat :=
  if c.isDigit then some (c.toNat - '0'.toNat)
  else if 'a' ≤ c ∧ c ≤ 'f' then some (c.toNat - 'a'.toNat + 10)
  else if 'A' ≤ c ∧ c ≤ 'F' then some (c.toNat - 'A'.toNat + 10)
  else none

/-- The four digits of a `\u` escape. -/
def hexFour (a b c d : Char) : Option Nat := do
  let a ← hexDigit a
  let b ← hexDigit b
  let c ← hexDigit c
  let d ← hexDigit d
  some (((a * 16 + b) * 16 + c) * 16 + d)

/-- The character of a one-letter escape. -/
def unescape (c : Char) : Option Char :=
  if c = '"' ∨ c = '\\' ∨ c = '/' then some c
  else if c = 'n' then some '\n'
  else if c = 'r' then some '\r'
  else if c = 't' then some '\t'
  else if c = 'b' then some (Char.ofNat 8)
  else if c = 'f' then some (Char.ofNat 12)
  else none

/-- A code point, a lone surrogate as U+FFFD. -/
def codePoint (n : Nat) : Char := if 0xD800 ≤ n ∧ n ≤ 0xDFFF then Char.ofNat 0xFFFD else Char.ofNat n

/-- The low surrogate that a text begins with, and what follows it. -/
def lowSurrogate : List Char → Option (Nat × List Char)
  | '\\' :: 'u' :: a :: b :: c :: d :: rest => do
    let n ← hexFour a b c d
    if 0xDC00 ≤ n ∧ n ≤ 0xDFFF then some (n, rest) else none
  | _ => none

/-- One character of a string, and what follows it; `none` at its end. An escape may take six
characters, and with a surrogate pair twelve. -/
def scanChar : List Char → Option (Char × List Char)
  | '\\' :: 'u' :: a :: b :: c :: d :: rest => do
    let n ← hexFour a b c d
    match lowSurrogate rest with
    | some (low, rest') =>
      if 0xD800 ≤ n ∧ n ≤ 0xDBFF then
        some (Char.ofNat (0x10000 + (n - 0xD800) * 1024 + (low - 0xDC00)), rest')
      else some (codePoint n, rest)
    | none => some (codePoint n, rest)
  | '\\' :: c :: rest => (unescape c).map fun c => (c, rest)
  | c :: rest => if c = '"' ∨ c = '\\' ∨ c.toNat < 32 then none else some (c, rest)
  | [] => none

/-- The characters of a string up to its closing quote, and what follows it. -/
def scanString : Nat → List Char → Option (List Char × List Char)
  | _, '"' :: rest => some ([], rest)
  | 0, _ => none
  | n + 1, cs => do
    let (c, rest) ← scanChar cs
    let (text, rest) ← scanString n rest
    some (c :: text, rest)

/-- A numeral, by its parts. -/
structure Numeral where
  negative : Bool
  whole : List Char
  frac : List Char
  exp : List Char

def Numeral.chars (n : Numeral) : List Char :=
  (if n.negative then ['-'] else []) ++ n.whole ++ n.frac ++ n.exp

/-- The value of a numeral: with a fraction or an exponent it is a float. -/
def Numeral.value (n : Numeral) : Json :=
  if n.frac = [] ∧ n.exp = [] then
    .int (if n.negative then -(ofDigits n.whole : Int) else ofDigits n.whole)
  else .float (reprFloat n.negative (Json.floatValue (String.ofList n.chars)))

/-- A zero, or digits that begin with another one. -/
def scanWhole : List Char → List Char × List Char
  | [] => ([], [])
  | c :: rest =>
    if c = '0' then (['0'], rest)
    else ((c :: rest).takeWhile Char.isDigit, (c :: rest).dropWhile Char.isDigit)

/-- A point and digits. -/
def scanFrac : List Char → List Char × List Char
  | [] => ([], [])
  | c :: rest =>
    if c = '.' ∧ rest.takeWhile Char.isDigit ≠ [] then
      ('.' :: rest.takeWhile Char.isDigit, rest.dropWhile Char.isDigit)
    else ([], c :: rest)

/-- The sign of an exponent, if there is one. -/
def scanSign : List Char → List Char × List Char
  | [] => ([], [])
  | c :: rest => if c = '+' ∨ c = '-' then ([c], rest) else ([], c :: rest)

/-- The letter, a sign and digits. -/
def scanExp : List Char → List Char × List Char
  | [] => ([], [])
  | c :: rest =>
    let (sign, digits) := scanSign rest
    if (c = 'e' ∨ c = 'E') ∧ digits.takeWhile Char.isDigit ≠ [] then
      (c :: (sign ++ digits.takeWhile Char.isDigit), digits.dropWhile Char.isDigit)
    else ([], c :: rest)

/-- A numeral, and what follows it. -/
def scanNumeral (cs : List Char) : Option (Numeral × List Char) :=
  let (negative, body) := match cs with
    | [] => (false, [])
    | c :: rest => if c = '-' then (true, rest) else (false, c :: rest)
  let (whole, rest) := scanWhole body
  let (frac, rest) := scanFrac rest
  let (exp, rest) := scanExp rest
  if whole = [] then none else some (⟨negative, whole, frac, exp⟩, rest)

/-! ## Values -/

/-- What follows a word, if the text begins with it. -/
def afterWord (word : String) (cs : List Char) : Option (List Char) :=
  if word.toList.isPrefixOf cs then some (cs.drop word.toList.length) else none

/-- The constants and the numerals. -/
def scanScalar (cs : List Char) : Option (Json × List Char) :=
  match afterWord "null" cs, afterWord "true" cs, afterWord "false" cs with
  | some rest, _, _ => some (.null, rest)
  | _, some rest, _ => some (.bool true, rest)
  | _, _, some rest => some (.bool false, rest)
  | none, none, none =>
    match afterWord "NaN" cs, afterWord "Infinity" cs, afterWord "-Infinity" cs with
    | some rest, _, _ => some (.float "nan", rest)
    | _, some rest, _ => some (.float "inf", rest)
    | _, _, some rest => some (.float "-inf", rest)
    | none, none, none => (scanNumeral cs).map fun p => (p.1.value, p.2)

/-- The members of an object as a dictionary: of a key that comes twice the last value. -/
def members (pairs : List (String × Json)) : List (String × Json) :=
  pairs.foldl (fun fields p => Dict.assign p.1 p.2 fields) []

mutual

/-- A value, and what follows it. -/
def scanValue : Nat → List Char → Option (Json × List Char)
  | 0, _ => none
  | n + 1, cs =>
    match cs with
    | [] => none
    | c :: rest =>
      if c = '"' then (scanString rest.length rest).map fun p => (.str (String.ofList p.1), p.2)
      else if c = '[' then
        match skipSpace rest with
        | [] => none
        | d :: tail =>
          if d = ']' then some (.arr [], tail)
          else (scanItems n (d :: tail)).map fun p => (.arr p.1, p.2)
      else if c = '\x7b' then
        match skipSpace rest with
        | [] => none
        | d :: tail =>
          if d = '\x7d' then some (.obj [], tail)
          else (scanMembers n (d :: tail)).map fun p => (.obj (members p.1), p.2)
      else scanScalar (c :: rest)

/-- The items of a list that is not empty, up to its bracket. -/
def scanItems : Nat → List Char → Option (List Json × List Char)
  | 0, _ => none
  | n + 1, cs =>
    match scanValue n cs with
    | none => none
    | some (item, rest) =>
      match skipSpace rest with
      | [] => none
      | d :: tail =>
        if d = ']' then some ([item], tail)
        else if d = ',' then (scanItems n (skipSpace tail)).map fun p => (item :: p.1, p.2)
        else none

/-- The members of an object that is not empty, up to its brace. -/
def scanMembers : Nat → List Char → Option (List (String × Json) × List Char)
  | 0, _ => none
  | n + 1, cs =>
    match cs with
    | [] => none
    | q :: body =>
      if q ≠ '"' then none
      else match scanString body.length body with
        | none => none
        | some (key, rest) =>
          match skipSpace rest with
          | [] => none
          | k :: rest =>
            if k ≠ ':' then none
            else match scanValue n (skipSpace rest) with
              | none => none
              | some (value, rest) =>
                match skipSpace rest with
                | [] => none
                | d :: tail =>
                  if d = '\x7d' then some ([(String.ofList key, value)], tail)
                  else if d = ',' then
                    (scanMembers n (skipSpace tail)).map fun p =>
                      ((String.ofList key, value) :: p.1, p.2)
                  else none

end

/-- Without fuel nothing is read. -/
example (cs : List Char) :
    scanValue 0 cs = none ∧ scanItems 0 cs = none ∧ scanMembers 0 cs = none :=
  ⟨by rw [scanValue], by rw [scanItems], by rw [scanMembers]⟩

/-- `json.loads(s)`, `none` for the `JSONDecodeError`. -/
def loads (s : String) : Option Json :=
  match scanValue (s.toList.length + 1) (skipSpace s.toList) with
  | none => none
  | some (value, rest) => if skipSpace rest = [] then some value else none

/-- A text that `repr` writes for a finite float: a numeral with a fraction or an exponent, and the
one `repr` writes for the double it denotes. -/
def isFloatText (text : String) : Bool :=
  match scanNumeral text.toList with
  | some (n, []) =>
    decide (¬(n.frac = [] ∧ n.exp = []) ∧
      reprFloat n.negative (Json.floatValue text) = text)
  | _ => false

namespace Json

mutual

/-- The value is one of Python's: its floats are in the texts `repr` writes, and no dictionary in it
has a key twice. What `json.loads` answers is of this kind. -/
def wellFormed : Json → Bool
  | .float text => isFloatText text || decide (text ∈ ["nan", "inf", "-inf"])
  | .arr items => wellFormedItems items
  | .obj fields => decide (fields.map Prod.fst).Nodup && wellFormedFields fields
  | _ => true

def wellFormedItems : List Json → Bool
  | [] => true
  | item :: items => wellFormed item && wellFormedItems items

def wellFormedFields : List (String × Json) → Bool
  | [] => true
  | (_, value) :: fields => wellFormed value && wellFormedFields fields

end

end Json

/-! ## What `dumps` writes -/

section Writing

variable (gap : List Char)

mutual

/-- The text of a value, with `gap` behind every comma and colon. -/
def textOf : Json → List Char
  | .arr [] => ['[', ']']
  | .arr (item :: items) => '[' :: (textOf item ++ textOfItems items)
  | .obj [] => ['\x7b', '\x7d']
  | .obj ((key, value) :: fields) =>
    '\x7b' :: ((Json.dumpStr key).toList ++ ':' :: (gap ++ (textOf value ++ textOfMembers fields)))
  | .null => "null".toList
  | .bool true => "true".toList
  | .bool false => "false".toList
  | .int n => (toString n).toList
  | .float text => (Json.dumpFloat text).toList
  | .str s => (Json.dumpStr s).toList

/-- The items behind the first, and the bracket. -/
def textOfItems : List Json → List Char
  | [] => [']']
  | item :: items => ',' :: (gap ++ (textOf item ++ textOfItems items))

/-- The members behind the first, and the brace. -/
def textOfMembers : List (String × Json) → List Char
  | [] => ['\x7d']
  | (key, value) :: fields =>
    ',' :: (gap ++ ((Json.dumpStr key).toList ++ ':' ::
      (gap ++ (textOf value ++ textOfMembers fields))))

end

example (v : Json) : textOf gap (.arr [v]) = '[' :: (textOf gap v ++ [']']) := by
  rw [textOf, textOfItems]

end Writing

theorem textOf_obj (gap : List Char) (key : String) (value : Json) (fields : List (String × Json)) :
    textOf gap (.obj ((key, value) :: fields)) = '\x7b' :: ((Json.dumpStr key).toList ++ ':' ::
      (gap ++ (textOf gap value ++ textOfMembers gap fields))) := rfl

theorem toList_brace : "\x7b".toList = ['\x7b'] := rfl

theorem toList_colon : ": ".toList = [':', ' '] := rfl

theorem toList_join_cons (sep x : String) (xs : List String) :
    (join sep (x :: xs)).toList = x.toList ++ xs.flatMap fun y => sep.toList ++ y.toList := by
  induction xs generalizing x with
  | nil => rw [join, String.intercalate_singleton, List.flatMap_nil, List.append_nil]
  | cons y ys ih =>
    have hy := ih y
    rw [join] at hy
    rw [join, String.intercalate_cons_of_ne_nil (List.cons_ne_nil y ys), String.toList_append,
      String.toList_append, List.flatMap_cons, hy]
    simp only [List.append_assoc]

mutual

theorem toList_dumps : ∀ v : Json, v.dumps.toList = textOf [' '] v
  | .null | .bool true | .bool false | .int _ | .float _ | .str _ => rfl
  | .arr [] => rfl
  | .obj [] => rfl
  | .arr (item :: items) => by
    have hitem := toList_dumps item
    have hitems := toList_dumpItems items
    rw [Json.dumps, Json.dumpItems, String.toList_append, String.toList_append, toList_join_cons,
      hitem, List.append_assoc, List.append_assoc, hitems]
    rfl
  | .obj ((key, value) :: fields) => by
    have hvalue := toList_dumps value
    have hfields := toList_dumpFields fields
    rw [Json.dumps, Json.dumpFields, String.toList_append, String.toList_append, toList_join_cons,
      String.toList_append, String.toList_append, hvalue, List.append_assoc, List.append_assoc,
      hfields, textOf_obj, toList_brace, toList_colon]
    simp only [List.append_assoc, List.cons_append, List.nil_append]

theorem toList_dumpItems : ∀ items : List Json,
    (Json.dumpItems items).flatMap (fun y => ", ".toList ++ y.toList) ++ "]".toList =
      textOfItems [' '] items
  | [] => rfl
  | item :: items => by
    have hitem := toList_dumps item
    have hitems := toList_dumpItems items
    rw [Json.dumpItems, List.flatMap_cons, List.append_assoc, hitems, hitem, List.append_assoc]
    rfl

theorem toList_dumpFields : ∀ fields : List (String × Json),
    (Json.dumpFields fields).flatMap (fun y => ", ".toList ++ y.toList) ++ "\x7d".toList =
      textOfMembers [' '] fields
  | [] => rfl
  | (key, value) :: fields => by
    have hvalue := toList_dumps value
    have hfields := toList_dumpFields fields
    rw [Json.dumpFields, List.flatMap_cons, List.append_assoc, hfields, String.toList_append,
      String.toList_append, hvalue]
    simp only [List.append_assoc]
    rfl

end

end Py
