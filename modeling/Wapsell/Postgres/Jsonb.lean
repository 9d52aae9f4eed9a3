import Wapsell.Lib.Dict
import Wapsell.Py.Json

/-!
# JSONB and `numeric`

What the queries on a JSONB column use of Postgres: containment (`@>`), the
presence of a key (`?`), and a field or a parameter cast to `numeric`. A
JSON number is the decimal it is written as; nothing is rounded. The casts
of a text and of a `float8` are parameters.

A `numeric` holds every decimal a JSON text can write, and so compares
numbers exactly where Python compares doubles. The two part on large
integers and on long fractions, which is the matter of the filters.

**What this does not establish.** How Postgres stores a document, or
which index it uses. That an array at the top contains a bare scalar is
left out of containment: both sides are objects here.
-/

namespace Wapsell.Postgres

open Lib Py

/-! ## Numbers -/

/-- A `numeric`: a decimal, an infinity or NaN. -/
inductive Numeric
  | nan
  | inf (negative : Bool)
  | finite (value : ℚ)
  deriving DecidableEq

/-- `a <= b`: a total order, NaN equal to itself and above everything else. -/
def Numeric.le : Numeric → Numeric → Bool
  | _, .nan => true
  | .nan, _ => false
  | .inf true, _ => true
  | _, .inf false => true
  | .inf false, _ => false
  | _, .inf true => false
  | .finite a, .finite b => decide (a ≤ b)

/-- The number a JSON numeral writes: sign, digits, point, digits, exponent. -/
def decimal (text : String) : Option ℚ := do
  let (negative, body) := splitSign text.toList
  let whole := body.takeWhile Char.isDigit
  let rest := body.dropWhile Char.isDigit
  let (frac, rest) := match rest with
    | '.' :: tail => (tail.takeWhile Char.isDigit, tail.dropWhile Char.isDigit)
    | _ => ([], rest)
  if whole = [] then none
  else
    let e ← parseExponent rest
    let magnitude := (ofDigits (whole ++ frac) : ℚ) * 10 ^ (e - (frac.length : Int))
    some (if negative then -magnitude else magnitude)

/-- The decimal a JSON number is stored as. -/
def exact : Json → Option ℚ
  | .int n => some n
  | .float text => decimal text
  | _ => none

/-- Why a statement raises. -/
inductive SqlError
  | invalidText
  | cannotCast
  | invalidJson
  | negativeLimit
  deriving DecidableEq, Repr

/-- The casts to `numeric` that are not spelled out: of a text, unless it raises, and of a `float8`
parameter. -/
structure Casts where
  ofText : String → Option Numeric
  ofFloat : String → Numeric

/-- `%s::numeric` of a parameter; `none` is NULL. -/
def Casts.ofParameter (C : Casts) : Json → Except SqlError (Option Numeric)
  | .null => .ok none
  | .int n => .ok (some (.finite n))
  | .float text => .ok (some (C.ofFloat text))
  | .str s =>
    match C.ofText s with
    | some x => .ok (some x)
    | none => .error .invalidText
  | _ => .error .cannotCast

/-- `(data->>key)::numeric`: NULL where the key is missing or null. Only a number and a text that
writes one can be cast. -/
def Casts.ofField (C : Casts) : Option Json → Except SqlError (Option Numeric)
  | none => .ok none
  | some .null => .ok none
  | some (.str s) =>
    match C.ofText s with
    | some x => .ok (some x)
    | none => .error .invalidText
  | some value =>
    match exact value with
    | some q => .ok (some (.finite q))
    | none => .error .invalidText

/-! ## Containment -/

/-- A key of an object is looked up as in a dictionary. -/
theorem field_eq_find (key : String) : ∀ fields : List (String × Json),
    Json.field key fields = Dict.find key fields
  | [] => rfl
  | (k, value) :: fields => by
    rw [Dict.find, ← field_eq_find key fields, Json.field, List.find?_cons]
    by_cases h : k = key
    · rw [if_pos h, beq_iff_eq.mpr h]
      rfl
    · rw [if_neg h, beq_false_of_ne h]
      rfl

mutual

/-- `stored @> wanted`, by structure: of numbers the value counts, of an array the items in whatever
order and number, of an object the entries that are wanted. -/
def contains : Json → Json → Bool
  | .null, .null => true
  | .bool a, .bool b => a == b
  | .str a, .str b => a == b
  | .arr stored, .arr wanted => containsItems stored wanted
  | .obj stored, .obj wanted => containsFields stored wanted
  | a, b =>
    match exact a, exact b with
    | some x, some y => decide (x = y)
    | _, _ => false

/-- Every wanted item is contained in some stored one. -/
def containsItems (stored : List Json) : List Json → Bool
  | [] => true
  | wanted :: rest => (stored.any fun item => contains item wanted) && containsItems stored rest

/-- Every wanted key is there, with a value that contains the wanted one. -/
def containsFields (stored : List (String × Json)) : List (String × Json) → Bool
  | [] => true
  | (key, wanted) :: rest =>
    (match Json.field key stored with
      | some value => contains value wanted
      | none => false) && containsFields stored rest

end

mutual

/-- `::jsonb` takes the dump: it has no NaN and no infinity. -/
def isStandard : Json → Bool
  | .float text => (decimal text).isSome
  | .arr items => isStandardItems items
  | .obj fields => isStandardFields fields
  | _ => true

def isStandardItems : List Json → Bool
  | [] => true
  | item :: rest => isStandard item && isStandardItems rest

def isStandardFields : List (String × Json) → Bool
  | [] => true
  | (_, value) :: rest => isStandard value && isStandardFields rest

end

example : contains (.int 1) (.float "1.0") = true := by decide +kernel

end Wapsell.Postgres
