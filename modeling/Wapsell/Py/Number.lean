import Mathlib.Data.Rat.Defs
import Mathlib.Algebra.Order.Ring.Rat
import Wapsell.Py.Text

/-!
# Python numbers

A `float` is an IEEE double: not a number, an infinity, or the rational it
denotes. Every operation of the code rounds once, to nearest with ties to
even, so an operation is its exact value followed by `Double.ofRat`.

`float(text)` and `int(text)` follow CPython: surrounding white space goes,
any Unicode decimal digit counts as its value, and single underscores may
stand between digits.

Doubles are rationals with a rounding, and not a datatype of bits,
because the questions are about order and equality of rounded results:
whether two adapters compare a stored number with a bound alike, whether
a share prints as the same percentage. The sign of a zero is lost by
this; where a float is printed, its text is what is kept (`Json.float`).

**What this does not establish.** Arithmetic on doubles beyond the few
operations below. The digit limit of `int(text)` is the one that is in
force unless somebody sets another.
-/

namespace Py

/-- The exceptions the code can meet: built-in ones, and the classes of a library.

No message is kept. Where a message is shown to somebody, its exception has a type of its own. -/
inductive Exc
  | typeError
  | valueError
  | overflowError
  | attributeError
  | keyError
  | recursionError
  | library (name : String)
  deriving DecidableEq, Repr

@[simp] theorem ok_bind {α β : Type} (a : α) (f : α → Except Exc β) :
    (Except.ok a >>= f) = f a := rfl

/-- What a computation that did not raise went through. -/
theorem bind_eq_ok {α β : Type} {x : Except Exc α} {f : α → Except Exc β} {b : β} :
    (x >>= f) = .ok b ↔ ∃ a, x = .ok a ∧ f a = .ok b := by
  cases x with
  | error e => exact iff_of_false (fun h => by cases h) fun ⟨_, h, _⟩ => by cases h
  | ok a =>
    constructor
    · intro h
      exact ⟨a, rfl, h⟩
    · rintro ⟨_, ha, h⟩
      cases ha
      exact h

/-- The nearest natural number to `n / d`, the even one of two.

It is the one rounding rule; `roundMagnitude` applies it to a scaled magnitude. -/
def divRound (n d : Nat) : Nat :=
  let q := n / d
  let r := n % d
  if 2 * r < d then q else if d < 2 * r then q + 1 else if q % 2 = 0 then q else q + 1

/-- A double. A finite one is the rational it denotes, so two are equal when they are equal as
numbers. -/
inductive Double
  | nan
  | inf (negative : Bool)
  | finite (value : ℚ)
  deriving DecidableEq

namespace Double

/-- The exponent of the last place of a double near `n / d`: 53 significant bits, and never below
the subnormal step. -/
def ulpExponent (n d : Nat) : Int :=
  let k : Int := Nat.log2 n - Nat.log2 d
  let fits := if 0 ≤ k then decide (2 ^ k.toNat * d ≤ n) else decide (d ≤ 2 ^ (-k).toNat * n)
  max (-1074) ((if fits then k else k - 1) - 52)

/-- The magnitude `n / d` rounded to a double, as a rational.

The result may lie past the largest double, which `ofRat` looks at. -/
def roundMagnitude (n d : Nat) : ℚ :=
  let e := ulpExponent n d
  if 0 ≤ e then divRound n (d * 2 ^ e.toNat) * 2 ^ e.toNat
  else mkRat (divRound (n * 2 ^ (-e).toNat) d) (2 ^ (-e).toNat)

/-- The double nearest to an exact value; a magnitude that rounds to `2 ^ 1024` is an infinity. This
is the only place where anything is rounded. -/
def ofRat (q : ℚ) : Double :=
  if q = 0 then .finite 0
  else
    let m := roundMagnitude q.num.natAbs q.den
    if (2 : ℚ) ^ 1024 ≤ m then .inf (q < 0) else .finite (if q < 0 then -m else m)

/-- `a <= b`; nothing compares with a NaN. -/
def le : Double → Double → Bool
  | .nan, _ => false
  | _, .nan => false
  | .inf true, _ => true
  | _, .inf false => true
  | .inf false, _ => false
  | _, .inf true => false
  | .finite a, .finite b => decide (a ≤ b)

/-- `a == b`. -/
def eq : Double → Double → Bool
  | .nan, _ => false
  | _, .nan => false
  | .inf a, .inf b => a == b
  | .finite a, .finite b => decide (a = b)
  | _, _ => false

end Double

/-- `float(n)` of an integer: the `OverflowError` is when it rounds past the largest double. An
integer just above it still rounds down and does not raise. -/
def floatOfInt (n : Int) : Except Exc Double :=
  match Double.ofRat n with
  | .inf _ => .error .overflowError
  | d => .ok d

/-- The value of a decimal digit. -/
def digit (U : Unicode) (c : Char) : Option Nat :=
  if c.isDigit then some (c.toNat - '0'.toNat)
  else if c.toNat < 128 then none else U.decimal c

/-- A decimal digit written in ASCII, any other character as it is. -/
def asciiDigit (U : Unicode) (c : Char) : Char :=
  match digit U c with
  | some n => Char.ofNat ('0'.toNat + n)
  | none => c

/-- Underscores are dropped; each must follow a digit and be followed by one. -/
def dropUnderscores : Bool → List Char → Option (List Char)
  | _, [] => some []
  | after, c :: cs =>
    if c = '_' then
      match cs with
      | [] => none
      | c' :: _ => if after && c'.isDigit then dropUnderscores false cs else none
    else (dropUnderscores c.isDigit cs).map (c :: ·)

/-- An optional sign. -/
def splitSign : List Char → Bool × List Char
  | '-' :: cs => (true, cs)
  | '+' :: cs => (false, cs)
  | cs => (false, cs)

/-- The number a run of digits writes. -/
def ofDigits (cs : List Char) : Nat := cs.foldl (fun n c => n * 10 + (c.toNat - '0'.toNat)) 0

theorem ofDigits_eq (cs : List Char) : ofDigits cs = Nat.ofDigitChars 10 cs 0 := by
  have hstep : (fun (n : Nat) (c : Char) => n * 10 + (c.toNat - '0'.toNat)) =
      fun n c => 10 * n + (c.toNat - '0'.toNat) := by
    funext n c
    rw [Nat.mul_comm]
  rw [ofDigits, hstep]
  rfl

/-- White space around a numeral: what `str.isspace` is, except for the four separators of ASCII,
which `float` and `int` leave where they are. -/
def isNumeralSpace (c : Char) : Bool := isSpace c && !(28 ≤ c.toNat && c.toNat ≤ 31)

/-- The text `float` and `int` parse: trimmed, with ASCII digits and no underscore. -/
def numeral (U : Unicode) (s : String) : Option (List Char) :=
  let trimmed := ((s.toList.dropWhile isNumeralSpace).reverse.dropWhile isNumeralSpace).reverse
  dropUnderscores false (trimmed.map (asciiDigit U))

/-- The exponent part of a decimal numeral. -/
def parseExponent : List Char → Option Int
  | [] => some 0
  | c :: cs =>
    if c = 'e' ∨ c = 'E' then
      let (negative, digits) := splitSign cs
      if digits ≠ [] ∧ digits.all Char.isDigit then
        some (if negative then -(ofDigits digits : Int) else ofDigits digits)
      else none
    else none

/-- `mantissa * 10 ^ exponent`, rounded. Exponents far outside the range of a double are decided
without computing the power. -/
def scale (mantissa : Nat) (exponent : Int) : Double :=
  let size : Int := (Nat.toDigits 10 mantissa).length + exponent
  if mantissa = 0 ∨ size < -400 then .finite 0
  else if 400 < size then .inf false
  else if 0 ≤ exponent then Double.ofRat (mantissa * 10 ^ exponent.toNat : Nat)
  else Double.ofRat (mkRat mantissa (10 ^ (-exponent).toNat))

/-- An unsigned decimal numeral: digits, a point, digits, an exponent; one digit at least. -/
def parseUnsigned (cs : List Char) : Option Double := do
  let whole := cs.takeWhile Char.isDigit
  let rest := cs.dropWhile Char.isDigit
  let (frac, rest) := match rest with
    | '.' :: tail => (tail.takeWhile Char.isDigit, tail.dropWhile Char.isDigit)
    | _ => ([], rest)
  if whole ++ frac = [] then none
  else
    let e ← parseExponent rest
    some (scale (ofDigits (whole ++ frac)) (e - frac.length))

/-- The negative of a double. -/
def Double.neg : Double → Double
  | .nan => .nan
  | .inf negative => .inf !negative
  | .finite q => .finite (-q)

/-- `float(text)`, `none` for the `ValueError`. A numeral out of range is an infinity or zero and
does not raise, unlike an integer's conversion. -/
def parseFloat (U : Unicode) (s : String) : Option Double := do
  let cs ← numeral U s
  let (negative, body) := splitSign cs
  let word := String.ofList (body.map Char.toLower)
  let magnitude ←
    if word = "inf" ∨ word = "infinity" then some (.inf false)
    else if word = "nan" then some .nan
    else parseUnsigned body
  some (if negative then magnitude.neg else magnitude)

/-- `sys.get_int_max_str_digits()`, as it is unless it is set. -/
def INT_MAX_STR_DIGITS : Nat := 4300

/-- `int(text)`, `none` for the `ValueError`. -/
def parseInt (U : Unicode) (s : String) : Option Int := do
  let cs ← numeral U s
  let (negative, body) := splitSign cs
  if body ≠ [] ∧ body.all Char.isDigit ∧ body.length ≤ INT_MAX_STR_DIGITS then
    some (if negative then -(ofDigits body : Int) else ofDigits body)
  else none

/-- `int(x)` of a float: the part before the point. -/
def truncDouble : Double → Except Exc Int
  | .nan => .error .valueError
  | .inf _ => .error .overflowError
  | .finite q => .ok (q.num.tdiv q.den)

/-- `a / b` of two naturals. -/
def divide (a b : Nat) : Double := Double.ofRat (mkRat a b)

/-- `timedelta.total_seconds()`. -/
def totalSeconds (microseconds : Int) : Double := Double.ofRat (mkRat microseconds 1000000)

/-- `f"{x:.0%}"` of a finite value: times a hundred, rounded, then to the nearest integer. The two
roundings are kept apart, since a half can come out of the first. -/
def percent (x : Double) : String :=
  match x with
  | .nan => "nan%"
  | .inf negative => if negative then "-inf%" else "inf%"
  | .finite q =>
    match Double.ofRat (q * 100) with
    | .finite p =>
      (if p < 0 then "-" else "") ++ toString (divRound p.num.natAbs p.den) ++ "%"
    | .nan => "nan%"
    | .inf negative => if negative then "-inf%" else "inf%"

/-- The slice `xs[:limit]`; a negative limit counts from the end. -/
def upTo {α : Type*} (limit : Int) (xs : List α) : List α :=
  if 0 ≤ limit then xs.take limit.toNat else xs.take (xs.length - (-limit).toNat)

theorem map_upTo {α β : Type*} (f : α → β) (limit : Int) (xs : List α) :
    (upTo limit xs).map f = upTo limit (xs.map f) := by
  unfold upTo
  split
  · exact List.map_take
  · rw [List.map_take, List.length_map]

/-- A cut that is not at the start leaves something of a list that reaches past it. -/
theorem upTo_ne_nil {α : Type*} {limit : Int} (h : limit ≠ 0) {xs : List α}
    (hlen : limit.natAbs < xs.length) : upTo limit xs ≠ [] := by
  have htake : ∀ {n : Nat}, 0 < n → xs.take n ≠ [] := by
    intro n hn hnil
    have hzero := congrArg List.length hnil
    rw [List.length_take, List.length_nil] at hzero
    omega
  unfold upTo
  split
  · exact htake (by omega)
  · exact htake (by omega)

@[simp] theorem upTo_zero {α : Type*} (xs : List α) : upTo 0 xs = [] := rfl

@[simp] theorem upTo_nil {α : Type*} (limit : Int) : upTo limit ([] : List α) = [] := by
  unfold upTo
  split <;> exact List.take_nil

/-- A list of one element passes every positive limit. -/
theorem upTo_singleton {α : Type*} {limit : Int} (h : 0 < limit) (x : α) :
    upTo limit [x] = [x] := by
  rw [upTo, if_pos (by omega)]
  exact List.take_of_length_le (by simp only [List.length_singleton]; omega)

theorem mem_upTo {α : Type*} {limit : Int} {xs : List α} {x : α} (h : x ∈ upTo limit xs) :
    x ∈ xs := by
  unfold upTo at h
  split at h
  · exact List.mem_of_mem_take h
  · exact List.mem_of_mem_take h

end Py
