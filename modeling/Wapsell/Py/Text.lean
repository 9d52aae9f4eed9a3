import Mathlib.Data.List.Infix

/-!
# Python text

A Python `str` is a sequence of code points, and so is a Lean `String`
read through `toList`; every operation here is stated on the code points.

What CPython takes from the Unicode Character Database (case mappings,
decompositions, categories) is a parameter, `Unicode`. The algorithms over
it are written out, and none of them consults a table for an ASCII string:
`str.lower` has its own path there, which is what lets a concrete ASCII
input be evaluated at any `Unicode`.

A parameter in place of the tables makes a theorem hold of every version
of Unicode, and names what it needs of one as a hypothesis, which can be
looked up in the tables. Positions are counted in code points, as Python
counts them; a grapheme or a UTF-16 unit is nothing here.

**What this does not establish.** Lone surrogates, which a Python `str`
may hold and a `String` may not. Where one can come in (an escape in a
JSON text), the module that reads it says what becomes of it.
-/

namespace Py

/-! A statement about the characters of a list or of an option is decided over these. The instance
for a statement about all characters would be found first, and tries every code point. -/

instance decidableForallChar {p : Char → Prop} [DecidablePred p] (l : List Char) :
    Decidable (∀ c ∈ l, p c) := List.decidableBAll p l

instance decidableForallOptionChar {p : Char → Prop} [DecidablePred p] (o : Option Char) :
    Decidable (∀ c ∈ o, p c) := Option.decidableForallMem o

/-- The tables CPython generates from the Unicode Character Database. Nothing is assumed of them
here, not even that a lower-case mapping is idempotent. -/
structure Unicode where
  /-- `str.lower` on a string with a code point above U+007F. -/
  lowerNonAscii : String → String
  /-- `unicodedata.normalize("NFD", ·)`. -/
  nfd : String → String
  /-- `unicodedata.category(ch) == "Mn"`. -/
  isMn : Char → Bool
  /-- `str.isalnum` of one character outside ASCII. -/
  isAlnum : Char → Bool
  /-- `str.isprintable` of one character outside ASCII. -/
  isPrintable : Char → Bool
  /-- `unicodedata.decimal` of one character outside ASCII. -/
  decimal : Char → Option Nat

/-- Tables with nothing above U+007F: what an ASCII input is evaluated with. -/
def Unicode.ascii : Unicode where
  lowerNonAscii := id
  nfd := id
  isMn _ := false
  isAlnum _ := false
  isPrintable _ := false
  decimal _ := none

/-- `str.isascii`.

An empty text is one. -/
def isAscii (s : String) : Bool := s.toList.all fun c => decide (c.toNat < 128)

/-- `str.lower`. An ASCII text takes CPython's fast path and never asks the tables. -/
def lower (U : Unicode) (s : String) : String :=
  if isAscii s then String.ofList (s.toList.map Char.toLower) else U.lowerNonAscii s

@[simp] theorem lower_empty (U : Unicode) : lower U "" = "" := rfl

/-- `str.isspace` of one character: the code points with a bidirectional type of WS, B or S or in
category Zs. -/
def isSpace (c : Char) : Bool :=
  let n := c.toNat
  (9 ≤ n && n ≤ 13) || (28 ≤ n && n ≤ 32) || n == 0x85 || n == 0xA0 || n == 0x1680 ||
    (0x2000 ≤ n && n ≤ 0x200A) || n == 0x2028 || n == 0x2029 || n == 0x202F || n == 0x205F ||
    n == 0x3000

/-- `\w` of a Unicode pattern: alphanumeric or the underscore. -/
def isWord (U : Unicode) (c : Char) : Bool :=
  if c.toNat < 128 then c.isAlphanum || c == '_' else U.isAlnum c

/-- `str.lstrip()`. -/
def lstrip (s : String) : String := String.ofList (s.toList.dropWhile isSpace)

/-- `str.rstrip()`. -/
def rstrip (s : String) : String := String.ofList (s.toList.reverse.dropWhile isSpace).reverse

/-- `str.strip()`. White space is a property of single characters, so the order in which the two
ends are trimmed does not matter. -/
def strip (s : String) : String := rstrip (lstrip s)

@[simp] theorem strip_empty : strip "" = "" := rfl

/-- `needle in hay`.

The empty text is in every text. -/
def isSubstring (needle hay : String) : Bool := decide (needle.toList <:+: hay.toList)

/-- `s.startswith(p)`.

Every text starts with the empty one. -/
def startsWith (p s : String) : Bool := p.toList.isPrefixOf s.toList

/-- The slice `s[:n]`.

A text that is shorter is left as it is, and nothing is raised. -/
def take (n : Nat) (s : String) : String := String.ofList (s.toList.take n)

/-- The slice `s[n:]`. -/
def drop (n : Nat) (s : String) : String := String.ofList (s.toList.drop n)

/-- The index a slice bound stands for: a negative one counts from the end, and one past either end
is moved to it. -/
def sliceIndex (n : Int) (length : Nat) : Nat := (if n < 0 then length + n else n).toNat

/-- The slice `s[:n]` for any bound. -/
def sliceTo (n : Int) (s : List Char) : List Char := s.take (sliceIndex n s.length)

/-- The slice `s[n:]` for any bound. -/
def sliceFrom (n : Int) (s : List Char) : List Char := s.drop (sliceIndex n s.length)

/-- `s.replace(old, new)` for a one-character `old`.

What is put in is not searched again. -/
def replaceChar (old : Char) (new s : String) : String :=
  String.ofList (s.toList.flatMap fun c => if c = old then new.toList else [c])

/-- `s.partition(sep)` for a one-character `sep`: what is before the first one and what is after,
`none` where there is none. -/
def partitionChar (sep : Char) (s : String) : Option (String × String) :=
  match s.toList.dropWhile (· ≠ sep) with
  | [] => none
  | _ :: rest => some (String.ofList (s.toList.takeWhile (· ≠ sep)), String.ofList rest)

/-- `sep.join(parts)`. -/
def join (sep : String) (parts : List String) : String := sep.intercalate parts

/-- A number in lower-case hexadecimal, padded with zeros to `width` digits. -/
def hex (width n : Nat) : List Char :=
  let digits := Nat.toDigits 16 n
  List.replicate (width - digits.length) '0' ++ digits

/-- One character inside `repr(str)`, between quotes `q`. -/
def reprChar (U : Unicode) (q c : Char) : List Char :=
  let n := c.toNat
  if c = q || c = '\\' then ['\\', c]
  else if c = '\t' then ['\\', 't']
  else if c = '\n' then ['\\', 'n']
  else if c = '\r' then ['\\', 'r']
  else if n < 32 || n = 127 then '\\' :: 'x' :: hex 2 n
  else if n < 127 || U.isPrintable c then [c]
  else if n < 0x100 then '\\' :: 'x' :: hex 2 n
  else if n < 0x10000 then '\\' :: 'u' :: hex 4 n
  else '\\' :: 'U' :: hex 8 n

/-- `repr` of a string: single quotes, unless the text has a single quote and no double one. -/
def reprStr (U : Unicode) (s : String) : String :=
  let q := if s.toList.contains '\'' && !s.toList.contains '"' then '"' else '\''
  String.ofList (q :: s.toList.flatMap (reprChar U q) ++ [q])

/-! ## Classes as ranges -/

theorem char_eq_iff (c d : Char) : c = d ↔ c.toNat = d.toNat := Char.toNat_inj.symm

theorem isSpace_iff (c : Char) : isSpace c = true ↔ (9 ≤ c.toNat ∧ c.toNat ≤ 13) ∨
    (28 ≤ c.toNat ∧ c.toNat ≤ 32) ∨ c.toNat = 0x85 ∨ c.toNat = 0xA0 ∨ c.toNat = 0x1680 ∨
      (0x2000 ≤ c.toNat ∧ c.toNat ≤ 0x200A) ∨ c.toNat = 0x2028 ∨ c.toNat = 0x2029 ∨
        c.toNat = 0x202F ∨ c.toNat = 0x205F ∨ c.toNat = 0x3000 := by
  simp [isSpace, or_assoc]

theorem isDigit_iff (c : Char) : c.isDigit = true ↔ 48 ≤ c.toNat ∧ c.toNat ≤ 57 := by
  rw [Char.isDigit, Bool.and_eq_true, decide_eq_true_eq, decide_eq_true_eq]
  rfl

theorem isUpper_iff (c : Char) : c.isUpper = true ↔ 65 ≤ c.toNat ∧ c.toNat ≤ 90 := by
  show decide _ = true ↔ _
  rw [decide_eq_true_eq]
  rfl

theorem isLower_iff (c : Char) : c.isLower = true ↔ 97 ≤ c.toNat ∧ c.toNat ≤ 122 := by
  show (decide _ && decide _) = true ↔ _
  rw [Bool.and_eq_true, decide_eq_true_eq, decide_eq_true_eq]
  rfl

theorem isAlpha_iff (c : Char) : c.isAlpha = true ↔ c.isUpper = true ∨ c.isLower = true := by
  rw [← Bool.or_eq_true]
  rfl

theorem toNat_toLower (c : Char) :
    c.toLower.toNat = if 65 ≤ c.toNat ∧ c.toNat ≤ 90 then c.toNat + 32 else c.toNat := by
  unfold Char.toLower
  split
  next h =>
    rw [if_pos (by exact h)]
    have hle : c.val.toNat ≤ 90 := h.2
    have hadd := UInt32.toNat_add c.val ('a'.val - 'A'.val)
    rw [show ('a'.val - 'A'.val).toNat = 32 from rfl] at hadd
    show (c.val + ('a'.val - 'A'.val)).toNat = c.val.toNat + 32
    omega
  next h => rw [if_neg (by exact h)]

/-! ## Parts of a text -/

theorem takeWhile_sep {sep : Char} {a b : List Char} (h : sep ∉ a) :
    (a ++ sep :: b).takeWhile (· ≠ sep) = a := by
  rw [List.takeWhile_append_of_pos fun c hc => by simpa using ne_of_mem_of_not_mem hc h]
  simp

theorem dropWhile_sep {sep : Char} {a b : List Char} (h : sep ∉ a) :
    (a ++ sep :: b).dropWhile (· ≠ sep) = sep :: b := by
  rw [List.dropWhile_append_of_pos fun c hc => by simpa using ne_of_mem_of_not_mem hc h]
  simp

theorem infix_append_left {part : List Char} {a : String} (b : String) (h : part <:+: a.toList) :
    part <:+: (a ++ b).toList := by
  rw [String.toList_append]
  exact h.trans (List.prefix_append _ _).isInfix

theorem infix_append_right {part : List Char} (a : String) {b : String} (h : part <:+: b.toList) :
    part <:+: (a ++ b).toList := by
  rw [String.toList_append]
  exact h.trans (List.suffix_append _ _).isInfix

/-- A part is inside the joined text. -/
theorem infix_join {sep x : String} : ∀ {parts : List String}, x ∈ parts →
    x.toList <:+: (join sep parts).toList
  | [], h => by cases h
  | part :: rest, h => by
    cases rest with
    | nil =>
      cases List.mem_singleton.mp h
      rw [join, String.intercalate_singleton]
    | cons next rest =>
      rw [join, String.intercalate_cons_of_ne_nil (List.cons_ne_nil next rest),
        String.toList_append, String.toList_append]
      rcases List.mem_cons.mp h with rfl | hrest
      · exact ⟨[], sep.toList ++ (sep.intercalate (next :: rest)).toList, by simp⟩
      · exact (infix_join hrest).trans (List.suffix_append _ _).isInfix

/-- A part survives the dropping of characters in front if its own first is not dropped. -/
theorem infix_dropWhile {p : Char → Bool} {mid : List Char}
    (hhead : ∀ c, mid.head? = some c → p c = false) :
    ∀ {l : List Char}, mid <:+: l → mid <:+: l.dropWhile p
  | [], h => h
  | a :: l, h => by
    cases hp : p a with
    | false => rwa [List.dropWhile_cons_of_neg (by rw [hp]; exact Bool.false_ne_true)]
    | true =>
      rw [List.dropWhile_cons_of_pos hp]
      rcases List.infix_cons_iff.mp h with hpre | hin
      · -- a prefix that begins with a dropped character is empty
        cases mid with
        | nil => exact List.nil_infix
        | cons c mid =>
          obtain ⟨rest, hrest⟩ := hpre
          cases hrest
          rw [hhead a rfl] at hp
          cases hp
      · exact infix_dropWhile hhead hin

/-- A part that neither begins nor ends with white space survives trimming. -/
theorem infix_strip_of_ends {mid : List Char} (hhead : ∀ c, mid.head? = some c → isSpace c = false)
    (hlast : ∀ c, mid.getLast? = some c → isSpace c = false) {s : String}
    (h : mid <:+: s.toList) : mid <:+: (strip s).toList := by
  have hleft : mid <:+: (lstrip s).toList := by
    rw [lstrip, String.toList_ofList]
    exact infix_dropWhile hhead h
  rw [strip, rstrip, String.toList_ofList, ← List.reverse_infix, List.reverse_reverse]
  refine infix_dropWhile (fun c hc => hlast c ?_) (List.reverse_infix.mpr hleft)
  rwa [List.head?_reverse] at hc

/-- Text without white space survives trimming. -/
theorem infix_strip {mid : List Char} (hmid : ∀ c ∈ mid, isSpace c = false) {s : String}
    (h : mid <:+: s.toList) : mid <:+: (strip s).toList :=
  infix_strip_of_ends (fun c hc => hmid c (List.mem_of_head? hc))
    (fun c hc => hmid c (List.mem_of_getLast? hc)) h

/-- Dropping takes nothing from a list whose first is kept. -/
theorem dropWhile_of_head? {p : Char → Bool} {l : List Char}
    (h : ∀ c, l.head? = some c → p c = false) : l.dropWhile p = l := by
  cases l with
  | nil => rfl
  | cons c l => exact List.dropWhile_cons_of_neg (by rw [h c rfl]; exact Bool.false_ne_true)

section Trimmed

variable {p : Char → Bool} {l : List Char}

/-- What is left behind dropping at both ends begins with a character that is kept. -/
theorem head?_trimmed {c : Char}
    (h : ((l.dropWhile p).reverse.dropWhile p).reverse.head? = some c) : p c = false := by
  rw [List.head?_reverse] at h
  have hsuffix := List.dropWhile_suffix p (l := (l.dropWhile p).reverse)
  have hprefix := List.reverse_prefix.mpr hsuffix
  rw [List.reverse_reverse] at hprefix
  rw [← List.head?_reverse] at h
  obtain ⟨rest, hrest⟩ := hprefix
  have hhead : (l.dropWhile p).head? = some c := by
    rw [← hrest, List.head?_append, h]
    rfl
  have hnot := List.head?_dropWhile_not p l
  rw [hhead] at hnot
  simpa using hnot

/-- It ends with one. -/
theorem getLast?_trimmed {c : Char}
    (h : ((l.dropWhile p).reverse.dropWhile p).reverse.getLast? = some c) : p c = false := by
  rw [List.getLast?_reverse] at h
  have hnot := List.head?_dropWhile_not p (l.dropWhile p).reverse
  rw [h] at hnot
  simpa using hnot

/-- Nothing is left of a list but itself when both its ends are kept. -/
theorem trimmed_of_ends (hhead : ∀ c, l.head? = some c → p c = false)
    (hlast : ∀ c, l.getLast? = some c → p c = false) :
    ((l.dropWhile p).reverse.dropWhile p).reverse = l := by
  rw [dropWhile_of_head? hhead, dropWhile_of_head?, List.reverse_reverse]
  intro c hc
  rw [List.head?_reverse] at hc
  exact hlast c hc

/-- It is a part of the list. -/
theorem trimmed_isInfix : ((l.dropWhile p).reverse.dropWhile p).reverse <:+: l := by
  rw [← List.reverse_infix, List.reverse_reverse]
  refine (List.dropWhile_suffix _).isInfix.trans ?_
  exact List.reverse_infix.mpr (List.dropWhile_suffix _).isInfix

end Trimmed

/-- Trimming is dropping at both ends. -/
theorem strip_eq (s : String) :
    strip s = String.ofList ((s.toList.dropWhile isSpace).reverse.dropWhile isSpace).reverse := by
  rw [strip, rstrip, lstrip, String.toList_ofList]

/-- Trimming leaves a part of the text. -/
theorem strip_isInfix (s : String) : (strip s).toList <:+: s.toList := by
  rw [strip_eq, String.toList_ofList]
  exact trimmed_isInfix

/-- What trimming leaves begins with no white space. -/
theorem head?_strip {s : String} {c : Char} (h : (strip s).toList.head? = some c) :
    isSpace c = false := by
  rw [strip_eq, String.toList_ofList] at h
  exact head?_trimmed h

/-- What trimming leaves ends with no white space. -/
theorem getLast?_strip {s : String} {c : Char} (h : (strip s).toList.getLast? = some c) :
    isSpace c = false := by
  rw [strip_eq, String.toList_ofList] at h
  exact getLast?_trimmed h

/-- What trimming leaves is there in a longer text trimmed. -/
theorem strip_infix_strip {s t : String} (h : s.toList <:+: t.toList) :
    (strip s).toList <:+: (strip t).toList :=
  infix_strip_of_ends (fun _ => head?_strip) (fun _ => getLast?_strip) ((strip_isInfix s).trans h)

/-- Dropping stops at a character that is kept. -/
theorem dropWhile_append_stop {p : Char → Bool} {c : Char} (hc : p c = false) (a b : List Char) :
    (a ++ c :: b).dropWhile p = a.dropWhile p ++ c :: b := by
  rw [List.dropWhile_append]
  split
  · next h =>
    rw [List.isEmpty_iff.mp h, List.nil_append,
      List.dropWhile_cons_of_neg (by rw [hc]; exact Bool.false_ne_true)]
  · rfl

/-- Trimming a text takes nothing from a part that begins and ends with no white space. -/
theorem toList_strip {c d : Char} (hc : isSpace c = false) (hd : isSpace d = false)
    (front mid back : List Char) :
    (strip (String.ofList (front ++ c :: (mid ++ d :: back)))).toList =
      front.dropWhile isSpace ++ c :: (mid ++ d :: (back.reverse.dropWhile isSpace).reverse) := by
  rw [strip, lstrip, rstrip, String.toList_ofList, String.toList_ofList, String.toList_ofList,
    dropWhile_append_stop hc]
  have hreverse : (front.dropWhile isSpace ++ c :: (mid ++ d :: back)).reverse =
      back.reverse ++ d :: (front.dropWhile isSpace ++ c :: mid).reverse := by simp
  rw [hreverse, dropWhile_append_stop hd]
  simp

/-- A text that neither begins nor ends with white space is left alone. -/
theorem strip_of_ends {s : String} (hhead : ∀ c, s.toList.head? = some c → isSpace c = false)
    (hlast : ∀ c, s.toList.getLast? = some c → isSpace c = false) : strip s = s := by
  rw [strip_eq, trimmed_of_ends hhead hlast, String.ofList_toList]

/-- Trimming twice is trimming once. -/
theorem strip_strip (s : String) : strip (strip s) = strip s :=
  strip_of_ends (fun _ => head?_strip) (fun _ => getLast?_strip)

end Py
