import Mathlib.Data.List.TakeWhile
import Wapsell.Py.Text

/-!
# Base64

`base64.urlsafe_b64encode`, and the decoder as `binascii.a2b_base64` runs
when it is not strict: characters outside the alphabet are skipped, and a
pad that completes a quad ends the input. Whatever was encoded is read back,
also where the padding was taken off and put on again.

The decoder is written out as the loop it is, with the bits left over
from character to character, because its tolerance is what a text that
was tampered with meets: characters it skips make two different texts
decode to the same bytes. That the encoder's own texts come back is then
a fact about the loop, and the proof follows it quad by quad.

**What this does not establish.** That decoding is injective; it is not.
-/

namespace Py

/-! ## Texts as bytes -/

/-- `str.encode("utf-8")`. -/
def encodeUtf8 (text : String) : List UInt8 := text.toUTF8.data.toList

/-- `bytes.decode("utf-8")`, nothing where it raises `UnicodeDecodeError`. Lean's strings are
sequences of scalar values, as the strings are that decoding can give. -/
def decodeUtf8 (bytes : List UInt8) : Option String := String.fromUTF8? ⟨bytes.toArray⟩

/-- An encoding is read back. -/
@[simp] theorem decodeUtf8_encodeUtf8 (text : String) : decodeUtf8 (encodeUtf8 text) = some text := by
  have hbytes : (⟨(encodeUtf8 text).toArray⟩ : ByteArray) = text.toByteArray := by
    rw [encodeUtf8, Array.toArray_toList]
    rfl
  rw [decodeUtf8, hbytes, String.fromUTF8?, dif_pos text.isValidUTF8]
  rfl

/-! ## The alphabet -/

/-- The character of a six-bit group. -/
def base64Char (n : Nat) : Char :=
  if n < 26 then Char.ofNat (65 + n)
  else if n < 52 then Char.ofNat (97 + (n - 26))
  else if n < 62 then Char.ofNat (48 + (n - 52))
  else if n = 62 then '+' else '/'

/-- `table_a2b_base64`. -/
def base64Value (c : Char) : Option Nat :=
  let n := c.toNat
  if 65 ≤ n ∧ n ≤ 90 then some (n - 65)
  else if 97 ≤ n ∧ n ≤ 122 then some (n - 97 + 26)
  else if 48 ≤ n ∧ n ≤ 57 then some (n - 48 + 52)
  else if c = '+' then some 62
  else if c = '/' then some 63
  else none

/-- `_urlsafe_encode_translation`. -/
def toUrlsafe (c : Char) : Char := if c = '+' then '-' else if c = '/' then '_' else c

/-- `_urlsafe_decode_translation`. -/
def fromUrlsafe (c : Char) : Char := if c = '-' then '+' else if c = '_' then '/' else c

theorem base64_group : ∀ n < 64, base64Value (base64Char n) = some n ∧ base64Char n ≠ '=' ∧
    fromUrlsafe (toUrlsafe (base64Char n)) = base64Char n ∧ toUrlsafe (base64Char n) ≠ '=' ∧
      (toUrlsafe (base64Char n)).toNat < 128 := by
  decide

/-! ## Encoding -/

/-- Three bytes in four groups, without the padding. -/
def base64Groups : List UInt8 → List Nat
  | [] => []
  | [a] => [a.toNat / 4, a.toNat % 4 * 16]
  | [a, b] => [a.toNat / 4, a.toNat % 4 * 16 + b.toNat / 16, b.toNat % 16 * 4]
  | a :: b :: c :: rest =>
    a.toNat / 4 :: (a.toNat % 4 * 16 + b.toNat / 16) :: (b.toNat % 16 * 4 + c.toNat / 64) ::
      c.toNat % 64 :: base64Groups rest

/-- How many pads complete the last quad. -/
def missingPads (length : Nat) : Nat := (-(length : Int) % 4).toNat

/-- `binascii.b2a_base64`. -/
def b2aBase64 (bytes : List UInt8) : List Char :=
  let chars := (base64Groups bytes).map base64Char
  chars ++ List.replicate (missingPads chars.length) '='

/-- `urlsafe_b64encode`. -/
def urlsafeB64encode (bytes : List UInt8) : List Char := (b2aBase64 bytes).map toUrlsafe

/-! ## Decoding -/

/-- `binascii.Error`, a `ValueError`, of the decoder. -/
inductive Base64Error
  | nonAscii
  | extraCharacter
  | incorrectPadding
  deriving DecidableEq, Repr

/-- The loop of `a2b_base64`: the place in the quad, the bits left over, and the pads seen. A pad in
the first two places of a quad is skipped like any other character outside the alphabet. -/
def a2bFrom (quadPos leftchar pads : Nat) : List Char → Except Base64Error (List UInt8)
  | [] =>
    if quadPos = 0 then .ok []
    else if quadPos = 1 then .error .extraCharacter
    else .error .incorrectPadding
  | ch :: rest =>
    if ch = '=' then
      -- a pad sequence that completes the quad: no more input is parsed
      if 2 ≤ quadPos ∧ 4 ≤ quadPos + (pads + 1) then .ok []
      else a2bFrom quadPos leftchar (if 2 ≤ quadPos then pads + 1 else pads) rest
    else match base64Value ch with
      | none => a2bFrom quadPos leftchar pads rest
      | some v =>
        if quadPos = 0 then a2bFrom 1 v 0 rest
        else if quadPos = 1 then
          (a2bFrom 2 (v % 16) 0 rest).map (UInt8.ofNat (leftchar * 4 + v / 16) :: ·)
        else if quadPos = 2 then
          (a2bFrom 3 (v % 4) 0 rest).map (UInt8.ofNat (leftchar * 16 + v / 4) :: ·)
        else (a2bFrom 0 0 0 rest).map (UInt8.ofNat (leftchar * 64 + v) :: ·)

/-- `urlsafe_b64decode` of a `str`: one that is not ASCII raises `ValueError`. -/
def urlsafeB64decode (text : String) : Except Base64Error (List UInt8) :=
  if isAscii text then
    a2bFrom 0 0 0 (text.toList.map fromUrlsafe)
  else .error .nonAscii

/-! ## The round trip -/

theorem base64Groups_lt : ∀ bytes : List UInt8, ∀ n ∈ base64Groups bytes, n < 64
  | [], n, h => by cases h
  | [a], n, h => by
    have ha := a.toNat_lt
    simp only [base64Groups, List.mem_cons, List.not_mem_nil, or_false] at h
    omega
  | [a, b], n, h => by
    have ha := a.toNat_lt
    have hb := b.toNat_lt
    simp only [base64Groups, List.mem_cons, List.not_mem_nil, or_false] at h
    omega
  | a :: b :: c :: rest, n, h => by
    have ha := a.toNat_lt
    have hb := b.toNat_lt
    have hc := c.toNat_lt
    simp only [base64Groups, List.mem_cons] at h
    rcases h with h | h | h | h | h
    · omega
    · omega
    · omega
    · omega
    · exact base64Groups_lt rest n h

theorem a2bFrom_group {n : Nat} (hn : n < 64) (quadPos leftchar pads : Nat) (rest : List Char) :
    a2bFrom quadPos leftchar pads (base64Char n :: rest) =
      if quadPos = 0 then a2bFrom 1 n 0 rest
      else if quadPos = 1 then
        (a2bFrom 2 (n % 16) 0 rest).map (UInt8.ofNat (leftchar * 4 + n / 16) :: ·)
      else if quadPos = 2 then
        (a2bFrom 3 (n % 4) 0 rest).map (UInt8.ofNat (leftchar * 16 + n / 4) :: ·)
      else (a2bFrom 0 0 0 rest).map (UInt8.ofNat (leftchar * 64 + n) :: ·) := by
  obtain ⟨hvalue, hpad, -⟩ := base64_group n hn
  rw [a2bFrom, if_neg hpad, hvalue]

theorem missingPads_add_four (n : Nat) : missingPads (n + 4) = missingPads n := by
  unfold missingPads
  omega

theorem ofNat_eq {n : Nat} {a : UInt8} (h : n = a.toNat) : UInt8.ofNat n = a := by
  rw [h, UInt8.ofNat_toNat]

/-- The groups of the bytes, and the pads, are read back. -/
theorem a2bFrom_b2aBase64 : ∀ (bytes : List UInt8) (leftchar pads : Nat),
    a2bFrom 0 leftchar pads (b2aBase64 bytes) = .ok bytes
  | [], _, _ => rfl
  | [a], _, _ => by
    have ha := a.toNat_lt
    have hpads : a2bFrom 2 (a.toNat % 4 * 16 % 16) 0 ['=', '='] = .ok [] := rfl
    show a2bFrom 0 _ _ [base64Char _, base64Char _, '=', '='] = _
    rw [a2bFrom_group (by omega), if_pos rfl, a2bFrom_group (by omega), if_neg Nat.one_ne_zero,
      if_pos rfl, hpads, Except.map, ofNat_eq (a := a) (by omega)]
  | [a, b], _, _ => by
    have ha := a.toNat_lt
    have hb := b.toNat_lt
    have hpads : a2bFrom 3 (b.toNat % 16 * 4 % 4) 0 ['='] = .ok [] := rfl
    show a2bFrom 0 _ _ [base64Char _, base64Char _, base64Char _, '='] = _
    rw [a2bFrom_group (by omega), if_pos rfl, a2bFrom_group (by omega), if_neg Nat.one_ne_zero,
      if_pos rfl, a2bFrom_group (by omega), if_neg (by decide), if_neg (by decide), if_pos rfl, hpads,
      Except.map, Except.map, ofNat_eq (a := a) (by omega), ofNat_eq (a := b) (by omega)]
  | a :: b :: c :: rest, leftchar, pads => by
    have ha := a.toNat_lt
    have hb := b.toNat_lt
    have hc := c.toNat_lt
    have hsplit : b2aBase64 (a :: b :: c :: rest) =
        base64Char (a.toNat / 4) :: base64Char (a.toNat % 4 * 16 + b.toNat / 16) ::
          base64Char (b.toNat % 16 * 4 + c.toNat / 64) :: base64Char (c.toNat % 64) ::
            b2aBase64 rest := by
      simp only [b2aBase64, base64Groups, List.map_cons, List.length_cons, List.cons_append,
        missingPads_add_four]
    rw [hsplit, a2bFrom_group (by omega), if_pos rfl, a2bFrom_group (by omega),
      if_neg Nat.one_ne_zero, if_pos rfl, a2bFrom_group (by omega), if_neg (by decide),
      if_neg (by decide), if_pos rfl, a2bFrom_group (by omega), if_neg (by decide),
      if_neg (by decide), if_neg (by decide), a2bFrom_b2aBase64 rest, Except.map, Except.map,
      Except.map, ofNat_eq (a := a) (by omega), ofNat_eq (a := b) (by omega),
      ofNat_eq (a := c) (by omega)]

/-- The text without its padding. -/
def base64Unpadded (bytes : List UInt8) : List Char :=
  (base64Groups bytes).map fun n => toUrlsafe (base64Char n)

theorem urlsafeB64encode_eq (bytes : List UInt8) : urlsafeB64encode bytes =
    base64Unpadded bytes ++ List.replicate (missingPads (base64Unpadded bytes).length) '=' := by
  have hpad : toUrlsafe '=' = '=' := rfl
  rw [urlsafeB64encode, b2aBase64, List.map_append, List.map_map, List.map_replicate, hpad,
    base64Unpadded, List.length_map, List.length_map]
  rfl

theorem mem_base64Unpadded {bytes : List UInt8} {c : Char} (h : c ∈ base64Unpadded bytes) :
    c ≠ '=' ∧ c.toNat < 128 := by
  obtain ⟨n, hn, rfl⟩ := List.mem_map.mp h
  obtain ⟨-, -, -, hpad, hascii⟩ := base64_group n (base64Groups_lt bytes n hn)
  exact ⟨hpad, hascii⟩

/-- `rstrip("=")` takes the padding and nothing else. -/
theorem dropWhile_urlsafeB64encode (bytes : List UInt8) :
    ((urlsafeB64encode bytes).reverse.dropWhile fun c => c = '=').reverse = base64Unpadded bytes := by
  rw [urlsafeB64encode_eq, List.reverse_append, List.reverse_replicate,
    List.dropWhile_append_of_pos fun c hc => by simp [List.eq_of_mem_replicate hc]]
  have hkeep : (base64Unpadded bytes).reverse.dropWhile (fun c => c = '=') =
      (base64Unpadded bytes).reverse := by
    rw [List.dropWhile_eq_self_iff]
    intro hlength hpad
    have hmem := List.mem_reverse.mp (List.getElem_mem hlength)
    exact (mem_base64Unpadded hmem).1 (of_decide_eq_true hpad)
  rw [hkeep, List.reverse_reverse]

/-- **The round trip**, of the text with its padding. Every character of it is in the alphabet or a
pad, so the tolerance of the decoder plays no part.

The decoder drops what is outside its alphabet, as Python's does, so in the other order the two are
no identity. -/
theorem urlsafeB64decode_encode (bytes : List UInt8) :
    urlsafeB64decode (String.ofList (urlsafeB64encode bytes)) = .ok bytes := by
  have hascii : (urlsafeB64encode bytes).all (fun c => decide (c.toNat < 128)) = true := by
    rw [List.all_eq_true, urlsafeB64encode_eq]
    intro c hc
    rcases List.mem_append.mp hc with hc | hc
    · exact decide_eq_true (mem_base64Unpadded hc).2
    · rw [List.eq_of_mem_replicate hc]
      rfl
  have hback : (urlsafeB64encode bytes).map fromUrlsafe = b2aBase64 bytes := by
    rw [urlsafeB64encode, List.map_map]
    conv_rhs => rw [← List.map_id (b2aBase64 bytes)]
    refine List.map_congr_left fun c hc => ?_
    rcases List.mem_append.mp hc with hc | hc
    · obtain ⟨n, hn, rfl⟩ := List.mem_map.mp hc
      exact (base64_group n (base64Groups_lt bytes n hn)).2.2.1
    · rw [List.eq_of_mem_replicate hc]
      rfl
  rw [urlsafeB64decode, isAscii, String.toList_ofList, if_pos hascii, hback, a2bFrom_b2aBase64]

end Py
