import Wapsell.Py.Datetime
import Wapsell.Py.Number

/-!
# ISO texts of datetimes

`datetime.fromisoformat`, and that it reads what `isoformat` writes. Of the
shapes it takes, the extended one with a time of day to the second is here,
with any separator, any fraction and any offset of hours and minutes; a
naive datetime is not a `Datetime`.

Whether a timestamp that was written as a text comes back whole depends
on both directions, and a loss of microseconds or of the offset would
show in neither alone. The calendar is inverted by eras of 400 years, in
which the leap days repeat: `daysOf_civil` is arithmetic on one era, and
the rest is reading numbers of fixed width.

**What this does not establish.** What `fromisoformat` makes of the
shapes that are left out (basic dates, weeks, times without seconds):
`isoformat` writes none of them.
-/

namespace Py

namespace Datetime

/-- The day number of a date, counted from the epoch: the inverse of `civil`. -/
def daysOf (y m d : Int) : Int :=
  let y' := if m ≤ 2 then y - 1 else y
  let era := y' / 400
  let yoe := y' - era * 400
  let mp := (m + 9) % 12
  let doy := (153 * mp + 2) / 5 + d - 1
  let doe := yoe * 365 + yoe / 4 - yoe / 100 + doy
  era * 146097 + doe - 719468

/-- The day of an era is a day of one of its years. -/
theorem yearOfEra_bounds {doe yoe doy : Int} (h0 : 0 ≤ doe) (h1 : doe ≤ 146096)
    (hyoe : yoe = (doe - doe / 1460 + doe / 36524 - doe / 146096) / 365)
    (hdoy : doy = doe - (365 * yoe + yoe / 4 - yoe / 100)) :
    (0 ≤ yoe ∧ yoe ≤ 399) ∧ 0 ≤ doy ∧ doy ≤ 365 := by
  obtain hlast | hlt : doe = 146096 ∨ doe < 146096 := by omega
  · subst hlast
    omega
  · -- century `c`, four-year cycle `q` of it, year `u` of that
    obtain ⟨c, r, hdoe, hc, hr⟩ :
        ∃ c r : Int, doe = 36524 * c + r ∧ (0 ≤ c ∧ c ≤ 3) ∧ 0 ≤ r ∧ r < 36524 :=
      ⟨doe / 36524, doe % 36524, by omega, by omega, by omega⟩
    obtain ⟨q, s, hqs, hs⟩ : ∃ q s : Int, r = 1461 * q + s ∧ 0 ≤ s ∧ s < 1461 :=
      ⟨r / 1461, r % 1461, by omega, by omega⟩
    obtain ⟨u, hu, hsplit⟩ : ∃ u : Int, u = (s - (24 * c + q + s) / 1460) / 365 ∧
        yoe = 100 * c + 4 * q + u := ⟨_, rfl, by omega⟩
    have hubound : 0 ≤ u ∧ u ≤ 3 := by
      clear hsplit hyoe hdoy
      omega
    have hfour : yoe / 4 = 25 * c + q := by
      clear hyoe hdoy hu
      omega
    have hcentury : yoe / 100 = c := by
      clear hyoe hdoy hu
      omega
    rw [hfour, hcentury] at hdoy
    clear hyoe hfour hcentury
    omega

/-- The date of a day number: era, year of the era and day of the year, then the month counted from
March. -/
theorem civil_eq (days : Int) : ∃ era yoe doy mp : Int,
    days + 719468 = era * 146097 + (yoe * 365 + yoe / 4 - yoe / 100 + doy) ∧
    era = (days + 719468) / 146097 ∧ (0 ≤ yoe ∧ yoe ≤ 399) ∧ (0 ≤ doy ∧ doy ≤ 365) ∧
    mp = (5 * doy + 2) / 153 ∧
    civil days =
      if mp < 10 then (yoe + era * 400, mp + 3, doy - (153 * mp + 2) / 5 + 1)
      else (yoe + era * 400 + 1, mp - 9, doy - (153 * mp + 2) / 5 + 1) := by
  obtain ⟨era, hera⟩ : ∃ era, era = (days + 719468) / 146097 := ⟨_, rfl⟩
  obtain ⟨doe, hdoe⟩ : ∃ doe, doe = days + 719468 - era * 146097 := ⟨_, rfl⟩
  obtain ⟨yoe, hyoe⟩ : ∃ yoe, yoe = (doe - doe / 1460 + doe / 36524 - doe / 146096) / 365 :=
    ⟨_, rfl⟩
  obtain ⟨doy, hdoy⟩ : ∃ doy, doy = doe - (365 * yoe + yoe / 4 - yoe / 100) := ⟨_, rfl⟩
  obtain ⟨mp, hmp⟩ : ∃ mp, mp = (5 * doy + 2) / 153 := ⟨_, rfl⟩
  have hbounds := yearOfEra_bounds (by omega) (by omega) hyoe hdoy
  refine ⟨era, yoe, doy, mp, by omega, hera, hbounds.1, hbounds.2, hmp, ?_⟩
  have hcivil : civil days = (yoe + era * 400 + (if (if mp < 10 then mp + 3 else mp - 9) ≤ 2
      then 1 else 0), if mp < 10 then mp + 3 else mp - 9, doy - (153 * mp + 2) / 5 + 1) := by
    subst hmp hdoy hyoe hdoe hera
    rfl
  rw [hcivil]
  split
  · rw [if_neg (by omega), Int.add_zero]
  · rw [if_pos (by omega)]

/-- The date of a day number is a date of that day. -/
theorem daysOf_civil (days : Int) :
    daysOf (civil days).1 (civil days).2.1 (civil days).2.2 = days := by
  obtain ⟨era, yoe, doy, mp, hdays, -, hyoe, hdoy, hmp, hcivil⟩ := civil_eq days
  rw [hcivil]
  unfold daysOf
  split
  · dsimp only
    rw [if_neg (by omega), show (yoe + era * 400) / 400 = era by omega,
      show (mp + 3 + 9) % 12 = mp by omega, Int.add_sub_cancel]
    omega
  · dsimp only
    rw [if_pos (by omega), Int.add_sub_cancel, show (yoe + era * 400) / 400 = era by omega,
      show (mp - 9 + 9) % 12 = mp by omega, Int.add_sub_cancel]
    omega

/-- The dates of the years 1 to 9999. -/
theorem civil_bounds {days : Int} (hmin : -719162 ≤ days) (hmax : days ≤ 2932896) :
    (1 ≤ (civil days).1 ∧ (civil days).1 ≤ 9999) ∧
      (1 ≤ (civil days).2.1 ∧ (civil days).2.1 ≤ 12) ∧
      (1 ≤ (civil days).2.2 ∧ (civil days).2.2 ≤ 31) := by
  obtain ⟨era, yoe, doy, mp, hdays, hera, hyoe, hdoy, hmp, hcivil⟩ := civil_eq days
  rw [hcivil]
  split
  · dsimp only
    omega
  · dsimp only
    omega

/-! ## Reading -/

/-- `n` digits. -/
def digitsN (n : Nat) (cs : List Char) : Option (Nat × List Char) :=
  let ds := cs.take n
  if ds.length = n ∧ ds.all Char.isDigit then some (ofDigits ds, cs.drop n) else none

/-- One character that must be there. -/
def skipChar (c : Char) : List Char → Option (List Char)
  | [] => none
  | x :: rest => if x = c then some rest else none

/-- The fraction of a second in microseconds, if there is one: six digits of it count. -/
def fraction : List Char → Option (Nat × List Char)
  | [] => some (0, [])
  | c :: rest =>
    if c = '.' ∨ c = ',' then
      let ds := rest.takeWhile Char.isDigit
      if ds = [] then none
      else some (ofDigits ((ds ++ List.replicate 6 '0').take 6), rest.dropWhile Char.isDigit)
    else some (0, c :: rest)

/-- The offset from UTC that ends the text. -/
def utcOffset : List Char → Option Int
  | [] => none
  | c :: rest =>
    if c = 'Z' then (if rest = [] then some 0 else none)
    else if c = '+' ∨ c = '-' then do
      let (h, cs) ← digitsN 2 rest
      let cs ← skipChar ':' cs
      let (m, cs) ← digitsN 2 cs
      let shift : Int := (h * 60 + m) * 60000000
      if cs = [] ∧ h < 24 ∧ m < 60 then some (if c = '-' then -shift else shift) else none
    else none

/-- `YYYY-MM-DD`, as a day number. -/
def readDate (cs : List Char) : Option (Int × List Char) := do
  let (y, cs) ← digitsN 4 cs
  let cs ← skipChar '-' cs
  let (m, cs) ← digitsN 2 cs
  let cs ← skipChar '-' cs
  let (d, cs) ← digitsN 2 cs
  if 1 ≤ y ∧ civil (daysOf y m d) = (↑y, ↑m, ↑d) then some (daysOf y m d, cs) else none

/-- `HH:MM:SS`, in seconds. -/
def readTime (cs : List Char) : Option (Int × List Char) := do
  let (hh, cs) ← digitsN 2 cs
  let cs ← skipChar ':' cs
  let (mi, cs) ← digitsN 2 cs
  let cs ← skipChar ':' cs
  let (ss, cs) ← digitsN 2 cs
  if hh < 24 ∧ mi < 60 ∧ ss < 60 then some (hh * 3600 + mi * 60 + ss, cs) else none

/-- `datetime.fromisoformat(s)`, `none` for the `ValueError`. -/
def fromisoformat (s : String) : Option Datetime := do
  let (days, cs) ← readDate s.toList
  let (seconds, cs) ← readTime (cs.drop 1)
  let (us, cs) ← fraction cs
  let offset ← utcOffset cs
  some (days * day + seconds * 1000000 + us - offset)

/-- A padded number is as wide as it says, all digits, and the number. -/
theorem pad_spec {w : Nat} {n : Int} (hw : 0 < w) (h0 : 0 ≤ n) (hn : n < 10 ^ w) :
    (pad w n).toList.length = w ∧ (pad w n).toList.all Char.isDigit = true ∧
      (ofDigits (pad w n).toList : Int) = n := by
  have hdigits : (toString n.toNat).toList = Nat.toDigits 10 n.toNat := by
    rw [Nat.toString_eq_repr, Nat.toList_repr]
  have hlt : n.toNat < 10 ^ w := by
    have hcast : (n.toNat : Int) < ((10 ^ w : Nat) : Int) := by
      rw [Int.toNat_of_nonneg h0]
      exact_mod_cast hn
    exact_mod_cast hcast
  have hlen := (Nat.length_toDigits_le_iff (n := n.toNat) (by decide : 1 < 10) hw).mpr hlt
  unfold pad
  dsimp only
  rw [String.toList_ofList, hdigits]
  refine ⟨?_, ?_, ?_⟩
  · rw [List.length_append, List.length_replicate]
    omega
  · rw [List.all_append, Bool.and_eq_true]
    refine ⟨?_, ?_⟩
    · exact List.all_eq_true.mpr fun c hc => by rw [List.eq_of_mem_replicate hc]; rfl
    · exact List.all_eq_true.mpr fun c hc =>
        Nat.isDigit_of_mem_toDigits (by decide) (by decide) hc
  · rw [ofDigits_eq, Nat.ofDigitChars_append, Nat.ofDigitChars_replicate_zero, Nat.mul_zero,
      Nat.ofDigitChars_ten_toDigits, Int.toNat_of_nonneg h0]

theorem digitsN_pad {w : Nat} {n : Int} (hw : 0 < w) (h0 : 0 ≤ n) (hn : n < 10 ^ w)
    (rest : List Char) : digitsN w ((pad w n).toList ++ rest) = some (n.toNat, rest) := by
  obtain ⟨hlen, hall, hval⟩ := pad_spec hw h0 hn
  have hnat : ofDigits (pad w n).toList = n.toNat := by omega
  unfold digitsN
  dsimp only
  rw [List.take_left' hlen, List.drop_left' hlen, if_pos ⟨hlen, hall⟩, hnat]

@[simp] theorem skipChar_cons (c : Char) (rest : List Char) :
    skipChar c (c :: rest) = some rest := if_pos rfl

/-- The fraction that `isoformat` writes, if any, and then the offset. -/
theorem fraction_pad {us : Int} (h0 : 0 ≤ us) (h1 : us < 1000000) :
    fraction ((if us = 0 then "" else "." ++ pad 6 us).toList ++ "+00:00".toList) =
      some (us.toNat, "+00:00".toList) := by
  split
  next hzero =>
    subst hzero
    rfl
  next hne =>
    obtain ⟨hlen, hall, hval⟩ := pad_spec (w := 6) (by decide) h0 h1
    have hrun : ((pad 6 us).toList ++ "+00:00".toList).takeWhile Char.isDigit =
        (pad 6 us).toList := by
      rw [List.takeWhile_append_of_pos fun c hc => List.all_eq_true.mp hall c hc]
      exact List.append_nil _
    have hrest : ((pad 6 us).toList ++ "+00:00".toList).dropWhile Char.isDigit =
        "+00:00".toList := by
      rw [List.dropWhile_append_of_pos fun c hc => List.all_eq_true.mp hall c hc]
      rfl
    have hsome : (pad 6 us).toList ≠ [] := by
      intro hnil
      rw [hnil] at hlen
      cases hlen
    have hnat : ofDigits (pad 6 us).toList = us.toNat := by omega
    have hdot : ".".toList = ['.'] := rfl
    rw [String.toList_append, hdot, List.append_assoc, List.singleton_append, fraction]
    dsimp only
    rw [if_pos (Or.inl rfl), hrun, hrest, if_neg hsome, List.take_left' hlen, hnat]

theorem readDate_civil {days : Int} (hmin : -719162 ≤ days) (hmax : days ≤ 2932896)
    (rest : List Char) :
    readDate ((pad 4 (civil days).1).toList ++ '-' :: ((pad 2 (civil days).2.1).toList ++ '-' ::
      ((pad 2 (civil days).2.2).toList ++ rest))) = some (days, rest) := by
  have hdate := daysOf_civil days
  obtain ⟨hy, hm, hd⟩ := civil_bounds hmin hmax
  obtain ⟨y, m, d, hcivil⟩ : ∃ y m d, civil days = (y, m, d) := ⟨_, _, _, rfl⟩
  rw [hcivil] at hy hm hd hdate ⊢
  dsimp only at hy hm hd hdate ⊢
  unfold readDate
  rw [digitsN_pad (by decide) (by omega) (by omega)]
  dsimp only [Option.bind_eq_bind, Option.bind_some]
  rw [skipChar_cons]
  dsimp only [Option.bind_some]
  rw [digitsN_pad (by decide) (by omega) (by omega)]
  dsimp only [Option.bind_some]
  rw [skipChar_cons]
  dsimp only [Option.bind_some]
  rw [digitsN_pad (by decide) (by omega) (by omega)]
  dsimp only [Option.bind_some]
  rw [Int.toNat_of_nonneg (by omega), Int.toNat_of_nonneg (by omega),
    Int.toNat_of_nonneg (by omega), hdate, hcivil]
  exact if_pos ⟨by omega, rfl⟩

theorem readTime_pad {hh mi ss : Int} (hhh : 0 ≤ hh ∧ hh < 24) (hmi : 0 ≤ mi ∧ mi < 60)
    (hss : 0 ≤ ss ∧ ss < 60) (rest : List Char) :
    readTime ((pad 2 hh).toList ++ ':' :: ((pad 2 mi).toList ++ ':' ::
      ((pad 2 ss).toList ++ rest))) = some (hh * 3600 + mi * 60 + ss, rest) := by
  unfold readTime
  rw [digitsN_pad (by decide) (by omega) (by omega)]
  dsimp only [Option.bind_eq_bind, Option.bind_some]
  rw [skipChar_cons]
  dsimp only [Option.bind_some]
  rw [digitsN_pad (by decide) (by omega) (by omega)]
  dsimp only [Option.bind_some]
  rw [skipChar_cons]
  dsimp only [Option.bind_some]
  rw [digitsN_pad (by decide) (by omega) (by omega)]
  dsimp only [Option.bind_some]
  rw [Int.toNat_of_nonneg (by omega), Int.toNat_of_nonneg (by omega),
    Int.toNat_of_nonneg (by omega)]
  exact if_pos ⟨by omega, by omega, by omega⟩

/-- **`fromisoformat` reads what `isoformat` writes**, for every instant in the range of `datetime`,
with and without microseconds.

The reader takes many forms besides; that they are read as documented is not stated here. -/
theorem fromisoformat_isoformat {t : Datetime} (hmin : min ≤ t) (hmax : t ≤ max) :
    fromisoformat t.isoformat = some t := by
  have hlow : (-62135596800000000 : Int) ≤ t := hmin
  have hhigh : (253402300799999999 : Int) ≥ t := hmax
  obtain ⟨days, hdays⟩ : ∃ days : Int, days = t / 86400000000 := ⟨_, rfl⟩
  obtain ⟨us, hus⟩ : ∃ us : Int, us = t % 86400000000 := ⟨_, rfl⟩
  have hdash : "-".toList = ['-'] := rfl
  have hcolon : ":".toList = [':'] := rfl
  have hT : "T".toList = ['T'] := rfl
  have htext : t.isoformat.toList = (pad 4 (civil days).1).toList ++ '-' ::
      ((pad 2 (civil days).2.1).toList ++ '-' :: ((pad 2 (civil days).2.2).toList ++ 'T' ::
      ((pad 2 (us / 1000000 / 3600)).toList ++ ':' :: ((pad 2 (us / 1000000 / 60 % 60)).toList ++
      ':' :: ((pad 2 (us / 1000000 % 60)).toList ++
      ((if us % 1000000 = 0 then "" else "." ++ pad 6 (us % 1000000)).toList ++
        "+00:00".toList)))))) := by
    unfold isoformat day
    rw [← hdays, ← hus]
    simp only [String.toList_append, List.append_assoc, hdash, hcolon, hT, List.cons_append,
      List.nil_append]
  have hoffset : utcOffset "+00:00".toList = some 0 := by decide
  unfold fromisoformat
  rw [htext, readDate_civil (by omega) (by omega)]
  dsimp only [Option.bind_eq_bind, Option.bind_some]
  rw [List.drop_one, List.tail_cons, readTime_pad (by omega) (by omega) (by omega)]
  dsimp only [Option.bind_some]
  rw [fraction_pad (by omega) (by omega)]
  dsimp only [Option.bind_some]
  rw [hoffset]
  dsimp only [Option.bind_some]
  have hsum : days * 86400000000 + (us / 1000000 / 3600 * 3600 + us / 1000000 / 60 % 60 * 60 +
      us / 1000000 % 60) * 1000000 + ↑(us % 1000000).toNat - 0 = t := by omega
  exact congrArg some hsum

end Datetime

end Py
