import Mathlib.Data.Int.Basic
import Mathlib.Tactic.NormNum

/-!
# Aware UTC datetimes

The service only ever holds `datetime.now(UTC)` and shifts of it, so a
datetime is the number of microseconds since 1970-01-01T00:00:00+00:00.
Comparison is the comparison of integers. A shift past the last instant of
the year 9999 is the `OverflowError` of the standard library and answers
`none`.

An integer keeps what is asked of datetimes exact: windows, expiries and
the buckets of a chart are sums and comparisons of integers, and the
calendar comes in only where a date is written. The range is kept as a
check on each shift, because that is where the library raises, and a
pause or a window asked for by a client can leave it.

**What this does not establish.** Time zones other than UTC, leap
seconds (which the library does not have either) and naive datetimes.
-/

namespace Py

/-- Microseconds since the epoch, in UTC. -/
abbrev Datetime := Int

namespace Datetime

/-- `datetime.max` in UTC: 9999-12-31T23:59:59.999999. -/
def max : Datetime := 253402300799999999

/-- `datetime.min` in UTC: 0001-01-01T00:00:00. -/
def min : Datetime := -62135596800000000

/-- Microseconds in an hour. -/
def hour : Int := 3600000000

/-- Microseconds in a day. -/
def day : Int := 86400000000

/-- A shift, `none` when it leaves the range of `datetime`. The bound is inclusive at both ends, as
`datetime.min` and `datetime.max` are values. -/
def shift (t : Datetime) (d : Int) : Option Datetime :=
  if min ≤ t + d ∧ t + d ≤ max then some (t + d) else none

/-- `t + timedelta(hours=h)`. -/
def addHours (t : Datetime) (h : Int) : Option Datetime := shift t (h * hour)

/-- `t - timedelta(days=d)`. -/
def subDays (t : Datetime) (d : Int) : Option Datetime := shift t (-(d * day))

/-- Year, month and day of a day number counted from the epoch, by eras of 400 years that begin in
March. -/
def civil (days : Int) : Int × Int × Int :=
  let z := days + 719468
  let era := z / 146097
  let doe := z - era * 146097
  let yoe := (doe - doe / 1460 + doe / 36524 - doe / 146096) / 365
  let doy := doe - (365 * yoe + yoe / 4 - yoe / 100)
  let mp := (5 * doy + 2) / 153
  let d := doy - (153 * mp + 2) / 5 + 1
  let m := if mp < 10 then mp + 3 else mp - 9
  (yoe + era * 400 + (if m ≤ 2 then 1 else 0), m, d)

/-- A number in decimal, padded with zeros to `width` digits. -/
def pad (width : Nat) (n : Int) : String :=
  let digits := (toString n.toNat).toList
  String.ofList (List.replicate (width - digits.length) '0' ++ digits)

/-- `t.isoformat()`: the microseconds are written only when there are any. -/
def isoformat (t : Datetime) : String :=
  let (y, m, d) := civil (t / day)
  let us := t % day
  let s := us / 1000000
  let frac := us % 1000000
  pad 4 y ++ "-" ++ pad 2 m ++ "-" ++ pad 2 d ++ "T" ++ pad 2 (s / 3600) ++ ":" ++
    pad 2 (s / 60 % 60) ++ ":" ++ pad 2 (s % 60) ++
    (if frac = 0 then "" else "." ++ pad 6 frac) ++ "+00:00"

/-- What `datetime.now(UTC)` reads: an instant since the epoch. A clock set before it is left out,
so that a window of some days before now is in range. -/
def Reading : Type := { t : Datetime // 0 ≤ t ∧ t ≤ max }

/-- A month before a reading of the clock is in range. -/
theorem subDays_thirty (now : Reading) : ∃ cutoff, subDays now.1 30 = some cutoff := by
  obtain ⟨t, h0, hmax⟩ := now
  have hlow : (0 : Int) ≤ t := h0
  have hhigh : (253402300799999999 : Int) ≥ t := hmax
  refine ⟨_, if_pos ⟨?_, ?_⟩⟩
  · show (-62135596800000000 : Int) ≤ t + -(30 * 86400000000)
    omega
  · show (253402300799999999 : Int) ≥ t + -(30 * 86400000000)
    omega

example : isoformat 1781265600000000 = "2026-06-12T12:00:00+00:00" := by decide +kernel

end Datetime

end Py
