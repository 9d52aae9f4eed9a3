import Mathlib.Data.List.Nodup
import Mathlib.Data.List.Zip

/-!
# Records written and read by lists of columns

A record has a value for every column. Writing a list of columns with a
list of values replaces those and leaves the rest; reading a list of
columns gives their values in its order. Writer and reader each keep a list
of their own, and the laws below say when the two agree.

The two lists are what an adapter for a table consists of: one tuple of
columns in its INSERT or UPDATE, another in its SELECT, and values
matched to either by position only. A column that one of them misses, or
two that stand the other way round, are then visible as a failure of the
premises below: the written columns have to be distinct and as many as
the values, and what is read beyond them has to be in place already.
-/

namespace Lib

/-- A value for every column. -/
abbrev Record (κ ν : Type*) := κ → ν

namespace Record

variable {κ ν : Type*} [DecidableEq κ]

/-- The record with the columns set to the values, by position. -/
def write (record : Record κ ν) (columns : List κ) (values : List ν) : Record κ ν :=
  fun c => ((columns.zip values).lookup c).getD (record c)

/-- The values of the columns, in their order. -/
def read (record : Record κ ν) (columns : List κ) : List ν := columns.map record

theorem write_cons (record : Record κ ν) (c k : κ) (columns : List κ) (v : ν) (values : List ν) :
    record.write (k :: columns) (v :: values) c =
      if c = k then v else record.write columns values c := by
  unfold write
  rw [List.zip_cons_cons, List.lookup_cons]
  by_cases h : c = k
  · rw [if_pos h, beq_iff_eq.mpr h]
    rfl
  · rw [if_neg h, beq_false_of_ne h]

/-- What was written is read in the order it was written in. Both premises are needed: a column that
is listed twice keeps its first value, and a value too few leaves a column as it was. -/
theorem read_write (record : Record κ ν) : ∀ {columns : List κ} {values : List ν},
    columns.Nodup → columns.length = values.length →
    (record.write columns values).read columns = values
  | [], [], _, _ => rfl
  | k :: columns, v :: values, hnodup, hlen => by
    obtain ⟨hk, hnodup⟩ := List.nodup_cons.mp hnodup
    have ih := read_write record hnodup (Nat.succ.inj hlen)
    have hrest : (record.write (k :: columns) (v :: values)).read columns =
        (record.write columns values).read columns := by
      apply List.map_congr_left
      intro c hc
      rw [write_cons, if_neg fun h => hk (by rw [← h]; exact hc)]
    rw [read, List.map_cons, write_cons, if_pos rfl]
    exact congrArg (v :: ·) (hrest.trans ih)

/-- Writing what another record has in the columns takes them over from it. -/
theorem write_read (record target : Record κ ν) (c : κ) : ∀ columns : List κ,
    record.write columns (target.read columns) c = if c ∈ columns then target c else record c
  | [] => rfl
  | k :: columns => by
    rw [read, List.map_cons, write_cons]
    by_cases h : c = k
    · rw [if_pos h, if_pos (List.mem_cons.mpr (.inl h)), h]
    · rw [if_neg h]
      have ih := write_read record target c columns
      rw [read] at ih
      rw [ih]
      simp only [List.mem_cons, h, false_or]

/-- A record brought to another one in some columns, and like it in the others, reads like it. This
is the law for an UPDATE: the columns it leaves out are the ones that have to agree beforehand. -/
theorem read_write_read {record target : Record κ ν} {columns written : List κ}
    (h : ∀ c ∈ columns, c ∉ written → record c = target c) :
    (record.write written (target.read written)).read columns = target.read columns := by
  apply List.map_congr_left
  intro c hc
  rw [write_read]
  split
  next => rfl
  next hnot => exact h c hc hnot

end Record

end Lib
