import Mathlib.Data.List.Nodup
import Mathlib.Data.List.Perm.Subperm
import Wapsell.Tenant.Manager

/-!
# Slugs of onboarded tenants

`slugify` and `_unique_slug` of `sdk/wapsell/onboarding/flow.py`. The loop
tries the name, then the name with 2, 3 and so on behind it. These are all
different, so one more than there are rows is enough to find a free one:
the loop ends, and what it ends with is free.

The bound on the rounds is what makes the loop of the source, which has
none, a total function. It is no restriction: the candidates are
pairwise different, so among one more than there are rows one is free.
-/

namespace Wapsell.Onboarding

open Lib Py Tenants

/-- `[a-z0-9-]`. -/
def isSlugChar (c : Char) : Bool := ('a' ≤ c && c ≤ 'z') || ('0' ≤ c && c ≤ '9') || c == '-'

/-- `_HYPHEN_RUN.sub("-", ·)`, told whether a hyphen came just before. -/
def collapseHyphens : Bool → List Char → List Char
  | _, [] => []
  | after, c :: cs =>
    if c = '-' then (if after then [] else ['-']) ++ collapseHyphens true cs
    else c :: collapseHyphens false cs

/-- `str.strip("-")`. -/
def stripHyphens (cs : List Char) : List Char :=
  ((cs.dropWhile (· = '-')).reverse.dropWhile (· = '-')).reverse

/-- `slugify`.

Everything outside the three classes is dropped, accents with their letters, and a name of nothing
else is called `tenant`. -/
def slugify (U : Unicode) (name : String) : String :=
  let base := replaceChar ' ' "-" (lower U (strip name))
  let base := String.ofList (stripHyphens (collapseHyphens false (base.toList.filter isSlugChar)))
  if base ≠ "" then base else "tenant"

/-- The loop of `_unique_slug`: `none` when the fuel runs out. On a table it never does with the
fuel it is given. -/
def slugLoop (taken : String → Bool) (base : String) : Nat → String → Nat → Option String
  | 0, _, _ => none
  | fuel + 1, candidate, suffix =>
    if taken candidate then slugLoop taken base fuel (base ++ "-" ++ toString suffix) (suffix + 1)
    else some candidate

/-- `_unique_slug`: one round more than there are rows. -/
def uniqueSlug (repo : Repository) (base : String) : Option String :=
  slugLoop (fun slug => (repo.bySlug slug).isSome) base (repo.values.length + 1) base 2

example : slugify Unicode.ascii "Acme & Co!" = "acme-co" := by decide

/-- The name with a number behind it. -/
def numbered (base : String) (n : Nat) : String := base ++ "-" ++ toString n

theorem numbered_injective (base : String) : Function.Injective (numbered base) := by
  intro m n h
  have hlist := congrArg String.toList h
  simp only [numbered, String.toList_append, List.append_cancel_left_eq, Nat.toString_eq_repr,
    Nat.toList_repr] at hlist
  rw [← Nat.ofDigitChars_ten_toDigits (n := m), hlist, Nat.ofDigitChars_ten_toDigits]

theorem numbered_ne (base : String) (n : Nat) : numbered base n ≠ base := by
  intro h
  have hlen := congrArg String.length h
  simp only [numbered, String.length_append] at hlen
  have : "-".length = 1 := rfl
  omega

/-- The loop looks for the first candidate that is free. -/
theorem slugLoop_eq_find? (taken : String → Bool) (base : String) : ∀ (fuel s : Nat),
    slugLoop taken base fuel (numbered base s) (s + 1) =
      ((List.range fuel).map fun k => numbered base (s + k)).find? fun slug => !taken slug
  | 0, _ => rfl
  | fuel + 1, s => by
    have htail : ((List.range fuel).map Nat.succ).map (fun k => numbered base (s + k)) =
        (List.range fuel).map fun k => numbered base (s + 1 + k) := by
      rw [List.map_map]
      refine List.map_congr_left fun k _ => ?_
      show numbered base (s + (k + 1)) = _
      rw [Nat.add_right_comm, Nat.add_assoc]
    rw [slugLoop, List.range_succ_eq_map, List.map_cons, Nat.add_zero, htail, List.find?_cons]
    cases taken (numbered base s) with
    | true => exact slugLoop_eq_find? taken base fuel (s + 1)
    | false => rfl

/-- The slugs the loop tries on a repository. -/
def candidates (repo : Repository) (base : String) : List String :=
  base :: (List.range repo.values.length).map fun k => numbered base (2 + k)

theorem uniqueSlug_eq_find? (repo : Repository) (base : String) :
    uniqueSlug repo base =
      (candidates repo base).find? fun slug => !(repo.bySlug slug).isSome := by
  rw [uniqueSlug, slugLoop, candidates, List.find?_cons]
  cases (repo.bySlug base).isSome with
  | true => exact slugLoop_eq_find? _ base repo.values.length 2
  | false => rfl

theorem nodup_candidates (repo : Repository) (base : String) : (candidates repo base).Nodup := by
  refine List.nodup_cons.mpr ⟨fun hmem => ?_, List.Nodup.map (fun i j h => ?_) List.nodup_range⟩
  · obtain ⟨k, -, hk⟩ := List.mem_map.mp hmem
    exact numbered_ne base (2 + k) hk
  · exact Nat.add_left_cancel (numbered_injective base h)

/-- **The loop ends**, with a slug no row has. The rows are finitely many and the candidates are
not, which is all that is used of them. -/
theorem uniqueSlug_spec (repo : Repository) (base : String) :
    ∃ slug, uniqueSlug repo base = some slug ∧ repo.bySlug slug = none := by
  cases hfound : uniqueSlug repo base with
  | some slug =>
    rw [uniqueSlug_eq_find?] at hfound
    have hfree := List.find?_some hfound
    exact ⟨slug, rfl, by simpa using hfree⟩
  | none =>
    -- every candidate would be the slug of a row, and there are more candidates than rows
    rw [uniqueSlug_eq_find?, List.find?_eq_none] at hfound
    have hsub : candidates repo base ⊆ repo.values.map Tenant.slug := by
      intro slug hslug
      have htaken : (repo.bySlug slug).isSome := by
        simpa [Option.isSome_iff_ne_none] using hfound slug hslug
      obtain ⟨t, ht⟩ := Option.isSome_iff_exists.mp htaken
      have heq : t.slug = slug := by simpa using List.find?_some ht
      exact List.mem_map.mpr ⟨t, List.mem_of_find?_eq_some ht, heq⟩
    have hle := ((nodup_candidates repo base).subperm hsub).length_le
    rw [candidates, List.length_cons, List.length_map, List.length_range, List.length_map] at hle
    exact absurd hle (Nat.not_succ_le_self _)

end Wapsell.Onboarding
