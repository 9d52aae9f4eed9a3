import Mathlib.Data.List.Chain
import Wapsell.Onboarding.Slug

/-!
# The form of a slug

What `slugify` answers is made of words of lower-case letters and digits with
one hyphen between them, and is its own slug. `_unique_slug` answers the name
when it is free, and otherwise the name with the least number behind it that
is.

Trimming the hyphens and merging them comes last in `slugify`, and a
text that is tidy already passes through both unchanged. So applying it
twice is the same as once, whatever the first application had to drop.

A name with no letter and no digit gets the slug that the source falls
back on, which is tidy as well.
-/

namespace Wapsell.Onboarding

open Lib Py Tenants

/-- `[a-z0-9]`. -/
def isWordChar (c : Char) : Bool := ('a' ≤ c && c ≤ 'z') || ('0' ≤ c && c ≤ '9')

/-- `[a-z0-9]+`. -/
def IsSlugWord (w : List Char) : Prop := w ≠ [] ∧ ∀ c ∈ w, isWordChar c = true

/-- `[a-z0-9]+(-[a-z0-9]+)*`: a word, and further ones each behind a hyphen. The regular expression
is spelled out on lists of characters. -/
def IsSlug (cs : List Char) : Prop :=
  ∃ (word : List Char) (words : List (List Char)), IsSlugWord word ∧
    (∀ w ∈ words, IsSlugWord w) ∧ cs = word ++ words.flatMap fun w => '-' :: w

/-! ## Characters -/

theorem isWordChar_of_isSlugChar {c : Char} (h : isSlugChar c = true) (hc : c ≠ '-') :
    isWordChar c = true := by
  rw [isSlugChar, Bool.or_eq_true, beq_iff_eq] at h
  exact h.resolve_right hc

theorem isSlugChar_iff (c : Char) : isSlugChar c = true ↔
    (97 ≤ c.toNat ∧ c.toNat ≤ 122) ∨ (48 ≤ c.toNat ∧ c.toNat ≤ 57) ∨ c.toNat = 45 := by
  have hle : ∀ a b : Char, a ≤ b ↔ a.toNat ≤ b.toNat := fun _ _ => Iff.rfl
  simp only [isSlugChar, Bool.or_eq_true, Bool.and_eq_true, decide_eq_true_eq, beq_iff_eq, hle,
    char_eq_iff, Char.reduceToNat, or_assoc]

theorem isSpace_of_isSlugChar {c : Char} (h : isSlugChar c = true) : isSpace c = false := by
  rw [← Bool.not_eq_true, isSpace_iff]
  have hrange := (isSlugChar_iff c).mp h
  omega

theorem toLower_of_isSlugChar {c : Char} (h : isSlugChar c = true) : c.toLower = c := by
  have hrange := (isSlugChar_iff c).mp h
  rw [char_eq_iff, toNat_toLower, if_neg (by omega)]

/-! ## Tidy texts -/

/-- Two characters that may stand side by side. -/
def NotBothHyphens (c d : Char) : Prop := c = '-' → d ≠ '-'

/-- Slug characters, with no hyphen at the ends and no two of them side by side: what the passes of
`slugify` leave. -/
structure Tidy (cs : List Char) : Prop where
  chars : ∀ c ∈ cs, isSlugChar c = true
  single : cs.IsChain NotBothHyphens
  head : cs.head? ≠ some '-'
  last : cs.getLast? ≠ some '-'

namespace Tidy

/-- What is behind the first character is tidy when it does not begin with a hyphen. -/
theorem tail {c : Char} {cs : List Char} (h : Tidy (c :: cs)) (hhead : cs.head? ≠ some '-') :
    Tidy cs where
  chars d hd := h.chars d (List.mem_cons_of_mem c hd)
  single := h.single.tail
  head := hhead
  last hlast := by
    have hne : cs ≠ [] := by
      rintro rfl
      cases hlast
    exact h.last (by rw [List.getLast?_cons_of_ne_nil hne, hlast])

/-- Behind a hyphen there is more, and no second hyphen. -/
theorem behind_hyphen {c : Char} {cs : List Char} (h : Tidy (c :: '-' :: cs)) :
    cs ≠ [] ∧ Tidy cs := by
  have hne : cs ≠ [] := by
    rintro rfl
    exact h.last rfl
  refine ⟨hne, fun d hd => ?_, h.single.tail.tail, fun hhead => ?_, fun hlast => ?_⟩
  · exact h.chars d (List.mem_cons_of_mem c (List.mem_cons_of_mem '-' hd))
  · exact (List.isChain_cons.mp h.single.tail).1 '-' hhead rfl rfl
  · exact h.last (by rw [List.getLast?_cons_cons, List.getLast?_cons_of_ne_nil hne, hlast])

/-- The first character belongs to a word. -/
theorem isWordChar_head {c : Char} {cs : List Char} (h : Tidy (c :: cs)) : isWordChar c = true := by
  apply isWordChar_of_isSlugChar (h.chars c List.mem_cons_self)
  rintro rfl
  exact h.head rfl

/-- Of a tidy text the words are read, from hyphen to hyphen. -/
theorem isSlug : ∀ {cs : List Char}, Tidy cs → cs ≠ [] → IsSlug cs
  | [], _, hne => absurd rfl hne
  | [c], h, _ => by
    refine ⟨[c], [], ⟨List.cons_ne_nil c [], ?_⟩, List.forall_mem_nil _, rfl⟩
    exact List.forall_mem_singleton.mpr h.isWordChar_head
  | c :: d :: cs, h, _ => by
    by_cases hd : d = '-'
    · -- a word of one character, and behind the hyphen the next one
      subst hd
      obtain ⟨hne, htail⟩ := h.behind_hyphen
      obtain ⟨word, words, hword, hwords, rfl⟩ := isSlug htail hne
      refine ⟨[c], word :: words, ⟨List.cons_ne_nil c [], ?_⟩, ?_, rfl⟩
      · exact List.forall_mem_singleton.mpr h.isWordChar_head
      · exact List.forall_mem_cons.mpr ⟨hword, hwords⟩
    · have hhead : (d :: cs).head? ≠ some '-' := by simpa using hd
      obtain ⟨word, words, hword, hwords, heq⟩ := isSlug (h.tail hhead) (List.cons_ne_nil d cs)
      refine ⟨c :: word, words, ⟨List.cons_ne_nil c word, ?_⟩, hwords, ?_⟩
      · exact List.forall_mem_cons.mpr ⟨h.isWordChar_head, hword.2⟩
      · rw [heq, List.cons_append]

end Tidy

/-! ## The passes -/

theorem mem_collapseHyphens {d : Char} {cs : List Char} {after : Bool}
    (h : d ∈ collapseHyphens after cs) : d ∈ cs := by
  induction cs generalizing after with
  | nil => exact h
  | cons c cs ih =>
    rw [collapseHyphens] at h
    split at h
    · next hc =>
      rcases List.mem_append.mp h with hhyphen | hrest
      · cases after with
        | false => rw [hc, List.mem_singleton.mp hhyphen]; exact List.mem_cons_self
        | true => cases hhyphen
      · exact List.mem_cons_of_mem c (ih hrest)
    · rcases List.mem_cons.mp h with rfl | hrest
      · exact List.mem_cons_self
      · exact List.mem_cons_of_mem c (ih hrest)

/-- Behind a hyphen no other is kept. -/
theorem head?_collapseHyphens (cs : List Char) : (collapseHyphens true cs).head? ≠ some '-' := by
  induction cs with
  | nil =>
    intro h
    cases h
  | cons c cs ih =>
    rw [collapseHyphens]
    split
    · exact ih
    · next hc => simpa using hc

theorem isChain_collapseHyphens (cs : List Char) (after : Bool) :
    (collapseHyphens after cs).IsChain NotBothHyphens := by
  induction cs generalizing after with
  | nil => exact .nil
  | cons c cs ih =>
    rw [collapseHyphens]
    split
    · cases after with
      | true => exact ih true
      | false =>
        refine List.isChain_cons.mpr ⟨fun d hd _ hd' => ?_, ih true⟩
        exact head?_collapseHyphens cs (hd' ▸ hd)
    · next hc => exact List.isChain_cons.mpr ⟨fun _ _ h => absurd h hc, ih false⟩

/-- Single hyphens are all kept. -/
theorem collapseHyphens_of_isChain {cs : List Char} {after : Bool}
    (hchain : cs.IsChain NotBothHyphens) (hhead : after = true → cs.head? ≠ some '-') :
    collapseHyphens after cs = cs := by
  induction cs generalizing after with
  | nil => rfl
  | cons c cs ih =>
    obtain ⟨hnext, htail⟩ := List.isChain_cons.mp hchain
    rw [collapseHyphens]
    split
    · next hc =>
      have hafter : after = false := by
        cases after with
        | false => rfl
        | true => exact absurd (congrArg some hc) (hhead rfl)
      rw [hafter, hc, ih htail fun _ h => hnext '-' h hc rfl]
      rfl
    · rw [ih htail fun hfalse => absurd hfalse Bool.false_ne_true]

theorem tidy_stripHyphens {cs : List Char} (hchars : ∀ c ∈ cs, isSlugChar c = true)
    (hsingle : cs.IsChain NotBothHyphens) : Tidy (stripHyphens cs) := by
  have hpart : stripHyphens cs <:+: cs := trimmed_isInfix
  refine ⟨fun c hc => hchars c (hpart.subset hc), hsingle.infix hpart, fun h => ?_, fun h => ?_⟩
  · have hkept := head?_trimmed h
    simp at hkept
  · have hkept := getLast?_trimmed h
    simp at hkept

/-- What the passes leave of a text. -/
theorem tidy_passes (cs : List Char) :
    Tidy (stripHyphens (collapseHyphens false (cs.filter isSlugChar))) := by
  apply tidy_stripHyphens
  · intro c hc
    exact (List.mem_filter.mp (mem_collapseHyphens hc)).2
  · exact isChain_collapseHyphens _ false

/-- The passes leave a tidy text alone. -/
theorem passes_of_tidy {cs : List Char} (h : Tidy cs) :
    stripHyphens (collapseHyphens false (cs.filter isSlugChar)) = cs := by
  rw [List.filter_eq_self.mpr h.chars,
    collapseHyphens_of_isChain h.single fun hfalse => absurd hfalse Bool.false_ne_true, stripHyphens]
  apply trimmed_of_ends
  · intro c hc
    have hne : c ≠ '-' := fun heq => h.head (heq ▸ hc)
    simpa using hne
  · intro c hc
    have hne : c ≠ '-' := fun heq => h.last (heq ▸ hc)
    simpa using hne

/-! ## The slug -/

theorem tidy_slugify (U : Unicode) (name : String) :
    Tidy (slugify U name).toList ∧ (slugify U name).toList ≠ [] := by
  unfold slugify
  extract_lets base slug
  split
  · next hne =>
    refine ⟨?_, fun hnil => hne (String.toList_eq_nil_iff.mp hnil)⟩
    rw [String.toList_ofList]
    exact tidy_passes base.toList
  · exact ⟨⟨by decide, by simp [NotBothHyphens], by decide, by decide⟩, by decide⟩

/-- Of a tidy name the slug is the name. -/
theorem slugify_of_tidy (U : Unicode) {name : String} (h : Tidy name.toList)
    (hne : name.toList ≠ []) : slugify U name = name := by
  have hstrip : strip name = name := by
    apply strip_of_ends
    · intro c hc
      exact isSpace_of_isSlugChar (h.chars c (List.mem_of_head? hc))
    · intro c hc
      exact isSpace_of_isSlugChar (h.chars c (List.mem_of_getLast? hc))
  have hascii : isAscii name = true := by
    refine List.all_eq_true.mpr fun c hc => decide_eq_true ?_
    have hrange := (isSlugChar_iff c).mp (h.chars c hc)
    omega
  have hlower : lower U name = name := by
    have hmap : name.toList.map Char.toLower = name.toList := by
      conv_rhs => rw [← List.map_id name.toList]
      exact List.map_congr_left fun c hc => toLower_of_isSlugChar (h.chars c hc)
    rw [lower, if_pos hascii, hmap, String.ofList_toList]
  have hreplace : replaceChar ' ' "-" name = name := by
    have hflat : (name.toList.flatMap fun c => if c = ' ' then "-".toList else [c]) =
        name.toList.flatMap fun c => [c] := by
      refine List.flatMap_congr fun c hc => if_neg ?_
      rintro rfl
      exact absurd (h.chars ' ' hc) (by decide)
    rw [replaceChar, hflat, List.flatMap_singleton', String.ofList_toList]
  rw [slugify, hstrip, hlower, hreplace, passes_of_tidy h, String.ofList_toList]
  exact if_pos fun hempty => hne (by rw [hempty]; rfl)

/-! ## The free slug -/

/-- From a number on, the loop stops at the first that is free. -/
theorem slugLoop_least {taken : String → Bool} {base slug : String} : ∀ {fuel s : Nat},
    slugLoop taken base fuel (numbered base s) (s + 1) = some slug →
      ∃ k, s ≤ k ∧ slug = numbered base k ∧ taken slug = false ∧
        ∀ j, s ≤ j → j < k → taken (numbered base j) = true
  | 0, _, h => by cases h
  | fuel + 1, s, h => by
    rw [slugLoop] at h
    cases htaken : taken (numbered base s) with
    | false =>
      rw [htaken, if_neg Bool.false_ne_true] at h
      cases h
      exact ⟨s, Nat.le_refl s, rfl, htaken, fun j hle hlt => absurd hle (Nat.not_le_of_lt hlt)⟩
    | true =>
      rw [htaken, if_pos rfl] at h
      obtain ⟨k, hle, hslug, hfree, hbelow⟩ := slugLoop_least (s := s + 1) h
      refine ⟨k, Nat.le_of_succ_le hle, hslug, hfree, fun j hj hlt => ?_⟩
      rcases Nat.eq_or_lt_of_le hj with rfl | hlater
      · exact htaken
      · exact hbelow j hlater hlt

/-- What the loop found, it finds with more rounds. -/
theorem slugLoop_mono {taken : String → Bool} {base slug : String} {fuel more : Nat}
    {candidate : String} {s : Nat} (h : slugLoop taken base fuel candidate s = some slug)
    (hle : fuel ≤ more) : slugLoop taken base more candidate s = some slug := by
  induction fuel generalizing more candidate s with
  | zero => cases h
  | succ fuel ih =>
    obtain ⟨rest, rfl⟩ := Nat.exists_eq_add_of_le hle
    rw [Nat.add_right_comm, slugLoop]
    rw [slugLoop] at h
    split
    · next htaken =>
      rw [if_pos htaken] at h
      exact ih h (Nat.le_add_right fuel rest)
    · next hfree => rwa [if_neg hfree] at h

/-- **Slugs.** The slug of a name is words with single hyphens between them, and its own slug. The
loop over a table ends, with the base when no row has it and otherwise with the least number from 2
on behind it that no row has; rounds beyond one more than the rows change nothing.

The fuel is the model's and not the source's: any amount above the number of rows gives the same
slug, which is how a loop without a bound is read. -/
theorem slugify_uniqueSlug :
    (∀ (U : Unicode) (name : String), IsSlug (slugify U name).toList ∧
      slugify U (slugify U name) = slugify U name) ∧
    ∀ (repo : Repository) (base : String), ∃ slug, uniqueSlug repo base = some slug ∧
      (∀ fuel, repo.values.length < fuel →
        slugLoop (fun slug => (repo.bySlug slug).isSome) base fuel base 2 = some slug) ∧
      ((repo.bySlug base = none ∧ slug = base) ∨
        repo.bySlug base ≠ none ∧ ∃ k, 2 ≤ k ∧ slug = numbered base k ∧
          repo.bySlug (numbered base k) = none ∧
            ∀ j, 2 ≤ j → j < k → repo.bySlug (numbered base j) ≠ none) := by
  constructor
  · intro U name
    obtain ⟨htidy, hne⟩ := tidy_slugify U name
    exact ⟨htidy.isSlug hne, slugify_of_tidy U htidy hne⟩
  · intro repo base
    obtain ⟨slug, hslug, -⟩ := uniqueSlug_spec repo base
    have hmore : ∀ fuel, repo.values.length < fuel →
        slugLoop (fun slug => (repo.bySlug slug).isSome) base fuel base 2 = some slug :=
      fun fuel hfuel => slugLoop_mono hslug hfuel
    refine ⟨slug, hslug, hmore, ?_⟩
    rw [uniqueSlug, slugLoop] at hslug
    cases hbase : repo.bySlug base with
    | none =>
      rw [hbase, Option.isSome_none, if_neg Bool.false_ne_true] at hslug
      exact .inl ⟨rfl, (Option.some.inj hslug).symm⟩
    | some t =>
      rw [hbase, Option.isSome_some, if_pos rfl] at hslug
      obtain ⟨k, hle, rfl, hfree, hbelow⟩ := slugLoop_least (s := 2) hslug
      refine .inr ⟨Option.some_ne_none t, k, hle, rfl, Option.not_isSome_iff_eq_none.mp ?_, ?_⟩
      · rw [hfree]
        exact Bool.false_ne_true
      · intro j hj hlt
        exact Option.isSome_iff_ne_none.mp (hbelow j hj hlt)

end Wapsell.Onboarding
