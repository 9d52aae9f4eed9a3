import Wapsell.Crm.Extractor
import Wapsell.Resources.Upsert

/-!
# What a patch leaves of a contact

The loop over `contact_updates` decides each field by itself, so what it
leaves under a key is a function of what was there and of the update. The
tags are read behind that loop and only grow. Applied to its own outcome a
patch gives every key the value it has, or one that is equal to it.

That is what makes a second application harmless for the contact: the
patch finds every value in place and reports no change. Python's `==`
decides whether a value is in place, so an equal value of another type,
as `1` and `True`, is left as it was.

Fields that are protected keep what they had, whatever the result says
of them, and that is proved of every key at once.
-/

namespace Wapsell.Crm

open Lib Py Resources

/-- A value was left as it was: it is the same one, or an equal one. -/
def Unchanged (a b : Json) : Prop := a = b ∨ a.pyEq b = true

/-- What the loop leaves under a key. -/
def patchedValue (key : String) (old new : Option Json) : Option Json :=
  match new with
  | none => old
  | some value =>
    if key ∈ PROTECTED_CONTACT_FIELDS then old
    else if (old.getD .null).pyEq value then old else some value

/-- The tags once the new ones are behind them. -/
def taggedItems (U : Unicode) (newTags : List String) (items : List Json) : List Json :=
  (newTags.foldl (addTag U) (items, false)).1

/-- What a patch leaves under a key. -/
def patchedKey (U : Unicode) (result : ExtractionResult) (key : String) (old : Option Json) :
    Option Json :=
  let value := patchedValue key old (result.contactUpdates.get? key)
  if key = "tags" ∧ result.newTags ≠ [] then
    some (.arr (taggedItems U result.newTags (value.getD .null).items))
  else value

/-! ## The fields -/

theorem get?_patchField (acc : Dict String Json × Bool) (update : String × Json) (key : String) :
    (patchField acc update).1.get? key =
      if update.1 = key then patchedValue key (acc.1.get? key) (some update.2)
      else acc.1.get? key := by
  unfold patchField
  by_cases hkey : update.1 = key
  · subst hkey
    simp only [if_true, patchedValue]
    split
    · rfl
    · by_cases hsame : (acc.1.getD update.1 .null).pyEq update.2 = true
      · rw [if_pos hsame]
        exact (if_pos hsame).symm
      · rw [if_neg hsame, Dict.get?_set_self]
        exact (if_neg hsame).symm
  · rw [if_neg hkey]
    split
    · rfl
    · split
      · rfl
      · exact Dict.get?_set_ne _ _ hkey

theorem get?_foldl_patchField (key : String) : ∀ {updates : List (String × Json)},
    (updates.map Prod.fst).Nodup → ∀ acc : Dict String Json × Bool,
      (updates.foldl patchField acc).1.get? key =
        patchedValue key (acc.1.get? key) (Dict.find key updates)
  | [], _, _ => rfl
  | update :: rest, hnd, acc => by
    obtain ⟨hnot, hrest⟩ := List.nodup_cons.mp hnd
    rw [List.foldl_cons, get?_foldl_patchField key hrest, get?_patchField, Dict.find]
    by_cases hkey : update.1 = key
    · -- no later update has the key
      rw [hkey] at hnot
      rw [if_pos hkey, if_pos hkey, Dict.find_eq_none_of_not_mem hnot]
      rfl
    · rw [if_neg hkey, if_neg hkey]

/-- Each field by itself. -/
theorem get?_patchFields (data updates : Dict String Json) (key : String) :
    (patchFields data updates).1.get? key =
      patchedValue key (data.get? key) (updates.get? key) :=
  get?_foldl_patchField key updates.nodup (data, false)

/-- A field that was patched is not patched again. -/
theorem patchedValue_again (key : String) (old new : Option Json) :
    patchedValue key (patchedValue key old new) new = patchedValue key old new := by
  cases new with
  | none => rfl
  | some value =>
    simp only [patchedValue]
    by_cases hp : key ∈ PROTECTED_CONTACT_FIELDS
    · simp only [if_pos hp]
    · simp only [if_neg hp]
      by_cases hold : (old.getD .null).pyEq value = true
      · simp only [if_pos hold]
      · simp only [if_neg hold, Option.getD_some, ite_self]

/-! ## The tags -/

/-- The tag is there, or is no tag. -/
def Known (U : Unicode) (tags : List Json) (tag : String) : Prop :=
  lower U (strip tag) = "" ∨ tags.any (·.pyEq (.str (lower U (strip tag)))) = true

theorem addTag_of_known {U : Unicode} {acc : List Json × Bool} {tag : String}
    (h : Known U acc.1 tag) : addTag U acc tag = acc := by
  unfold addTag
  refine if_neg ?_
  rintro ⟨hne, hnot⟩
  rcases h with h | h
  · exact hne h
  · exact hnot h

theorem addTag_of_not_known {U : Unicode} {acc : List Json × Bool} {tag : String}
    (h : ¬ Known U acc.1 tag) :
    addTag U acc tag = (acc.1 ++ [.str (lower U (strip tag))], true) := by
  unfold addTag
  rw [Known, not_or] at h
  exact if_pos h

/-- A tag that was added is there. -/
theorem known_addTag (U : Unicode) (acc : List Json × Bool) (tag : String) :
    Known U (addTag U acc tag).1 tag := by
  by_cases h : Known U acc.1 tag
  · rwa [addTag_of_known h]
  · rw [addTag_of_not_known h]
    refine .inr ?_
    rw [List.any_append, Bool.or_eq_true]
    exact .inr (by simp [Json.pyEq])

/-- No tag is lost. -/
theorem known_addTag_of_known {U : Unicode} {acc : List Json × Bool} {tag : String}
    (h : Known U acc.1 tag) (other : String) : Known U (addTag U acc other).1 tag := by
  by_cases hother : Known U acc.1 other
  · rw [addTag_of_known hother]
    exact h
  · rw [addTag_of_not_known hother]
    rcases h with hblank | hany
    · exact .inl hblank
    · refine .inr ?_
      rw [List.any_append, hany, Bool.true_or]

theorem known_foldl_of_known {U : Unicode} {tag : String} (newTags : List String) :
    ∀ {acc : List Json × Bool}, Known U acc.1 tag →
      Known U (newTags.foldl (addTag U) acc).1 tag := by
  induction newTags with
  | nil => exact fun h => h
  | cons other rest ih =>
    intro acc h
    rw [List.foldl_cons]
    exact ih (known_addTag_of_known h other)

/-- Every new tag is there once the loop has ended. -/
theorem known_foldl {U : Unicode} {tag : String} {newTags : List String} (h : tag ∈ newTags)
    (acc : List Json × Bool) : Known U (newTags.foldl (addTag U) acc).1 tag := by
  induction newTags generalizing acc with
  | nil => cases h
  | cons other rest ih =>
    rw [List.foldl_cons]
    rcases List.mem_cons.mp h with rfl | hrest
    · exact known_foldl_of_known rest (known_addTag U acc tag)
    · exact ih hrest _

theorem foldl_addTag_of_known {U : Unicode} {newTags : List String} {acc : List Json × Bool}
    (h : ∀ tag ∈ newTags, Known U acc.1 tag) : newTags.foldl (addTag U) acc = acc := by
  induction newTags with
  | nil => rfl
  | cons tag rest ih =>
    rw [List.foldl_cons, addTag_of_known (h tag List.mem_cons_self)]
    exact ih fun t ht => h t (List.mem_cons_of_mem tag ht)

/-- Tags that were merged are not merged again. -/
theorem taggedItems_again (U : Unicode) (newTags : List String) (items : List Json) :
    taggedItems U newTags (taggedItems U newTags items) = taggedItems U newTags items := by
  rw [taggedItems, foldl_addTag_of_known]
  exact fun _ htag => known_foldl htag _

/-- Equal lists hold the same text. -/
theorem any_pyEq_congr (s : String) : ∀ {as bs : List Json}, Json.pyEqItems as bs = true →
    as.any (·.pyEq (.str s)) = bs.any (·.pyEq (.str s))
  | [], [], _ => rfl
  | [], _ :: _, h => by simp [Json.pyEqItems] at h
  | _ :: _, [], h => by simp [Json.pyEqItems] at h
  | a :: as, b :: bs, h => by
    rw [Json.pyEqItems, Bool.and_eq_true] at h
    have hhead : a.pyEq (.str s) = b.pyEq (.str s) := by
      rw [Bool.eq_iff_iff, Json.pyEq_str_iff, Json.pyEq_str_iff]
      constructor
      · intro ha
        rw [ha] at h
        exact Json.str_pyEq_iff.mp h.1
      · intro hb
        rw [hb] at h
        exact Json.pyEq_str_iff.mp h.1
    rw [List.any_cons, List.any_cons, hhead, any_pyEq_congr s h.2]

/-- Equal lists know the same tags. -/
theorem known_congr {U : Unicode} {tag : String} {as bs : List Json}
    (h : Json.pyEqItems as bs = true) : Known U as tag ↔ Known U bs tag := by
  rw [Known, Known, any_pyEq_congr _ h]

theorem pyEqItems_append {s : String} : ∀ {as bs : List Json}, Json.pyEqItems as bs = true →
    Json.pyEqItems (as ++ [.str s]) (bs ++ [.str s]) = true
  | [], [], _ => by simp [Json.pyEqItems, Json.pyEq]
  | [], _ :: _, h => by simp [Json.pyEqItems] at h
  | _ :: _, [], h => by simp [Json.pyEqItems] at h
  | a :: as, b :: bs, h => by
    rw [Json.pyEqItems, Bool.and_eq_true] at h
    rw [List.cons_append, List.cons_append, Json.pyEqItems, h.1, pyEqItems_append h.2]
    rfl

/-- Equal lists stay equal under the same tags. -/
theorem pyEqItems_taggedItems {U : Unicode} (newTags : List String) {as bs : List Json}
    (h : Json.pyEqItems as bs = true) :
    Json.pyEqItems (taggedItems U newTags as) (taggedItems U newTags bs) = true := by
  have hloop : ∀ (tags : List String) (acc acc' : List Json × Bool),
      Json.pyEqItems acc.1 acc'.1 = true →
        Json.pyEqItems (tags.foldl (addTag U) acc).1 (tags.foldl (addTag U) acc').1 = true := by
    intro tags
    induction tags with
    | nil => exact fun _ _ h => h
    | cons tag rest ih =>
      intro acc acc' h
      rw [List.foldl_cons, List.foldl_cons]
      refine ih _ _ ?_
      by_cases hk : Known U acc.1 tag
      · rwa [addTag_of_known hk, addTag_of_known ((known_congr h).mp hk)]
      · rw [addTag_of_not_known hk, addTag_of_not_known fun hk' => hk ((known_congr h).mpr hk')]
        exact pyEqItems_append h
  exact hloop newTags _ _ h

/-! ## The patch -/

theorem get?_mergeTags {U : Unicode} {data data' : Dict String Json} {newTags : List String}
    {changed : Bool} (h : mergeTags U data newTags = .ok (data', changed)) (key : String) :
    data'.get? key =
      if key = "tags" ∧ newTags ≠ [] then
        some (.arr (taggedItems U newTags ((data.get? "tags").getD .null).items))
      else data.get? key := by
  unfold mergeTags at h
  split at h
  · next hnil =>
    cases h
    rw [if_neg fun hkey => hkey.2 hnil]
  · next hne =>
    simp only at h
    split at h
    · cases h
      by_cases hkey : key = "tags"
      · rw [if_pos ⟨hkey, hne⟩, hkey, Dict.get?_set_self]
        rfl
      · rw [if_neg fun h => hkey h.1, Dict.get?_set_ne _ _ (Ne.symm hkey)]
    · cases h

/-- A patch, key by key. -/
theorem get?_patchedContact {U : Unicode} {data data' : Dict String Json}
    {result : ExtractionResult} {changed : Bool}
    (h : patchedContact U data result = .ok (data', changed)) (key : String) :
    data'.get? key = patchedKey U result key (data.get? key) := by
  unfold patchedContact at h
  cases hmerge : mergeTags U (patchFields data result.contactUpdates).1 result.newTags with
  | error e =>
    simp only [hmerge, bind, Except.bind] at h
    cases h
  | ok merged =>
    simp only [hmerge, bind, Except.bind] at h
    cases h
    rw [get?_mergeTags hmerge, get?_patchFields, get?_patchFields, patchedKey]
    by_cases hkey : key = "tags" ∧ result.newTags ≠ []
    · rw [if_pos hkey, if_pos hkey, hkey.1]
    · rw [if_neg hkey, if_neg hkey]

/-- No patch moves a protected field. -/
theorem patchedKey_protected {U : Unicode} {result : ExtractionResult} {key : String}
    (h : key ∈ PROTECTED_CONTACT_FIELDS) (old : Option Json) :
    patchedKey U result key old = old := by
  have htags : key ≠ "tags" := by
    rintro rfl
    exact absurd h (by decide)
  rw [patchedKey, if_neg fun hkey => htags hkey.1]
  unfold patchedValue
  split
  · rfl
  · exact if_pos h

/-- A patch of its own outcome leaves every key as it is. -/
theorem patchedKey_again (U : Unicode) (result : ExtractionResult) (key : String)
    (old : Option Json) :
    Option.Rel Unchanged (patchedKey U result key old)
      (patchedKey U result key (patchedKey U result key old)) := by
  have hrefl : ∀ o : Option Json, Option.Rel Unchanged o o := by
    rintro (_ | value)
    · exact .none
    · exact .some (.inl rfl)
  unfold patchedKey
  by_cases hkey : key = "tags" ∧ result.newTags ≠ []
  · simp only [if_pos hkey]
    refine .some ?_
    cases hupdate : result.contactUpdates.get? key with
    | none =>
      refine .inl (congrArg Json.arr ?_)
      exact (taggedItems_again U _ _).symm
    | some value =>
      have hp : key ∉ PROTECTED_CONTACT_FIELDS := by
        rw [hkey.1]
        decide
      simp only [patchedValue, if_neg hp]
      generalize hvalue : (if (old.getD .null).pyEq value = true then old else some value) = first
      by_cases hagain : ((some (Json.arr (taggedItems U result.newTags
          (first.getD .null).items))).getD .null).pyEq value = true
      · rw [if_pos hagain]
        refine .inl (congrArg Json.arr ?_)
        exact (taggedItems_again U _ _).symm
      · rw [if_neg hagain, Option.getD_some]
        by_cases hskip : (old.getD .null).pyEq value = true
        · -- the update was skipped for tags it equals, and now puts its own ones back
          rw [if_pos hskip] at hvalue
          rw [← hvalue]
          exact .inr (pyEqItems_taggedItems _ (Json.pyEqItems_items hskip))
        · rw [if_neg hskip] at hvalue
          rw [← hvalue]
          exact .inl rfl
  · simp only [if_neg hkey, patchedValue_again]
    exact hrefl _

end Wapsell.Crm
