import Wapsell.Lib.Histogram
import Wapsell.Lib.Sort
import Wapsell.Resources.Learning

/-!
# How often a field is filtered on

`top_filter_keys` counts filter keys, and two keys of one query can be about
one field: `min_price` and `max_price` are. The hints present the count as
a number of queries.

The count is of keys because the prefixes are stripped before they are
counted. A range search, with a minimum and a maximum, then counts twice
and can push another field out of the answer; where no query does that
to a leading field, keys and queries are the same count.

`Leading` looks at the log and not at the answer, and takes in ties at
the end of the answer, where the names decide.
-/

namespace Wapsell.Resources

open Lib Py

/-! ## The ranking -/

/-- In the order of the answer: the higher count first, then the smaller name. -/
theorem filterBefore_iff (a b : String × Nat) : filterBefore a b = true ↔
    byScore Prod.snd (fun e => e.1.toList) a b := by
  simp [filterBefore, byScore]

instance : Std.Total fun a b : String × Nat => filterBefore a b = true where
  total a b := by
    rw [filterBefore_iff, filterBefore_iff]
    exact Std.Total.total a b

instance : IsTrans (String × Nat) fun a b => filterBefore a b = true where
  trans a b c hab hbc := by
    rw [filterBefore_iff] at hab hbc ⊢
    exact IsTrans.trans a b c hab hbc

theorem filterBefore_antisymm {a b : String × Nat} (hab : filterBefore a b = true)
    (hba : filterBefore b a = true) : a = b := by
  obtain ⟨hcount, hname⟩ :=
    byScore_antisymm ((filterBefore_iff a b).mp hab) ((filterBefore_iff b a).mp hba)
  exact Prod.ext (String.toList_inj.mp hname) hcount

/-! ## Keys and queries -/

/-- Of the tenant's latest five hundred entries, which are all the function looks at, those in the
window of days. -/
def scanned (queryLog : List QueryLogEntry) (tenantId : String) (cutoff : Datetime) :
    List QueryLogEntry :=
  (listRecent queryLog tenantId 500).filter fun e => cutoff ≤ e.createdAt

/-- A key is about a field if it is the field's name behind `max_` or `min_`, or the name itself,
where that is no range filter on another field. -/
def isAbout (f key : String) : Bool :=
  key = "max_" ++ f || key = "min_" ++ f ||
    (key = f && !(startsWith "max_" f || startsWith "min_" f))

/-- The keys of a query that are about a field. -/
def keysOn (f : String) (e : QueryLogEntry) : Nat := e.filters.keys.countP (isAbout f)

/-- The query filters on the field. -/
def filtersOn (f : String) (e : QueryLogEntry) : Bool := e.filters.keys.any (isAbout f)

theorem startsWith_iff {p s : String} : startsWith p s = true ↔ ∃ t, s = p ++ t := by
  rw [startsWith, List.isPrefixOf_iff_prefix]
  constructor
  · rintro ⟨t, ht⟩
    exact ⟨String.ofList t, String.toList_inj.mp (by simp [← ht])⟩
  · rintro ⟨t, rfl⟩
    rw [String.toList_append]
    exact List.prefix_append _ _

/-- The field of a key is what the key is about. -/
theorem isAbout_iff {f key : String} : isAbout f key = true ↔ filterField key = f := by
  have hdrop : ∀ p t : String, p.toList.length = 4 → drop 4 (p ++ t) = t := by
    intro p t hp
    rw [drop, String.toList_append, ← hp, List.drop_left, String.ofList_toList]
  have hrange : ∀ p t : String, p = "max_" ∨ p = "min_" → filterField (p ++ t) = t := by
    rintro p t (rfl | rfl)
    · rw [filterField, startsWith_iff.mpr ⟨t, rfl⟩, Bool.true_or, if_pos rfl, hdrop _ _ rfl]
    · rw [filterField, startsWith_iff.mpr ⟨t, rfl⟩, Bool.or_true, if_pos rfl, hdrop _ _ rfl]
  simp only [isAbout, Bool.or_eq_true, Bool.and_eq_true, decide_eq_true_eq, Bool.not_eq_true',
    Bool.or_eq_false_iff]
  constructor
  · rintro ((rfl | rfl) | ⟨rfl, hmax, hmin⟩)
    · exact hrange _ _ (.inl rfl)
    · exact hrange _ _ (.inr rfl)
    · rw [filterField, hmax, hmin]
      rfl
  · rintro rfl
    cases hmax : startsWith "max_" key with
    | true =>
      obtain ⟨t, rfl⟩ := startsWith_iff.mp hmax
      rw [hrange _ _ (.inl rfl)]
      exact .inl (.inl rfl)
    | false =>
      cases hmin : startsWith "min_" key with
      | true =>
        obtain ⟨t, rfl⟩ := startsWith_iff.mp hmin
        rw [hrange _ _ (.inr rfl)]
        exact .inl (.inr rfl)
      | false =>
        have hself : filterField key = key := by
          rw [filterField, hmax, hmin]
          rfl
        rw [hself]
        exact .inr ⟨rfl, hmax, hmin⟩

/-- How many keys of the queries are about a field. -/
def keyUses (entries : List QueryLogEntry) (f : String) : Nat := (entries.map (keysOn f)).sum

/-- How many of the queries filter on a field. -/
def queries (entries : List QueryLogEntry) (f : String) : Nat := entries.countP (filtersOn f)

/-- What the answer should be: the `limit` fields that most queries filter on, each with the number
of these queries, in descending order of it and then by name. -/
structure Popular (entries : List QueryLogEntry) (limit : Nat) (top : List FilterFrequency) :
    Prop where
  counted : ∀ t ∈ top, t.count = queries entries t.key ∧ 0 < t.count
  ordered : top.Pairwise fun a b =>
    b.count < a.count ∨ a.count = b.count ∧ a.key.toList < b.key.toList
  highest : top.length ≤ limit ∧ ∀ f, 0 < queries entries f → f ∉ top.map FilterFrequency.key →
    top.length = limit ∧ ∀ t ∈ top,
      queries entries f < t.count ∨ t.count = queries entries f ∧ t.key.toList < f.toList

theorem filtersOn_iff {f : String} {e : QueryLogEntry} : filtersOn f e = true ↔ 0 < keysOn f e := by
  rw [filtersOn, keysOn, List.countP_pos_iff, List.any_eq_true]

/-- Every query that filters on a field has a key that is about it. -/
theorem queries_le_keyUses (entries : List QueryLogEntry) (f : String) :
    queries entries f ≤ keyUses entries f ∧
      (queries entries f = keyUses entries f ↔ ∀ e ∈ entries, keysOn f e ≤ 1) ∧
      (0 < queries entries f ↔ 0 < keyUses entries f) := by
  induction entries with
  | nil => exact ⟨Nat.le_refl 0, iff_of_true rfl fun e he => absurd he List.not_mem_nil, Iff.rfl⟩
  | cons e entries ih =>
    obtain ⟨hle, heq, hpos⟩ := ih
    have hqueries : queries (e :: entries) f =
        queries entries f + if 0 < keysOn f e then 1 else 0 := by
      rw [queries, List.countP_cons]
      simp only [filtersOn_iff]
      rfl
    have huses : keyUses (e :: entries) f = keysOn f e + keyUses entries f := by
      rw [keyUses, List.map_cons, List.sum_cons, keyUses]
    rw [hqueries, huses, List.forall_mem_cons, ← heq]
    split_ifs <;> omega

/-- The fields the queries filter on. -/
def fields (entries : List QueryLogEntry) : List String :=
  (entries.flatMap fun e => e.filters.keys.map filterField).dedup

/-- Of all fields, fewer than `limit` have more keys, or as many and a smaller name. -/
def Leading (entries : List QueryLogEntry) (limit : Nat) (f : String) : Prop :=
  f ∈ fields entries ∧ ((fields entries).countP fun g =>
    decide (filterBefore (g, keyUses entries g) (f, keyUses entries f) = true ∧ g ≠ f)) < limit

section Counter

variable (entries : List QueryLogEntry)

theorem count_fields (f : String) :
    (entries.flatMap fun e => e.filters.keys.map filterField).count f = keyUses entries f := by
  rw [List.count_flatMap, keyUses]
  congr 1
  refine List.map_congr_left fun e _ => ?_
  rw [Function.comp_apply, List.count_eq_countP, List.countP_map, keysOn]
  refine List.countP_congr fun key _ => ?_
  rw [isAbout_iff, Function.comp_apply, beq_iff_eq]

theorem mem_fields_iff {f : String} : f ∈ fields entries ↔ 0 < keyUses entries f := by
  rw [fields, List.mem_dedup, ← count_fields, List.count_pos_iff]

/-- The counter of `top_filter_keys`: the uses of every field. -/
theorem counter_perm :
    (tallied (entries.flatMap fun e => e.filters.keys.map filterField)).entries.Perm
      ((fields entries).map fun f => (f, keyUses entries f)) := by
  refine (List.perm_ext_iff_of_nodup (Dict.nodup _).of_map ?_).mpr fun x => ?_
  · exact (List.nodup_dedup _).map fun f g h => (Prod.mk.inj h).1
  · obtain ⟨f, n⟩ := x
    rw [mem_entries_tallied, count_fields, List.mem_map, fields]
    constructor
    · rintro ⟨hf, rfl⟩
      exact ⟨f, List.mem_dedup.mpr hf, rfl⟩
    · rintro ⟨g, hg, heq⟩
      cases heq
      exact ⟨List.mem_dedup.mp hg, rfl⟩

/-- The answer for the entries in the window. -/
def topOf (limit : Nat) : List FilterFrequency :=
  ((((tallied (entries.flatMap fun e => e.filters.keys.map filterField)).entries.insertionSort
    fun a b => filterBefore a b = true).take limit).map fun e => ⟨e.1, e.2⟩)

variable {entries}

/-- The answer has the leading fields, with the number of their keys. -/
theorem mem_topOf_iff {limit : Nat} {t : FilterFrequency} :
    t ∈ topOf entries limit ↔ Leading entries limit t.key ∧ t.count = keyUses entries t.key := by
  have hperm := counter_perm entries
  have hnodup : (tallied (entries.flatMap fun e => e.filters.keys.map filterField)).entries.Nodup :=
    (Dict.nodup _).of_map
  have hmem : t ∈ topOf entries limit ↔ (t.key, t.count) ∈
      ((tallied (entries.flatMap fun e => e.filters.keys.map filterField)).entries.insertionSort
        fun a b => filterBefore a b = true).take limit := by
    rw [topOf, List.mem_map]
    constructor
    · rintro ⟨e, he, rfl⟩
      exact he
    · exact fun h => ⟨_, h, rfl⟩
  rw [hmem, mem_take_insertionSort_iff hnodup fun _ _ _ _ => filterBefore_antisymm, hperm.mem_iff,
    hperm.countP_eq, List.countP_map, Leading]
  have hentry : (t.key, t.count) ∈ (fields entries).map (fun f => (f, keyUses entries f)) ↔
      t.key ∈ fields entries ∧ t.count = keyUses entries t.key := by
    rw [List.mem_map]
    constructor
    · rintro ⟨f, hf, heq⟩
      obtain ⟨rfl, hcount⟩ := Prod.mk.inj heq
      exact ⟨hf, hcount.symm⟩
    · rintro ⟨hf, hcount⟩
      exact ⟨t.key, hf, by rw [hcount]⟩
  rw [hentry, and_right_comm]
  refine and_congr_left fun hcount => and_congr_right fun _ => ?_
  rw [hcount]
  refine iff_of_eq (congrArg (· < limit) (List.countP_congr fun g _ => ?_))
  simp only [Function.comp_apply, decide_eq_true_eq, ne_eq, Prod.mk.injEq, not_and]
  refine and_congr_right fun _ => ?_
  constructor
  · rintro h rfl
    exact h rfl rfl
  · exact fun h hg => absurd hg h

theorem topOf_ordered (limit : Nat) : (topOf entries limit).Pairwise fun a b =>
    b.count < a.count ∨ a.count = b.count ∧ a.key.toList < b.key.toList := by
  have hsorted := List.pairwise_insertionSort (fun a b : String × Nat => filterBefore a b = true)
    (tallied (entries.flatMap fun e => e.filters.keys.map filterField)).entries
  have hnodup := List.pairwise_map.mp (List.nodup_iff_pairwise_ne.mp
    (((List.perm_insertionSort (fun a b => filterBefore a b = true) _).map Prod.fst).nodup_iff.mpr
      (tallied (entries.flatMap fun e => e.filters.keys.map filterField)).nodup))
  refine List.pairwise_map.mpr ((hsorted.and hnodup).sublist (List.take_sublist _ _) |>.imp ?_)
  rintro a b ⟨hbefore, hne⟩
  exact ((filterBefore_iff a b).mp hbefore).strict fun heq => hne (String.toList_inj.mp heq)

/-- What is left out comes behind all that is listed, and only a full list leaves something out. -/
theorem topOf_highest {limit : Nat} {f : String} (hf : 0 < keyUses entries f)
    (hout : f ∉ (topOf entries limit).map FilterFrequency.key) :
    (topOf entries limit).length = limit ∧ ∀ t ∈ topOf entries limit,
      filterBefore (t.key, t.count) (f, keyUses entries f) = true := by
  have hsorted := List.pairwise_insertionSort (fun a b : String × Nat => filterBefore a b = true)
    (tallied (entries.flatMap fun e => e.filters.keys.map filterField)).entries
  have hmem : (f, keyUses entries f) ∈
      (tallied (entries.flatMap fun e => e.filters.keys.map filterField)).entries.insertionSort
        fun a b => filterBefore a b = true := by
    rw [(List.perm_insertionSort _ _).mem_iff, (counter_perm entries).mem_iff, List.mem_map]
    exact ⟨f, (mem_fields_iff entries).mpr hf, rfl⟩
  unfold topOf at hout ⊢
  generalize (tallied (entries.flatMap fun e => e.filters.keys.map filterField)).entries.insertionSort
    (fun a b => filterBefore a b = true) = sorted at *
  rw [← List.take_append_drop limit sorted] at hmem hsorted
  have hdrop : (f, keyUses entries f) ∈ sorted.drop limit := by
    refine (List.mem_append.mp hmem).resolve_left fun h => hout ?_
    exact List.mem_map.mpr ⟨⟨f, keyUses entries f⟩, List.mem_map.mpr ⟨_, h, rfl⟩, rfl⟩
  constructor
  · have hlen := List.length_pos_of_mem hdrop
    rw [List.length_drop] at hlen
    rw [List.length_map, List.length_take]
    omega
  · intro t ht
    obtain ⟨e, he, rfl⟩ := List.mem_map.mp ht
    exact (List.pairwise_append.mp hsorted).2.2 e he _ hdrop

/-- **When the answer is right.** It counts queries exactly when no query has two keys of a leading
field. A field that is not leading may be counted too high without harm, since it is not in the
answer all the same. -/
theorem popular_topOf_iff (limit : Nat) : Popular entries limit (topOf entries limit) ↔
    ∀ f, Leading entries limit f → ∀ e ∈ entries, keysOn f e ≤ 1 := by
  constructor
  · intro h f hf
    have hmem : (⟨f, keyUses entries f⟩ : FilterFrequency) ∈ topOf entries limit :=
      mem_topOf_iff.mpr ⟨hf, rfl⟩
    exact (queries_le_keyUses entries f).2.1.mp (h.counted _ hmem).1.symm
  · intro h
    have hcount : ∀ t ∈ topOf entries limit, t.count = keyUses entries t.key ∧
        keyUses entries t.key = queries entries t.key ∧ 0 < keyUses entries t.key := by
      intro t ht
      obtain ⟨hlead, hcount⟩ := mem_topOf_iff.mp ht
      exact ⟨hcount, ((queries_le_keyUses entries t.key).2.1.mpr (h t.key hlead)).symm,
        (mem_fields_iff entries).mp hlead.1⟩
    refine ⟨fun t ht => ?_, topOf_ordered limit, ?_, fun f hf hout => ?_⟩
    · obtain ⟨huses, hqueries, hpos⟩ := hcount t ht
      exact ⟨huses.trans hqueries, huses ▸ hpos⟩
    · rw [topOf, List.length_map, List.length_take]
      exact Nat.min_le_left _ _
    · obtain ⟨hle, -, hpos⟩ := queries_le_keyUses entries f
      obtain ⟨hlen, hbefore⟩ := topOf_highest (hpos.mp hf) hout
      refine ⟨hlen, fun t ht => ?_⟩
      have hne : t.key ≠ f := fun heq => hout (heq ▸ List.mem_map_of_mem ht)
      rcases (filterBefore_iff _ _).mp (hbefore t ht) with hlt | ⟨heq, hname⟩
      · exact .inl (hle.trans_lt hlt)
      · rcases hle.lt_or_eq with hlt | hsame
        · exact .inl (hlt.trans_eq heq.symm)
        · refine .inr ⟨heq.trans hsame.symm, lt_of_le_of_ne hname fun h => hne ?_⟩
          exact String.toList_inj.mp h

end Counter

/-- **When filter popularity counts queries.** For every query log and window: the answer has the
fields that most queries filter on, each with the number of these queries, exactly when no scanned
query in the window has two keys of one field among the `limit` fields that have the most keys.

With a clock so early that the window has no beginning the function raises; both sides then ask
nothing. -/
theorem popular_iff (queryLog : List QueryLogEntry) (tenantId : String) (now : Datetime)
    (days : Int) (limit : Nat) :
    (∀ cutoff, now.subDays days = some cutoff →
      ∃ top, topFilterKeys queryLog tenantId now days limit = .ok top ∧
        Popular (scanned queryLog tenantId cutoff) limit top) ↔
    ∀ cutoff, now.subDays days = some cutoff → ∀ f,
      Leading (scanned queryLog tenantId cutoff) limit f →
        ∀ e ∈ scanned queryLog tenantId cutoff, keysOn f e ≤ 1 := by
  refine forall₂_congr fun cutoff hcutoff => ?_
  rw [← popular_topOf_iff]
  have htop : topFilterKeys queryLog tenantId now days limit =
      .ok (topOf (scanned queryLog tenantId cutoff) limit) := by
    rw [topFilterKeys, hcutoff]
    simp only [upTo, Int.natCast_nonneg, if_true, Int.toNat_natCast]
    rfl
  constructor
  · rintro ⟨top, hok, h⟩
    rw [htop] at hok
    cases hok
    exact h
  · exact fun h => ⟨_, htop, h⟩

/-- One search for a price range. -/
private def priceRange : QueryLogEntry where
  tenantId := "t"
  filters := (Dict.empty.set "min_price" (.int 100)).set "max_price" (.int 200)
  createdAt := 1000

/-- The one search for a price range is counted as two queries. -/
theorem not_popular : ¬ ∀ (queryLog : List QueryLogEntry) (tenantId : String) (now : Datetime)
    (days : Int) (limit : Nat) (cutoff : Datetime), now.subDays days = some cutoff →
      ∃ top, topFilterKeys queryLog tenantId now days limit = .ok top ∧
        Popular (scanned queryLog tenantId cutoff) limit top := by
  intro h
  obtain ⟨top, htop, hpopular⟩ := h [priceRange] "t" 1000 0 5 1000 (by decide)
  have hok : topFilterKeys [priceRange] "t" 1000 0 (5 : Nat) = .ok [⟨"price", 2⟩] := by rfl
  rw [hok] at htop
  cases htop
  exact absurd (hpopular.counted ⟨"price", 2⟩ List.mem_cons_self).1 (by decide)

end Wapsell.Resources
