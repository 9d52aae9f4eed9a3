import Wapsell.Lib.Sort
import Wapsell.Py.Rounding
import Wapsell.Resources.Learning

/-!
# What schema discovery finds

`discover_schema` fills three tables in one pass over the sampled rows. Up
to any point of the pass each table says of a key what the values read so
far say of it, and the answer is read off the tables. The threshold of
`is_numeric` is compared with a quotient of doubles, which is seventy
percent exactly for every sample that fits a machine.

The induction runs over the entries of the sample, row after row, and
what it carries is `TalliesUpTo`: three equations that say what the
tables hold of a key. Everything the answer says of a field is then a
computation on the values of that key.

The threshold is a float, the double nearest to 0.7, which is slightly
less. So a share of just under seventy percent can pass, but in no
sample of up to 10 ^ 15 rows.
-/

namespace Py

mutual

/-- Every integer in the value has a double. -/
def Json.inFloatRange : Json → Bool
  | .int n => (floatOfInt n).isOk
  | .arr items => inFloatRangeItems items
  | .obj fields => inFloatRangeFields fields
  | _ => true

def Json.inFloatRangeItems : List Json → Bool
  | [] => true
  | item :: items => item.inFloatRange && inFloatRangeItems items

def Json.inFloatRangeFields : List (String × Json) → Bool
  | [] => true
  | (_, value) :: fields => value.inFloatRange && inFloatRangeFields fields

end

end Py

namespace Wapsell.Resources

open Lib Py

/-- The value is no boolean and converts to a number. -/
def isNumber (U : Unicode) (value : Json) : Bool :=
  match value with
  | .bool _ => false
  | value => (value.toFloat U).isOk

theorem isNumericValue_eq {U : Unicode} {value : Json} (h : value.inFloatRange = true) :
    isNumericValue U value = .ok (isNumber U value) := by
  cases value with
  | null => rfl
  | bool b => rfl
  | int n =>
    rw [Json.inFloatRange] at h
    simp only [isNumericValue, isNumber, Json.toFloat_int]
    cases hn : floatOfInt n with
    | ok d => rfl
    | error e =>
      rw [hn] at h
      cases h
  | float text => rfl
  | str s =>
    simp only [isNumericValue, isNumber, Json.toFloat_str]
    cases parseFloat U s <;> rfl
  | arr items => rfl
  | obj fields => rfl

/-! ## The pass over the entries -/

/-- The values of a key among the entries, in their order. -/
def valuesAt (key : String) (entries : List (String × Json)) : List Json :=
  entries.filterMap fun e => if e.1 = key then some e.2 else none

theorem valuesAt_concat (key : String) (entries : List (String × Json)) (name : String)
    (value : Json) : valuesAt key (entries ++ [(name, value)]) =
      valuesAt key entries ++ if name = key then [value] else [] := by
  rw [valuesAt, List.filterMap_append, ← valuesAt]
  by_cases h : name = key <;> simp [h]

/-- What the tables say once the entries are read: of each key how often it came, how many of its
values are numbers, and its first examples. -/
structure TalliesUpTo (U : Unicode) (entries : List (String × Json)) (tally : Tally) : Prop where
  keys : ∀ key, key ∈ tally.counts.keys ↔ key ∈ entries.map Prod.fst
  counts : ∀ key, tally.counts.getD key 0 = (valuesAt key entries).length
  examples : ∀ key, tally.examples.getD key [] =
    ((valuesAt key entries).take MAX_EXAMPLES_PER_FIELD).map (shortValue U)
  votes : ∀ key, tally.numericVotes.getD key 0 = (valuesAt key entries).countP (isNumber U)

theorem getD_set {α : Type} (d : Dict String α) (name key : String) (v dflt : α) :
    (d.set name v).getD key dflt = if name = key then v else d.getD key dflt := by
  unfold Dict.getD
  rw [Dict.get?_set]
  split <;> rfl

/-- One entry more. -/
theorem TalliesUpTo.add {U : Unicode} {entries : List (String × Json)} {tally : Tally}
    (h : TalliesUpTo U entries tally) (name : String) {value : Json}
    (hvalue : value.inFloatRange = true) : ∃ tally', tally.add U name value = .ok tally' ∧
      TalliesUpTo U (entries ++ [(name, value)]) tally' := by
  rw [Tally.add, isNumericValue_eq hvalue, ok_bind]
  refine ⟨_, rfl, fun key => ?_, fun key => ?_, fun key => ?_, fun key => ?_⟩
  · rw [← Dict.get?_isSome_iff, Dict.get?_set, List.map_append, List.mem_append, ← h.keys,
      ← Dict.get?_isSome_iff, List.map_singleton, List.mem_singleton, eq_comm (a := key)]
    by_cases heq : name = key <;> simp [heq]
  · rw [getD_set, valuesAt_concat, h.counts name, h.counts key]
    by_cases heq : name = key <;> simp [heq]
  · rw [getD_set, valuesAt_concat, h.examples name, h.examples key]
    by_cases heq : name = key
    · subst heq
      rw [if_pos rfl, if_pos rfl, List.length_map, List.length_take]
      by_cases hlen : (valuesAt name entries).length < MAX_EXAMPLES_PER_FIELD
      · rw [if_pos (by omega), List.take_of_length_le hlen.le, List.take_of_length_le (by
          rw [List.length_append, List.length_singleton]
          omega), List.map_append, List.map_singleton]
      · rw [if_neg (by omega), List.take_append_of_le_length (by omega)]
    · rw [if_neg heq, if_neg heq, List.append_nil]
  · rw [valuesAt_concat, List.countP_append]
    by_cases heq : name = key
    · subst heq
      cases hnumber : isNumber U value with
      | true =>
        simp only [if_true, getD_set, h.votes]
        simp [hnumber]
      | false =>
        simp only [Bool.false_eq_true, if_false, h.votes]
        simp [hnumber]
    · cases isNumber U value with
      | true => simp [getD_set, heq, h.votes]
      | false => simp [heq, h.votes]

/-- All entries. -/
theorem TalliesUpTo.addAll {U : Unicode} {rest : List (String × Json)}
    (hrest : ∀ e ∈ rest, e.2.inFloatRange = true) {entries : List (String × Json)} {tally : Tally}
    (h : TalliesUpTo U entries tally) : ∃ tally', Tally.addAll U tally rest = .ok tally' ∧
      TalliesUpTo U (entries ++ rest) tally' := by
  induction rest generalizing entries tally with
  | nil => exact ⟨tally, rfl, by rwa [List.append_nil]⟩
  | cons e rest ih =>
    obtain ⟨name, value⟩ := e
    obtain ⟨hvalue, hrest⟩ := List.forall_mem_cons.mp hrest
    obtain ⟨next, hnext, h'⟩ := h.add name hvalue
    obtain ⟨tally', htally', h''⟩ := ih hrest h'
    refine ⟨tally', ?_, ?_⟩
    · rw [Tally.addAll, hnext, ok_bind]
      exact htally'
    · rwa [List.append_assoc] at h''

theorem talliesUpTo_nil (U : Unicode) : TalliesUpTo U [] {} where
  keys _ := Iff.rfl
  counts _ := rfl
  examples _ := rfl
  votes _ := rfl

/-! ## The values of the rows -/

/-- The values of a key in the rows that have it, in their order. -/
def valuesOf (key : String) (sample : List Resource) : List Json :=
  sample.filterMap fun r => r.data.get? key

theorem valuesAt_entries (key : String) (d : Dict String Json) :
    valuesAt key d.entries = (d.get? key).toList := by
  obtain ⟨entries, hnodup⟩ := d
  show valuesAt key entries = (Dict.find key entries).toList
  induction entries with
  | nil => rfl
  | cons e entries ih =>
    obtain ⟨name, value⟩ := e
    rw [List.map_cons, List.nodup_cons] at hnodup
    rw [valuesAt, List.filterMap_cons, Dict.find]
    by_cases heq : name = key
    · subst heq
      have hnone := ih hnodup.2
      rw [Dict.find_eq_none_of_not_mem hnodup.1] at hnone
      rw [if_pos rfl, if_pos rfl]
      exact congrArg (value :: ·) hnone
    · rw [if_neg heq, if_neg heq]
      exact ih hnodup.2

theorem valuesAt_flatMap (key : String) (sample : List Resource) :
    valuesAt key (sample.flatMap fun r => r.data.entries) = valuesOf key sample := by
  induction sample with
  | nil => rfl
  | cons r sample ih =>
    rw [List.flatMap_cons, valuesAt, List.filterMap_append, ← valuesAt, ← valuesAt, ih,
      valuesAt_entries]
    simp only [valuesOf, List.filterMap_cons]
    cases r.data.get? key <;> rfl

theorem length_valuesOf (key : String) (sample : List Resource) :
    (valuesOf key sample).length = sample.countP fun r => (r.data.get? key).isSome := by
  rw [valuesOf, List.length_filterMap_eq_countP]

theorem mem_keys_iff (key : String) (sample : List Resource) :
    key ∈ (sample.flatMap fun r => r.data.entries).map Prod.fst ↔ ∃ r ∈ sample, key ∈ r.data.keys := by
  rw [List.map_flatMap, List.mem_flatMap]
  rfl

/-! ## The answer -/

/-- What schema discovery says of a sample. `numeric` tells from the numbers among a field's values
and from their number whether the field is numeric, so that the float and the exact threshold are
two instances. -/
structure ExactSchema (U : Unicode) (sample : List Resource) (numeric : Nat → Nat → Prop)
    (schema : List FieldFrequency) : Prop where
  names_nodup : (schema.map FieldFrequency.name).Nodup
  names : ∀ key, key ∈ schema.map FieldFrequency.name ↔ ∃ r ∈ sample, key ∈ r.data.keys
  presence : ∀ f ∈ schema, f.presence =
    divide (sample.countP fun r => (r.data.get? f.name).isSome) sample.length
  isNumeric : ∀ f ∈ schema, f.isNumeric = true ↔
    numeric ((valuesOf f.name sample).countP (isNumber U)) (valuesOf f.name sample).length
  exampleValues : ∀ f ∈ schema, f.exampleValues =
    ((valuesOf f.name sample).take MAX_EXAMPLES_PER_FIELD).map (shortValue U)
  ordered : schema.Pairwise fun a b => ∃ p q, a.presence = .finite p ∧ b.presence = .finite q ∧
    (q < p ∨ p = q ∧ a.name.toList < b.name.toList)

theorem ExactSchema.congr {U : Unicode} {sample : List Resource} {P Q : Nat → Nat → Prop}
    {schema : List FieldFrequency} (h : ExactSchema U sample P schema)
    (hPQ : ∀ votes count, votes ≤ count → 0 < count → count ≤ sample.length →
      (P votes count ↔ Q votes count)) : ExactSchema U sample Q schema := by
  refine { h with isNumeric := fun f hf => ?_ }
  rw [h.isNumeric f hf]
  obtain ⟨r, hr, hkey⟩ := (h.names f.name).mp (List.mem_map_of_mem hf)
  refine hPQ _ _ List.countP_le_length ?_ ?_
  · rw [length_valuesOf, List.countP_pos_iff]
    exact ⟨r, hr, Dict.get?_isSome_iff.mpr hkey⟩
  · rw [length_valuesOf]
    exact List.countP_le_length

/-- The share of the rows is a finite double. -/
theorem divide_eq {a b : Nat} (h : a ≤ b) : divide a b = .finite (Double.rounded (mkRat a b)) := by
  have hle : mkRat a b ≤ 1 := by
    rw [Rat.mkRat_eq_div]
    exact div_le_one_of_le₀ (by exact_mod_cast h) (Nat.cast_nonneg b)
  have hnonneg : 0 ≤ mkRat a b := by
    rw [Rat.mkRat_eq_div]
    positivity
  rw [divide, Double.ofRat_eq_of_le hnonneg (hle.trans (one_le_pow₀ one_le_two))]

/-- What a double is compared by, where it is finite. -/
def finiteValue : Double → ℚ
  | .finite q => q
  | _ => 0

theorem fieldBefore_iff {a b : FieldFrequency} {p q : ℚ} (ha : a.presence = .finite p)
    (hb : b.presence = .finite q) : fieldBefore a b = true ↔
      byScore (fun f : FieldFrequency => finiteValue f.presence) (fun f => f.name.toList) a b := by
  simp [fieldBefore, byScore, ha, hb, Double.le, Double.eq, finiteValue]

/-- Fields with a finite presence and different names are sorted strictly. -/
theorem ordered_of_finite {fields : List FieldFrequency}
    (hfinite : ∀ f ∈ fields, ∃ p, f.presence = .finite p)
    (hnodup : (fields.map FieldFrequency.name).Nodup) :
    (fields.insertionSort fun a b => fieldBefore a b = true).Pairwise fun a b =>
      ∃ p q, a.presence = .finite p ∧ b.presence = .finite q ∧
        (q < p ∨ p = q ∧ a.name.toList < b.name.toList) := by
  have hperm := List.perm_insertionSort (fun a b => fieldBefore a b = true) fields
  have hcongr := insertionSort_congr (l := fields) (r := fun a b => fieldBefore a b = true)
    (s := byScore (fun f : FieldFrequency => finiteValue f.presence) fun f => f.name.toList)
    fun a ha b hb => by
      obtain ⟨p, hp⟩ := hfinite a ha
      obtain ⟨q, hq⟩ := hfinite b hb
      exact fieldBefore_iff hp hq
  have hsorted := List.pairwise_insertionSort
    (byScore (fun f : FieldFrequency => finiteValue f.presence) fun f => f.name.toList) fields
  rw [← hcongr] at hsorted
  have hapart := List.pairwise_map.mp (List.nodup_iff_pairwise_ne.mp
    ((hperm.map FieldFrequency.name).nodup_iff.mpr hnodup))
  refine (hsorted.and hapart).imp_of_mem fun {a b} ha hb hab => ?_
  obtain ⟨p, hp⟩ := hfinite a (hperm.mem_iff.mp ha)
  obtain ⟨q, hq⟩ := hfinite b (hperm.mem_iff.mp hb)
  refine ⟨p, q, hp, hq, ?_⟩
  have hstrict := hab.1.strict fun heq => hab.2 (String.toList_inj.mp heq)
  rw [hp, hq] at hstrict
  exact hstrict

theorem Tally.field_isNumeric (tally : Tally) (total : Nat) (name : String) (count : Nat) :
    (tally.field total name count).isNumeric =
      NUMERIC_THRESHOLD.le (divide (tally.numericVotes.getD name 0) count) := by
  rw [Tally.field]

/-- **The schema of a sample.** One pass over the rows finds every field, with what the rows say of
it.

The range is asked for since `float` raises on an integer past the largest double, and nothing in
the pass catches it. -/
theorem schemaOf_exact {U : Unicode} {sample : List Resource}
    (hrange : ∀ r ∈ sample, ∀ e ∈ r.data.entries, e.2.inFloatRange = true) :
    ∃ schema, schemaOf U sample = .ok schema ∧ ExactSchema U sample
      (fun votes count => NUMERIC_THRESHOLD.le (divide votes count) = true) schema := by
  have hall : ∀ e ∈ sample.flatMap fun r => r.data.entries, e.2.inFloatRange = true := by
    intro e he
    obtain ⟨r, hr, he⟩ := List.mem_flatMap.mp he
    exact hrange r hr e he
  obtain ⟨tally, htally, hup⟩ := (talliesUpTo_nil U).addAll hall
  rw [List.nil_append] at hup
  -- what the tables say of a key of the counts
  have hentry : ∀ e ∈ tally.counts.entries, e.2 = (valuesOf e.1 sample).length := by
    intro e he
    have hget : tally.counts.get? e.1 = some e.2 := Dict.get?_eq_some_iff.mpr he
    have hcount := hup.counts e.1
    rw [Dict.getD, hget, valuesAt_flatMap] at hcount
    exact hcount
  have hpresence : ∀ e ∈ tally.counts.entries,
      (tally.field sample.length e.1 e.2).presence =
        .finite (Double.rounded (mkRat e.2 sample.length)) := by
    intro e he
    refine divide_eq ?_
    rw [hentry e he, length_valuesOf]
    exact List.countP_le_length
  let fields := tally.counts.entries.map fun e => tally.field sample.length e.1 e.2
  have hperm := List.perm_insertionSort (fun a b => fieldBefore a b = true) fields
  have hmem : ∀ f, f ∈ fields.insertionSort (fun a b => fieldBefore a b = true) ↔
      ∃ e ∈ tally.counts.entries, tally.field sample.length e.1 e.2 = f := fun f => by
    rw [hperm.mem_iff, List.mem_map]
  have hnames : fields.map FieldFrequency.name = tally.counts.keys := by
    rw [List.map_map]
    rfl
  refine ⟨fields.insertionSort fun a b => fieldBefore a b = true, ?_, ?_, ?_, ?_, ?_, ?_, ?_⟩
  · rw [schemaOf, htally, ok_bind]
    rfl
  · rw [(hperm.map FieldFrequency.name).nodup_iff, hnames]
    exact tally.counts.nodup
  · intro key
    rw [(hperm.map FieldFrequency.name).mem_iff, hnames, hup.keys, mem_keys_iff]
  · intro f hf
    obtain ⟨e, he, rfl⟩ := (hmem f).mp hf
    rw [Tally.field_presence, Tally.field_name, hentry e he, length_valuesOf]
  · intro f hf
    obtain ⟨e, he, rfl⟩ := (hmem f).mp hf
    have hvotes := hup.votes e.1
    rw [valuesAt_flatMap] at hvotes
    rw [Tally.field_name, ← hentry e he, ← hvotes, Tally.field_isNumeric]
  · intro f hf
    obtain ⟨e, he, rfl⟩ := (hmem f).mp hf
    have hexamples := hup.examples e.1
    rw [valuesAt_flatMap] at hexamples
    exact hexamples
  · refine ordered_of_finite (fun f hf => ?_) (hnames ▸ tally.counts.nodup)
    obtain ⟨e, he, rfl⟩ := List.mem_map.mp hf
    exact ⟨_, hpresence e he⟩

/-! ## The threshold -/

theorem NUMERIC_THRESHOLD_eq :
    NUMERIC_THRESHOLD = .finite ((6305039478318694 : Nat) / 2 ^ 53) := by
  decide +kernel

/-- The threshold is half a unit in the last place below seventy percent. -/
theorem threshold_le_iff {votes count : Nat} (h : votes ≤ count) (hcount : 0 < count) :
    NUMERIC_THRESHOLD.le (divide votes count) = true ↔
      12610078956637387 * count ≤ 2 ^ 54 * votes := by
  have hpos : (0 : ℚ) < count := by exact_mod_cast hcount
  have hshare : mkRat votes count = (votes : ℚ) / count := by
    rw [Rat.mkRat_eq_div, Int.cast_natCast]
  have hexact : Double.Exact (((6305039478318694 : Nat) : ℚ) / 2 ^ 53) :=
    Double.exact_div_pow (by norm_num) (by norm_num)
  have hwhole : 12610078956637387 * count ≤ 2 ^ 54 * votes ↔
      (12610078956637387 : ℚ) / 2 ^ 54 ≤ (votes : ℚ) / count := by
    rw [div_le_div_iff₀ (by positivity) hpos, ← Nat.cast_le (α := ℚ)]
    push_cast
    rw [mul_comm (votes : ℚ)]
    norm_num
  rw [hwhole, NUMERIC_THRESHOLD_eq, divide_eq h, hshare, Double.le, decide_eq_true_eq]
  have hnonneg : (0 : ℚ) ≤ (votes : ℚ) / count := by positivity
  have hone : (votes : ℚ) / count ≤ 1 :=
    div_le_one_of_le₀ (by exact_mod_cast h) (Nat.cast_nonneg count)
  generalize (votes : ℚ) / count = x at *
  rcases lt_or_ge x (1 / 2) with hlow | hlow
  · have hhalf : Double.rounded x ≤ ((1 : Nat) : ℚ) / 2 ^ 1 :=
      Double.rounded_le hnonneg (by linarith) (Double.exact_div_pow (by norm_num) (by norm_num))
    constructor
    · intro hle
      norm_num at hle hhalf
      linarith
    · intro hle
      norm_num at hle
      linarith
  · rcases hone.eq_or_lt with rfl | hhigh
    · refine iff_of_true (Double.le_rounded (by positivity) (by norm_num) hexact) (by norm_num)
    · rw [Double.even_le_rounded_iff hlow hhigh (by norm_num) (by norm_num)]
      norm_num

/-- Up to a thousand million million values, the threshold is seventy percent. -/
theorem seventy_percent_iff {votes count : Nat} (hcount : 0 < count) (h : count ≤ 10 ^ 15) :
    12610078956637387 * count ≤ 2 ^ 54 * votes ↔ 7 * count ≤ 10 * votes := by
  constructor <;> intro hle <;> omega
/-! ## The sample -/

/-- The newest `n` of the rows, newest first. -/
structure Newest (rows : List Resource) (n : Nat) (sample : List Resource) : Prop where
  length : sample.length = min n rows.length
  ordered : sample.Pairwise fun a b => b.createdAt ≤ a.createdAt
  others : ∃ rest, (sample ++ rest).Perm rows ∧
    ∀ a ∈ sample, ∀ b ∈ rest, b.createdAt ≤ a.createdAt

theorem listFor_newest (repo : Repository) (tenantId : String) (kind : Option String) (n : Nat) :
    Newest (repo.values.filter (Repository.listed tenantId kind)) n
      (repo.listFor tenantId kind n) := by
  have hsample : repo.listFor tenantId kind n =
      (Repository.newestFirst (repo.values.filter (Repository.listed tenantId kind))).take n := by
    rw [Repository.listFor, upTo, if_pos (Int.natCast_nonneg n), Int.toNat_natCast]
  rw [hsample, Repository.newestFirst]
  generalize repo.values.filter (Repository.listed tenantId kind) = rows
  have htotal : Std.Total fun a b : Resource => b.createdAt ≤ a.createdAt :=
    ⟨fun a b => Int.le_total b.createdAt a.createdAt⟩
  have htrans : IsTrans Resource fun a b => b.createdAt ≤ a.createdAt :=
    ⟨fun _ _ _ hab hbc => Int.le_trans hbc hab⟩
  have hperm := List.perm_insertionSort (fun a b : Resource => b.createdAt ≤ a.createdAt) rows
  have hsorted := List.pairwise_insertionSort (fun a b : Resource => b.createdAt ≤ a.createdAt) rows
  rw [← List.take_append_drop n (rows.insertionSort _)] at hsorted hperm
  obtain ⟨hordered, -, hothers⟩ := List.pairwise_append.mp hsorted
  refine ⟨?_, hordered, _, hperm, hothers⟩
  rw [List.length_take, List.length_insertionSort]

/-- Where the values of the rows have doubles, the answer is the schema of the sample. -/
theorem discoverSchema_exact (U : Unicode) {repo : Repository} (tenantId : String)
    (kind : Option String) (n : Nat)
    (hrange : ∀ r ∈ repo.values, ∀ e ∈ r.data.entries, e.2.inFloatRange = true) :
    ∃ schema, discoverSchema U repo tenantId n kind = .ok schema ∧
      ExactSchema U (repo.listFor tenantId kind n)
        (fun votes count => 12610078956637387 * count ≤ 2 ^ 54 * votes) schema := by
  obtain ⟨rest, hperm, -⟩ := (listFor_newest repo tenantId kind n).others
  have hrows : ∀ r ∈ repo.listFor tenantId kind n, r ∈ repo.values := fun r hr =>
    (List.mem_filter.mp (hperm.mem_iff.mp (List.mem_append_left rest hr))).1
  obtain ⟨schema, hschema, hexact⟩ :=
    schemaOf_exact (U := U) fun r hr => hrange r (hrows r hr)
  refine ⟨schema, ?_, hexact.congr fun votes count h hcount _ => threshold_le_iff h hcount⟩
  rw [discoverSchema]
  cases hsample : repo.listFor tenantId kind n with
  | nil =>
    rw [hsample] at hschema
    exact hschema
  | cons r sample =>
    rw [hsample] at hschema
    exact hschema

/-- **What is discovered.** For every store whose integers have doubles, the schema is exactly that
of the newest active rows.

The two bounds of the answer are the same condition on a share read twice: as the float comparison
has it for any sample, and as seventy percent for samples of up to 10 ^ 15 rows. -/
theorem discovered_schema {U : Unicode} {repo : Repository}
    (hrange : ∀ r ∈ repo.values, ∀ e ∈ r.data.entries, e.2.inFloatRange = true)
    (tenantId : String) (kind : Option String) (sampleSize : Nat) :
    ∃ sample schema, Newest (repo.values.filter (Repository.listed tenantId kind)) sampleSize sample ∧
      discoverSchema U repo tenantId sampleSize kind = .ok schema ∧
      ExactSchema U sample (fun votes count => 12610078956637387 * count ≤ 2 ^ 54 * votes) schema ∧
      (sample.length ≤ 10 ^ 15 →
        ExactSchema U sample (fun votes count => 7 * count ≤ 10 * votes) schema) := by
  obtain ⟨schema, hschema, hexact⟩ := discoverSchema_exact U tenantId kind sampleSize hrange
  refine ⟨_, schema, listFor_newest repo tenantId kind sampleSize, hschema, hexact, fun hlen => ?_⟩
  exact hexact.congr fun votes count _ hcount hle => seventy_percent_iff hcount (hle.trans hlen)

/-! ## What a double says of a share -/

section Shares

variable (data : Nat → Dict String Json) (n : Nat)

/-- A row of a catalog. -/
def catalogRow (i : Nat) : Resource where
  id := String.ofList (List.replicate i 'r')
  tenantId := "acme"
  data := data i
  createdAt := 0
  updatedAt := 0

/-- `n` rows of one tenant. -/
def catalog : Repository where
  entries := (List.range n).map fun i => ((catalogRow data i).id, catalogRow data i)
  nodup := by
    rw [List.map_map]
    refine List.Nodup.map_on (fun i _ j _ h => ?_) List.nodup_range
    have hlen := congrArg List.length (String.ofList_injective h)
    simpa using hlen

theorem listed_catalog :
    (catalog data n).values.filter (Repository.listed "acme" none) =
      (List.range n).map (catalogRow data) := by
  have hvalues : (catalog data n).values = (List.range n).map (catalogRow data) := by
    rw [Dict.values, catalog, List.map_map]
    rfl
  rw [hvalues, List.filter_eq_self]
  intro r hr
  obtain ⟨i, -, rfl⟩ := List.mem_map.mp hr
  simp [Repository.listed, catalogRow]

variable {data n}

/-- The sample of a whole catalog is the catalog. -/
theorem Newest.perm_catalog {sample : List Resource}
    (h : Newest ((catalog data n).values.filter (Repository.listed "acme" none)) n sample) :
    sample.Perm ((List.range n).map (catalogRow data)) := by
  obtain ⟨hlength, -, rest, hperm, -⟩ := h
  rw [listed_catalog] at hlength hperm
  have hrest : rest = [] := by
    have hlen := hperm.length_eq
    rw [List.length_append, hlength, List.length_map, List.length_range] at hlen
    exact List.eq_nil_of_length_eq_zero (by omega)
  rwa [hrest, List.append_nil] at hperm

theorem values_catalog {r : Resource} (h : r ∈ (catalog data n).values) :
    ∃ i < n, r = catalogRow data i := by
  rw [Dict.values, catalog, List.map_map] at h
  obtain ⟨i, hi, rfl⟩ := List.mem_map.mp h
  exact ⟨i, List.mem_range.mp hi, rfl⟩

theorem inFloatRange_catalog
    (h : ∀ i, ∀ e ∈ (data i).entries, e.2.inFloatRange = true) :
    ∀ r ∈ (catalog data n).values, ∀ e ∈ r.data.entries, e.2.inFloatRange = true := by
  intro r hr
  obtain ⟨i, -, rfl⟩ := values_catalog hr
  exact h i

theorem valuesOf_perm (key : String) {sample rows : List Resource} (h : sample.Perm rows) :
    (valuesOf key sample).Perm (valuesOf key rows) := h.filterMap _

/-- What is found of a field of a catalog that is read as a whole. -/
theorem catalog_field {U : Unicode} {schema : List FieldFrequency} (key : String)
    (hrange : ∀ i, ∀ e ∈ (data i).entries, e.2.inFloatRange = true)
    (hkey : ∃ i < n, key ∈ (data i).keys)
    (h : discoverSchema U (catalog data n) "acme" n none = .ok schema) :
    ∃ f ∈ schema, f.name = key ∧
      f.presence = divide (((List.range n).map (catalogRow data)).countP
        fun r => (r.data.get? key).isSome) n ∧
      (f.isNumeric = true ↔
        12610078956637387 * (valuesOf key ((List.range n).map (catalogRow data))).length ≤
          2 ^ 54 * (valuesOf key ((List.range n).map (catalogRow data))).countP (isNumber U)) := by
  obtain ⟨_, hschema, hexact⟩ := discoverSchema_exact U "acme" none n (inFloatRange_catalog hrange)
  cases h.symm.trans hschema
  have hperm := (listFor_newest (catalog data n) "acme" none n).perm_catalog
  obtain ⟨i, hi, hkey⟩ := hkey
  have hname : key ∈ schema.map FieldFrequency.name := (hexact.names key).mpr
    ⟨catalogRow data i, hperm.mem_iff.mpr (List.mem_map_of_mem (List.mem_range.mpr hi)), hkey⟩
  obtain ⟨f, hf, rfl⟩ := List.mem_map.mp hname
  refine ⟨f, hf, rfl, ?_, ?_⟩
  · rw [hexact.presence f hf, hperm.countP_eq, hperm.length_eq, List.length_map, List.length_range]
  · rw [hexact.isNumeric f hf, (valuesOf_perm _ hperm).countP_eq, (valuesOf_perm _ hperm).length_eq]

end Shares

/-- Only the first row has a price. -/
def firstPriced (i : Nat) : Dict String Json :=
  if i = 0 then Dict.empty.set "price" (.int 1) else Dict.empty

/-- The first `m` rows have a price, the others a mark that there is none. -/
def mostPriced (m i : Nat) : Dict String Json :=
  Dict.empty.set "price" (if i < m then .int 1 else .bool false)

theorem valuesOf_mostPriced (m k : Nat) :
    valuesOf "price" ((List.range (m + k)).map (catalogRow (mostPriced m))) =
      List.replicate m (.int 1) ++ List.replicate k (.bool false) := by
  have hvalue : ∀ i, ((catalogRow (mostPriced m) i).data.get? "price") =
      some (if i < m then .int 1 else .bool false) := fun i => Dict.get?_set_self _ _ _
  rw [valuesOf, List.filterMap_map]
  simp only [Function.comp_def, hvalue]
  rw [List.filterMap_eq_map', List.range_add, List.map_append, List.map_map]
  congr 1
  · rw [List.eq_replicate_iff]
    refine ⟨by simp, fun v hv => ?_⟩
    obtain ⟨i, hi, rfl⟩ := List.mem_map.mp hv
    rw [if_pos (List.mem_range.mp hi)]
  · rw [List.eq_replicate_iff]
    refine ⟨by simp, fun v hv => ?_⟩
    obtain ⟨i, -, rfl⟩ := List.mem_map.mp hv
    rw [Function.comp_apply, if_neg (by omega)]

theorem mostPriced_inFloatRange (m i : Nat) :
    ∀ e ∈ (mostPriced m i).entries, e.2.inFloatRange = true := by
  intro e he
  rw [mostPriced, Dict.entries_set_of_none _ rfl] at he
  rw [List.mem_singleton.mp he]
  split <;> decide +kernel

theorem firstPriced_inFloatRange (i : Nat) :
    ∀ e ∈ (firstPriced i).entries, e.2.inFloatRange = true := by
  intro e he
  unfold firstPriced at he
  split at he
  · rw [Dict.entries_set_of_none _ rfl] at he
    rw [List.mem_singleton.mp he]
    decide +kernel
  · cases he

theorem discovered_schema_mostPriced : ∃ sample schema,
    Newest ((catalog (mostPriced 7) 12).values.filter (Repository.listed "acme" none)) 10 sample ∧
      discoverSchema Unicode.ascii (catalog (mostPriced 7) 12) "acme" (10 : Nat) none = .ok schema ∧
      ExactSchema Unicode.ascii sample
        (fun votes count => 12610078956637387 * count ≤ 2 ^ 54 * votes) schema ∧
      (sample.length ≤ 10 ^ 15 → ExactSchema Unicode.ascii sample
        (fun votes count => 7 * count ≤ 10 * votes) schema) :=
  discovered_schema (inFloatRange_catalog (mostPriced_inFloatRange 7)) "acme" none 10

/-- The share of one row in three is no double, and of enough rows a share below seventy percent is
taken for as much. -/
theorem not_discovered_schema :
    (¬ ∀ (U : Unicode) (repo : Repository),
      (∀ r ∈ repo.values, ∀ e ∈ r.data.entries, e.2.inFloatRange = true) →
      ∀ (tenantId : String) (kind : Option String) (sampleSize : Nat), ∃ sample schema,
        Newest (repo.values.filter (Repository.listed tenantId kind)) sampleSize sample ∧
        discoverSchema U repo tenantId sampleSize kind = .ok schema ∧
        ∀ f ∈ schema, f.presence = .finite
          ((sample.countP fun r => (r.data.get? f.name).isSome : Nat) / sample.length)) ∧
    ¬ ∀ (U : Unicode) (repo : Repository),
      (∀ r ∈ repo.values, ∀ e ∈ r.data.entries, e.2.inFloatRange = true) →
      ∀ (tenantId : String) (kind : Option String) (sampleSize : Nat), ∃ sample schema,
        Newest (repo.values.filter (Repository.listed tenantId kind)) sampleSize sample ∧
        discoverSchema U repo tenantId sampleSize kind = .ok schema ∧
        ∀ f ∈ schema, f.isNumeric = true ↔ 7 * (valuesOf f.name sample).length ≤
          10 * (valuesOf f.name sample).countP (isNumber U) := by
  constructor
  · intro h
    obtain ⟨sample, schema, hnewest, hschema, hpresence⟩ := h Unicode.ascii (catalog firstPriced 3)
      (inFloatRange_catalog firstPriced_inFloatRange) "acme" none 3
    obtain ⟨f, hf, hname, hdivide, -⟩ := catalog_field "price" firstPriced_inFloatRange
      ⟨0, by decide, by decide⟩ hschema
    have hperm := hnewest.perm_catalog
    have hcount : ((List.range 3).map (catalogRow firstPriced)).countP
        (fun r => (r.data.get? "price").isSome) = 1 := by decide
    have hexact := hpresence f hf
    rw [hdivide, hname, hperm.countP_eq, hperm.length_eq, List.length_map, List.length_range,
      hcount] at hexact
    revert hexact
    decide +kernel
  · intro h
    -- for any numbers of priced and of other rows, both thresholds agree
    have hagree : ∀ m k, 0 < m →
        (12610078956637387 * (m + k) ≤ 2 ^ 54 * m ↔ 7 * (m + k) ≤ 10 * m) := by
      intro m k hm
      obtain ⟨sample, schema, hnewest, hschema, hnumeric⟩ :=
        h Unicode.ascii (catalog (mostPriced m) (m + k))
          (inFloatRange_catalog (mostPriced_inFloatRange m)) "acme" none (m + k)
      obtain ⟨f, hf, hname, -, hdouble⟩ := catalog_field "price"
        (mostPriced_inFloatRange m) ⟨0, by omega, List.mem_singleton_self _⟩ hschema
      have hstated := hnumeric f hf
      have hperm := valuesOf_perm "price" hnewest.perm_catalog
      have hnumber : isNumber Unicode.ascii (.int 1) = true := by decide +kernel
      have hmark : isNumber Unicode.ascii (.bool false) = false := rfl
      rw [hname, hperm.length_eq, hperm.countP_eq] at hstated
      rw [hstated, valuesOf_mostPriced, List.countP_append, List.countP_replicate,
        List.countP_replicate, hnumber, hmark, List.length_append, List.length_replicate,
        List.length_replicate, if_pos rfl, if_neg Bool.false_ne_true, Nat.add_zero] at hdouble
      exact hdouble.symm
    have hbelow := (hagree 7881299347898367 3377699720527873 (by omega)).mp (by omega)
    omega

end Wapsell.Resources
