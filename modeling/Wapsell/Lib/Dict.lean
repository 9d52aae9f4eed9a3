import Mathlib.Data.List.Nodup
import Mathlib.Data.List.Basic
import Mathlib.Data.List.Find

/-!
# Insertion-ordered dictionaries

The carrier of every in-memory adapter: a finite map that remembers the
order in which its keys first arrived. Assigning to a key that is already
present replaces the value and leaves the key where it is; a new key goes
to the end; removing a key closes the gap. Iteration follows the entries.

Key uniqueness is a field of the structure, so a dictionary with two
entries for one key cannot be written down, and the lookup laws below
carry no well-formedness premise.

The order is part of the value on purpose. What a listing answers, which
of two rows a scan meets first and what is dropped at a limit all depend
on it, so a finite map without an order would prove too much. Where an
order does not matter, the comparison is up to it (`Lib.Sort`).
-/

namespace Lib

/-- Entries in insertion order, at most one for each key. The uniqueness is part of the type and not
an invariant to be carried along: each operation below comes with the proof that it keeps it. -/
structure Dict (κ ν : Type*) where
  entries : List (κ × ν)
  nodup : (entries.map Prod.fst).Nodup

namespace Dict

variable {κ ν : Type*}

/-- The dictionary with no entry. -/
def empty : Dict κ ν := ⟨[], List.nodup_nil⟩

/-- The keys, in insertion order. -/
def keys (d : Dict κ ν) : List κ := d.entries.map Prod.fst

/-- The values, in insertion order of their keys. -/
def values (d : Dict κ ν) : List ν := d.entries.map Prod.snd

@[ext] theorem ext {d e : Dict κ ν} (h : d.entries = e.entries) : d = e := by
  cases d
  cases e
  cases h
  rfl

@[simp] theorem values_empty : (empty : Dict κ ν).values = [] := rfl

section Lookup

variable [DecidableEq κ]

/-- The first entry for a key in a raw list.

It is defined on raw lists, so that the laws can be proved by recursion on them. -/
def find (k : κ) : List (κ × ν) → Option ν
  | [] => none
  | (k', v) :: rest => if k' = k then some v else find k rest

/-- Lookup.

No key has two entries, so the first is the only one. -/
def get? (d : Dict κ ν) (k : κ) : Option ν := find k d.entries

/-- Assignment on raw entries: in place when the key is there, else at the end. -/
def assign (k : κ) (v : ν) : List (κ × ν) → List (κ × ν)
  | [] => [(k, v)]
  | (k', v') :: rest => if k' = k then (k, v) :: rest else (k', v') :: assign k v rest

theorem mem_keys_assign {k : κ} {v : ν} (x : κ) :
    ∀ l : List (κ × ν), x ∈ (assign k v l).map Prod.fst ↔ x = k ∨ x ∈ l.map Prod.fst
  | [] => by simp [assign]
  | (k', v') :: rest => by
    by_cases h : k' = k
    · subst h
      simp [assign]
    · simp only [assign, if_neg h, List.map_cons, List.mem_cons, mem_keys_assign x rest]
      tauto

theorem nodup_assign {k : κ} {v : ν} :
    ∀ {l : List (κ × ν)}, (l.map Prod.fst).Nodup → ((assign k v l).map Prod.fst).Nodup
  | [], _ => by simp [assign]
  | (k', v') :: rest, hl => by
    obtain ⟨hnot, hrest⟩ := List.nodup_cons.mp hl
    by_cases h : k' = k
    · subst h
      simpa [assign] using hl
    · simp only [assign, if_neg h, List.map_cons, List.nodup_cons]
      refine ⟨fun hm => ?_, nodup_assign hrest⟩
      rcases (mem_keys_assign k' rest).mp hm with he | hm
      · exact h he
      · exact hnot hm

/-- Assignment `d[k] = v`.

A key that is there keeps its place, as in Python. -/
def set (d : Dict κ ν) (k : κ) (v : ν) : Dict κ ν :=
  ⟨assign k v d.entries, nodup_assign d.nodup⟩

/-- Removal of a key, if present.

A key that is set again afterwards comes to the end. -/
def erase (d : Dict κ ν) (k : κ) : Dict κ ν :=
  ⟨d.entries.filter (fun e => decide (e.1 ≠ k)),
    d.nodup.sublist (List.Sublist.map Prod.fst List.filter_sublist)⟩

/-- Every value replaced by its image; keys and order stay. -/
def map {μ : Type*} (f : ν → μ) (d : Dict κ ν) : Dict κ μ :=
  ⟨d.entries.map fun e => (e.1, f e.2), by
    have h : (d.entries.map fun e => (e.1, f e.2)).map Prod.fst = d.entries.map Prod.fst := by
      rw [List.map_map]
      rfl
    rw [h]
    exact d.nodup⟩

/-- Lookup with a default. -/
def getD (d : Dict κ ν) (k : κ) (dflt : ν) : ν := (d.get? k).getD dflt

@[simp] theorem get?_empty (k : κ) : (empty : Dict κ ν).get? k = none := rfl

theorem find_assign {k : κ} {v : ν} (x : κ) :
    ∀ l : List (κ × ν), find x (assign k v l) = if k = x then some v else find x l
  | [] => rfl
  | (k', v') :: rest => by
    by_cases h : k' = k
    · subst h
      by_cases hx : k' = x <;> simp [assign, find, hx]
    · by_cases hx : k' = x
      · have hkx : k ≠ x := fun e => h (hx.trans e.symm)
        simp only [assign, if_neg h, find, if_pos hx, if_neg hkx]
      · simp only [assign, if_neg h, find, if_neg hx, find_assign x rest]

/-- The value last assigned is the one read back; no other key moves. -/
@[simp] theorem get?_set (d : Dict κ ν) (k x : κ) (v : ν) :
    (d.set k v).get? x = if k = x then some v else d.get? x :=
  find_assign x d.entries

theorem get?_set_self (d : Dict κ ν) (k : κ) (v : ν) : (d.set k v).get? k = some v := by
  simp

theorem get?_set_ne (d : Dict κ ν) {k x : κ} (v : ν) (h : k ≠ x) :
    (d.set k v).get? x = d.get? x := by
  simp [h]

theorem assign_assign {k : κ} {v w : ν} :
    ∀ l : List (κ × ν), assign k w (assign k v l) = assign k w l
  | [] => by simp [assign]
  | (k', v') :: rest => by
    by_cases h : k' = k
    · simp [assign, h]
    · simp only [assign, if_neg h, assign_assign rest]

/-- The last of two assignments to one key counts. -/
theorem set_set (d : Dict κ ν) (k : κ) (v w : ν) : (d.set k v).set k w = d.set k w :=
  ext (assign_assign d.entries)

/-- No assignment removes a key. -/
theorem get?_set_isSome {d : Dict κ ν} {x : κ} (k : κ) (v : ν) (h : (d.get? x).isSome) :
    ((d.set k v).get? x).isSome := by
  rw [get?_set]
  split
  · rfl
  · exact h

theorem find_filter_ne {k : κ} (x : κ) :
    ∀ l : List (κ × ν), find x (l.filter (fun e => decide (e.1 ≠ k))) =
      if k = x then none else find x l
  | [] => by simp [find]
  | (k', v') :: rest => by
    have ih := find_filter_ne (k := k) x rest
    by_cases h : k' = k
    · subst h
      rw [List.filter_cons_of_neg (by simp), ih]
      by_cases hx : k' = x <;> simp [find, hx]
    · rw [List.filter_cons_of_pos (by simpa using h)]
      by_cases hx : k' = x
      · have hkx : k ≠ x := fun e => h (hx.trans e.symm)
        simp [find, hx, hkx]
      · simp only [find, if_neg hx]
        exact ih

/-- An erased key is gone; no other key moves. -/
@[simp] theorem get?_erase (d : Dict κ ν) (k x : κ) :
    (d.erase k).get? x = if k = x then none else d.get? x :=
  find_filter_ne x d.entries

/-- An entry after an assignment is the new one, or one that was there under another key. -/
theorem get?_set_eq_some {d : Dict κ ν} {k x : κ} {v w : ν} (h : (d.set k v).get? x = some w) :
    (k = x ∧ v = w) ∨ (k ≠ x ∧ d.get? x = some w) := by
  rw [get?_set] at h
  split at h
  next hk => exact .inl ⟨hk, Option.some.inj h⟩
  next hk => exact .inr ⟨hk, h⟩

/-- An entry after a removal was there under another key. -/
theorem get?_erase_eq_some {d : Dict κ ν} {k x : κ} {w : ν} (h : (d.erase k).get? x = some w) :
    k ≠ x ∧ d.get? x = some w := by
  rw [get?_erase] at h
  split at h
  next hk => cases h
  next hk => exact ⟨hk, h⟩

/-- Every entry has `P`. With the laws for assignment and removal this is how an invariant of a
store is kept by its operations, one entry at a time. -/
def Forall (P : κ → ν → Prop) (d : Dict κ ν) : Prop := ∀ k v, d.get? k = some v → P k v

/-- Any two entries are related by `R`. -/
def Pairwise (R : ν → ν → Prop) (d : Dict κ ν) : Prop :=
  ∀ k k' v v', k ≠ k' → d.get? k = some v → d.get? k' = some v' → R v v'

/-- No two entries share a value of `f`; entries for which `f` is `none` are not compared, as NULL
is not in a unique index. -/
def Unique {μ : Type*} (f : ν → Option μ) (d : Dict κ ν) : Prop :=
  ∀ k k' v v' a, d.get? k = some v → d.get? k' = some v' → f v = some a → f v' = some a → k = k'

theorem Forall.set {P : κ → ν → Prop} {d : Dict κ ν} (h : d.Forall P) {k : κ} {v : ν}
    (hv : P k v) : (d.set k v).Forall P := by
  intro x w hx
  rcases get?_set_eq_some hx with ⟨rfl, rfl⟩ | ⟨-, hold⟩
  · exact hv
  · exact h x w hold

theorem Forall.erase {P : κ → ν → Prop} {d : Dict κ ν} (h : d.Forall P) (k : κ) :
    (d.erase k).Forall P :=
  fun x w hx => h x w (get?_erase_eq_some hx).2

theorem Pairwise.set {R : ν → ν → Prop} (hsymm : ∀ {a b}, R a b → R b a) {d : Dict κ ν}
    (h : d.Pairwise R) {k : κ} {v : ν} (hv : ∀ x w, k ≠ x → d.get? x = some w → R v w) :
    (d.set k v).Pairwise R := by
  intro x y a b hxy hx hy
  rcases get?_set_eq_some hx with ⟨rfl, rfl⟩ | ⟨hkx, hx⟩
  · rcases get?_set_eq_some hy with ⟨rfl, rfl⟩ | ⟨hky, hy⟩
    · exact absurd rfl hxy
    · exact hv y b hky hy
  · rcases get?_set_eq_some hy with ⟨rfl, rfl⟩ | ⟨-, hy⟩
    · exact hsymm (hv x a hkx hx)
    · exact h x y a b hxy hx hy

theorem Pairwise.erase {R : ν → ν → Prop} {d : Dict κ ν} (h : d.Pairwise R) (k : κ) :
    (d.erase k).Pairwise R :=
  fun x y a b hxy hx hy => h x y a b hxy (get?_erase_eq_some hx).2 (get?_erase_eq_some hy).2

theorem Unique.set {μ : Type*} {f : ν → Option μ} {d : Dict κ ν} (h : d.Unique f) {k : κ} {v : ν}
    (hv : ∀ x w a, d.get? x = some w → f w = some a → f v = some a → k = x) :
    (d.set k v).Unique f := by
  intro x y a b m hx hy ha hb
  rcases get?_set_eq_some hx with ⟨rfl, rfl⟩ | ⟨-, hx⟩
  · rcases get?_set_eq_some hy with ⟨rfl, rfl⟩ | ⟨-, hy⟩
    · rfl
    · exact hv y b m hy hb ha
  · rcases get?_set_eq_some hy with ⟨rfl, rfl⟩ | ⟨-, hy⟩
    · exact (hv x a m hx ha hb).symm
    · exact h x y a b m hx hy ha hb

/-- An assignment keeps the values apart exactly when no other key has the new one. -/
theorem Unique.set_iff {μ : Type*} {f : ν → Option μ} {d : Dict κ ν} (h : d.Unique f) {k : κ}
    {v : ν} : (d.set k v).Unique f ↔
      ∀ x w, k ≠ x → d.get? x = some w → ∀ a, f v = some a → f w ≠ some a := by
  constructor
  · intro hset x w hne hx a ha hw
    have hx' : (d.set k v).get? x = some w := by rw [get?_set_ne d v hne, hx]
    exact hne (hset k x v w a (get?_set_self d k v) hx' ha hw)
  · intro hv
    refine h.set fun x w a hx hw ha => ?_
    by_contra hne
    exact hv x w hne hx a ha hw

/-- Part of a dictionary keeps apart what the whole does. -/
theorem Unique.of_kept {μ : Type*} {f : ν → Option μ} {d d' : Dict κ ν} (h : d'.Unique f)
    (hkept : ∀ k v, d.get? k = some v → d'.get? k = some v) : d.Unique f :=
  fun x y a b m hx hy => h x y a b m (hkept x a hx) (hkept y b hy)

theorem Unique.erase {μ : Type*} {f : ν → Option μ} {d : Dict κ ν} (h : d.Unique f) (k : κ) :
    (d.erase k).Unique f :=
  fun x y a b m hx hy => h x y a b m (get?_erase_eq_some hx).2 (get?_erase_eq_some hy).2

theorem find_eq_some_iff {k : κ} {v : ν} :
    ∀ {l : List (κ × ν)}, (l.map Prod.fst).Nodup → (find k l = some v ↔ (k, v) ∈ l)
  | [], _ => by simp [find]
  | (k', v') :: rest, hl => by
    obtain ⟨hnot, hrest⟩ := List.nodup_cons.mp hl
    by_cases h : k' = k
    · subst h
      have hno : (k', v) ∉ rest := fun hm => hnot (List.mem_map.mpr ⟨(k', v), hm, rfl⟩)
      simp only [find, if_true, Option.some.injEq, List.mem_cons, Prod.mk.injEq, true_and, hno,
        or_false]
      exact eq_comm
    · have hne : ¬ k = k' := fun e => h e.symm
      simp only [find, if_neg h, find_eq_some_iff hrest, List.mem_cons, Prod.mk.injEq, hne,
        false_and, false_or]

theorem find_append {k : κ} : ∀ {l l' : List (κ × ν)}, k ∉ l.map Prod.fst →
    find k (l ++ l') = find k l'
  | [], _, _ => rfl
  | (k', v) :: l, l', h => by
    rw [List.map_cons, List.mem_cons, not_or] at h
    rw [List.cons_append, find, if_neg (Ne.symm h.1), find_append h.2]

theorem find_map {μ : Type*} (f : ν → μ) (x : κ) :
    ∀ l : List (κ × ν), find x (l.map fun e => (e.1, f e.2)) = (find x l).map f
  | [] => rfl
  | (k, v) :: rest => by
    by_cases h : k = x
    · simp only [List.map_cons, find, if_pos h, Option.map_some]
    · simp only [List.map_cons, find, if_neg h, find_map f x rest]

@[simp] theorem get?_map {μ : Type*} (f : ν → μ) (d : Dict κ ν) (x : κ) :
    (d.map f).get? x = (d.get? x).map f :=
  find_map f x d.entries

/-- Lookup answers exactly the entries. -/
theorem get?_eq_some_iff {d : Dict κ ν} {k : κ} {v : ν} :
    d.get? k = some v ↔ (k, v) ∈ d.entries :=
  find_eq_some_iff d.nodup

/-- A lookup sees what two dictionaries have in common. -/
theorem get?_of_filter_eq {d d' : Dict κ ν} {p : κ × ν → Bool}
    (h : d.entries.filter p = d'.entries.filter p) {k : κ} {v : ν} (hv : d.get? k = some v)
    (hp : p (k, v) = true) : d'.get? k = some v := by
  have hmem : (k, v) ∈ d.entries.filter p := List.mem_filter.mpr ⟨get?_eq_some_iff.mp hv, hp⟩
  rw [h] at hmem
  exact get?_eq_some_iff.mpr (List.mem_filter.mp hmem).1

theorem get?_isSome_iff {d : Dict κ ν} {k : κ} : (d.get? k).isSome ↔ k ∈ d.keys := by
  constructor
  · intro h
    obtain ⟨v, hv⟩ := Option.isSome_iff_exists.mp h
    exact List.mem_map.mpr ⟨(k, v), get?_eq_some_iff.mp hv, rfl⟩
  · intro h
    obtain ⟨⟨k', v⟩, hm, rfl⟩ := List.mem_map.mp h
    rw [get?_eq_some_iff.mpr hm]
    rfl

theorem get?_eq_none_iff {d : Dict κ ν} {k : κ} : d.get? k = none ↔ k ∉ d.keys := by
  rw [← get?_isSome_iff, Option.not_isSome_iff_eq_none]

theorem find_eq_none_of_not_mem {k : κ} : ∀ {l : List (κ × ν)}, k ∉ l.map Prod.fst →
    find k l = none
  | [], _ => rfl
  | (k', v) :: rest, h => by
    rw [List.map_cons, List.mem_cons, not_or] at h
    rw [find, if_neg (Ne.symm h.1), find_eq_none_of_not_mem h.2]

/-- Assigning entries one after the other: theirs where they have the key. -/
theorem get?_foldl_set (k : κ) : ∀ {l : List (κ × ν)}, (l.map Prod.fst).Nodup →
    ∀ d : Dict κ ν, (l.foldl (fun d e => d.set e.1 e.2) d).get? k = (find k l).or (d.get? k)
  | [], _, d => rfl
  | (k', v) :: rest, hl, d => by
    obtain ⟨hnot, hrest⟩ := List.nodup_cons.mp hl
    rw [List.foldl_cons, get?_foldl_set k hrest, get?_set, find]
    by_cases h : k' = k
    · -- no later entry has the key
      subst h
      rw [if_pos rfl, if_pos rfl, find_eq_none_of_not_mem hnot]
      rfl
    · rw [if_neg h, if_neg h]

/-- A value of the dictionary is the value of some key. -/
theorem mem_values_iff {d : Dict κ ν} {v : ν} : v ∈ d.values ↔ ∃ k, d.get? k = some v := by
  constructor
  · intro h
    obtain ⟨⟨k, v'⟩, hm, rfl⟩ := List.mem_map.mp h
    exact ⟨k, get?_eq_some_iff.mpr hm⟩
  · rintro ⟨k, hk⟩
    exact List.mem_map.mpr ⟨(k, v), get?_eq_some_iff.mp hk, rfl⟩

/-- Entries that share no value of `g` have a list of different ones. -/
theorem Unique.nodup_values {μ : Type*} {g : ν → μ} {d : Dict κ ν}
    (h : d.Unique fun v => some (g v)) : (d.values.map g).Nodup := by
  rw [values, List.map_map]
  refine List.Nodup.map_on (fun x hx y hy hxy => ?_) (List.Nodup.of_map _ d.nodup)
  have hx' := get?_eq_some_iff.mpr (show (x.1, x.2) ∈ d.entries from hx)
  have hy' := get?_eq_some_iff.mpr (show (y.1, y.2) ∈ d.entries from hy)
  have hkey := h x.1 y.1 x.2 y.2 (g x.2) hx' hy' rfl (congrArg some hxy.symm)
  rw [hkey, hy'] at hx'
  exact Prod.ext hkey (Option.some.inj hx').symm

theorem assign_of_not_mem {k : κ} {v : ν} :
    ∀ {l : List (κ × ν)}, k ∉ l.map Prod.fst → assign k v l = l ++ [(k, v)]
  | [], _ => rfl
  | (k', v') :: rest, h => by
    simp only [List.map_cons, List.mem_cons, not_or] at h
    simp only [assign, if_neg (Ne.symm h.1), assign_of_not_mem h.2, List.cons_append]

/-- A key that was not there goes to the end. -/
theorem entries_set_of_none {d : Dict κ ν} {k : κ} (v : ν) (h : d.get? k = none) :
    (d.set k v).entries = d.entries ++ [(k, v)] :=
  assign_of_not_mem (get?_eq_none_iff.mp h)

theorem values_set_of_none {d : Dict κ ν} {k : κ} (v : ν) (h : d.get? k = none) :
    (d.set k v).values = d.values ++ [v] := by
  simp only [values, entries_set_of_none v h, List.map_append, List.map_cons, List.map_nil]

theorem assign_of_mem {k : κ} {v : ν} :
    ∀ {l : List (κ × ν)}, (l.map Prod.fst).Nodup → k ∈ l.map Prod.fst →
      assign k v l = l.map fun e => if e.1 = k then (k, v) else e
  | [], _, h => by cases h
  | (k', v') :: rest, hnd, h => by
    obtain ⟨hnot, hrest⟩ := List.nodup_cons.mp hnd
    by_cases hk : k' = k
    · subst hk
      have hsame : ∀ e ∈ rest, (if e.1 = k' then (k', v) else e) = e := by
        intro e he
        have hne : e.1 ≠ k' := fun h' => hnot (List.mem_map.mpr ⟨e, he, h'⟩)
        rw [if_neg hne]
      rw [assign, if_pos rfl, List.map_cons, if_pos rfl, List.map_congr_left hsame, List.map_id']
    · have hmem : k ∈ rest.map Prod.fst := by
        rcases List.mem_cons.mp h with he | hm
        · exact absurd he.symm hk
        · exact hm
      rw [assign, if_neg hk, List.map_cons, if_neg hk, assign_of_mem hrest hmem]

/-- A key that was there keeps its place. -/
theorem entries_set_of_some {d : Dict κ ν} {k : κ} {old : ν} (v : ν) (h : d.get? k = some old) :
    (d.set k v).entries = d.entries.map fun e => if e.1 = k then (k, v) else e :=
  assign_of_mem d.nodup (get?_isSome_iff.mp (by rw [h]; rfl))

/-- Assigning to a key that is there changes no key. -/
theorem keys_set_of_mem {d : Dict κ ν} {k : κ} (v : ν) (h : k ∈ d.keys) :
    (d.set k v).keys = d.keys := by
  obtain ⟨old, hold⟩ := Option.isSome_iff_exists.mp (get?_isSome_iff.mpr h)
  rw [keys, entries_set_of_some v hold, List.map_map, keys]
  refine List.map_congr_left fun e _ => ?_
  by_cases he : e.1 = k
  · simp [he]
  · simp [he]

/-- A new key goes behind the others. -/
theorem keys_set_of_not_mem {d : Dict κ ν} {k : κ} (v : ν) (h : k ∉ d.keys) :
    (d.set k v).keys = d.keys ++ [k] := by
  rw [keys, entries_set_of_none v (get?_eq_none_iff.mpr h), List.map_append]
  rfl

/-- Assigning new keys, all different, puts their entries behind the others. -/
theorem entries_foldl_set {l : List (κ × ν)} (hnodup : (l.map Prod.fst).Nodup) {d : Dict κ ν}
    (hnew : ∀ k ∈ l.map Prod.fst, k ∉ d.keys) :
    (l.foldl (fun d e => d.set e.1 e.2) d).entries = d.entries ++ l := by
  induction l generalizing d with
  | nil => exact (List.append_nil _).symm
  | cons e l ih =>
    obtain ⟨hnot, hrest⟩ := List.nodup_cons.mp hnodup
    obtain ⟨he, hl⟩ := List.forall_mem_cons.mp hnew
    have hnew' : ∀ k ∈ l.map Prod.fst, k ∉ (d.set e.1 e.2).keys := by
      intro k hk hmem
      rw [keys_set_of_not_mem e.2 he, List.mem_append, List.mem_singleton] at hmem
      rcases hmem with hold | rfl
      · exact hl k hk hold
      · exact hnot hk
    rw [List.foldl_cons, ih hrest hnew', entries_set_of_none e.2 (get?_eq_none_iff.mpr he),
      List.append_assoc]
    rfl

/-- Replacing a value that `p` does not select by another leaves the selection alone. -/
theorem filter_values_set {d : Dict κ ν} {k : κ} {old v : ν} {p : ν → Bool}
    (h : d.get? k = some old) (hold : p old = false) (hv : p v = false) :
    (d.set k v).values.filter p = d.values.filter p := by
  rw [values, entries_set_of_some v h, List.map_map, values, List.filter_map, List.filter_map]
  have hp : ∀ e ∈ d.entries, (p ∘ Prod.snd ∘ fun e => if e.1 = k then (k, v) else e) e =
      (p ∘ Prod.snd) e := by
    rintro ⟨k', v'⟩ he
    by_cases hk : k' = k
    · subst hk
      have hv' := get?_eq_some_iff.mpr he
      rw [h] at hv'
      cases hv'
      simp [hv, hold]
    · simp [hk]
  rw [List.filter_congr hp]
  refine List.map_congr_left fun e he => ?_
  obtain ⟨he, hpe⟩ := List.mem_filter.mp he
  by_cases hk : e.1 = k
  · have hv' := get?_eq_some_iff.mpr (show (e.1, e.2) ∈ d.entries from he)
    rw [hk, h] at hv'
    cases hv'
    simp [hold] at hpe
  · simp [hk]

/-- Replacing a value by one that a search treats alike moves the search to the new value. -/
theorem find?_values_set {d : Dict κ ν} {k : κ} {old v : ν} {p : ν → Bool}
    (h : d.get? k = some old) (hp : p v = p old) :
    (d.set k v).values.find? p =
      (d.entries.find? fun e => p e.2).map fun e => if e.1 = k then v else e.2 := by
  rw [values, entries_set_of_some v h, List.map_map, List.find?_map]
  have hsame : ∀ e ∈ d.entries, (p ∘ Prod.snd ∘ fun e => if e.1 = k then (k, v) else e) e =
      p e.2 := by
    rintro ⟨k', v'⟩ he
    by_cases hk : k' = k
    · subst hk
      have hv' := get?_eq_some_iff.mpr he
      rw [h] at hv'
      cases hv'
      simp [hp]
    · simp [hk]
  rw [List.find?_congr hsame]
  congr 1
  funext e
  by_cases hk : e.1 = k <;> simp [hk]

/-- At most one value has `p` exactly when any two keys whose values have it are one key. -/
theorem length_filter_values_le_one {d : Dict κ ν} {p : ν → Bool} :
    (d.values.filter p).length ≤ 1 ↔
      ∀ k k' a b, d.get? k = some a → d.get? k' = some b → p a = true → p b = true → k = k' := by
  have hlen : (d.values.filter p).length = (d.entries.filter fun e => p e.2).length := by
    rw [values, List.filter_map, List.length_map]
    rfl
  rw [hlen]
  constructor
  · intro h k k' a b ha hb pa pb
    have hma : (k, a) ∈ d.entries.filter fun e => p e.2 :=
      List.mem_filter.mpr ⟨get?_eq_some_iff.mp ha, pa⟩
    have hmb : (k', b) ∈ d.entries.filter fun e => p e.2 :=
      List.mem_filter.mpr ⟨get?_eq_some_iff.mp hb, pb⟩
    cases hl : d.entries.filter fun e => p e.2 with
    | nil =>
      rw [hl] at hma
      exact absurd hma List.not_mem_nil
    | cons e rest =>
      have hrest : rest = [] := by
        rw [hl, List.length_cons] at h
        exact List.length_eq_zero_iff.mp (by omega)
      rw [hl, hrest, List.mem_singleton] at hma hmb
      exact congrArg Prod.fst (hma.trans hmb.symm)
  · intro h
    have hnd : ((d.entries.filter fun e => p e.2).map Prod.fst).Nodup :=
      d.nodup.sublist (List.Sublist.map Prod.fst List.filter_sublist)
    rcases hl : d.entries.filter fun e => p e.2 with _ | ⟨⟨k, a⟩, _ | ⟨⟨k', b⟩, rest⟩⟩
    · rw [hl]
      exact Nat.zero_le 1
    · rw [hl]
      exact Nat.le_refl 1
    · rw [hl] at hnd
      have hne : k ≠ k' := fun e => (List.nodup_cons.mp hnd).1 (by simp [e])
      have hma : (k, a) ∈ d.entries.filter fun e => p e.2 := by
        rw [hl]
        exact List.mem_cons_self
      have hmb : (k', b) ∈ d.entries.filter fun e => p e.2 := by
        rw [hl]
        exact List.mem_cons_of_mem _ List.mem_cons_self
      obtain ⟨ha, pa⟩ := List.mem_filter.mp hma
      obtain ⟨hb, pb⟩ := List.mem_filter.mp hmb
      exact absurd (h k k' a b (get?_eq_some_iff.mpr ha) (get?_eq_some_iff.mpr hb) pa pb) hne

/-! ## The other values -/

theorem find_perm {k : κ} {v : ν} : ∀ {l : List (κ × ν)}, (l.map Prod.fst).Nodup →
    find k l = some v →
      (l.map Prod.snd).Perm (v :: (l.filter fun e => decide (e.1 ≠ k)).map Prod.snd)
  | [], _, h => by cases h
  | (k', v') :: rest, hnd, h => by
    obtain ⟨hnot, hrest⟩ := List.nodup_cons.mp hnd
    by_cases hk : k' = k
    · subst hk
      rw [find, if_pos rfl] at h
      cases h
      have hkept : rest.filter (fun e => decide (e.1 ≠ k')) = rest := by
        rw [List.filter_eq_self]
        intro e he
        exact decide_eq_true fun heq => hnot (List.mem_map.mpr ⟨e, he, heq⟩)
      rw [List.filter_cons_of_neg (by simp), hkept, List.map_cons]
    · rw [find, if_neg hk] at h
      rw [List.filter_cons_of_pos (by simpa using hk), List.map_cons, List.map_cons]
      exact ((find_perm hrest h).cons v').trans (List.Perm.swap _ _ _)

/-- The values are that of a key and the others. -/
theorem values_perm_erase {d : Dict κ ν} {k : κ} {v : ν} (h : d.get? k = some v) :
    d.values.Perm (v :: (d.erase k).values) :=
  find_perm d.nodup h

theorem filter_assign {k : κ} {v : ν} : ∀ l : List (κ × ν),
    (assign k v l).filter (fun e => decide (e.1 ≠ k)) = l.filter fun e => decide (e.1 ≠ k)
  | [] => by simp [assign]
  | (k', v') :: rest => by
    by_cases hk : k' = k
    · simp [assign, hk]
    · rw [assign, if_neg hk, List.filter_cons_of_pos (by simpa using hk),
        List.filter_cons_of_pos (by simpa using hk), filter_assign rest]

theorem erase_set (d : Dict κ ν) (k : κ) (v : ν) : (d.set k v).erase k = d.erase k :=
  ext (filter_assign d.entries)

/-- Behind an assignment they are the new value and the others. -/
theorem values_perm_set (d : Dict κ ν) (k : κ) (v : ν) :
    (d.set k v).values.Perm (v :: (d.erase k).values) := by
  rw [← erase_set d k v]
  exact values_perm_erase (get?_set_self d k v)

end Lookup

end Dict

end Lib
