import Mathlib.Data.List.Dedup
import Wapsell.Memory.Postgres

/-!
# Whose threads the inbox lists

Both memories list the threads of a prefix. The ring buffer tests the
prefix; the query matches it as a pattern, with whatever percent sign,
underscore or backslash the tenant's slug brings along.

The failing direction is settled by the pattern language alone: a prefix
with a special character is matched by some text that does not begin with
it (`Lib.like_prefix_iff`), and that text is put into a table as the only
buyer's id. So no condition on the stored threads is needed, and none on
the limit.

**What this does not establish.** That the threads of a prefix are one
tenant's. A buyer id is a slug, a colon and a number, and a slug may hold
a colon of its own; the theorem about the page says what is left to the
slugs.
-/

namespace Wapsell.Memory

open Lib Py

/-- The ring buffer lists what begins with the prefix. -/
theorem BuyerMemory.startsWith_of_mem_listThreads {memory : BuyerMemory} {prefix_ : String}
    {limit : Int} {thread : BuyerThreadSummary}
    (h : thread ∈ memory.listThreads (some prefix_) limit) :
    startsWith prefix_ thread.buyerId = true := by
  have hsorted := (mem_upTo h)
  obtain ⟨entry, -, hentry⟩ := List.mem_filterMap.mp ((List.mem_insertionSort _).mp hsorted)
  unfold summaryOfBucket at hentry
  split at hentry
  next hprefix =>
    obtain ⟨last, -, rfl⟩ := Option.map_eq_some_iff.mp hentry
    exact hprefix
  next => cases hentry

namespace BuyerTable

/-- A listed thread is that of a selected row. -/
theorem selects_of_mem_listThreads {table : BuyerTable} {prefix_ : Option String} {limit : Int}
    {threads : List BuyerThreadSummary} (h : table.listThreads prefix_ limit = some threads)
    {thread : BuyerThreadSummary} (hmem : thread ∈ threads) :
    ∃ row ∈ table.rows, row.buyerId = thread.buyerId ∧ selects prefix_ row = true := by
  unfold listThreads at h
  dsimp only at h
  split at h
  next => cases h
  next =>
    cases h
    have hthread := (List.mem_insertionSort _).mp (List.mem_of_mem_take hmem)
    obtain ⟨buyerId, hbuyer, hof⟩ := List.mem_filterMap.mp hthread
    obtain ⟨row, hrow, rfl⟩ :=
      List.mem_map.mp (List.mem_dedup.mp ((List.mem_insertionSort _).mp hbuyer))
    obtain ⟨hin, hselects⟩ := List.mem_filter.mp hrow
    obtain ⟨last, -, rfl⟩ := Option.map_eq_some_iff.mp hof
    exact ⟨row, hin, rfl, hselects⟩

/-- A table of one row lists its thread, if the query selects it. -/
theorem listThreads_insert_empty {prefix_ : Option String} {buyerId : String} {x : BuyerInteraction}
    (h : selects prefix_ (empty.newRow buyerId x) = true) :
    (empty.insert buyerId x).listThreads prefix_ 1 =
      some [{ buyerId, messageCount := 1, lastAt := x.at_, lastText := take PREVIEW_MAX x.text }] := by
  have hrows : (empty.insert buyerId x).rows.filter (selects prefix_) = [empty.newRow buyerId x] := by
    show [empty.newRow buyerId x].filter (selects prefix_) = _
    rw [List.filter_cons_of_pos h, List.filter_nil]
  have hthread : threadOf [empty.newRow buyerId x] buyerId =
      some ⟨buyerId, 1, x.at_, take PREVIEW_MAX x.text⟩ := by
    simp [threadOf, newRow]
  have hbuyer : (empty.newRow buyerId x).buyerId = buyerId := rfl
  unfold listThreads
  simp [hrows, hbuyer, hthread]

/-- The query selects what matches the prefix and anything. -/
theorem selects_some_iff {prefix_ : String} {row : BuyerRow} :
    selects (some prefix_) row = true ↔
      like row.buyerId.toList (prefix_.toList ++ ['%']) = some true := by
  rw [selects, decide_eq_true_eq, String.toList_append]
  rfl

end BuyerTable

/-- Nothing in the prefix has a meaning of its own in a pattern. -/
def IsLiteral (prefix_ : String) : Prop := ∀ c ∈ prefix_.toList, isLikeSpecial c = false

/-- The query lists nothing that begins otherwise exactly under a literal prefix. For the other
direction a table holds the one text that a special character lets through. -/
theorem BuyerTable.listThreads_startsWith_iff (prefix_ : String) :
    (∀ table : BuyerTable, ∀ limit threads, table.listThreads (some prefix_) limit = some threads →
      ∀ thread ∈ threads, startsWith prefix_ thread.buyerId = true) ↔ IsLiteral prefix_ := by
  rw [IsLiteral, ← like_prefix_iff]
  constructor
  · intro h text hlike
    -- a table with the thread of this text alone
    let x : BuyerInteraction := { text := "", at_ := 0 }
    have hselects : BuyerTable.selects (some prefix_)
        (BuyerTable.empty.newRow (String.ofList text) x) = true := by
      rw [BuyerTable.selects_some_iff]
      show like (String.ofList text).toList _ = some true
      rw [String.toList_ofList]
      exact hlike
    have hprefix := h _ _ _ (BuyerTable.listThreads_insert_empty hselects) _
      (List.mem_singleton_self _)
    rw [startsWith, List.isPrefixOf_iff_prefix, String.toList_ofList] at hprefix
    exact hprefix
  · intro h table limit threads hthreads thread hmem
    obtain ⟨row, -, hbuyer, hselects⟩ := BuyerTable.selects_of_mem_listThreads hthreads hmem
    rw [BuyerTable.selects_some_iff, hbuyer] at hselects
    exact List.isPrefixOf_iff_prefix.mpr (h _ hselects)

/-- **The inbox is confined to its prefix** in the ring buffer always, and in Postgres exactly when
the prefix has no percent sign, no underscore and no backslash. Confined to the prefix is not yet
confined to the tenant: see `page_confined_iff`. -/
theorem listThreads_confined_iff (prefix_ : String) :
    (∀ memory : BuyerMemory, ∀ limit, ∀ thread ∈ memory.listThreads (some prefix_) limit,
      startsWith prefix_ thread.buyerId = true) ∧
    ((∀ table : BuyerTable, ∀ limit threads, table.listThreads (some prefix_) limit = some threads →
      ∀ thread ∈ threads, startsWith prefix_ thread.buyerId = true) ↔ IsLiteral prefix_) :=
  ⟨fun _memory _limit _thread h => BuyerMemory.startsWith_of_mem_listThreads h,
    BuyerTable.listThreads_startsWith_iff prefix_⟩

/-- One message to the tenant `acme-1`. -/
def neighbour : BuyerTable := BuyerTable.empty.insert "acme-1:549" { text := "hola", at_ := 0 }

/-- The tenant `acme_1` lists the thread of the tenant `acme-1`. -/
theorem not_listThreads_confined : ¬ ∀ (prefix_ : String) (table : BuyerTable) (limit : Int)
    (threads : List BuyerThreadSummary), table.listThreads (some prefix_) limit = some threads →
      ∀ thread ∈ threads, startsWith prefix_ thread.buyerId = true := by
  intro h
  have hprefix := h "acme_1:" neighbour 1 _
    (BuyerTable.listThreads_insert_empty (by decide)) _
    (List.mem_singleton_self _)
  revert hprefix
  decide

/-! ## The page of a tenant -/

/-- The colon that ends the prefix of a page is literal. -/
theorem isLiteral_page_iff {slug : String} : IsLiteral (slug ++ ":") ↔ IsLiteral slug := by
  rw [IsLiteral, IsLiteral, String.toList_append, List.forall_mem_append]
  exact and_iff_left fun c hc => by
    rw [List.mem_singleton.mp hc]
    rfl

/-- **The page of a tenant** asks for the threads of its slug and a colon, so in Postgres it lists
no other beginning exactly when the slug has none of the three characters.

What begins with the slug and a colon need not be the tenant's: the beginning `a:` is also that of
the threads of a tenant `a:b`, and no adapter tells these apart. Between slugs without a colon it is
the tenant's, which is the matter of the buyer ids. -/
theorem page_confined_iff (slug : String) :
    (∀ table : BuyerTable, ∀ limit threads,
      table.listThreads (some (slug ++ ":")) limit = some threads →
        ∀ thread ∈ threads, startsWith (slug ++ ":") thread.buyerId = true) ↔ IsLiteral slug :=
  (BuyerTable.listThreads_startsWith_iff (slug ++ ":")).trans isLiteral_page_iff

end Wapsell.Memory
