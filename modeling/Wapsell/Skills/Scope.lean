import Wapsell.Lib.Select
import Wapsell.Skills.Registry

/-!
# What a skill reads of a tenant

The two skills that read a store read the rows of the tenant that the context
names. Here is when a call depends on the rows of a tenant, whoever makes
it: when it names the tenant, gets as far as the store, and asks for
something that some row could be.

Both directions are needed. That a call which does not read a tenant
answers the same for any two sets of its rows is what keeps tenants
apart. That one which does can be told two sets apart by its answer is
what makes the condition the exact one: `Reads.tells` gives the two
sets.
-/

namespace Wapsell.Skills

open Lib Py Ingestion Resources

variable {U : Unicode} {tenantId : String} {context params : Dict String Json}

/-- `catalog-lookup` looks for a text among the facts of a tenant. -/
structure LooksUp (U : Unicode) (tenantId : String) (context params : Dict String Json)
    (text : String) (topK : Int) : Prop where
  asked : strippedParam params "query" = .ok text
  nonempty : text ≠ ""
  needle : strip (lower U text) ≠ ""
  named : (context.getD "tenant_id" .null).truthy = true
  tenant : (context.getD "tenant_id" .null).toStr U = tenantId
  limit : intParam U params "top_k" DEFAULT_TOP_K = .ok topK
  several : topK ≠ 0

/-- `resource-search` calls the repository for a tenant, and some row of the tenant would be found,
or would raise. -/
structure SearchesFor (U : Unicode) (tenantId : String) (context params : Dict String Json)
    (call : SearchCall) (row : Resource) : Prop where
  called : searchCall U context params = .ok (.ok call)
  tenant : call.tenantId = tenantId
  listed : Repository.listed tenantId call.kind row = true
  found : Repository.isMatch U call.filters.entries (strip (lower U (call.queryText.getD ""))) row ≠
    .ok false

/-- A call of a skill depends on the rows of a tenant: it names the tenant in its context, is one of
the two skills that read a store, and gets as far as looking. -/
inductive Reads (U : Unicode) (tenantId : String) (context params : Dict String Json) :
    String → Prop
  | catalogLookup {text : String} {topK : Int}
      (h : LooksUp U tenantId context params text topK) :
      Reads U tenantId context params "catalog-lookup"
  | resourceSearch {call : SearchCall} {row : Resource}
      (h : SearchesFor U tenantId context params call row) :
      Reads U tenantId context params "resource-search"

/-! ## Calls that read nothing of the tenant -/

/-- Two stores that other tenants see alike look alike to a lookup. -/
theorem catalogLookup_congr {facts facts' : Hindsight}
    (hother : ∀ other, other ≠ tenantId → ∀ text topK,
      facts.query U text (some other) topK = facts'.query U text (some other) topK)
    (hnot : ¬ Reads U tenantId context params "catalog-lookup") :
    catalogLookup U facts context params = catalogLookup U facts' context params := by
  unfold catalogLookup
  refine bind_congr_of_ok fun text htext => ?_
  dsimp only
  split_ifs with hempty hnamed
  · rfl
  · rfl
  refine bind_congr_of_ok fun topK htopK => ?_
  suffices hquery : facts.query U text (some ((context.getD "tenant_id" .null).toStr U)) topK =
      facts'.query U text (some ((context.getD "tenant_id" .null).toStr U)) topK by rw [hquery]
  by_cases hof : (context.getD "tenant_id" .null).toStr U = tenantId
  · -- of the tenant itself, a lookup that gets here asks for no text or for no fact
    have hnone : strip (lower U text) = "" ∨ topK = 0 := by
      by_contra hsome
      rw [not_or] at hsome
      exact hnot (.catalogLookup
        ⟨htext, hempty, hsome.1, Bool.not_eq_false _ ▸ hnamed, hof, htopK, hsome.2⟩)
    rcases hnone with hneedle | rfl
    · simp [Hindsight.query, hneedle]
    · simp [Hindsight.query]
  · exact hother _ hof text topK

/-- A selection of nothing. -/
theorem selectM_eq_nil {p : Resource → Except Exc Bool} : ∀ {rows : List Resource},
    (∀ r ∈ rows, p r = .ok false) → Repository.selectM p rows = .ok []
  | [], _ => rfl
  | r :: rows, h => by
    rw [Repository.selectM, h r List.mem_cons_self,
      selectM_eq_nil fun r' hr' => h r' (List.mem_cons_of_mem r hr')]
    rfl

/-- A search that no row of the tenant passes finds nothing. -/
theorem search_eq_nil {repo : Repository} {filters : Dict String Json}
    {queryText kind : Option String} {limit : Int}
    (h : ∀ row, Repository.listed tenantId kind row = true →
      Repository.isMatch U filters.entries (strip (lower U (queryText.getD ""))) row = .ok false) :
    repo.search U tenantId filters queryText kind limit = .ok [] := by
  have hrows : ∀ r ∈ repo.listFor tenantId kind 10000, Repository.isMatch U filters.entries
      (strip (lower U (queryText.getD ""))) r = .ok false := by
    intro r hr
    have hsorted := (List.mem_insertionSort _).mp (mem_upTo hr)
    exact h r (List.mem_filter.mp hsorted).2
  rw [Repository.search, selectM_eq_nil hrows, ok_bind, upTo_nil]
  rfl

/-- Two stores that other tenants see alike look alike to a search. -/
theorem resourceSearch_congr {repo repo' : Repository}
    (hother : ∀ other, other ≠ tenantId → ∀ filters queryText kind limit,
      repo.search U other filters queryText kind limit =
        repo'.search U other filters queryText kind limit)
    (hnot : ¬ Reads U tenantId context params "resource-search") :
    resourceSearch U repo context params = resourceSearch U repo' context params := by
  unfold resourceSearch
  refine bind_congr_of_ok fun result hresult => ?_
  cases result with
  | error error => rfl
  | ok call =>
    dsimp only
    suffices hsearch :
        repo.search U call.tenantId call.filters call.queryText call.kind call.limit =
          repo'.search U call.tenantId call.filters call.queryText call.kind call.limit by
      rw [hsearch]
    by_cases hof : call.tenantId = tenantId
    · have hnone : ∀ row, Repository.listed call.tenantId call.kind row = true →
          Repository.isMatch U call.filters.entries (strip (lower U (call.queryText.getD ""))) row =
            .ok false := by
        intro row hrow
        by_contra hfound
        exact hnot (.resourceSearch ⟨hresult, hof, hof ▸ hrow, hfound⟩)
      rw [search_eq_nil hnone, search_eq_nil hnone]
    · exact hother _ hof _ _ _ _

/-- Nor does the registry tell such stores apart. -/
theorem invoke_congr {facts facts' : Hindsight} {repo repo' : Repository}
    (hfacts : ∀ other, other ≠ tenantId → ∀ text topK,
      facts.query U text (some other) topK = facts'.query U text (some other) topK)
    (hrepo : ∀ other, other ≠ tenantId → ∀ filters queryText kind limit,
      repo.search U other filters queryText kind limit =
        repo'.search U other filters queryText kind limit)
    {name : String} (hnot : ¬ Reads U tenantId context params name) (storeless : Storeless) :
    invoke U storeless facts repo name context params =
      invoke U storeless facts' repo' name context params := by
  unfold invoke
  split_ifs with hcatalog _ _ hresource
  · subst hcatalog
    exact catalogLookup_congr hfacts hnot
  · rfl
  · rfl
  · subst hresource
    exact resourceSearch_congr hrepo hnot
  · rfl

/-! ## Calls that read something of it -/

/-- The matches of a result can be read off its body. -/
theorem matches_of_toJson {found found' : List Json} {rest rest' : List (String × Json)}
    (h : (SkillResult.ok (("matches", .arr found) :: rest)).toJson =
      (SkillResult.ok (("matches", .arr found') :: rest')).toJson) : found = found' := by
  simp only [SkillResult.toJson, SkillResult.ok, List.cons_append, Json.obj.injEq,
    List.cons.injEq, Prod.mk.injEq, Json.arr.injEq] at h
  exact h.1.2

/-- What a lookup answers. -/
theorem LooksUp.answer {text : String} {topK : Int}
    (h : LooksUp U tenantId context params text topK) (facts : Hindsight) :
    ∃ rest, catalogLookup U facts context params = .ok (.ok
      (("matches", .arr ((facts.query U text (some tenantId) topK).map factMatch)) :: rest)) := by
  rw [catalogLookup, h.asked, ok_bind]
  dsimp only
  rw [if_neg h.nonempty, if_neg (by rw [h.named]; decide), h.limit, ok_bind, h.tenant]
  exact ⟨_, rfl⟩

/-- As many facts as are asked for, and one more. -/
def manyFacts (tenantId content : String) (topK : Int) : Hindsight :=
  (List.range (topK.natAbs + 1)).map fun i =>
    { id := toString i, tenantId, source := "", content, createdAt := 0 }

/-- A text is found among enough facts that consist of it. -/
theorem query_manyFacts {text : String} {topK : Int} (hneedle : strip (lower U text) ≠ "")
    (hlimit : topK ≠ 0) :
    (manyFacts tenantId text topK).query U text (some tenantId) topK ≠ [] := by
  have hscope : (manyFacts tenantId text topK).filter
      (fun f => (some tenantId = none ∨ some tenantId = some f.tenantId : Bool)) =
        manyFacts tenantId text topK := by
    refine List.filter_eq_self.mpr fun f hf => ?_
    obtain ⟨i, -, rfl⟩ := List.mem_map.mp hf
    exact decide_eq_true (.inr rfl)
  have hfound : (manyFacts tenantId text topK).filter
      (fun f => isSubstring (strip (lower U text)) (lower U f.content)) =
        manyFacts tenantId text topK := by
    refine List.filter_eq_self.mpr fun f hf => ?_
    obtain ⟨i, -, rfl⟩ := List.mem_map.mp hf
    exact decide_eq_true (strip_isInfix _)
  have hlen : topK.natAbs < (manyFacts tenantId text topK).length := by
    rw [manyFacts, List.length_map, List.length_range]
    exact Nat.lt_succ_self _
  rw [Hindsight.query, if_pos hneedle, hscope, hfound]
  exact upTo_ne_nil hlimit hlen

/-- A search among one row that is listed. -/
theorem search_singleton {row : Resource} {kind : Option String}
    (hlisted : Repository.listed tenantId kind row = true) (filters : Dict String Json)
    (queryText : Option String) {limit : Int} (hlimit : 0 < limit) :
    Repository.search U (Dict.empty.set row.id row) tenantId filters queryText kind limit =
      (Repository.isMatch U filters.entries (strip (lower U (queryText.getD ""))) row >>= fun keep =>
        .ok (if keep then [row] else [])) := by
  have hrows : Repository.listFor (Dict.empty.set row.id row) tenantId kind 10000 = [row] := by
    show upTo 10000 (Repository.newestFirst ([row].filter (Repository.listed tenantId kind))) = _
    rw [List.filter_cons_of_pos hlisted]
    rfl
  rw [Repository.search, hrows]
  cases hmatch : Repository.isMatch U filters.entries (strip (lower U (queryText.getD ""))) row with
  | error e =>
    rw [Repository.selectM, hmatch]
    rfl
  | ok keep =>
    rw [Repository.selectM, hmatch, Repository.selectM]
    cases keep with
    | false => exact congrArg Except.ok (upTo_nil limit)
    | true => exact congrArg Except.ok (upTo_singleton hlimit row)

/-- The limit of a search is clamped. -/
theorem limit_pos_of_searchCall {call : SearchCall}
    (h : searchCall U context params = .ok (.ok call)) : 0 < call.limit := by
  unfold searchCall at h
  dsimp only at h
  by_cases hnamed : (context.getD "tenant_id" .null).truthy = false
  · rw [if_pos hnamed] at h
    cases h
  rw [if_neg hnamed] at h
  cases hfilters : dictParam params "filters" with
  | none =>
    rw [hfilters] at h
    cases h
  | some filters =>
    rw [hfilters] at h
    cases hquery : strippedParam params "query" with
    | error e => rw [hquery] at h; cases h
    | ok query =>
      cases hlimit : intParam U params "limit" DEFAULT_LIMIT with
      | error e => rw [hquery, hlimit] at h; cases h
      | ok limit =>
        rw [hquery, hlimit] at h
        cases h
        exact lt_of_lt_of_le Int.one_pos (le_max_left 1 _)

/-- A call that reads the rows of a tenant tells some of them from none. -/
theorem Reads.tells {name : String} (h : Reads U tenantId context params name)
    (storeless : Storeless) : ∃ facts : Hindsight, ∃ repo : Repository, ∃ body,
      (∀ f ∈ facts, f.tenantId = tenantId) ∧ (∀ e ∈ repo.entries, e.2.tenantId = tenantId) ∧
      (invoke U storeless [] Dict.empty name context params).map SkillResult.toJson = .ok body ∧
      (invoke U storeless facts repo name context params).map SkillResult.toJson ≠ .ok body := by
  cases h with
  | @catalogLookup text topK h =>
    obtain ⟨rest, hempty⟩ := h.answer []
    obtain ⟨rest', hmany⟩ := h.answer (manyFacts tenantId text topK)
    refine ⟨manyFacts tenantId text topK, Dict.empty, _, ?_, nofun,
      congrArg (Except.map SkillResult.toJson) hempty, ?_⟩
    · intro f hf
      obtain ⟨i, -, rfl⟩ := List.mem_map.mp hf
      rfl
    · show (Skills.catalogLookup U (manyFacts tenantId text topK) context params).map _ ≠ _
      rw [hmany]
      intro heq
      have hfound := matches_of_toJson (Except.ok.inj heq)
      have hnone : Hindsight.query U [] text (some tenantId) topK = [] := by
        simp [Hindsight.query]
      rw [hnone, List.map_nil, List.map_eq_nil_iff] at hfound
      exact query_manyFacts h.needle h.several hfound
  | @resourceSearch call row h =>
    have hcall : ∀ repo : Repository, Skills.resourceSearch U repo context params =
        (repo.search U call.tenantId call.filters call.queryText call.kind call.limit >>= fun hits =>
          .ok (searchResult context call hits)) := by
      intro repo
      rw [Skills.resourceSearch, h.called]
      rfl
    have hlisted : Repository.listed call.tenantId call.kind row = true := h.tenant ▸ h.listed
    have hnone : Repository.search U Dict.empty call.tenantId call.filters call.queryText call.kind
        call.limit = .ok [] := congrArg Except.ok (upTo_nil call.limit)
    refine ⟨[], Dict.empty.set row.id row, (searchResult context call []).toJson, nofun, ?_, ?_, ?_⟩
    · intro e he
      rw [List.mem_singleton.mp he]
      exact (of_decide_eq_true h.listed).1
    · show (Skills.resourceSearch U Dict.empty context params).map _ = _
      rw [hcall, hnone]
      rfl
    · show (Skills.resourceSearch U _ context params).map _ ≠ _
      rw [hcall, search_singleton hlisted _ _ (limit_pos_of_searchCall h.called)]
      cases hmatch : Repository.isMatch U call.filters.entries
          (strip (lower U (call.queryText.getD ""))) row with
      | error e => exact nofun
      | ok keep =>
        cases keep with
        | false => exact absurd hmatch h.found
        | true =>
          intro heq
          exact List.cons_ne_nil _ _ (matches_of_toJson (Except.ok.inj heq))

end Wapsell.Skills
