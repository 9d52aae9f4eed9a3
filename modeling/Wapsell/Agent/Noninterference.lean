import Wapsell.Agent.Loop
import Wapsell.Crm.Recorder

/-!
# What one buyer's prompt knows of the others

Contacts, activities and tasks live in the table of the catalog items, and
neither the search nor the learning hints look at a row's kind. Two stores
that differ only in the CRM rows and the memory of other buyers of the
tenant give a buyer the same prompt exactly when there is no prompt: when
the message is handed off.

For every other message one store tells them apart. It holds, before
everything else, fifty contacts of other buyers as new as the newest row:
they are the sample the hints are made of, and the hints quote the name of
their one field, which is longer than the whole system message was.

The second store is built and not assumed. Its fifty rows are all that a
sample of the learning service has room for, so the real rows fall out
of the hints; the field's name is made longer than any text of the
original prompt, so that no coincidence can hide the difference. What is
shown of it is that it differs in rows of other buyers only, and that
the long name is inside its system message.

**What this does not establish.** That the difference tells anything of
value: the hints show names of fields and common values, and how much of
another buyer that is depends on what the extractor writes. Nor is
anything said of two tenants; that is a theorem of its own.
-/

namespace Wapsell.Agent

open Lib Py Handoff Ingestion Memory Resources Crm

/-- `TASK_KIND` of the extractor. -/
def TASK_KIND : String := "task"

/-- A contact of the tenant for another number. -/
def isContactOfOther (tenantId number : String) (r : Resource) : Bool :=
  r.tenantId == tenantId && r.kind == CONTACT_KIND &&
    match r.externalId with
    | some external => startsWith "buyer:" external && external ≠ contactExternalId number
    | none => false

/-- The contact whose timeline a row is on. -/
def contactIdOf (r : Resource) : Option String :=
  match r.data.get? "contact_id" with
  | some (.str id) => some id
  | _ => none

/-- An activity or a task of the tenant on the timeline of a contact for another number. -/
def isTimelineOfOther (repo : Repository) (tenantId number : String) (r : Resource) : Bool :=
  r.tenantId == tenantId && (r.kind == ACTIVITY_KIND || r.kind == TASK_KIND) &&
    match (contactIdOf r).bind repo.get? with
    | some contact => isContactOfOther tenantId number contact
    | none => false

/-- A CRM row that belongs to another buyer of the tenant: a contact under another number, or an
activity or task on the timeline of one. -/
def ofOtherBuyer (repo : Repository) (tenantId number : String) (r : Resource) : Bool :=
  isContactOfOther tenantId number r || isTimelineOfOther repo tenantId number r

/-- The two states differ only in the CRM rows and the conversation memory of other buyers. All else
is the same, the rows of the buyer himself and the catalog included. -/
structure SameButOthers (tenant : Tenant) (number : String) (s s' : Stores) : Prop where
  facts : s'.facts = s.facts
  queryLog : s'.queryLog = s.queryLog
  memory : ∀ k, (∀ m, m ≠ number → k ≠ buyerIdFor tenant.slug m) →
    s'.memory.get? k = s.memory.get? k
  rows : s'.resources.values.filter (fun r => !ofOtherBuyer s'.resources tenant.id number r) =
    s.resources.values.filter fun r => !ofOtherBuyer s.resources tenant.id number r

/-! ## Fifty contacts of other buyers -/

/-- A text of `n` equal characters. -/
def repeated (n : Nat) (c : Char) : String := String.ofList (List.replicate n c)

/-- The `i`-th contact: a number of its own, an id longer than `base`, one field. -/
def otherContact (tenantId number fieldName : String) (createdAt : Datetime) (base i : Nat) :
    Resource where
  id := repeated (base + i + 1) 'x'
  tenantId := tenantId
  kind := CONTACT_KIND
  externalId := some (contactExternalId (number ++ repeated (i + 1) '0'))
  data := Dict.empty.set fieldName .null
  createdAt := createdAt
  updatedAt := createdAt

/-- Fifty of them. -/
def otherContacts (tenantId number fieldName : String) (createdAt : Datetime) (base : Nat) :
    List Resource :=
  (List.range 50).map (otherContact tenantId number fieldName createdAt base)

/-- The newest `created_at` of a store. -/
def newestDate (repo : Repository) : Datetime :=
  (repo.values.map Resource.createdAt).foldr max 0

/-- The length of the longest text. -/
def maxLength (texts : List String) : Nat := (texts.map String.length).foldr max 0

/-- No id of the store, and no contact id in its rows, is longer. -/
def longestId (repo : Repository) : Nat :=
  maxLength (repo.keys ++ repo.values.filterMap contactIdOf)

theorem length_repeated (n : Nat) (c : Char) : (repeated n c).length = n := by
  rw [repeated, String.length_ofList, List.length_replicate]

theorem createdAt_le_newestDate {repo : Repository} {r : Resource} (h : r ∈ repo.values) :
    r.createdAt ≤ newestDate repo := by
  unfold newestDate
  generalize repo.values = rows at h
  induction rows with
  | nil => cases h
  | cons row rows ih =>
    rw [List.map_cons, List.foldr_cons]
    rcases List.mem_cons.mp h with rfl | hrest
    · exact le_max_left _ _
    · exact (ih hrest).trans (le_max_right _ _)

theorem length_le_maxLength {texts : List String} {t : String} (h : t ∈ texts) :
    t.length ≤ maxLength texts := by
  unfold maxLength
  induction texts with
  | nil => cases h
  | cons text texts ih =>
    rw [List.map_cons, List.foldr_cons]
    rcases List.mem_cons.mp h with rfl | hrest
    · exact le_max_left _ _
    · exact (ih hrest).trans (le_max_right _ _)

/-- A short id is none of theirs. -/
theorem not_mem_ids {tenantId number fieldName : String} {createdAt : Datetime} {base : Nat}
    {k : String} (h : k.length ≤ base) :
    k ∉ (otherContacts tenantId number fieldName createdAt base).map Resource.id := by
  intro hmem
  obtain ⟨r, hr, rfl⟩ := List.mem_map.mp hmem
  obtain ⟨i, -, rfl⟩ := List.mem_map.mp hr
  rw [otherContact, length_repeated] at h
  omega

/-- Their ids are all different, and longer than every id of the store. -/
theorem nodup_ids (tenantId number fieldName : String) (createdAt : Datetime) (repo : Repository) :
    (((otherContacts tenantId number fieldName createdAt (longestId repo)).map Resource.id) ++
      repo.keys).Nodup := by
  refine List.nodup_append.mpr ⟨?_, repo.nodup, ?_⟩
  · rw [otherContacts, List.map_map]
    refine List.Nodup.map_on (fun i _ j _ h => ?_) List.nodup_range
    have hlen := congrArg String.length h
    simp only [Function.comp_apply, otherContact, length_repeated] at hlen
    omega
  · rintro a ha b hb rfl
    exact not_mem_ids (length_le_maxLength (List.mem_append_left _ hb)) ha

/-- The store with the fifty contacts before everything else. -/
def withOthers (repo : Repository) (tenantId number fieldName : String) : Repository where
  entries := (otherContacts tenantId number fieldName (newestDate repo) (longestId repo)).map
    (fun r => (r.id, r)) ++ repo.entries
  nodup := by
    rw [List.map_append, List.map_map]
    exact nodup_ids tenantId number fieldName (newestDate repo) repo

theorem values_withOthers (repo : Repository) (tenantId number fieldName : String) :
    (withOthers repo tenantId number fieldName).values =
      otherContacts tenantId number fieldName (newestDate repo) (longestId repo) ++ repo.values := by
  rw [Dict.values, withOthers, List.map_append, List.map_map, Dict.values]
  congr 1

/-- Rows as new as any, before the others, stay first. -/
theorem newestFirst_append {new old : List Resource}
    (h : ∀ a ∈ new, ∀ b ∈ new ++ old, b.createdAt ≤ a.createdAt) :
    Repository.newestFirst (new ++ old) = new ++ Repository.newestFirst old := by
  induction new with
  | nil => rfl
  | cons a new ih =>
    have ih := ih fun x hx b hb => h x (List.mem_cons_of_mem _ hx) b (List.mem_cons_of_mem _ hb)
    unfold Repository.newestFirst at ih ⊢
    rw [List.cons_append, List.insertionSort_cons, ih, List.cons_append]
    cases hrest : new ++ List.insertionSort (fun a b => b.createdAt ≤ a.createdAt) old with
    | nil => rfl
    | cons b rest =>
      have hmem : b ∈ new ++ old := by
        have hb : b ∈ new ++ List.insertionSort (fun a b => b.createdAt ≤ a.createdAt) old := by
          rw [hrest]
          exact List.mem_cons_self
        rw [List.mem_append, List.mem_insertionSort] at hb
        exact List.mem_append.mpr hb
      rw [List.orderedInsert, if_pos (h a List.mem_cons_self b (List.mem_cons_of_mem _ hmem))]

theorem length_otherContacts (tenantId number fieldName : String) (createdAt : Datetime)
    (base : Nat) : (otherContacts tenantId number fieldName createdAt base).length = 50 := by
  rw [otherContacts, List.length_map, List.length_range]

/-- The sample of the hints is the fifty contacts. -/
theorem listFor_withOthers (repo : Repository) (tenantId number fieldName : String) :
    (withOthers repo tenantId number fieldName).listFor tenantId none 50 =
      otherContacts tenantId number fieldName (newestDate repo) (longestId repo) := by
  have hlisted : ∀ r ∈ otherContacts tenantId number fieldName (newestDate repo) (longestId repo),
      Repository.listed tenantId none r = true := by
    intro r hr
    obtain ⟨i, -, rfl⟩ := List.mem_map.mp hr
    simp [Repository.listed, otherContact]
  have hdate : ∀ r ∈ otherContacts tenantId number fieldName (newestDate repo) (longestId repo),
      r.createdAt = newestDate repo := by
    intro r hr
    obtain ⟨i, -, rfl⟩ := List.mem_map.mp hr
    rfl
  rw [Repository.listFor, values_withOthers, List.filter_append, List.filter_eq_self.mpr hlisted,
    newestFirst_append]
  · exact List.take_left' (length_otherContacts _ _ _ _ _)
  · intro a ha b hb
    rw [hdate a ha]
    rcases List.mem_append.mp hb with hb | hb
    · exact (hdate b hb).le
    · exact createdAt_le_newestDate (List.mem_filter.mp hb).1

/-! ## Their field in the hints -/

/-- Sampling rows that have one field each, with no value, only counts them. -/
theorem addAll_replicate (U : Unicode) (name : String) : ∀ (n k : Nat) (tally : Tally),
    tally.counts = Dict.empty.set name k → ∃ tally',
      Tally.addAll U tally (List.replicate n (name, .null)) = .ok tally' ∧
        tally'.counts = Dict.empty.set name (k + n)
  | 0, k, tally, h => ⟨tally, rfl, h⟩
  | n + 1, k, tally, h => by
    obtain ⟨next, hnext, hcounts⟩ : ∃ next, tally.add U name .null = .ok next ∧
        next.counts = Dict.empty.set name (k + 1) := by
      refine ⟨_, rfl, ?_⟩
      have hget : tally.counts.getD name 0 = k := by
        rw [h, Dict.getD, Dict.get?_set_self]
        rfl
      show tally.counts.set name (tally.counts.getD name 0 + 1) = Dict.empty.set name (k + 1)
      rw [hget, h]
      ext1
      simp [Dict.set, Dict.assign, Dict.empty]
    obtain ⟨tally', htally', hcounts'⟩ := addAll_replicate U name n (k + 1) next hcounts
    refine ⟨tally', ?_, ?_⟩
    · rw [List.replicate_succ, Tally.addAll, hnext]
      exact htally'
    · rw [hcounts', Nat.add_right_comm, Nat.add_assoc]

theorem addAll_replicate_succ (U : Unicode) (name : String) (n : Nat) :
    ∃ tally, Tally.addAll U {} (List.replicate (n + 1) (name, .null)) = .ok tally ∧
      tally.counts = Dict.empty.set name (n + 1) := by
  obtain ⟨first, hfirst, hcounts⟩ : ∃ first, Tally.add U {} name .null = .ok first ∧
      first.counts = Dict.empty.set name 1 := ⟨_, rfl, rfl⟩
  obtain ⟨tally, htally, hn⟩ := addAll_replicate U name n 1 first hcounts
  refine ⟨tally, ?_, ?_⟩
  · rw [List.replicate_succ, Tally.addAll, hfirst]
    exact htally
  · rw [hn, Nat.add_comm]

/-- The schema of the fifty contacts is their field, present in all of them. -/
theorem schemaOf_otherContacts (U : Unicode) (tenantId number fieldName : String)
    (createdAt : Datetime) (base : Nat) :
    ∃ field : FieldFrequency, field.name = fieldName ∧ field.presence = divide 50 50 ∧
      schemaOf U (otherContacts tenantId number fieldName createdAt base) = .ok [field] := by
  have hentries : (otherContacts tenantId number fieldName createdAt base).flatMap
      (fun r => r.data.entries) = List.replicate 50 (fieldName, .null) := by
    rw [otherContacts, List.flatMap_map]
    rfl
  obtain ⟨tally, htally, hfifty⟩ := addAll_replicate_succ U fieldName 49
  refine ⟨tally.field 50 fieldName 50, Tally.field_name _ _ _ _, Tally.field_presence _ _ _ _, ?_⟩
  have hcount : tally.counts.entries = [(fieldName, 50)] := by
    rw [hfifty]
    rfl
  rw [schemaOf, hentries, htally, length_otherContacts]
  simp only [ok_bind, hcount, List.map_cons, List.map_nil, List.insertionSort_cons,
    List.insertionSort_nil, List.orderedInsert_nil]
  rfl

/-- The stores with the fifty contacts. -/
def Stores.withOthers (stores : Stores) (tenantId number fieldName : String) : Stores :=
  { stores with resources := Agent.withOthers stores.resources tenantId number fieldName }

/-- The hints of the store name the field. -/
theorem infix_learningHints (U : Unicode) (stores : Stores) (tenantId number fieldName : String)
    (now : Datetime.Reading) : fieldName.toList <:+:
      (learningHints U (stores.withOthers tenantId number fieldName) tenantId now.1).toList := by
  obtain ⟨field, rfl, hpresence, hschema⟩ := schemaOf_otherContacts U tenantId number fieldName
    (newestDate stores.resources) (longestId stores.resources)
  obtain ⟨cutoff, hcutoff⟩ := Datetime.subDays_thirty now
  have hdiscover : discoverSchema U (stores.withOthers tenantId number field.name).resources
      tenantId DEFAULT_SAMPLE_SIZE none = .ok [field] := by
    unfold discoverSchema
    rw [show Repository.listFor (stores.withOthers tenantId number field.name).resources tenantId
      none DEFAULT_SAMPLE_SIZE = _ from listFor_withOthers stores.resources tenantId number field.name]
    exact hschema
  obtain ⟨tops, htops⟩ : ∃ tops, topFilterKeys (stores.withOthers tenantId number field.name).queryLog
      tenantId now.1 DEFAULT_DAYS_WINDOW DEFAULT_TOP_FILTERS = .ok tops := by
    unfold topFilterKeys
    rw [show Datetime.subDays now.1 DEFAULT_DAYS_WINDOW = some cutoff from hcutoff]
    exact ⟨_, rfl⟩
  simp only [learningHints, renderSoulHints, insights, hdiscover, htops, ok_bind, pure, Except.pure]
  apply infix_renderHints
  have huseful : MIN_PRESENCE_FOR_HINT.le field.presence = true := by
    rw [hpresence]
    decide +kernel
  have hfilter : [field].filter (fun f => MIN_PRESENCE_FOR_HINT.le f.presence) = [field] := by
    refine List.filter_eq_self.mpr fun f hf => ?_
    rw [List.mem_singleton.mp hf]
    exact huseful
  rw [hfilter]
  exact List.mem_cons_self

/-- The system message begins with the SOUL. -/
theorem infix_systemContent {part : List Char} {soul : String} (h : part <:+: soul.toList)
    (U : Unicode) (resources : List Resource) (facts : List Fact) :
    part <:+: (systemContent U soul resources facts).toList := by
  unfold systemContent
  refine h.trans (infix_join ?_)
  exact List.mem_append_left _ (List.mem_append_left _ (List.mem_singleton_self soul))

/-! ## The two stores differ in nothing else -/

theorem isContactOfOther_otherContact (tenantId number fieldName : String) (createdAt : Datetime)
    (base i : Nat) :
    isContactOfOther tenantId number (otherContact tenantId number fieldName createdAt base i) =
      true := by
  have hbuyer : startsWith "buyer:" (contactExternalId (number ++ repeated (i + 1) '0')) = true := by
    rw [startsWith, List.isPrefixOf_iff_prefix]
    refine ⟨(number ++ repeated (i + 1) '0').toList, ?_⟩
    rw [← String.toList_append]
    rfl
  have hne : contactExternalId (number ++ repeated (i + 1) '0') ≠ contactExternalId number := by
    intro h
    have hlen := congrArg String.length (contactExternalId_injective h)
    rw [String.length_append, length_repeated] at hlen
    omega
  simp [isContactOfOther, otherContact, hbuyer, hne]

/-- An id no longer than those of the store is looked up as before. -/
theorem get?_withOthers {repo : Repository} {k : String} (h : k.length ≤ longestId repo)
    (tenantId number fieldName : String) :
    (withOthers repo tenantId number fieldName).get? k = repo.get? k := by
  refine Dict.find_append ?_
  rw [List.map_map]
  exact not_mem_ids h

/-- A row of the store belongs to whom it belonged. -/
theorem ofOtherBuyer_withOthers {repo : Repository} {r : Resource} (hr : r ∈ repo.values)
    (tenantId number fieldName : String) :
    ofOtherBuyer (withOthers repo tenantId number fieldName) tenantId number r =
      ofOtherBuyer repo tenantId number r := by
  unfold ofOtherBuyer isTimelineOfOther
  cases hid : contactIdOf r with
  | none => rfl
  | some id =>
    have hlen : id.length ≤ longestId repo :=
      length_le_maxLength (List.mem_append_right _ (List.mem_filterMap.mpr ⟨r, hr, hid⟩))
    rw [Option.bind_some, Option.bind_some, get?_withOthers hlen]

/-- The fifty contacts belong to other buyers. -/
theorem sameButOthers_withOthers (tenant : Tenant) (number fieldName : String) (stores : Stores) :
    SameButOthers tenant number stores (stores.withOthers tenant.id number fieldName) where
  facts := rfl
  queryLog := rfl
  memory _ _ := rfl
  rows := by
    show (withOthers stores.resources tenant.id number fieldName).values.filter (fun r =>
      !ofOtherBuyer (withOthers stores.resources tenant.id number fieldName) tenant.id number r) = _
    rw [values_withOthers, List.filter_append]
    have hnew : (otherContacts tenant.id number fieldName (newestDate stores.resources)
        (longestId stores.resources)).filter (fun r =>
          !ofOtherBuyer (withOthers stores.resources tenant.id number fieldName) tenant.id number r) =
        [] := by
      rw [List.filter_eq_nil_iff]
      intro r hr
      obtain ⟨i, -, rfl⟩ := List.mem_map.mp hr
      simp [ofOtherBuyer, isContactOfOther_otherContact]
    rw [hnew, List.nil_append]
    exact List.filter_congr fun r hr => by rw [ofOtherBuyer_withOthers hr]

/-- The system message of a prompt. -/
def systemMessage (U : Unicode) (stores : Stores) (tenant : Tenant) (message : String)
    (soulConfig : Option SoulConfig) (now : Datetime) : String :=
  systemContent U (build tenant soulConfig (learningHints U stores tenant.id now))
    (catalogItems U stores tenant.id message)
    (Hindsight.query U stores.facts message (some tenant.id) RAG_TOP_K)

/-- Prompts that are the same have the same system message. -/
theorem systemMessage_eq_of_sent_eq {U : Unicode} {stores stores' : Stores} {tenant : Tenant}
    {buyerId message : String} {soulConfig : Option SoulConfig} {now : Datetime}
    (hescalate : (evaluate U message tenant.handoffConfig).escalate = false)
    (h : (respond U stores' tenant buyerId message soulConfig now).sent =
      (respond U stores tenant buyerId message soulConfig now).sent) :
    systemMessage U stores' tenant message soulConfig now =
      systemMessage U stores tenant message soulConfig now := by
  rw [sent_of_not_escalate hescalate, sent_of_not_escalate hescalate] at h
  exact congrArg LLMMessage.content (List.cons.inj (Option.some.inj h)).1

/-- A field name without white space is in the system message of the store that has it. -/
theorem infix_systemMessage (fieldName : String) (hne : fieldName.toList ≠ [])
    (hspace : ∀ c ∈ fieldName.toList, isSpace c = false) (U : Unicode) (stores : Stores)
    (tenant : Tenant) (number message : String) (soulConfig : Option SoulConfig)
    (now : Datetime.Reading) : fieldName.toList <:+:
      (systemMessage U (stores.withOthers tenant.id number fieldName) tenant message soulConfig
        now.1).toList :=
  infix_systemContent (infix_build hne hspace (infix_learningHints U stores tenant.id number
    fieldName now) tenant soulConfig) U _ _

/-- **Buyer-level noninterference of the prompt.** Whatever the CRM rows and the memory of the other
buyers of the tenant are, a buyer's message sends the same message list and cites the same resources
exactly when the handoff detector escalates it, and no prompt is sent. The condition is a predicate
of the message alone: for every message that reaches the model, whatever the store, there is a
second store that shows. -/
theorem prompt_noninterference_iff (U : Unicode) (tenant : Tenant) (number message : String)
    (soulConfig : Option SoulConfig) (now : Datetime.Reading) (stores : Stores) :
    (∀ stores', SameButOthers tenant number stores stores' → ∀ reply,
      (respond U stores' tenant (buyerIdFor tenant.slug number) message soulConfig now.1).sent =
        (respond U stores tenant (buyerIdFor tenant.slug number) message soulConfig now.1).sent ∧
      (respond U stores' tenant (buyerIdFor tenant.slug number) message soulConfig now.1).cited
          reply =
        (respond U stores tenant (buyerIdFor tenant.slug number) message soulConfig now.1).cited
          reply) ↔
      (evaluate U message tenant.handoffConfig).escalate = true := by
  constructor
  · intro h
    by_contra hescalate
    rw [Bool.not_eq_true] at hescalate
    -- a field name longer than the system message that should not change
    let size := (systemMessage U stores tenant message soulConfig now.1).length
    have hlist : (repeated (size + 1) 'z').toList = List.replicate (size + 1) 'z' :=
      String.toList_ofList
    have hsame := systemMessage_eq_of_sent_eq hescalate (h _ (sameButOthers_withOthers tenant number
      (repeated (size + 1) 'z') stores) ⟨"", ""⟩).1
    have hin := infix_systemMessage (repeated (size + 1) 'z')
      (by rw [hlist]; exact List.cons_ne_nil _ _)
      (fun c hc => by rw [hlist] at hc; rw [List.eq_of_mem_replicate hc]; decide) U stores tenant
      number message soulConfig now
    have hlen := hin.length_le
    rw [hsame, hlist, List.length_replicate, String.length_toList] at hlen
    omega
  · intro hescalate stores' _ reply
    obtain ⟨turn, -, hdone⟩ := respond_of_escalate hescalate
    rw [hdone, hdone]
    exact ⟨rfl, rfl⟩

/-- A tenant with no handoff. -/
def acme : Tenant where
  id := "t1"
  name := "Acme"
  slug := "acme"
  createdAt := 0

/-- The contact of a buyer who once wrote hello. -/
def otherBuyersContact : Resource where
  id := "r1"
  tenantId := "t1"
  kind := CONTACT_KIND
  externalId := some "buyer:222"
  data := (Dict.empty.set "phone" (.str "222")).set "turn_count" (.int 1)
  summary := "hola"
  createdAt := 0
  updatedAt := 0

/-- It is cited to the next buyer who writes the same. -/
theorem not_prompt_noninterference : ¬ ∀ (U : Unicode) (tenant : Tenant) (number message : String)
    (soulConfig : Option SoulConfig) (now : Datetime.Reading) (stores stores' : Stores),
    SameButOthers tenant number stores stores' → ∀ reply,
      (respond U stores' tenant (buyerIdFor tenant.slug number) message soulConfig now.1).sent =
        (respond U stores tenant (buyerIdFor tenant.slug number) message soulConfig now.1).sent ∧
      (respond U stores' tenant (buyerIdFor tenant.slug number) message soulConfig now.1).cited
          reply =
        (respond U stores tenant (buyerIdFor tenant.slug number) message soulConfig now.1).cited
          reply := by
  intro h
  have hsame : SameButOthers acme "111" {}
      { resources := Dict.empty.set "r1" otherBuyersContact } :=
    ⟨rfl, rfl, fun _ _ => rfl, rfl⟩
  have hcited := (h Unicode.ascii acme "111" "hola" none ⟨0, by decide⟩ _ _ hsame ⟨"", ""⟩).2
  have hids := congrArg (List.map Resource.id) hcited
  revert hids
  decide +kernel

end Wapsell.Agent
