import Wapsell.Crm.Reapply

/-!
# One contact, two writers

The recorder and the extractor both write the contact back whole. What
either leaves of its counter and of the fields that are written once is
stated here for every contact of a store, so that the two can be put in any
order.

`Advances` is the part of a contact that both writers respect: a counter
that only the recorder raises, and fields that only the first inbound
writes. A step lemma for each writer says by how much the counter moves,
and an interleaving of the two then adds up.

Only contacts are spoken of. The activities and tasks that the writers
add are new rows, under ids of their own, and touch no contact.
-/

namespace Wapsell.Crm

open Lib Py Resources

/-- The fields the first inbound writes and none after it. -/
def FIRST_FIELDS : List String := ["phone", "first_contact_at", "source"]

/-- The turns a contact counts: none, before there is one. -/
def turnsOf (U : Unicode) (repo : Repository) (tenantId fromNumber : String) : Except Exc Int :=
  match contactOf repo tenantId fromNumber with
  | none => .ok 0
  | some contact => (contact.data.getD "turn_count" (.int 0)).toInt U

/-- The contact stays where it is, counts `d` turns more, and keeps what was written once. -/
structure Advances (U : Unicode) (repo repo' : Repository) (tenantId fromNumber : String) (d : Nat) :
    Prop where
  turns : ∀ n, turnsOf U repo tenantId fromNumber = .ok n →
    turnsOf U repo' tenantId fromNumber = .ok (n + d)
  kept : ∀ c, contactOf repo tenantId fromNumber = some c →
    ∃ c', contactOf repo' tenantId fromNumber = some c' ∧ c'.id = c.id ∧
      ∀ key ∈ FIRST_FIELDS, c'.data.get? key = c.data.get? key

section Rules

variable {U : Unicode} {repo repo₁ repo₂ : Repository} {tenantId fromNumber : String} {d e : Nat}

theorem Advances.of_eq (h : contactOf repo₁ tenantId fromNumber = contactOf repo tenantId fromNumber) :
    Advances U repo repo₁ tenantId fromNumber 0 where
  turns n hn := by
    rw [turnsOf, h, Int.natCast_zero, Int.add_zero]
    exact hn
  kept c hc := ⟨c, h.trans hc, rfl, fun _ _ => rfl⟩

theorem Advances.refl : Advances U repo repo tenantId fromNumber 0 := .of_eq rfl

theorem Advances.trans (h : Advances U repo repo₁ tenantId fromNumber d)
    (h' : Advances U repo₁ repo₂ tenantId fromNumber e) :
    Advances U repo repo₂ tenantId fromNumber (d + e) where
  turns n hn := by
    rw [Int.natCast_add, ← Int.add_assoc]
    exact h'.turns _ (h.turns n hn)
  kept c hc := by
    obtain ⟨c₁, hc₁, hid₁, hk₁⟩ := h.kept c hc
    obtain ⟨c₂, hc₂, hid₂, hk₂⟩ := h'.kept c₁ hc₁
    exact ⟨c₂, hc₂, hid₂.trans hid₁, fun key hkey => (hk₂ key hkey).trans (hk₁ key hkey)⟩

/-- A row of another kind is added. -/
theorem Advances.add {r : Resource} (hnew : repo.get? r.id = none) (hkind : r.kind ≠ CONTACT_KIND) :
    Advances U repo (repo.add r) tenantId fromNumber 0 :=
  .of_eq (findByExternalId_add_ne hnew hkind)

end Rules

/-! ## Writing a contact back -/

/-- The first that is searched for, where it is not filtered out. -/
theorem find?_filter_of_keep {α : Type*} {p keep : α → Bool} : ∀ {l : List α},
    (∀ a, l.find? p = some a → keep a = true) → (l.filter keep).find? p = l.find? p
  | [], _ => rfl
  | a :: l, h => by
    by_cases hp : p a = true
    · have hkeep := h a (List.find?_cons_of_pos hp)
      rw [List.filter_cons_of_pos hkeep, List.find?_cons_of_pos hp, List.find?_cons_of_pos hp]
    · have hrest : (l.filter keep).find? p = l.find? p :=
        find?_filter_of_keep fun b hb => h b ((List.find?_cons_of_neg hp).trans hb)
      rw [List.find?_cons_of_neg hp, ← hrest]
      by_cases hkeep : keep a = true
      · rw [List.filter_cons_of_pos hkeep, List.find?_cons_of_neg hp]
      · rw [List.filter_cons_of_neg hkeep]

/-- A row written back is found where it was found, and of its kind nothing else is lost, as long
as it is itself the one its external id finds. -/
theorem findByExternalId_upsert {repo : Repository} (hI : RowIds repo) {r old : Resource} {e : String}
    (hid : old.id = r.id) (ht : r.tenantId = old.tenantId) (hk : r.kind = old.kind)
    (he : r.externalId = some e) (he' : old.externalId = some e)
    (hfound : repo.findByExternalId r.tenantId r.kind e = some old) (t e' : String) :
    (repo.upsert r).findByExternalId t r.kind e' =
      (repo.findByExternalId t r.kind e').map fun c => if c.id = r.id then r else c := by
  obtain ⟨k, hrow⟩ := Dict.mem_values_iff.mp (List.mem_of_find?_eq_some hfound)
  have hkid : k = r.id := (hI k old hrow).symm.trans hid
  subst hkid
  unfold Repository.upsert
  generalize hothers : (if r.externalId ≠ none ∧ r.sourceId ≠ none then
    repo.values.filter fun existing => decide (existing.tenantId = r.tenantId ∧
      existing.sourceId = r.sourceId ∧ existing.externalId = r.externalId ∧ existing.id ≠ r.id)
    else []) = others
  have hother : ∀ o ∈ others, o.tenantId = r.tenantId ∧ o.externalId = some e ∧ o.id ≠ r.id ∧
      repo.get? o.id = some o := by
    intro o ho
    rw [← hothers] at ho
    split at ho
    · obtain ⟨hval, hp⟩ := List.mem_filter.mp ho
      rw [decide_eq_true_eq] at hp
      obtain ⟨x, hx⟩ := Dict.mem_values_iff.mp hval
      exact ⟨hp.1, hp.2.2.1.trans he, hp.2.2.2, (hI x o hx) ▸ hx⟩
    · cases ho
  have hkeepr : r.id ∉ others.map Resource.id := by
    intro hmem
    obtain ⟨o, ho, hoid⟩ := List.mem_map.mp hmem
    exact (hother o ho).2.2.1 hoid
  have hrow' : (others.foldl (fun d existing => Dict.erase d existing.id) repo).get? r.id =
      some old := by
    rw [Repository.get?_foldl_erase, if_neg hkeepr, hrow]
  show Repository.findByExternalId (Dict.set _ r.id r) t r.kind e' = _
  rw [Repository.findByExternalId, Dict.find?_values_set hrow' (by simp only [ht, hk, he, he']),
    Repository.entries_foldl_erase, find?_filter_of_keep]
  · rw [Repository.findByExternalId, Dict.values, List.find?_map, Option.map_map]
    refine Option.map_congr fun entry hmem => ?_
    have hentry : entry.2.id = entry.1 :=
      hI _ _ (Dict.get?_eq_some_iff.mpr (List.mem_of_find?_eq_some hmem))
    simp only [Function.comp_apply, hentry]
  · -- a row that goes has the written row's own external id, and is not the one that finds
    intro entry hentry
    have hget := Dict.get?_eq_some_iff.mpr (show (entry.1, entry.2) ∈ repo.entries from
      List.mem_of_find?_eq_some hentry)
    have hp := List.find?_some hentry
    simp only [decide_eq_true_eq] at hp ⊢
    intro hgone
    obtain ⟨o, ho, hoid⟩ := List.mem_map.mp hgone
    obtain ⟨hot, hoe, hone, hoget⟩ := hother o ho
    rw [hoid, hget] at hoget
    cases hoget
    have hte : t = r.tenantId := hp.1.symm.trans hot
    have hee : e' = e := Option.some.inj (hp.2.2.symm.trans hoe)
    have hsame : repo.findByExternalId r.tenantId r.kind e = some entry.2 := by
      rw [← hte, ← hee, Repository.findByExternalId, Dict.values, List.find?_map]
      exact congrArg (Option.map Prod.snd) hentry
    rw [hfound] at hsame
    cases hsame
    exact hone hid

/-- A contact is written back over itself. -/
theorem contactOf_upsert {repo : Repository} (hI : RowIds repo) {tenantId fromNumber : String}
    {old r : Resource} (hfound : contactOf repo tenantId fromNumber = some old) (hid : r.id = old.id)
    (ht : r.tenantId = old.tenantId) (hk : r.kind = old.kind) (he : r.externalId = old.externalId)
    (t n : String) :
    contactOf (repo.upsert r) t n =
      if t = tenantId ∧ n = fromNumber then some r else contactOf repo t n := by
  obtain ⟨hold, htenant, hkind, hexternal⟩ := contactOf_eq_some hI hfound
  have hfound' : repo.findByExternalId r.tenantId r.kind (contactExternalId fromNumber) =
      some old := by
    rw [ht, hk, htenant, hkind]
    exact hfound
  have hwrite := findByExternalId_upsert hI hid.symm ht hk (he.trans hexternal) hexternal hfound' t
    (contactExternalId n)
  rw [hk, hkind] at hwrite
  refine hwrite.trans ?_
  by_cases hsame : t = tenantId ∧ n = fromNumber
  · obtain ⟨rfl, rfl⟩ := hsame
    rw [show repo.findByExternalId t CONTACT_KIND (contactExternalId n) = some old from hfound,
      Option.map_some, if_pos hid.symm, if_pos ⟨rfl, rfl⟩]
  · rw [if_neg hsame]
    show (contactOf repo t n).map _ = contactOf repo t n
    cases hother : contactOf repo t n with
    | none => rfl
    | some c =>
      obtain ⟨hc, htc, -, hec⟩ := contactOf_eq_some hI hother
      have hne : c.id ≠ r.id := by
        intro h
        rw [h, hid, hold] at hc
        cases hc
        refine hsame ⟨htc.symm.trans htenant, ?_⟩
        exact contactExternalId_injective (Option.some.inj (hec.symm.trans hexternal))
      rw [Option.map_some, if_neg hne]

/-! ## The recorder -/

theorem bumpedContact_kept (existing : Resource) (fromNumber : String) (profileName : Option String)
    (when_ : Datetime) (n : Int) {key : String} (hkey : key ∈ FIRST_FIELDS) :
    (bumpedContact existing fromNumber profileName when_ n).data.get? key =
      existing.data.get? key := by
  have hne : "last_seen_at" ≠ key ∧ "turn_count" ≠ key ∧ "name" ≠ key := by
    refine ⟨?_, ?_, ?_⟩ <;> rintro rfl <;> exact absurd hkey (by decide)
  unfold bumpedContact
  cases profileName.filter (· ≠ "") with
  | none => simp [hne]
  | some name =>
    simp only
    split <;> simp [hne]

/-- One call for a phone raises its counter by one, and no other. -/
def weight (tenantId fromNumber t n : String) : Nat :=
  if t = tenantId ∧ n = fromNumber then 1 else 0

/-- `record_inbound` as its caller sees it: what it raises is logged. -/
def recordedInbound (U : Unicode) (repo : Repository) (tenantId fromNumber text messageId : String)
    (profileName : Option String) (at_ : Option Datetime) (contactDraw activityDraw : Draw) :
    Repository :=
  match recordInbound U repo tenantId fromNumber text messageId profileName at_ contactDraw
      activityDraw with
  | .ok (_, repo') => repo'
  | .error _ => repo

section Recorder

variable {U : Unicode} {repo : Repository} (hI : RowIds repo)

include hI

/-- An activity is found, or added. -/
theorem recordActivity_advances {draw : Draw} (hfree : repo.get? draw.id = none)
    (tenantId contactId direction text messageId activityType : String) (at_ : Option Datetime)
    (extra : Dict String Json) :
    RowIds (recordActivity repo tenantId contactId direction text messageId activityType at_ extra
      draw).2 ∧ ∀ t n, Advances U repo (recordActivity repo tenantId contactId direction text
        messageId activityType at_ extra draw).2 t n 0 := by
  rcases recordActivity_cases repo tenantId contactId direction text messageId activityType at_ extra
    draw with hrepo | ⟨-, hrepo⟩
  · rw [hrepo]
    exact ⟨hI, fun _ _ => .refl⟩
  · rw [hrepo]
    exact ⟨Dict.Forall.set hI rfl, fun _ _ =>
      .add hfree (show ACTIVITY_KIND ≠ CONTACT_KIND by decide)⟩

omit hI in
/-- The first inbound of a phone. -/
theorem add_newContact_advances {tenantId fromNumber : String}
    (hnone : contactOf repo tenantId fromNumber = none) (profileName : Option String)
    (when_ : Datetime) {draw : Draw} (hfree : repo.get? draw.id = none) (t n : String) :
    Advances U repo (repo.add (newContact tenantId fromNumber profileName when_ draw)) t n
      (weight tenantId fromNumber t n) := by
  have hadd := findByExternalId_add (r := newContact tenantId fromNumber profileName when_ draw) hfree
    t CONTACT_KIND (contactExternalId n)
  unfold weight
  by_cases hsame : t = tenantId ∧ n = fromNumber
  · obtain ⟨rfl, rfl⟩ := hsame
    rw [if_pos ⟨rfl, rfl⟩]
    rw [show repo.findByExternalId t CONTACT_KIND (contactExternalId n) = none from hnone,
      Option.none_or, if_pos ⟨rfl, rfl, rfl⟩] at hadd
    constructor
    · intro m hm
      rw [turnsOf, hnone] at hm
      cases hm
      rw [turnsOf, show contactOf _ t n = some _ from hadd]
      simp only [Dict.getD, newContact_turnCount, Option.getD_some, Json.toInt_int]
      rfl
    · intro c hc
      rw [hnone] at hc
      cases hc
  · rw [if_neg hsame]
    refine .of_eq (hadd.trans ?_)
    rw [if_neg, Option.or_none]
    · rfl
    · rintro ⟨ht, -, he⟩
      exact hsame ⟨ht.symm, (contactExternalId_injective (Option.some.inj he)).symm⟩

/-- A later inbound of a phone. -/
theorem upsert_bumpedContact_advances {tenantId fromNumber : String} {existing : Resource} {m : Int}
    (hfound : contactOf repo tenantId fromNumber = some existing)
    (hcount : (existing.data.getD "turn_count" (.int 0)).toInt U = .ok m)
    (profileName : Option String) (when_ : Datetime) (t n : String) :
    Advances U repo (repo.upsert (bumpedContact existing fromNumber profileName when_ m)) t n
      (weight tenantId fromNumber t n) := by
  have hwrite := contactOf_upsert hI (r := bumpedContact existing fromNumber profileName when_ m)
    hfound rfl rfl rfl rfl
  unfold weight
  by_cases hsame : t = tenantId ∧ n = fromNumber
  · rw [if_pos hsame]
    obtain ⟨rfl, rfl⟩ := hsame
    have hnew := (hwrite t n).trans (if_pos ⟨rfl, rfl⟩)
    constructor
    · intro k hk
      rw [turnsOf, hfound] at hk
      simp only [hcount] at hk
      cases hk
      rw [turnsOf, hnew]
      simp only [Dict.getD, bumpedContact_turnCount, Option.getD_some, Json.toInt_int]
      rfl
    · intro c hc
      rw [hfound] at hc
      cases hc
      exact ⟨_, hnew, rfl, fun key hkey => bumpedContact_kept _ _ _ _ _ hkey⟩
  · rw [if_neg hsame]
    exact .of_eq ((hwrite t n).trans (if_neg hsame))

/-- The contact of an inbound is bumped, or created. -/
theorem upsertContactForInbound_advances {tenantId fromNumber : String}
    {profileName : Option String} {at_ : Option Datetime} {draw : Draw}
    (hfree : repo.get? draw.id = none) {c : Resource} {repo' : Repository}
    (hok : upsertContactForInbound U repo tenantId fromNumber profileName at_ draw =
      .ok (c, repo')) :
    RowIds repo' ∧ (∀ k, repo.get? k = none → k ≠ draw.id → repo'.get? k = none) ∧
      ∀ t n, Advances U repo repo' t n (weight tenantId fromNumber t n) := by
  rcases upsertContactForInbound_eq_ok hok with
    ⟨hnone, rfl, rfl⟩ | ⟨existing, m, hfound, hcount, hc, rfl⟩
  · refine ⟨Dict.Forall.set hI rfl, fun k hk hne => ?_,
      add_newContact_advances hnone profileName _ hfree⟩
    exact (Dict.get?_set_ne _ _ (Ne.symm hne)).trans hk
  · obtain ⟨hrow, -, -, -⟩ := contactOf_eq_some hI hfound
    have hid : c.id = existing.id := by rw [hc]; rfl
    refine ⟨hI.upsert c, fun k hk _ => ?_, ?_⟩
    · have hne : k ≠ c.id := by
        rintro rfl
        rw [hid, hrow] at hk
        cases hk
      rw [show (repo.upsert c).get? k = _ from Repository.get?_upsert_ne hI hne, hk]
      rfl
    · rw [hc]
      exact upsert_bumpedContact_advances hI hfound hcount profileName _

/-- **`record_inbound`.** One turn more for its phone, and nothing for any other. The drawn ids must
be fresh, for an id in use would overwrite another row. -/
theorem recordedInbound_advances (tenantId fromNumber text messageId : String)
    (profileName : Option String) (at_ : Option Datetime) {contactDraw activityDraw : Draw}
    (hcontact : repo.get? contactDraw.id = none) (hactivity : repo.get? activityDraw.id = none)
    (hdraws : contactDraw.id ≠ activityDraw.id) :
    RowIds (recordedInbound U repo tenantId fromNumber text messageId profileName at_ contactDraw
      activityDraw) ∧ ∀ t n, Advances U repo (recordedInbound U repo tenantId fromNumber text
        messageId profileName at_ contactDraw activityDraw) t n (weight tenantId fromNumber t n) := by
  unfold recordedInbound recordInbound
  cases hup : upsertContactForInbound U repo tenantId fromNumber profileName at_ contactDraw with
  | error e =>
    refine ⟨hI, fun t n => ?_⟩
    simp only [bind, Except.bind]
    unfold weight
    by_cases hsame : t = tenantId ∧ n = fromNumber
    · -- the call raised because the counter is no number
      obtain ⟨rfl, rfl⟩ := hsame
      refine ⟨fun m hm => ?_, fun c hc => ⟨c, hc, rfl, fun _ _ => rfl⟩⟩
      exfalso
      unfold upsertContactForInbound at hup
      unfold turnsOf contactOf at hm
      cases hfind : repo.findByExternalId t CONTACT_KIND (contactExternalId n) with
      | none =>
        rw [hfind] at hup
        cases hup
      | some existing =>
        rw [hfind] at hm
        simp only [hfind] at hup
        simp only at hm
        rw [hm] at hup
        cases hup
    · rw [if_neg hsame]
      exact .refl
  | ok written =>
    obtain ⟨c, repo₁⟩ := written
    obtain ⟨hI₁, hfree₁, hadv₁⟩ := upsertContactForInbound_advances hI hcontact hup
    obtain ⟨hI₂, hadv₂⟩ := recordActivity_advances (U := U) hI₁
      (hfree₁ _ hactivity (Ne.symm hdraws)) tenantId c.id "inbound" text messageId
      "whatsapp_message" at_ Dict.empty
    exact ⟨hI₂, fun t n => (hadv₁ t n).trans (hadv₂ t n)⟩

/-- `record_outbound` counts nothing. -/
theorem recordOutbound_advances (tenantId fromNumber text replyToMessageId : String)
    (at_ : Option Datetime) (extra : Dict String Json) {draw : Draw}
    (hfree : repo.get? draw.id = none) :
    RowIds (recordOutbound repo tenantId fromNumber text replyToMessageId at_ extra draw).2 ∧
      ∀ t n, Advances U repo (recordOutbound repo tenantId fromNumber text replyToMessageId at_ extra
        draw).2 t n 0 := by
  unfold recordOutbound
  cases repo.findByExternalId tenantId CONTACT_KIND (contactExternalId fromNumber) with
  | none => exact ⟨hI, fun _ _ => .refl⟩
  | some contact => exact recordActivity_advances hI hfree _ _ _ _ _ _ _ _

end Recorder

/-! ## The extractor -/

/-- No patch moves the counter or what was written once. -/
theorem patched_protected {U : Unicode} {data data' : Dict String Json} {result : ExtractionResult}
    {changed : Bool} (hok : patchedContact U data result = .ok (data', changed)) {key : String}
    (hkey : key ∈ PROTECTED_CONTACT_FIELDS) : data'.get? key = data.get? key := by
  rw [get?_patchedContact hok, patchedKey_protected hkey]

theorem patchContact_advances {U : Unicode} {repo repo' : Repository} (hI : RowIds repo)
    {tenantId fromNumber : String} {contact : Resource}
    (hfound : contactOf repo tenantId fromNumber = some contact) {result : ExtractionResult}
    {now : Datetime} (hok : patchContact U repo contact result now = .ok repo') :
    RowIds repo' ∧ (∀ k, repo.get? k = none → repo'.get? k = none) ∧
      ∀ t n, Advances U repo repo' t n 0 := by
  unfold patchContact at hok
  cases hdata : patchedContact U contact.data result with
  | error e =>
    rw [hdata] at hok
    cases hok
  | ok pair =>
    rw [hdata] at hok
    cases hok
    obtain ⟨data, changed⟩ := pair
    cases changed with
    | false => exact ⟨hI, fun _ hk => hk, fun _ _ => .refl⟩
    | true =>
      generalize hr : ({ contact with data, updatedAt := now } : Resource) = r
      have hid : r.id = contact.id := by rw [← hr]
      have hrdata : r.data = data := by rw [← hr]
      have hwrite := contactOf_upsert hI (r := r) hfound hid (by rw [← hr]) (by rw [← hr])
        (by rw [← hr])
      refine ⟨hI.upsert r, fun k hk => ?_, fun t n => ?_⟩
      · have hne : k ≠ r.id := by
          rintro rfl
          rw [hid, (contactOf_eq_some hI hfound).1] at hk
          cases hk
        show (repo.upsert r).get k = none
        rw [Repository.get?_upsert_ne hI hne, hk]
        rfl
      · have hwrite' := hwrite t n
        by_cases hsame : t = tenantId ∧ n = fromNumber
        · obtain ⟨rfl, rfl⟩ := hsame
          rw [if_pos ⟨rfl, rfl⟩] at hwrite'
          have hcount := patched_protected hdata
            (show "turn_count" ∈ PROTECTED_CONTACT_FIELDS by decide)
          constructor
          · intro m hm
            rw [turnsOf, hfound] at hm
            show turnsOf U (repo.upsert r) t n = _
            rw [turnsOf, hwrite']
            simp only [Dict.getD, hrdata, hcount, Int.natCast_zero, Int.add_zero]
            exact hm
          · intro c hc
            rw [hfound] at hc
            cases hc
            refine ⟨r, hwrite', hid, fun key hkey => ?_⟩
            rw [hrdata]
            refine patched_protected hdata ?_
            revert key
            decide
        · rw [if_neg hsame] at hwrite'
          exact .of_eq hwrite'

/-- **`apply`.** Whatever the model answered, no counter moves: `turn_count` is among the protected
fields, so the patch writes back the number it has read. -/
theorem applied_advances {U : Unicode} {repo : Repository} (hI : RowIds repo)
    {tenantId fromNumber contactId : String} {contact : Resource}
    (hfound : contactOf repo tenantId fromNumber = some contact) (hid : contact.id = contactId)
    {result : ExtractionResult} {draw : ApplyDraw} (hF : draw.Fresh repo result) :
    RowIds (applied U repo tenantId contactId result draw) ∧
      ∀ t n, Advances U repo (applied U repo tenantId contactId result draw) t n 0 := by
  subst hid
  obtain ⟨hget, ht, -, -⟩ := contactOf_eq_some hI hfound
  by_cases hA : Applies U repo tenantId contact.id result
  · obtain ⟨hempty, found, hget', -, data, changed, hdata⟩ := hA
    rw [hget] at hget'
    cases hget'
    obtain ⟨repo₁, hpatch⟩ := exists_patchContact hdata repo draw.now
    obtain ⟨hI₁, hfree₁, hadv₁⟩ := patchContact_advances hI hfound hpatch
    have hW := tasksWritten_loop U tenantId contact.id
      (repo₁, openTaskTitles U repo₁ tenantId contact.id) hF.zip.1
      fun t ht => hfree₁ _ (hF.zip.2 t ht)
    rw [applied_of_applies hempty hget ht hpatch]
    generalize writeTaskLoop U tenantId contact.id
      (repo₁, openTaskTitles U repo₁ tenantId contact.id) (result.newTasks.zip draw.tasks) = acc
      at hW ⊢
    have hadv₂ : ∀ t n, Advances U repo acc.1 t n 0 := fun t n =>
      (hadv₁ t n).trans (.of_eq (hW.others _ _ _ (by decide)))
    have hI₂ := hW.rowIds hI₁
    cases htransition : result.stageTransition with
    | none => exact ⟨hI₂, hadv₂⟩
    | some transition =>
      have hstage : acc.1.get? draw.stage.id = none := by
        have hmem : draw.stage.id ∈ draw.ids := List.mem_append_right _ List.mem_cons_self
        exact hW.free _ (hfree₁ _ (hF.2.2 _ hmem)) hF.stage_ne
      rw [show maybeWriteStageActivity acc.1 tenantId contact.id (some transition) draw.stage =
        acc.1.add (stageActivity tenantId contact.id transition draw.stage) from
          upsert_of_noSource _ rfl]
      refine ⟨Dict.Forall.set hI₂ rfl, fun t n => ?_⟩
      exact (hadv₂ t n).trans (.add hstage (show ACTIVITY_KIND ≠ CONTACT_KIND by decide))
  · rw [applied_of_not_applies hA]
    exact ⟨hI, fun _ _ => .refl⟩

end Wapsell.Crm
