import Wapsell.Onboarding.Replay
import Wapsell.Tenant.Invariant

/-!
# Onboarding runs side by side

The lookup, the search for a slug, the new row and its number lie between
two awaits, so of several runs with one number only the first makes a
tenant, and no two make one slug. A run that has made its tenant is the only
one to write it and to announce it: it is in flight until it has done both.

The stretches between two awaits are the atoms of the interleaving,
because the service is one process with one event loop. Nothing else is
needed: no lock is taken anywhere, and the first stretch is long enough
to hold the lookup together with the write.

What this does not establish: the same of two processes on one database.
There a second lookup may come between the first and its write.
-/

namespace Wapsell.Tenants

open Lib Py Api Onboarding

/-- Runs of the onboarding, none of whose stages fails. -/
def Onboards : Label → Prop
  | .onboard _ _ _ fails => fails = none
  | .spawned _ fails => fails = none
  | .handled _ => True
  | _ => False

/-- The numbers the runs are called with. -/
def numbersOf (ls : List Label) : List String :=
  ls.filterMap fun l => match l with
    | .onboard _ payload _ _ => some payload.phoneNumberId
    | _ => none

/-- What the runs leave once all of them are over: each number has one tenant, up and announced
once, and no two slugs are the same. -/
structure Complete (numbers : List String) (w : World) : Prop where
  owner : ∀ n ∈ numbers, (w.repo.values.filter fun t => t.whatsappPhoneNumberId = some n).length = 1
  only : ∀ t ∈ w.repo.values, ∃ n ∈ numbers, t.whatsappPhoneNumberId = some n
  slugs : (w.repo.values.map Tenant.slug).Nodup
  up : ∀ t ∈ w.repo.values, t.status = .active ∧ t.id ∈ w.running
  announced : ∀ n ∈ numbers, (onboardedFor n w).length = 1

/-- The row and the number of a run that waits for the spawner. -/
def Flight.signup : Flight → Option (Tenant × String)
  | .onboarding held payload => some (held, payload.phoneNumberId)
  | _ => none

/-- A flight waits for the spawner with the row. -/
def Waits (s : System) (t : Tenant) : Prop :=
  ∃ i flight n, s.flights.get? i = some flight ∧ flight.signup = some (t, n)

/-- The tenant is up and its number announced. -/
def Done (w : World) (t : Tenant) (n : String) : Prop :=
  t.status = .active ∧ t.id ∈ w.running ∧ (onboardedFor n w).length = 1

/-- What holds while runs for these numbers are under way: each number has its tenant, and a tenant
that is not finished is the work of exactly one flight. -/
structure Busy (numbers : List String) (s : System) : Prop where
  /-- Nothing else is in flight. -/
  kinds : ∀ i op held, s.flights.get? i ≠ some (.lifecycle op held)
  unique : s.world.repo.Unique Tenant.whatsappPhoneNumberId
  owned : ∀ n ∈ numbers, ∃ k t, s.world.repo.get? k = some t ∧ t.whatsappPhoneNumberId = some n
  /-- A row belongs to a number, and its run is waiting or done. -/
  rows : ∀ k t, s.world.repo.get? k = some t → ∃ n ∈ numbers, t.whatsappPhoneNumberId = some n ∧
    (Waits s t ∨ Done s.world t n)
  /-- A run that waits holds the row that is there, and has announced nothing. -/
  flights : ∀ i flight t n, s.flights.get? i = some flight → flight.signup = some (t, n) →
    s.world.repo.get? t.id = some t ∧ t.whatsappPhoneNumberId = some n ∧
      onboardedFor n s.world = []
  /-- No two runs wait with one row. -/
  apart : s.flights.Unique fun flight => flight.signup.map fun p => p.1.id
  /-- A number nobody owns has not been announced. -/
  silent : ∀ n, s.world.repo.byPhoneNumberId n = none → onboardedFor n s.world = []

theorem Busy.init : Busy [] System.init where
  kinds _ _ _ h := by cases h
  unique _ _ _ _ _ h := by cases h
  owned _ h := by cases h
  rows _ _ h := by cases h
  flights _ _ _ _ h := by cases h
  apart _ _ _ _ _ h := by cases h
  silent _ _ := rfl

/-- With nothing in flight every row is done. -/
theorem Busy.complete {numbers : List String} {s : System} (h : Busy numbers s) (hinv : Inv s)
    (hidle : s.flights = Dict.empty) : Complete numbers s.world := by
  have hdone : ∀ k t, s.world.repo.get? k = some t → ∃ n ∈ numbers,
      t.whatsappPhoneNumberId = some n ∧ Done s.world t n := by
    intro k t ht
    obtain ⟨n, hn, hnumber, hwaits | hdone⟩ := h.rows k t ht
    · obtain ⟨i, flight, n', hi, -⟩ := hwaits
      rw [hidle] at hi
      cases hi
    · exact ⟨n, hn, hnumber, hdone⟩
  refine ⟨fun n hn => ?_, fun t ht => ?_, ?_, fun t ht => ?_, fun n hn => ?_⟩
  · obtain ⟨k, t, ht, hnumber⟩ := h.owned n hn
    refine Nat.le_antisymm (Dict.length_filter_values_le_one.mpr ?_) ?_
    · intro k k' a b ha hb pa pb
      exact h.unique k k' a b n ha hb (by simpa using pa) (by simpa using pb)
    · refine List.length_pos_of_mem (a := t) (List.mem_filter.mpr ⟨?_, by simpa using hnumber⟩)
      exact Dict.mem_values_iff.mpr ⟨k, ht⟩
  · obtain ⟨k, hk⟩ := Dict.mem_values_iff.mp ht
    obtain ⟨n, hn, hnumber, -⟩ := hdone k t hk
    exact ⟨n, hn, hnumber⟩
  · exact hinv.slugs.nodup_values
  · obtain ⟨k, hk⟩ := Dict.mem_values_iff.mp ht
    obtain ⟨n, -, -, hactive, hrunning, -⟩ := hdone k t hk
    exact ⟨hactive, hrunning⟩
  · obtain ⟨k, t, ht, hnumber⟩ := h.owned n hn
    obtain ⟨n', -, hnumber', -, -, hlen⟩ := hdone k t ht
    cases hnumber.symm.trans hnumber'
    exact hlen

/-! ## The steps -/

variable {U : Unicode} {numbers : List String} {s s' : System}

/-- What holds is about the table and the flights, not about `expected`. -/
theorem Busy.congr (h : Busy numbers s) (hworld : s'.world = s.world)
    (hflights : s'.flights = s.flights) : Busy numbers s' := by
  have hwaits : ∀ t, Waits s t → Waits s' t := by
    intro t
    rw [Waits, Waits, hflights]
    exact id
  refine ⟨?_, ?_, ?_, fun k t ht => ?_, ?_, ?_, ?_⟩
  · rw [hflights]
    exact h.kinds
  · rw [hworld]
    exact h.unique
  · rw [hworld]
    exact h.owned
  · rw [hworld] at ht ⊢
    obtain ⟨n, hn, hnumber, hstate⟩ := h.rows k t ht
    exact ⟨n, hn, hnumber, hstate.imp_left (hwaits t)⟩
  · rw [hworld, hflights]
    exact h.flights
  · rw [hflights]
    exact h.apart
  · rw [hworld]
    exact h.silent

/-- A run that finds its number owned adds nothing. -/
theorem Busy.replay (h : Busy numbers s) {n : String} {owner : Tenant}
    (howner : s.world.repo.byPhoneNumberId n = some owner) : Busy (numbers ++ [n]) s where
  kinds := h.kinds
  unique := h.unique
  owned m hm := by
    rcases List.mem_append.mp hm with hold | hnew
    · exact h.owned m hold
    · rw [List.mem_singleton.mp hnew]
      obtain ⟨k, hk⟩ := Dict.mem_values_iff.mp (List.mem_of_find?_eq_some howner)
      exact ⟨k, owner, hk, by simpa using List.find?_some howner⟩
  rows k t ht := by
    obtain ⟨m, hm, hrest⟩ := h.rows k t ht
    exact ⟨m, List.mem_append_left _ hm, hrest⟩
  flights := h.flights
  apart := h.apart
  silent := h.silent

/-- A run whose number is new makes its tenant and waits with it. -/
theorem Busy.begin_ (h : Busy numbers s) {i : Nat} {payload : MetaSignupPayload} {t : Tenant}
    (hi : s.flights.get? i = none) (hnew : s.world.repo.get? t.id = none)
    (hnumber : t.whatsappPhoneNumberId = some payload.phoneNumberId)
    (hunowned : s.world.repo.byPhoneNumberId payload.phoneNumberId = none)
    (hs' : s'.world = s.world.setRow t ∧ s'.flights = s.flights.set i (.onboarding t payload)) :
    Busy (numbers ++ [payload.phoneNumberId]) s' := by
  obtain ⟨hworld, hflights⟩ := hs'
  have hne : ∀ k row, s.world.repo.get? k = some row → t.id ≠ k := by
    rintro k row hrow rfl
    rw [hnew] at hrow
    cases hrow
  have hkeep : ∀ k row, s.world.repo.get? k = some row → s'.world.repo.get? k = some row := by
    intro k row hrow
    rw [hworld, World.setRow, Dict.get?_set_ne _ _ (hne k row hrow), hrow]
  have hhere : s'.world.repo.get? t.id = some t := by
    rw [hworld]
    exact Dict.get?_set_self _ _ _
  have hevents : ∀ n, onboardedFor n s'.world = onboardedFor n s.world := by
    intro n
    rw [hworld]
    rfl
  have hwaits : s'.flights.get? i = some (.onboarding t payload) := by
    rw [hflights, Dict.get?_set_self]
  have hstay : ∀ j flight, s.flights.get? j = some flight → s'.flights.get? j = some flight := by
    intro j flight hj
    have hij : i ≠ j := by
      rintro rfl
      rw [hi] at hj
      cases hj
    rw [hflights, Dict.get?_set_ne _ _ hij, hj]
  refine ⟨fun j op held hj => ?_, ?_, fun n hn => ?_, fun k row hrow => ?_,
    fun j flight held n hj hsignup => ?_, ?_, fun n hn => ?_⟩
  · rw [hflights] at hj
    rcases Dict.get?_set_eq_some hj with ⟨-, he⟩ | ⟨-, hold⟩
    · cases he
    · exact h.kinds j op held hold
  · rw [hworld]
    refine h.unique.set fun k row n hrow hn hn' => ?_
    cases hnumber.symm.trans hn'
    exact absurd hn (byPhoneNumberId_eq_none_iff.mp hunowned k row hrow)
  · rcases List.mem_append.mp hn with hold | hlast
    · obtain ⟨k, row, hrow, hn⟩ := h.owned n hold
      exact ⟨k, row, hkeep k row hrow, hn⟩
    · rw [List.mem_singleton.mp hlast]
      exact ⟨t.id, t, hhere, hnumber⟩
  · rw [hworld] at hrow
    rcases Dict.get?_set_eq_some hrow with ⟨-, rfl⟩ | ⟨-, hold⟩
    · exact ⟨payload.phoneNumberId, List.mem_append_right _ (List.mem_singleton_self _), hnumber,
        .inl ⟨i, _, _, hwaits, rfl⟩⟩
    · obtain ⟨n, hn, hrown, hstate⟩ := h.rows k row hold
      refine ⟨n, List.mem_append_left _ hn, hrown, ?_⟩
      rcases hstate with ⟨j, flight, m, hj, hsignup⟩ | ⟨hactive, hrunning, hlen⟩
      · exact .inl ⟨j, flight, m, hstay j flight hj, hsignup⟩
      · refine .inr ⟨hactive, ?_, by rw [hevents]; exact hlen⟩
        rw [hworld]
        exact hrunning
  · rw [hflights] at hj
    rcases Dict.get?_set_eq_some hj with ⟨-, rfl⟩ | ⟨-, hold⟩
    · cases hsignup
      exact ⟨hhere, hnumber, by rw [hevents]; exact h.silent _ hunowned⟩
    · obtain ⟨hrow, hn, hsilent⟩ := h.flights j flight held n hold hsignup
      exact ⟨hkeep _ _ hrow, hn, by rw [hevents]; exact hsilent⟩
  · rw [hflights]
    refine h.apart.set fun j flight id hj hid hid' => ?_
    cases hid'
    obtain ⟨⟨held, n⟩, hsignup, hheld⟩ := Option.map_eq_some_iff.mp hid
    exact absurd hheld.symm (hne _ _ (h.flights j flight held n hj hsignup).1)
  · rw [hevents]
    refine h.silent n (byPhoneNumberId_eq_none_iff.mpr fun k row hrow => ?_)
    exact byPhoneNumberId_eq_none_iff.mp hn k row (hkeep k row hrow)

/-- A run whose tenant is up writes it and announces it. -/
theorem Busy.finish (h : Busy numbers s) (hinv : Inv s) {i : Nat} {held : Tenant}
    {payload : MetaSignupPayload} (hi : s.flights.get? i = some (.onboarding held payload))
    (hs : resume s i none (.onboarding held payload) = some s') : Busy numbers s' := by
  obtain ⟨hrow, hnumber, hsilent⟩ := h.flights i _ held payload.phoneNumberId hi rfl
  let up := withStatus held .active
  have hfinish := finish_of_some hrow .bringUp (by decide : none ≠ some Stage.spawn) (by decide)
  simp only [resume, hfinish, Option.some.injEq] at hs
  have hrepo : s'.world.repo = s.world.repo.set up.id up := by rw [← hs]; rfl
  have hrunning : s'.world.running = s.world.running.insert held.id := by rw [← hs]; rfl
  have hevents : ∀ n, onboardedFor n s'.world = onboardedFor n s.world ++
      if payload.phoneNumberId = n then [onboardedEvent up payload] else [] := by
    intro n
    rw [← hs]
    exact onboardedFor_publish _ _ _ _
  have hflights : s'.flights = s.flights.set i (.publishing payload) := by rw [← hs]
  clear hs
  have hhere : s'.world.repo.get? held.id = some up := by
    rw [hrepo]
    exact Dict.get?_set_self _ _ _
  have hkeep : ∀ k row, held.id ≠ k → s.world.repo.get? k = some row →
      s'.world.repo.get? k = some row := by
    intro k row hne hk
    rw [hrepo]
    exact (Dict.get?_set_ne _ _ (show up.id ≠ k from hne)).trans hk
  -- a number of another row is another number, with the events it had
  have hother : ∀ k row n, held.id ≠ k → s.world.repo.get? k = some row →
      row.whatsappPhoneNumberId = some n → onboardedFor n s'.world = onboardedFor n s.world := by
    intro k row n hne hk hn
    have hnumbers : payload.phoneNumberId ≠ n := by
      rintro rfl
      exact hne (h.unique _ _ _ _ _ hrow hk hnumber hn)
    rw [hevents, if_neg hnumbers, List.append_nil]
  -- and its run, if it waits, is another run
  have hstay : ∀ j flight t n, held.id ≠ t.id → s.flights.get? j = some flight →
      flight.signup = some (t, n) → s'.flights.get? j = some flight := by
    intro j flight t n hne hj hsignup
    have hij : i ≠ j := by
      rintro rfl
      cases hi.symm.trans hj
      cases hsignup
      exact hne rfl
    rw [hflights, Dict.get?_set_ne _ _ hij, hj]
  refine ⟨fun j op row hj => ?_, ?_, fun n hn => ?_, fun k row hk => ?_,
    fun j flight t n hj hsignup => ?_, ?_, fun n hn => ?_⟩
  · rw [hflights] at hj
    rcases Dict.get?_set_eq_some hj with ⟨-, he⟩ | ⟨-, hold⟩
    · cases he
    · exact h.kinds j op row hold
  · rw [hrepo]
    refine h.unique.set fun k row n hk hn hn' => ?_
    exact h.unique held.id k held row n hrow hk hn' hn
  · obtain ⟨k, row, hk, hn⟩ := h.owned n hn
    by_cases hne : held.id = k
    · subst hne
      cases hrow.symm.trans hk
      exact ⟨held.id, up, hhere, hn⟩
    · exact ⟨k, row, hkeep k row hne hk, hn⟩
  · rw [hrepo] at hk
    rcases Dict.get?_set_eq_some hk with ⟨rfl, rfl⟩ | ⟨hne, hold⟩
    · obtain ⟨n, hn, hown, -⟩ := h.rows held.id held hrow
      cases hnumber.symm.trans hown
      refine ⟨payload.phoneNumberId, hn, hnumber, .inr ⟨rfl, ?_, ?_⟩⟩
      · rw [hrunning]
        exact List.mem_insert_self
      · rw [hevents, if_pos rfl, hsilent]
        rfl
    · obtain ⟨n, hn, hrown, hstate⟩ := h.rows k row hold
      refine ⟨n, hn, hrown, ?_⟩
      rcases hstate with ⟨j, flight, m, hj, hsignup⟩ | ⟨hactive, hup, hlen⟩
      · have hid : held.id ≠ row.id := by rwa [hinv.keyed k row hold]
        exact .inl ⟨j, flight, m, hstay j flight row m hid hj hsignup, hsignup⟩
      · refine .inr ⟨hactive, ?_, by rw [hother k row n hne hold hrown]; exact hlen⟩
        rw [hrunning]
        exact List.mem_insert_of_mem hup
  · rw [hflights] at hj
    rcases Dict.get?_set_eq_some hj with ⟨-, rfl⟩ | ⟨hij, hold⟩
    · cases hsignup
    · obtain ⟨hk, hn, hsilent'⟩ := h.flights j flight t n hold hsignup
      have hne : held.id ≠ t.id := by
        intro hid
        have hid' : (flight.signup.map fun p => p.1.id) = some t.id := by rw [hsignup]; rfl
        exact hij (h.apart i j _ _ t.id hi hold (congrArg some hid) hid')
      exact ⟨hkeep _ _ hne hk, hn, by rw [hother _ _ n hne hk hn]; exact hsilent'⟩
  · rw [hflights]
    exact h.apart.set fun _ _ _ _ _ hid => by cases hid
  · have hnot := byPhoneNumberId_eq_none_iff.mp hn
    have hnumbers : payload.phoneNumberId ≠ n := by
      rintro rfl
      exact hnot held.id up hhere hnumber
    rw [hevents, if_neg hnumbers, List.append_nil]
    refine h.silent n (byPhoneNumberId_eq_none_iff.mpr fun k row hk hrown => ?_)
    by_cases hne : held.id = k
    · subst hne
      cases hrow.symm.trans hk
      exact hnot held.id up hhere hrown
    · exact hnot k row (hkeep k row hne hk) hrown

/-- The end of a run that has announced its tenant. -/
theorem Busy.handled (h : Busy numbers s) {i : Nat} {payload : MetaSignupPayload}
    (hi : s.flights.get? i = some (.publishing payload)) :
    Busy numbers { s with flights := s.flights.erase i } where
  kinds j op held hj := h.kinds j op held (Dict.get?_erase_eq_some hj).2
  unique := h.unique
  owned := h.owned
  rows k t ht := by
    obtain ⟨n, hn, hnumber, hstate⟩ := h.rows k t ht
    refine ⟨n, hn, hnumber, hstate.imp_left ?_⟩
    rintro ⟨j, flight, m, hj, hsignup⟩
    have hij : i ≠ j := by
      rintro rfl
      cases hi.symm.trans hj
      cases hsignup
    refine ⟨j, flight, m, ?_, hsignup⟩
    rw [Dict.get?_erase, if_neg hij, hj]
  flights j flight t n hj hsignup := h.flights j flight t n (Dict.get?_erase_eq_some hj).2 hsignup
  apart := h.apart.erase i
  silent := h.silent

/-- One step of runs of which no stage fails. -/
theorem Busy.step (h : Busy numbers s) (hinv : Inv s) {l : Label} (hl : Onboards l)
    (hs : step U s l = some s') : Busy (numbers ++ numbersOf [l]) s' := by
  cases l with
  | request r => exact absurd hl id
  | lifecycle i op tenantId => exact absurd hl id
  | onboard i payload draw fails =>
    have hfails : fails = none := hl
    subst hfails
    simp only [Tenants.step] at hs
    split at hs
    next => cases hs
    next hfree =>
      rw [not_or, Option.not_isSome_iff_eq_none, Option.not_isSome_iff_eq_none] at hfree
      cases howner : s.world.repo.byPhoneNumberId payload.phoneNumberId with
      | some owner =>
        rw [begin_of_owned howner] at hs
        cases hs
        exact (h.replay howner).congr rfl rfl
      | none =>
        obtain ⟨slug, -, -, -, hspawning⟩ := begin_of_fresh payload draw howner U
        rw [hspawning none (by decide) (by decide)] at hs
        cases hs
        exact h.begin_ (t := signedUp draw payload slug) hfree.1 hfree.2 rfl howner ⟨rfl, rfl⟩
  | spawned i fails =>
    have hfails : fails = none := hl
    subst hfails
    rw [show numbersOf [.spawned i none] = [] from rfl, List.append_nil]
    simp only [Tenants.step] at hs
    split at hs
    next => cases hs
    next flight hi =>
      cases flight with
      | lifecycle op held => exact absurd hi (h.kinds i op held)
      | onboarding held payload => exact h.finish hinv hi hs
      | publishing payload => cases hs
  | handled i =>
    rw [show numbersOf [.handled i] = [] from rfl, List.append_nil]
    simp only [Tenants.step] at hs
    split at hs
    next payload hi =>
      cases hs
      exact h.handled hi
    next => cases hs

/-- A whole run. -/
theorem Busy.run : ∀ {ls : List Label} {numbers : List String} {s s' : System},
    Busy numbers s → Inv s → (∀ l ∈ ls, Onboards l) → Lib.run (Tenants.step U) s ls = some s' →
      Busy (numbers ++ numbersOf ls) s' ∧ Inv s'
  | [], numbers, s, s', h, hinv, _, hrun => by
    cases hrun
    rw [show numbersOf [] = [] from rfl, List.append_nil]
    exact ⟨h, hinv⟩
  | l :: ls, numbers, s, s', h, hinv, hls, hrun => by
    obtain ⟨t, ht, hrest⟩ := run_cons_eq_some.mp hrun
    obtain ⟨hl, hls⟩ := List.forall_mem_cons.mp hls
    have := Busy.run (h.step hinv hl ht) (hinv.step ht) hls hrest
    rwa [List.append_assoc, show numbersOf [l] ++ numbersOf ls = numbersOf (l :: ls) from
      (List.filterMap_append (l := [l])).symm] at this

/-- **Concurrent onboarding makes no duplicates.** Any number of runs, interleaved in any way at
their awaits, of which no stage fails: once all are over, each number they were called with has one
tenant, all slugs differ, every tenant is up, and each number has been announced once.

That all runs are over is a hypothesis: a spawner that never answers leaves its run waiting, and the
number with a tenant that is not up. -/
theorem onboarding_complete (U : Unicode) {ls : List Label} (hls : ∀ l ∈ ls, Onboards l)
    {s : System} (hrun : Lib.run (Tenants.step U) System.init ls = some s)
    (hidle : s.flights = Dict.empty) : Complete (numbersOf ls) s.world := by
  obtain ⟨hbusy, hinv⟩ := Busy.init.run Inv.init hls hrun
  exact hbusy.complete hinv hidle

/-- Three runs, two of them with one number and two with names that give one slug. -/
def sideBySide : List Label :=
  [.onboard 0 ⟨"111", "Acme", none, none⟩ ⟨"t1", 0⟩ none,
    .onboard 1 ⟨"222", "ACME!", none, none⟩ ⟨"t2", 1⟩ none,
    .onboard 2 ⟨"111", "Acme", none, none⟩ ⟨"t3", 2⟩ none,
    .spawned 1 none, .spawned 0 none, .handled 0, .handled 1]

theorem onboarding_complete_sideBySide : ∃ s,
    Lib.run (step Unicode.ascii) System.init sideBySide = some s ∧
      Complete ["111", "222", "111"] s.world := by
  have hrun : ((Lib.run (step Unicode.ascii) System.init sideBySide).map fun s =>
      s.flights.entries.length) = some 0 := by decide +kernel
  obtain ⟨s, hs, hlen⟩ := Option.map_eq_some_iff.mp hrun
  have honboards : ∀ l ∈ sideBySide, Onboards l := by simp [sideBySide, Onboards]
  refine ⟨s, hs, onboarding_complete Unicode.ascii honboards hs ?_⟩
  exact Dict.ext (List.eq_nil_of_length_eq_zero hlen)

end Wapsell.Tenants
