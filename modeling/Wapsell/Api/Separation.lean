import Wapsell.Api.TenantWrites

/-!
# The tenants are served as if each were alone

The users of many tenants on one API, over whole runs: the answers that one
tenant's users get, and what is left of its part of the stores, are what
they would be if nobody else had called. The steps are those of the two
modules before; here they are the unwinding conditions of
`Lib.Separability`, and the run follows by induction.

**What this does not establish.** Nothing of a caller who is an admin, of a
slug with a colon, or of a skill called for another tenant: each is a way
for one tenant's call to show in another's answers, and the first is meant.
The requests are the routes of `Call`, over the in-memory adapters, one
after the other; what two requests do in between each other's awaits is
the matter of the turns.
-/

namespace Wapsell.Api.Routes

open Lib Py Agent Ingestion Inbox Memory Resources Skills

/-! ## Whole runs -/

/-- The stores are as the repositories leave them; the calls to come are allowed, and the ids they
draw are new. -/
structure Admits (U : Unicode) (s : Served) (actions : List Asked) : Prop where
  rows : RowIds s.data.resources
  log : Recorded s.queryLog
  allowed : ∀ a ∈ actions, a.Allowed U
  drawn : (actions.filterMap Asked.drawn?).Nodup
  unused : ∀ id ∈ actions.filterMap Asked.drawn?, s.data.resources.get id = none

/-- Asked by a user of the tenant. -/
def Asked.isOf (T : Tenant) (a : Asked) : Bool := decide (a.tenantId? = some T.id)

section Runs

variable {U : Unicode} {S : Server} {T : Tenant} {s t : Served} {a : Asked} {rest : List Asked}

theorem Admits.unused_head (h : Admits U s (a :: rest)) (id : String) (hid : a.drawn? = some id) :
    s.data.resources.get id = none :=
  h.unused id (List.mem_filterMap.mpr ⟨a, List.mem_cons_self, hid⟩)

theorem Admits.writes_for (h : Admits U s (a :: rest)) (hauth : S.authRequired = true)
    (hS : S.TellsTenants) :
    a.WritesOwn S s (writes U S s a.caller a.now a.call) :=
  Routes.writes_for (h.allowed a List.mem_cons_self) hauth hS h.rows h.unused_head

theorem rowIds_applyAll {maxItems : Nat} : ∀ (ws : List Write) {s : Served},
    RowIds s.data.resources → RowIds (ws.foldl (Served.apply maxItems) s).data.resources
  | [], _, h => h
  | w :: ws, _, h => rowIds_applyAll ws (rowIds_apply h w)

theorem recorded_applyAll {maxItems : Nat} : ∀ (ws : List Write) {s : Served},
    Recorded s.queryLog → Recorded (ws.foldl (Served.apply maxItems) s).queryLog
  | [], _, h => h
  | w :: ws, _, h => recorded_applyAll ws (recorded_apply h w)

/-- After a call the rest is admitted. -/
theorem Admits.next (h : Admits U s (a :: rest)) (hauth : S.authRequired = true)
    (hS : S.TellsTenants) : Admits U ((machine U S).next s a) rest where
  rows := rowIds_applyAll _ h.rows
  log := recorded_applyAll _ h.log
  allowed b hb := h.allowed b (List.mem_cons_of_mem a hb)
  drawn := h.drawn.sublist ((List.sublist_cons_self a rest).filterMap _)
  unused id hid := by
    have hdrawn : a.drawn? ≠ some id := by
      intro hid'
      have hnodup := h.drawn
      rw [List.filterMap_cons_some hid'] at hnodup
      exact (List.nodup_cons.mp hnodup).1 hid
    obtain ⟨b, hb, hid⟩ := List.mem_filterMap.mp hid
    have hnone := h.unused id (List.mem_filterMap.mpr ⟨b, List.mem_cons_of_mem a hb, hid⟩)
    have hwrites : Along (fun s w => ∃ tenantId, w.For S a.drawn? tenantId s) S.maxItems s
        (writes U S s a.caller a.now a.call) := by
      refine (h.writes_for hauth hS).mono ?_
      rintro s w ⟨tenantId, -, hw⟩
      exact ⟨tenantId, hw⟩
    exact unused_applyAll hdrawn h.rows hnone hwrites

/-- The conditions on one step. -/
theorem unwinds (U : Unicode) (hauth : S.authRequired = true) (hS : S.TellsTenants)
    (hT : T ∈ S.tenants.values) : (machine U S).Unwinds (Asked.isOf T) (Admits U) (SameTo T) where
  admits h := h.next hauth hS
  answers := by
    intro s t a rest rest' hof hs ht h
    exact h.answer (hs.allowed a List.mem_cons_self) hauth hS hT (of_decide_eq_true hof) hs.log ht.log
  own := by
    intro s t a rest rest' hof hs ht h
    have hid : a.tenantId? = some T.id := of_decide_eq_true hof
    have hsame := h.writes (hs.allowed a List.mem_cons_self) hauth hS hT hid hs.log ht.log
    have hwithin : ∀ {s rest}, Admits U s (a :: rest) → Along (fun s w => w.Within T s) S.maxItems s
        (writes U S s a.caller a.now a.call) := by
      intro s rest hs
      refine (hs.writes_for hauth hS).mono ?_
      rintro s w ⟨id, hid', hw⟩
      rw [hid] at hid'
      cases hid'
      exact hw.within hS hT
    have hwithin' := hwithin ht
    rw [← hsame] at hwithin'
    show SameTo T ((writes U S s a.caller a.now a.call).foldl _ s)
      ((writes U S t a.caller a.now a.call).foldl _ t)
    rw [← hsame]
    exact h.applyAll hs.rows ht.rows (hwithin hs) hwithin'
  other := by
    intro s t a rest hnot hs h
    have hid : a.tenantId? ≠ some T.id := of_decide_eq_false hnot
    refine (sameTo_applyAll hs.rows ((hs.writes_for hauth hS).mono ?_)).trans h
    rintro s w ⟨id, hid', hw⟩
    refine hw.beside hS hT ?_
    rintro rfl
    exact hid hid'

/-- **Each tenant is served as if it were alone.** With access control, in any run of calls of no
admin in which skills that read a store are called for the caller's tenant, the users of a tenant get
the answers they would get from the same stores, or from any that hold the same of the tenant, if
nobody else called; and they leave the same of it. -/
theorem served_alone (U : Unicode) (hauth : S.authRequired = true) (hS : S.TellsTenants)
    (hT : T ∈ S.tenants.values) {actions : List Asked} (hs : Admits U s actions)
    (ht : Admits U t (actions.filter (Asked.isOf T))) (hsame : SameTo T s t) :
    (machine U S).answersTo (Asked.isOf T) s actions =
        (machine U S).answersTo (Asked.isOf T) t (actions.filter (Asked.isOf T)) ∧
      SameTo T ((machine U S).after s actions)
        ((machine U S).after t (actions.filter (Asked.isOf T))) :=
  (unwinds U hauth hS hT).alone hsame hs ht

end Runs

/-! ## Two shops on one server -/

/-- A user of the boutique. -/
def tailor : User where
  id := "u2"
  email := "tailor"
  passwordHash := ""
  tenantId := some "t2"
  createdAt := 0

/-- The server of both. -/
def market : Server where
  authRequired := true
  tenants := shops.tenants
  storeless := shops.storeless
  maxItems := 50

/-- The bazaar adds a row, the boutique answers a buyer, and the bazaar looks at its rows. -/
def marketDay : List Asked :=
  [⟨some clerk, 1, .createResource "t1" { summary := "teapot" } "r1"⟩,
    ⟨some tailor, 2, .sendHumanMessage "t2" "boutique:1" { text := "hola" } (.ok none)⟩,
    ⟨some clerk, 3, .reads (.listResources "t1" none 10) trivial⟩]

theorem market_tellsTenants : market.TellsTenants where
  keyed id tenant h := by
    rcases Dict.get?_set_eq_some h with ⟨rfl, rfl⟩ | ⟨-, h⟩
    · rfl
    rcases Dict.get?_set_eq_some h with ⟨rfl, rfl⟩ | ⟨-, h⟩
    · rfl
    · cases h
  slugs := by decide
  colonless := by decide

theorem served_alone_market :
    (machine Unicode.ascii market).answersTo (Asked.isOf bazaar) {} marketDay =
      (machine Unicode.ascii market).answersTo (Asked.isOf bazaar) {}
        (marketDay.filter (Asked.isOf bazaar)) := by
  have hallowed : ∀ a ∈ marketDay, a.Allowed Unicode.ascii := by
    intro a ha
    rw [marketDay, List.mem_cons, List.mem_cons, List.mem_singleton] at ha
    rcases ha with rfl | rfl | rfl
    all_goals
      refine ⟨?_, nofun⟩
      rintro u ⟨⟩
      exact UserRole.noConfusion
  have hrows : RowIds ({} : Served).data.resources := fun _ _ h => by cases h
  have hday : Admits Unicode.ascii {} marketDay :=
    ⟨hrows, .empty, hallowed, by decide, fun _ _ => rfl⟩
  have hbazaar : Admits Unicode.ascii {} (marketDay.filter (Asked.isOf bazaar)) :=
    ⟨hrows, .empty, fun a ha => hallowed a (List.mem_of_mem_filter ha), by decide, fun _ _ => rfl⟩
  exact (served_alone Unicode.ascii rfl market_tellsTenants (by decide) hday hbazaar
    (.refl bazaar {})).1

end Wapsell.Api.Routes
