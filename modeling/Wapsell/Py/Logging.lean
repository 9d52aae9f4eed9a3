import Wapsell.Lib.Dict
import Wapsell.Py.Text

/-!
# The logger hierarchy

The part of the standard `logging` package that decides which handler gets
which record: the filters of a logger run where a record is handed to that
logger, and the record then goes to the handlers of the logger and of its
ancestors, whose own filters are not asked. Formatting a message calls the
arguments' own code, so `%` is a parameter.

The split matters to whoever wants a record changed before it is written
anywhere. A filter on a logger sees the records logged through that
logger; a record of a child goes to the parent's handlers and past the
parent's filters. So a filter on the root logger covers the root's own
records, and no theorem about the filter alone shows more than that.

**What this does not establish.** Handlers with filters of their own,
`LoggerAdapter`, and what a handler does with the record are left out;
and the hierarchy is that of the names, not of the order in which the
loggers were made.
-/

namespace Py.Logging

open Lib

/-- A record: `args` is `none` for the empty tuple. -/
structure LogRecord (α : Type*) where
  levelno : Int
  msg : String
  args : Option α := none
  deriving DecidableEq, Repr

/-- `getMessage`. -/
def LogRecord.getMessage {α : Type*} (percent : String → α → String) (record : LogRecord α) :
    String :=
  match record.args with
  | none => record.msg
  | some args => percent record.msg args

/-- A handler: its identity and its level. -/
structure Handler where
  name : String
  level : Int := 0
  deriving DecidableEq, Repr

/-- A filter of a logger: the record as it leaves it, `none` when it drops it. -/
abbrev Filter (α : Type*) := LogRecord α → Option (LogRecord α)

/-- A logger as it is created. -/
structure Logger (α : Type*) where
  level : Int := 0
  propagate : Bool := true
  disabled : Bool := false
  filters : List (Filter α) := []
  handlers : List Handler := []

/-- `Filterer.filter`: the filters in order, each on what the one before left. -/
def applyFilters {α : Type*} (filters : List (Filter α)) (record : LogRecord α) :
    Option (LogRecord α) :=
  filters.foldlM (fun r f => f r) record

/-- `getLogger(name)` is the root logger. -/
def isRootName (name : String) : Bool := name = "" || name = "root"

/-- All loggers, and `Manager.disable`. No other logger answers to a name of the root. A logger that
was never asked for has the settings it would be created with, so a name may be looked up whether it
is there or not. -/
structure Hierarchy (α : Type*) where
  root : Logger α
  loggers : Dict String (Logger α) := Dict.empty
  disable : Int := 0
  named : ∀ name, isRootName name = true → loggers.get? name = none := by exact fun _ _ => rfl

/-- A handler gets a record from a logger it is attached to. -/
structure Delivery (α : Type*) where
  logger : String
  handler : Handler
  record : LogRecord α
  deriving DecidableEq, Repr

/-- The dotted prefixes `_fixupParents` tries, the nearest first: it looks for the last dot before
index `n`, and then leaves out the character before the dot. -/
def dotPrefixes (name : List Char) : Nat → List String
  | 0 | 1 => []
  | n + 2 =>
    if name[n + 1]? = some '.' then String.ofList (name.take (n + 1)) :: dotPrefixes name n
    else dotPrefixes name (n + 1)

namespace Hierarchy

variable {α : Type*} (H : Hierarchy α)

/-- `getLogger`, and what is done to the logger it answers. -/
def update (name : String) (f : Logger α → Logger α) : Hierarchy α :=
  if h : isRootName name = true then { H with root := f H.root }
  else { H with
    loggers := H.loggers.set name (f (H.loggers.getD name {}))
    named := fun other ho => by
      have hne : name ≠ other := fun he => h (by rw [he]; exact ho)
      rw [Dict.get?_set_ne _ _ hne]
      exact H.named other ho }

/-- The logger of a name and its ancestors below the root: the parent of a logger is the nearest
one up its name, as `_fixupParents` walks it.

The whole chain is read off the one name, where CPython goes on from the parent's own name. The two
differ only when the name of a logger on the way ends in a dot: with the loggers `a.` and `a`, a
record of `a..b` reaches `a` through `a.` in CPython, and here it stops at `a.`. -/
def below (name : String) : List (String × Logger α) :=
  if isRootName name then []
  else (name, H.loggers.getD name {}) ::
    (dotPrefixes name.toList name.length).filterMap fun ancestor =>
      (H.loggers.get? ancestor).map (ancestor, ·)

/-- The logger of a name and its ancestors. -/
def path (name : String) : List (String × Logger α) := H.below name ++ [("root", H.root)]

/-- The logger `getLogger` answers. -/
def getLogger (name : String) : Logger α :=
  if isRootName name then H.root else H.loggers.getD name {}

/-- `getEffectiveLevel`: the first level that is set on the way up. -/
def getEffectiveLevel (name : String) : Int :=
  (((H.path name).map fun l => l.2.level).find? (· ≠ 0)).getD 0

/-- `isEnabledFor`. -/
def isEnabledFor (name : String) (level : Int) : Bool :=
  !(H.getLogger name).disabled && H.disable < level && H.getEffectiveLevel name ≤ level

/-- `callHandlers`: up the hierarchy as long as the loggers propagate. Neither the filters nor the
levels of the ancestors are asked, only the levels of their handlers. -/
def callHandlers {α : Type*} (record : LogRecord α) : List (String × Logger α) → List (Delivery α)
  | [] => []
  | (name, c) :: up =>
    ((c.handlers.filter fun h => h.level ≤ record.levelno).map fun h => ⟨name, h, record⟩) ++
      if c.propagate then callHandlers record up else []

/-- `handle`: the logger's own filters, then the handlers. -/
def handle (name : String) (record : LogRecord α) : List (Delivery α) :=
  if (H.getLogger name).disabled then []
  else match applyFilters (H.getLogger name).filters record with
    | some record => callHandlers record (H.path name)
    | none => []

/-- A logging call. -/
def log (name : String) (record : LogRecord α) : List (Delivery α) :=
  if H.isEnabledFor name record.levelno then H.handle name record else []

/-- The record goes from its logger to a handler of the root: the logger lets it through, every
logger on the way propagates, and a handler of the root takes records of its level. -/
def Propagates (name : String) (record : LogRecord α) : Bool :=
  H.isEnabledFor name record.levelno && ((H.below name).all fun l => l.2.propagate) &&
    H.root.handlers.any fun h => h.level ≤ record.levelno

variable {H}

/-- A name below the root is none of the root's. -/
theorem name_of_mem_below {name : String} {l : String × Logger α} (h : l ∈ H.below name) :
    l.1 ≠ "root" := by
  unfold below at h
  split at h
  · cases h
  next hname =>
    rcases List.mem_cons.mp h with rfl | hup
    · intro hroot
      rw [show name = "root" from hroot] at hname
      exact hname rfl
    · obtain ⟨ancestor, -, hget⟩ := List.mem_filterMap.mp hup
      obtain ⟨logger, hlogger, rfl⟩ := Option.map_eq_some_iff.mp hget
      intro hroot
      rw [H.named ancestor (by rw [show ancestor = "root" from hroot]; rfl)] at hlogger
      cases hlogger

/-- The handlers of the root get the record as it is, when everything below propagates. -/
theorem mem_callHandlers_root (record : LogRecord α) (root : Logger α) (d : Delivery α) :
    ∀ {up : List (String × Logger α)}, (∀ l ∈ up, l.1 ≠ "root") →
      (d ∈ callHandlers record (up ++ [("root", root)]) ∧ d.logger = "root" ↔
        (up.all fun l => l.2.propagate) = true ∧
          ∃ h ∈ root.handlers, h.level ≤ record.levelno ∧ d = ⟨"root", h, record⟩)
  | [], _ => by
    simp only [List.nil_append, callHandlers, ite_self, List.append_nil, List.mem_map,
      List.mem_filter, decide_eq_true_eq, List.all_nil, true_and]
    constructor
    · rintro ⟨⟨h, ⟨hmem, hlevel⟩, rfl⟩, -⟩
      exact ⟨h, hmem, hlevel, rfl⟩
    · rintro ⟨h, hmem, hlevel, rfl⟩
      exact ⟨⟨h, ⟨hmem, hlevel⟩, rfl⟩, rfl⟩
  | (name, c) :: up, hup => by
    have ih := mem_callHandlers_root record root d fun l hl => hup l (List.mem_cons_of_mem _ hl)
    have hname : name ≠ "root" := hup (name, c) List.mem_cons_self
    rw [List.cons_append, callHandlers, List.mem_append, List.all_cons, Bool.and_eq_true, and_assoc,
      ← ih]
    constructor
    · rintro ⟨hown | hup, hroot⟩
      · obtain ⟨h, -, rfl⟩ := List.mem_map.mp hown
        exact absurd hroot hname
      · cases hprop : c.propagate with
        | true => exact ⟨rfl, by rwa [hprop, if_pos rfl] at hup, hroot⟩
        | false => simp [hprop] at hup
    · rintro ⟨hprop, hmem, hroot⟩
      exact ⟨.inr (by rwa [if_pos hprop]), hroot⟩

end Hierarchy

end Py.Logging
