import Wapsell.Lib.Dict
import Wapsell.Py.Datetime

/-!
# Bot pauses

`InMemoryBotPauseRepository` of `sdk/wapsell/inbox/repository.py`: one
row for each (tenant, buyer), last write wins.

A pause that has run out stays in the dictionary and is not active any
more; `resume` takes a row out. The clock is an argument of the calls
that read it.

The lemmas at the end are what the webhook's proofs use: which calls can
make a pair paused, and that time alone cannot.
-/

namespace Wapsell.Inbox

open Lib Py

/-- One paused (tenant, buyer) pair. -/
structure BotPause where
  tenantId : String
  buyerId : String
  pausedUntil : Datetime
  deriving DecidableEq, Repr

/-- `_by_key`. -/
abbrev Pauses := Dict (String × String) BotPause

namespace Pauses

/-- `is_paused`.

The deadline itself is not paused any more. -/
def isPaused (pauses : Pauses) (tenantId buyerId : String) (now : Datetime) : Bool :=
  match pauses.get? (tenantId, buyerId) with
  | none => false
  | some pause => decide (now < pause.pausedUntil)

/-- `pause`. -/
def pause (pauses : Pauses) (tenantId buyerId : String) (until_ : Datetime) : Pauses :=
  pauses.set (tenantId, buyerId) { tenantId, buyerId, pausedUntil := until_ }

/-- `resume`. -/
def resume (pauses : Pauses) (tenantId buyerId : String) : Pauses :=
  pauses.erase (tenantId, buyerId)

/-- `get`. -/
def get (pauses : Pauses) (tenantId buyerId : String) : Option BotPause :=
  pauses.get? (tenantId, buyerId)

/-- `list_active`.

It answers in the order of the dictionary; the table orders its answer by the deadline. -/
def listActive (pauses : Pauses) (tenantId : String) (now : Datetime) : List BotPause :=
  (pauses.entries.filter fun e => e.1.1 = tenantId ∧ now < e.2.pausedUntil).map Prod.snd

/-- A pair is not paused when its row, if it has one, is over. -/
theorem isPaused_eq_false_iff {pauses : Pauses} {t b : String} {now : Datetime} :
    pauses.isPaused t b now = false ↔
      ∀ pause, pauses.get? (t, b) = some pause → pause.pausedUntil ≤ now := by
  unfold isPaused
  cases pauses.get? (t, b) with
  | none => simp
  | some pause => simp

/-- A pause of one pair is no pause of another. -/
theorem isPaused_pause_ne {pauses : Pauses} {tenantId buyerId t b : String}
    (h : (tenantId, buyerId) ≠ (t, b)) (until_ now : Datetime) :
    (pauses.pause tenantId buyerId until_).isPaused t b now = pauses.isPaused t b now := by
  unfold isPaused pause
  rw [Dict.get?_set_ne _ _ h]

/-- Resuming pauses nobody. -/
theorem isPaused_resume {pauses : Pauses} {t b : String} {now : Datetime} (tenantId buyerId : String)
    (h : pauses.isPaused t b now = false) :
    (pauses.resume tenantId buyerId).isPaused t b now = false := by
  rw [isPaused_eq_false_iff] at h ⊢
  intro pause hp
  exact h pause (Dict.get?_erase_eq_some hp).2

/-- A pause that is over stays over. -/
theorem isPaused_mono {pauses : Pauses} {t b : String} {now later : Datetime} (hle : now ≤ later)
    (h : pauses.isPaused t b now = false) : pauses.isPaused t b later = false := by
  rw [isPaused_eq_false_iff] at h ⊢
  exact fun pause hp => (h pause hp).trans hle

end Pauses

end Wapsell.Inbox
