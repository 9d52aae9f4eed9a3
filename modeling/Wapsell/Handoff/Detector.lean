import Wapsell.Models

/-!
# The handoff detector

`sdk/wapsell/handoff/detector.py`: substring match of the configured
keywords on a lower-cased copy of the message without diacritics.

A keyword that is nothing but spaces or accents leaves nothing, and is
passed over: it would be found in every message.

The match is on characters and not on words, so a keyword is found
inside of a longer word too. What is proved is which spellings of a
keyword are found, given what the Unicode tables say of its letters.
-/

namespace Wapsell.Handoff

open Py

/-- Result of one evaluation.

The keyword is answered as the tenant configured it, not as it was compared. -/
structure HandoffDecision where
  escalate : Bool
  matchedKeyword : Option String := none
  deriving DecidableEq, Repr

/-- `HandoffDecision.skip()`. -/
def skip : HandoffDecision := { escalate := false }

/-- `_normalize`: lower-case, no diacritics, trimmed. The diacritics are the characters of category
`Mn` in the decomposed text.

A mark goes, its base letter stays. Trimming comes last, so what remains of a text of marks and
blanks is empty. -/
def normalize (U : Unicode) (text : String) : String :=
  let decomposed := if isAscii text then text else U.nfd text
  let stripped := String.ofList (decomposed.toList.filter fun ch => 128 > ch.toNat || !U.isMn ch)
  strip (lower U stripped)

/-- `HandoffDetector.evaluate`: the first keyword that occurs.

The order of the keywords decides which is named, not whether one is found. -/
def evaluate (U : Unicode) (message : String) : Option HandoffConfig → HandoffDecision
  | none => skip
  | some config =>
    if !config.enabled then skip
    else
      let normalized := normalize U message
      match config.keywords.find? fun keyword =>
          let needle := normalize U keyword
          needle ≠ "" && isSubstring needle normalized with
      | some keyword => { escalate := true, matchedKeyword := some keyword }
      | none => skip

/-- Escalation needs a configuration. -/
theorem config_of_escalate {U : Unicode} {message : String} {config : Option HandoffConfig}
    (h : (evaluate U message config).escalate = true) : ∃ c, config = some c := by
  cases config with
  | none => cases h
  | some c => exact ⟨c, rfl⟩

end Wapsell.Handoff
