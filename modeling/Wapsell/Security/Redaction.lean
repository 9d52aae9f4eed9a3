import Wapsell.Security.LogFilter

/-!
# Which records the root's filter sees

The redacting filter hangs on the root logger, and a logger asks only its
own filters. So a record that a module's logger emits reaches the handlers
of the root as it was, and the filter redacts what is logged on the root
logger itself.

The comments beside the filter and in the application say that it covers
every logger that is created later, and the logging module says
otherwise: a record that propagates is handed to the handlers of the
loggers above, past their filters. The condition names the three ways in
which no harm is done.

What this does not establish: that a handler hides a secret. A filter on
the handlers would, and there is none.
-/

namespace Wapsell.Security

open Lib Py Logging

section Hierarchy

variable {α : Type} {percent : String → α → String} {U : Unicode} {H : Hierarchy α}

/-- No logger has a filter: the process before `install_redaction`. -/
structure Unfiltered (H : Hierarchy α) : Prop where
  root : H.root.filters = []
  loggers : ∀ name l, H.loggers.get? name = some l → l.filters = []

/-- What the root's handlers get of a record logged after `install_redaction` is the redacted
message. -/
def RedactedAtRoot (percent : String → α → String) (U : Unicode) (H : Hierarchy α) (name : String)
    (record : LogRecord α) : Prop :=
  ∀ d ∈ (installRedaction percent U H).log name record, d.logger = "root" →
    d.record.getMessage percent = redact U (record.getMessage percent)

/-- The logger a name answers has no filter. -/
theorem Unfiltered.getLogger (h : Unfiltered H) (name : String) :
    (H.getLogger name).filters = [] := by
  unfold Hierarchy.getLogger
  split
  · exact h.root
  · unfold Dict.getD
    cases hget : H.loggers.get? name with
    | none => rfl
    | some l => exact h.loggers name l hget

/-- `install_redaction()` adds a filter to the root. -/
theorem installRedaction_eq :
    installRedaction percent U H = { H with
      root := { H.root with filters := H.root.filters ++ [redactingFilter percent U] } } := rfl

theorem isEnabledFor_installRedaction (percent : String → α → String) (U : Unicode)
    (name : String) (level : Int) :
    (installRedaction percent U H).isEnabledFor name level = H.isEnabledFor name level := by
  have hlogger : ((installRedaction percent U H).getLogger name).disabled =
      (H.getLogger name).disabled := by
    rw [installRedaction_eq]
    unfold Hierarchy.getLogger
    split <;> rfl
  have hlevel : (installRedaction percent U H).getEffectiveLevel name =
      H.getEffectiveLevel name := by
    simp only [Hierarchy.getEffectiveLevel, Hierarchy.path, List.map_append]
    rfl
  unfold Hierarchy.isEnabledFor
  rw [hlogger, hlevel]
  rfl

/-- The record as its own logger's filters leave it: redacted on the root, and as it was on any
other. -/
def filtered (percent : String → α → String) (U : Unicode) (name : String) (record : LogRecord α) :
    LogRecord α :=
  if isRootName name then { record with msg := redact U (record.getMessage percent), args := none }
  else record

theorem applyFilters_installRedaction (h : Unfiltered H) (name : String) (record : LogRecord α) :
    applyFilters ((installRedaction percent U H).getLogger name).filters record =
      some (filtered percent U name record) := by
  have hbare := h.getLogger name
  rw [installRedaction_eq]
  unfold Hierarchy.getLogger filtered at *
  split
  next hroot =>
    rw [if_pos hroot] at hbare
    rw [hbare]
    rfl
  next hother =>
    rw [if_neg hother] at hbare
    rw [hbare]
    rfl

/-- What a logging call delivers at the root: the record its own logger's filters leave, to the
handlers whose level it has, if it propagates. -/
theorem mem_log_root (percent : String → α → String) (U : Unicode) (h : Unfiltered H)
    {name : String} {record : LogRecord α} {d : Delivery α} :
    d ∈ (installRedaction percent U H).log name record ∧ d.logger = "root" ↔
      H.isEnabledFor name record.levelno = true ∧
        ((H.below name).all fun l => l.2.propagate) = true ∧
          ∃ handler ∈ H.root.handlers, handler.level ≤ record.levelno ∧
            d = ⟨"root", handler, filtered percent U name record⟩ := by
  have hlevelno : (filtered percent U name record).levelno = record.levelno := by
    unfold filtered
    split <;> rfl
  unfold Hierarchy.log
  rw [isEnabledFor_installRedaction]
  cases henabled : H.isEnabledFor name record.levelno with
  | false => simp
  | true =>
    have hdisabled : ((installRedaction percent U H).getLogger name).disabled = false := by
      have hon := henabled
      rw [← isEnabledFor_installRedaction percent U, Hierarchy.isEnabledFor,
        Bool.and_eq_true, Bool.and_eq_true, Bool.not_eq_true'] at hon
      exact hon.1.1
    rw [if_pos rfl, Hierarchy.handle, hdisabled, applyFilters_installRedaction h]
    have hbelow : ∀ l ∈ H.below name, l.1 ≠ "root" := fun l => Hierarchy.name_of_mem_below
    have hroot := Hierarchy.mem_callHandlers_root (filtered percent U name record)
      (installRedaction percent U H).root d hbelow
    rw [hlevelno] at hroot
    simp only [true_and]
    exact hroot

end Hierarchy

/-- **Redaction covers the root logger.** In a process without other filters, the handlers of the
root get the redacted message of a record exactly when it is logged on the root logger itself, when
there is nothing to redact in it, or when it does not propagate to them.

The hierarchy is any one: any loggers, levels and handlers, so long as no other filter hangs on a
logger before. -/
theorem redacted_at_root_iff {α : Type} (percent : String → α → String) (U : Unicode)
    (H : Hierarchy α) (hbare : Unfiltered H) (name : String) (record : LogRecord α) :
    RedactedAtRoot percent U H name record ↔
      isRootName name = true ∨ redact U (record.getMessage percent) = record.getMessage percent ∨
        H.Propagates name record = false := by
  constructor
  · intro hred
    by_cases hroot : isRootName name = true
    · exact .inl hroot
    refine .inr ?_
    cases hprop : H.Propagates name record with
    | false => exact .inr rfl
    | true =>
      simp only [Hierarchy.Propagates, Bool.and_eq_true, List.any_eq_true,
        decide_eq_true_eq] at hprop
      obtain ⟨⟨henabled, hup⟩, handler, hmem, hlevel⟩ := hprop
      obtain ⟨hd, hlogger⟩ := (mem_log_root percent U hbare).mpr
        ⟨henabled, hup, handler, hmem, hlevel, rfl⟩
      have hmsg := hred _ hd hlogger
      rw [filtered, if_neg hroot] at hmsg
      exact .inl hmsg.symm
  · intro hor d hd hlogger
    obtain ⟨henabled, hup, handler, hmem, hlevel, rfl⟩ :=
      (mem_log_root percent U hbare).mp ⟨hd, hlogger⟩
    unfold filtered
    split
    · rfl
    next hroot =>
      rcases hor with hroot' | hsame | hprop
      · exact absurd hroot' hroot
      · exact hsame.symm
      · have htrue : H.Propagates name record = true := by
          simp only [Hierarchy.Propagates, Bool.and_eq_true, List.any_eq_true, decide_eq_true_eq]
          exact ⟨⟨henabled, hup⟩, handler, hmem, hlevel⟩
        rw [hprop] at htrue
        cases htrue

section Webhook

/-- The root logger with its level and one handler. -/
private def stderrOnly : Hierarchy Unit where
  root := { level := 30, handlers := [{ name := "stderr" }] }

private theorem stderrOnly_unfiltered : Unfiltered stderrOnly where
  root := rfl
  loggers _ _ h := by cases h

private def leak : LogRecord Unit where
  levelno := 30
  msg := "META_APP_SECRET=hunter2"

/-- A secret logged on the root logger is masked. -/
theorem redacted_at_root_iff_root :
    RedactedAtRoot (fun msg _ => msg) Unicode.ascii stderrOnly "root" leak :=
  (redacted_at_root_iff _ Unicode.ascii stderrOnly stderrOnly_unfiltered "root" leak).mpr (.inl rfl)

/-- The same secret logged by the webhook's logger is not. -/
theorem not_redacted_at_root : ¬ ∀ (α : Type) (percent : String → α → String) (U : Unicode)
    (H : Hierarchy α), Unfiltered H → ∀ name record, RedactedAtRoot percent U H name record := by
  intro h
  have hred := h Unit (fun msg _ => msg) Unicode.ascii stderrOnly stderrOnly_unfiltered
    "wapsell.webhook" leak
  have hmem : ⟨"root", { name := "stderr" }, leak⟩ ∈
      (installRedaction (fun msg _ => msg) Unicode.ascii stderrOnly).log "wapsell.webhook" leak := by
    decide
  have hmsg := hred _ hmem rfl
  exact absurd hmsg (by decide)

end Webhook

end Wapsell.Security
