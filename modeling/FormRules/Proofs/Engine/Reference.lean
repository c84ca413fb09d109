import FormRules.Proofs.Compilation
import FormRules.Proofs.Engine.History
import Mathlib.Data.List.Forall2

/-!
# The reference semantics of evaluation

What an evaluation reports is said here without an engine: the rules that apply, in their order,
and for each of them what its expression comes to when it is compiled anew. In every state that a
history of commands leads to, an evaluation reports exactly this.
-/

namespace FormRules

/-- A report on a rule tells its verdict, or the error for which there is none. -/
structure RuleReport.Tells (report : RuleReport) (rule : Rule) (verdict : Except RuleError Bool) :
    Prop where
  ruleId : report.ruleId = rule.id
  passed : report.fired = false ∧ report.diagnostic = none ↔ verdict = .ok false
  fired : report.fired = true ∧ report.diagnostic = none ↔ verdict = .ok true
  /-- A rule without a verdict fires, and its diagnostic carries the error. -/
  failed : ∀ error, verdict = .error error →
    report.fired = true ∧ report.diagnostic = some ⟨rule.id, error.kind, error.display⟩ ∧
      error.kind ∈ ["LEX_ERROR", "PARSE_ERROR", "EVAL_ERROR"]

/-- The messages of those rules whose reports say that they fired. -/
def EvaluationOutcome.firedMessages (rules : List Rule) (reports : List RuleReport) :
    List String :=
  (rules.zip reports).filterMap fun (rule, report) =>
    if report.fired then some rule.errorMessage else none

/-- An outcome is the one that some rules have on a record at a date, without any cache. -/
structure EvaluationOutcome.IsReference (outcome : EvaluationOutcome) (limits : Limits)
    (record : FieldRecord) (today : Date) (rules : List Rule) : Prop where
  reports : List.Forall₂
    (fun rule (report : RuleReport) =>
      report.Tells rule (Engine.verdict limits record today rule)) rules outcome.reports
  messages : outcome.messages = firedMessages rules outcome.reports
  valid : outcome.isValid = true ↔ ∀ report ∈ outcome.reports, report.fired = false

/-- The rules that apply to an object type: each once, in the order in which they apply. -/
structure Store.Applicable (store : Store) (objectType : String) (rules : List Rule) : Prop where
  ordered : rules.Pairwise Rule.Precedes
  member : ∀ rule,
    rule ∈ rules ↔ store.Holds rule ∧ rule.isActive = true ∧ rule.objectType = objectType

theorem Store.Applicable.unique {store : Store} {objectType : String} {rules others : List Rule}
    (applicable : store.Applicable objectType rules)
    (others_applicable : store.Applicable objectType others) : others = rules :=
  Sorting.eq_of_pairwise_lt others_applicable.ordered applicable.ordered fun rule =>
    (others_applicable.member rule).trans (applicable.member rule).symm

namespace Engine

theorem isExpressionError_of_expr {limit : Nat} {source : String} {error : RuleError}
    (failed : Expr.ofSource limit source = .error error) : error.isExpressionError = true := by
  rcases bind_eq_error.1 failed with lexed | ⟨tokens, -, parsed⟩
  · obtain ⟨reason, -, rfl⟩ := mapError_eq_error.1 lexed
    rfl
  · obtain ⟨reason, -, rfl⟩ := mapError_eq_error.1 parsed
    rfl

theorem isExpressionError_of_compiled {limits : Limits} {source : String} {error : RuleError}
    (failed : CompiledExpression.ofSource limits source = .error error) :
    error.isExpressionError = true := by
  unfold CompiledExpression.ofSource at failed
  dsimp only at failed
  split at failed
  · obtain rfl := Except.error.inj failed
    rfl
  · exact isExpressionError_of_expr (map_eq_error.1 failed)

theorem isExpressionError_of_verdict {limits : Limits} {record : FieldRecord} {today : Date}
    {rule : Rule} {error : RuleError} (failed : verdict limits record today rule = .error error) :
    error.isExpressionError = true := by
  rcases bind_eq_error.1 failed with uncompiled | ⟨compiled, -, unjudged⟩
  · exact isExpressionError_of_compiled uncompiled
  · obtain ⟨reason, -, rfl⟩ := mapError_eq_error.1 unjudged
    rfl

theorem kind_mem_of_isExpressionError {error : RuleError}
    (expression : error.isExpressionError = true) :
    error.kind ∈ ["LEX_ERROR", "PARSE_ERROR", "EVAL_ERROR"] := by
  cases error <;> simp_all [RuleError.isExpressionError, RuleError.kind]

theorem tells_ofResult {rule : Rule} {result : Except RuleError Bool}
    (expression : ∀ error, result = .error error → error.isExpressionError = true) :
    (RuleReport.ofResult rule result).Tells rule result := by
  cases result with
  | ok fired => constructor <;> cases fired <;> simp [RuleReport.ofResult]
  | error error =>
      have kind := kind_mem_of_isExpressionError (expression error rfl)
      constructor <;> simp_all [RuleReport.ofResult]

theorem firedMessages_cons (rule : Rule) (rest : List Rule) (report : RuleReport)
    (reports : List RuleReport) :
    EvaluationOutcome.firedMessages (rule :: rest) (report :: reports) =
      if report.fired then rule.errorMessage :: EvaluationOutcome.firedMessages rest reports
      else EvaluationOutcome.firedMessages rest reports := by
  unfold EvaluationOutcome.firedMessages
  cases fired : report.fired <;> simp [fired]

theorem firedMessages_eq_nil_iff (rules : List Rule) (reports : List RuleReport)
    (same_length : rules.length = reports.length) :
    EvaluationOutcome.firedMessages rules reports = [] ↔
      ∀ report ∈ reports, report.fired = false := by
  induction rules generalizing reports with
  | nil =>
      obtain rfl := List.length_eq_zero_iff.1 same_length.symm
      simp [EvaluationOutcome.firedMessages]
  | cons rule rest induction =>
      cases reports with
      | nil => simp at same_length
      | cons report reports =>
          have tail := induction reports (by simpa using same_length)
          rw [firedMessages_cons]
          cases fired : report.fired <;> simp [fired, tail]

/-- The outcome of rules in some order is the reference for these rules. -/
theorem isReference_outcomeOf (limits : Limits) (record : FieldRecord) (today : Date)
    (rules : List Rule) :
    (outcomeOf limits record today rules).IsReference limits record today rules := by
  have reports : List.Forall₂
      (fun rule (report : RuleReport) => report.Tells rule (verdict limits record today rule))
      rules (outcomeOf limits record today rules).reports := by
    induction rules with
    | nil => exact .nil
    | cons rule rest induction =>
        exact .cons (tells_ofResult fun _ failed => isExpressionError_of_verdict failed) induction
  have messages : (outcomeOf limits record today rules).messages =
      EvaluationOutcome.firedMessages rules (outcomeOf limits record today rules).reports := by
    clear reports
    induction rules with
    | nil => rfl
    | cons rule rest induction =>
        let report := RuleReport.ofResult rule (verdict limits record today rule)
        change (if report.fired then
              rule.errorMessage :: (outcomeOf limits record today rest).messages
            else (outcomeOf limits record today rest).messages) =
          EvaluationOutcome.firedMessages (rule :: rest)
            (report :: (outcomeOf limits record today rest).reports)
        rw [firedMessages_cons, induction]
  refine ⟨reports, messages, ?_⟩
  rw [EvaluationOutcome.isValid, List.isEmpty_iff, messages]
  exact firedMessages_eq_nil_iff rules _ reports.length_eq

end Engine
end FormRules
