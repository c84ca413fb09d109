import FormRules.Error
import FormRules.Rule

/-!
# Outcomes

What comes of evaluating the rules of an object type: a report for each rule, and the messages of
the rules that fired. A rule that cannot be evaluated fires, and its report says why.
-/

namespace FormRules

/-- Why a rule could not be evaluated. -/
structure RuleDiagnostic where
  ruleId : Uuid
  /-- The code of the kind of the error. -/
  kind : String
  message : String
deriving DecidableEq

/-- What became of one rule. -/
structure RuleReport where
  ruleId : Uuid
  fired : Bool
  diagnostic : Option RuleDiagnostic
deriving DecidableEq

/-- What became of all rules. -/
structure EvaluationOutcome where
  /-- The messages of the rules that fired, in the order of the rules. -/
  messages : List String
  reports : List RuleReport
deriving DecidableEq

/-- What a client is told. -/
structure EvaluationResponse where
  success : Bool
  errors : List String
deriving DecidableEq

/-- What becomes of an expression on trial. -/
structure TrialResult where
  fired : Bool
  error : Option String
deriving DecidableEq

namespace RuleReport

/-- The report on a rule whose evaluation came to a verdict or an error. -/
def ofResult (rule : Rule) : Except RuleError Bool → RuleReport
  | .ok fired => ⟨rule.id, fired, none⟩
  | .error error => ⟨rule.id, true, some ⟨rule.id, error.kind, error.display⟩⟩

end RuleReport

namespace TrialResult

/-- The result of a trial that came to a verdict or an error. -/
def ofResult : Except RuleError Bool → TrialResult
  | .ok fired => ⟨fired, none⟩
  | .error error => ⟨true, some error.display⟩

end TrialResult

namespace EvaluationOutcome

/-- The outcome of no rules. -/
def empty : EvaluationOutcome := ⟨[], []⟩

/-- The outcome with the report on one more rule in front. -/
def cons (rule : Rule) (report : RuleReport) (outcome : EvaluationOutcome) : EvaluationOutcome where
  messages :=
    if report.fired then rule.errorMessage :: outcome.messages else outcome.messages
  reports := report :: outcome.reports

/-- No rule fired. -/
def isValid (outcome : EvaluationOutcome) : Bool :=
  outcome.messages.isEmpty

/-- How many rules fired. -/
def firedCount (outcome : EvaluationOutcome) : Nat :=
  outcome.reports.countP (·.fired)

/-- Why rules could not be evaluated, in the order of the rules. -/
def diagnostics (outcome : EvaluationOutcome) : List RuleDiagnostic :=
  outcome.reports.filterMap (·.diagnostic)

/-- What a client is told about the outcome. -/
def toResponse (outcome : EvaluationOutcome) : EvaluationResponse :=
  ⟨outcome.isValid, outcome.messages⟩

end EvaluationOutcome
end FormRules
