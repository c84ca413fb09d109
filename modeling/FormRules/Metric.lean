/-!
# Metrics

What is counted: evaluations of rules by object type and verdict, failures of rules by kind, and
requests by method, path and status. A metric is known by its name and labels; the record of a
service is the list of what was counted, and a total is how often a metric occurs in it.
-/

namespace FormRules

/-- What became of a rule that was evaluated. -/
inductive Verdict where
  | passed
  | fired
  | failed
deriving DecidableEq

namespace Verdict

/-- The label of a verdict. -/
def label : Verdict → String
  | passed => "passed"
  | fired => "fired"
  | failed => "error"

end Verdict

/-- Something that is counted. -/
inductive Metric where
  /-- A rule was evaluated. -/
  | ruleEvaluation (objectType : String) (verdict : Verdict)
  /-- A rule failed with an error of some kind. -/
  | ruleFailure (kind : String)
  /-- The rules of an object type were evaluated, and the time was taken. -/
  | evaluationDuration (objectType : String)
  /-- A request was answered. -/
  | httpRequest (method path status : String)
  /-- A request was answered, and the time was taken. -/
  | httpDuration (method path status : String)
deriving DecidableEq

namespace Metric

/-- The name of a metric. -/
def name : Metric → String
  | ruleEvaluation .. => "rule_evaluations_total"
  | ruleFailure _ => "rule_failures_total"
  | evaluationDuration _ => "rule_evaluation_duration_seconds"
  | httpRequest .. => "http_requests_total"
  | httpDuration .. => "http_request_duration_seconds"

/-- The labels of a metric, ordered by their names. -/
def labels : Metric → List (String × String)
  | ruleEvaluation objectType verdict =>
      [("object_type", objectType), ("result", verdict.label)]
  | ruleFailure kind => [("kind", kind)]
  | evaluationDuration objectType => [("object_type", objectType)]
  | httpRequest method path status | httpDuration method path status =>
      [("method", method), ("path", path), ("status", status)]

/-- The text that identifies a metric. -/
def key (metric : Metric) : String :=
  metric.name ++ "\x7b" ++
    String.intercalate "," (metric.labels.map fun (label, value) => label ++ "=" ++ value) ++
    "\x7d"

end Metric

/-- What was counted, the latest first. -/
abbrev MetricLog := List Metric

namespace MetricLog

/-- How often something was counted. -/
def total (log : MetricLog) (metric : Metric) : Nat :=
  log.count metric

/-- Everything that was counted, with its total. -/
def totals (log : MetricLog) : List (Metric × Nat) :=
  log.eraseDups.map fun metric => (metric, log.count metric)

end MetricLog
end FormRules
