import FormRules.Engine.Outcome
import FormRules.Engine.Procedure
import FormRules.Expr.Evaluate

/-!
# The rule engine

Evaluates the active rules of an object type on a record and manages the stored rules. Errors of an
expression make its rule fire; errors of the store end the request. Rules are stored only if their
expressions compile, and an expression that a change or removal replaces leaves the compile cache.
-/

namespace FormRules.Engine

/-- The compiled form of an expression: from the cache, or else compiled and kept there. -/
def compile (limits : Limits) (source : String) :
    Procedure (Except RuleError CompiledExpression) := do
  match ← Procedure.call (.lookUp source) with
  | some compiled => return .ok compiled
  | none =>
      match CompiledExpression.ofSource limits source with
      | .error error => return .error error
      | .ok compiled => return .ok (← Procedure.call (.keep source compiled))

/-- The verdict of a compiled expression on a record at a date. -/
def judge (record : FieldRecord) (today : Date) (compiled : CompiledExpression) :
    Except RuleError Bool :=
  (compiled.expr.evaluatePredicate { record, today }).mapError .eval

/-- The metrics that a rule of an object type is counted under. -/
def metricsOf (objectType : String) : Except RuleError Bool → List Metric
  | .ok true => [.ruleEvaluation objectType .fired]
  | .ok false => [.ruleEvaluation objectType .passed]
  | .error error => [.ruleEvaluation objectType .failed, .ruleFailure error.kind]

/-- Counts some metrics. -/
def countAll : List Metric → Procedure Unit
  | [] => return ()
  | metric :: rest => do
      Procedure.call (.count metric)
      countAll rest

/-- Evaluates one rule. -/
def evaluateRule (limits : Limits) (record : FieldRecord) (today : Date) (rule : Rule) :
    Procedure RuleReport := do
  let compiled ← compile limits rule.expression
  let result := compiled.bind (judge record today)
  countAll (metricsOf rule.objectType result)
  return .ofResult rule result

/-- Evaluates rules in the given order. -/
def evaluateLoaded (limits : Limits) (record : FieldRecord) (today : Date) :
    List Rule → Procedure EvaluationOutcome
  | [] => return .empty
  | rule :: rest => do
      let report ← evaluateRule limits record today rule
      let outcome ← evaluateLoaded limits record today rest
      return outcome.cons rule report

/-- Evaluates the active rules of an object type. -/
def evaluateRules (limits : Limits) (objectType : String) (record : FieldRecord) (today : Date) :
    Attempt EvaluationOutcome := do
  let rules ← Attempt.ofProcedure (Procedure.call (.listActive objectType))
  let outcome ← evaluateLoaded limits record today rules
  Procedure.call (.count (.evaluationDuration objectType))
  return outcome

/-- Evaluates the active rules of an object type on a form. -/
def evaluateForm (limits : Limits) (objectType : String) (form : Form) (today : Date) :
    Attempt EvaluationResponse := do
  let record ← ExceptT.mk (pure (FieldRecord.ofForm form))
  let outcome ← evaluateRules limits objectType record today
  return outcome.toResponse

/-- Stores a new rule if its expression compiles. -/
def createRule (limits : Limits) (id : Uuid) (now : Instant) (input : NewRule) : Attempt Rule := do
  discard (Attempt.ofProcedure (compile limits input.expression))
  Attempt.ofProcedure (Procedure.call (.create id now input))

/-- Changes a rule; a new expression has to compile, and the one that it replaces is dropped from
the cache. -/
def updateRule (limits : Limits) (id : Uuid) (patch : RulePatch) (now : Instant) :
    Attempt Rule := do
  match patch.expression with
  | none => Attempt.ofProcedure (Procedure.call (.update id patch now))
  | some expression =>
      discard (Attempt.ofProcedure (compile limits expression))
      let previous ← Attempt.ofProcedure (Procedure.call (.get id))
      let rule ← Attempt.ofProcedure (Procedure.call (.update id patch now))
      if previous.expression ≠ rule.expression then
        discard (Procedure.call (.evict previous.expression) : Procedure Bool)
      return rule

/-- Removes a rule, and its expression from the cache. -/
def deleteRule (id : Uuid) : Attempt Unit := do
  let previous ← Attempt.ofProcedure (Procedure.call (.get id))
  Attempt.ofProcedure (Procedure.call (.delete id))
  discard (Procedure.call (.evict previous.expression) : Procedure Bool)

/-- Tries an expression on a record; neither the store nor the cache takes part. -/
def tryExpression (limits : Limits) (source : String) (record : FieldRecord) (today : Date) :
    TrialResult :=
  .ofResult ((CompiledExpression.ofSource limits source).bind (judge record today))

/-- Tries an expression on a form. -/
def tryExpressionOnForm (limits : Limits) (source : String) (form : Form) (today : Date) :
    Except RuleError TrialResult := do
  let record ← FieldRecord.ofForm form
  return tryExpression limits source record today

end FormRules.Engine
