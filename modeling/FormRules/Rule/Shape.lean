import FormRules.Compile
import FormRules.Engine.Outcome
import FormRules.Json.Shape

/-!
# Rules and outcomes as JSON

How rules, their changes and what comes of them are read from JSON and written to it.
-/

namespace FormRules

open Json.Shape (required nullable withDefault)

/-- Writes an optional value, nothing as null. -/
def Json.ofOption {Data : Type} (encode : Data → Json) : Option Data → Json
  | some data => encode data
  | none => null

/-- Writes an identifier. -/
def Uuid.toJson (id : Uuid) : Json :=
  .text (String.ofList id.text)

/-- Writes a time stamp. -/
def Instant.toJson (instant : Instant) : Json :=
  .text (String.ofList instant.text)

namespace Rule

/-- The shape of a rule; times that are left out are the current one. -/
def shape (now : Instant) : Json.Shape Rule :=
  Rule.mk <$> required "id" .uuid <*> required "object_type" .text <*>
    required "expression" .text <*> required "error_message" .text <*>
    withDefault "is_active" .boolean true <*>
    withDefault "created_by" (.optional .uuid) none <*>
    withDefault "created_at" .instant now <*> withDefault "updated_at" .instant now

/-- Writes a rule. -/
def toJson (rule : Rule) : Json :=
  .object
    [("id", rule.id.toJson), ("object_type", .text rule.objectType),
     ("expression", .text rule.expression), ("error_message", .text rule.errorMessage),
     ("is_active", .boolean rule.isActive), ("created_by", .ofOption Uuid.toJson rule.createdBy),
     ("created_at", rule.createdAt.toJson), ("updated_at", rule.updatedAt.toJson)]

end Rule

namespace NewRule

/-- The shape of a new rule. -/
def shape : Json.Shape NewRule :=
  NewRule.mk <$> required "object_type" .text <*> required "expression" .text <*>
    required "error_message" .text <*> withDefault "is_active" .boolean true <*>
    withDefault "created_by" (.optional .uuid) none

/-- Writes a new rule. -/
def toJson (input : NewRule) : Json :=
  .object
    [("object_type", .text input.objectType), ("expression", .text input.expression),
     ("error_message", .text input.errorMessage), ("is_active", .boolean input.isActive),
     ("created_by", .ofOption Uuid.toJson input.createdBy)]

end NewRule

namespace RulePatch

/-- The shape of a change of a rule. -/
def shape : Json.Shape RulePatch :=
  RulePatch.mk <$> nullable "object_type" .text <*> nullable "expression" .text <*>
    nullable "error_message" .text <*> nullable "is_active" .boolean

/-- Writes a change of a rule. -/
def toJson (patch : RulePatch) : Json :=
  .object
    [("object_type", .ofOption .text patch.objectType),
     ("expression", .ofOption .text patch.expression),
     ("error_message", .ofOption .text patch.errorMessage),
     ("is_active", .ofOption .boolean patch.isActive)]

end RulePatch

namespace RuleDiagnostic

/-- The shape of a diagnostic. -/
def shape : Json.Shape RuleDiagnostic :=
  RuleDiagnostic.mk <$> required "rule_id" .uuid <*> required "kind" .text <*>
    required "message" .text

/-- Writes a diagnostic. -/
def toJson (diagnostic : RuleDiagnostic) : Json :=
  .object
    [("rule_id", diagnostic.ruleId.toJson), ("kind", .text diagnostic.kind),
     ("message", .text diagnostic.message)]

end RuleDiagnostic

namespace RuleReport

/-- The shape of a report. -/
def shape : Json.Shape RuleReport :=
  RuleReport.mk <$> required "rule_id" .uuid <*> required "fired" .boolean <*>
    nullable "error" RuleDiagnostic.shape.decode

/-- Writes a report. -/
def toJson (report : RuleReport) : Json :=
  .object
    [("rule_id", report.ruleId.toJson), ("fired", .boolean report.fired),
     ("error", .ofOption RuleDiagnostic.toJson report.diagnostic)]

end RuleReport

namespace EvaluationOutcome

/-- The shape of an outcome. -/
def shape : Json.Shape EvaluationOutcome :=
  EvaluationOutcome.mk <$> required "messages" (.list .text) <*>
    required "reports" (.list RuleReport.shape.decode)

end EvaluationOutcome

namespace EvaluationResponse

/-- The shape of a response. -/
def shape : Json.Shape EvaluationResponse :=
  EvaluationResponse.mk <$> required "success" .boolean <*> required "errors" (.list .text)

/-- Writes a response. -/
def toJson (response : EvaluationResponse) : Json :=
  .object
    [("success", .boolean response.success), ("errors", .array (response.errors.map .text))]

end EvaluationResponse

namespace TrialResult

/-- The shape of the result of a trial. -/
def shape : Json.Shape TrialResult :=
  TrialResult.mk <$> required "fired" .boolean <*> nullable "error" .text

/-- Writes the result of a trial. -/
def toJson (result : TrialResult) : Json :=
  .object [("fired", .boolean result.fired), ("error", .ofOption .text result.error)]

end TrialResult

namespace Limits

/-- The shape of limits; those that are left out are the standard ones. -/
def shape : Json.Shape Limits :=
  Limits.mk <$> withDefault "max_expression_length" .natural standard.maxExpressionLength <*>
    withDefault "max_depth" .natural standard.maxDepth

/-- Writes limits. -/
def toJson (limits : Limits) : Json :=
  .object
    [("max_expression_length", .natural limits.maxExpressionLength),
     ("max_depth", .natural limits.maxDepth)]

end Limits
end FormRules
