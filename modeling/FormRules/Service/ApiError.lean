import FormRules.Error
import FormRules.Rule.Shape
import FormRules.Service.Validation

/-!
# Errors of the service

What clients are told about errors: a status, a code and a message. The message on a failure of the
service itself is one general text, whatever the cause.
-/

namespace FormRules.Service

/-- An error that a client is told about. -/
inductive ApiError where
  | validation (message : String)
  /-- The expression does not compile. -/
  | invalidExpression (message : String)
  | ruleNotFound (id : Uuid)
  | store (message : String)
  | internal (message : String)
deriving DecidableEq

namespace ApiError

/-- The full description of an error. -/
def display : ApiError → String
  | validation message => s!"参数验证失败: {message}"
  | invalidExpression message => s!"表达式无效: {message}"
  | ruleNotFound id => s!"规则不存在: {String.ofList id.text}"
  | store message => s!"规则存储错误: {message}"
  | internal message => s!"内部错误: {message}"

/-- The status of the response. -/
def status : ApiError → Nat
  | validation _ | invalidExpression _ => 400
  | ruleNotFound _ => 404
  | store _ | internal _ => 500

/-- The code of an error. -/
def code : ApiError → String
  | validation _ => "VALIDATION_ERROR"
  | invalidExpression _ => "INVALID_EXPRESSION"
  | ruleNotFound _ => "RULE_NOT_FOUND"
  | store _ => "STORE_ERROR"
  | internal _ => "INTERNAL_ERROR"

/-- What clients are told about a failure of the service itself. -/
def generalText : String := "服务内部错误，请稍后重试"

/-- What a client is told. -/
def publicText : ApiError → String
  | store _ | internal _ => generalText
  | error => error.display

/-- The body of the response. -/
def toJson (error : ApiError) : Json :=
  .object
    [("success", .boolean false), ("code", .text error.code),
     ("message", .text error.publicText), ("data", .null)]

/-- The error of a request that is out of bounds. -/
def ofFailures (failures : List FieldFailure) : ApiError :=
  validation (validationText failures)

/-- The error that a client is told about for an error of the rule engine. -/
def ofRuleError : RuleError → ApiError
  | .notFound id =>
      match Uuid.ofText? id.toList with
      | some id => ruleNotFound id
      | none => internal s!"规则 ID 格式异常: {id}"
  | .store message => store message
  | .unsupportedField field kind => validation (RuleError.unsupportedField field kind).display
  | .invalidForm kind => validation (RuleError.invalidForm kind).display
  | .lex error => invalidExpression error.display
  | .parse error => invalidExpression error.display
  | .eval error => invalidExpression error.display

end ApiError
end FormRules.Service
