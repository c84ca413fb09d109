/-!
# Errors

Everything that can go wrong with a rule or with the data it is applied to, with the kind that
groups errors and the message that describes each. Errors of the expression itself are told apart
from failures of the rule store and of the form.
-/

namespace FormRules

/-- An expression that cannot be split into tokens. -/
structure LexError where
  /-- The byte offset of the offending lexeme. -/
  position : Nat
  message : String
deriving DecidableEq

/-- A sequence of tokens that is no expression. -/
structure ParseError where
  /-- The byte offset of the offending token. -/
  position : Nat
  message : String
deriving DecidableEq

/-- An expression without a value on the given record. -/
inductive EvalError where
  | typeMismatch (expected actual : String)
  | incompatibleOperands (operator left right : String)
  | unknownFunction (name : String)
  | arityMismatch (name expected : String) (actual : Nat)
  | divisionByZero
  | numericOverflow
  | nonBooleanResult (actual : String)
deriving DecidableEq

/-- Any error of the rule engine. -/
inductive RuleError where
  | lex (error : LexError)
  | parse (error : ParseError)
  | eval (error : EvalError)
  /-- No rule has this identifier. -/
  | notFound (id : String)
  /-- The rule store failed. -/
  | store (message : String)
  /-- A field of the form has a value of a kind that no rule can use. -/
  | unsupportedField (field kind : String)
  /-- The form is not an object. -/
  | invalidForm (kind : String)
deriving DecidableEq

/-- The description of a lexical error. -/
def LexError.display (error : LexError) : String :=
  s!"词法错误 (位置 {error.position}): {error.message}"

/-- The description of a syntactic error. -/
def ParseError.display (error : ParseError) : String :=
  s!"语法错误 (位置 {error.position}): {error.message}"

/-- The description of an evaluation error. -/
def EvalError.display : EvalError → String
  | typeMismatch expected actual => s!"类型不匹配: 期望 {expected}, 实际 {actual}"
  | incompatibleOperands operator left right =>
      s!"操作符 {operator} 不支持 {left} 与 {right} 之间的运算"
  | unknownFunction name => s!"未知函数: {name}"
  | arityMismatch name expected actual =>
      s!"函数 {name} 参数数量错误: 期望 {expected}, 实际 {actual}"
  | divisionByZero => "除数为零"
  | numericOverflow => "数值运算结果超出范围"
  | nonBooleanResult actual => s!"规则表达式的结果必须为布尔值, 实际为 {actual}"

namespace RuleError

/-- The description of an error. -/
def display : RuleError → String
  | lex error => error.display
  | parse error => error.display
  | eval error => error.display
  | notFound id => s!"规则未找到: {id}"
  | store message => s!"规则存储错误: {message}"
  | unsupportedField field kind => s!"字段 {field} 的值类型不受支持: {kind}"
  | invalidForm kind => s!"表单数据必须是 JSON 对象, 实际为 {kind}"

/-- The code of the kind of an error. -/
def kind : RuleError → String
  | lex _ => "LEX_ERROR"
  | parse _ => "PARSE_ERROR"
  | eval _ => "EVAL_ERROR"
  | notFound _ => "RULE_NOT_FOUND"
  | store _ => "STORE_ERROR"
  | unsupportedField _ _ => "UNSUPPORTED_FIELD_VALUE"
  | invalidForm _ => "INVALID_FORM_DATA"

/-- The error lies in the expression of a rule. -/
def isExpressionError : RuleError → Bool
  | lex _ | parse _ | eval _ => true
  | _ => false

end RuleError
end FormRules
