import FormRules.Rule.Shape
import FormRules.Service.Validation

/-!
# What requests ask for

The bodies of requests as typed data, with the bounds on their texts. Lengths are counted in
characters.
-/

namespace FormRules.Service

open Json.Shape (required nullable withDefault)

/-- Asks to evaluate the rules of an object type on a form. Everything may be missing, so that it
can be reported like other failures. -/
structure EvaluateRequest where
  objectType : Option String
  formData : Option Json

/-- Asks to try an expression on a form. -/
structure TrialRequest where
  expression : String
  formData : Form

/-- Asks for a new rule. -/
structure CreateRequest where
  objectType : String
  expression : String
  errorMessage : String
  isActive : Option Bool
  createdBy : Option Uuid
deriving DecidableEq

/-- Asks for a change of a rule. -/
structure UpdateRequest where
  objectType : Option String
  expression : Option String
  errorMessage : Option String
  isActive : Option Bool
deriving DecidableEq

/-- The greatest number of characters of an object type. -/
def maxObjectTypeLength : Nat := 255

/-- The greatest number of characters of an expression. -/
def maxExpressionLength : Nat := 4096

/-- The greatest number of characters of an error message. -/
def maxErrorMessageLength : Nat := 1000

/-- The failures of an object type. -/
def checkObjectType (text : String) : List FieldFailure :=
  checkLength "object_type" "对象类型长度必须在1-255个字符之间" 1 maxObjectTypeLength text

/-- The failures of an expression. -/
def checkExpression (text : String) : List FieldFailure :=
  checkLength "expression" "表达式长度必须在1-4096个字符之间" 1 maxExpressionLength text

/-- The failures of an error message. -/
def checkErrorMessage (text : String) : List FieldFailure :=
  checkLength "error_message" "错误消息长度必须在1-1000个字符之间" 1 maxErrorMessageLength text

/-- The failures of a field that may be missing. -/
def checkOptional (check : String → List FieldFailure) (text : Option String) :
    List FieldFailure :=
  (text.map check).getD []

/-- How deep the fields of a request may be nested: the request itself is one level. -/
def fieldDepth : Nat := Json.greatestDepth - 1

namespace EvaluateRequest

/-- The shape of a request to evaluate rules. -/
def shape : Json.Shape EvaluateRequest :=
  EvaluateRequest.mk <$> nullable "object_type" .text <*> nullable "form_data" (.json fieldDepth)

/-- The failures of a request to evaluate rules. -/
def failures (request : EvaluateRequest) : List FieldFailure :=
  checkPresent "object_type" "object_type is required" request.objectType ++
    checkOptional (checkLength "object_type" "object_type must be 1-255 characters" 1
      maxObjectTypeLength) request.objectType ++
    checkPresent "form_data" "form_data is required" request.formData

/-- The object type and the form of a request, or the messages about what is wrong. -/
def parts (request : EvaluateRequest) : Except (List String) (String × Form) :=
  if request.failures ≠ [] then .error (validationMessages request.failures)
  else
    match request.objectType, request.formData with
    | some objectType, some (.object members) => .ok (objectType, Json.tree members)
    | _, some _ => .error ["form_data must be an object"]
    | _, none => .error ["object_type and form_data are required"]

end EvaluateRequest

namespace TrialRequest

/-- The shape of a request to try an expression. -/
def shape : Json.Shape TrialRequest :=
  TrialRequest.mk <$> required "expression" .text <*>
    withDefault "form_data" (.form fieldDepth) ∅

/-- The failures of a request to try an expression. -/
def failures (request : TrialRequest) : List FieldFailure :=
  checkExpression request.expression

end TrialRequest

namespace CreateRequest

/-- The shape of a request for a new rule. -/
def shape : Json.Shape CreateRequest :=
  CreateRequest.mk <$> required "object_type" .text <*> required "expression" .text <*>
    required "error_message" .text <*> nullable "is_active" .boolean <*>
    nullable "created_by" .uuid

/-- The failures of a request for a new rule. -/
def failures (request : CreateRequest) : List FieldFailure :=
  checkObjectType request.objectType ++ checkExpression request.expression ++
    checkErrorMessage request.errorMessage

/-- The new rule that is asked for; it is active unless the request says otherwise. -/
def toNewRule (request : CreateRequest) : NewRule where
  objectType := request.objectType
  expression := request.expression
  errorMessage := request.errorMessage
  isActive := request.isActive.getD true
  createdBy := request.createdBy

end CreateRequest

namespace UpdateRequest

/-- The shape of a request for a change of a rule. -/
def shape : Json.Shape UpdateRequest :=
  UpdateRequest.mk <$> nullable "object_type" .text <*> nullable "expression" .text <*>
    nullable "error_message" .text <*> nullable "is_active" .boolean

/-- The failures of a request for a change of a rule. -/
def failures (request : UpdateRequest) : List FieldFailure :=
  checkOptional checkObjectType request.objectType ++
    checkOptional checkExpression request.expression ++
    checkOptional checkErrorMessage request.errorMessage

/-- The change that is asked for. -/
def toPatch (request : UpdateRequest) : RulePatch where
  objectType := request.objectType
  expression := request.expression
  errorMessage := request.errorMessage
  isActive := request.isActive

end UpdateRequest
end FormRules.Service
