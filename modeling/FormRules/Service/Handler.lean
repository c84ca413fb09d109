import FormRules.Database
import FormRules.Engine
import FormRules.Service.ApiError
import FormRules.Service.Http
import FormRules.Service.MediaType
import FormRules.Service.Request
import FormRules.Service.Route
import FormRules.Service.Target

/-!
# Answering requests

The service answers each request by a procedure on the engine. The request to evaluate rules keeps
one form of answer whatever happens; the other requests answer errors by a code and a message.
-/

namespace FormRules.Service

/-- Where rules are stored. -/
inductive Backend where
  | memory
  /-- A database behind a pool of connections. -/
  | postgres (pool : Database.Pool)
deriving DecidableEq

/-- What a service was started with. -/
structure Settings where
  limits : Limits
  backend : Backend

/-- What a request is given that it does not carry: an identifier for a rule, and the time. -/
structure Occasion where
  freshId : Uuid
  now : Instant
  today : Date

/-- Why the body of a request was not read. -/
inductive Rejection where
  | contentType
  /-- There are more bytes than a request may have. -/
  | tooLong
  /-- The bytes are no JSON text. -/
  | malformed
  | unfit
deriving DecidableEq

namespace Rejection

/-- The status of a response that rejects a body. -/
def status : Rejection → Nat
  | contentType => 415
  | tooLong => 413
  | malformed => 400
  | unfit => 422

/-- The text of a response that rejects a body, without the place of the fault and what was expected
there. -/
def text : Rejection → String
  | contentType => "Expected request with \x60Content-Type: application/json\x60"
  | tooLong => "Failed to buffer the request body: length limit exceeded"
  | malformed => "Failed to parse the request body as JSON"
  | unfit => "Failed to deserialize the JSON body into the target type"

/-- The response that rejects a body. -/
def response (rejection : Rejection) : HttpResponse :=
  .text rejection.status rejection.text

/-- The rejection of a body that cannot be read. -/
def ofRefusal : Json.Refusal → Rejection
  | .malformed => malformed
  | .unfit => unfit

end Rejection

/-- The greatest number of bytes of a body that is read. -/
def greatestBodySize : Nat := 2 * 1024 * 1024

/-- Reads the body of a request. -/
def readBody {Data : Type} (shape : Json.Shape Data) (request : HttpRequest) :
    Except Rejection Data :=
  if !request.contentType.any MediaType.isJson then .error .contentType
  else if greatestBodySize < request.body.bytes.size then .error .tooLong
  else (shape.ofBytes request.body.bytes).mapError .ofRefusal

/-- The response that reports an error. -/
def errorResponse (error : ApiError) : HttpResponse :=
  .json error.status error.toJson

/-- The response to a request that may have failed in the engine. -/
def respond {Data : Type} (status : Nat) (encode : Data → Json) :
    Except RuleError Data → HttpResponse
  | .ok data => .json status (encode data)
  | .error error => errorResponse (.ofRuleError error)

/-- The status of a response to a request that was read but cannot be processed. -/
def unprocessable : Nat := 422

/-- The answer to an invalid request to evaluate rules. -/
def invalidEvaluation (messages : List String) : HttpResponse :=
  .json unprocessable
    (EvaluationResponse.mk false
      ["Validation request is invalid: " ++ String.intercalate ", " messages]).toJson

/-- The answer to a request to evaluate rules that failed within the service. -/
def failedEvaluation : HttpResponse :=
  .json 500 (EvaluationResponse.mk false ["An error occurred during validation"]).toJson

/-- The answer to a request to evaluate rules. -/
def evaluationAnswer : Except RuleError EvaluationResponse → HttpResponse
  | .ok response => .json (if response.success then 200 else unprocessable) response.toJson
  | .error (.unsupportedField field kind) =>
      invalidEvaluation [(RuleError.unsupportedField field kind).display]
  | .error (.invalidForm kind) => invalidEvaluation [(RuleError.invalidForm kind).display]
  | .error _ => failedEvaluation

/-- Evaluates the rules of an object type on a form. -/
def evaluate (settings : Settings) (occasion : Occasion) (request : HttpRequest) :
    Procedure HttpResponse :=
  match readBody EvaluateRequest.shape request with
  | .error rejection => return invalidEvaluation [rejection.text]
  | .ok asked =>
      match asked.parts with
      | .error messages => return invalidEvaluation messages
      | .ok (objectType, form) => do
          let result ← (Engine.evaluateForm settings.limits objectType form occasion.today).run
          return evaluationAnswer result

/-- Tries an expression on a form. -/
def tryExpression (settings : Settings) (occasion : Occasion) (request : HttpRequest) :
    HttpResponse :=
  match readBody TrialRequest.shape request with
  | .error rejection => rejection.response
  | .ok asked =>
      if asked.failures ≠ [] then errorResponse (.ofFailures asked.failures)
      else
        respond 200 TrialResult.toJson
          (Engine.tryExpressionOnForm settings.limits asked.expression asked.formData
            occasion.today)

/-- Lists all rules. -/
def listRules : Procedure HttpResponse := do
  let result ← Procedure.call .listAll
  return respond 200 (fun rules => .array (rules.map Rule.toJson)) result

/-- Creates a rule. -/
def createRule (settings : Settings) (occasion : Occasion) (request : HttpRequest) :
    Procedure HttpResponse :=
  match readBody CreateRequest.shape request with
  | .error rejection => return rejection.response
  | .ok asked =>
      if asked.failures ≠ [] then return errorResponse (.ofFailures asked.failures)
      else do
        let result ←
          (Engine.createRule settings.limits occasion.freshId occasion.now asked.toNewRule).run
        return respond 201 Rule.toJson result

/-- The response to a path whose identifier is none. -/
def invalidPath : HttpResponse :=
  .text 400 "Invalid URL"

/-- Changes a rule. -/
def updateRule (settings : Settings) (occasion : Occasion) (segment : String)
    (request : HttpRequest) : Procedure HttpResponse :=
  match Route.identifier? segment with
  | none => return invalidPath
  | some id =>
      match readBody UpdateRequest.shape request with
      | .error rejection => return rejection.response
      | .ok asked =>
          if asked.failures ≠ [] then return errorResponse (.ofFailures asked.failures)
          else do
            let result ← (Engine.updateRule settings.limits id asked.toPatch occasion.now).run
            return respond 200 Rule.toJson result

/-- Writes a mere message. -/
def messageJson (message : String) : Json :=
  .object [("message", .text message)]

/-- Removes a rule. -/
def deleteRule (segment : String) : Procedure HttpResponse :=
  match Route.identifier? segment with
  | none => return invalidPath
  | some id => do
      let result ← (Engine.deleteRule id).run
      return respond 200 (fun _ => messageJson "Validation rule deleted successfully") result

/-- The name under which the service reports on itself. -/
def serviceName : String := "validation-service"

/-- Tells that the service runs. -/
def health : HttpResponse :=
  .json 200 (.object [("status", .text "ok"), ("service", .text serviceName)])

/-- The name of a backend, and whether it can be used. -/
def Backend.check : Backend → String × Bool
  | memory => ("memory", true)
  | postgres pool => ("postgres", pool.health.isOk)

/-- Tells whether the rule store can be used. -/
def readiness (backend : Backend) : HttpResponse :=
  let (name, usable) := backend.check
  .json 200 (.object
    [("status", .text (if usable then "ok" else "degraded")), ("service", .text serviceName),
     ("checks", .object
      [("store", .text (if usable then "ok" else "fail")), ("backend", .text name)])])

/-- The response to an unknown path. -/
def notFound : HttpResponse := .text 404 ""

/-- The response to a method that a path does not answer. -/
def methodNotAllowed (route : Route) : HttpResponse :=
  { status := 405, body := .text "", allow := some route.allowed }

/-- Answers a request to a route by a method other than `HEAD`. -/
def answerRoute (settings : Settings) (occasion : Occasion) (request : HttpRequest)
    (method : Method) (route : Route) : Procedure HttpResponse :=
  match route, method with
  | .evaluate, .post => evaluate settings occasion request
  | .trial, .post => return tryExpression settings occasion request
  | .rules, .get => listRules
  | .rules, .post => createRule settings occasion request
  | .rule segment, .put => updateRule settings occasion segment request
  | .rule segment, .delete => deleteRule segment
  | .health, .get => return health
  | .readiness, .get => return readiness settings.backend
  | _, _ => return methodNotAllowed route

/-- Answers a request. A `HEAD` request is answered like a `GET` request, without the body. -/
def answer (settings : Settings) (occasion : Occasion) (request : HttpRequest) :
    Procedure HttpResponse :=
  match Route.ofPath? (Target.path request.target) with
  | none => return notFound
  | some route =>
      match Method.ofName request.method with
      | .head => do
          let response ← answerRoute settings occasion request .get route
          return response.withoutBody
      | method => answerRoute settings occasion request method route

end FormRules.Service
