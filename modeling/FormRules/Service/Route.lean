import FormRules.Uuid

/-!
# Routes

The paths of the service and the methods that each of them answers. Paths are matched exactly, by
case and down to a trailing slash.
-/

namespace FormRules.Service

/-- The methods that some route answers. -/
inductive Method where
  | get
  | head
  | post
  | put
  | delete
  /-- A method that no route answers. -/
  | other (name : String)
deriving DecidableEq

namespace Method

/-- The name of a method. -/
def name : Method → String
  | get => "GET"
  | head => "HEAD"
  | post => "POST"
  | put => "PUT"
  | delete => "DELETE"
  | other name => name

/-- The method with a name. -/
def ofName : String → Method
  | "GET" => get
  | "HEAD" => head
  | "POST" => post
  | "PUT" => put
  | "DELETE" => delete
  | name => other name

end Method

/-- A path that the service knows. -/
inductive Route where
  | evaluate
  | trial
  | rules
  /-- One rule, by the segment of the path that identifies it. -/
  | rule (segment : String)
  | health
  | readiness
deriving DecidableEq

namespace Route

/-- The path of the rules. -/
def rulesPath : String := "/api/validation_rules"

/-- The last segment of a path under the rules, if it is a single one. -/
def segment? (path : String) : Option String :=
  let parent := rulesPath.toList ++ ['/']
  let segment := path.toList.drop parent.length
  if parent.isPrefixOf path.toList ∧ segment ≠ [] ∧ '/' ∉ segment then
    some (String.ofList segment)
  else none

/-- The route of a path. -/
def ofPath? (path : String) : Option Route :=
  if path = "/health" then some health
  else if path = "/ready" then some readiness
  else if path = rulesPath then some rules
  else if path = rulesPath ++ "/evaluate" then some evaluate
  else if path = rulesPath ++ "/test" then some trial
  else (segment? path).map rule

/-- The path of a route, with a placeholder for what varies. -/
def template : Route → String
  | evaluate => rulesPath ++ "/evaluate"
  | trial => rulesPath ++ "/test"
  | rules => rulesPath
  | rule _ => rulesPath ++ "/\x7bid\x7d"
  | health => "/health"
  | readiness => "/ready"

/-- The methods that a route answers. -/
def methods : Route → List Method
  | evaluate | trial => [.post]
  | rules => [.get, .head, .post]
  | rule _ => [.put, .delete]
  | health | readiness => [.get, .head]

/-- The methods that a route answers, as a header. -/
def allowed (route : Route) : String :=
  String.intercalate "," (route.methods.map Method.name)

/-- A segment with its percent escapes resolved, byte by byte. -/
def unescape : List Char → List Char
  | '%' :: high :: low :: rest =>
      match Text.hexDigitValue? high, Text.hexDigitValue? low with
      | some high, some low => Char.ofNat (16 * high + low) :: unescape rest
      | _, _ => '%' :: unescape (high :: low :: rest)
  | head :: rest => head :: unescape rest
  | [] => []

/-- The identifier that a segment denotes. No identifier has characters beyond ASCII, so escaped
bytes count as characters. -/
def identifier? (segment : String) : Option Uuid :=
  Uuid.ofText? (unescape segment.toList)

end Route
end FormRules.Service
