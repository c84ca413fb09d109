import FormRules.Json

/-!
# Requests and responses

What the service needs to know of a request, and what it answers.
-/

namespace FormRules.Service

/-- The body of a request: bytes, of which nothing is known. -/
structure Payload where
  bytes : ByteArray

instance : Coe String Payload where
  coe text := ⟨text.toUTF8⟩

/-- A request. -/
structure HttpRequest where
  method : String
  /-- What names the path. -/
  target : String
  contentType : Option String
  /-- The identifier that the client gave the request. -/
  requestId : Option String
  body : Payload

/-- The body of a response. -/
inductive Body where
  | json (value : Json)
  | text (content : String)

/-- A response. -/
structure HttpResponse where
  status : Nat
  body : Body
  /-- The methods that the path answers, if it was asked by another one. -/
  allow : Option String := none
  /-- The identifier of the request. -/
  requestId : Option String := none

namespace HttpResponse

/-- A response with a JSON body. -/
def json (status : Nat) (value : Json) : HttpResponse :=
  { status, body := .json value }

/-- A response with a plain text. -/
def text (status : Nat) (content : String) : HttpResponse :=
  { status, body := .text content }

/-- The response without its body. -/
def withoutBody (response : HttpResponse) : HttpResponse :=
  { response with body := .text "" }

end HttpResponse
end FormRules.Service
