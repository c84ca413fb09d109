import FormRules.Service.Handler

/-!
# Observing requests

An observed request is counted by method, route and status, and its response carries an identifier:
the one that the client sent, if it can be read, or else a fresh one.
-/

namespace FormRules.Service

/-- The path under which a request is counted: its route, or the path itself if it has none. -/
def countedPath (request : HttpRequest) : String :=
  let path := Target.path request.target
  ((Route.ofPath? path).map Route.template).getD path

/-- The identifier of a request: the one that it carries, unless that is empty or not made of
visible characters. -/
def requestIdOf (freshId : String) (request : HttpRequest) : String :=
  match request.requestId with
  | some id => if id ≠ "" ∧ id.toList.all MediaType.isVisible then id else freshId
  | none => freshId

/-- Answers a request and observes it. -/
def answerObserved (settings : Settings) (occasion : Occasion) (freshId : String)
    (request : HttpRequest) : Procedure HttpResponse := do
  let response ← answer settings occasion request
  let path := countedPath request
  let status := toString response.status
  Procedure.call (.count (.httpRequest request.method path status))
  Procedure.call (.count (.httpDuration request.method path status))
  return { response with requestId := some (requestIdOf freshId request) }

end FormRules.Service
