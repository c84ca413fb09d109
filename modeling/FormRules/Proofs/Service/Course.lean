import FormRules.Proofs.Engine.Course
import FormRules.Service.Handler

/-!
# Courses of a service

A request that names a route by its path and method is answered by the handler of that route. A
service may have answered any requests before, and its engine may have been through anything else
meanwhile; no handler does to the cache what would make it unfaithful, so that the engine of a
service is always sound.
-/

namespace FormRules.Service

open Engine

/-! ## Routing -/

/-- The path and the method of a request lead to a route. -/
structure HttpRequest.GoesTo (request : HttpRequest) (method : Method) (route : Route) : Prop where
  method : Method.ofName request.method = method
  route : Route.ofPath? (Target.path request.target) = some route

theorem answer_of_goesTo {request : HttpRequest} {method : Method} {route : Route}
    (goes : request.GoesTo method route) (headless : method ≠ .head) (settings : Settings)
    (occasion : Occasion) :
    answer settings occasion request = answerRoute settings occasion request method route := by
  rw [answer, goes.route]
  dsimp only
  rw [goes.method]
  split
  · contradiction
  · rfl

/-! ## What handlers call -/

section Within

variable (settings : Settings) (occasion : Occasion) (request : HttpRequest)

theorem within_evaluateForm (limits : Limits) (objectType : String) (form : Form) (today : Date) :
    (evaluateForm limits objectType form today).run.Within (Action.Faithful limits) := by
  refine Attempt.within_bind (Procedure.within_pure _ _) fun record => ?_
  exact Attempt.within_bind (within_evaluateRules limits objectType record today) fun outcome =>
    Procedure.within_pure _ _

theorem within_evaluate :
    (evaluate settings occasion request).Within (Action.Faithful settings.limits) := by
  unfold evaluate
  split
  · exact Procedure.within_pure _ _
  · split
    · exact Procedure.within_pure _ _
    · exact Procedure.within_bind (within_evaluateForm ..) fun _ => Procedure.within_pure _ _

theorem within_listRules : listRules.Within (Action.Faithful settings.limits) :=
  Procedure.within_bind (Procedure.within_call trivial) fun _ => Procedure.within_pure _ _

theorem within_createRule :
    (createRule settings occasion request).Within (Action.Faithful settings.limits) := by
  unfold createRule
  split
  · exact Procedure.within_pure _ _
  · split
    · exact Procedure.within_pure _ _
    · exact Procedure.within_bind (Engine.within_createRule ..) fun _ => Procedure.within_pure _ _

theorem within_updateRule (segment : String) :
    (updateRule settings occasion segment request).Within (Action.Faithful settings.limits) := by
  unfold updateRule
  split
  · exact Procedure.within_pure _ _
  · split
    · exact Procedure.within_pure _ _
    · split
      · exact Procedure.within_pure _ _
      · exact Procedure.within_bind (Engine.within_updateRule ..) fun _ =>
          Procedure.within_pure _ _

theorem within_deleteRule (segment : String) :
    (deleteRule segment).Within (Action.Faithful settings.limits) := by
  unfold deleteRule
  split
  · exact Procedure.within_pure _ _
  · exact Procedure.within_bind (Engine.within_deleteRule ..) fun _ => Procedure.within_pure _ _

theorem within_answerRoute (method : Method) (route : Route) :
    (answerRoute settings occasion request method route).Within
      (Action.Faithful settings.limits) := by
  unfold answerRoute
  split
  · exact within_evaluate settings occasion request
  · exact Procedure.within_pure _ _
  · exact within_listRules settings
  · exact within_createRule settings occasion request
  · exact within_updateRule settings occasion request _
  · exact within_deleteRule settings _
  all_goals exact Procedure.within_pure _ _

/-- No handler keeps anything in the cache but what a text compiles to. -/
theorem within_answer :
    (answer settings occasion request).Within (Action.Faithful settings.limits) := by
  unfold answer
  split
  · exact Procedure.within_pure _ _
  · split
    · exact Procedure.within_bind (within_answerRoute ..) fun _ => Procedure.within_pure _ _
    · exact within_answerRoute ..

end Within

/-! ## States of a service -/

/-- A part of the course of a service. -/
inductive Occurrence where
  /-- A request is answered. -/
  | request (occasion : Occasion) (request : HttpRequest)
  /-- The engine goes through something else. -/
  | episode (episode : Episode)

/-- The engine of a service after an occurrence. -/
def undergo (settings : Settings) (engine : Engine) : Occurrence → Engine
  | .request occasion request => ((answer settings occasion request).run engine).2
  | .episode episode => Engine.undergo settings.limits engine episode

/-- The engine of a service that has just started on an empty store, after a course. -/
def afterCourse (settings : Settings) (course : List Occurrence) : Engine :=
  course.foldl (undergo settings) (start .empty)

/-- The engine of a service is sound at any point of its course. -/
theorem sound_afterCourse (settings : Settings) (course : List Occurrence) :
    (afterCourse settings course).Sound settings.limits := by
  induction course using List.reverseRecOn with
  | nil => exact sound_start settings.limits
  | append_singleton course occurrence induction =>
      rw [afterCourse, List.foldl_append]
      cases occurrence with
      | request occasion request =>
          exact sound_run (within_answer settings occasion request) induction
      | episode episode => exact sound_undergo induction episode

/-- What a service answers its first requests with. -/
def firstOccasion : Occasion := ⟨⟨1⟩, ⟨0, 0⟩, ⟨2024, 7, 1, by decide⟩⟩

/-- A rule that orders have a total is posted. -/
def rulePosted : Occurrence :=
  .request firstOccasion
    { method := "POST"
      target := "/api/validation_rules"
      contentType := some "application/json"
      requestId := none
      body := "\x7b\"object_type\": \"Order\", \"expression\": \"Total = 0\"," ++
        "\"error_message\": \"No total.\"\x7d" }

end FormRules.Service
