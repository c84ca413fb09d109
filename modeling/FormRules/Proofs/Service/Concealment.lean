import FormRules.Proofs.Engine.Outage
import FormRules.Service.Observation

/-!
# What clients learn of an outage

While every call of the store fails, no handler makes anything of the message with which it fails:
each response is the same whatever the message, and so is every later one.
-/

namespace FormRules.Service

open Engine

section Steady

variable (settings : Settings) (occasion : Occasion) (request : HttpRequest)

/-- The answer to a failure of the store has one general text. -/
theorem steady_respond {Data : Type} {attempt : Attempt Data} (discreet : attempt.Discreet)
    (status : Nat) (encode : Data → Json) :
    (attempt.run >>= fun result => pure (respond status encode result)).Steady :=
  discreet.steady_map (respond status encode) (errorResponse (.store "")) fun _ => rfl

theorem steady_evaluate : (evaluate settings occasion request).Steady := by
  unfold evaluate
  split
  · exact Procedure.steady_pure _
  · split
    · exact Procedure.steady_pure _
    case h_2 objectType form _ =>
      have discreet := discreet_evaluateForm settings.limits objectType form occasion.today
      exact discreet.steady_map evaluationAnswer failedEvaluation fun _ => rfl

theorem steady_listRules : listRules.Steady :=
  steady_respond (Attempt.discreet_of_refused fun _ _ => rfl) 200 _

theorem steady_createRule : (createRule settings occasion request).Steady := by
  unfold createRule
  split
  · exact Procedure.steady_pure _
  · split
    · exact Procedure.steady_pure _
    · exact steady_respond (discreet_createRule settings.limits _ _ _) 201 _

theorem steady_updateRule (segment : String) :
    (updateRule settings occasion segment request).Steady := by
  unfold updateRule
  split
  · exact Procedure.steady_pure _
  · split
    · exact Procedure.steady_pure _
    · split
      · exact Procedure.steady_pure _
      · exact steady_respond (discreet_updateRule settings.limits _ _ _) 200 _

theorem steady_deleteRule (segment : String) : (deleteRule segment).Steady := by
  unfold deleteRule
  split
  · exact Procedure.steady_pure _
  · exact steady_respond (discreet_deleteRule _) 200 _

theorem steady_answerRoute (method : Method) (route : Route) :
    (answerRoute settings occasion request method route).Steady := by
  unfold answerRoute
  split
  · exact steady_evaluate settings occasion request
  · exact Procedure.steady_pure _
  · exact steady_listRules
  · exact steady_createRule settings occasion request
  · exact steady_updateRule settings occasion request _
  · exact steady_deleteRule _
  all_goals exact Procedure.steady_pure _

theorem steady_answer : (answer settings occasion request).Steady := by
  unfold answer
  split
  · exact Procedure.steady_pure _
  · split
    · exact Procedure.steady_bind (steady_answerRoute settings occasion request _ _) fun _ =>
        Procedure.steady_pure _
    · exact steady_answerRoute settings occasion request _ _

theorem steady_answerObserved (freshId : String) :
    (answerObserved settings occasion freshId request).Steady := by
  refine Procedure.steady_bind (steady_answer settings occasion request) fun response => ?_
  refine Procedure.steady_bind (Procedure.steady_call fun used => used) fun _ => ?_
  exact Procedure.steady_bind (Procedure.steady_call fun used => used) fun _ =>
    Procedure.steady_pure _

end Steady

/-- Whatever is asked, two engines that differ only in the message with which every call of their
stores fails give one response, observed or not, and they still differ in nothing else
afterwards. -/
theorem answer_conceals_outage (settings : Settings) (occasion : Occasion) (freshId : String)
    (request : HttpRequest) (engine : Engine) (first second : String) :
    (∃ (response : HttpResponse) (after : Engine),
      (answer settings occasion request).run (engine.failing first) =
        (response, after.failing first) ∧
      (answer settings occasion request).run (engine.failing second) =
        (response, after.failing second)) ∧
    ∃ (response : HttpResponse) (after : Engine),
      (answerObserved settings occasion freshId request).run (engine.failing first) =
        (response, after.failing first) ∧
      (answerObserved settings occasion freshId request).run (engine.failing second) =
        (response, after.failing second) := by
  constructor
  · obtain ⟨response, after, ran⟩ := steady_answer settings occasion request engine
    exact ⟨response, after, ran first, ran second⟩
  · obtain ⟨response, after, ran⟩ :=
      steady_answerObserved settings occasion request freshId engine
    exact ⟨response, after, ran first, ran second⟩

example (occasion : Occasion) : ((answer ⟨.standard, .memory⟩ occasion
    { method := "GET", target := "/api/validation_rules", contentType := none, requestId := none,
      body := "" }).run ((start .empty).failing "password refused")).1 =
    .json 500 (.object [("success", .boolean false), ("code", .text "STORE_ERROR"),
      ("message", .text "服务内部错误，请稍后重试"), ("data", .null)]) :=
  rfl

end FormRules.Service
