import FormRules.Engine
import FormRules.Proofs.Engine.Calls

/-!
# Requests in plain calls

What an engine does about a request is one procedure, with a failure of any call as a possible
answer. Here it is spelled out call by call, in the order in which the calls are made.
-/

namespace FormRules

namespace Procedure

instance : LawfulMonad Procedure :=
  LawfulMonad.mk' Procedure
    (fun procedure => by
      induction procedure with
      | done result => rfl
      | perform action resume induction => exact congrArg (perform action) (funext induction))
    (fun _ _ => rfl)
    (fun first _ _ => by
      induction first with
      | done result => rfl
      | perform action resume induction => exact congrArg (perform action) (funext induction))

end Procedure

namespace Attempt

variable {Result : Type}

theorem run_ofProcedure (procedure : Procedure (Except RuleError Result)) :
    (ofProcedure procedure).run = procedure := rfl

theorem run_liftM (procedure : Procedure Result) :
    (liftM procedure : Attempt Result).run = procedure >>= fun value => pure (.ok value) := rfl

/-- An attempt whose value is of no use still fails where it fails. -/
theorem run_discard (attempt : Attempt Result) :
    (discard attempt).run = attempt.run >>= fun result => pure (result.map fun _ => ()) := by
  change attempt.run >>= _ = _
  refine bind_congr fun result => ?_
  cases result <;> rfl

end Attempt

namespace Engine

/-- What is asked of an engine. -/
inductive Request where
  | createRule (id : Uuid) (now : Instant) (input : NewRule)
  | updateRule (id : Uuid) (patch : RulePatch) (now : Instant)
  | deleteRule (id : Uuid)
  | evaluateRules (objectType : String) (record : FieldRecord) (today : Date)
  | tryExpression (source : String) (record : FieldRecord) (today : Date)

/-- What an engine answers. -/
inductive Response where
  /-- The rule that was created or changed. -/
  | rule (result : Except RuleError Rule)
  | removal (result : Except RuleError Unit)
  | outcome (result : Except RuleError EvaluationOutcome)
  | trial (result : TrialResult)

/-- The request did not fail. -/
def Response.Succeeds : Response → Prop
  | rule result => result.isOk
  | removal result => result.isOk
  | outcome result => result.isOk
  | trial _ => True

instance : DecidablePred Response.Succeeds
  | .rule result => inferInstanceAs (Decidable (result.isOk = true))
  | .removal result => inferInstanceAs (Decidable (result.isOk = true))
  | .outcome result => inferInstanceAs (Decidable (result.isOk = true))
  | .trial _ => inferInstanceAs (Decidable True)

/-- The request evaluates rules. -/
def Request.Evaluates : Request → Prop
  | evaluateRules .. => True
  | _ => False

namespace Request

/-- What an engine does about a request. -/
def procedure (limits : Limits) : Request → Procedure Response
  | createRule id now input => do return .rule (← (Engine.createRule limits id now input).run)
  | updateRule id patch now => do return .rule (← (Engine.updateRule limits id patch now).run)
  | deleteRule id => do return .removal (← (Engine.deleteRule id).run)
  | evaluateRules objectType record today => do
      return .outcome (← (Engine.evaluateRules limits objectType record today).run)
  | tryExpression source record today =>
      return .trial (Engine.tryExpression limits source record today)

theorem procedure_createRule (limits : Limits) (id : Uuid) (now : Instant) (input : NewRule) :
    (createRule id now input).procedure limits = do
      match ← compile limits input.expression with
      | .error error => return .rule (.error error)
      | .ok _ => return .rule (← Procedure.call (.create id now input)) := by
  simp only [procedure, Engine.createRule, ExceptT.run_bind, Attempt.run_discard,
    Attempt.run_ofProcedure, bind_assoc, pure_bind]
  refine bind_congr fun compiled => ?_
  cases compiled <;> rfl

theorem procedure_updateRule_of_none (limits : Limits) (id : Uuid) {patch : RulePatch}
    (now : Instant) (absent : patch.expression = none) :
    (updateRule id patch now).procedure limits = do
      return .rule (← Procedure.call (.update id patch now)) := by
  simp only [procedure, Engine.updateRule, absent]
  rfl

theorem procedure_updateRule_of_some (limits : Limits) (id : Uuid) {patch : RulePatch}
    (now : Instant) {expression : String} (given : patch.expression = some expression) :
    (updateRule id patch now).procedure limits = do
      match ← compile limits expression with
      | .error error => return .rule (.error error)
      | .ok _ =>
        match (← Procedure.call (.get id) : Except RuleError Rule) with
        | .error error => return .rule (.error error)
        | .ok previous =>
          match (← Procedure.call (.update id patch now) : Except RuleError Rule) with
          | .error error => return .rule (.error error)
          | .ok rule =>
            if previous.expression ≠ rule.expression then
              let _ ← Procedure.call (.evict previous.expression)
            return .rule (.ok rule) := by
  simp only [procedure, Engine.updateRule, given, ExceptT.run_bind, Attempt.run_discard,
    Attempt.run_ofProcedure, bind_assoc, pure_bind]
  refine bind_congr fun compiled => ?_
  cases compiled with
  | error error => rfl
  | ok compiled =>
      simp only [Except.map, bind_assoc]
      refine bind_congr fun previous => ?_
      cases previous with
      | error error => rfl
      | ok previous =>
          simp only [bind_assoc]
          refine bind_congr fun rule => ?_
          cases rule with
          | error error => rfl
          | ok rule =>
              dsimp only
              split <;> rfl

theorem procedure_deleteRule (limits : Limits) (id : Uuid) :
    (deleteRule id).procedure limits = do
      match (← Procedure.call (.get id) : Except RuleError Rule) with
      | .error error => return .removal (.error error)
      | .ok previous =>
        match (← Procedure.call (.delete id) : Except RuleError Unit) with
        | .error error => return .removal (.error error)
        | .ok _ =>
          let _ ← Procedure.call (.evict previous.expression)
          return .removal (.ok ()) := by
  simp only [procedure, Engine.deleteRule, ExceptT.run_bind, bind_assoc]
  refine bind_congr fun previous => ?_
  cases previous with
  | error error => rfl
  | ok previous =>
      simp only [bind_assoc]
      refine bind_congr fun removed => ?_
      cases removed <;> rfl

theorem procedure_evaluateRules (limits : Limits) (objectType : String) (record : FieldRecord)
    (today : Date) :
    (evaluateRules objectType record today).procedure limits = do
      match (← Procedure.call (.listActive objectType) : Except RuleError (List Rule)) with
      | .error error => return .outcome (.error error)
      | .ok rules =>
        let outcome ← evaluateLoaded limits record today rules
        Procedure.call (.count (.evaluationDuration objectType))
        return .outcome (.ok outcome) := by
  simp only [procedure, Engine.evaluateRules, ExceptT.run_bind, bind_assoc]
  refine bind_congr fun rules => ?_
  cases rules with
  | error error => rfl
  | ok rules =>
      simp only [Attempt.run_liftM, bind_assoc, pure_bind]
      rfl

end Request
end Engine
end FormRules
