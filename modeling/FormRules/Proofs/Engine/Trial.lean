import Mathlib.Data.List.Forall2
import FormRules.Proofs.Engine.Course

/-!
# Trials agree with evaluations

An expression on trial is compiled anew, an expression of a rule comes through the cache. As the
cache of an engine is faithful whatever its course was, both come to the same verdict, and where
there is none, the trial tells the error that the diagnostic of the rule carries.
-/

namespace FormRules

/-- A trial tells of a result what a report on a rule does. -/
theorem TrialResult.ofResult_eq (rule : Rule) (result : Except RuleError Bool) :
    ofResult result =
      ⟨(RuleReport.ofResult rule result).fired,
        (RuleReport.ofResult rule result).diagnostic.map (·.message)⟩ := by
  cases result <;> rfl

namespace Engine

theorem reports_outcomeOf (limits : Limits) (record : FieldRecord) (today : Date)
    (rules : List Rule) :
    (outcomeOf limits record today rules).reports =
      rules.map fun rule => .ofResult rule (verdict limits record today rule) := by
  induction rules with
  | nil => rfl
  | cons rule rest induction =>
      rw [List.map_cons, ← induction]
      rfl

/-- Whatever the course of an engine was, trying the expression of a rule fires exactly if the
report says so that evaluating the rule on the same engine makes, tells the message of its
diagnostic, and leaves the engine with all its rules, cached expressions and counts as it was. -/
theorem tryExpression_agrees (limits : Limits) (course : List Episode) (rules : List Rule)
    (record : FieldRecord) (today : Date) :
    List.Forall₂
      (fun rule (report : RuleReport) =>
        ((Request.tryExpression rule.expression record today).procedure limits).run
            (afterCourse limits course) =
          (.trial ⟨report.fired, report.diagnostic.map (·.message)⟩, afterCourse limits course))
      rules
      ((evaluateLoaded limits record today rules).run (afterCourse limits course)).1.reports := by
  have faithful := (sound_afterCourse limits course).faithful
  rw [run_evaluateLoaded faithful, reports_outcomeOf, List.forall₂_map_right_iff,
    List.forall₂_same]
  intro rule _
  have agrees := TrialResult.ofResult_eq rule (verdict limits record today rule)
  rw [← agrees]
  rfl

end Engine
end FormRules
