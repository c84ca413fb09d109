import Mathlib.Data.List.Forall2
import FormRules.Engine

/-!
# Counters of rules and reports

An evaluation reports on each of its rules. The counters of rules agree with some evaluations if
each rule is counted under its own object type and the verdict of its report, and each diagnostic
under its kind. Counters that agree may be added up, and then for each object type the three of them
together are the number of reports.
-/

namespace FormRules

open Engine

/-! ## Reports -/

/-- A report is one of those that a verdict counts. -/
def RuleReport.hasVerdict (report : RuleReport) : Verdict → Bool
  | .passed => !report.fired
  | .fired => report.fired && report.diagnostic.isNone
  | .failed => report.diagnostic.isSome

/-- A report is about a rule, which fires if there is a diagnostic. -/
structure RuleReport.IsAbout (report : RuleReport) (rule : Rule) : Prop where
  ruleId : report.ruleId = rule.id
  fired : report.diagnostic.isSome → report.fired

theorem RuleReport.isAbout_ofResult (rule : Rule) (result : Except RuleError Bool) :
    (ofResult rule result).IsAbout rule := by
  cases result with
  | ok fired => exact ⟨rfl, nofun⟩
  | error error => exact ⟨rfl, fun _ => rfl⟩

/-- Each report has exactly one verdict. -/
theorem RuleReport.IsAbout.one_verdict {report : RuleReport} {rule : Rule}
    (about : report.IsAbout rule) :
    (if report.hasVerdict .passed then 1 else 0) + (if report.hasVerdict .fired then 1 else 0) +
      (if report.hasVerdict .failed then 1 else 0) = 1 := by
  have fires := about.fired
  obtain ⟨ruleId, fired, diagnostic⟩ := report
  cases fired <;> cases diagnostic <;> simp_all [hasVerdict]

namespace Engine

/-- One evaluation of rules. -/
structure Evaluation where
  /-- The rules that were evaluated, in their order. -/
  rules : List Rule
  outcome : EvaluationOutcome

namespace Evaluation

/-- The rules with the reports on them. -/
def reported (evaluation : Evaluation) : List (Rule × RuleReport) :=
  evaluation.rules.zip evaluation.outcome.reports

/-- There is one report on each rule, in the order of the rules. -/
def Complete (evaluation : Evaluation) : Prop :=
  List.Forall₂ (fun rule (report : RuleReport) => report.IsAbout rule) evaluation.rules
    evaluation.outcome.reports

end Evaluation

/-- The reports of some evaluations on rules of an object type. -/
def reportsOn (objectType : String) (evaluations : List Evaluation) : List RuleReport :=
  ((evaluations.flatMap Evaluation.reported).filter (·.1.objectType = objectType)).map (·.2)

/-- The counters of rules tell what some evaluations have reported. -/
structure Metered (log : MetricLog) (evaluations : List Evaluation) : Prop where
  complete : ∀ evaluation ∈ evaluations, evaluation.Complete
  verdicts : ∀ objectType verdict, log.total (.ruleEvaluation objectType verdict) =
    (reportsOn objectType evaluations).countP (·.hasVerdict verdict)
  failures : ∀ kind, log.total (.ruleFailure kind) =
    (evaluations.flatMap (·.outcome.diagnostics)).countP (·.kind = kind)

theorem reportsOn_append (objectType : String) (front back : List Evaluation) :
    reportsOn objectType (front ++ back) =
      reportsOn objectType front ++ reportsOn objectType back := by
  simp [reportsOn]

theorem reportsOn_cons (objectType : String) (rule : Rule) (rest : List Rule)
    (report : RuleReport) (outcome : EvaluationOutcome) :
    reportsOn objectType [⟨rule :: rest, outcome.cons rule report⟩] =
      (if rule.objectType = objectType then [report] else []) ++
        reportsOn objectType [⟨rest, outcome⟩] := by
  by_cases same : rule.objectType = objectType <;>
    simp [reportsOn, Evaluation.reported, EvaluationOutcome.cons, same]

namespace Metered

variable {log later : MetricLog} {evaluations others : List Evaluation}

theorem nil : Metered [] [] where
  complete := by simp
  verdicts _ _ := rfl
  failures _ := rfl

theorem append (first : Metered log evaluations) (second : Metered later others) :
    Metered (log ++ later) (evaluations ++ others) where
  complete evaluation member :=
    (List.mem_append.1 member).elim (first.complete evaluation) (second.complete evaluation)
  verdicts objectType verdict := by
    have counted := first.verdicts objectType verdict
    have counted_later := second.verdicts objectType verdict
    simp only [MetricLog.total] at counted counted_later ⊢
    rw [List.count_append, counted, counted_later, reportsOn_append, List.countP_append]
  failures kind := by
    have counted := first.failures kind
    have counted_later := second.failures kind
    simp only [MetricLog.total] at counted counted_later ⊢
    rw [List.count_append, counted, counted_later, List.flatMap_append, List.countP_append]

/-- The order in which things were counted does not matter. -/
theorem perm (metered : Metered log evaluations) (same : later.Perm log) :
    Metered later evaluations where
  complete := metered.complete
  verdicts objectType verdict :=
    (same.count_eq _).trans (metered.verdicts objectType verdict)
  failures kind := (same.count_eq _).trans (metered.failures kind)

/-- The time that an evaluation takes is counted apart from its rules. -/
theorem duration (metered : Metered log evaluations) (objectType : String) :
    Metered (log ++ [.evaluationDuration objectType]) evaluations where
  complete := metered.complete
  verdicts other verdict := by
    rw [← metered.verdicts other verdict]
    simp [MetricLog.total]
  failures kind := by
    rw [← metered.failures kind]
    simp [MetricLog.total]

theorem noRules : Metered [] [⟨[], .empty⟩] where
  complete := by simp [Evaluation.Complete, EvaluationOutcome.empty]
  verdicts _ _ := rfl
  failures _ := rfl

/-- One more rule is counted under its object type and the verdict of its report, and under the
kind of its error if it has one. -/
theorem cons {rest : List Rule} {outcome : EvaluationOutcome}
    (metered : Metered log [⟨rest, outcome⟩]) (rule : Rule) (result : Except RuleError Bool) :
    Metered (metricsOf rule.objectType result ++ log)
      [⟨rule :: rest, outcome.cons rule (.ofResult rule result)⟩] where
  complete := by
    have complete : Evaluation.Complete ⟨rest, outcome⟩ :=
      metered.complete _ (List.mem_singleton_self _)
    intro evaluation member
    obtain rfl := List.mem_singleton.1 member
    exact .cons (RuleReport.isAbout_ofResult rule result) complete
  verdicts objectType verdict := by
    rw [reportsOn_cons, List.countP_append, ← metered.verdicts objectType verdict]
    simp only [MetricLog.total]
    rw [List.count_append]
    congr 1
    by_cases same : rule.objectType = objectType
    · rcases result with error | (_ | _) <;> cases verdict <;>
        simp [metricsOf, same, RuleReport.ofResult, RuleReport.hasVerdict]
    · rcases result with error | (_ | _) <;> simp [metricsOf, same]
  failures kind := by
    have counted := metered.failures kind
    simp only [MetricLog.total] at counted ⊢
    rw [List.count_append, counted]
    rcases result with error | (_ | _)
    · by_cases same : error.kind = kind <;>
        simp [metricsOf, same, RuleReport.ofResult, EvaluationOutcome.cons,
          EvaluationOutcome.diagnostics, Nat.add_comm]
    · simp [metricsOf, RuleReport.ofResult, EvaluationOutcome.cons, EvaluationOutcome.diagnostics]
    · simp [metricsOf, RuleReport.ofResult, EvaluationOutcome.cons, EvaluationOutcome.diagnostics]

/-- For each object type the three counters together are the number of reports. -/
theorem sum_verdicts (metered : Metered log evaluations) (objectType : String) :
    log.total (.ruleEvaluation objectType .passed) + log.total (.ruleEvaluation objectType .fired) +
      log.total (.ruleEvaluation objectType .failed) =
        (reportsOn objectType evaluations).length := by
  have about : ∀ report ∈ reportsOn objectType evaluations, ∃ rule, report.IsAbout rule := by
    intro report member
    obtain ⟨⟨rule, _⟩, kept, rfl⟩ := List.mem_map.1 member
    obtain ⟨evaluation, evaluated, together⟩ := List.mem_flatMap.1 (List.mem_filter.1 kept).1
    have complete := List.forall₂_iff_zip.1 (metered.complete evaluation evaluated)
    exact ⟨rule, complete.2 together⟩
  rw [metered.verdicts, metered.verdicts, metered.verdicts]
  generalize reportsOn objectType evaluations = reports at about
  induction reports with
  | nil => rfl
  | cons report rest induction =>
      obtain ⟨⟨rule, one⟩, others⟩ := List.forall_mem_cons.1 about
      have one := RuleReport.IsAbout.one_verdict one
      have rest_sum := induction others
      simp only [List.countP_cons, List.length_cons]
      omega

end Metered

end Engine
end FormRules
