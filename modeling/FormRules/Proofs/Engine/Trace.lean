import FormRules.Proofs.Engine.Contract
import FormRules.Proofs.Engine.Evaluation

/-!
# What is counted along a trace

A procedure that runs alone leaves a trace of its calls and their answers, and adds to the metrics
what it counts on the way. Only evaluations list the active rules or count.
-/

namespace FormRules

open Engine

namespace Engine

/-- What a call counts. -/
def Action.counted? : Action → Option Metric
  | .count metric => some metric
  | _ => none

/-- What was counted along a trace, the first count first. -/
def counted (trace : List Exchange) : MetricLog :=
  trace.filterMap (·.action.counted?)

theorem metrics_perform (engine : Engine) (action : Action) :
    (engine.perform action).2.metrics = action.counted?.toList ++ engine.metrics := by
  cases action <;> rfl

theorem counted_cons (exchange : Exchange) (trace : List Exchange) :
    counted (exchange :: trace) = exchange.action.counted?.toList ++ counted trace := by
  rw [counted, List.filterMap_cons]
  cases exchange.action.counted? <;> rfl

theorem counted_append (front back : List Exchange) :
    counted (front ++ back) = counted front ++ counted back :=
  List.filterMap_append

/-- A call that neither counts nor lists the active rules, as evaluations do. -/
def Action.Silent : Action → Prop
  | .listActive _ | .count _ => False
  | _ => True

theorem counted_eq_nil {trace : List Exchange}
    (silent : ∀ exchange ∈ trace, exchange.action.Silent) : counted trace = [] := by
  refine List.filterMap_eq_nil_iff.2 fun exchange member => ?_
  have silent := silent exchange member
  cases action : exchange.action with
  | count => simp [action, Action.Silent] at silent
  | _ => rfl

theorem Action.Compiles.silent {limits : Limits} {source : String} {action : Action}
    (compiles : action.Compiles limits source) : action.Silent := by
  cases action with
  | lookUp => trivial
  | keep => trivial
  | _ => exact compiles.elim

theorem silent_compile (limits : Limits) (source : String) :
    (compile limits source).Within Action.Silent :=
  (within_compile limits source).mono fun _ compiles => compiles.silent

end Engine

namespace Procedure

variable {Result First Second : Type}

/-- The calls that a procedure makes alone and the answers that it gets. -/
def trace (engine : Engine) : Procedure Result → List Exchange
  | done _ => []
  | perform action resume =>
      ⟨action, (engine.perform action).1⟩ ::
        (resume (engine.perform action).1).trace (engine.perform action).2

theorem follows_trace (engine : Engine) (procedure : Procedure Result) :
    procedure.Follows (procedure.trace engine) (.done (procedure.run engine).1) := by
  induction procedure generalizing engine with
  | done result => exact .nothing _
  | perform action resume induction => exact .call (induction _ _)

/-- Alone a procedure adds to the metrics what it counts. -/
theorem metrics_run (engine : Engine) (procedure : Procedure Result) :
    (procedure.run engine).2.metrics =
      (counted (procedure.trace engine)).reverse ++ engine.metrics := by
  induction procedure generalizing engine with
  | done result => rfl
  | perform action resume induction =>
      rw [trace, counted_cons, List.reverse_append, List.append_assoc]
      refine (induction (engine.perform action).1 (engine.perform action).2).trans ?_
      rw [metrics_perform]
      cases action.counted? <;> rfl

/-- A procedure in two parts that has come to its result went from the first part to the second. -/
theorem follows_bind_done {first : Procedure First} {next : First → Procedure Second}
    {trace : List Exchange} {result : Second}
    (follows : (first >>= next).Follows trace (done result)) :
    ∃ front back middle, trace = front ++ back ∧ first.Follows front (done middle) ∧
      (next middle).Follows back (done result) := by
  induction first generalizing trace with
  | done middle => exact ⟨[], trace, middle, rfl, .nothing _, follows⟩
  | perform action resume induction =>
      cases follows with
      | call follows =>
          obtain ⟨front, back, middle, rfl, ended, rest⟩ := induction _ follows
          exact ⟨_ :: front, back, middle, rfl, .call ended, rest⟩

theorem follows_pure_done {result last : Result} {trace : List Exchange}
    (follows : (pure result : Procedure Result).Follows trace (done last)) :
    trace = [] ∧ last = result := by
  cases follows with
  | nothing => exact ⟨rfl, rfl⟩

end Procedure

end FormRules
