import FormRules.Proofs.Engine.Course
import FormRules.Proofs.Engine.Tally
import FormRules.Proofs.Engine.Trace

/-!
# What the counters of rules say

Whatever an engine has been through, its counters of rules tell what the evaluations of its course
have reported, and nothing but an evaluation moves them. Of a session this can be said while no
evaluation is between its rules and its end.
-/

namespace FormRules

open Engine

namespace Engine

/-! ## Evaluations -/

section Evaluations

variable {limits : Limits} {record : FieldRecord} {today : Date}

theorem counted_countAll {metrics : List Metric} {trace : List Exchange}
    (follows : (countAll metrics).Follows trace (.done ())) : counted trace = metrics := by
  induction metrics generalizing trace with
  | nil =>
      obtain ⟨rfl, -⟩ := Procedure.follows_pure_done follows
      rfl
  | cons metric rest induction =>
      obtain ⟨-, unfinished⟩ | ⟨answer, later, rfl, rest_follows⟩ :=
        Procedure.follows_call_bind follows
      · nomatch unfinished
      · rw [counted_cons, induction rest_follows]
        rfl

/-- The evaluation of a rule counts what its report tells. -/
theorem counted_evaluateRule {rule : Rule} {trace : List Exchange} {report : RuleReport}
    (follows : (evaluateRule limits record today rule).Follows trace (.done report)) :
    ∃ result, report = .ofResult rule result ∧
      counted trace = metricsOf rule.objectType result := by
  obtain ⟨compiling, behind, compiled, rfl, compiled_follows, rest⟩ :=
    Procedure.follows_bind_done follows
  obtain ⟨counting, last, ⟨⟩, rfl, counting_follows, reported⟩ :=
    Procedure.follows_bind_done rest
  obtain ⟨rfl, rfl⟩ := Procedure.follows_pure_done reported
  have silent := (silent_compile limits rule.expression).follows compiled_follows
  refine ⟨_, rfl, ?_⟩
  rw [counted_append, counted_eq_nil silent, List.append_nil, counted_countAll counting_follows]
  rfl

/-- The evaluation of rules counts what its reports tell. -/
theorem metered_evaluateLoaded {rules : List Rule} {trace : List Exchange}
    {outcome : EvaluationOutcome}
    (follows : (evaluateLoaded limits record today rules).Follows trace (.done outcome)) :
    Metered (counted trace) [⟨rules, outcome⟩] := by
  induction rules generalizing trace outcome with
  | nil =>
      obtain ⟨rfl, rfl⟩ := Procedure.follows_pure_done follows
      exact .noRules
  | cons rule rest induction =>
      obtain ⟨front, behind, report, rfl, first, others⟩ := Procedure.follows_bind_done follows
      obtain ⟨middle, last, others_outcome, rfl, others_follow, joined⟩ :=
        Procedure.follows_bind_done others
      obtain ⟨rfl, rfl⟩ := Procedure.follows_pure_done joined
      obtain ⟨result, rfl, counted_first⟩ := counted_evaluateRule first
      rw [List.append_nil, counted_append, counted_first]
      exact (induction others_follow).cons rule result

end Evaluations

/-! ## Requests -/

/-- The evaluation that has come to its end when a request has led to what is left of it. -/
def evaluation? : List Exchange → Procedure Response → Option Evaluation
  | ⟨.listActive _, .ok rules⟩ :: _, .done (.outcome (.ok outcome)) => some ⟨rules, outcome⟩
  | _, _ => none

/-- An evaluation has fetched its rules and not come to its end. -/
def isEvaluating : List Exchange → Procedure Response → Bool
  | ⟨.listActive _, .ok _⟩ :: _, .perform _ _ => true
  | _, _ => false

theorem isEvaluating_done (trace : List Exchange) (response : Response) :
    isEvaluating trace (.done response) = false := by
  unfold isEvaluating
  split
  case h_1 unfinished => nomatch unfinished
  case h_2 => rfl

theorem evaluation?_eq_none {trace : List Exchange}
    (silent : ∀ exchange ∈ trace, exchange.action.Silent) (rest : Procedure Response) :
    evaluation? trace rest = none := by
  cases trace with
  | nil => rfl
  | cons exchange later =>
      obtain ⟨action, answer⟩ := exchange
      have silent := silent _ List.mem_cons_self
      cases action with
      | listActive => exact silent.elim
      | _ => rfl

theorem silent_procedure (limits : Limits) {request : Request} (other : ¬ request.Evaluates) :
    (request.procedure limits).Within Action.Silent := by
  cases request with
  | createRule =>
      exact Procedure.within_bind (within_createRule_of (silent_compile limits _) trivial)
        fun _ => trivial
  | updateRule =>
      exact Procedure.within_bind
        (within_updateRule_of (silent_compile limits) trivial trivial fun _ => trivial)
        fun _ => trivial
  | deleteRule =>
      exact Procedure.within_bind (within_deleteRule_of trivial trivial fun _ => trivial)
        fun _ => trivial
  | evaluateRules => exact absurd trivial other
  | tryExpression => trivial

/-- What a request has counted is what its evaluation reports, unless that is under way. -/
theorem metered_request {limits : Limits} {request : Request} {trace : List Exchange}
    {rest : Procedure Response} (follows : (request.procedure limits).Follows trace rest)
    (settled : isEvaluating trace rest = false) :
    Metered (counted trace) (evaluation? trace rest).toList := by
  cases request with
  | evaluateRules objectType record today =>
      rw [Request.procedure_evaluateRules] at follows
      obtain ⟨rfl, rfl⟩ | ⟨listed, later, rfl, fetched⟩ := Procedure.follows_call_bind follows
      · exact .nil
      cases listed with
      | error error =>
          cases fetched
          exact .nil
      | ok rules =>
          cases rest with
          | perform => nomatch settled
          | done response =>
              obtain ⟨front, behind, outcome, rfl, evaluated, finished⟩ :=
                Procedure.follows_bind_done fetched
              obtain ⟨-, unfinished⟩ | ⟨answer, last, rfl, answered⟩ :=
                Procedure.follows_call_bind finished
              · nomatch unfinished
              obtain ⟨rfl, rfl⟩ := Procedure.follows_pure_done answered
              rw [counted_cons, counted_append]
              exact (metered_evaluateLoaded evaluated).duration objectType
  | _ =>
      have silent := (silent_procedure limits id).follows follows
      rw [counted_eq_nil silent, evaluation?_eq_none silent]
      exact .nil

/-! ## Sessions -/

namespace Session

variable {limits : Limits}

/-- Whatever was counted in a session was counted by one of its tasks. -/
theorem metrics_run (limits : Limits) (engine : Engine) (events : List Event) :
    (run limits engine events).engine.metrics.Perm
      ((run limits engine events).tasks.flatMap (counted ·.trace) ++ engine.metrics) := by
  induction events using List.reverseRecOn with
  | nil => exact .refl _
  | append_singleton events event induction =>
      rw [run_snoc]
      cases event with
      | arrive request =>
          simpa [after, Task.ofRequest, counted] using induction
      | turn place =>
          obtain same | ⟨task, action, resume, found, rest, next, continues, turned⟩ :=
            (run limits engine events).turn_cases place
          · rw [after, same]
            exact induction
          obtain ⟨inside, rfl⟩ := List.getElem?_eq_some_iff.1 found
          obtain ⟨front, back, tasks_eq, -, set_eq⟩ := @List.exists_of_set _ place next _ inside
          rw [after, turned, set_eq]
          refine List.perm_iff_count.2 fun metric => ?_
          have earlier := induction.count_eq metric
          rw [tasks_eq] at earlier
          simp only [metrics_perform, continues.trace, counted_append, counted_cons,
            List.flatMap_append, List.flatMap_cons, List.count_append] at earlier ⊢
          have nothing_behind : List.count metric (counted []) = 0 := rfl
          omega
      | invalidate source => exact induction
      | clearCache => exact induction

/-- What a session has counted is what its evaluations report, while none of them is under way. -/
theorem metered_run {engine : Engine} {events : List Event}
    (settled : ∀ task ∈ (run limits engine events).tasks,
      isEvaluating task.trace task.rest = false) :
    Metered ((run limits engine events).tasks.flatMap (counted ·.trace))
      ((run limits engine events).tasks.flatMap fun task =>
        (evaluation? task.trace task.rest).toList) := by
  generalize (run limits engine events).tasks = tasks at settled
  induction tasks with
  | nil => exact .nil
  | cons task rest induction =>
      obtain ⟨task_settled, rest_settled⟩ := List.forall_mem_cons.1 settled
      exact (metered_request task.follows task_settled).append (induction rest_settled)

end Session

/-! ## Courses -/

/-- The evaluations that a command comes to. -/
def evaluationsOf (limits : Limits) (engine : Engine) : Command → List Evaluation
  | .evaluateLoaded rules record today =>
      [⟨rules, ((evaluateLoaded limits record today rules).run engine).1⟩]
  | .evaluateRules objectType record today =>
      match (engine.store.listActive objectType).1,
        (Procedure.run engine (evaluateRules limits objectType record today).run).1 with
      | .ok rules, .ok outcome => [⟨rules, outcome⟩]
      | _, _ => []
  | _ => []

/-- The evaluations that come to their end in an episode. -/
def evaluationsIn (limits : Limits) (engine : Engine) : Episode → List Evaluation
  | .command command => evaluationsOf limits engine command
  | .session events =>
      (Session.run limits engine events).tasks.flatMap fun task =>
        (evaluation? task.trace task.rest).toList
  | .outages _ => []

/-- The evaluations that come to their end in a course. -/
def evaluationsAlong (limits : Limits) : Engine → List Episode → List Evaluation
  | _, [] => []
  | engine, episode :: rest =>
      evaluationsIn limits engine episode ++
        evaluationsAlong limits (undergo limits engine episode) rest

/-- An episode leaves no evaluation under way. -/
def Episode.Settles (limits : Limits) (engine : Engine) : Episode → Prop
  | session events =>
      ∀ task ∈ (Session.run limits engine events).tasks, isEvaluating task.trace task.rest = false
  | _ => True

instance (limits : Limits) (engine : Engine) : DecidablePred (Episode.Settles limits engine)
  | .command _ => inferInstanceAs (Decidable True)
  | .session events =>
      inferInstanceAs (Decidable (∀ task ∈ (Session.run limits engine events).tasks, _))
  | .outages _ => inferInstanceAs (Decidable True)

/-- No episode of a course leaves an evaluation under way. -/
def Settles (limits : Limits) : Engine → List Episode → Prop
  | _, [] => True
  | engine, episode :: rest =>
      episode.Settles limits engine ∧ Settles limits (undergo limits engine episode) rest

theorem metrics_run_of_silent {Result : Type} {procedure : Procedure Result}
    (silent : procedure.Within Action.Silent) (engine : Engine) :
    (procedure.run engine).2.metrics = engine.metrics := by
  have silent := silent.follows (procedure.follows_trace engine)
  rw [Procedure.metrics_run, counted_eq_nil silent]
  rfl

/-- A command that evaluates rules. -/
def Command.Evaluates : Command → Prop
  | evaluateRules .. | evaluateLoaded .. => True
  | _ => False

/-- A command that evaluates no rules counts nothing. -/
theorem metrics_execute (limits : Limits) (engine : Engine) {command : Command}
    (other : ¬ command.Evaluates) : (execute limits engine command).metrics = engine.metrics := by
  cases command with
  | createRule =>
      exact metrics_run_of_silent (within_createRule_of (silent_compile limits _) trivial) engine
  | updateRule =>
      exact metrics_run_of_silent
        (within_updateRule_of (silent_compile limits) trivial trivial fun _ => trivial) engine
  | deleteRule =>
      exact metrics_run_of_silent (within_deleteRule_of trivial trivial fun _ => trivial) engine
  | compile source => exact metrics_run_of_silent (silent_compile limits source) engine
  | evaluateRules => exact absurd trivial other
  | evaluateLoaded => exact absurd trivial other
  | _ => rfl

theorem run_procedure_evaluateRules (limits : Limits) (engine : Engine) (objectType : String)
    (record : FieldRecord) (today : Date) :
    ((Request.evaluateRules objectType record today).procedure limits).run engine =
      (.outcome (Procedure.run engine (evaluateRules limits objectType record today).run).1,
        execute limits engine (.evaluateRules objectType record today)) := by
  rw [Request.procedure, Procedure.run_bind, Procedure.run_pure]
  rfl

/-- Alone a request for an evaluation comes to the evaluation of the rules that are listed. -/
theorem evaluation?_evaluateRules (limits : Limits) (engine : Engine) (objectType : String)
    (record : FieldRecord) (today : Date) :
    let procedure := (Request.evaluateRules objectType record today).procedure limits
    (evaluation? (procedure.trace engine) (.done (procedure.run engine).1)).toList =
      evaluationsOf limits engine (.evaluateRules objectType record today) := by
  intro procedure
  have run_eq := run_procedure_evaluateRules limits engine objectType record today
  obtain ⟨later, trace_eq⟩ : ∃ later, procedure.trace engine =
      ⟨.listActive objectType, (engine.store.listActive objectType).1⟩ :: later := by
    rw [show procedure = _ from Request.procedure_evaluateRules limits objectType record today]
    exact ⟨_, rfl⟩
  rw [trace_eq, run_eq, evaluationsOf]
  generalize (engine.store.listActive objectType).1 = listed
  generalize (Procedure.run engine (evaluateRules limits objectType record today).run).1 = answered
  cases listed <;> cases answered <;> rfl

theorem metered_execute (limits : Limits) (engine : Engine) (command : Command) :
    ∃ log, (execute limits engine command).metrics = log ++ engine.metrics ∧
      Metered log (evaluationsOf limits engine command) := by
  cases command with
  | evaluateLoaded rules record today =>
      have evaluated := (evaluateLoaded limits record today rules).follows_trace engine
      exact ⟨_, Procedure.metrics_run engine _,
        (metered_evaluateLoaded evaluated).perm (List.reverse_perm _)⟩
  | evaluateRules objectType record today =>
      let procedure := (Request.evaluateRules objectType record today).procedure limits
      have served := metered_request (procedure.follows_trace engine) (isEvaluating_done _ _)
      rw [evaluation?_evaluateRules] at served
      have counts := procedure.metrics_run engine
      rw [run_procedure_evaluateRules] at counts
      exact ⟨_, counts, served.perm (List.reverse_perm _)⟩
  | _ => exact ⟨[], metrics_execute limits engine id, .nil⟩

theorem metered_undergo {limits : Limits} {engine : Engine} {episode : Episode}
    (settles : episode.Settles limits engine) :
    ∃ log, (undergo limits engine episode).metrics.Perm (log ++ engine.metrics) ∧
      Metered log (evaluationsIn limits engine episode) := by
  cases episode with
  | command command =>
      obtain ⟨log, counts, metered⟩ := metered_execute limits engine command
      exact ⟨log, .of_eq counts, metered⟩
  | session events =>
      exact ⟨_, Session.metrics_run limits engine events, Session.metered_run settles⟩
  | outages => exact ⟨[], .refl _, .nil⟩

theorem metered_along {limits : Limits} {engine : Engine} {course : List Episode}
    (settles : Settles limits engine course) :
    ∃ log, (course.foldl (undergo limits) engine).metrics.Perm (log ++ engine.metrics) ∧
      Metered log (evaluationsAlong limits engine course) := by
  induction course generalizing engine with
  | nil => exact ⟨[], .refl _, .nil⟩
  | cons episode rest induction =>
      obtain ⟨log, counts, metered⟩ := metered_undergo settles.1
      obtain ⟨later, later_counts, rest_metered⟩ := induction settles.2
      refine ⟨log ++ later, ?_, metered.append rest_metered⟩
      have swapped : (later ++ (log ++ engine.metrics)).Perm (log ++ later ++ engine.metrics) := by
        rw [← List.append_assoc]
        exact List.perm_append_comm.append_right engine.metrics
      exact (later_counts.trans (counts.append_left later)).trans swapped

/-- Evaluating a form does to an engine what evaluating its record does, or nothing. -/
theorem engine_evaluateForm (limits : Limits) (engine : Engine) (objectType : String) (form : Form)
    (today : Date) :
    (Procedure.run engine (evaluateForm limits objectType form today).run).2 =
      match FieldRecord.ofForm form with
      | .ok record => execute limits engine (.evaluateRules objectType record today)
      | .error _ => engine := by
  cases read : FieldRecord.ofForm form with
  | error error =>
      rw [evaluateForm, read]
      rfl
  | ok record =>
      have read_run : Procedure.run engine (ExceptT.run (ExceptT.mk (pure (.ok record)) :
          Attempt FieldRecord)) = (.ok record, engine) := rfl
      rw [evaluateForm, read, Attempt.run_bind, read_run]
      dsimp only
      rw [Attempt.run_bind, execute]
      rcases Procedure.run engine (evaluateRules limits objectType record today).run with
        ⟨error | outcome, after⟩ <;> rfl

/-- After any course of an engine its counters of rules are the numbers of reports, by object type
and verdict, and of diagnostics, by kind, that its evaluations have come to. For each object type
the three counters together are the number of reports. A command that evaluates no rules changes no
metric at all, and evaluating a form is evaluating its record, or nothing if the form is refused. -/
theorem afterCourse_metered {limits : Limits} {course : List Episode}
    (settles : Settles limits (start .empty) course) :
    Metered (afterCourse limits course).metrics (evaluationsAlong limits (start .empty) course) ∧
      (∀ objectType,
        (afterCourse limits course).metrics.total (.ruleEvaluation objectType .passed) +
          (afterCourse limits course).metrics.total (.ruleEvaluation objectType .fired) +
          (afterCourse limits course).metrics.total (.ruleEvaluation objectType .failed) =
            (reportsOn objectType (evaluationsAlong limits (start .empty) course)).length) ∧
      (∀ (engine : Engine) (command : Command), ¬ command.Evaluates →
        (execute limits engine command).metrics = engine.metrics) ∧
      ∀ (engine : Engine) (objectType : String) (form : Form) (today : Date),
        (Procedure.run engine (evaluateForm limits objectType form today).run).2 =
          match FieldRecord.ofForm form with
          | .ok record => execute limits engine (.evaluateRules objectType record today)
          | .error _ => engine := by
  obtain ⟨log, counts, metered⟩ := metered_along settles
  have whole : Metered (afterCourse limits course).metrics
      (evaluationsAlong limits (start .empty) course) :=
    metered.perm (counts.trans (.of_eq (List.append_nil log)))
  exact ⟨whole, whole.sum_verdicts, fun engine command => metrics_execute limits engine,
    engine_evaluateForm limits⟩

/-- A rule of an object type. -/
def ruleOn (objectType : String) (id : Uuid) (expression : String) : Rule :=
  ⟨id, objectType, expression, "No total.", true, none, ⟨0, 0⟩, ⟨0, 0⟩⟩

/-- A rule that divides by zero is evaluated while it is removed, and then a list of rules of two
object types. -/
def mixedCourse : List Episode :=
  [.command (.insertRule (ruleOn "Order" ⟨1⟩ "1 / 0 = 1")),
    .session ([.arrive (.evaluateRules "Order" .empty ⟨2026, 3, 14, by decide⟩),
      .arrive (.deleteRule ⟨1⟩)] ++ [0, 1, 0, 1, 1, 0, 0, 0, 0].map Event.turn),
    .command (.evaluateLoaded [ruleOn "Order" ⟨2⟩ "1 = 1", ruleOn "Invoice" ⟨3⟩ "1 = 2"] .empty
      ⟨2026, 3, 14, by decide⟩)]

theorem afterCourse_metered_mixed :
    let metrics := (afterCourse .standard mixedCourse).metrics
    Metered metrics (evaluationsAlong .standard (start .empty) mixedCourse) ∧
      metrics.total (.ruleEvaluation "Order" .failed) = 1 ∧
      metrics.total (.ruleEvaluation "Order" .fired) = 1 ∧
      metrics.total (.ruleEvaluation "Invoice" .passed) = 1 ∧
      metrics.total (.ruleFailure "EVAL_ERROR") = 1 := by
  have settles : Settles .standard (start .empty) mixedCourse :=
    ⟨trivial, by decide +kernel, trivial, trivial⟩
  exact ⟨(afterCourse_metered settles).1, by decide +kernel, by decide +kernel, by decide +kernel,
    by decide +kernel⟩

end Engine
end FormRules
