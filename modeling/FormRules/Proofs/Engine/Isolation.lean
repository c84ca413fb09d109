import FormRules.Proofs.Engine.Evaluation
import FormRules.Proofs.Engine.Session

/-!
# Isolation of concurrent requests

The cache of a session stays faithful whatever the requests do to it and to the store in between.
A call for the compiled form of an expression therefore comes, within two calls, to what the
expression compiles to anew, and an evaluation comes to the outcome of the one list of rules that it
fetched.
-/

namespace FormRules

open Engine

/-! ## Answers of a faithful cache -/

/-- Compiled expressions are given out under the texts that they were compiled from. -/
def Engine.Exchange.Faithful (limits : Limits) : Exchange → Prop
  | ⟨.lookUp source, some compiled⟩ => CompiledExpression.ofSource limits source = .ok compiled
  | ⟨.keep source _, compiled⟩ => CompiledExpression.ofSource limits source = .ok compiled
  | _ => True

namespace Cache

theorem lookUp_faithful {limits : Limits} {cache : Cache} (faithful : cache.Faithful limits)
    (source : String) : Exchange.Faithful limits ⟨.lookUp source, (cache.lookUp source).1⟩ := by
  unfold lookUp
  cases found : cache.entries[source]? with
  | none => trivial
  | some compiled => exact faithful source compiled found

theorem keep_faithful {limits : Limits} {cache : Cache} (faithful : cache.Faithful limits)
    {source : String} {compiled : CompiledExpression}
    (compiles : CompiledExpression.ofSource limits source = .ok compiled) :
    Exchange.Faithful limits ⟨.keep source compiled, (cache.keep source compiled).1⟩ := by
  unfold keep
  cases found : cache.entries[source]? with
  | none => exact compiles
  | some present => exact faithful source present found

end Cache

namespace Engine

theorem answer_faithful {limits : Limits} (engine : Engine) (action : Action)
    (allowed : action.Faithful limits) (faithful : engine.cache.Faithful limits) :
    Exchange.Faithful limits ⟨action, (engine.perform action).1⟩ := by
  cases action with
  | lookUp source => exact Cache.lookUp_faithful faithful source
  | keep source compiled => exact Cache.keep_faithful faithful allowed
  | _ => trivial

theorem faithful_procedure (limits : Limits) (request : Request) :
    (request.procedure limits).Within (Action.Faithful limits) := by
  cases request with
  | createRule id now input =>
      exact Procedure.within_bind (within_createRule limits id now input) fun _ =>
        Procedure.within_pure _ _
  | updateRule id patch now =>
      exact Procedure.within_bind (within_updateRule limits id patch now) fun _ =>
        Procedure.within_pure _ _
  | deleteRule id =>
      exact Procedure.within_bind (within_deleteRule limits id) fun _ => Procedure.within_pure _ _
  | evaluateRules objectType record today =>
      exact Procedure.within_bind (within_evaluateRules limits objectType record today) fun _ =>
        Procedure.within_pure _ _
  | tryExpression => exact Procedure.within_pure _ _

/-! ## What comes of faithful answers -/

theorem abides_compile (limits : Limits) (source : String) (trace : List Exchange) :
    (compile limits source).Abides (Exchange.Faithful limits) (fun _ _ => True)
      (fun _ result => result = CompiledExpression.ofSource limits source) trace := by
  have looks : (Procedure.call (.lookUp source)).Abides (Exchange.Faithful limits)
      (fun _ _ => True) (fun _ found => Exchange.Faithful limits ⟨.lookUp source, found⟩) trace :=
    ⟨trivial, fun _ relied => relied⟩
  refine Procedure.abides_bind looks fun trace found faithful => ?_
  split
  case h_1 compiled => exact Procedure.abides_pure (Eq.symm faithful)
  case h_2 =>
    split
    case h_1 error fails => exact Procedure.abides_pure fails.symm
    case h_2 compiled compiles =>
      have keeps : (Procedure.call (.keep source compiled)).Abides (Exchange.Faithful limits)
          (fun _ _ => True)
          (fun _ present => CompiledExpression.ofSource limits source = .ok present) trace :=
        ⟨trivial, fun _ relied => relied⟩
      exact Procedure.abides_bind keeps fun trace present kept =>
        Procedure.abides_pure kept.symm

theorem abides_countAll (limits : Limits) (metrics : List Metric) (trace : List Exchange) :
    (countAll metrics).Abides (Exchange.Faithful limits) (fun _ _ => True) (fun _ _ => True)
      trace := by
  induction metrics generalizing trace with
  | nil => trivial
  | cons metric rest induction => exact ⟨trivial, fun _ _ => induction _⟩

theorem abides_evaluateRule (limits : Limits) (record : FieldRecord) (today : Date) (rule : Rule)
    (trace : List Exchange) :
    (evaluateRule limits record today rule).Abides (Exchange.Faithful limits) (fun _ _ => True)
      (fun _ report => report = .ofResult rule (verdict limits record today rule)) trace := by
  refine Procedure.abides_bind (abides_compile limits rule.expression trace)
    fun trace compiled compiled_eq => ?_
  refine Procedure.abides_bind (abides_countAll limits _ trace) fun trace _ _ => ?_
  apply Procedure.abides_pure
  rw [compiled_eq]
  rfl

theorem abides_evaluateLoaded (limits : Limits) (record : FieldRecord) (today : Date)
    (rules : List Rule) (trace : List Exchange) :
    (evaluateLoaded limits record today rules).Abides (Exchange.Faithful limits)
      (fun _ _ => True) (fun _ outcome => outcome = outcomeOf limits record today rules)
      trace := by
  induction rules generalizing trace with
  | nil => rfl
  | cons rule rest induction =>
      refine Procedure.abides_bind (abides_evaluateRule limits record today rule trace)
        fun trace report report_eq => ?_
      refine Procedure.abides_bind (induction trace) fun trace outcome outcome_eq => ?_
      apply Procedure.abides_pure
      rw [report_eq, outcome_eq]
      rfl

/-! ## How many calls there are -/

theorem callsAtMost_compile (limits : Limits) (source : String) :
    (compile limits source).CallsAtMost (1 + 1) := by
  refine Procedure.callsAtMost_bind (Procedure.callsAtMost_call _) fun found => ?_
  split
  · exact Procedure.callsAtMost_pure 1 _
  · split
    · exact Procedure.callsAtMost_pure 1 _
    · exact fun _ => trivial

theorem callsAtMost_countAll (metrics : List Metric) :
    (countAll metrics).CallsAtMost metrics.length := by
  induction metrics with
  | nil => trivial
  | cons metric rest induction => exact fun _ => induction

theorem length_metricsOf_le (objectType : String) (result : Except RuleError Bool) :
    (metricsOf objectType result).length ≤ 2 := by
  rcases result with error | fired
  · exact Nat.le_refl 2
  · cases fired <;> exact Nat.le_succ 1

theorem callsAtMost_evaluateRule (limits : Limits) (record : FieldRecord) (today : Date)
    (rule : Rule) : (evaluateRule limits record today rule).CallsAtMost (2 + (2 + 0)) := by
  refine Procedure.callsAtMost_bind (callsAtMost_compile limits rule.expression) fun compiled => ?_
  refine Procedure.callsAtMost_bind ?_ fun _ => Procedure.callsAtMost_pure 0 _
  exact (callsAtMost_countAll _).mono (length_metricsOf_le _ _)

/-- At most four calls for each rule: two for its expression and two to count. -/
theorem callsAtMost_evaluateLoaded (limits : Limits) (record : FieldRecord) (today : Date)
    (rules : List Rule) :
    (evaluateLoaded limits record today rules).CallsAtMost (4 * rules.length) := by
  induction rules with
  | nil => trivial
  | cons rule rest induction =>
      have both := Procedure.callsAtMost_bind
        (callsAtMost_evaluateRule limits record today rule) fun report =>
          Procedure.callsAtMost_bind induction fun outcome =>
            Procedure.callsAtMost_pure 0 (outcome.cons rule report)
      refine both.mono ?_
      simp only [List.length_cons]
      omega

/-! ## Requests among others -/

/-- A call of the store. -/
def Action.UsesStore : Action → Prop
  | .lookUp _ | .keep _ _ | .evict _ | .count _ => False
  | _ => True

theorem Action.Compiles.spares {limits : Limits} {source : String} {action : Action}
    (compiles : action.Compiles limits source) : ¬ action.UsesStore := by
  cases action with
  | lookUp => exact id
  | keep => exact id
  | _ => exact compiles.elim

theorem Action.Evaluates.spares {limits : Limits} {rules : List Rule} {action : Action}
    (evaluates : action.Evaluates limits rules) : ¬ action.UsesStore := by
  cases action with
  | lookUp => exact id
  | keep => exact id
  | count => exact id
  | _ => exact evaluates.elim

/-- What an evaluation does once it has fetched the rules. -/
def evaluateFetched (limits : Limits) (objectType : String) (record : FieldRecord) (today : Date)
    (rules : List Rule) : Procedure Response := do
  let outcome ← evaluateLoaded limits record today rules
  Procedure.call (.count (.evaluationDuration objectType))
  return .outcome (.ok outcome)

section Fetched

variable (limits : Limits) (objectType : String) (record : FieldRecord) (today : Date)
  (rules : List Rule)

theorem within_evaluateFetched :
    (evaluateFetched limits objectType record today rules).Within
      (Action.Evaluates limits rules) := by
  refine Procedure.within_bind (within_evaluateLoaded limits record today rules) fun outcome => ?_
  exact Procedure.within_bind (Procedure.within_call trivial) fun _ => Procedure.within_pure _ _

theorem evaluateFetched_spares :
    (evaluateFetched limits objectType record today rules).Within fun action =>
      ¬ action.UsesStore :=
  (within_evaluateFetched limits objectType record today rules).mono fun _ evaluates =>
    evaluates.spares

theorem callsAtMost_evaluateFetched :
    (evaluateFetched limits objectType record today rules).CallsAtMost
      (4 * rules.length + (1 + 0)) := by
  refine Procedure.callsAtMost_bind (callsAtMost_evaluateLoaded limits record today rules)
    fun outcome => ?_
  exact Procedure.callsAtMost_bind (Procedure.callsAtMost_call _) fun _ =>
    Procedure.callsAtMost_pure 0 _

theorem abides_evaluateFetched (trace : List Exchange) :
    (evaluateFetched limits objectType record today rules).Abides (Exchange.Faithful limits)
      (fun _ _ => True)
      (fun _ response => response = .outcome (.ok (outcomeOf limits record today rules)))
      trace := by
  refine Procedure.abides_bind (abides_evaluateLoaded limits record today rules trace)
    fun trace outcome outcome_eq => ?_
  exact ⟨trivial, fun _ _ => congrArg (fun outcome => Response.outcome (.ok outcome)) outcome_eq⟩

end Fetched

namespace Task

variable {limits : Limits}

/-- Wherever a request calls for the compiled form of an expression, it is still about that within
two calls, or it went on with what the expression compiles to anew. -/
def CompilesAnew (task : Task limits) : Prop :=
  ∀ (front back : List Exchange) (source : String)
    (next : Except RuleError CompiledExpression → Procedure Response),
    task.trace = front ++ back →
    (task.request.procedure limits).Follows front (compile limits source >>= next) →
      (back.length < 2 ∧
        ∃ action resume, (compile limits source).Follows back (.perform action resume)) ∨
      ∃ called later, back = called ++ later ∧
        (compile limits source).Follows called
          (.done (CompiledExpression.ofSource limits source)) ∧
        (next (CompiledExpression.ofSource limits source)).Follows later task.rest

/-- An evaluation fetches the rules once. It makes at most four calls for each of them and one
more, none of them to the store, and comes to the outcome of the fetched rules. -/
def EvaluatesFetched (task : Task limits) : Prop :=
  ∀ objectType record today, task.request = .evaluateRules objectType record today →
    (task.trace = [] ∧ ∃ resume, task.rest = .perform (.listActive objectType) resume) ∨
    ∃ fetched later, task.trace = ⟨.listActive objectType, fetched⟩ :: later ∧
      (∀ exchange ∈ later, ¬ exchange.action.UsesStore) ∧
      match task.rest with
      | .done response => response = .outcome (fetched.map (outcomeOf limits record today))
      | .perform _ _ => ∃ rules, fetched = .ok rules ∧ later.length < 4 * rules.length + 1

theorem compilesAnew_of_faithful {task : Task limits}
    (faithful : ∀ exchange ∈ task.trace, exchange.Faithful limits) : task.CompilesAnew := by
  intro front back source next trace calls
  have whole := task.follows
  rw [trace] at whole faithful
  rw [List.forall_mem_append] at faithful
  obtain ⟨action, resume, inside⟩ | ⟨called, later, result, rfl, ended, rest⟩ :=
    Procedure.follows_bind (calls.split whole)
  · exact .inl ⟨(callsAtMost_compile limits source).length_lt inside, action, resume, inside⟩
  · rw [List.forall_mem_append] at faithful
    have result_eq : result = CompiledExpression.ofSource limits source :=
      (abides_compile limits source []).follows ended faithful.2.1
    subst result_eq
    exact .inr ⟨called, later, rfl, ended, rest⟩

theorem evaluatesFetched_of_faithful {task : Task limits}
    (faithful : ∀ exchange ∈ task.trace, exchange.Faithful limits) : task.EvaluatesFetched := by
  intro objectType record today request
  have whole := task.follows
  rw [request, Request.procedure_evaluateRules] at whole
  obtain ⟨unbegun, rest_eq⟩ | ⟨fetched, later, trace, follows⟩ :=
    Procedure.follows_call_bind whole
  · exact .inl ⟨unbegun, _, rest_eq⟩
  refine .inr ⟨fetched, later, trace, ?_⟩
  rw [trace, List.forall_mem_cons] at faithful
  generalize task.rest = rest at follows ⊢
  cases fetched with
  | error error =>
      cases follows
      exact ⟨by simp, rfl⟩
  | ok rules =>
      change (evaluateFetched limits objectType record today rules).Follows later rest at follows
      refine ⟨(evaluateFetched_spares limits objectType record today rules).follows follows, ?_⟩
      cases rest with
      | done response =>
          exact (abides_evaluateFetched limits objectType record today rules []).follows follows
            faithful.2
      | perform action resume =>
          have bounded := callsAtMost_evaluateFetched limits objectType record today rules
          exact ⟨rules, rfl, bounded.length_lt follows⟩

end Task

/-- However the requests of a session take turns, and whatever is dropped from its cache meanwhile,
each entry of the cache is what its text compiles to, each request goes on with what its expressions
compile to anew, and each evaluation comes to the outcome of the rules that it fetched. -/
theorem session_isolates (limits : Limits) (store : Store) (events : List Event) :
    (Session.run limits (start store) events).engine.cache.Faithful limits ∧
      ∀ task ∈ (Session.run limits (start store) events).tasks,
        task.CompilesAnew ∧ task.EvaluatesFetched := by
  have step (engine : Engine) (action : Action) (allowed : action.Faithful limits)
      (faithful : engine.cache.Faithful limits) :
      (engine.perform action).2.cache.Faithful limits ∧
        Exchange.Faithful limits ⟨action, (engine.perform action).1⟩ :=
    ⟨faithful_perform engine action allowed faithful,
      answer_faithful engine action allowed faithful⟩
  have abides (request : Request) (_ : Event.arrive request ∈ events) :
      (request.procedure limits).Abides (Exchange.Faithful limits)
        (fun _ action => action.Faithful limits) (fun _ _ => True) [] :=
    (faithful_procedure limits request).abides.mono (fun _ relied => relied)
      (fun _ _ allowed => allowed.1) fun _ _ _ => trivial
  have initial : (start store).cache.Faithful limits := Cache.faithful_empty limits
  obtain ⟨faithful, answers⟩ := Session.run_invariant step (fun _ => trivial)
    (fun engine _ => Cache.faithful_clear limits engine.cache) initial abides
  refine ⟨faithful, fun task member => ?_⟩
  exact ⟨Task.compilesAnew_of_faithful (answers task member),
    Task.evaluatesFetched_of_faithful (answers task member)⟩

end Engine
end FormRules
