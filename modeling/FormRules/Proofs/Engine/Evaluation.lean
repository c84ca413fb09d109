import FormRules.Engine
import FormRules.Proofs.Engine.Calls

/-!
# Evaluation through the compile cache

A cache is faithful to the limits of an engine if each of its entries is what its text compiles to.
Every procedure of the engine keeps the cache faithful, and on a faithful cache compiling an
expression comes to the same as compiling it anew. The outcome of evaluating rules is then fixed by
the rules, the record and the date.
-/

namespace FormRules

/-- Every entry is what its text compiles to. -/
def Cache.Faithful (limits : Limits) (cache : Cache) : Prop :=
  ∀ (source : String) (compiled : CompiledExpression), cache.entries[source]? = some compiled →
    CompiledExpression.ofSource limits source = .ok compiled

namespace Cache

theorem faithful_empty (limits : Limits) : empty.Faithful limits := by
  intro source compiled found
  simp [empty] at found

theorem faithful_clear (limits : Limits) (cache : Cache) : cache.clear.Faithful limits := by
  intro source compiled found
  simp [clear] at found

theorem faithful_lookUp {limits : Limits} {cache : Cache} (faithful : cache.Faithful limits)
    (source : String) : (cache.lookUp source).2.Faithful limits := by
  unfold lookUp
  split <;> exact faithful

theorem faithful_evict {limits : Limits} {cache : Cache} (faithful : cache.Faithful limits)
    (source : String) : (cache.evict source).2.Faithful limits := by
  intro other compiled found
  simp only [evict, Std.TreeMap.getElem?_erase] at found
  split at found
  · simp at found
  · exact faithful other compiled found

theorem faithful_keep {limits : Limits} {cache : Cache} (faithful : cache.Faithful limits)
    {source : String} {compiled : CompiledExpression}
    (compiles : CompiledExpression.ofSource limits source = .ok compiled) :
    (cache.keep source compiled).2.Faithful limits := by
  unfold keep
  split
  · exact faithful
  · intro other found_compiled found
    simp only [Std.TreeMap.getElem?_insert] at found
    split at found
    case isTrue same =>
      obtain rfl := Option.some.inj found
      rwa [← Std.LawfulEqCmp.eq_of_compare same]
    case isFalse => exact faithful other found_compiled found

end Cache

namespace Engine

/-- A call that keeps a compiled expression keeps it under the text that it was compiled from. -/
def Action.Faithful (limits : Limits) : Action → Prop
  | .keep source compiled => CompiledExpression.ofSource limits source = .ok compiled
  | _ => True

theorem faithful_perform {limits : Limits} (engine : Engine) (action : Action)
    (allowed : action.Faithful limits) (faithful : engine.cache.Faithful limits) :
    (engine.perform action).2.cache.Faithful limits := by
  cases action with
  | lookUp source => exact Cache.faithful_lookUp faithful source
  | keep source compiled => exact Cache.faithful_keep faithful allowed
  | evict source => exact Cache.faithful_evict faithful source
  | _ => exact faithful

/-- A procedure that keeps nothing but what a text compiles to keeps the cache faithful. -/
theorem faithful_run {limits : Limits} {Result : Type} {procedure : Procedure Result}
    (within : procedure.Within (Action.Faithful limits)) {engine : Engine}
    (faithful : engine.cache.Faithful limits) :
    (procedure.run engine).2.cache.Faithful limits := by
  let invariant (engine : Engine) : Prop := engine.cache.Faithful limits
  have kept : invariant (procedure.run engine).2 :=
    Procedure.run_invariant faithful_perform within faithful
  exact kept

/-! ## The calls of the engine -/

/-- A call that looks for the compiled form of one expression or keeps it. -/
def Action.Compiles (limits : Limits) (source : String) : Action → Prop
  | .lookUp sought => sought = source
  | .keep kept compiled => kept = source ∧ CompiledExpression.ofSource limits source = .ok compiled
  | _ => False

/-- A call that evaluating some rules makes: it leaves the store alone and keeps the compiled forms
of their expressions only. -/
def Action.Evaluates (limits : Limits) (rules : List Rule) : Action → Prop
  | .lookUp _ => True
  | .keep source compiled =>
      (∃ rule ∈ rules, rule.expression = source) ∧
        CompiledExpression.ofSource limits source = .ok compiled
  | .count _ => True
  | _ => False

theorem Action.Compiles.faithful {limits : Limits} {source : String} {action : Action}
    (compiles : action.Compiles limits source) : action.Faithful limits := by
  cases action with
  | keep kept compiled =>
      obtain ⟨rfl, compiled_eq⟩ := compiles
      exact compiled_eq
  | _ => trivial

theorem Action.Compiles.evaluates {limits : Limits} {rules : List Rule} {rule : Rule}
    {action : Action} (compiles : action.Compiles limits rule.expression) (member : rule ∈ rules) :
    action.Evaluates limits rules := by
  cases action with
  | lookUp => trivial
  | keep kept compiled =>
      obtain ⟨rfl, compiled_eq⟩ := compiles
      exact ⟨⟨rule, member, rfl⟩, compiled_eq⟩
  | _ => exact compiles.elim

theorem Action.Evaluates.faithful {limits : Limits} {rules : List Rule} {action : Action}
    (evaluates : action.Evaluates limits rules) : action.Faithful limits := by
  cases action with
  | keep => exact evaluates.2
  | _ => trivial

theorem Action.Evaluates.cons {limits : Limits} {rules : List Rule} {action : Action}
    (evaluates : action.Evaluates limits rules) (rule : Rule) :
    action.Evaluates limits (rule :: rules) := by
  cases action with
  | keep =>
      obtain ⟨⟨other, member, same⟩, compiles⟩ := evaluates
      exact ⟨⟨other, List.mem_cons_of_mem rule member, same⟩, compiles⟩
  | _ => exact evaluates

theorem within_compile (limits : Limits) (source : String) :
    (compile limits source).Within (Action.Compiles limits source) := by
  refine Procedure.within_bind (Procedure.within_call rfl) fun found => ?_
  split
  · exact Procedure.within_pure _ _
  · split
    · exact Procedure.within_pure _ _
    case h_2 compiled compiles =>
      exact Procedure.within_bind (Procedure.within_call ⟨rfl, compiles⟩) fun _ =>
        Procedure.within_pure _ _

theorem faithful_compile (limits : Limits) (source : String) :
    (compile limits source).Within (Action.Faithful limits) :=
  (within_compile limits source).mono fun _ compiles => compiles.faithful

theorem within_countAll (limits : Limits) (rules : List Rule) (metrics : List Metric) :
    (countAll metrics).Within (Action.Evaluates limits rules) := by
  induction metrics with
  | nil => exact Procedure.within_pure _ _
  | cons metric rest induction =>
      exact Procedure.within_bind (Procedure.within_call trivial) fun _ => induction

theorem within_evaluateRule (limits : Limits) (record : FieldRecord) (today : Date)
    {rules : List Rule} {rule : Rule} (member : rule ∈ rules) :
    (evaluateRule limits record today rule).Within (Action.Evaluates limits rules) := by
  have compiling := (within_compile limits rule.expression).mono fun _ compiles =>
    compiles.evaluates member
  refine Procedure.within_bind compiling fun compiled => ?_
  exact Procedure.within_bind (within_countAll limits rules _) fun _ => Procedure.within_pure _ _

theorem within_evaluateLoaded (limits : Limits) (record : FieldRecord) (today : Date)
    (rules : List Rule) :
    (evaluateLoaded limits record today rules).Within (Action.Evaluates limits rules) := by
  induction rules with
  | nil => exact Procedure.within_pure _ _
  | cons rule rest induction =>
      have member : rule ∈ rule :: rest := List.mem_cons_self
      refine Procedure.within_bind (within_evaluateRule limits record today member) fun report => ?_
      have others := induction.mono fun _ evaluates => evaluates.cons rule
      exact Procedure.within_bind others fun _ => Procedure.within_pure _ _

theorem faithful_evaluateLoaded (limits : Limits) (record : FieldRecord) (today : Date)
    (rules : List Rule) :
    (evaluateLoaded limits record today rules).Within (Action.Faithful limits) :=
  (within_evaluateLoaded limits record today rules).mono fun _ evaluates => evaluates.faithful

theorem within_evaluateRules (limits : Limits) (objectType : String) (record : FieldRecord)
    (today : Date) :
    (evaluateRules limits objectType record today).run.Within (Action.Faithful limits) := by
  refine Attempt.within_bind (Procedure.within_call trivial) fun rules => ?_
  refine Attempt.within_bind ?_ fun outcome => ?_
  · exact Attempt.within_lift (faithful_evaluateLoaded limits record today rules)
  · exact Attempt.within_bind (Attempt.within_lift (Procedure.within_call trivial)) fun _ =>
      Procedure.within_pure _ _

/-- A creation makes the calls that compile its expression, and one more. -/
theorem within_createRule_of {allowed : Action → Prop} {limits : Limits} {id : Uuid}
    {now : Instant} {input : NewRule}
    (compiles : (compile limits input.expression).Within allowed)
    (creates : allowed (.create id now input)) :
    (createRule limits id now input).run.Within allowed :=
  Attempt.within_bind (Attempt.within_discard compiles) fun _ => Procedure.within_call creates

/-- A change reads and writes its rule, compiles its expression and drops the one before. -/
theorem within_updateRule_of {allowed : Action → Prop} {limits : Limits} {id : Uuid}
    {patch : RulePatch} {now : Instant}
    (compiles : ∀ source, (compile limits source).Within allowed) (gets : allowed (.get id))
    (updates : allowed (.update id patch now)) (evicts : ∀ source, allowed (.evict source)) :
    (updateRule limits id patch now).run.Within allowed := by
  unfold updateRule
  split
  · exact Procedure.within_call updates
  case h_2 expression _ =>
    refine Attempt.within_bind (Attempt.within_discard (compiles expression)) fun _ => ?_
    refine Attempt.within_bind (Procedure.within_call gets) fun previous => ?_
    refine Attempt.within_bind (Procedure.within_call updates) fun rule => ?_
    dsimp only
    split
    · refine Attempt.within_bind ?_ fun _ => Procedure.within_pure _ _
      exact Attempt.within_lift (Procedure.within_discard (Procedure.within_call (evicts _)))
    · exact Procedure.within_pure _ _

/-- A removal reads its rule, removes it and drops its expression. -/
theorem within_deleteRule_of {allowed : Action → Prop} {id : Uuid} (gets : allowed (.get id))
    (deletes : allowed (.delete id)) (evicts : ∀ source, allowed (.evict source)) :
    (deleteRule id).run.Within allowed := by
  refine Attempt.within_bind (Procedure.within_call gets) fun previous => ?_
  refine Attempt.within_bind (Procedure.within_call deletes) fun _ => ?_
  exact Attempt.within_lift (Procedure.within_discard (Procedure.within_call (evicts _)))

theorem within_createRule (limits : Limits) (id : Uuid) (now : Instant) (input : NewRule) :
    (createRule limits id now input).run.Within (Action.Faithful limits) :=
  within_createRule_of (faithful_compile limits input.expression) trivial

theorem within_updateRule (limits : Limits) (id : Uuid) (patch : RulePatch) (now : Instant) :
    (updateRule limits id patch now).run.Within (Action.Faithful limits) :=
  within_updateRule_of (faithful_compile limits) trivial trivial fun _ => trivial

theorem within_deleteRule (limits : Limits) (id : Uuid) :
    (deleteRule id).run.Within (Action.Faithful limits) :=
  within_deleteRule_of trivial trivial fun _ => trivial

/-! ## Compiling -/

section Compile

variable {limits : Limits} {engine : Engine} {source : String} {compiled : CompiledExpression}

theorem run_compile_of_found (found : engine.cache.entries[source]? = some compiled) :
    (compile limits source).run engine =
      (.ok compiled, { engine with cache := (engine.cache.lookUp source).2 }) := by
  simp [compile, perform, withCache, Cache.lookUp, found]

theorem run_compile_of_error (missed : engine.cache.entries[source]? = none) {error : RuleError}
    (fails : CompiledExpression.ofSource limits source = .error error) :
    (compile limits source).run engine =
      (.error error, { engine with cache := (engine.cache.lookUp source).2 }) := by
  simp [compile, perform, withCache, Cache.lookUp, missed, fails]

theorem run_compile_of_ok (missed : engine.cache.entries[source]? = none)
    (compiles : CompiledExpression.ofSource limits source = .ok compiled) :
    (compile limits source).run engine =
      (.ok compiled,
        { engine with cache := ((engine.cache.lookUp source).2.keep source compiled).2 }) := by
  simp [compile, perform, withCache, Cache.lookUp, Cache.keep, missed, compiles]

end Compile

/-! ## Results on a faithful cache -/

/-- On a faithful cache the compiled form of an expression is what it compiles to anew. -/
theorem run_compile {limits : Limits} {engine : Engine}
    (faithful : engine.cache.Faithful limits) (source : String) :
    ((compile limits source).run engine).1 = CompiledExpression.ofSource limits source := by
  cases found : engine.cache.entries[source]? with
  | some compiled =>
      rw [run_compile_of_found found]
      exact (faithful source compiled found).symm
  | none =>
      cases compiles : CompiledExpression.ofSource limits source with
      | error error => rw [run_compile_of_error found compiles]
      | ok compiled => rw [run_compile_of_ok found compiles]

/-- The verdict on a rule, or why there is none, without any cache. -/
def verdict (limits : Limits) (record : FieldRecord) (today : Date) (rule : Rule) :
    Except RuleError Bool :=
  (CompiledExpression.ofSource limits rule.expression).bind (judge record today)

theorem run_evaluateRule {limits : Limits} {engine : Engine}
    (faithful : engine.cache.Faithful limits) (record : FieldRecord) (today : Date)
    (rule : Rule) :
    ((evaluateRule limits record today rule).run engine).1 =
      .ofResult rule (verdict limits record today rule) := by
  simp [evaluateRule, verdict, run_compile faithful]

/-- The outcome of rules in the given order, without any cache. -/
def outcomeOf (limits : Limits) (record : FieldRecord) (today : Date) (rules : List Rule) :
    EvaluationOutcome :=
  rules.foldr
    (fun rule outcome => outcome.cons rule (.ofResult rule (verdict limits record today rule)))
    .empty

theorem run_evaluateLoaded {limits : Limits} {engine : Engine}
    (faithful : engine.cache.Faithful limits) (record : FieldRecord) (today : Date)
    (rules : List Rule) :
    ((evaluateLoaded limits record today rules).run engine).1 =
      outcomeOf limits record today rules := by
  induction rules generalizing engine with
  | nil => rfl
  | cons rule rest induction =>
      have evaluating := within_evaluateRule limits record today (List.mem_singleton_self rule)
      have rest_faithful :
          ((evaluateRule limits record today rule).run engine).2.cache.Faithful limits :=
        faithful_run (evaluating.mono fun _ evaluates => evaluates.faithful) faithful
      simp [evaluateLoaded, outcomeOf, run_evaluateRule faithful, induction rest_faithful]

/-- As long as the store answers, evaluation comes to the outcome of the rules that it lists. -/
theorem run_evaluateRules {limits : Limits} {engine : Engine}
    (faithful : engine.cache.Faithful limits) (answers : engine.store.outages .listActive = none)
    (objectType : String) (record : FieldRecord) (today : Date) :
    (Procedure.run engine (evaluateRules limits objectType record today).run).1 =
      .ok (outcomeOf limits record today (engine.store.activeRules objectType)) := by
  let call : Attempt (List Rule) := Attempt.ofProcedure (Procedure.call (.listActive objectType))
  have listed : Procedure.run engine call.run =
      (.ok (engine.store.activeRules objectType), engine) := by
    change engine.withStore (engine.store.listActive objectType) = _
    simp [withStore, Store.listActive, Store.guarded, answers]
  unfold evaluateRules
  rw [Attempt.run_bind, listed]
  simp only [Attempt.run_bind, Attempt.run_lift, run_evaluateLoaded faithful]
  rfl

/-- A store that cannot list its rules ends the evaluation. -/
theorem run_evaluateRules_of_outage {engine : Engine} {error : RuleError}
    (failed : engine.store.outages .listActive = some error) (limits : Limits)
    (objectType : String) (record : FieldRecord) (today : Date) :
    (Procedure.run engine (evaluateRules limits objectType record today).run).1 =
      .error error := by
  let call : Attempt (List Rule) := Attempt.ofProcedure (Procedure.call (.listActive objectType))
  have unlisted : Procedure.run engine call.run = (.error error, engine) := by
    change engine.withStore (engine.store.listActive objectType) = _
    simp [withStore, Store.listActive, Store.guarded, failed]
  unfold evaluateRules
  rw [Attempt.run_bind, unlisted]

end Engine
end FormRules
