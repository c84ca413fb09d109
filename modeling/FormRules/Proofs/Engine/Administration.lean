import FormRules.Proofs.Engine.Reference
import FormRules.Proofs.Engine.Retention

/-!
# Changes of the stored rules

On a store without outages a change of the rules comes to one of three ends. Its expression does not
compile, or there is no rule to change; then the store stays as it is. Otherwise the change is made.
-/

namespace FormRules.Engine

/-- How a change of the stored rules ends, with its result and the store afterwards. -/
inductive Ending {Result : Type} (id : Uuid) (compiles stored : Prop) (before : Store)
    (effect : Store → Prop) : Except RuleError Result → Store → Prop where
  | uncompiled {error : RuleError} (rejects : ¬ compiles)
      (expression : error.isExpressionError = true) :
      Ending id compiles stored before effect (.error error) before
  | missing (compiled : compiles) (missed : ¬ stored) :
      Ending id compiles stored before effect (.error (Store.missing id)) before
  | changed {value : Result} {after : Store} (compiled : compiles) (found : stored)
      (change : effect after) :
      Ending id compiles stored before effect (.ok value) after

variable {limits : Limits} {engine : Engine}

/-- A response tells the result of the procedure that it comes from. -/
theorem run_of_response {Result : Type} {wrap : Result → Response}
    (injective : Function.Injective wrap) {procedure : Procedure Result} {result : Result}
    {after : Engine}
    (ran : (do return wrap (← procedure) : Procedure Response).run engine = (wrap result, after)) :
    procedure.run engine = (result, after) := by
  rw [Procedure.run_bind, Procedure.run_pure] at ran
  obtain ⟨same, rest⟩ := Prod.mk.inj ran
  exact Prod.ext (injective same) rest

/-- Compiling leaves the store as it is, and fails with an error of the expression. -/
theorem run_compile_cases (faithful : engine.cache.Faithful limits) (source : String) :
    ∃ after : Engine, after.store = engine.store ∧
      ((∃ error, (compile limits source).run engine = (.error error, after) ∧
        ¬ limits.Admit source ∧ error.isExpressionError = true) ∨
      ∃ compiled, (compile limits source).run engine = (.ok compiled, after) ∧
        limits.Admit source) := by
  refine ⟨_, (compiled_run limits engine source).store, ?_⟩
  have result := run_compile faithful source
  cases compiles : CompiledExpression.ofSource limits source with
  | error error =>
      exact .inl ⟨error, Prod.ext (result.trans compiles) rfl, Limits.not_admit_of_error compiles,
        isExpressionError_of_compiled compiles⟩
  | ok compiled => exact .inr ⟨compiled, Prod.ext (result.trans compiles) rfl, compiled, compiles⟩

theorem ending_createRule (faithful : engine.cache.Faithful limits)
    (answers : engine.store.outages = .none) (id : Uuid) (now : Instant) (input : NewRule) :
    ∃ result after,
      ((Request.createRule id now input).procedure limits).run engine = (.rule result, after) ∧
      Ending id (limits.Admit input.expression) True engine.store
        (· = engine.store.insert (.ofNew id now input)) result after.store := by
  rw [Request.procedure_createRule, Procedure.run_bind]
  obtain ⟨checked, kept, ⟨error, ran, rejects, expression⟩ | ⟨compiled, ran, admits⟩⟩ :=
    run_compile_cases faithful input.expression
  · rw [ran, ← kept]
    exact ⟨_, checked, rfl, .uncompiled rejects expression⟩
  · rw [← kept] at answers ⊢
    rw [ran]
    dsimp only
    rw [Procedure.run_bind, Procedure.run_call, perform_create_of_answers answers]
    exact ⟨_, _, rfl, .changed admits trivial rfl⟩

/-- The changed rule takes the place of the one that was stored. -/
def Replaces (id : Uuid) (patch : RulePatch) (now : Instant) (before after : Store) : Prop :=
  ∃ rule, before.rules[id]? = some rule ∧ after = before.put id (rule.apply patch now)

theorem ending_updateRule (faithful : engine.cache.Faithful limits)
    (answers : engine.store.outages = .none) (id : Uuid) (patch : RulePatch) (now : Instant) :
    ∃ result after,
      ((Request.updateRule id patch now).procedure limits).run engine = (.rule result, after) ∧
      Ending id (∀ expression ∈ patch.expression, limits.Admit expression)
        (∃ rule, engine.store.rules[id]? = some rule) engine.store
        (Replaces id patch now engine.store) result after.store := by
  cases given : patch.expression with
  | none =>
      rw [Request.procedure_updateRule_of_none limits id now given, Procedure.run_bind,
        Procedure.run_call]
      cases found : engine.store.rules[id]? with
      | none =>
          rw [perform_update_of_missing answers found]
          exact ⟨_, _, rfl, .missing nofun nofun⟩
      | some rule =>
          rw [perform_update_of_found answers found]
          exact ⟨_, _, rfl, .changed nofun ⟨rule, rfl⟩ ⟨rule, found, rfl⟩⟩
  | some expression =>
      rw [Request.procedure_updateRule_of_some limits id now given, Procedure.run_bind]
      have given_only (valid : limits.Admit expression) (other : String)
          (member : other ∈ some expression) : limits.Admit other :=
        Option.mem_some_iff.1 member ▸ valid
      obtain ⟨checked, kept, ⟨error, ran, rejects, of_expression⟩ | ⟨compiled, ran, admits⟩⟩ :=
        run_compile_cases faithful expression
      · rw [ran, ← kept]
        exact ⟨_, checked, rfl, .uncompiled (fun all => rejects (all _ rfl)) of_expression⟩
      rw [← kept] at answers ⊢
      rw [ran]
      dsimp only
      rw [Procedure.run_bind, Procedure.run_call]
      cases found : checked.store.rules[id]? with
      | none =>
          rw [perform_get_of_missing answers found]
          exact ⟨_, _, rfl, .missing (given_only admits) nofun⟩
      | some rule =>
          rw [perform_get_of_found answers found]
          dsimp only
          rw [Procedure.run_bind, Procedure.run_call,
            perform_update_of_found answers found]
          dsimp only
          split
          · exact ⟨_, _, rfl, .changed (given_only admits) ⟨rule, rfl⟩ ⟨rule, found, rfl⟩⟩
          · exact ⟨_, _, rfl, .changed (given_only admits) ⟨rule, rfl⟩ ⟨rule, found, rfl⟩⟩

theorem ending_deleteRule (limits : Limits) (answers : engine.store.outages = .none)
    (id : Uuid) :
    ∃ result after,
      ((Request.deleteRule id).procedure limits).run engine = (.removal result, after) ∧
      Ending id True (∃ rule, engine.store.rules[id]? = some rule) engine.store
        (· = engine.store.remove id) result after.store := by
  rw [Request.procedure_deleteRule, Procedure.run_bind, Procedure.run_call]
  cases found : engine.store.rules[id]? with
  | none =>
      rw [perform_get_of_missing answers found]
      exact ⟨_, engine, rfl, .missing trivial nofun⟩
  | some rule =>
      rw [perform_get_of_found answers found]
      dsimp only
      rw [Procedure.run_bind, Procedure.run_call, perform_delete_of_found answers found]
      exact ⟨_, _, rfl, .changed trivial ⟨rule, rfl⟩ rfl⟩

end FormRules.Engine
