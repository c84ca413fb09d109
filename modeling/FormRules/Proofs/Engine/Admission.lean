import FormRules.Proofs.Compilation
import FormRules.Proofs.Engine.Effects
import FormRules.Proofs.Engine.Isolation

/-!
# Only expressions that compile are stored

A request that stores an expression has called for its compiled form before, and on a faithful cache
it got one only if the expression compiles. The check and the write are two calls, but nothing that
happens in between can make a checked expression fail. Stored rules therefore compile at every
moment, and an evaluation finds fault with the values of a form only, never with a text.
-/

namespace FormRules

open Engine

namespace Store

/-- All stored rules compile. -/
def Admitted (limits : Limits) (store : Store) : Prop :=
  ∀ rule, store.Holds rule → limits.Admit rule.expression

theorem admitted_empty (limits : Limits) : empty.Admitted limits := by
  rintro rule ⟨id, found⟩
  simp [empty] at found

theorem admitted_put {limits : Limits} {store : Store} (admitted : store.Admitted limits)
    (id : Uuid) {rule : Rule} (admits : limits.Admit rule.expression) :
    (store.put id rule).Admitted limits := by
  intro other holds
  obtain rfl | before := holds_of_holds_put holds
  · exact admits
  · exact admitted other before

end Store

namespace Engine

/-- A call that stores an expression stores one that compiles. -/
def Action.Admitted (limits : Limits) : Action → Prop
  | .create _ _ input => limits.Admit input.expression
  | .update _ patch _ =>
      ∀ expression, patch.expression = some expression → limits.Admit expression
  | _ => True

/-- Only rules that compile are listed for an evaluation. -/
def Exchange.Admitted (limits : Limits) : Exchange → Prop
  | ⟨.listActive _, .ok rules⟩ => ∀ rule ∈ rules, limits.Admit rule.expression
  | _ => True

/-! ## One call -/

theorem admitted_of_changes {limits : Limits} {store after : Store} {exchange : Exchange}
    (changes : store.Changes exchange after) (allowed : exchange.action.Admitted limits)
    (admitted : store.Admitted limits) : after.Admitted limits := by
  cases changes with
  | nothing => exact admitted
  | create id now input => exact Store.admitted_put admitted id allowed
  | @update id rule patch now found =>
      apply Store.admitted_put admitted id
      change limits.Admit (patch.expression.getD rule.expression)
      cases given : patch.expression with
      | none => exact admitted rule ⟨id, found⟩
      | some expression => exact allowed expression given
  | delete => exact fun rule holds => admitted rule (Store.holds_of_holds_remove holds)

theorem answer_admitted {limits : Limits} (engine : Engine) (action : Action)
    (admitted : engine.store.Admitted limits) :
    Exchange.Admitted limits ⟨action, (engine.perform action).1⟩ := by
  cases action with
  | listActive objectType =>
      simp only [perform, withStore, Store.listActive, Store.guarded]
      split
      · trivial
      · exact fun rule listed => admitted rule (Store.mem_activeRules.1 listed).1
  | _ => trivial

theorem Action.Compiles.admitted {limits : Limits} {source : String} {action : Action}
    (compiles : action.Compiles limits source) : action.Admitted limits := by
  cases action with
  | lookUp => trivial
  | keep => trivial
  | _ => exact compiles.elim

theorem Action.admitted_of_spares {limits : Limits} {action : Action}
    (spares : ¬ action.UsesStore) : action.Admitted limits := by
  cases action with
  | create => exact absurd trivial spares
  | update => exact absurd trivial spares
  | _ => trivial

/-! ## One request -/

section Requests

variable (limits : Limits)

/-- The calls for a compiled form store nothing, and there is one only of what compiles. -/
theorem abides_check (source : String) (trace : List Exchange) :
    (compile limits source).Abides (Exchange.Faithful limits)
      (fun _ action => action.Admitted limits)
      (fun _ result => result = CompiledExpression.ofSource limits source) trace :=
  ((abides_compile limits source trace).and (within_compile limits source).abides).mono
    (fun _ relied => relied) (fun _ _ allowed => allowed.2.1.admitted) fun _ _ holds => holds.1

theorem admitted_createRule (id : Uuid) (now : Instant) (input : NewRule) :
    ((Request.createRule id now input).procedure limits).Abides (Exchange.Faithful limits)
      (fun _ action => action.Admitted limits) (fun _ _ => True) [] := by
  rw [Request.procedure_createRule]
  refine Procedure.abides_bind (abides_check limits input.expression [])
    fun trace compiled compiled_eq => ?_
  cases compiled with
  | error => trivial
  | ok compiled =>
      exact Procedure.abides_call_bind ⟨compiled, compiled_eq.symm⟩ fun _ _ => trivial

theorem admitted_updateRule (id : Uuid) (patch : RulePatch) (now : Instant) :
    ((Request.updateRule id patch now).procedure limits).Abides (Exchange.Faithful limits)
      (fun _ action => action.Admitted limits) (fun _ _ => True) [] := by
  cases given : patch.expression with
  | none =>
      rw [Request.procedure_updateRule_of_none limits id now given]
      exact Procedure.abides_call_bind (by simp [Action.Admitted, given]) fun _ _ => trivial
  | some expression =>
      rw [Request.procedure_updateRule_of_some limits id now given]
      refine Procedure.abides_bind (abides_check limits expression [])
        fun trace compiled compiled_eq => ?_
      cases compiled with
      | error => trivial
      | ok compiled =>
          refine Procedure.abides_call_bind trivial fun previous _ => ?_
          have admits : Action.Admitted limits (.update id patch now) := by
            intro other other_given
            obtain rfl := Option.some.inj (given.symm.trans other_given)
            exact ⟨compiled, compiled_eq.symm⟩
          cases previous with
          | error => trivial
          | ok previous =>
              refine Procedure.abides_call_bind admits fun changed _ => ?_
              cases changed with
              | error => trivial
              | ok rule =>
                  dsimp only
                  split
                  · exact Procedure.abides_call_bind trivial fun _ _ => trivial
                  · trivial

theorem admitted_deleteRule (id : Uuid) :
    ((Request.deleteRule id).procedure limits).Abides (Exchange.Faithful limits)
      (fun _ action => action.Admitted limits) (fun _ _ => True) [] := by
  rw [Request.procedure_deleteRule]
  refine Procedure.abides_call_bind trivial fun previous _ => ?_
  cases previous with
  | error => trivial
  | ok previous =>
      refine Procedure.abides_call_bind trivial fun removed _ => ?_
      cases removed with
      | error => trivial
      | ok => exact Procedure.abides_call_bind trivial fun _ _ => trivial

theorem admitted_evaluateRules (objectType : String) (record : FieldRecord) (today : Date) :
    ((Request.evaluateRules objectType record today).procedure limits).Abides
      (Exchange.Faithful limits) (fun _ action => action.Admitted limits) (fun _ _ => True) [] := by
  rw [Request.procedure_evaluateRules]
  refine Procedure.abides_call_bind trivial fun fetched _ => ?_
  cases fetched with
  | error => trivial
  | ok rules =>
      exact (evaluateFetched_spares limits objectType record today rules).abides.mono
        (fun _ relied => relied) (fun _ _ allowed => Action.admitted_of_spares allowed.1)
        fun _ _ _ => trivial

theorem admitted_procedure (request : Request) :
    (request.procedure limits).Abides (Exchange.Faithful limits)
      (fun _ action => action.Admitted limits) (fun _ _ => True) [] := by
  cases request with
  | createRule id now input => exact admitted_createRule limits id now input
  | updateRule id patch now => exact admitted_updateRule limits id patch now
  | deleteRule id => exact admitted_deleteRule limits id
  | evaluateRules objectType record today =>
      exact admitted_evaluateRules limits objectType record today
  | tryExpression => trivial

end Requests

/-! ## What an evaluation finds fault with -/

theorem kind_of_verdict {limits : Limits} {record : FieldRecord} {today : Date} {rule : Rule}
    {error : RuleError} (admits : limits.Admit rule.expression)
    (failed : verdict limits record today rule = .error error) : error.kind = "EVAL_ERROR" := by
  obtain ⟨compiled, compiles⟩ := admits
  rw [verdict, compiles] at failed
  obtain ⟨reason, -, rfl⟩ := mapError_eq_error.1 failed
  rfl

theorem kind_of_diagnostic {limits : Limits} {record : FieldRecord} {today : Date}
    {rules : List Rule} (admitted : ∀ rule ∈ rules, limits.Admit rule.expression) :
    ∀ diagnostic ∈ (outcomeOf limits record today rules).diagnostics,
      diagnostic.kind = "EVAL_ERROR" := by
  induction rules with
  | nil => exact fun _ none => absurd none List.not_mem_nil
  | cons rule rest induction =>
      rw [List.forall_mem_cons] at admitted
      intro diagnostic member
      change diagnostic ∈ List.filterMap RuleReport.diagnostic
        (.ofResult rule (verdict limits record today rule) ::
          (outcomeOf limits record today rest).reports) at member
      cases result : verdict limits record today rule with
      | ok fired =>
          rw [result] at member
          exact induction admitted.2 diagnostic member
      | error error =>
          rw [result] at member
          obtain rfl | later := List.mem_cons.1 member
          · exact kind_of_verdict admitted.1 result
          · exact induction admitted.2 diagnostic later

/-- If all stored rules compile to begin with, then they do at every moment of a session, and no
evaluation in it finds fault with the text of a rule. -/
theorem session_admits {limits : Limits} {engine : Engine}
    (faithful : engine.cache.Faithful limits) (admitted : engine.store.Admitted limits)
    (events : List Event) :
    (Session.run limits engine events).engine.store.Admitted limits ∧
      ∀ task ∈ (Session.run limits engine events).tasks,
        ∀ objectType record today outcome,
          task.request = .evaluateRules objectType record today →
          task.rest = .done (.outcome (.ok outcome)) →
          ∀ diagnostic ∈ outcome.diagnostics, diagnostic.kind = "EVAL_ERROR" := by
  let invariant (engine : Engine) : Prop :=
    engine.cache.Faithful limits ∧ engine.store.Admitted limits
  let rely (exchange : Exchange) : Prop := exchange.Faithful limits ∧ exchange.Admitted limits
  let guarantee (action : Action) : Prop := action.Faithful limits ∧ action.Admitted limits
  have step (engine : Engine) (action : Action) (allowed : guarantee action)
      (kept : invariant engine) :
      invariant (engine.perform action).2 ∧ rely ⟨action, (engine.perform action).1⟩ := by
    refine ⟨⟨?_, ?_⟩, ?_, ?_⟩
    · exact faithful_perform engine action allowed.1 kept.1
    · exact admitted_of_changes (perform_changes engine action) allowed.2 kept.2
    · exact answer_faithful engine action allowed.1 kept.1
    · exact answer_admitted engine action kept.2
  have abides (request : Request) (_ : Event.arrive request ∈ events) :
      (request.procedure limits).Abides rely (fun _ => guarantee) (fun _ _ => True) [] :=
    ((faithful_procedure limits request).abides.and (admitted_procedure limits request)).mono
      (fun _ relied => relied.1) (fun _ _ allowed => ⟨allowed.1.1, allowed.2⟩)
      fun _ _ _ => trivial
  have initial : invariant engine := ⟨faithful, admitted⟩
  obtain ⟨kept, answers⟩ := Session.run_invariant step (fun _ => ⟨trivial, trivial⟩)
    (fun engine kept => ⟨Cache.faithful_clear limits engine.cache, kept.2⟩) initial abides
  refine ⟨kept.2, ?_⟩
  intro task member objectType record today outcome request done
  have fetches := Task.evaluatesFetched_of_faithful fun exchange made =>
    (answers task member exchange made).1
  obtain ⟨-, resume, unbegun⟩ | ⟨fetched, later, trace, -, ended⟩ :=
    fetches objectType record today request
  · rw [done] at unbegun
    contradiction
  · simp only [done, Response.outcome.injEq] at ended
    obtain ⟨rules, fetched_eq, rfl⟩ := map_eq_ok.1 ended.symm
    have listed : Exchange.Admitted limits ⟨.listActive objectType, fetched⟩ :=
      (answers task member _ (by rw [trace]; exact List.mem_cons_self)).2
    rw [fetched_eq] at listed
    exact kind_of_diagnostic listed

/-- One request stores a rule that divides by zero and another one fails to store half an
expression, while a third evaluates the rules. -/
def divisionEvents : List Event :=
  [.arrive (.createRule ⟨1⟩ ⟨0, 0⟩ ⟨"Order", "1 / 0 = 1", "No total.", true, none⟩),
    .arrive (.createRule ⟨2⟩ ⟨0, 0⟩ ⟨"Order", "1 /", "No total.", true, none⟩),
    .arrive (.evaluateRules "Order" .empty ⟨2024, 6, 1, by decide⟩)] ++
  [0, 1, 0, 1, 0, 2, 2, 2, 2, 2, 2].map Event.turn

theorem session_admits_division :
    (start .empty).cache.Faithful .standard ∧ (start .empty).store.Admitted .standard ∧
      (Session.run .standard (start .empty) divisionEvents).engine.store.Admitted .standard ∧
      (Session.run .standard (start .empty) divisionEvents).engine.store.size = 1 ∧
      Metric.ruleFailure "EVAL_ERROR" ∈
        (Session.run .standard (start .empty) divisionEvents).engine.metrics := by
  have faithful : (start .empty).cache.Faithful .standard := Cache.faithful_empty .standard
  have admitted : (start .empty).store.Admitted .standard := Store.admitted_empty .standard
  exact ⟨faithful, admitted, (session_admits faithful admitted divisionEvents).1,
    by decide +kernel, by decide +kernel⟩

end Engine
end FormRules
