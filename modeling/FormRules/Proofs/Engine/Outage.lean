import FormRules.Proofs.Engine.Course

/-!
# Outages of the store

While every call of its store fails with one message, an engine goes on without the store. A
procedure is steady if then neither its result nor what it leaves in the engine depends on the
message. An attempt may also be stopped by the store; it is discreet if it then hands on the failure
and does nothing else with the message.
-/

namespace FormRules

namespace Engine

/-- The engine with a store whose every call fails with a message. -/
def failing (engine : Engine) (message : String) : Engine :=
  { engine with store.outages := .total message }

/-- A call that is not one of the store comes to the same without the store. -/
theorem perform_failing (engine : Engine) {action : Action} (spares : ¬ action.UsesStore)
    (message : String) :
    (engine.failing message).perform action =
      ((engine.perform action).1, (engine.perform action).2.failing message) := by
  cases action with
  | lookUp | keep | evict | count => rfl
  | _ => exact absurd trivial spares

end Engine

namespace Procedure

open Engine

variable {Result First Second : Type}

/-- Whatever message the store fails with, the procedure comes to one result and leaves the engine
in one state but for the message. -/
def Steady (procedure : Procedure Result) : Prop :=
  ∀ engine : Engine, ∃ (result : Result) (after : Engine),
    ∀ message, procedure.run (engine.failing message) = (result, after.failing message)

theorem steady_pure (result : Result) : (pure result : Procedure Result).Steady :=
  fun engine => ⟨result, engine, fun _ => rfl⟩

theorem steady_call {action : Action} (spares : ¬ action.UsesStore) : (call action).Steady :=
  fun engine => ⟨_, _, perform_failing engine spares⟩

theorem steady_bind {first : Procedure First} {next : First → Procedure Second}
    (first_steady : first.Steady) (next_steady : ∀ result, (next result).Steady) :
    (first >>= next).Steady := by
  intro engine
  obtain ⟨result, between, first_run⟩ := first_steady engine
  obtain ⟨final, after, next_run⟩ := next_steady result between
  refine ⟨final, after, fun message => ?_⟩
  rw [run_bind, first_run, next_run]

/-- A procedure that makes no call of the store is steady. -/
theorem Within.steady {procedure : Procedure Result}
    (within : procedure.Within fun action => ¬ action.UsesStore) : procedure.Steady := by
  induction procedure with
  | done result => exact steady_pure result
  | perform action resume induction =>
      intro engine
      obtain ⟨result, after, ran⟩ :=
        induction (engine.perform action).1 (within.2 _) (engine.perform action).2
      refine ⟨result, after, fun message => ?_⟩
      rw [run, perform_failing engine within.1]
      exact ran message

end Procedure

namespace Attempt

open Engine

variable {Result First Second : Type}

/-- Whatever message the store fails with, the attempt comes to one result, or it hands on the
failure of the store as it is. -/
def Discreet (attempt : Attempt Result) : Prop :=
  ∀ engine : Engine, ∃ after : Engine,
    (∃ result, ∀ message,
      Procedure.run (engine.failing message) attempt.run = (result, after.failing message)) ∨
    ∀ message, Procedure.run (engine.failing message) attempt.run =
      (.error (.store message), after.failing message)

theorem discreet_of_steady {attempt : Attempt Result} (steady : attempt.run.Steady) :
    attempt.Discreet := by
  intro engine
  obtain ⟨result, after, ran⟩ := steady engine
  exact ⟨after, .inl ⟨result, ran⟩⟩

theorem discreet_pure (value : Result) : (pure value : Attempt Result).Discreet :=
  discreet_of_steady (Procedure.steady_pure (Except.ok value))

/-- A call that the store refuses hands on the failure. -/
theorem discreet_of_refused {procedure : Procedure (Except RuleError Result)}
    (refused : ∀ (engine : Engine) (message : String), procedure.run (engine.failing message) =
      (.error (.store message), engine.failing message)) :
    (ofProcedure procedure).Discreet :=
  fun engine => ⟨engine, .inr (refused engine)⟩

theorem discreet_lift {procedure : Procedure Result} (steady : procedure.Steady) :
    (liftM procedure : Attempt Result).Discreet :=
  discreet_of_steady (Procedure.steady_bind steady fun _ => Procedure.steady_pure _)

/-- Where an attempt fails, nothing follows; so what follows has to be discreet for its values
only. -/
theorem discreet_bind {first : Attempt First} {next : First → Attempt Second}
    (first_discreet : first.Discreet) (next_discreet : ∀ value, (next value).Discreet) :
    (first >>= next).Discreet := by
  intro engine
  obtain ⟨between, ⟨error | value, first_run⟩ | stopped⟩ := first_discreet engine
  · refine ⟨between, .inl ⟨.error error, fun message => ?_⟩⟩
    rw [run_bind, first_run]
  · obtain ⟨after, ⟨result, next_run⟩ | stopped⟩ := next_discreet value between
    · refine ⟨after, .inl ⟨result, fun message => ?_⟩⟩
      rw [run_bind, first_run]
      exact next_run message
    · refine ⟨after, .inr fun message => ?_⟩
      rw [run_bind, first_run]
      exact stopped message
  · refine ⟨between, .inr fun message => ?_⟩
    rw [run_bind, stopped]

theorem discreet_discard {attempt : Attempt Result} (discreet : attempt.Discreet) :
    (discard attempt).Discreet :=
  discreet_bind discreet fun _ => discreet_pure ()

/-- Telling the same of all failures of the store makes a discreet attempt steady. -/
theorem Discreet.steady_map {attempt : Attempt First} (discreet : attempt.Discreet)
    (finish : Except RuleError First → Second) (stopped : Second)
    (conceals : ∀ message, finish (.error (.store message)) = stopped) :
    (attempt.run >>= fun result => pure (finish result)).Steady := by
  intro engine
  obtain ⟨after, ⟨result, ran⟩ | ran⟩ := discreet engine
  · refine ⟨finish result, after, fun message => ?_⟩
    rw [Procedure.run_bind, ran, Procedure.run_pure]
  · refine ⟨stopped, after, fun message => ?_⟩
    rw [Procedure.run_bind, ran, Procedure.run_pure, conceals]

end Attempt

namespace Engine

/-! ## The attempts of the engine -/

section Attempts

variable (limits : Limits)

theorem steady_compile (source : String) : (compile limits source).Steady :=
  ((within_compile limits source).mono fun _ compiles => compiles.spares).steady

theorem discreet_evaluateRules (objectType : String) (record : FieldRecord) (today : Date) :
    (evaluateRules limits objectType record today).Discreet := by
  refine Attempt.discreet_bind (Attempt.discreet_of_refused fun _ _ => rfl)
    fun rules => ?_
  refine Attempt.discreet_bind (Attempt.discreet_lift ?_) fun outcome => ?_
  · exact ((within_evaluateLoaded limits record today rules).mono fun _ evaluates =>
      evaluates.spares).steady
  · refine Attempt.discreet_bind (Attempt.discreet_lift ?_) fun _ => ?_
    · exact Procedure.steady_call fun used => used
    · exact Attempt.discreet_pure outcome

theorem discreet_evaluateForm (objectType : String) (form : Form) (today : Date) :
    (evaluateForm limits objectType form today).Discreet := by
  refine Attempt.discreet_bind ?_ fun record => ?_
  · exact Attempt.discreet_of_steady (Procedure.steady_pure _)
  · refine Attempt.discreet_bind (discreet_evaluateRules limits objectType record today)
      fun outcome => ?_
    exact Attempt.discreet_pure outcome.toResponse

theorem discreet_createRule (id : Uuid) (now : Instant) (input : NewRule) :
    (createRule limits id now input).Discreet := by
  refine Attempt.discreet_bind (Attempt.discreet_discard ?_) fun _ =>
    Attempt.discreet_of_refused fun _ _ => rfl
  exact Attempt.discreet_of_steady (steady_compile limits input.expression)

theorem discreet_updateRule (id : Uuid) (patch : RulePatch) (now : Instant) :
    (updateRule limits id patch now).Discreet := by
  unfold updateRule
  split
  · exact Attempt.discreet_of_refused fun _ _ => rfl
  case h_2 expression _ =>
    refine Attempt.discreet_bind (Attempt.discreet_discard ?_) fun _ => ?_
    · exact Attempt.discreet_of_steady (steady_compile limits expression)
    refine Attempt.discreet_bind (Attempt.discreet_of_refused fun _ _ => rfl)
      fun previous => ?_
    refine Attempt.discreet_bind (Attempt.discreet_of_refused fun _ _ => rfl)
      fun rule => ?_
    dsimp only
    split
    · refine Attempt.discreet_bind (Attempt.discreet_discard ?_) fun _ =>
        Attempt.discreet_pure rule
      exact Attempt.discreet_lift (Procedure.steady_call fun used => used)
    · exact Attempt.discreet_pure rule

theorem discreet_deleteRule (id : Uuid) : (deleteRule id).Discreet := by
  refine Attempt.discreet_bind (Attempt.discreet_of_refused fun _ _ => rfl)
    fun previous => ?_
  refine Attempt.discreet_bind (Attempt.discreet_of_refused fun _ _ => rfl)
    fun _ => Attempt.discreet_discard ?_
  exact Attempt.discreet_lift (Procedure.steady_call fun used => used)

end Attempts

end Engine
end FormRules
