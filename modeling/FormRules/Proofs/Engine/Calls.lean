import FormRules.Engine.Procedure

/-!
# What the calls of a procedure keep

A property of engines that every call of a procedure keeps is kept by the whole procedure. The
calls that a procedure may make are read off its tree, over all answers that it may get.
-/

namespace FormRules

namespace Procedure

variable {Result First Second : Type}

/-- Every call that a procedure may make is allowed, whatever the answers to the ones before. -/
def Within (allowed : Engine.Action → Prop) : Procedure Result → Prop
  | done _ => True
  | perform action resume => allowed action ∧ ∀ answer, (resume answer).Within allowed

theorem within_pure (allowed : Engine.Action → Prop) (result : Result) :
    (pure result : Procedure Result).Within allowed :=
  trivial

theorem within_call {allowed : Engine.Action → Prop} {action : Engine.Action}
    (member : allowed action) : (call action).Within allowed :=
  ⟨member, fun _ => trivial⟩

theorem within_bind {allowed : Engine.Action → Prop} {first : Procedure First}
    {next : First → Procedure Second} (first_within : first.Within allowed)
    (next_within : ∀ result, (next result).Within allowed) :
    (first >>= next).Within allowed := by
  induction first with
  | done result => exact next_within result
  | perform action resume induction =>
      exact ⟨first_within.1, fun answer => induction answer (first_within.2 answer)⟩

theorem Within.mono {allowed weaker : Engine.Action → Prop} {procedure : Procedure Result}
    (within : procedure.Within allowed) (le : ∀ action, allowed action → weaker action) :
    procedure.Within weaker := by
  induction procedure with
  | done result => trivial
  | perform action resume induction =>
      exact ⟨le action within.1, fun answer => induction answer (within.2 answer)⟩

/-- A property that every allowed call keeps is kept by a procedure that makes no other. -/
theorem run_invariant {allowed : Engine.Action → Prop} {invariant : Engine → Prop}
    (step : ∀ engine action, allowed action → invariant engine →
      invariant (engine.perform action).2)
    {procedure : Procedure Result} (within : procedure.Within allowed) {engine : Engine}
    (initial : invariant engine) : invariant (procedure.run engine).2 := by
  induction procedure generalizing engine with
  | done result => exact initial
  | perform action resume induction =>
      exact induction (engine.perform action).1 (within.2 _)
        (step engine action within.1 initial)

theorem within_discard {allowed : Engine.Action → Prop} {procedure : Procedure Result}
    (within : procedure.Within allowed) : (discard procedure).Within allowed :=
  within_bind within fun _ => within_pure allowed _

end Procedure

namespace Attempt

variable {Result First Second : Type}

theorem within_lift {allowed : Engine.Action → Prop} {procedure : Procedure Result}
    (within : procedure.Within allowed) :
    (liftM procedure : Attempt Result).run.Within allowed :=
  Procedure.within_bind within fun _ => Procedure.within_pure allowed _

theorem within_bind {allowed : Engine.Action → Prop} {first : Attempt First}
    {next : First → Attempt Second} (first_within : first.run.Within allowed)
    (next_within : ∀ result, (next result).run.Within allowed) :
    (first >>= next).run.Within allowed := by
  rw [ExceptT.run_bind]
  refine Procedure.within_bind first_within fun result => ?_
  cases result with
  | ok value => exact next_within value
  | error error => exact Procedure.within_pure allowed _

theorem within_discard {allowed : Engine.Action → Prop} {attempt : Attempt Result}
    (within : attempt.run.Within allowed) : (discard attempt).run.Within allowed :=
  within_bind within fun _ => Procedure.within_pure allowed _

theorem run_lift (engine : Engine) (procedure : Procedure Result) :
    Procedure.run engine (liftM procedure : Attempt Result).run =
      (.ok (procedure.run engine).1, (procedure.run engine).2) :=
  Procedure.run_bind engine procedure fun result =>
    (pure (.ok result) : Procedure (Except RuleError Result))

/-- An attempt goes on where the one before it left off, unless that failed. -/
theorem run_bind (engine : Engine) (first : Attempt First) (next : First → Attempt Second) :
    Procedure.run engine (first >>= next).run =
      match Procedure.run engine first.run with
      | (.ok value, after) => Procedure.run after (next value).run
      | (.error error, after) => (.error error, after) := by
  rw [ExceptT.run_bind, Procedure.run_bind]
  rcases Procedure.run engine first.run with ⟨value | error, after⟩ <;> rfl

end Attempt
end FormRules
