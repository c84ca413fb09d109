import FormRules.Compile.Cache
import FormRules.Metric
import FormRules.Store

/-!
# Procedures on the state of an engine

An engine is a rule store, a compile cache and a record of metrics. Whatever a request does to them
it does by single calls, each of which happens at once; a procedure is the tree of the calls that a
request makes, where each further call may depend on the answers so far. Run alone, a procedure
makes its calls one after the other; several procedures may take turns call by call.
-/

namespace FormRules

/-- The state of an engine. -/
structure Engine where
  store : Store
  cache : Cache
  metrics : MetricLog

namespace Engine

/-- An engine that has just started on a store. -/
def start (store : Store) : Engine := ⟨store, .empty, []⟩

/-- A single call on the state. -/
inductive Action where
  | listActive (objectType : String)
  | listAll
  | get (id : Uuid)
  | create (id : Uuid) (now : Instant) (input : NewRule)
  | update (id : Uuid) (patch : RulePatch) (now : Instant)
  | delete (id : Uuid)
  /-- Looks for a compiled expression. -/
  | lookUp (source : String)
  /-- Keeps a compiled expression. -/
  | keep (source : String) (compiled : CompiledExpression)
  /-- Drops a compiled expression. -/
  | evict (source : String)
  /-- Counts something. -/
  | count (metric : Metric)

/-- The type of the answer to a call. -/
def Action.Answer : Action → Type
  | listActive _ => Except RuleError (List Rule)
  | listAll => Except RuleError (List Rule)
  | get _ => Except RuleError Rule
  | create .. => Except RuleError Rule
  | update .. => Except RuleError Rule
  | delete _ => Except RuleError Unit
  | lookUp _ => Option CompiledExpression
  | keep .. => CompiledExpression
  | evict _ => Bool
  | count _ => Unit

/-- The engine with another store and the answer that came with it. -/
def withStore {Answer : Type} (engine : Engine) (result : Answer × Store) : Answer × Engine :=
  (result.1, { engine with store := result.2 })

/-- The engine with another cache and the answer that came with it. -/
def withCache {Answer : Type} (engine : Engine) (result : Answer × Cache) : Answer × Engine :=
  (result.1, { engine with cache := result.2 })

/-- Makes a call. -/
def perform (engine : Engine) : (action : Action) → action.Answer × Engine
  | .listActive objectType => engine.withStore (engine.store.listActive objectType)
  | .listAll => engine.withStore engine.store.listAll
  | .get id => engine.withStore (engine.store.get id)
  | .create id now input => engine.withStore (engine.store.create id now input)
  | .update id patch now => engine.withStore (engine.store.update id patch now)
  | .delete id => engine.withStore (engine.store.delete id)
  | .lookUp source => engine.withCache (engine.cache.lookUp source)
  | .keep source compiled => engine.withCache (engine.cache.keep source compiled)
  | .evict source => engine.withCache (engine.cache.evict source)
  | .count metric => ((), { engine with metrics := metric :: engine.metrics })

end Engine

/-- What a request does: it ends with a result, or makes a call and goes on with the answer. -/
inductive Procedure (Result : Type) where
  | done (result : Result)
  | perform (action : Engine.Action) (resume : action.Answer → Procedure Result)

namespace Procedure

/-- One procedure after another. -/
def bind {First Second : Type} (next : First → Procedure Second) :
    Procedure First → Procedure Second
  | done result => next result
  | perform action resume => perform action fun answer => (resume answer).bind next

instance : Monad Procedure where
  pure := done
  bind first next := first.bind next

/-- A single call. -/
def call (action : Engine.Action) : Procedure action.Answer :=
  perform action done

/-- Runs a procedure alone. -/
def run {Result : Type} (engine : Engine) : Procedure Result → Result × Engine
  | done result => (result, engine)
  | perform action resume =>
      let (answer, next) := engine.perform action
      (resume answer).run next

@[simp]
theorem run_done {Result : Type} (engine : Engine) (result : Result) :
    (done result).run engine = (result, engine) := rfl

@[simp]
theorem run_pure {Result : Type} (engine : Engine) (result : Result) :
    (pure result : Procedure Result).run engine = (result, engine) := rfl

@[simp]
theorem run_call (engine : Engine) (action : Engine.Action) :
    (call action).run engine = engine.perform action := rfl

@[simp]
theorem run_bind {First Second : Type} (engine : Engine) (first : Procedure First)
    (next : First → Procedure Second) :
    (first >>= next).run engine =
      (next (first.run engine).1).run (first.run engine).2 := by
  induction first generalizing engine with
  | done result => rfl
  | perform action resume ih => exact ih (engine.perform action).1 (engine.perform action).2

end Procedure

/-- A procedure that may fail. -/
abbrev Attempt (Result : Type) := ExceptT RuleError Procedure Result

namespace Attempt

/-- A call that may fail. -/
def ofProcedure {Result : Type} (procedure : Procedure (Except RuleError Result)) :
    Attempt Result :=
  procedure

end Attempt
end FormRules
