import FormRules.Proofs.Engine.Evaluation
import FormRules.Proofs.Store.Listing

/-!
# Histories of an engine

Between two requests an engine is in a state that some list of commands leads to: requests to the
engine, direct writes to its store, and the removal of entries from its cache. In every such state
the cache is faithful and the store keyed and without outages.
-/

namespace FormRules.Engine

/-- Something that is done to an engine, one at a time. -/
inductive Command where
  | createRule (id : Uuid) (now : Instant) (input : NewRule)
  | updateRule (id : Uuid) (patch : RulePatch) (now : Instant)
  | deleteRule (id : Uuid)
  | evaluateRules (objectType : String) (record : FieldRecord) (today : Date)
  | evaluateLoaded (rules : List Rule) (record : FieldRecord) (today : Date)
  /-- Trying an expression takes neither the store nor the cache. -/
  | tryExpression (source : String) (record : FieldRecord) (today : Date)
  | compile (source : String)
  /-- Drops one entry of the cache. -/
  | invalidate (source : String)
  /-- Drops all entries of the cache. -/
  | clearCache
  /-- Writes a whole rule into the store, past the engine. -/
  | insertRule (rule : Rule)
  /-- Calls the store directly, past the engine. -/
  | storeCreate (id : Uuid) (now : Instant) (input : NewRule)
  | storeUpdate (id : Uuid) (patch : RulePatch) (now : Instant)
  | storeDelete (id : Uuid)
  | clearStore

/-- The engine after a command. -/
def execute (limits : Limits) (engine : Engine) : Command → Engine
  | .createRule id now input => (Procedure.run engine (createRule limits id now input).run).2
  | .updateRule id patch now => (Procedure.run engine (updateRule limits id patch now).run).2
  | .deleteRule id => (Procedure.run engine (deleteRule id).run).2
  | .evaluateRules objectType record today =>
      (Procedure.run engine (evaluateRules limits objectType record today).run).2
  | .evaluateLoaded rules record today =>
      ((evaluateLoaded limits record today rules).run engine).2
  | .tryExpression _ _ _ => engine
  | .compile source => ((compile limits source).run engine).2
  | .invalidate source => (engine.perform (.evict source)).2
  | .clearCache => { engine with cache := engine.cache.clear }
  | .insertRule rule => { engine with store := engine.store.insert rule }
  | .storeCreate id now input => (engine.perform (.create id now input)).2
  | .storeUpdate id patch now => (engine.perform (.update id patch now)).2
  | .storeDelete id => (engine.perform (.delete id)).2
  | .clearStore => { engine with store := engine.store.clear }

/-- The engine that has just started on an empty store, after a history of commands. -/
def afterHistory (limits : Limits) (history : List Command) : Engine :=
  history.foldl (execute limits) (start .empty)

/-- What holds of an engine between any two commands. -/
structure Consistent (limits : Limits) (engine : Engine) : Prop where
  faithful : engine.cache.Faithful limits
  keyed : engine.store.Keyed
  answers : engine.store.outages = .none

theorem consistent_start (limits : Limits) : (start .empty).Consistent limits where
  faithful := Cache.faithful_empty limits
  keyed := Store.keyed_empty
  answers := rfl

theorem keyed_perform (engine : Engine) (action : Action) (keyed : engine.store.Keyed) :
    (engine.perform action).2.store.Keyed := by
  cases action with
  | listActive objectType => exact Store.keyed_listActive keyed objectType
  | listAll => exact Store.keyed_listAll keyed
  | get id => exact Store.keyed_get keyed id
  | create id now input => exact Store.keyed_create keyed id now input
  | update id patch now => exact Store.keyed_update keyed id patch now
  | delete id => exact Store.keyed_delete keyed id
  | _ => exact keyed

theorem outages_perform (engine : Engine) (action : Action) :
    (engine.perform action).2.store.outages = engine.store.outages := by
  cases action with
  | listActive objectType => exact engine.store.outages_listActive objectType
  | listAll => exact engine.store.outages_listAll
  | get id => exact engine.store.outages_get id
  | create id now input => exact engine.store.outages_create id now input
  | update id patch now => exact engine.store.outages_update id patch now
  | delete id => exact engine.store.outages_delete id
  | _ => rfl

theorem consistent_perform {limits : Limits} (engine : Engine) (action : Action)
    (allowed : action.Faithful limits) (consistent : engine.Consistent limits) :
    (engine.perform action).2.Consistent limits where
  faithful := faithful_perform engine action allowed consistent.faithful
  keyed := keyed_perform engine action consistent.keyed
  answers := (outages_perform engine action).trans consistent.answers

/-- A property is kept by every command if it is kept by the calls that keep the cache faithful, by
writes past the engine and by emptying the cache. -/
theorem execute_invariant {limits : Limits} {invariant : Engine → Prop}
    (step : ∀ engine action, action.Faithful limits → invariant engine →
      invariant (engine.perform action).2)
    (insert : ∀ engine rule, invariant engine →
      invariant { engine with store := engine.store.insert rule })
    (clear_store : ∀ engine, invariant engine →
      invariant { engine with store := engine.store.clear })
    (clear_cache : ∀ engine, invariant engine →
      invariant { engine with cache := engine.cache.clear })
    {engine : Engine} (initial : invariant engine) (command : Command) :
    invariant (execute limits engine command) := by
  cases command with
  | createRule id now input =>
      exact Procedure.run_invariant step (within_createRule limits id now input) initial
  | updateRule id patch now =>
      exact Procedure.run_invariant step (within_updateRule limits id patch now) initial
  | deleteRule id => exact Procedure.run_invariant step (within_deleteRule limits id) initial
  | evaluateRules objectType record today =>
      exact Procedure.run_invariant step (within_evaluateRules limits objectType record today)
        initial
  | evaluateLoaded rules record today =>
      exact Procedure.run_invariant step (faithful_evaluateLoaded limits record today rules) initial
  | tryExpression => exact initial
  | compile source => exact Procedure.run_invariant step (faithful_compile limits source) initial
  | invalidate source => exact step engine (.evict source) trivial initial
  | clearCache => exact clear_cache engine initial
  | insertRule rule => exact insert engine rule initial
  | storeCreate id now input => exact step engine (.create id now input) trivial initial
  | storeUpdate id patch now => exact step engine (.update id patch now) trivial initial
  | storeDelete id => exact step engine (.delete id) trivial initial
  | clearStore => exact clear_store engine initial

/-- Every command keeps an engine consistent. -/
theorem consistent_execute {limits : Limits} {engine : Engine}
    (consistent : engine.Consistent limits) (command : Command) :
    (execute limits engine command).Consistent limits := by
  refine execute_invariant consistent_perform ?_ ?_ ?_ consistent command
  · exact fun engine rule kept =>
      ⟨kept.faithful, Store.keyed_insert kept.keyed rule, kept.answers⟩
  · exact fun engine kept => ⟨kept.faithful, Store.keyed_clear engine.store, kept.answers⟩
  · exact fun engine kept =>
      ⟨Cache.faithful_clear limits engine.cache, kept.keyed, kept.answers⟩

theorem consistent_afterHistory (limits : Limits) (history : List Command) :
    (afterHistory limits history).Consistent limits := by
  have kept : ∀ engine : Engine, engine.Consistent limits →
      (history.foldl (execute limits) engine).Consistent limits := by
    induction history with
    | nil => exact fun _ consistent => consistent
    | cons command rest induction =>
        exact fun engine consistent => induction _ (consistent_execute consistent command)
  exact kept _ (consistent_start limits)

end FormRules.Engine
