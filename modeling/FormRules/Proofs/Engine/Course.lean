import FormRules.Proofs.Engine.History
import FormRules.Proofs.Engine.Isolation

/-!
# Courses of an engine

What an engine may have been through by the time it is asked something: commands one after another,
sessions of requests that took turns, and outages of its store that began or ended. Whatever its
course was, its cache is faithful and its store keyed.
-/

namespace FormRules

namespace Engine

/-- A part of the course of an engine. -/
inductive Episode where
  | command (command : Command)
  /-- Requests take turns, call by call; some may be left undone. -/
  | session (events : List Event)
  /-- From now on these calls of the store fail, with whatever errors, and no others. -/
  | outages (outages : Outages)

/-- The engine after an episode. -/
def undergo (limits : Limits) (engine : Engine) : Episode → Engine
  | .command command => execute limits engine command
  | .session events => (Session.run limits engine events).engine
  | .outages outages => { engine with store.outages := outages }

/-- The engine that has just started on an empty store, after a course. -/
def afterCourse (limits : Limits) (course : List Episode) : Engine :=
  course.foldl (undergo limits) (start .empty)

/-- What holds of an engine at any point of its course. -/
structure Sound (limits : Limits) (engine : Engine) : Prop where
  faithful : engine.cache.Faithful limits
  keyed : engine.store.Keyed

theorem sound_start (limits : Limits) : (start .empty).Sound limits where
  faithful := Cache.faithful_empty limits
  keyed := Store.keyed_empty

theorem sound_perform {limits : Limits} (engine : Engine) (action : Action)
    (allowed : action.Faithful limits) (sound : engine.Sound limits) :
    (engine.perform action).2.Sound limits where
  faithful := faithful_perform engine action allowed sound.faithful
  keyed := keyed_perform engine action sound.keyed

theorem Sound.clearCache {limits : Limits} {engine : Engine} (sound : engine.Sound limits) :
    { engine with cache := engine.cache.clear }.Sound limits :=
  ⟨Cache.faithful_clear limits engine.cache, sound.keyed⟩

theorem sound_run {limits : Limits} {Result : Type} {procedure : Procedure Result}
    (within : procedure.Within (Action.Faithful limits)) {engine : Engine}
    (sound : engine.Sound limits) : (procedure.run engine).2.Sound limits :=
  Procedure.run_invariant sound_perform within sound

theorem sound_execute {limits : Limits} {engine : Engine} (sound : engine.Sound limits)
    (command : Command) : (execute limits engine command).Sound limits := by
  refine execute_invariant sound_perform ?_ ?_ ?_ sound command
  · exact fun engine rule kept => ⟨kept.faithful, Store.keyed_insert kept.keyed rule⟩
  · exact fun engine kept => ⟨kept.faithful, Store.keyed_clear engine.store⟩
  · exact fun engine kept => kept.clearCache

/-- However the requests of a session take turns, the engine stays sound. -/
theorem sound_session {limits : Limits} {engine : Engine} (sound : engine.Sound limits)
    (events : List Event) : (Session.run limits engine events).engine.Sound limits := by
  have step (engine : Engine) (action : Action) (allowed : action.Faithful limits)
      (sound : engine.Sound limits) : (engine.perform action).2.Sound limits ∧ True :=
    ⟨sound_perform engine action allowed sound, trivial⟩
  have abides (request : Request) (_ : Event.arrive request ∈ events) :
      (request.procedure limits).Abides (fun _ => True)
        (fun _ action => action.Faithful limits) (fun _ _ => True) [] :=
    (faithful_procedure limits request).abides.mono (fun _ relied => relied)
      (fun _ _ allowed => allowed.1) fun _ _ _ => trivial
  exact (Session.run_invariant step (fun _ => trivial) (fun _ kept => kept.clearCache) sound
    abides).1

theorem sound_undergo {limits : Limits} {engine : Engine} (sound : engine.Sound limits)
    (episode : Episode) : (undergo limits engine episode).Sound limits := by
  cases episode with
  | command command => exact sound_execute sound command
  | session events => exact sound_session sound events
  | outages outages => exact ⟨sound.faithful, sound.keyed⟩

/-- An engine is sound at any point of its course. -/
theorem sound_afterCourse (limits : Limits) (course : List Episode) :
    (afterCourse limits course).Sound limits := by
  induction course using List.reverseRecOn with
  | nil => exact sound_start limits
  | append_singleton course episode induction =>
      rw [afterCourse, List.foldl_append]
      exact sound_undergo induction episode

end Engine
end FormRules
