import Mathlib.Data.List.Induction
import FormRules.Proofs.Engine.Contract
import FormRules.Proofs.Engine.Request

/-!
# Sessions

In a session any number of requests share an engine. They take turns call by call in whatever order
the events say, and entries of the compile cache may be dropped at any moment. Each request goes its
own way: what it has left to do follows from the calls that it has made and their answers.
-/

namespace FormRules.Engine

/-- A request that an engine is at work on. -/
structure Task (limits : Limits) where
  request : Request
  /-- The calls that were made for it and their answers, the first one first. -/
  trace : List Exchange
  /-- What is left to do. -/
  rest : Procedure Response
  follows : (request.procedure limits).Follows trace rest

namespace Task

variable {limits : Limits}

/-- A request that nothing was done about yet. -/
def ofRequest (limits : Limits) (request : Request) : Task limits :=
  ⟨request, [], request.procedure limits, .nothing _⟩

/-- The next call of a task is made, if there is one. -/
def advance (engine : Engine) : Task limits → Task limits × Engine
  | ⟨request, trace, .done response, follows⟩ => (⟨request, trace, .done response, follows⟩, engine)
  | ⟨request, trace, .perform action resume, follows⟩ =>
      let (answer, next) := engine.perform action
      (⟨request, trace ++ [⟨action, answer⟩], resume answer, follows.snoc answer⟩, next)

/-- One call further in a task: it is recorded, and its answer decides what is left. -/
structure Continues (next task : Task limits) {action : Action}
    (resume : action.Answer → Procedure Response) (answer : action.Answer) : Prop where
  request : next.request = task.request
  trace : next.trace = task.trace ++ [⟨action, answer⟩]
  rest : next.rest = resume answer

theorem advance_of_done (engine : Engine) {task : Task limits} {response : Response}
    (done : task.rest = .done response) : task.advance engine = (task, engine) := by
  obtain ⟨request, trace, rest, follows⟩ := task
  subst done
  rfl

theorem exists_advance (engine : Engine) {task : Task limits} {action : Action}
    {resume : action.Answer → Procedure Response} (rest : task.rest = .perform action resume) :
    ∃ next : Task limits, next.Continues task resume (engine.perform action).1 ∧
      task.advance engine = (next, (engine.perform action).2) := by
  obtain ⟨request, trace, rest, follows⟩ := task
  subst rest
  exact ⟨(advance engine ⟨request, trace, .perform action resume, follows⟩).1,
    ⟨rfl, rfl, rfl⟩, rfl⟩

section Contract

variable {task : Task limits} {rely : Exchange → Prop} {guarantee : List Exchange → Action → Prop}
  {post : List Exchange → Response → Prop}

/-- The next call of a task is guaranteed by the contract of its request. -/
theorem guaranteed (abides : (task.request.procedure limits).Abides rely guarantee post [])
    (relied : ∀ exchange ∈ task.trace, rely exchange) {action : Action}
    {resume : action.Answer → Procedure Response} (rest : task.rest = .perform action resume) :
    guarantee task.trace action := by
  have promise := abides.follows task.follows relied
  rw [rest] at promise
  exact promise.1

/-- What a task has come to is promised by the contract of its request. -/
theorem promised (abides : (task.request.procedure limits).Abides rely guarantee post [])
    (relied : ∀ exchange ∈ task.trace, rely exchange) {response : Response}
    (rest : task.rest = .done response) : post task.trace response := by
  have promise := abides.follows task.follows relied
  rw [rest] at promise
  exact promise

end Contract

end Task

/-- An engine and the requests that it is at work on, in the order in which they came. -/
structure Session (limits : Limits) where
  engine : Engine
  tasks : List (Task limits)

/-- Something that happens in a session. -/
inductive Event where
  | arrive (request : Request)
  /-- The task at a place makes its next call. -/
  | turn (place : Nat)
  /-- Drops one entry of the cache. -/
  | invalidate (source : String)
  /-- Drops all entries of the cache. -/
  | clearCache

namespace Session

variable {limits : Limits}

/-- The session after a turn of the task at a place. -/
def turn (session : Session limits) (place : Nat) : Session limits :=
  match session.tasks[place]? with
  | none => session
  | some task =>
      let (next, engine) := task.advance session.engine
      ⟨engine, session.tasks.set place next⟩

/-- The session after an event. -/
def after (session : Session limits) : Event → Session limits
  | .arrive request => { session with tasks := session.tasks ++ [.ofRequest limits request] }
  | .turn place => session.turn place
  | .invalidate source => { session with engine := (session.engine.perform (.evict source)).2 }
  | .clearCache =>
      { session with engine := { session.engine with cache := session.engine.cache.clear } }

/-- The session on an engine after some events. -/
def run (limits : Limits) (engine : Engine) (events : List Event) : Session limits :=
  events.foldl after ⟨engine, []⟩

@[simp]
theorem run_nil (limits : Limits) (engine : Engine) : run limits engine [] = ⟨engine, []⟩ := rfl

theorem run_snoc (limits : Limits) (engine : Engine) (events : List Event) (event : Event) :
    run limits engine (events ++ [event]) = (run limits engine events).after event := by
  simp [run]

/-- The turn of a task that is not done makes its next call and leaves the other tasks alone. -/
theorem exists_turn (session : Session limits) {place : Nat} {task : Task limits} {action : Action}
    {resume : action.Answer → Procedure Response} (found : session.tasks[place]? = some task)
    (rest : task.rest = .perform action resume) :
    ∃ next : Task limits, next.Continues task resume (session.engine.perform action).1 ∧
      session.turn place =
        ⟨(session.engine.perform action).2, session.tasks.set place next⟩ := by
  obtain ⟨next, continues, advance⟩ := Task.exists_advance session.engine rest
  refine ⟨next, continues, ?_⟩
  simp [turn, found, advance]

/-- A turn does nothing, or it is the turn of a task that is not done. -/
theorem turn_cases (session : Session limits) (place : Nat) :
    session.turn place = session ∨
      ∃ task action resume, session.tasks[place]? = some task ∧
        task.rest = .perform action resume ∧
        ∃ next : Task limits, next.Continues task resume (session.engine.perform action).1 ∧
          session.turn place =
            ⟨(session.engine.perform action).2, session.tasks.set place next⟩ := by
  cases found : session.tasks[place]? with
  | none => exact .inl (by simp [turn, found])
  | some task =>
      cases rest : task.rest with
      | done response =>
          obtain ⟨inside, task_eq⟩ := List.getElem?_eq_some_iff.1 found
          left
          simp only [turn, found, Task.advance_of_done _ rest]
          rw [← task_eq, List.set_getElem_self]
      | perform action resume =>
          exact .inr ⟨task, action, resume, rfl, rest, session.exists_turn found rest⟩

/-- A task that gets turns while nothing else happens does what its procedure does alone. -/
theorem exists_turns (session : Session limits) {place : Nat} {task : Task limits}
    (found : session.tasks[place]? = some task) :
    ∃ count, ∃ done : Task limits, done.request = task.request ∧
      done.rest = .done (task.rest.run session.engine).1 ∧
      (List.replicate count (Event.turn place)).foldl after session =
        ⟨(task.rest.run session.engine).2, session.tasks.set place done⟩ := by
  generalize rest_eq : task.rest = rest
  induction rest generalizing session task with
  | done response =>
      obtain ⟨inside, task_eq⟩ := List.getElem?_eq_some_iff.1 found
      refine ⟨0, task, rfl, rest_eq, ?_⟩
      rw [← task_eq, List.set_getElem_self]
      rfl
  | perform action resume induction =>
      obtain ⟨next, continues, turned⟩ := session.exists_turn found rest_eq
      obtain ⟨inside, -⟩ := List.getElem?_eq_some_iff.1 found
      have next_found : (session.turn place).tasks[place]? = some next := by
        rw [turned, List.getElem?_set_self inside]
      obtain ⟨count, done, request, done_rest, final⟩ :=
        induction _ (session.turn place) next_found continues.rest
      refine ⟨count + 1, done, request.trans continues.request, ?_, ?_⟩
      · rw [turned] at done_rest
        exact done_rest
      · rw [turned, List.set_set] at final
        rw [List.replicate_succ, List.foldl_cons, after, turned]
        exact final

/-- Only requests that arrived are worked on. -/
theorem arrived_of_mem (limits : Limits) (engine : Engine) (events : List Event) :
    ∀ task ∈ (run limits engine events).tasks, Event.arrive task.request ∈ events := by
  induction events using List.reverseRecOn with
  | nil => simp
  | append_singleton events event induction =>
      intro task member
      rw [run_snoc] at member
      rw [List.mem_append, List.mem_singleton]
      cases event with
      | arrive request =>
          obtain earlier | rfl := by simpa [after] using member
          · exact .inl (induction task earlier)
          · exact .inr rfl
      | turn place =>
          obtain same | ⟨before, _, _, found, _, next, continues, turned⟩ :=
            (run limits engine events).turn_cases place
          · rw [after, same] at member
            exact .inl (induction task member)
          · rw [after, turned] at member
            obtain earlier | rfl := List.mem_or_eq_of_mem_set member
            · exact .inl (induction task earlier)
            · rw [continues.request]
              exact .inl (induction before (List.mem_of_getElem? found))
      | invalidate source => exact .inl (induction task member)
      | clearCache => exact .inl (induction task member)

/-- What all requests of a session guarantee carries an invariant of the engine through it, and the
invariant makes good what they rely on. -/
theorem run_invariant {invariant : Engine → Prop} {rely : Exchange → Prop}
    {guarantee : Action → Prop}
    (step : ∀ engine action, guarantee action → invariant engine →
      invariant (engine.perform action).2 ∧ rely ⟨action, (engine.perform action).1⟩)
    (invalidate : ∀ source, guarantee (.evict source))
    (clear : ∀ engine, invariant engine → invariant { engine with cache := engine.cache.clear })
    {engine : Engine} (initial : invariant engine) {events : List Event}
    (abides : ∀ request, Event.arrive request ∈ events →
      (request.procedure limits).Abides rely (fun _ => guarantee) (fun _ _ => True) []) :
    invariant (run limits engine events).engine ∧
      ∀ task ∈ (run limits engine events).tasks, ∀ exchange ∈ task.trace, rely exchange := by
  induction events using List.reverseRecOn with
  | nil => exact ⟨initial, by simp⟩
  | append_singleton events event induction =>
      obtain ⟨kept, relied⟩ := induction fun request arrived =>
        abides request (List.mem_append_left _ arrived)
      rw [run_snoc]
      cases event with
      | arrive request =>
          refine ⟨kept, fun task member => ?_⟩
          obtain earlier | rfl := by simpa [after] using member
          · exact relied task earlier
          · simp [Task.ofRequest]
      | turn place =>
          obtain same | ⟨task, action, resume, found, rest, next, continues, turned⟩ :=
            (run limits engine events).turn_cases place
          · rw [after, same]
            exact ⟨kept, relied⟩
          have member : task ∈ (run limits engine events).tasks := List.mem_of_getElem? found
          have arrived := arrived_of_mem limits engine events task member
          have allowed := Task.guaranteed (abides task.request (List.mem_append_left _ arrived))
            (relied task member) rest
          obtain ⟨after_kept, answer_relied⟩ := step _ action allowed kept
          rw [after, turned]
          refine ⟨after_kept, fun other other_member => ?_⟩
          obtain earlier | rfl := List.mem_or_eq_of_mem_set other_member
          · exact relied other earlier
          · rw [continues.trace, List.forall_mem_append]
            exact ⟨relied task member, by simpa using answer_relied⟩
      | invalidate source => exact ⟨(step _ _ (invalidate source) kept).1, relied⟩
      | clearCache => exact ⟨clear _ kept, relied⟩

end Session
end FormRules.Engine
