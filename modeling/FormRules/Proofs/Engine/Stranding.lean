import FormRules.Proofs.Engine.Effects
import FormRules.Proofs.Engine.Isolation

/-!
# How expressions are stranded

Changes, removals and evaluations that share an engine account together for every cached expression:
a stored rule has it, or a change that compiled it has still to write it, or a change that took it
from its rule has still to drop it. Two things go wrong with that. A request drops the expression
that it has read, which need not be the one that it takes from the rule by then; and an evaluation
may keep an expression after the last rule that had it is gone. An expression that is cached in the
end without a rule was stranded in one of these ways at some turn.
-/

namespace FormRules.Engine

/-- The expression that a request gives to a rule. -/
def Request.newExpression : Request → Option String
  | updateRule _ patch _ => patch.expression
  | _ => none

/-- The request stores a new rule. -/
def Request.Creates : Request → Prop
  | createRule .. => True
  | _ => False

/-- A rule with this expression was read. -/
def Exchange.Reads (source : String) : Exchange → Prop
  | ⟨.get _, .ok rule⟩ => rule.expression = source
  | _ => False

/-- A rule was removed or got an expression other than this one. -/
def Exchange.Ends (source : String) : Exchange → Prop
  | ⟨.update .., .ok rule⟩ => rule.expression ≠ source
  | ⟨.delete _, .ok _⟩ => True
  | _ => False

/-- An expression was read and a change was made on that, but it was not dropped yet. -/
structure Owes (trace : List Exchange) (source : String) : Prop where
  read : ∃ exchange ∈ trace, exchange.Reads source
  ended : ∃ exchange ∈ trace, exchange.Ends source
  undropped : ∀ exchange ∈ trace, exchange.action ≠ .evict source

/-- A rule was read and nothing was dropped yet. -/
structure Prepared (trace : List Exchange) (id : Uuid) : Prop where
  read : ∃ previous, ⟨.get id, .ok previous⟩ ∈ trace
  undropped : ∀ exchange ∈ trace, ∀ source, exchange.action ≠ .evict source

/-- What a request does only at the right time: it keeps no expressions but those of an evaluation
and the one that it has still to write, and takes no expression from a rule that it has not read. -/
def Request.Orders (request : Request) (trace : List Exchange) : Action → Prop
  | .create .. => False
  | .keep source _ =>
      request.Evaluates ∨
        request.newExpression = some source ∧ ∀ exchange ∈ trace, ¬ exchange.Writes
  | .update id patch _ =>
      request.newExpression = patch.expression ∧ (patch.expression = none ∨ Prepared trace id)
  | .delete id => request.newExpression = none ∧ Prepared trace id
  | _ => True

/-- A request that succeeded has written the expression that it gives to a rule, and dropped the one
that it took. -/
def Request.Settles (request : Request) (trace : List Exchange) (response : Response) : Prop :=
  response.Succeeds →
    (request.newExpression ≠ none → ∃ exchange ∈ trace, exchange.Writes) ∧
      ∀ source, ¬ Owes trace source

/-! ## The order of calls -/

section Quiet

variable {exchange : Exchange} (spares : ¬ exchange.action.UsesStore)
include spares

theorem not_writes_of_spares : ¬ exchange.Writes := by
  obtain ⟨action, answer⟩ := exchange
  cases action with
  | lookUp => exact id
  | keep => exact id
  | evict => exact id
  | count => exact id
  | _ => exact absurd trivial spares

theorem not_reads_of_spares (source : String) : ¬ exchange.Reads source := by
  obtain ⟨action, answer⟩ := exchange
  cases action with
  | get => exact absurd trivial spares
  | _ => exact id

theorem not_ends_of_spares (source : String) : ¬ exchange.Ends source := by
  obtain ⟨action, answer⟩ := exchange
  cases action with
  | update => exact absurd trivial spares
  | delete => exact absurd trivial spares
  | _ => exact id

end Quiet

/-- A request that read a rule owes nothing once it has dropped what its write ended. -/
theorem not_owes_of_dropped {trace made dropped : List Exchange} {id : Uuid} {previous : Rule}
    {write : Exchange} (trace_eq : trace = made ++ ⟨.get id, .ok previous⟩ :: write :: dropped)
    (made_spares : ∀ exchange ∈ made, ¬ exchange.action.UsesStore)
    (write_reads : ∀ source, ¬ write.Reads source)
    (dropped_spares : ∀ exchange ∈ dropped, ¬ exchange.action.UsesStore)
    (drops : write.Ends previous.expression →
      ∃ exchange ∈ dropped, exchange.action = .evict previous.expression) (source : String) :
    ¬ Owes trace source := by
  subst trace_eq
  rintro ⟨⟨read, read_member, reads⟩, ⟨ended, ended_member, ends⟩, undropped⟩
  have previous_eq : previous.expression = source := by
    simp only [List.mem_append, List.mem_cons] at read_member
    obtain before | rfl | rfl | after := read_member
    · exact absurd reads (not_reads_of_spares (made_spares read before) source)
    · exact reads
    · exact absurd reads (write_reads source)
    · exact absurd reads (not_reads_of_spares (dropped_spares read after) source)
  subst previous_eq
  simp only [List.mem_append, List.mem_cons] at ended_member
  obtain before | rfl | rfl | after := ended_member
  · exact not_ends_of_spares (made_spares ended before) _ ends
  · exact ends
  · obtain ⟨exchange, member, evicts⟩ := drops ends
    exact undropped exchange (by simp [member]) evicts
  · exact not_ends_of_spares (dropped_spares ended after) _ ends

section Orders

variable (limits : Limits)

theorem orders_updateRule_of_none (id : Uuid) {patch : RulePatch} (now : Instant)
    (absent : patch.expression = none) :
    ((Request.updateRule id patch now).procedure limits).Abides (fun _ => True)
      (Request.updateRule id patch now).Orders (Request.updateRule id patch now).Settles [] := by
  rw [Request.procedure_updateRule_of_none limits id now absent]
  refine Procedure.abides_call_bind ⟨rfl, .inl absent⟩ fun answer _ => ?_
  apply Procedure.abides_pure
  intro _
  refine ⟨fun given => absurd absent given, fun source owes => ?_⟩
  obtain ⟨exchange, member, reads⟩ := owes.read
  obtain rfl := List.mem_singleton.1 member
  exact reads

/-- Compiling the expression that a change gives to a rule comes before everything else in it. -/
theorem orders_compile {request : Request} {expression : String}
    (given : request.newExpression = some expression) :
    (compile limits expression).Abides (fun _ => True) request.Orders
      (fun trace _ => ∀ exchange ∈ trace, exchange.action.Compiles limits expression) [] := by
  refine ((within_compile limits expression).abides).mono (fun _ relied => relied) ?_ ?_
  · rintro trace action ⟨compiles, made, rfl, made_compiles⟩
    cases action with
    | lookUp => trivial
    | keep source compiled =>
        refine .inr ⟨compiles.1 ▸ given, fun exchange member => ?_⟩
        exact not_writes_of_spares (Action.Compiles.spares (made_compiles exchange member))
    | _ => exact compiles.elim
  · rintro trace result ⟨made, rfl, made_compiles⟩
    exact made_compiles

theorem orders_updateRule_of_some (id : Uuid) {patch : RulePatch} (now : Instant)
    {expression : String} (given : patch.expression = some expression) :
    ((Request.updateRule id patch now).procedure limits).Abides (fun _ => True)
      (Request.updateRule id patch now).Orders (Request.updateRule id patch now).Settles [] := by
  rw [Request.procedure_updateRule_of_some limits id now given]
  have compiling := orders_compile limits (show (Request.updateRule id patch now).newExpression =
    some expression from given)
  refine Procedure.abides_bind compiling fun made result made_compiles => ?_
  cases result with
  | error => exact Procedure.abides_pure fun succeeds => nomatch succeeds
  | ok compiled =>
      refine Procedure.abides_call_bind trivial fun previous _ => ?_
      cases previous with
      | error => exact Procedure.abides_pure fun succeeds => nomatch succeeds
      | ok previous =>
          have made_spares : ∀ exchange ∈ made, ¬ exchange.action.UsesStore :=
            fun exchange member => Action.Compiles.spares (made_compiles exchange member)
          have prepared : Prepared (made ++ [⟨.get id, .ok previous⟩]) id := by
            refine ⟨⟨previous, by simp⟩, fun exchange member source evicts => ?_⟩
            obtain compiles | rfl := by simpa using member
            · have member_compiles := made_compiles exchange compiles
              rw [evicts] at member_compiles
              exact member_compiles
            · contradiction
          refine Procedure.abides_call_bind ⟨rfl, .inr prepared⟩ fun answer _ => ?_
          cases answer with
          | error => exact Procedure.abides_pure fun succeeds => nomatch succeeds
          | ok rule =>
              let write : Exchange := ⟨.update id patch now, .ok rule⟩
              have wrote : write.Writes := trivial
              dsimp only
              split
              case isTrue differ =>
                refine Procedure.abides_call_bind trivial fun dropped _ => Procedure.abides_pure ?_
                refine fun _ => ⟨fun _ => ⟨write, by simp [write], wrote⟩, ?_⟩
                have trace_eq : made ++ [⟨.get id, .ok previous⟩] ++ [write] ++
                    [⟨.evict previous.expression, dropped⟩] =
                    made ++ ⟨.get id, .ok previous⟩ :: write ::
                      [⟨.evict previous.expression, dropped⟩] := by simp
                exact not_owes_of_dropped trace_eq made_spares (fun _ reads => reads)
                  (by simp [Action.UsesStore]) fun _ => ⟨_, List.mem_singleton_self _, rfl⟩
              case isFalse same =>
                refine Procedure.abides_pure fun _ => ⟨fun _ => ⟨write, by simp [write], wrote⟩, ?_⟩
                have trace_eq : made ++ [⟨.get id, .ok previous⟩] ++ [write] =
                    made ++ ⟨.get id, .ok previous⟩ :: write :: [] := by simp
                exact not_owes_of_dropped trace_eq made_spares (fun _ reads => reads) (by simp)
                  fun ends => absurd (not_not.1 same).symm ends

theorem orders_deleteRule (id : Uuid) :
    ((Request.deleteRule id).procedure limits).Abides (fun _ => True)
      (Request.deleteRule id).Orders (Request.deleteRule id).Settles [] := by
  rw [Request.procedure_deleteRule]
  refine Procedure.abides_call_bind trivial fun previous _ => ?_
  cases previous with
  | error => exact Procedure.abides_pure fun succeeds => nomatch succeeds
  | ok previous =>
      have prepared : Prepared [⟨.get id, .ok previous⟩] id :=
        ⟨⟨previous, by simp⟩, by simp⟩
      refine Procedure.abides_call_bind ⟨rfl, prepared⟩ fun answer _ => ?_
      cases answer with
      | error => exact Procedure.abides_pure fun succeeds => nomatch succeeds
      | ok =>
          refine Procedure.abides_call_bind trivial fun dropped _ => Procedure.abides_pure ?_
          refine fun _ => ⟨fun given => absurd rfl given, ?_⟩
          have trace_eq : [⟨.get id, .ok previous⟩] ++ [⟨.delete id, .ok ()⟩] ++
              [⟨.evict previous.expression, dropped⟩] =
              [] ++ (⟨.get id, .ok previous⟩ : Exchange) :: ⟨.delete id, .ok ()⟩ ::
                [⟨.evict previous.expression, dropped⟩] := rfl
          exact not_owes_of_dropped trace_eq (by simp) (fun _ reads => reads)
            (by simp [Action.UsesStore]) fun _ => ⟨_, List.mem_singleton_self _, rfl⟩

theorem orders_evaluateRules (objectType : String) (record : FieldRecord) (today : Date) :
    ((Request.evaluateRules objectType record today).procedure limits).Abides (fun _ => True)
      (Request.evaluateRules objectType record today).Orders
      (Request.evaluateRules objectType record today).Settles [] := by
  rw [Request.procedure_evaluateRules]
  refine Procedure.abides_call_bind trivial fun fetched _ => ?_
  cases fetched with
  | error => exact Procedure.abides_pure fun succeeds => nomatch succeeds
  | ok rules =>
      refine (evaluateFetched_spares limits objectType record today rules).abides.mono
        (fun _ relied => relied) (fun trace action allowed => ?_) fun trace response holds => ?_
      · cases action with
        | keep => exact .inl trivial
        | create => exact allowed.1 trivial
        | update => exact absurd trivial allowed.1
        | delete => exact absurd trivial allowed.1
        | _ => trivial
      · refine fun _ => ⟨fun given => absurd rfl given, fun source owes => ?_⟩
        obtain ⟨made, rfl, made_spares⟩ := holds
        obtain ⟨exchange, member, reads⟩ := owes.read
        obtain rfl | later := by simpa using member
        · exact reads
        · exact not_reads_of_spares (made_spares exchange later) source reads

/-- Every request but one that stores a new rule makes its calls in order. -/
theorem orders_procedure {request : Request} (stays : ¬ request.Creates) :
    (request.procedure limits).Abides (fun _ => True) request.Orders request.Settles [] := by
  cases request with
  | createRule => exact absurd trivial stays
  | updateRule id patch now =>
      cases given : patch.expression with
      | none => exact orders_updateRule_of_none limits id now given
      | some expression => exact orders_updateRule_of_some limits id now given
  | deleteRule id => exact orders_deleteRule limits id
  | evaluateRules objectType record today =>
      exact orders_evaluateRules limits objectType record today
  | tryExpression =>
      refine Procedure.abides_pure fun _ => ⟨fun given => absurd rfl given, fun source owes => ?_⟩
      obtain ⟨exchange, member, -⟩ := owes.read
      exact absurd member List.not_mem_nil

end Orders

/-! ## What accounts for a cached expression -/

variable {limits : Limits}

/-- The call takes an expression from the rule with an identifier. -/
def Action.Takes (id : Uuid) (source : String) : Action → Prop
  | .update place patch _ =>
      place = id ∧ ∃ expression, patch.expression = some expression ∧ expression ≠ source
  | .delete place => place = id
  | _ => False

/-- The next call of a task strands an expression. -/
inductive Task.Strands (task : Task limits) (store : Store) (source : String) : Prop where
  /-- It takes the expression from a rule of which the request has read another expression. -/
  | change {action : Action} {resume : action.Answer → Procedure Response} {id : Uuid}
      {rule previous : Rule} (rest : task.rest = .perform action resume)
      (takes : action.Takes id source) (found : store.rules[id]? = some rule)
      (stored : rule.expression = source) (read : ⟨.get id, .ok previous⟩ ∈ task.trace)
      (stale : previous.expression ≠ source)
  /-- It keeps the expression for an evaluation though no rule has it any more. -/
  | keep {compiled : CompiledExpression} {resume : CompiledExpression → Procedure Response}
      (rest : task.rest = .perform (.keep source compiled) resume)
      (evaluates : task.request.Evaluates) (unused : ¬ store.Uses source)

/-- At some turn of a session an expression was stranded. -/
def Stranded (limits : Limits) (engine : Engine) (events : List Event) (source : String) : Prop :=
  ∃ front place back task, events = front ++ .turn place :: back ∧
    (Session.run limits engine front).tasks[place]? = some task ∧
    task.Strands (Session.run limits engine front).engine.store source

/-- There is a use for a cached expression, or some task will write it or drop it. -/
inductive Session.Accounts (session : Session limits) (source : String) : Prop where
  | used (uses : session.engine.store.Uses source)
  | awaited {task : Task limits} (member : task ∈ session.tasks)
      (given : task.request.newExpression = some source)
      (unwritten : ∀ exchange ∈ task.trace, ¬ exchange.Writes)
  | owed {task : Task limits} (member : task ∈ session.tasks) (owes : Owes task.trace source)

theorem Stranded.snoc {engine : Engine} {events : List Event} {source : String}
    (stranded : Stranded limits engine events source) (event : Event) :
    Stranded limits engine (events ++ [event]) source := by
  obtain ⟨front, place, back, task, rfl, found, strands⟩ := stranded
  exact ⟨front, place, back ++ [event], task, by simp, found, strands⟩

namespace Session

/-- One call of a task among others, made in order. -/
structure Turns (session next : Session limits) (place : Nat) (before after : Task limits)
    (action : Action) : Prop where
  found : session.tasks[place]? = some before
  orders : before.request.Orders before.trace action
  request : after.request = before.request
  trace : after.trace = before.trace ++ [⟨action, (session.engine.perform action).1⟩]
  engine : next.engine = (session.engine.perform action).2
  tasks : next.tasks = session.tasks.set place after

variable {session next : Session limits} {place : Nat} {before after : Task limits}
  {action : Action} {source : String}

theorem Turns.mem_after (turns : session.Turns next place before after action) :
    after ∈ next.tasks := by
  obtain ⟨inside, -⟩ := List.getElem?_eq_some_iff.1 turns.found
  rw [turns.tasks]
  exact List.mem_set inside after

/-- A turn leaves every task alone but the one whose turn it is. -/
theorem Turns.mem_of_mem (turns : session.Turns next place before after action)
    {task : Task limits} (member : task ∈ session.tasks) : task = before ∨ task ∈ next.tasks := by
  obtain ⟨other, found⟩ := List.mem_iff_getElem?.1 member
  by_cases same : place = other
  · subst same
    exact .inl (Option.some.inj (found.symm.trans turns.found))
  · right
    rw [turns.tasks]
    exact List.mem_of_getElem? ((List.getElem?_set_ne same).trans found)

/-- A request that changes the rule that it read owes the expression that it read. -/
theorem owes_of_prepared {trace : List Exchange} {id : Uuid} {previous : Rule} {exchange : Exchange}
    (prepared : Prepared trace id) (read : ⟨.get id, .ok previous⟩ ∈ trace)
    (same : previous.expression = source) (ends : exchange.Ends source) :
    Owes (trace ++ [exchange]) source := by
  refine ⟨⟨_, List.mem_append_left _ read, same⟩, ⟨exchange, by simp, ends⟩, ?_⟩
  intro other member evicts
  rw [List.mem_append, List.mem_singleton] at member
  obtain earlier | rfl := member
  · exact prepared.undropped other earlier source evicts
  · obtain ⟨action, answer⟩ := other
    subst evicts
    exact ends

/-- What a request takes from a rule it owes, or it had read another expression there. -/
theorem accounts_of_taken {resume : action.Answer → Procedure Response} {id : Uuid} {rule : Rule}
    {exchange : Exchange} (member : after ∈ next.tasks)
    (trace : after.trace = before.trace ++ [exchange])
    (rest : before.rest = .perform action resume) (takes : action.Takes id source)
    (found : session.engine.store.rules[id]? = some rule) (own : rule.expression = source)
    (prepared : Prepared before.trace id) (ends : exchange.Ends source) :
    next.Accounts source ∨ before.Strands session.engine.store source := by
  obtain ⟨previous, read⟩ := prepared.read
  by_cases same : previous.expression = source
  · exact .inl (.owed member (trace ▸ owes_of_prepared prepared read same ends))
  · exact .inr (.change rest takes found own read same)

/-- An expression in use stays accounted for, unless it is taken by a request that read another. -/
theorem Turns.accounts_of_used (turns : session.Turns next place before after action)
    {resume : action.Answer → Procedure Response} (rest : before.rest = .perform action resume)
    (uses : session.engine.store.Uses source) :
    next.Accounts source ∨ before.Strands session.engine.store source := by
  have member := turns.mem_after
  obtain ⟨-, orders, -, trace, engine, -⟩ := turns
  have store : next.engine.store = (session.engine.perform action).2.store :=
    congrArg Engine.store engine
  have changes := perform_changes session.engine action
  generalize (session.engine.perform action).1 = answer at changes trace
  generalize (session.engine.perform action).2.store = changed at changes store
  cases changes with
  | nothing => exact .inl (.used (store ▸ uses))
  | create => exact orders.elim
  | @update id rule patch now found =>
      by_cases own : rule.expression = source
      case neg =>
        have spared := Store.uses_put uses (Store.spared_of_found found own) (rule.apply patch now)
        exact .inl (.used (store ▸ spared))
      -- The changed rule has the expression: it keeps it, or the change takes it away.
      by_cases stays : (rule.apply patch now).expression = rule.expression
      case pos => exact .inl (.used (store ▸ Store.uses_put_of_same uses found stays))
      obtain ⟨-, absent | prepared⟩ := orders
      · exact absurd (by simp [Rule.apply, absent]) stays
      · cases given : patch.expression with
        | none => exact absurd (by simp [Rule.apply, given]) stays
        | some expression =>
            rw [own] at stays
            have replaced : expression ≠ source := by simpa [Rule.apply, given] using stays
            exact accounts_of_taken member trace rest ⟨rfl, expression, given, replaced⟩ found own
              prepared stays
  | @delete id rule found =>
      by_cases own : rule.expression = source
      · exact accounts_of_taken member trace rest rfl found own orders.2 trivial
      · have spared := Store.uses_remove uses (Store.spared_of_found found own)
        exact .inl (.used (store ▸ spared))

/-- An expression that a change has compiled is in use once the change has written it. -/
theorem Turns.accounts_of_awaited (turns : session.Turns next place before after action)
    {task : Task limits} (member : task ∈ session.tasks)
    (given : task.request.newExpression = some source)
    (unwritten : ∀ exchange ∈ task.trace, ¬ exchange.Writes) : next.Accounts source := by
  obtain rfl | stays := turns.mem_of_mem member
  case inr => exact .awaited stays given unwritten
  have after_member := turns.mem_after
  obtain ⟨-, orders, request, trace, engine, -⟩ := turns
  have store : next.engine.store = (session.engine.perform action).2.store :=
    congrArg Engine.store engine
  have changes := perform_changes session.engine action
  generalize (session.engine.perform action).1 = answer at changes trace
  generalize (session.engine.perform action).2.store = changed at changes store
  cases changes with
  | nothing still =>
      refine .awaited after_member (request ▸ given) ?_
      rw [trace, List.forall_mem_append]
      exact ⟨unwritten, by simpa using still⟩
  | create => exact orders.elim
  | @update id rule patch now found =>
      have patched : patch.expression = some source := orders.1.symm.trans given
      have expression_eq : (rule.apply patch now).expression = source := by
        simp [Rule.apply, patched]
      have uses := Store.uses_put_self session.engine.store id (rule.apply patch now)
      rw [expression_eq, ← store] at uses
      exact .used uses
  | delete => exact absurd (orders.1.symm.trans given) nofun

/-- An expression that a task owes stays owed until it is dropped. -/
theorem Turns.accounts_of_owed (turns : session.Turns next place before after action)
    (cached : source ∈ next.engine.cache.entries) {task : Task limits}
    (member : task ∈ session.tasks) (owes : Owes task.trace source) : next.Accounts source := by
  obtain rfl | stays := turns.mem_of_mem member
  case inr => exact .owed stays owes
  have kept : action ≠ .evict source := by
    rintro rfl
    rw [turns.engine] at cached
    exact (Cache.mem_evict.1 cached).1 rfl
  refine .owed turns.mem_after ?_
  rw [turns.trace]
  obtain ⟨⟨read, read_member, reads⟩, ⟨ended, ended_member, ends⟩, undropped⟩ := owes
  refine ⟨⟨read, List.mem_append_left _ read_member, reads⟩,
    ⟨ended, List.mem_append_left _ ended_member, ends⟩, ?_⟩
  rw [List.forall_mem_append]
  exact ⟨undropped, by simpa using kept⟩

/-- What one turn does to a cached expression: it stays accounted for, or the turn strands it. -/
theorem Turns.accounts (turns : session.Turns next place before after action)
    {resume : action.Answer → Procedure Response} (rest : before.rest = .perform action resume)
    (cached : source ∈ next.engine.cache.entries)
    (accounts : source ∈ session.engine.cache.entries → session.Accounts source) :
    next.Accounts source ∨ before.Strands session.engine.store source := by
  have origin := turns.engine ▸ cached
  obtain earlier | ⟨compiled, rfl⟩ := mem_entries_of_perform origin
  · cases accounts earlier with
    | used uses => exact turns.accounts_of_used rest uses
    | awaited member given unwritten =>
        exact .inl (turns.accounts_of_awaited member given unwritten)
    | owed member owes => exact .inl (turns.accounts_of_owed cached member owes)
  · obtain evaluates | ⟨given, unwritten⟩ := turns.orders
    · by_cases uses : session.engine.store.Uses source
      · exact turns.accounts_of_used rest uses
      · exact .inr (.keep rest evaluates uses)
    · refine .inl (turns.accounts_of_awaited (List.mem_of_getElem? turns.found) given unwritten)

/-- More tasks account for no less. -/
theorem Accounts.mono {engine : Engine} {tasks : List (Task limits)}
    (accounts : session.Accounts source) (store : engine.store = session.engine.store)
    (subset : session.tasks ⊆ tasks) : Accounts ⟨engine, tasks⟩ source := by
  cases accounts with
  | used uses => exact .used (store ▸ uses)
  | awaited member given unwritten => exact .awaited (subset member) given unwritten
  | owed member owes => exact .owed (subset member) owes

/-- Every cached expression of a session without new rules is accounted for, unless it was stranded
at some turn. -/
theorem run_accounts {engine : Engine}
    (stored : ∀ source ∈ engine.cache.entries, engine.store.Uses source) {events : List Event}
    (stays : ∀ request, Event.arrive request ∈ events → ¬ request.Creates) :
    ∀ source ∈ (run limits engine events).engine.cache.entries,
      (run limits engine events).Accounts source ∨ Stranded limits engine events source := by
  -- On the events from the last one: what was stranded at some turn stays stranded, so that a turn
  -- has to be looked at only where everything before it is accounted for.
  induction events using List.reverseRecOn with
  | nil => exact fun source cached => .inl (.used (stored source cached))
  | append_singleton events event induction =>
      have earlier := induction fun request arrived =>
        stays request (List.mem_append_left _ arrived)
      intro source cached
      rw [run_snoc] at cached ⊢
      cases event with
      | arrive request =>
          refine (earlier source cached).imp (fun accounts => ?_) (·.snoc _)
          exact accounts.mono rfl (List.subset_append_left _ _)
      | invalidate other =>
          obtain ⟨-, before⟩ := Cache.mem_evict.1 cached
          refine (earlier source before).imp (fun accounts => ?_) (·.snoc _)
          exact accounts.mono rfl (List.Subset.refl _)
      | clearCache => exact absurd cached (Cache.not_mem_clear _ source)
      | turn place =>
          obtain same | ⟨task, action, resume, found, rest, next, continues, turned⟩ :=
            (run limits engine events).turn_cases place
          · rw [after, same] at cached ⊢
            exact (earlier source cached).imp_right (·.snoc _)
          have arrived := arrived_of_mem limits engine events task (List.mem_of_getElem? found)
          have orders := Task.guaranteed
            (orders_procedure limits (stays task.request (List.mem_append_left _ arrived)))
            (fun _ _ => trivial) rest
          rw [after, turned] at cached ⊢
          have turns : Turns (run limits engine events) ⟨_, _⟩ place task next action :=
            ⟨found, orders, continues.request, continues.trace, rfl, rfl⟩
          by_cases stranded : Stranded limits engine events source
          · exact .inr (stranded.snoc _)
          refine (turns.accounts rest cached fun before => ?_).imp_right fun strands => ?_
          · exact (earlier source before).resolve_right stranded
          · exact ⟨events, place, [], task, rfl, found, strands⟩

end Session

/-- A task came to a result that is no failure. -/
def Task.Succeeds (task : Task limits) : Prop :=
  match task.rest with
  | .done response => response.Succeeds
  | .perform _ _ => False

instance : (task : Task limits) → Decidable task.Succeeds
  | ⟨_, _, .done response, _⟩ => inferInstanceAs (Decidable response.Succeeds)
  | ⟨_, _, .perform _ _, _⟩ => inferInstanceAs (Decidable False)

/-- A task that succeeded leaves no expression unwritten and none undropped. -/
theorem Task.settles {task : Task limits} (stays : ¬ task.request.Creates)
    (succeeds : task.Succeeds) :
    (task.request.newExpression ≠ none → ∃ exchange ∈ task.trace, exchange.Writes) ∧
      ∀ source, ¬ Owes task.trace source := by
  unfold Task.Succeeds at succeeds
  cases rest : task.rest with
  | done response =>
      rw [rest] at succeeds
      exact Task.promised (orders_procedure limits stays) (fun _ _ => trivial) rest succeeds
  | perform =>
      rw [rest] at succeeds
      exact succeeds.elim

/-- Once all changes, removals and evaluations of a session have succeeded, every cached expression
is that of a stored rule, unless it was stranded at some turn: taken from a rule by a request that
had read another expression there, or kept for an evaluation when no rule had it any more. -/
theorem session_releases {limits : Limits} {engine : Engine} {events : List Event}
    (stored : ∀ source ∈ engine.cache.entries, engine.store.Uses source)
    (stays : ∀ request, Event.arrive request ∈ events → ¬ request.Creates)
    (succeed : ∀ task ∈ (Session.run limits engine events).tasks, task.Succeeds) :
    ∀ source ∈ (Session.run limits engine events).engine.cache.entries,
      (Session.run limits engine events).engine.store.Uses source ∨
        Stranded limits engine events source := by
  intro source cached
  have settled (task : Task limits) (member : task ∈ (Session.run limits engine events).tasks) :=
    task.settles (stays _ (Session.arrived_of_mem limits engine events task member))
      (succeed task member)
  obtain accounts | stranded := Session.run_accounts stored stays source cached
  · cases accounts with
    | used uses => exact .inl uses
    | @awaited task member given unwritten =>
        obtain ⟨exchange, made, writes⟩ := (settled task member).1 (by simp [given])
        exact absurd writes (unwritten exchange made)
    | @owed task member owes => exact absurd owes ((settled task member).2 source)
  · exact .inr stranded

/-- A store with one rule. -/
def singleRule : Store :=
  Store.empty.insert
    ⟨⟨1⟩, "Order", "Total = 0", "No total.", true, none, ⟨0, 0⟩, ⟨0, 0⟩⟩

/-- The rule is removed after an evaluation has fetched it. -/
def lateKeepEvents : List Event :=
  [.arrive (.evaluateRules "Order" .empty ⟨2025, 1, 31, by decide⟩), .arrive (.deleteRule ⟨1⟩)] ++
    [0, 1, 1, 1, 0, 0, 0, 0].map Event.turn

theorem session_releases_late_keep :
    (∀ task ∈ (Session.run .standard (start singleRule) lateKeepEvents).tasks, task.Succeeds) ∧
      "Total = 0" ∈
        (Session.run .standard (start singleRule) lateKeepEvents).engine.cache.entries ∧
      Stranded .standard (start singleRule) lateKeepEvents "Total = 0" := by
  have stored : ∀ source ∈ (start singleRule).cache.entries,
      (start singleRule).store.Uses source := fun source cached =>
    absurd cached (Cache.not_mem_empty source)
  have stays : ∀ request, Event.arrive request ∈ lateKeepEvents → ¬ request.Creates := by
    simp [lateKeepEvents, Request.Creates]
  have succeed : ∀ task ∈ (Session.run .standard (start singleRule) lateKeepEvents).tasks,
      task.Succeeds := by decide +kernel
  have cached : "Total = 0" ∈
      (Session.run .standard (start singleRule) lateKeepEvents).engine.cache.entries := by
    decide +kernel
  have unused : ¬ (Session.run .standard (start singleRule) lateKeepEvents).engine.store.Uses
      "Total = 0" := by decide +kernel
  exact ⟨succeed, cached, (session_releases stored stays succeed _ cached).resolve_left unused⟩

/-- Two requests that both read the rule before either of them changes its expression. -/
def lostUpdateEvents : List Event :=
  [.arrive (.updateRule ⟨1⟩ ⟨none, some "Total < 0", none, none⟩ ⟨1, 0⟩),
    .arrive (.updateRule ⟨1⟩ ⟨none, some "Total < 1", none, none⟩ ⟨2, 0⟩)] ++
    [0, 0, 1, 1, 0, 1, 0, 1, 0, 1].map Event.turn

/-- Of two changes that read one rule before either writes it, both drop the expression that they
have read, and the one that the later change replaces stays cached. -/
theorem updateRule_strands_lost_update :
    (∀ source ∈ (start singleRule).cache.entries, (start singleRule).store.Uses source) ∧
      (∀ request, Event.arrive request ∈ lostUpdateEvents → ¬ request.Creates) ∧
      (∀ task ∈ (Session.run .standard (start singleRule) lostUpdateEvents).tasks,
        task.Succeeds) ∧
      "Total < 0" ∈
        (Session.run .standard (start singleRule) lostUpdateEvents).engine.cache.entries ∧
      ¬ (Session.run .standard (start singleRule) lostUpdateEvents).engine.store.Uses
        "Total < 0" := by
  refine ⟨?_, ?_, ?_, ?_, ?_⟩
  · exact fun source cached => absurd cached (Cache.not_mem_empty source)
  · simp [lostUpdateEvents, Request.Creates]
  · decide +kernel
  · decide +kernel
  · decide +kernel

end FormRules.Engine
