import FormRules.Proofs.Engine.Administration
import FormRules.Proofs.Engine.Course

/-!
# Upkeep of the cache

What a change of the rules does to the cache: an expression that compiles is added, one that was
replaced or removed with its rule is dropped, whoever else uses it, and everything else stays.
-/

namespace FormRules

namespace Cache

/-- The texts that have an entry. -/
def sources (cache : Cache) : Set String :=
  {source | source ∈ cache.entries}

theorem sources_evict (cache : Cache) (source : String) :
    (cache.evict source).2.sources = cache.sources \ {source} :=
  Set.ext fun _ => mem_evict.trans and_comm

/-- In faithful caches the entries of a text are the same. -/
theorem Faithful.entry_eq {limits : Limits} {before after : Cache} {source : String}
    (before_faithful : before.Faithful limits) (after_faithful : after.Faithful limits)
    (before_cached : source ∈ before.sources) (after_cached : source ∈ after.sources) :
    after.entries[source]? = before.entries[source]? := by
  have entry {cache : Cache} (cached : source ∈ cache.sources) :
      ∃ compiled, cache.entries[source]? = some compiled :=
    Option.isSome_iff_exists.1 (Std.TreeMap.mem_iff_isSome_getElem?.1 cached)
  obtain ⟨first, first_found⟩ := entry before_cached
  obtain ⟨second, second_found⟩ := entry after_cached
  have compiles := before_faithful source first first_found
  rw [after_faithful source second second_found] at compiles
  rw [first_found, second_found, Except.ok.inj compiles]

end Cache

namespace Engine

/-- What an engine answers to a request that it serves alone. -/
def answer (limits : Limits) (engine : Engine) (request : Request) : Response :=
  ((request.procedure limits).run engine).1

/-- How an engine looks after its cache while it changes the rules. -/
structure TendsCache (limits : Limits) (engine : Engine) : Prop where
  /-- The expression of a new rule is added if it compiles. -/
  createRule (id : Uuid) (now : Instant) (input : NewRule) :
    (serve limits engine (.createRule id now input)).cache.sources =
      if limits.Admit input.expression then insert input.expression engine.cache.sources
      else engine.cache.sources
  /-- Once a rule has got an expression, it is cached, and a different one before it is not. -/
  replaced (id : Uuid) (patch : RulePatch) (now : Instant) {expression : String}
    (given : patch.expression = some expression)
    (succeeds : (answer limits engine (.updateRule id patch now)).Succeeds) :
    ∃ previous, engine.store.rules[id]? = some previous ∧
      (serve limits engine (.updateRule id patch now)).cache.sources =
        if previous.expression = expression then insert expression engine.cache.sources
        else insert expression engine.cache.sources \ {previous.expression}
  /-- A change with no expression, or with one that does not compile, adds and drops nothing. -/
  updateRule (id : Uuid) (patch : RulePatch) (now : Instant)
    (rejects : ∀ expression ∈ patch.expression, ¬ limits.Admit expression) :
    (serve limits engine (.updateRule id patch now)).cache.sources = engine.cache.sources
  /-- Once a rule is removed, its expression is not cached. -/
  deleteRule (id : Uuid) (succeeds : (answer limits engine (.deleteRule id)).Succeeds) :
    ∃ previous, engine.store.rules[id]? = some previous ∧
      (serve limits engine (.deleteRule id)).cache.sources =
        engine.cache.sources \ {previous.expression}
  /-- What is not dropped keeps its entry. -/
  kept (request : Request) {source : String} (before : source ∈ engine.cache.sources)
    (after : source ∈ (serve limits engine request).cache.sources) :
    (serve limits engine request).cache.entries[source]? = engine.cache.entries[source]?

section Serve

variable {limits : Limits} {engine : Engine}

/-- Compiling adds the expression if it compiles, and no other. -/
theorem Compiled.sources_eq {after : Engine} {source : String}
    {result : Except RuleError CompiledExpression}
    (compiled : Compiled limits engine source result after) :
    after.cache.sources =
      if limits.Admit source then insert source engine.cache.sources
      else engine.cache.sources := by
  ext other
  refine (compiled.entries other).trans ?_
  split
  case isTrue admits =>
    rw [and_iff_left admits, or_comm]
    rfl
  case isFalse rejects =>
    rw [or_iff_left fun added => rejects added.2]
    rfl

/-- The store may take a new rule or not: the cache is as compiling has left it. -/
theorem sources_createRule (limits : Limits) (engine : Engine) (id : Uuid) (now : Instant)
    (input : NewRule) :
    (serve limits engine (.createRule id now input)).cache.sources =
      if limits.Admit input.expression then insert input.expression engine.cache.sources
      else engine.cache.sources := by
  have compiled := compiled_run limits engine input.expression
  rw [serve, Request.procedure_createRule, Procedure.run_bind]
  generalize (compile limits input.expression).run engine = outcome at compiled ⊢
  obtain ⟨result, checked⟩ := outcome
  cases result with
  | error => exact compiled.sources_eq
  | ok => exact compiled.sources_eq

theorem sources_updateRule_of_succeeds (faithful : engine.cache.Faithful limits) (id : Uuid)
    {patch : RulePatch} (now : Instant) {expression : String}
    (given : patch.expression = some expression)
    (succeeds : (answer limits engine (.updateRule id patch now)).Succeeds) :
    ∃ previous, engine.store.rules[id]? = some previous ∧
      (serve limits engine (.updateRule id patch now)).cache.sources =
        if previous.expression = expression then insert expression engine.cache.sources
        else insert expression engine.cache.sources \ {previous.expression} := by
  have sources_eq := (compiled_run limits engine expression).sources_eq
  rw [answer] at succeeds
  rw [serve]
  rw [Request.procedure_updateRule_of_some limits id now given, Procedure.run_bind] at succeeds ⊢
  obtain ⟨checked, kept, ⟨error, ran, -⟩ | ⟨compiled, ran, admits⟩⟩ :=
    run_compile_cases faithful expression
  · rw [ran] at succeeds
    exact absurd succeeds Bool.false_ne_true
  rw [ran, if_pos admits] at sources_eq
  rw [ran] at succeeds ⊢
  dsimp only at sources_eq succeeds ⊢
  rw [Procedure.run_bind, Procedure.run_call] at succeeds ⊢
  obtain ⟨error, failed⟩ | ⟨previous, found, answered⟩ := checked.perform_get_cases id
  · rw [failed] at succeeds
    exact absurd succeeds Bool.false_ne_true
  rw [answered] at succeeds ⊢
  dsimp only at succeeds ⊢
  rw [Procedure.run_bind, Procedure.run_call] at succeeds ⊢
  obtain ⟨error, failed⟩ | ⟨rule, same, changed⟩ := checked.perform_update_cases id patch now
  · rw [failed] at succeeds
    exact absurd succeeds Bool.false_ne_true
  -- reading a rule leaves it in place, so that the one that was read is the one that is changed
  obtain rfl : previous = rule := Option.some.inj (found.symm.trans same)
  have expression_eq : (previous.apply patch now).expression = expression := by
    simp [Rule.apply, given]
  refine ⟨previous, kept ▸ found, ?_⟩
  rw [changed]
  dsimp only
  rw [expression_eq]
  by_cases unchanged : previous.expression = expression
  · rw [if_neg (not_not.2 unchanged), if_pos unchanged, ← sources_eq]
    rfl
  · rw [if_pos unchanged, if_neg unchanged, ← sources_eq]
    exact Cache.sources_evict checked.cache previous.expression

theorem sources_updateRule_of_rejects (faithful : engine.cache.Faithful limits) (id : Uuid)
    {patch : RulePatch} (now : Instant)
    (rejects : ∀ expression ∈ patch.expression, ¬ limits.Admit expression) :
    (serve limits engine (.updateRule id patch now)).cache.sources = engine.cache.sources := by
  rw [serve]
  cases given : patch.expression with
  | none =>
      rw [Request.procedure_updateRule_of_none limits id now given]
      rfl
  | some expression =>
      have rejected := rejects expression given
      have sources_eq := (compiled_run limits engine expression).sources_eq
      rw [Request.procedure_updateRule_of_some limits id now given, Procedure.run_bind]
      obtain ⟨checked, -, ⟨error, ran, -⟩ | ⟨compiled, ran, admits⟩⟩ :=
        run_compile_cases faithful expression
      · rw [ran, if_neg rejected] at sources_eq
        rw [ran]
        exact sources_eq
      · exact absurd admits rejected

theorem sources_deleteRule_of_succeeds (limits : Limits) (id : Uuid)
    (succeeds : (answer limits engine (.deleteRule id)).Succeeds) :
    ∃ previous, engine.store.rules[id]? = some previous ∧
      (serve limits engine (.deleteRule id)).cache.sources =
        engine.cache.sources \ {previous.expression} := by
  rw [answer] at succeeds
  rw [serve]
  rw [Request.procedure_deleteRule, Procedure.run_bind, Procedure.run_call] at succeeds ⊢
  obtain ⟨error, failed⟩ | ⟨previous, found, answered⟩ := engine.perform_get_cases id
  · rw [failed] at succeeds
    exact absurd succeeds Bool.false_ne_true
  rw [answered] at succeeds ⊢
  dsimp only at succeeds ⊢
  rw [Procedure.run_bind, Procedure.run_call] at succeeds ⊢
  obtain ⟨error, failed⟩ | ⟨_, -, removed⟩ := engine.perform_delete_cases id
  · rw [failed] at succeeds
    exact absurd succeeds Bool.false_ne_true
  rw [removed]
  exact ⟨previous, found, Cache.sources_evict engine.cache previous.expression⟩

/-- An engine with a faithful cache has one still after it has served a request. -/
theorem faithful_serve (faithful : engine.cache.Faithful limits) (request : Request) :
    (serve limits engine request).cache.Faithful limits :=
  faithful_run (faithful_procedure limits request) faithful

end Serve

/-- Whatever an engine has been through, it looks after its cache. -/
theorem tendsCache_afterCourse (limits : Limits) (course : List Episode) :
    (afterCourse limits course).TendsCache limits := by
  have faithful := (sound_afterCourse limits course).faithful
  exact {
    createRule := sources_createRule limits _
    replaced := fun id _ now _ given => sources_updateRule_of_succeeds faithful id now given
    updateRule := fun id _ now => sources_updateRule_of_rejects faithful id now
    deleteRule := fun id => sources_deleteRule_of_succeeds limits id
    kept := fun request _ before after =>
      Cache.Faithful.entry_eq faithful (faithful_serve faithful request) before after }

/-- Two rules that share an expression. -/
def sharedCourse : List Episode :=
  [.command (.createRule ⟨1⟩ ⟨0, 0⟩ ⟨"Order", "Total = 0", "No total.", true, none⟩),
    .command (.createRule ⟨2⟩ ⟨0, 0⟩ ⟨"Invoice", "Total = 0", "No total.", true, none⟩)]

/-- One of the two rules gets another expression. -/
def sharedChange : Request :=
  .updateRule ⟨1⟩ ⟨none, some "Total < 0", none, none⟩ ⟨1, 0⟩

/-- A replaced expression is dropped although another rule still has it. -/
theorem tendsCache_afterCourse_shared :
    (answer .standard (afterCourse .standard sharedCourse) sharedChange).Succeeds ∧
      (serve .standard (afterCourse .standard sharedCourse) sharedChange).cache.sources =
        insert "Total < 0" (afterCourse .standard sharedCourse).cache.sources \ {"Total = 0"} ∧
      (serve .standard (afterCourse .standard sharedCourse) sharedChange).store.Uses
        "Total = 0" := by
  have succeeds : (answer .standard (afterCourse .standard sharedCourse) sharedChange).Succeeds :=
    by decide +kernel
  have stored : (afterCourse .standard sharedCourse).store.rules[(⟨1⟩ : Uuid)]?.map
      Rule.expression = some "Total = 0" := by
    decide +kernel
  obtain ⟨previous, found, sources_eq⟩ :=
    (tendsCache_afterCourse .standard sharedCourse).replaced ⟨1⟩ _ ⟨1, 0⟩ rfl succeeds
  rw [found] at stored
  have expression_eq : previous.expression = "Total = 0" := Option.some.inj stored
  rw [expression_eq, if_neg (by decide)] at sources_eq
  exact ⟨succeeds, sources_eq, by decide +kernel⟩

end Engine
end FormRules
