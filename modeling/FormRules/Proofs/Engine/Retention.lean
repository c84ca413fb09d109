import Mathlib.Data.List.Perm.Subperm
import FormRules.Proofs.Compilation
import FormRules.Proofs.Engine.Effects
import FormRules.Proofs.Engine.History
import FormRules.Proofs.Engine.Isolation

/-!
# Which expressions stay cached

An engine that serves requests one after another caches the expressions of the rules that it stores,
and drops what a change replaces or a removal takes away. There is one exception. A change that
names no stored rule compiles its expression before it finds that out, and then fails: the
expression stays cached though no rule has it.
-/

namespace FormRules.Engine

/-- The engine after it has served a request alone. -/
def serve (limits : Limits) (engine : Engine) (request : Request) : Engine :=
  ((request.procedure limits).run engine).2

/-- The engine after it has served some requests one after another. -/
def serveAll (limits : Limits) : Engine → List Request → Engine :=
  List.foldl (serve limits)

/-- A new rule gets an identifier that no stored rule has. -/
def Request.Fresh (store : Store) : Request → Prop
  | createRule id _ _ => store.rules[id]? = none
  | _ => True

instance (store : Store) : DecidablePred (Request.Fresh store)
  | .createRule id _ _ => inferInstanceAs (Decidable (store.rules[id]? = none))
  | .updateRule .. => inferInstanceAs (Decidable True)
  | .deleteRule _ => inferInstanceAs (Decidable True)
  | .evaluateRules .. => inferInstanceAs (Decidable True)
  | .tryExpression .. => inferInstanceAs (Decidable True)

/-- Each new rule gets an identifier that no rule has that is stored by then. -/
def FreshlyNumbered (limits : Limits) : Engine → List Request → Prop
  | _, [] => True
  | engine, request :: rest =>
      request.Fresh engine.store ∧ FreshlyNumbered limits (serve limits engine request) rest

instance decidableFreshlyNumbered (limits : Limits) :
    (engine : Engine) → DecidablePred (FreshlyNumbered limits engine)
  | _, [] => inferInstanceAs (Decidable True)
  | engine, request :: rest =>
      have := decidableFreshlyNumbered limits (serve limits engine request) rest
      inferInstanceAs (Decidable (_ ∧ _))

/-- The expression that compiles although there is no rule to give it to. -/
def Request.stray (limits : Limits) (store : Store) : Request → Option String
  | updateRule id patch _ =>
      match store.rules[id]? with
      | some _ => none
      | none => patch.expression.filter (limits.Admit ·)
  | _ => none

/-- The expressions that compiled although there was no rule to give them to. -/
def strays (limits : Limits) : Engine → List Request → List String
  | _, [] => []
  | engine, request :: rest =>
      (request.stray limits engine.store).toList ++ strays limits (serve limits engine request) rest

/-- Every cached expression is in use, but for some strays. -/
def Retains (engine : Engine) (strays : List String) : Prop :=
  ∀ source ∈ engine.cache.entries, engine.store.Uses source ∨ source ∈ strays

/-! ## Compiling -/

/-- What compiling comes to: the store stays as it is, the cache gets the expression if it compiles,
and there is an error only if it does not. -/
structure Compiled (limits : Limits) (engine : Engine) (source : String)
    (result : Except RuleError CompiledExpression) (after : Engine) : Prop where
  store : after.store = engine.store
  entries : ∀ other, other ∈ after.cache.entries ↔
    other ∈ engine.cache.entries ∨ other = source ∧ limits.Admit source
  failed : ∀ error, result = .error error → ¬ limits.Admit source

theorem compiled_run (limits : Limits) (engine : Engine) (source : String) :
    Compiled limits engine source ((compile limits source).run engine).1
      ((compile limits source).run engine).2 := by
  cases found : engine.cache.entries[source]? with
  | some present =>
      have cached : source ∈ engine.cache.entries :=
        Std.TreeMap.mem_iff_isSome_getElem?.2 (by rw [found]; rfl)
      rw [run_compile_of_found found]
      refine ⟨rfl, fun other => ?_, by simp⟩
      rw [Cache.entries_lookUp]
      refine ⟨.inl, ?_⟩
      rintro (before | ⟨rfl, -⟩)
      · exact before
      · exact cached
  | none =>
      cases compiles : CompiledExpression.ofSource limits source with
      | error error =>
          have rejected := Limits.not_admit_of_error compiles
          rw [run_compile_of_error found compiles]
          refine ⟨rfl, fun other => ?_, fun _ _ => rejected⟩
          rw [Cache.entries_lookUp]
          simp [rejected]
      | ok compiled =>
          have admits : limits.Admit source := ⟨compiled, compiles⟩
          rw [run_compile_of_ok found compiles]
          refine ⟨rfl, fun other => ?_, by simp⟩
          rw [Cache.mem_keep, Cache.entries_lookUp, or_comm, and_iff_left admits]

/-- Compiling adds no cached expression but the compiled one. -/
theorem Compiled.retains {limits : Limits} {engine after : Engine} {source : String}
    {result : Except RuleError CompiledExpression} {strays : List String}
    (compiled : Compiled limits engine source result after) (retains : engine.Retains strays) :
    ∀ other ∈ after.cache.entries,
      after.store.Uses other ∨ other ∈ strays ∨ other = source ∧ limits.Admit source := by
  intro other cached
  rw [compiled.store]
  obtain before | added := (compiled.entries other).1 cached
  · exact (retains other before).imp_right .inl
  · exact .inr (.inr added)

/-- What does not compile is not cached. -/
theorem Compiled.retains_of_error {limits : Limits} {engine after : Engine} {source : String}
    {error : RuleError} {strays : List String}
    (compiled : Compiled limits engine source (.error error) after)
    (retains : engine.Retains strays) : after.Retains strays := by
  intro other cached
  obtain used | stray | ⟨-, admits⟩ := compiled.retains retains other cached
  · exact .inl used
  · exact .inr stray
  · exact absurd admits (compiled.failed error rfl)

/-- A stored rule that gets the compiled expression leaves nothing else without a use but the
expression that it had before. -/
theorem Compiled.retains_put {limits : Limits} {engine after : Engine} {expression source : String}
    {result : Except RuleError CompiledExpression} {strays : List String}
    (compiled : Compiled limits engine expression result after) (retains : engine.Retains strays)
    {id : Uuid} {previous rule : Rule} (found : after.store.rules[id]? = some previous)
    (rule_expression : rule.expression = expression) (cached : source ∈ after.cache.entries)
    (spared : previous.expression ≠ expression → previous.expression ≠ source) :
    (after.store.put id rule).Uses source ∨ source ∈ strays := by
  obtain rfl | other := eq_or_ne expression source
  · exact .inl (rule_expression ▸ Store.uses_put_self after.store id rule)
  obtain used | stray | ⟨same, -⟩ := compiled.retains retains source cached
  · have apart : previous.expression ≠ source := by
      by_cases unchanged : previous.expression = expression
      · rwa [unchanged]
      · exact spared unchanged
    exact .inl (Store.uses_put used (Store.spared_of_found found apart) rule)
  · exact .inr stray
  · exact absurd same.symm other

/-! ## One request -/

section Serve

variable (limits : Limits) {engine : Engine} {strays : List String}

theorem retains_createRule (answers : engine.store.outages = .none)
    (retains : engine.Retains strays) {id : Uuid} (fresh : engine.store.rules[id]? = none)
    (now : Instant) (input : NewRule) :
    (serve limits engine (.createRule id now input)).Retains strays := by
  have compiled := compiled_run limits engine input.expression
  rw [serve, Request.procedure_createRule, Procedure.run_bind]
  generalize (compile limits input.expression).run engine = outcome at compiled ⊢
  obtain ⟨result, checked⟩ := outcome
  dsimp only at compiled ⊢
  cases result with
  | error => exact compiled.retains_of_error retains
  | ok =>
      rw [← compiled.store] at answers fresh
      rw [Procedure.run_bind, Procedure.run_call, perform_create_of_answers answers]
      intro source cached
      obtain used | stray | ⟨rfl, -⟩ := compiled.retains retains source cached
      · refine .inl (Store.uses_put used (fun previous found => ?_) _)
        exact absurd (fresh.symm.trans found) nofun
      · exact .inr stray
      · exact .inl (Store.uses_put_self checked.store id (.ofNew id now input))

/-- A change with an expression keeps it cached for the changed rule and drops the one before it. -/
theorem retains_updateRule_of_some (answers : engine.store.outages = .none)
    (retains : engine.Retains strays) (id : Uuid) {patch : RulePatch} (now : Instant)
    {expression : String} (given : patch.expression = some expression) :
    (serve limits engine (.updateRule id patch now)).Retains
      ((Request.stray limits engine.store (.updateRule id patch now)).toList ++ strays) := by
  have compiled := compiled_run limits engine expression
  rw [serve, Request.procedure_updateRule_of_some limits id now given, Procedure.run_bind]
  generalize (compile limits expression).run engine = outcome at compiled ⊢
  obtain ⟨result, checked⟩ := outcome
  dsimp only at compiled ⊢
  cases result with
  | error =>
      intro source cached
      have kept := compiled.retains_of_error retains source cached
      exact kept.imp_right (List.mem_append_right _)
  | ok =>
      rw [← compiled.store] at answers ⊢
      rw [Procedure.run_bind, Procedure.run_call]
      cases found : checked.store.rules[id]? with
      | none =>
          rw [perform_get_of_missing answers found]
          intro source cached
          obtain used | stray | ⟨rfl, admits⟩ := compiled.retains retains source cached
          · exact .inl used
          · exact .inr (List.mem_append_right _ stray)
          · simp [Request.stray, found, given, admits]
      | some previous =>
          have no_stray : Request.stray limits checked.store (.updateRule id patch now) = none := by
            simp [Request.stray, found]
          rw [perform_get_of_found answers found, no_stray]
          dsimp only
          rw [Procedure.run_bind, Procedure.run_call, perform_update_of_found answers found]
          dsimp only
          have expression_eq : (previous.apply patch now).expression = expression := by
            simp [Rule.apply, given]
          rw [expression_eq]
          split
          case isTrue differ =>
            intro source cached
            obtain ⟨dropped, cached⟩ := Cache.mem_evict.1 cached
            exact compiled.retains_put retains found expression_eq cached fun _ => dropped.symm
          case isFalse same =>
            intro source cached
            exact compiled.retains_put retains found expression_eq cached fun differ =>
              absurd differ same

/-- A change without an expression leaves the expression of the changed rule in use. -/
theorem retains_updateRule_of_none (retains : engine.Retains strays) (id : Uuid)
    {patch : RulePatch} (now : Instant) (absent : patch.expression = none) :
    (serve limits engine (.updateRule id patch now)).Retains strays := by
  rw [serve, Request.procedure_updateRule_of_none limits id now absent]
  intro source cached
  obtain used | stray := retains source cached
  · have changes := perform_changes engine (.update id patch now)
    change (engine.perform (.update id patch now)).2.store.Uses source ∨ _
    generalize (engine.perform (.update id patch now)).1 = answer at changes
    generalize (engine.perform (.update id patch now)).2.store = after at changes ⊢
    cases changes with
    | nothing => exact .inl used
    | update _ _ found =>
        exact .inl (Store.uses_put_of_same used found (by simp [Rule.apply, absent]))
  · exact .inr stray

theorem retains_deleteRule (answers : engine.store.outages = .none)
    (retains : engine.Retains strays) (id : Uuid) :
    (serve limits engine (.deleteRule id)).Retains strays := by
  rw [serve, Request.procedure_deleteRule, Procedure.run_bind, Procedure.run_call]
  cases found : engine.store.rules[id]? with
  | none =>
      rw [perform_get_of_missing answers found]
      exact retains
  | some previous =>
      rw [perform_get_of_found answers found]
      dsimp only
      rw [Procedure.run_bind, Procedure.run_call, perform_delete_of_found answers found]
      intro source cached
      obtain ⟨spared, cached⟩ := Cache.mem_evict.1 cached
      obtain used | stray := retains source cached
      · exact .inl (Store.uses_remove used (Store.spared_of_found found spared.symm))
      · exact .inr stray

/-- Evaluating caches expressions of stored rules only. -/
theorem retains_evaluateRules (answers : engine.store.outages = .none)
    (retains : engine.Retains strays) (objectType : String) (record : FieldRecord) (today : Date) :
    (serve limits engine (.evaluateRules objectType record today)).Retains strays := by
  let rules := engine.store.activeRules objectType
  let invariant (other : Engine) : Prop := other.store = engine.store ∧ other.Retains strays
  have step (other : Engine) (action : Action) (evaluates : action.Evaluates limits rules)
      (kept : invariant other) : invariant (other.perform action).2 := by
    obtain ⟨same, kept⟩ := kept
    cases action with
    | lookUp source =>
        refine ⟨same, fun found cached => kept found ?_⟩
        exact (Cache.entries_lookUp other.cache source) ▸ cached
    | keep source compiled =>
        refine ⟨same, fun found cached => ?_⟩
        obtain rfl | before := Cache.mem_keep.1 cached
        · obtain ⟨rule, member, rfl⟩ := evaluates.1
          have holds : engine.store.Holds rule := (Store.mem_activeRules.1 member).1
          exact .inl ⟨rule, same.symm ▸ holds, rfl⟩
        · exact kept found before
    | count => exact ⟨same, kept⟩
    | _ => exact evaluates.elim
  rw [serve, Request.procedure_evaluateRules, Procedure.run_bind, Procedure.run_call,
    perform_listActive_of_answers answers]
  have initial : invariant engine := ⟨rfl, retains⟩
  exact (Procedure.run_invariant step
    (within_evaluateFetched limits objectType record today rules) initial).2

/-- What is cached after a request is in use or was so far astray, or it is the stray of the
request. -/
theorem retains_serve (answers : engine.store.outages = .none) (retains : engine.Retains strays)
    {request : Request} (fresh : request.Fresh engine.store) :
    (serve limits engine request).Retains
      ((request.stray limits engine.store).toList ++ strays) := by
  cases request with
  | createRule id now input => exact retains_createRule limits answers retains fresh now input
  | updateRule id patch now =>
      cases given : patch.expression with
      | none =>
          have kept := retains_updateRule_of_none limits retains id now given
          exact fun source cached => (kept source cached).imp_right (List.mem_append_right _)
      | some expression => exact retains_updateRule_of_some limits answers retains id now given
  | deleteRule id => exact retains_deleteRule limits answers retains id
  | evaluateRules objectType record today =>
      exact retains_evaluateRules limits answers retains objectType record today
  | tryExpression => exact retains

end Serve

/-! ## Requests one after another -/

theorem outages_run {Result : Type} (engine : Engine) (procedure : Procedure Result) :
    (procedure.run engine).2.store.outages = engine.store.outages := by
  induction procedure generalizing engine with
  | done result => rfl
  | perform action resume induction =>
      exact (induction _ (engine.perform action).2).trans (outages_perform engine action)

theorem retains_serveAll {limits : Limits} {engine : Engine} {before : List String}
    {requests : List Request} (answers : engine.store.outages = .none)
    (retains : engine.Retains before) (fresh : FreshlyNumbered limits engine requests) :
    (serveAll limits engine requests).Retains (before ++ strays limits engine requests) := by
  induction requests generalizing engine before with
  | nil => simpa [serveAll, strays] using retains
  | cons request rest induction =>
      have served := retains_serve limits answers retains fresh.1
      have still_answers : (serve limits engine request).store.outages = .none :=
        (outages_run engine _).trans answers
      have all := induction still_answers served fresh.2
      intro source cached
      refine (all source cached).imp_right fun stray => ?_
      simp only [strays, List.mem_append] at stray ⊢
      tauto

/-- Each cached expression is that of one of the stored rules or one of the strays. -/
theorem size_le_of_retains {engine : Engine} {strays : List String}
    (retains : engine.Retains strays) :
    engine.cache.size ≤ engine.store.size + strays.length := by
  let expressions := engine.store.rules.values.map Rule.expression
  have among : engine.cache.entries.keys ⊆ expressions ++ strays := by
    intro source listed
    obtain ⟨rule, holds, rfl⟩ | stray := retains source (Std.TreeMap.mem_keys.1 listed)
    · exact List.mem_append_left _ (List.mem_map_of_mem (Store.mem_values.2 holds))
    · exact List.mem_append_right _ stray
  have distinct : engine.cache.entries.keys.Nodup := Std.TreeMap.nodup_keys
  have bounded := (distinct.subperm among).length_le
  simpa [expressions, Store.length_values, Cache.size] using bounded

/-- Requests that are served one after another leave no expression cached that no stored rule has,
but for those of changes that named no stored rule. -/
theorem serveAll_retains {limits : Limits} {store : Store} (answers : store.outages = .none)
    {requests : List Request} (fresh : FreshlyNumbered limits (start store) requests) :
    (∀ source ∈ (serveAll limits (start store) requests).cache.entries,
      (serveAll limits (start store) requests).store.Uses source ∨
        source ∈ strays limits (start store) requests) ∧
      (serveAll limits (start store) requests).cache.size ≤
        (serveAll limits (start store) requests).store.size +
          (strays limits (start store) requests).length := by
  have initial : (start store).Retains [] := fun source cached =>
    absurd cached (Cache.not_mem_empty source)
  have retains := retains_serveAll answers initial fresh
  exact ⟨retains, size_le_of_retains retains⟩

/-- A change of a rule that was never stored, behind a rule that comes and goes. -/
def misdirectedRequests : List Request :=
  [.createRule ⟨1⟩ ⟨0, 0⟩ ⟨"Order", "Total = 0", "No total.", true, none⟩,
    .updateRule ⟨2⟩ ⟨none, some "Total < 0", none, none⟩ ⟨1, 0⟩,
    .deleteRule ⟨1⟩]

theorem serveAll_retains_misdirected :
    Store.empty.outages = .none ∧
      FreshlyNumbered .standard (start .empty) misdirectedRequests ∧
      (serveAll .standard (start .empty) misdirectedRequests).cache.size ≤
        (serveAll .standard (start .empty) misdirectedRequests).store.size +
          (strays .standard (start .empty) misdirectedRequests).length ∧
      strays .standard (start .empty) misdirectedRequests = ["Total < 0"] := by
  have fresh : FreshlyNumbered .standard (start .empty) misdirectedRequests := by decide +kernel
  exact ⟨rfl, fresh, (serveAll_retains rfl fresh).2, by decide +kernel⟩

/-- A change of a rule in an empty store. -/
def misdirectedChange : Request :=
  .updateRule ⟨1⟩ ⟨none, some "A = 1", none, none⟩ ⟨0, 0⟩

/-- A change that fails because its rule is missing leaves an expression cached that no stored rule
has, so that the cache outgrows the store. -/
theorem updateRule_missing_leaves_stray :
    "A = 1" ∈ (serve .standard (start .empty) misdirectedChange).cache.entries ∧
      ¬ (serve .standard (start .empty) misdirectedChange).store.Uses "A = 1" ∧
      (serve .standard (start .empty) misdirectedChange).store.size <
        (serve .standard (start .empty) misdirectedChange).cache.size := by
  decide +kernel

end FormRules.Engine
