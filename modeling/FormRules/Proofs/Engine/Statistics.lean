import FormRules.Proofs.Engine.Retention
import FormRules.Proofs.History

/-!
# The statistics of the compile cache

A compiler is called again and again from its start. Which texts have an entry in its cache, and
what it has counted, are fixed by those calls: a text has an entry if it was compiled, and has since
then not been dropped.
-/

namespace FormRules.Engine

/-- A call of the compiler. -/
inductive CompilerCall where
  | compile (source : String)
  /-- Compiles past the cache. -/
  | compileUncached (source : String)
  | invalidate (source : String)
  | clear

namespace CompilerCall

/-- The type of the answer to a call. -/
def Answer : CompilerCall → Type
  | compile _ | compileUncached _ => Except RuleError CompiledExpression
  | invalidate _ => Bool
  | clear => Unit

/-- The call looks for an expression in the cache. -/
def looksUp : CompilerCall → Bool
  | compile _ => true
  | _ => false

/-- The call does not drop the entry of a text. -/
def Keeps (source : String) : CompilerCall → Prop
  | compile _ | compileUncached _ => True
  | invalidate other => other ≠ source
  | clear => False

end CompilerCall

/-- Makes a call of the compiler. -/
def consult (limits : Limits) (engine : Engine) : (call : CompilerCall) → call.Answer × Engine
  | .compile source => (compile limits source).run engine
  | .compileUncached source => (CompiledExpression.ofSource limits source, engine)
  | .invalidate source => engine.perform (.evict source)
  | .clear => ((), { engine with cache := engine.cache.clear })

/-- The engine that has just started on a store, after some calls of its compiler. -/
def consultAll (limits : Limits) (store : Store) (history : List CompilerCall) : Engine :=
  history.foldl (fun engine call => (engine.consult limits call).2) (start store)

/-- In the course of some calls a text was compiled with success, and it was not dropped since. -/
def Current (limits : Limits) (store : Store) (history : List CompilerCall) (source : String) :
    Prop :=
  ∃ before since, history = before ++ .compile source :: since ∧
    (∃ compiled, ((consultAll limits store before).consult limits (.compile source)).1 =
      .ok compiled) ∧
    ∀ call ∈ since, call.Keeps source

/-- What a call answers and counts, where some texts have an entry. -/
inductive Tells (limits : Limits) (cached : String → Prop) (before after : Engine) :
    (call : CompilerCall) → call.Answer → Prop where
  /-- Nothing changes but the count of the hits. -/
  | hit {source : String} {compiled : CompiledExpression} (found : cached source)
      (compiles : CompiledExpression.ofSource limits source = .ok compiled)
      (counted : after =
        { before with cache := { before.cache with hits := before.cache.hits + 1 } }) :
      Tells limits cached before after (.compile source) (.ok compiled)
  | miss {source : String} {compiled : CompiledExpression} (missed : ¬ cached source)
      (compiles : CompiledExpression.ofSource limits source = .ok compiled)
      (hits : after.cache.hits = before.cache.hits)
      (misses : after.cache.misses = before.cache.misses + 1) :
      Tells limits cached before after (.compile source) (.ok compiled)
  /-- A failure is not kept: nothing changes but the count of the misses. -/
  | failure {source : String} {error : RuleError} (missed : ¬ cached source)
      (fails : CompiledExpression.ofSource limits source = .error error)
      (counted : after =
        { before with cache := { before.cache with misses := before.cache.misses + 1 } }) :
      Tells limits cached before after (.compile source) (.error error)
  | uncached (source : String) (same : after = before) :
      Tells limits cached before after (.compileUncached source)
        (CompiledExpression.ofSource limits source)
  | removal {source : String} {removed : Bool} (present : removed = true ↔ cached source)
      (hits : after.cache.hits = before.cache.hits)
      (misses : after.cache.misses = before.cache.misses) :
      Tells limits cached before after (.invalidate source) removed
  | clear (hits : after.cache.hits = before.cache.hits)
      (misses : after.cache.misses = before.cache.misses) :
      Tells limits cached before after .clear ()

/-! ## One call -/

section Consult

variable {limits : Limits} {engine : Engine}

theorem faithful_consult (faithful : engine.cache.Faithful limits) (call : CompilerCall) :
    (engine.consult limits call).2.cache.Faithful limits := by
  cases call with
  | compile source => exact faithful_run (faithful_compile limits source) faithful
  | compileUncached source => exact faithful
  | invalidate source => exact Cache.faithful_evict faithful source
  | clear => exact Cache.faithful_clear limits engine.cache

/-- A text has an entry after a call that has compiled it, or that has kept the entry there. -/
theorem mem_entries_consult (faithful : engine.cache.Faithful limits) {call : CompilerCall}
    {source : String} :
    source ∈ (engine.consult limits call).2.cache.entries ↔
      (call = .compile source ∧
        ∃ compiled, (engine.consult limits (.compile source)).1 = .ok compiled) ∨
      (call.Keeps source ∧ source ∈ engine.cache.entries) := by
  cases call with
  | compile other =>
      have answered : (engine.consult limits (.compile source)).1 =
          CompiledExpression.ofSource limits source := run_compile faithful source
      have entries : source ∈ (engine.consult limits (.compile other)).2.cache.entries ↔
          source ∈ engine.cache.entries ∨ source = other ∧ limits.Admit other :=
        (compiled_run limits engine other).entries source
      rw [entries, answered, or_comm, CompilerCall.compile.injEq]
      refine or_congr ?_ (iff_of_eq (true_and _)).symm
      constructor
      · rintro ⟨rfl, admits⟩
        exact ⟨rfl, admits⟩
      · rintro ⟨rfl, admits⟩
        exact ⟨rfl, admits⟩
  | compileUncached other => simp [consult, CompilerCall.Keeps]
  | invalidate other =>
      have kept : source ∈ (engine.consult limits (.invalidate other)).2.cache.entries ↔
          source ≠ other ∧ source ∈ engine.cache.entries := Cache.mem_evict
      rw [kept]
      simp [CompilerCall.Keeps, eq_comm]
  | clear =>
      have dropped := Cache.not_mem_clear engine.cache source
      simpa [consult, CompilerCall.Keeps] using dropped

theorem tells_consult (faithful : engine.cache.Faithful limits) (call : CompilerCall) :
    Tells limits (· ∈ engine.cache.entries) engine (engine.consult limits call).2 call
      (engine.consult limits call).1 := by
  cases call with
  | compile source =>
      cases found : engine.cache.entries[source]? with
      | some compiled =>
          have cached : source ∈ engine.cache.entries :=
            Std.TreeMap.mem_iff_isSome_getElem?.2 (by rw [found]; rfl)
          have ran : engine.consult limits (.compile source) =
              (Except.ok compiled, { engine with cache := (engine.cache.lookUp source).2 }) :=
            run_compile_of_found found
          rw [ran]
          exact .hit cached (faithful source compiled found) (by simp [Cache.lookUp, found])
      | none =>
          have missed : source ∉ engine.cache.entries := by
            simp [Std.TreeMap.mem_iff_isSome_getElem?, found]
          cases compiles : CompiledExpression.ofSource limits source with
          | error error =>
              have ran : engine.consult limits (.compile source) =
                  (Except.error error, { engine with cache := (engine.cache.lookUp source).2 }) :=
                run_compile_of_error found compiles
              rw [ran]
              exact .failure missed compiles (by simp [Cache.lookUp, found])
          | ok compiled =>
              have ran : engine.consult limits (.compile source) = (Except.ok compiled,
                  { engine with
                    cache := ((engine.cache.lookUp source).2.keep source compiled).2 }) :=
                run_compile_of_ok found compiles
              rw [ran]
              exact .miss missed compiles (by simp [Cache.lookUp, Cache.keep, found])
                (by simp [Cache.lookUp, Cache.keep, found])
  | compileUncached source => exact .uncached source rfl
  | invalidate source =>
      exact .removal (by simp [consult, perform, withCache, Cache.evict]) rfl rfl
  | clear => exact .clear rfl rfl

/-- A call counts once if it looks for an expression, and not at all if it does not. -/
theorem Tells.counts {cached : String → Prop} {before after : Engine} {call : CompilerCall}
    {answer : call.Answer} (tells : Tells limits cached before after call answer) :
    after.cache.hits + after.cache.misses =
      before.cache.hits + before.cache.misses + call.looksUp.toNat := by
  cases tells with
  | hit found compiles counted =>
      subst counted
      simp [CompilerCall.looksUp]
      omega
  | miss missed compiles hits misses =>
      rw [hits, misses]
      simp [CompilerCall.looksUp]
      omega
  | failure missed fails counted =>
      subst counted
      simp [CompilerCall.looksUp]
      omega
  | uncached source same =>
      subst same
      rfl
  | removal present hits misses =>
      rw [hits, misses]
      rfl
  | clear hits misses =>
      rw [hits, misses]
      rfl

end Consult

/-! ## All calls -/

section ConsultAll

variable {limits : Limits} {store : Store} {history : List CompilerCall} {call : CompilerCall}
  {source : String}

theorem consultAll_concat :
    consultAll limits store (history ++ [call]) =
      ((consultAll limits store history).consult limits call).2 := by
  rw [consultAll, List.foldl_append]
  rfl

theorem current_concat :
    Current limits store (history ++ [call]) source ↔
      (call = .compile source ∧ ∃ compiled,
        ((consultAll limits store history).consult limits (.compile source)).1 = .ok compiled) ∨
      (call.Keeps source ∧ Current limits store history source) := by
  constructor
  · intro current
    obtain ⟨same, compiles, -⟩ | ⟨before, since, rfl, compiles, kept⟩ :=
      exists_split_concat.1 current
    · exact .inl ⟨same, compiles⟩
    · rw [List.forall_mem_append, List.forall_mem_singleton] at kept
      exact .inr ⟨kept.2, before, since, rfl, compiles, kept.1⟩
  · rintro (⟨same, compiles⟩ | ⟨keeps, before, since, rfl, compiles, kept⟩)
    · exact exists_split_concat.2 (.inl ⟨same, compiles, by simp⟩)
    · refine exists_split_concat.2 (.inr ⟨before, since, rfl, compiles, ?_⟩)
      rw [List.forall_mem_append, List.forall_mem_singleton]
      exact ⟨kept, keeps⟩

theorem faithful_consultAll (limits : Limits) (store : Store) (history : List CompilerCall) :
    (consultAll limits store history).cache.Faithful limits := by
  induction history using List.reverseRecOn with
  | nil => exact Cache.faithful_empty limits
  | append_singleton history call induction =>
      rw [consultAll_concat]
      exact faithful_consult induction call

/-- The texts with an entry are those that were compiled and not dropped since. -/
theorem mem_entries_consultAll :
    source ∈ (consultAll limits store history).cache.entries ↔
      Current limits store history source := by
  induction history using List.reverseRecOn with
  | nil =>
      have nothing : ¬ Current limits store [] source := by
        rintro ⟨before, since, split, -⟩
        simp at split
      exact iff_of_false (Cache.not_mem_empty source) nothing
  | append_singleton history call induction =>
      rw [consultAll_concat, mem_entries_consult (faithful_consultAll limits store history),
        induction, current_concat]

theorem counts_consultAll (limits : Limits) (store : Store) (history : List CompilerCall) :
    (consultAll limits store history).cache.hits +
      (consultAll limits store history).cache.misses = history.countP (·.looksUp) := by
  induction history using List.reverseRecOn with
  | nil => rfl
  | append_singleton history call induction =>
      have counts := (tells_consult (faithful_consultAll limits store history) call).counts
      rw [consultAll_concat, counts, induction, List.countP_append]
      cases call <;> rfl

end ConsultAll

/-- After any calls of a compiler that has just started, the texts with an entry are those that were
compiled with success and not dropped since; the compiler has counted each call that looked for an
expression, and the next call is a hit, a miss or a removal as its text is such a text or not. -/
theorem consultAll_tells (limits : Limits) (store : Store) (history : List CompilerCall) :
    (consultAll limits store history).cache.hits +
      (consultAll limits store history).cache.misses = history.countP (·.looksUp) ∧
    (∃ sources : List String, sources.Nodup ∧
      sources.length = (consultAll limits store history).cache.size ∧
      ∀ source, source ∈ sources ↔ Current limits store history source) ∧
    ((consultAll limits store history).cache.size = 0 ↔
      ∀ source, ¬ Current limits store history source) ∧
    ∀ call, Tells limits (Current limits store history) (consultAll limits store history)
      ((consultAll limits store history).consult limits call).2 call
      ((consultAll limits store history).consult limits call).1 := by
  have listed (source : String) : source ∈ (consultAll limits store history).cache.entries.keys ↔
      Current limits store history source :=
    Std.TreeMap.mem_keys.trans mem_entries_consultAll
  refine ⟨counts_consultAll limits store history,
    ⟨_, Std.TreeMap.nodup_keys, Std.TreeMap.length_keys, listed⟩, ?_, fun call => ?_⟩
  · rw [Cache.size, ← Std.TreeMap.length_keys, List.length_eq_zero_iff,
      List.eq_nil_iff_forall_not_mem]
    exact forall_congr' fun source => not_congr (listed source)
  · have tells := tells_consult (faithful_consultAll limits store history) call
    have same : (· ∈ (consultAll limits store history).cache.entries) =
        Current limits store history := funext fun source => propext mem_entries_consultAll
    rwa [same] at tells

end FormRules.Engine
