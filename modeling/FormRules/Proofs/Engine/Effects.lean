import FormRules.Proofs.Engine.Contract
import FormRules.Proofs.Store.Changes

/-!
# What one call does

Calls of the cache leave the store alone, and calls of the store the cache. Most calls change
neither. The few that write into the store are told apart here once, together with their answers,
and so are the texts that have an entry in the cache afterwards.
-/

namespace FormRules

open Engine

/-- A rule was written into the store or removed from it. -/
def Engine.Exchange.Writes : Exchange → Prop
  | ⟨.create .., .ok _⟩ => True
  | ⟨.update .., .ok _⟩ => True
  | ⟨.delete _, .ok _⟩ => True
  | _ => False

/-- What becomes of a store in a call. -/
inductive Store.Changes (store : Store) : Exchange → Store → Prop where
  | nothing {exchange : Exchange} (unwritten : ¬ exchange.Writes) : store.Changes exchange store
  | create (id : Uuid) (now : Instant) (input : NewRule) :
      store.Changes ⟨.create id now input, .ok (.ofNew id now input)⟩
        (store.insert (.ofNew id now input))
  | update {id : Uuid} {rule : Rule} (patch : RulePatch) (now : Instant)
      (found : store.rules[id]? = some rule) :
      store.Changes ⟨.update id patch now, .ok (rule.apply patch now)⟩
        (store.put id (rule.apply patch now))
  | delete {id : Uuid} {rule : Rule} (found : store.rules[id]? = some rule) :
      store.Changes ⟨.delete id, .ok ()⟩ (store.remove id)

namespace Cache

@[simp]
theorem entries_lookUp (cache : Cache) (source : String) :
    (cache.lookUp source).2.entries = cache.entries := by
  unfold lookUp
  split <;> rfl

theorem mem_keep {cache : Cache} {source other : String} {compiled : CompiledExpression} :
    other ∈ (cache.keep source compiled).2.entries ↔ other = source ∨ other ∈ cache.entries := by
  unfold keep
  cases found : cache.entries[source]? with
  | none =>
      have same : compare source other = .eq ↔ other = source :=
        Std.LawfulEqCmp.compare_eq_iff_eq.trans eq_comm
      exact Std.TreeMap.mem_insert.trans (or_congr_left same)
  | some present =>
      have member : source ∈ cache.entries :=
        Std.TreeMap.mem_iff_isSome_getElem?.2 (by rw [found]; rfl)
      refine ⟨.inr, ?_⟩
      rintro (rfl | before)
      · exact member
      · exact before

theorem mem_evict {cache : Cache} {source other : String} :
    other ∈ (cache.evict source).2.entries ↔ other ≠ source ∧ other ∈ cache.entries := by
  have same : compare source other = .eq ↔ other = source :=
    Std.LawfulEqCmp.compare_eq_iff_eq.trans eq_comm
  exact Std.TreeMap.mem_erase.trans (and_congr_left' (not_congr same))

theorem not_mem_clear (cache : Cache) (source : String) : source ∉ cache.clear.entries := by
  simp [clear]

theorem not_mem_empty (source : String) : source ∉ empty.entries := by
  simp [empty]

end Cache

namespace Engine

/-! ## Calls that may fail -/

theorem perform_get_cases (engine : Engine) (id : Uuid) :
    (∃ error, engine.perform (.get id) = (Except.error error, engine)) ∨
      ∃ rule, engine.store.rules[id]? = some rule ∧
        engine.perform (.get id) = (Except.ok rule, engine) := by
  change (∃ error, engine.withStore (engine.store.get id) = _) ∨
    ∃ rule, _ ∧ engine.withStore (engine.store.get id) = _
  obtain ⟨error, failed⟩ | ⟨rule, found, answered⟩ := engine.store.get_cases id
  · exact .inl ⟨error, by rw [failed]; rfl⟩
  · exact .inr ⟨rule, found, by rw [answered]; rfl⟩

theorem perform_create_cases (engine : Engine) (id : Uuid) (now : Instant) (input : NewRule) :
    (∃ error, engine.perform (.create id now input) = (Except.error error, engine)) ∨
      engine.perform (.create id now input) =
        (Except.ok (.ofNew id now input),
          { engine with store := engine.store.insert (.ofNew id now input) }) := by
  change (∃ error, engine.withStore (engine.store.create id now input) = _) ∨
    engine.withStore (engine.store.create id now input) = _
  obtain ⟨error, failed⟩ | answered := engine.store.create_cases id now input
  · exact .inl ⟨error, by rw [failed]; rfl⟩
  · exact .inr (by rw [answered]; rfl)

theorem perform_update_cases (engine : Engine) (id : Uuid) (patch : RulePatch) (now : Instant) :
    (∃ error, engine.perform (.update id patch now) = (Except.error error, engine)) ∨
      ∃ rule, engine.store.rules[id]? = some rule ∧
        engine.perform (.update id patch now) =
          (Except.ok (rule.apply patch now),
            { engine with store := engine.store.put id (rule.apply patch now) }) := by
  change (∃ error, engine.withStore (engine.store.update id patch now) = _) ∨
    ∃ rule, _ ∧ engine.withStore (engine.store.update id patch now) = _
  obtain ⟨error, failed⟩ | ⟨rule, found, answered⟩ := engine.store.update_cases id patch now
  · exact .inl ⟨error, by rw [failed]; rfl⟩
  · exact .inr ⟨rule, found, by rw [answered]; rfl⟩

theorem perform_delete_cases (engine : Engine) (id : Uuid) :
    (∃ error, engine.perform (.delete id) = (Except.error error, engine)) ∨
      ∃ rule, engine.store.rules[id]? = some rule ∧
        engine.perform (.delete id) =
          (Except.ok (), { engine with store := engine.store.remove id }) := by
  change (∃ error, engine.withStore (engine.store.delete id) = _) ∨
    ∃ rule, _ ∧ engine.withStore (engine.store.delete id) = _
  obtain ⟨error, failed⟩ | ⟨rule, found, answered⟩ := engine.store.delete_cases id
  · exact .inl ⟨error, by rw [failed]; rfl⟩
  · exact .inr ⟨rule, found, by rw [answered]; rfl⟩

/-- What a call does to the store. -/
theorem perform_changes (engine : Engine) (action : Action) :
    engine.store.Changes ⟨action, (engine.perform action).1⟩
      (engine.perform action).2.store := by
  cases action with
  | listActive objectType =>
      simp only [perform, withStore, Store.listActive, Store.guarded]
      split <;> exact .nothing id
  | listAll =>
      simp only [perform, withStore, Store.listAll, Store.guarded]
      split <;> exact .nothing id
  | get place =>
      obtain ⟨error, failed⟩ | ⟨rule, -, answered⟩ := engine.perform_get_cases place
      · rw [failed]
        exact .nothing id
      · rw [answered]
        exact .nothing id
  | create place now input =>
      obtain ⟨error, failed⟩ | answered := engine.perform_create_cases place now input
      · rw [failed]
        exact .nothing id
      · rw [answered]
        exact .create place now input
  | update place patch now =>
      obtain ⟨error, failed⟩ | ⟨rule, found, answered⟩ :=
        engine.perform_update_cases place patch now
      · rw [failed]
        exact .nothing id
      · rw [answered]
        exact .update patch now found
  | delete place =>
      obtain ⟨error, failed⟩ | ⟨rule, found, answered⟩ := engine.perform_delete_cases place
      · rw [failed]
        exact .nothing id
      · rw [answered]
        exact .delete found
  | lookUp => exact .nothing id
  | keep => exact .nothing id
  | evict => exact .nothing id
  | count => exact .nothing id

/-! ## Calls of a store without outages -/

section Answers

variable {engine : Engine} {id : Uuid} {rule : Rule}

theorem perform_listActive_of_answers (answers : engine.store.outages = .none)
    (objectType : String) :
    engine.perform (.listActive objectType) =
      (Except.ok (engine.store.activeRules objectType), engine) := by
  change engine.withStore (engine.store.listActive objectType) = _
  rw [Store.listActive_of_answers answers]
  rfl

theorem perform_get_of_found (answers : engine.store.outages = .none)
    (found : engine.store.rules[id]? = some rule) :
    engine.perform (.get id) = (Except.ok rule, engine) := by
  change engine.withStore (engine.store.get id) = _
  rw [Store.get_of_found answers found]
  rfl

theorem perform_get_of_missing (answers : engine.store.outages = .none)
    (missed : engine.store.rules[id]? = none) :
    engine.perform (.get id) = (Except.error (Store.missing id), engine) := by
  change engine.withStore (engine.store.get id) = _
  rw [Store.get_of_missing answers missed]
  rfl

theorem perform_create_of_answers (answers : engine.store.outages = .none) (now : Instant)
    (input : NewRule) :
    engine.perform (.create id now input) =
      (Except.ok (.ofNew id now input),
        { engine with store := engine.store.insert (.ofNew id now input) }) := by
  change engine.withStore (engine.store.create id now input) = _
  rw [Store.create_of_answers answers]
  rfl

theorem perform_update_of_found (answers : engine.store.outages = .none)
    (found : engine.store.rules[id]? = some rule) (patch : RulePatch) (now : Instant) :
    engine.perform (.update id patch now) =
      (Except.ok (rule.apply patch now),
        { engine with store := engine.store.put id (rule.apply patch now) }) := by
  change engine.withStore (engine.store.update id patch now) = _
  rw [Store.update_of_found answers found]
  rfl

theorem perform_update_of_missing (answers : engine.store.outages = .none)
    (missed : engine.store.rules[id]? = none) (patch : RulePatch) (now : Instant) :
    engine.perform (.update id patch now) = (Except.error (Store.missing id), engine) := by
  change engine.withStore (engine.store.update id patch now) = _
  rw [Store.update_of_missing answers missed]
  rfl

theorem perform_delete_of_found (answers : engine.store.outages = .none)
    (found : engine.store.rules[id]? = some rule) :
    engine.perform (.delete id) =
      (Except.ok (), { engine with store := engine.store.remove id }) := by
  change engine.withStore (engine.store.delete id) = _
  rw [Store.delete_of_found answers found]
  rfl

end Answers

/-! ## The cache after a call -/

/-- What is cached after a call was cached before, unless the call keeps it. -/
theorem mem_entries_of_perform {engine : Engine} {action : Action} {source : String}
    (cached : source ∈ (engine.perform action).2.cache.entries) :
    source ∈ engine.cache.entries ∨ ∃ compiled, action = .keep source compiled := by
  cases action with
  | lookUp other => exact .inl (by simpa [perform, withCache] using cached)
  | keep other compiled =>
      obtain rfl | before := Cache.mem_keep.1 cached
      · exact .inr ⟨compiled, rfl⟩
      · exact .inl before
  | evict other => exact .inl (Cache.mem_evict.1 cached).2
  | _ => exact .inl cached

end Engine
end FormRules
