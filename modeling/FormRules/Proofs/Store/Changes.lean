import FormRules.Proofs.Store.Listing

/-!
# What calls of the store change

A call that fails leaves the store as it is. One that is answered changes the entry of one
identifier at most, so that a rule is stored after it only if it was stored before or is the rule
that the call writes.
-/

namespace FormRules.Store

/-- Some stored rule has this expression. -/
def Uses (store : Store) (source : String) : Prop :=
  ∃ rule, store.Holds rule ∧ rule.expression = source

/-- The store with a rule under an identifier. -/
def put (store : Store) (id : Uuid) (rule : Rule) : Store :=
  { store with rules := store.rules.insert id rule }

/-- The store without a rule under an identifier. -/
def remove (store : Store) (id : Uuid) : Store :=
  { store with rules := store.rules.erase id }

/-! ## Outcomes of calls -/

theorem get_cases (store : Store) (id : Uuid) :
    (∃ error, store.get id = (.error error, store)) ∨
      ∃ rule, store.rules[id]? = some rule ∧ store.get id = (.ok rule, store) := by
  unfold get guarded
  cases store.outages .get with
  | some error => exact .inl ⟨error, rfl⟩
  | none =>
      cases store.rules[id]? with
      | none => exact .inl ⟨missing id, rfl⟩
      | some rule => exact .inr ⟨rule, rfl, rfl⟩

theorem create_cases (store : Store) (id : Uuid) (now : Instant) (input : NewRule) :
    (∃ error, store.create id now input = (.error error, store)) ∨
      store.create id now input =
        (.ok (.ofNew id now input), store.insert (.ofNew id now input)) := by
  unfold create guarded
  cases store.outages .create with
  | some error => exact .inl ⟨error, rfl⟩
  | none => exact .inr rfl

theorem update_cases (store : Store) (id : Uuid) (patch : RulePatch) (now : Instant) :
    (∃ error, store.update id patch now = (.error error, store)) ∨
      ∃ rule, store.rules[id]? = some rule ∧
        store.update id patch now =
          (.ok (rule.apply patch now), store.put id (rule.apply patch now)) := by
  unfold update guarded
  cases store.outages .update with
  | some error => exact .inl ⟨error, rfl⟩
  | none =>
      cases store.rules[id]? with
      | none => exact .inl ⟨missing id, rfl⟩
      | some rule => exact .inr ⟨rule, rfl, rfl⟩

theorem delete_cases (store : Store) (id : Uuid) :
    (∃ error, store.delete id = (.error error, store)) ∨
      ∃ rule, store.rules[id]? = some rule ∧
        store.delete id = (.ok (), store.remove id) := by
  unfold delete guarded
  cases store.outages .delete with
  | some error => exact .inl ⟨error, rfl⟩
  | none =>
      cases store.rules[id]? with
      | none => exact .inl ⟨missing id, rfl⟩
      | some rule => exact .inr ⟨rule, rfl, rfl⟩

/-! ## Outcomes without outages -/

section Answers

variable {store : Store} {id : Uuid} {rule : Rule}

theorem listActive_of_answers (answers : store.outages = .none) (objectType : String) :
    store.listActive objectType = (.ok (store.activeRules objectType), store) := by
  simp [listActive, guarded, answers, Outages.none]

theorem get_of_found (answers : store.outages = .none) (found : store.rules[id]? = some rule) :
    store.get id = (.ok rule, store) := by
  simp [get, guarded, answers, Outages.none, found]

theorem get_of_missing (answers : store.outages = .none) (missed : store.rules[id]? = none) :
    store.get id = (.error (missing id), store) := by
  simp [get, guarded, answers, Outages.none, missed]

theorem create_of_answers (answers : store.outages = .none) (now : Instant) (input : NewRule) :
    store.create id now input =
      (.ok (.ofNew id now input), store.insert (.ofNew id now input)) := by
  simp [create, guarded, answers, Outages.none]

theorem update_of_found (answers : store.outages = .none) (found : store.rules[id]? = some rule)
    (patch : RulePatch) (now : Instant) :
    store.update id patch now =
      (.ok (rule.apply patch now), store.put id (rule.apply patch now)) := by
  simp [update, put, guarded, answers, Outages.none, found]

theorem update_of_missing (answers : store.outages = .none) (missed : store.rules[id]? = none)
    (patch : RulePatch) (now : Instant) :
    store.update id patch now = (.error (missing id), store) := by
  simp [update, guarded, answers, Outages.none, missed]

theorem delete_of_found (answers : store.outages = .none) (found : store.rules[id]? = some rule) :
    store.delete id = (.ok (), store.remove id) := by
  simp [delete, remove, guarded, answers, Outages.none, found]

end Answers

/-! ## Entries after a call -/

@[simp]
theorem getElem?_put (store : Store) (id other : Uuid) (rule : Rule) :
    (store.put id rule).rules[other]? = if id = other then some rule else store.rules[other]? := by
  simp [put, Std.TreeMap.getElem?_insert]

@[simp]
theorem getElem?_remove (store : Store) (id other : Uuid) :
    (store.remove id).rules[other]? = if id = other then none else store.rules[other]? := by
  simp [remove, Std.TreeMap.getElem?_erase]

theorem size_put_of_missing {store : Store} {id : Uuid} (missed : store.rules[id]? = none)
    (rule : Rule) : (store.put id rule).size = store.size + 1 := by
  rw [size, put, Std.TreeMap.size_insert, Std.TreeMap.contains_eq_isSome_getElem?, missed]
  rfl

theorem size_put_of_found {store : Store} {id : Uuid} {previous : Rule}
    (found : store.rules[id]? = some previous) (rule : Rule) :
    (store.put id rule).size = store.size := by
  rw [size, put, Std.TreeMap.size_insert, Std.TreeMap.contains_eq_isSome_getElem?, found]
  rfl

theorem size_remove_of_found {store : Store} {id : Uuid} {rule : Rule}
    (found : store.rules[id]? = some rule) : (store.remove id).size + 1 = store.size := by
  have contained : store.rules.contains id = true := by
    rw [Std.TreeMap.contains_eq_isSome_getElem?, found]
    rfl
  have filled := Std.TreeMap.isEmpty_eq_false_of_contains contained
  rw [Std.TreeMap.isEmpty_eq_size_eq_zero, beq_eq_false_iff_ne] at filled
  rw [size, remove, Std.TreeMap.size_erase, if_pos contained, size]
  omega

theorem holds_of_holds_put {store : Store} {id : Uuid} {rule other : Rule}
    (holds : (store.put id rule).Holds other) : other = rule ∨ store.Holds other := by
  obtain ⟨place, found⟩ := holds
  rw [getElem?_put] at found
  split at found
  · exact .inl (Option.some.inj found).symm
  · exact .inr ⟨place, found⟩

theorem holds_of_holds_remove {store : Store} {id : Uuid} {other : Rule}
    (holds : (store.remove id).Holds other) : store.Holds other := by
  obtain ⟨place, found⟩ := holds
  rw [getElem?_remove] at found
  split at found
  · exact absurd found (by simp)
  · exact ⟨place, found⟩

/-! ## Expressions in use -/

instance (store : Store) : DecidablePred store.Uses := fun source =>
  decidable_of_iff (∃ rule ∈ store.rules.values, rule.expression = source) <| by
    simp only [mem_values, Uses]

theorem uses_put_self (store : Store) (id : Uuid) (rule : Rule) :
    (store.put id rule).Uses rule.expression :=
  ⟨rule, ⟨id, by simp⟩, rfl⟩

theorem spared_of_found {store : Store} {source : String} {id : Uuid} {rule : Rule}
    (found : store.rules[id]? = some rule) (spared : rule.expression ≠ source) :
    ∀ previous, store.rules[id]? = some previous → previous.expression ≠ source := by
  intro previous previous_found
  obtain rfl := Option.some.inj (found.symm.trans previous_found)
  exact spared

/-- What replaces a rule leaves all expressions in use but the one of that rule. -/
theorem uses_put {store : Store} {source : String} (uses : store.Uses source) {id : Uuid}
    (spared : ∀ previous, store.rules[id]? = some previous → previous.expression ≠ source)
    (rule : Rule) : (store.put id rule).Uses source := by
  obtain ⟨other, ⟨place, found⟩, same⟩ := uses
  refine ⟨other, ⟨place, ?_⟩, same⟩
  have elsewhere : id ≠ place := by
    rintro rfl
    exact spared other found same
  rw [getElem?_put, if_neg elsewhere, found]

/-- What replaces a rule by one with the same expression leaves all expressions in use. -/
theorem uses_put_of_same {store : Store} {source : String} (uses : store.Uses source) {id : Uuid}
    {previous rule : Rule} (found : store.rules[id]? = some previous)
    (same : rule.expression = previous.expression) : (store.put id rule).Uses source := by
  by_cases own : previous.expression = source
  · rw [← own, ← same]
    exact uses_put_self store id rule
  · exact uses_put uses (spared_of_found found own) rule

/-- Removing a rule leaves all expressions in use but the one of that rule. -/
theorem uses_remove {store : Store} {source : String} (uses : store.Uses source) {id : Uuid}
    (spared : ∀ previous, store.rules[id]? = some previous → previous.expression ≠ source) :
    (store.remove id).Uses source := by
  obtain ⟨other, ⟨place, found⟩, same⟩ := uses
  refine ⟨other, ⟨place, ?_⟩, same⟩
  have elsewhere : id ≠ place := by
    rintro rfl
    exact spared other found same
  rw [getElem?_remove, if_neg elsewhere, found]

end FormRules.Store
