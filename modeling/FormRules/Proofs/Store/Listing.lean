import FormRules.Proofs.Sorting
import FormRules.Store

/-!
# Listings of the stored rules

A store keeps every rule under its own identifier. The active rules of an object type are then
listed once each and strictly in the order in which they apply.
-/

namespace FormRules

/-- Instants are ordered in time. -/
instance : Ord Instant := ⟨Instant.order⟩

instance : Std.TransOrd Instant :=
  inferInstanceAs
    (Std.TransCmp (compareLex (compareOn Instant.second) (compareOn Instant.nanosecond)))

namespace Rule

/-- The comparison behind the order in which rules apply. -/
def applicationOrder (left right : Rule) : Ordering :=
  (left.createdAt.order right.createdAt).then (compare left.id right.id)

instance : Std.TransCmp applicationOrder :=
  inferInstanceAs (Std.TransCmp (compareLex (compareOn Rule.createdAt) (compareOn Rule.id)))

/-- One rule applies strictly before another. -/
def Precedes (left right : Rule) : Prop :=
  applicationOrder left right = .lt

/-- Rules with different identifiers never tie. -/
theorem applicationOrder_ne_eq {left right : Rule} (distinct : left.id ≠ right.id) :
    applicationOrder left right ≠ .eq := by
  intro tie
  have ids : compare left.id right.id = .eq := (Ordering.then_eq_eq.1 tie).2
  exact distinct (Std.LawfulEqCmp.eq_of_compare ids)

end Rule

namespace Store

/-- Every rule is kept under its own identifier. -/
def Keyed (store : Store) : Prop :=
  ∀ (id : Uuid) (rule : Rule), store.rules[id]? = some rule → rule.id = id

/-- A rule is stored. -/
def Holds (store : Store) (rule : Rule) : Prop :=
  ∃ id : Uuid, store.rules[id]? = some rule

theorem values_eq (store : Store) :
    store.rules.values = store.rules.toList.map Prod.snd := by
  have pairs : store.rules.toList =
      store.rules.inner.inner.toListModel.map fun entry => (entry.1, entry.2) :=
    Std.DTreeMap.Internal.Impl.Const.toList_eq_toListModel_map
  rw [pairs, List.map_map]
  exact Std.DTreeMap.Internal.Impl.values_eq_map_snd

theorem mem_values {store : Store} {rule : Rule} :
    rule ∈ store.rules.values ↔ store.Holds rule := by
  rw [values_eq, List.mem_map]
  constructor
  · rintro ⟨⟨id, kept⟩, member, rfl⟩
    exact ⟨id, Std.TreeMap.mem_toList_iff_getElem?_eq_some.1 member⟩
  · rintro ⟨id, found⟩
    exact ⟨(id, rule), Std.TreeMap.mem_toList_iff_getElem?_eq_some.2 found, rfl⟩

theorem length_values (store : Store) : store.rules.values.length = store.size := by
  rw [values_eq, List.length_map, Std.TreeMap.length_toList, size]

/-- No two entries of a keyed store have one identifier. -/
theorem values_pairwise_id {store : Store} (keyed : store.Keyed) :
    store.rules.values.Pairwise fun left right => left.id ≠ right.id := by
  rw [values_eq, List.pairwise_map]
  refine List.Pairwise.imp_of_mem ?_ Std.TreeMap.distinct_keys_toList
  intro left right left_mem right_mem distinct same
  have left_id := keyed _ _ (Std.TreeMap.mem_toList_iff_getElem?_eq_some.1 left_mem)
  have right_id := keyed _ _ (Std.TreeMap.mem_toList_iff_getElem?_eq_some.1 right_mem)
  apply distinct
  rw [← left_id, ← right_id, same]
  exact Std.ReflCmp.compare_self

theorem mem_activeRules {store : Store} {objectType : String} {rule : Rule} :
    rule ∈ store.activeRules objectType ↔
      store.Holds rule ∧ rule.isActive = true ∧ rule.objectType = objectType := by
  simp [activeRules, mem_values]

/-- The active rules of an object type are listed strictly in the order in which they apply. -/
theorem activeRules_pairwise {store : Store} (keyed : store.Keyed) (objectType : String) :
    (store.activeRules objectType).Pairwise Rule.Precedes := by
  have distinct := (values_pairwise_id keyed).filter fun rule =>
    rule.isActive && rule.objectType == objectType
  exact Sorting.mergeSort_pairwise_lt (distinct.imp Rule.applicationOrder_ne_eq)

theorem keyed_empty : empty.Keyed := by
  intro id rule found
  simp [empty] at found

theorem keyed_insert {store : Store} (keyed : store.Keyed) (rule : Rule) :
    (store.insert rule).Keyed := by
  intro id found_rule found
  simp only [insert, Std.TreeMap.getElem?_insert] at found
  split at found
  case isTrue same =>
    obtain rfl := Option.some.inj found
    exact Std.LawfulEqCmp.eq_of_compare same
  case isFalse => exact keyed id found_rule found

theorem keyed_clear (store : Store) : store.clear.Keyed := by
  intro id rule found
  simp [clear] at found

theorem outages_guarded {Answer : Type} (store : Store) (call : StoreCall)
    {respond : Except RuleError Answer × Store} (kept : respond.2.outages = store.outages) :
    (store.guarded call respond).2.outages = store.outages := by
  unfold guarded
  split
  · rfl
  · exact kept

theorem outages_listActive (store : Store) (objectType : String) :
    (store.listActive objectType).2.outages = store.outages :=
  outages_guarded store _ rfl

theorem outages_listAll (store : Store) : store.listAll.2.outages = store.outages :=
  outages_guarded store _ rfl

theorem outages_get (store : Store) (id : Uuid) : (store.get id).2.outages = store.outages := by
  apply outages_guarded
  split <;> rfl

theorem outages_create (store : Store) (id : Uuid) (now : Instant) (input : NewRule) :
    (store.create id now input).2.outages = store.outages :=
  outages_guarded store _ rfl

theorem outages_update (store : Store) (id : Uuid) (patch : RulePatch) (now : Instant) :
    (store.update id patch now).2.outages = store.outages := by
  apply outages_guarded
  split <;> rfl

theorem outages_delete (store : Store) (id : Uuid) :
    (store.delete id).2.outages = store.outages := by
  apply outages_guarded
  split <;> rfl

/-- An answer that leaves the store as it is, or replaces it by a keyed one, keeps it keyed. -/
private theorem keyed_guarded {Answer : Type} {store : Store} (keyed : store.Keyed)
    (call : StoreCall) {respond : Except RuleError Answer × Store}
    (respond_keyed : respond.2.Keyed) : (store.guarded call respond).2.Keyed := by
  unfold guarded
  split
  · exact keyed
  · exact respond_keyed

theorem keyed_listActive {store : Store} (keyed : store.Keyed) (objectType : String) :
    (store.listActive objectType).2.Keyed :=
  keyed_guarded keyed _ keyed

theorem keyed_listAll {store : Store} (keyed : store.Keyed) : store.listAll.2.Keyed :=
  keyed_guarded keyed _ keyed

theorem keyed_get {store : Store} (keyed : store.Keyed) (id : Uuid) : (store.get id).2.Keyed := by
  apply keyed_guarded keyed
  split <;> exact keyed

theorem keyed_create {store : Store} (keyed : store.Keyed) (id : Uuid) (now : Instant)
    (input : NewRule) : (store.create id now input).2.Keyed :=
  keyed_guarded keyed _ (keyed_insert keyed _)

theorem keyed_update {store : Store} (keyed : store.Keyed) (id : Uuid) (patch : RulePatch)
    (now : Instant) : (store.update id patch now).2.Keyed := by
  apply keyed_guarded keyed
  split
  case h_1 rule found =>
    have same_id : (rule.apply patch now).id = id := keyed id rule found
    have inserted := keyed_insert keyed (rule.apply patch now)
    rwa [insert, same_id] at inserted
  case h_2 => exact keyed

theorem keyed_delete {store : Store} (keyed : store.Keyed) (id : Uuid) :
    (store.delete id).2.Keyed := by
  apply keyed_guarded keyed
  split
  case h_1 =>
    intro other rule found
    simp only [Std.TreeMap.getElem?_erase] at found
    split at found
    · simp at found
    · exact keyed other rule found
  case h_2 => exact keyed

end Store
end FormRules
