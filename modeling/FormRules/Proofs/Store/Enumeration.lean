import FormRules.Proofs.Store.Succession
import Mathlib.Data.List.Nodup

/-!
# Listings in whatever order the map gives its entries

Of a map from identifiers to rules it is not said in which order it gives its entries. The two
listings of a store do not depend on it. Both sort by an order in which no two stored rules tie, so
that each is the one list with the right rules in strictly rising order.
-/

namespace FormRules

namespace Rule

/-- The comparison behind the order in which rules are listed: the object types ascend, the times
descend within one type, and the identifiers ascend within one time. -/
def listingOrder (left right : Rule) : Ordering :=
  (compare left.objectType right.objectType).then
    ((right.createdAt.order left.createdAt).then (compare left.id right.id))

instance : Std.TransCmp listingOrder :=
  have : Std.TransCmp fun left right : Rule => compareOn Rule.createdAt right left :=
    Std.TransCmp.opposite
  inferInstanceAs (Std.TransCmp (compareLex (compareOn Rule.objectType)
    (compareLex (fun left right => compareOn Rule.createdAt right left) (compareOn Rule.id))))

theorem listingOrder_ne_eq {left right : Rule} (distinct : left.id ≠ right.id) :
    listingOrder left right ≠ .eq := by
  intro tie
  have ids := (Ordering.then_eq_eq.1 (Ordering.then_eq_eq.1 tie).2).2
  exact distinct (Std.LawfulEqCmp.eq_of_compare ids)

end Rule

namespace Store

/-- Some entries are those of the map of a store, each once, in any order. -/
structure Enumerates (store : Store) (entries : List (Uuid × Rule)) : Prop where
  once : entries.Nodup
  member : ∀ id rule, (id, rule) ∈ entries ↔ store.rules[id]? = some rule

/-- The listing of the active rules of an object type among the entries of a map. -/
def activeAmong (entries : List (Uuid × Rule)) (objectType : String) : List Rule :=
  ((entries.map Prod.snd).filter fun rule =>
    rule.isActive && rule.objectType == objectType).mergeSort Rule.appliesBefore

/-- The listing of all rules among the entries of a map. -/
def allAmong (entries : List (Uuid × Rule)) : List Rule :=
  (entries.map Prod.snd).mergeSort Rule.listedBefore

/-- A list has each wanted rule of a store once and no other rule, and the rules rise strictly in
some order. -/
structure Lists (store : Store) (wanted : Rule → Prop) (order : Rule → Rule → Ordering)
    (rules : List Rule) : Prop where
  once : ∀ rule, store.Holds rule → wanted rule → rules.count rule = 1
  only : ∀ rule ∈ rules, store.Holds rule ∧ wanted rule
  rising : rules.Pairwise fun left right => order left right = .lt

/-- The rule is active and of an object type. -/
def IsActiveOf (objectType : String) (rule : Rule) : Prop :=
  rule.isActive = true ∧ rule.objectType = objectType

instance (objectType : String) : DecidablePred (IsActiveOf objectType) := fun _ =>
  inferInstanceAs (Decidable (_ ∧ _))

section Lists

variable {store : Store} {wanted : Rule → Prop} {order : Rule → Rule → Ordering}
  {rules : List Rule}

theorem Lists.mem_iff (lists : store.Lists wanted order rules) (rule : Rule) :
    rule ∈ rules ↔ store.Holds rule ∧ wanted rule :=
  ⟨lists.only rule, fun ⟨holds, wants⟩ =>
    List.count_pos_iff.1 (lists.once rule holds wants ▸ Nat.one_pos)⟩

instance [DecidablePred wanted] : DecidablePred (store.Lists wanted order) := fun rules =>
  decidable_of_iff
    ((∀ rule ∈ store.rules.values, wanted rule → rules.count rule = 1) ∧
      (∀ rule ∈ rules, rule ∈ store.rules.values ∧ wanted rule) ∧
      rules.Pairwise fun left right => order left right = .lt) <| by
    simp only [mem_values]
    exact ⟨fun ⟨once, only, rising⟩ => ⟨once, only, rising⟩,
      fun ⟨once, only, rising⟩ => ⟨once, only, rising⟩⟩

variable [Std.TransCmp order]

theorem lists_of_mem_iff (rising : rules.Pairwise fun left right => order left right = .lt)
    (member : ∀ rule, rule ∈ rules ↔ store.Holds rule ∧ wanted rule) :
    store.Lists wanted order rules where
  once rule holds wants :=
    List.count_eq_one_of_mem (Sorting.nodup_of_pairwise_lt rising) ((member rule).2 ⟨holds, wants⟩)
  only rule listed := (member rule).1 listed
  rising := rising

/-- There is one such list at most. -/
theorem Lists.iff_eq (lists : store.Lists wanted order rules) (others : List Rule) :
    store.Lists wanted order others ↔ others = rules := by
  constructor
  · intro others_list
    exact Sorting.eq_of_pairwise_lt others_list.rising lists.rising fun rule =>
      (others_list.mem_iff rule).trans (lists.mem_iff rule).symm
  · rintro rfl
    exact lists

end Lists

section Entries

variable {store : Store} {entries : List (Uuid × Rule)}

theorem enumerates_toList (store : Store) : store.Enumerates store.rules.toList where
  once := by
    refine Std.TreeMap.distinct_keys_toList.imp fun differ same => ?_
    rw [same] at differ
    exact differ Std.ReflCmp.compare_self
  member _ _ := Std.TreeMap.mem_toList_iff_getElem?_eq_some

/-- The entries of a map are those that it keeps, put in another order. -/
theorem enumerates_iff_perm : store.Enumerates entries ↔ entries.Perm store.rules.toList := by
  have kept := enumerates_toList store
  constructor
  · intro enumerates
    exact (List.perm_ext_iff_of_nodup enumerates.once kept.once).2 fun entry =>
      (enumerates.member entry.1 entry.2).trans (kept.member entry.1 entry.2).symm
  · exact fun same => ⟨same.nodup_iff.2 kept.once,
      fun id rule => same.mem_iff.trans (kept.member id rule)⟩

instance (store : Store) : DecidablePred store.Enumerates := fun _ =>
  decidable_of_iff _ enumerates_iff_perm.symm

theorem Enumerates.perm_values (enumerates : store.Enumerates entries) :
    (entries.map Prod.snd).Perm store.rules.values := by
  rw [values_eq]
  exact (enumerates_iff_perm.1 enumerates).map Prod.snd

theorem Enumerates.pairwise_id (enumerates : store.Enumerates entries) (keyed : store.Keyed) :
    (entries.map Prod.snd).Pairwise fun left right => left.id ≠ right.id :=
  enumerates.perm_values.symm.pairwise (values_pairwise_id keyed) fun differ => differ.symm

theorem Enumerates.mem_map (enumerates : store.Enumerates entries) (rule : Rule) :
    rule ∈ entries.map Prod.snd ↔ store.Holds rule :=
  enumerates.perm_values.mem_iff.trans mem_values

theorem lists_activeAmong (enumerates : store.Enumerates entries) (keyed : store.Keyed)
    (objectType : String) :
    store.Lists (IsActiveOf objectType) Rule.applicationOrder (activeAmong entries objectType) := by
  have apart := (enumerates.pairwise_id keyed).filter fun rule =>
    rule.isActive && rule.objectType == objectType
  refine lists_of_mem_iff
    (Sorting.mergeSort_pairwise_lt (apart.imp Rule.applicationOrder_ne_eq)) fun rule => ?_
  rw [activeAmong, List.mem_mergeSort, List.mem_filter, enumerates.mem_map]
  simp [IsActiveOf]

theorem lists_allAmong (enumerates : store.Enumerates entries) (keyed : store.Keyed) :
    store.Lists (fun _ => True) Rule.listingOrder (allAmong entries) := by
  refine lists_of_mem_iff (Sorting.mergeSort_pairwise_lt
    ((enumerates.pairwise_id keyed).imp Rule.listingOrder_ne_eq)) fun rule => ?_
  rw [allAmong, List.mem_mergeSort, enumerates.mem_map]
  simp

end Entries

theorem activeRules_eq_activeAmong (store : Store) (objectType : String) :
    store.activeRules objectType = activeAmong store.rules.toList objectType := by
  rw [activeRules, activeAmong, values_eq]

theorem allRules_eq_allAmong (store : Store) :
    store.allRules = allAmong store.rules.toList := by
  rw [allRules, allAmong, values_eq]

/-- Whatever calls a store has answered and in whatever order its map gives the entries, the
listings come out the same. The active rules of an object type are the one list that has each of
them once, no other rule, and rises strictly by time and identifier. All rules are the one list that
has each of them once and rises strictly by object type, time from the latest on, and identifier. -/
theorem listings_enumerated (history : List Operation) {entries : List (Uuid × Rule)}
    (enumerates : (afterCalls history).Enumerates entries) :
    (∀ objectType,
      ((afterCalls history).listActive objectType).1 = .ok (activeAmong entries objectType) ∧
      ∀ rules, (afterCalls history).Lists (IsActiveOf objectType) Rule.applicationOrder rules ↔
        rules = activeAmong entries objectType) ∧
    (afterCalls history).listAll.1 = .ok (allAmong entries) ∧
    ∀ rules, (afterCalls history).Lists (fun _ => True) Rule.listingOrder rules ↔
      rules = allAmong entries := by
  have keyed := keyed_afterCalls history
  have answers := outages_afterCalls history
  have kept := enumerates_toList (afterCalls history)
  have all := lists_allAmong enumerates keyed
  refine ⟨fun objectType => ?_, ?_, all.iff_eq⟩
  · have active := lists_activeAmong enumerates keyed objectType
    refine ⟨?_, active.iff_eq⟩
    rw [listActive_of_answers answers, activeRules_eq_activeAmong]
    exact congrArg _ ((active.iff_eq _).1 (lists_activeAmong kept keyed objectType))
  · rw [listAll_of_answers answers, allRules_eq_allAmong]
    exact congrArg _ ((all.iff_eq _).1 (lists_allAmong kept keyed))

/-- An active rule of an object type that was made at a second. -/
def ruleOf (objectType : String) (second : Int) (id : Uuid) : Rule :=
  ⟨id, objectType, "Total = 0", "No total.", true, none, ⟨second, 0⟩, ⟨second, 0⟩⟩

/-- Two rules of one second and a later one, and a rule of another object type. -/
def mixedRules : List Rule :=
  [ruleOf "Order" 5 ⟨1⟩, ruleOf "Order" 3 ⟨2⟩, ruleOf "Asset" 9 ⟨3⟩, ruleOf "Order" 3 ⟨4⟩]

/-- The entries that these rules make, the greatest identifiers first. -/
def mixedEntries : List (Uuid × Rule) :=
  (mixedRules.map fun rule => (rule.id, rule)).reverse

theorem listings_enumerated_mixed :
    (afterCalls (mixedRules.map .insert)).Enumerates mixedEntries ∧
      ((afterCalls (mixedRules.map .insert)).listActive "Order").1 =
        .ok [ruleOf "Order" 3 ⟨2⟩, ruleOf "Order" 3 ⟨4⟩, ruleOf "Order" 5 ⟨1⟩] ∧
      (afterCalls (mixedRules.map .insert)).listAll.1 =
        .ok [ruleOf "Asset" 9 ⟨3⟩, ruleOf "Order" 5 ⟨1⟩, ruleOf "Order" 3 ⟨2⟩,
          ruleOf "Order" 3 ⟨4⟩] := by
  have enumerates : (afterCalls (mixedRules.map .insert)).Enumerates mixedEntries := by
    decide +kernel
  obtain ⟨active, all, all_unique⟩ := listings_enumerated _ enumerates
  obtain ⟨orders, orders_unique⟩ := active "Order"
  refine ⟨enumerates, ?_, ?_⟩
  · exact orders.trans (congrArg _ ((orders_unique _).1 (by decide +kernel)).symm)
  · exact all.trans (congrArg _ ((all_unique _).1 (by decide +kernel)).symm)

end Store
end FormRules
