import FormRules.Proofs.History
import FormRules.Proofs.Store.Changes
import Mathlib.Data.List.Induction

/-!
# Calls of the store one after another

A store in memory is called again and again. What it has under an identifier is the rule that was
put there last, as the changes since then have left it: each field has the last value that some
change gave it. Every call answers, and changes the entries, as it would for a finite map from
identifiers to rules.
-/

namespace FormRules

namespace Rule

/-- What some changes, made one after another at their times, have made of a rule. -/
structure Amends (original : Rule) (changes : List (RulePatch × Instant)) (rule : Rule) : Prop where
  id : rule.id = original.id
  createdBy : rule.createdBy = original.createdBy
  createdAt : rule.createdAt = original.createdAt
  /-- The last value that a change gave the field, or the original one. -/
  objectType :
    rule.objectType = (changes.filterMap (·.1.objectType)).getLastD original.objectType
  expression :
    rule.expression = (changes.filterMap (·.1.expression)).getLastD original.expression
  errorMessage :
    rule.errorMessage = (changes.filterMap (·.1.errorMessage)).getLastD original.errorMessage
  isActive : rule.isActive = (changes.filterMap (·.1.isActive)).getLastD original.isActive
  updatedAt : rule.updatedAt = (changes.map Prod.snd).getLastD original.updatedAt

/-- The rule after some changes. -/
def applyAll (rule : Rule) (changes : List (RulePatch × Instant)) : Rule :=
  changes.foldl (fun changed change => changed.apply change.1 change.2) rule

theorem applyAll_append (rule : Rule) (earlier later : List (RulePatch × Instant)) :
    rule.applyAll (earlier ++ later) = (rule.applyAll earlier).applyAll later :=
  List.foldl_append

/-- A field after one more change. -/
theorem getLastD_filterMap_concat {Change Value : Type} (field : Change → Option Value)
    (changes : List Change) (change : Change) (original : Value) :
    ((changes ++ [change]).filterMap field).getLastD original =
      (field change).getD ((changes.filterMap field).getLastD original) := by
  rw [List.filterMap_append]
  cases given : field change <;> simp [given]

theorem amends_applyAll (rule : Rule) (changes : List (RulePatch × Instant)) :
    rule.Amends changes (rule.applyAll changes) := by
  induction changes using List.reverseRecOn with
  | nil => exact ⟨rfl, rfl, rfl, rfl, rfl, rfl, rfl, rfl⟩
  | append_singleton changes change induction =>
      rw [applyAll_append]
      exact
        { id := induction.id
          createdBy := induction.createdBy
          createdAt := induction.createdAt
          objectType := by rw [getLastD_filterMap_concat, ← induction.objectType]; rfl
          expression := by rw [getLastD_filterMap_concat, ← induction.expression]; rfl
          errorMessage := by rw [getLastD_filterMap_concat, ← induction.errorMessage]; rfl
          isActive := by rw [getLastD_filterMap_concat, ← induction.isActive]; rfl
          updatedAt := by simp [applyAll, apply] }

/-- Changes determine what they make of a rule. -/
theorem Amends.unique {original rule other : Rule} {changes : List (RulePatch × Instant)}
    (amends : original.Amends changes rule) (amends' : original.Amends changes other) :
    rule = other := by
  cases rule
  cases other
  rw [mk.injEq]
  exact ⟨amends.id.trans amends'.id.symm, amends.objectType.trans amends'.objectType.symm,
    amends.expression.trans amends'.expression.symm,
    amends.errorMessage.trans amends'.errorMessage.symm,
    amends.isActive.trans amends'.isActive.symm, amends.createdBy.trans amends'.createdBy.symm,
    amends.createdAt.trans amends'.createdAt.symm, amends.updatedAt.trans amends'.updatedAt.symm⟩

theorem amends_iff {original rule : Rule} {changes : List (RulePatch × Instant)} :
    original.Amends changes rule ↔ original.applyAll changes = rule := by
  have applied := amends_applyAll original changes
  constructor
  · exact applied.unique
  · rintro rfl
    exact applied

end Rule

namespace Store

/-- A call of a store in memory. -/
inductive Operation where
  /-- Writes a whole rule. -/
  | insert (rule : Rule)
  | create (id : Uuid) (now : Instant) (input : NewRule)
  | update (id : Uuid) (patch : RulePatch) (now : Instant)
  | delete (id : Uuid)
  | clear
  | get (id : Uuid)
  | listActive (objectType : String)
  | listAll

namespace Operation

/-- The type of the answer to a call. -/
def Answer : Operation → Type
  | insert _ | clear => Unit
  | create .. | update .. | get _ => Except RuleError Rule
  | delete _ => Except RuleError Unit
  | listActive _ | listAll => Except RuleError (List Rule)

/-- The rule that a call puts under its identifier. -/
def introduced? : Operation → Option Rule
  | insert rule => some rule
  | create id now input => some (.ofNew id now input)
  | _ => none

/-- The call leaves the rule under an identifier there, though it may change it. -/
def Keeps (id : Uuid) : Operation → Prop
  | insert rule => rule.id ≠ id
  | create other _ _ | delete other => other ≠ id
  | clear => False
  | update .. | get _ | listActive _ | listAll => True

/-- The change that a call makes to the rule under an identifier. -/
def change? (id : Uuid) : Operation → Option (RulePatch × Instant)
  | update other patch now => if other = id then some (patch, now) else none
  | _ => none

end Operation

/-- Makes a call. -/
def answer (store : Store) : (operation : Operation) → operation.Answer × Store
  | .insert rule => ((), store.insert rule)
  | .create id now input => store.create id now input
  | .update id patch now => store.update id patch now
  | .delete id => store.delete id
  | .clear => ((), store.clear)
  | .get id => store.get id
  | .listActive objectType => store.listActive objectType
  | .listAll => store.listAll

/-- A store in memory after some calls. -/
def afterCalls (history : List Operation) : Store :=
  history.foldl (fun store operation => (store.answer operation).2) .empty

/-- In the course of some calls a rule was put under an identifier, and since then it was only
changed. -/
def Leaves (history : List Operation) (id : Uuid) (original : Rule)
    (changes : List (RulePatch × Instant)) : Prop :=
  ∃ introduction before since, history = before ++ introduction :: since ∧
    introduction.introduced? = some original ∧ original.id = id ∧
    (∀ operation ∈ since, operation.Keeps id) ∧ since.filterMap (·.change? id) = changes

/-! ## What is left under an identifier -/

section Leaves

variable {history : List Operation} {operation : Operation} {id : Uuid} {original : Rule}
  {changes : List (RulePatch × Instant)}

theorem Operation.not_keeps_of_introduced (introduced : operation.introduced? = some original) :
    ¬ operation.Keeps original.id := by
  cases operation with
  | insert rule =>
      obtain rfl := Option.some.inj introduced
      exact fun keeps => keeps rfl
  | create id now input =>
      obtain rfl := Option.some.inj introduced
      exact fun keeps => keeps rfl
  | _ => exact nomatch introduced

/-- One more call put the rule there itself, or it kept what was there. -/
theorem leaves_concat :
    Leaves (history ++ [operation]) id original changes ↔
      (operation.introduced? = some original ∧ original.id = id ∧ changes = []) ∨
      (operation.Keeps id ∧ ∃ earlier, Leaves history id original earlier ∧
        changes = earlier ++ (operation.change? id).toList) := by
  have changes_concat (since : List Operation) : (since ++ [operation]).filterMap (·.change? id) =
      since.filterMap (·.change? id) ++ (operation.change? id).toList := by
    rw [List.filterMap_append]
    cases change : operation.change? id <;> simp [change]
  constructor
  · rintro ⟨introduction, split⟩
    obtain ⟨rfl, introduced, placed, -, rfl⟩ |
      ⟨before, since, rfl, introduced, placed, kept, rfl⟩ := exists_split_concat.1 split
    · exact .inl ⟨introduced, placed, rfl⟩
    · rw [List.forall_mem_append, List.forall_mem_singleton] at kept
      exact .inr ⟨kept.2, _, ⟨introduction, before, since, rfl, introduced, placed, kept.1, rfl⟩,
        changes_concat since⟩
  · rintro (⟨introduced, placed, rfl⟩ | ⟨keeps, earlier, leaves, rfl⟩)
    · exact ⟨operation, exists_split_concat.2 (.inl ⟨rfl, introduced, placed, by simp, rfl⟩)⟩
    · obtain ⟨introduction, before, since, rfl, introduced, placed, kept, rfl⟩ := leaves
      refine ⟨introduction, exists_split_concat.2 (.inr ⟨before, since, rfl, introduced, placed,
        ?_, changes_concat since⟩)⟩
      rw [List.forall_mem_append, List.forall_mem_singleton]
      exact ⟨kept, keeps⟩

end Leaves

/-! ## Entries after calls -/

theorem outages_answer (store : Store) (operation : Operation) :
    (store.answer operation).2.outages = store.outages := by
  cases operation with
  | insert | clear => rfl
  | create id now input => exact store.outages_create id now input
  | update id patch now => exact store.outages_update id patch now
  | delete id => exact store.outages_delete id
  | get id => exact store.outages_get id
  | listActive objectType => exact store.outages_listActive objectType
  | listAll => exact store.outages_listAll

theorem keyed_answer {store : Store} (keyed : store.Keyed) (operation : Operation) :
    (store.answer operation).2.Keyed := by
  cases operation with
  | insert rule => exact keyed_insert keyed rule
  | create id now input => exact keyed_create keyed id now input
  | update id patch now => exact keyed_update keyed id patch now
  | delete id => exact keyed_delete keyed id
  | clear => exact keyed_clear store
  | get id => exact keyed_get keyed id
  | listActive objectType => exact keyed_listActive keyed objectType
  | listAll => exact keyed_listAll keyed

section Answer

variable {store : Store} {operation : Operation} {id : Uuid} (answers : store.outages = .none)

include answers

theorem listAll_of_answers : store.listAll = (.ok store.allRules, store) := by
  simp [listAll, guarded, answers, Outages.none]

theorem delete_of_missing (missed : store.rules[id]? = none) :
    store.delete id = (.error (missing id), store) := by
  simp [delete, guarded, answers, Outages.none, missed]

omit answers in
theorem getElem?_insert (rule : Rule) (other : Uuid) :
    (store.insert rule).rules[other]? =
      if rule.id = other then some rule else store.rules[other]? :=
  store.getElem?_put rule.id other rule

theorem getElem?_answer_of_introduced {rule : Rule}
    (introduced : operation.introduced? = some rule) :
    (store.answer operation).2.rules[rule.id]? = some rule := by
  cases operation with
  | insert other =>
      obtain rfl := Option.some.inj introduced
      rw [answer, getElem?_insert, if_pos rfl]
  | create other now input =>
      obtain rfl := Option.some.inj introduced
      rw [answer, create_of_answers answers, getElem?_insert, if_pos rfl]
  | _ => exact nomatch introduced

/-- A call that keeps an entry does no more to it than its change. -/
theorem getElem?_answer_of_keeps (keeps : operation.Keeps id) :
    (store.answer operation).2.rules[id]? =
      store.rules[id]?.map fun rule => rule.applyAll (operation.change? id).toList := by
  have unchanged : store.rules[id]? = store.rules[id]?.map fun rule => rule.applyAll [] := by
    simp [Rule.applyAll]
  cases operation with
  | insert rule =>
      rw [answer, getElem?_insert, if_neg keeps]
      exact unchanged
  | create other now input =>
      have elsewhere : (Rule.ofNew other now input).id ≠ id := keeps
      rw [answer, create_of_answers answers, getElem?_insert, if_neg elsewhere]
      exact unchanged
  | update other patch now =>
      cases found : store.rules[other]? with
      | none =>
          rw [answer, update_of_missing answers found]
          by_cases same : other = id
          · subst same
            rw [found]
            rfl
          · rw [Operation.change?, if_neg same]
            exact unchanged
      | some rule =>
          rw [answer, update_of_found answers found, getElem?_put, Operation.change?]
          by_cases same : other = id
          · subst same
            rw [if_pos rfl, if_pos rfl, found]
            rfl
          · rw [if_neg same, if_neg same]
            exact unchanged
  | delete other =>
      cases found : store.rules[other]? with
      | none =>
          rw [answer, delete_of_missing answers found]
          exact unchanged
      | some rule =>
          rw [answer, delete_of_found answers found, getElem?_remove, if_neg keeps]
          exact unchanged
  | clear => exact keeps.elim
  | get other =>
      obtain ⟨error, failed⟩ | ⟨rule, -, answered⟩ := store.get_cases other
      · rw [answer, failed]
        exact unchanged
      · rw [answer, answered]
        exact unchanged
  | listActive objectType =>
      rw [answer, listActive_of_answers answers]
      exact unchanged
  | listAll =>
      rw [answer, listAll_of_answers answers]
      exact unchanged

theorem getElem?_answer_of_lost (lost : ¬ operation.Keeps id)
    (elsewhere : ∀ rule, operation.introduced? = some rule → rule.id ≠ id) :
    (store.answer operation).2.rules[id]? = none := by
  cases operation with
  | insert rule => exact absurd (elsewhere rule rfl) lost
  | create other now input => exact absurd (elsewhere _ rfl) lost
  | delete other =>
      obtain rfl : other = id := Decidable.not_not.1 lost
      cases found : store.rules[other]? with
      | none => rw [answer, delete_of_missing answers found, found]
      | some rule => rw [answer, delete_of_found answers found, getElem?_remove, if_pos rfl]
  | clear => simp [answer, clear]
  | update | get | listActive | listAll => exact absurd trivial lost

/-- After a call there is the rule that it has put there, or the one that it has kept, changed as it
says. -/
theorem getElem?_answer {rule : Rule} :
    (store.answer operation).2.rules[id]? = some rule ↔
      (operation.introduced? = some rule ∧ rule.id = id) ∨
      (operation.Keeps id ∧ ∃ before, store.rules[id]? = some before ∧
        before.applyAll (operation.change? id).toList = rule) := by
  by_cases keeps : operation.Keeps id
  · rw [getElem?_answer_of_keeps answers keeps, Option.map_eq_some_iff]
    constructor
    · intro kept
      exact .inr ⟨keeps, kept⟩
    -- a call that puts a rule somewhere does not keep what was there
    · rintro (⟨introduced, rfl⟩ | ⟨-, kept⟩)
      · exact absurd keeps (Operation.not_keeps_of_introduced introduced)
      · exact kept
  · rw [or_iff_left fun kept => keeps kept.1]
    constructor
    · intro found
      refine Decidable.byContradiction fun not_put => ?_
      have elsewhere : ∀ other, operation.introduced? = some other → other.id ≠ id := by
        intro other introduced placed
        subst placed
        rw [getElem?_answer_of_introduced answers introduced, Option.some.injEq] at found
        subst found
        exact not_put ⟨introduced, rfl⟩
      rw [getElem?_answer_of_lost answers keeps elsewhere] at found
      simp at found
    · rintro ⟨introduced, rfl⟩
      exact getElem?_answer_of_introduced answers introduced

end Answer

theorem afterCalls_concat (history : List Operation) (operation : Operation) :
    afterCalls (history ++ [operation]) = ((afterCalls history).answer operation).2 := by
  rw [afterCalls, List.foldl_append]
  rfl

theorem outages_afterCalls (history : List Operation) :
    (afterCalls history).outages = .none := by
  induction history using List.reverseRecOn with
  | nil => rfl
  | append_singleton history operation induction =>
      rw [afterCalls_concat, outages_answer, induction]

theorem keyed_afterCalls (history : List Operation) : (afterCalls history).Keyed := by
  induction history using List.reverseRecOn with
  | nil => exact keyed_empty
  | append_singleton history operation induction =>
      rw [afterCalls_concat]
      exact keyed_answer induction operation

/-- Under an identifier stands the rule that was put there last, after the changes since then. -/
theorem getElem?_afterCalls {history : List Operation} {id : Uuid} {rule : Rule} :
    (afterCalls history).rules[id]? = some rule ↔
      ∃ original changes, Leaves history id original changes ∧
        original.applyAll changes = rule := by
  induction history using List.reverseRecOn generalizing rule with
  | nil => simp [afterCalls, empty, Leaves]
  | append_singleton history operation induction =>
      rw [afterCalls_concat, getElem?_answer (outages_afterCalls history)]
      simp only [leaves_concat, induction]
      constructor
      · rintro (⟨introduced, placed⟩ | ⟨keeps, _, ⟨original, earlier, leaves, rfl⟩, rfl⟩)
        · exact ⟨rule, [], .inl ⟨introduced, placed, rfl⟩, rfl⟩
        · exact ⟨original, _, .inr ⟨keeps, earlier, leaves, rfl⟩, original.applyAll_append _ _⟩
      · rintro ⟨original, _, ⟨introduced, placed, rfl⟩ | ⟨keeps, earlier, leaves, rfl⟩, rfl⟩
        · exact .inl ⟨introduced, placed⟩
        · exact .inr ⟨keeps, _, ⟨original, earlier, leaves, rfl⟩,
            (original.applyAll_append _ _).symm⟩

/-! ## What calls answer -/

/-- A call answers, and leaves the entries behind, as for a finite map. -/
inductive Acts (before after : Store) : (operation : Operation) → operation.Answer → Prop where
  | insert (rule : Rule)
      (entries : ∀ other : Uuid, after.rules[other]? =
        if rule.id = other then some rule else before.rules[other]?) :
      Acts before after (.insert rule) ()
  /-- A fresh identifier makes one more rule. -/
  | create (id : Uuid) (now : Instant) (input : NewRule)
      (entries : ∀ other : Uuid, after.rules[other]? =
        if id = other then some (.ofNew id now input) else before.rules[other]?)
      (size : before.rules[id]? = none → after.size = before.size + 1) :
      Acts before after (.create id now input) (.ok (.ofNew id now input))
  /-- The next look at the entry shows what the change has answered. -/
  | update {id : Uuid} {patch : RulePatch} {now : Instant} {rule changed : Rule}
      (found : before.rules[id]? = some rule) (amends : rule.Amends [(patch, now)] changed)
      (entries : ∀ other : Uuid, after.rules[other]? =
        if id = other then some changed else before.rules[other]?)
      (size : after.size = before.size) (next : (after.answer (.get id)).1 = .ok changed) :
      Acts before after (.update id patch now) (.ok changed)
  | updateMissing {id : Uuid} {patch : RulePatch} {now : Instant}
      (missed : before.rules[id]? = none) (same : after = before) :
      Acts before after (.update id patch now) (.error (missing id))
  | delete {id : Uuid} {rule : Rule} (found : before.rules[id]? = some rule)
      (entries : ∀ other : Uuid, after.rules[other]? =
        if id = other then none else before.rules[other]?)
      (size : after.size + 1 = before.size) : Acts before after (.delete id) (.ok ())
  | deleteMissing {id : Uuid} (missed : before.rules[id]? = none) (same : after = before) :
      Acts before after (.delete id) (.error (missing id))
  | clear (entries : ∀ other : Uuid, after.rules[other]? = none) (size : after.size = 0) :
      Acts before after .clear ()
  | get {id : Uuid} {rule : Rule} (found : before.rules[id]? = some rule)
      (same : after = before) : Acts before after (.get id) (.ok rule)
  | getMissing {id : Uuid} (missed : before.rules[id]? = none) (same : after = before) :
      Acts before after (.get id) (.error (missing id))
  | listActive {objectType : String} {rules : List Rule} (distinct : rules.Nodup)
      (member : ∀ rule, rule ∈ rules ↔
        before.Holds rule ∧ rule.isActive = true ∧ rule.objectType = objectType)
      (same : after = before) : Acts before after (.listActive objectType) (.ok rules)
  | listAll {rules : List Rule} (distinct : rules.Nodup)
      (member : ∀ rule, rule ∈ rules ↔ before.Holds rule) (same : after = before) :
      Acts before after .listAll (.ok rules)

theorem allRules_nodup {store : Store} (keyed : store.Keyed) : store.allRules.Nodup := by
  rw [allRules, (List.mergeSort_perm _ _).nodup_iff]
  refine (values_pairwise_id keyed).imp fun differ same => ?_
  rw [same] at differ
  exact differ rfl

/-- Every call of a store without outages acts as on a finite map. -/
theorem acts_answer {store : Store} (answers : store.outages = .none) (keyed : store.Keyed)
    (operation : Operation) :
    Acts store (store.answer operation).2 operation (store.answer operation).1 := by
  cases operation with
  | insert rule => exact .insert rule (store.getElem?_insert rule)
  | create id now input =>
      rw [answer, create_of_answers answers]
      exact .create id now input (store.getElem?_insert _) fun fresh =>
        size_put_of_missing fresh _
  | update id patch now =>
      cases found : store.rules[id]? with
      | none =>
          rw [answer, update_of_missing answers found]
          exact .updateMissing found rfl
      | some rule =>
          rw [answer, update_of_found answers found]
          refine .update found (rule.amends_applyAll [(patch, now)]) (store.getElem?_put id · _)
            (size_put_of_found found _) ?_
          have written : (store.put id (rule.apply patch now)).rules[id]? =
              some (rule.apply patch now) := by simp
          have still : (store.put id (rule.apply patch now)).outages = .none := answers
          exact congrArg Prod.fst (get_of_found still written)
  | delete id =>
      cases found : store.rules[id]? with
      | none =>
          rw [answer, delete_of_missing answers found]
          exact .deleteMissing found rfl
      | some rule =>
          rw [answer, delete_of_found answers found]
          exact .delete found (store.getElem?_remove id) (size_remove_of_found found)
  | clear => exact .clear (by simp [answer, clear]) rfl
  | get id =>
      cases found : store.rules[id]? with
      | none =>
          rw [answer, get_of_missing answers found]
          exact .getMissing found rfl
      | some rule =>
          rw [answer, get_of_found answers found]
          exact .get found rfl
  | listActive objectType =>
      rw [answer, listActive_of_answers answers]
      exact .listActive (Sorting.nodup_of_pairwise_lt (activeRules_pairwise keyed objectType))
        (fun rule => mem_activeRules) rfl
  | listAll =>
      rw [answer, listAll_of_answers answers]
      exact .listAll (allRules_nodup keyed) (fun rule => by simp [allRules, mem_values]) rfl

/-- After any calls a store in memory is a finite map from identifiers to rules: it has under each
identifier the rule that was put there last, as the changes since then have left it, as many entries
as there are such identifiers, and it acts on the next call as such a map does. -/
theorem afterCalls_refines (history : List Operation) :
    (∀ id rule, (afterCalls history).rules[id]? = some rule ↔
      ∃ original changes, Leaves history id original changes ∧ original.Amends changes rule) ∧
    (afterCalls history).Keyed ∧
    (∃ ids : List Uuid, ids.Nodup ∧ ids.length = (afterCalls history).size ∧
      ∀ id, id ∈ ids ↔ ∃ original changes, Leaves history id original changes) ∧
    ∀ operation, Acts (afterCalls history) ((afterCalls history).answer operation).2 operation
      ((afterCalls history).answer operation).1 := by
  have keyed := keyed_afterCalls history
  have entry (id : Uuid) (rule : Rule) : (afterCalls history).rules[id]? = some rule ↔
      ∃ original changes, Leaves history id original changes ∧ original.Amends changes rule := by
    simp only [getElem?_afterCalls, Rule.amends_iff]
  refine ⟨entry, keyed, ⟨(afterCalls history).rules.keys, ?_, ?_, fun id => ?_⟩,
    acts_answer (outages_afterCalls history) keyed⟩
  · exact Std.TreeMap.nodup_keys
  · exact Std.TreeMap.length_keys
  · rw [Std.TreeMap.mem_keys, Std.TreeMap.mem_iff_isSome_getElem?, Option.isSome_iff_exists]
    constructor
    · rintro ⟨rule, found⟩
      obtain ⟨original, changes, leaves, -⟩ := (entry id rule).1 found
      exact ⟨original, changes, leaves⟩
    · rintro ⟨original, changes, leaves⟩
      exact ⟨_, (entry id _).2 ⟨original, changes, leaves, original.amends_applyAll changes⟩⟩

end Store
end FormRules
