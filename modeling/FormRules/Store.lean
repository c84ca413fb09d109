import FormRules.Error
import FormRules.Rule
import Std.Data.TreeMap

/-!
# The rule store

The stored rules by their identifiers, and the outages of the store. A call that is out fails and
changes nothing.
-/

namespace FormRules

/-- The calls that a store answers. -/
inductive StoreCall where
  | listActive
  | listAll
  | get
  | create
  | update
  | delete
deriving DecidableEq

/-- The error with which each call fails, if it does. -/
abbrev Outages := StoreCall → Option RuleError

namespace Outages

/-- Every call is answered. -/
def none : Outages := fun _ => .none

/-- Every call fails with a message of the store. -/
def total (message : String) : Outages := fun _ => some (.store message)

/-- Some more calls fail. -/
def add (outages : Outages) (calls : List StoreCall) (error : RuleError) : Outages :=
  fun call => if call ∈ calls then some error else outages call

end Outages

namespace Rule

/-- The order in which rules apply: the oldest first, ties by identifier. -/
def appliesBefore (left right : Rule) : Bool :=
  ((left.createdAt.order right.createdAt).then (compare left.id right.id)).isLE

/-- The order in which rules are listed: by object type, the youngest first within one, ties by
identifier. -/
def listedBefore (left right : Rule) : Bool :=
  ((compare left.objectType right.objectType).then
    ((right.createdAt.order left.createdAt).then (compare left.id right.id))).isLE

end Rule

/-- The state of the rule store. -/
structure Store where
  rules : Std.TreeMap Uuid Rule
  outages : Outages

namespace Store

/-- The store without rules. -/
def empty : Store := ⟨∅, .none⟩

/-- The number of stored rules. -/
def size (store : Store) : Nat :=
  store.rules.size

/-- Puts a rule under its identifier, in place of the one that is there. -/
def insert (store : Store) (rule : Rule) : Store :=
  { store with rules := store.rules.insert rule.id rule }

/-- Removes all rules. -/
def clear (store : Store) : Store :=
  { store with rules := ∅ }

/-- The error of an identifier without a rule. -/
def missing (id : Uuid) : RuleError :=
  .notFound (String.ofList id.text)

/-- The active rules of an object type in the order in which they apply. -/
def activeRules (store : Store) (objectType : String) : List Rule :=
  (store.rules.values.filter fun rule =>
    rule.isActive && rule.objectType == objectType).mergeSort Rule.appliesBefore

/-- All rules in the order in which they are listed. -/
def allRules (store : Store) : List Rule :=
  store.rules.values.mergeSort Rule.listedBefore

/-- Answers a call unless it is out. -/
def guarded {Answer : Type} (store : Store) (call : StoreCall)
    (respond : Except RuleError Answer × Store) : Except RuleError Answer × Store :=
  match store.outages call with
  | some error => (.error error, store)
  | none => respond

/-- The active rules of an object type. -/
def listActive (store : Store) (objectType : String) : Except RuleError (List Rule) × Store :=
  store.guarded .listActive (.ok (store.activeRules objectType), store)

/-- All rules. -/
def listAll (store : Store) : Except RuleError (List Rule) × Store :=
  store.guarded .listAll (.ok store.allRules, store)

/-- The rule with an identifier. -/
def get (store : Store) (id : Uuid) : Except RuleError Rule × Store :=
  store.guarded .get <|
    match store.rules[id]? with
    | some rule => (.ok rule, store)
    | none => (.error (missing id), store)

/-- Stores a new rule under an identifier at a time. -/
def create (store : Store) (id : Uuid) (now : Instant) (input : NewRule) :
    Except RuleError Rule × Store :=
  store.guarded .create <|
    let rule := Rule.ofNew id now input
    (.ok rule, store.insert rule)

/-- Changes the rule with an identifier. -/
def update (store : Store) (id : Uuid) (patch : RulePatch) (now : Instant) :
    Except RuleError Rule × Store :=
  store.guarded .update <|
    match store.rules[id]? with
    | some rule =>
        let changed := rule.apply patch now
        (.ok changed, { store with rules := store.rules.insert id changed })
    | none => (.error (missing id), store)

/-- Removes the rule with an identifier. -/
def delete (store : Store) (id : Uuid) : Except RuleError Unit × Store :=
  store.guarded .delete <|
    match store.rules[id]? with
    | some _ => (.ok (), { store with rules := store.rules.erase id })
    | none => (.error (missing id), store)

end Store
end FormRules
