import FormRules.Calendar.Instant
import FormRules.Uuid

/-!
# Rules

A rule says by an expression when a form of some object type is wrong, and what to say then. The
expression is kept as text. New rules and changes of rules leave out what the rule store decides:
the identifier and the times.
-/

namespace FormRules

/-- A validation rule. -/
structure Rule where
  id : Uuid
  /-- The type of the objects that the rule applies to. -/
  objectType : String
  /-- True on a record means that the rule is violated. -/
  expression : String
  /-- What to say about a violation. -/
  errorMessage : String
  isActive : Bool
  createdBy : Option Uuid
  createdAt : Instant
  updatedAt : Instant
deriving DecidableEq

/-- What makes up a rule before it is stored. -/
structure NewRule where
  objectType : String
  expression : String
  errorMessage : String
  isActive : Bool
  createdBy : Option Uuid
deriving DecidableEq

/-- A change of a rule; what is left out stays as it is. -/
structure RulePatch where
  objectType : Option String
  expression : Option String
  errorMessage : Option String
  isActive : Option Bool
deriving DecidableEq

namespace RulePatch

/-- The patch changes nothing. -/
def isEmpty (patch : RulePatch) : Bool :=
  patch.objectType.isNone && patch.expression.isNone && patch.errorMessage.isNone &&
    patch.isActive.isNone

end RulePatch

namespace Rule

/-- The rule that a new rule becomes under an identifier at a time. -/
def ofNew (id : Uuid) (now : Instant) (input : NewRule) : Rule where
  id := id
  objectType := input.objectType
  expression := input.expression
  errorMessage := input.errorMessage
  isActive := input.isActive
  createdBy := input.createdBy
  createdAt := now
  updatedAt := now

/-- The rule after a change at a time. -/
def apply (rule : Rule) (patch : RulePatch) (now : Instant) : Rule :=
  { rule with
    objectType := patch.objectType.getD rule.objectType
    expression := patch.expression.getD rule.expression
    errorMessage := patch.errorMessage.getD rule.errorMessage
    isActive := patch.isActive.getD rule.isActive
    updatedAt := now }

end Rule
end FormRules
