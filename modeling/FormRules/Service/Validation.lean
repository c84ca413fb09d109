/-!
# Validation of requests

The failures of a request that can be read but is out of bounds, and the two texts made of them: a
list of messages by field, and lines that name each field once.
-/

namespace FormRules.Service

/-- A field that is out of bounds. -/
structure FieldFailure where
  field : String
  /-- The rule that the field breaks. -/
  code : String
  /-- What to say about it, if not the general text. -/
  message : Option String
deriving DecidableEq

namespace FieldFailure

/-- The message about a field on its own. -/
def shortText (failure : FieldFailure) : String :=
  failure.message.getD s!"{failure.field} is invalid"

/-- The message about a field behind its name. -/
def longText (failure : FieldFailure) : String :=
  failure.message.getD s!"Validation error: {failure.code} [\x7b\x7d]"

end FieldFailure

/-- The messages about failures, by the order of their fields. -/
def validationMessages (failures : List FieldFailure) : List String :=
  (failures.mergeSort fun left right => left.field ≤ right.field).map FieldFailure.shortText

/-- The line on all failures of one field. -/
def fieldLine (failures : List FieldFailure) (field : String) : String :=
  let texts := (failures.filter (·.field == field)).map FieldFailure.longText
  field ++ ": " ++ String.intercalate ", " texts

/-- The sorted lines on failures, field by field. -/
def validationText (failures : List FieldFailure) : String :=
  let fields := (failures.map (·.field)).eraseDups
  let lines := (String.intercalate "\n" (fields.map (fieldLine failures))).splitOn "\n"
  String.intercalate "\n" (lines.mergeSort fun left right => left ≤ right)

/-- The failure of a text whose number of characters is out of bounds. -/
def checkLength (field message : String) (least greatest : Nat) (text : String) :
    List FieldFailure :=
  if least ≤ text.length ∧ text.length ≤ greatest then []
  else [⟨field, "length", some message⟩]

/-- The failure of a value that is missing. -/
def checkPresent {Data : Type} (field message : String) : Option Data → List FieldFailure
  | some _ => []
  | none => [⟨field, "required", some message⟩]

end FormRules.Service
