import FormRules.Number.Shortest
import FormRules.Calendar.Stamp

/-!
# Values

The five kinds of values that expressions compute with. A text that spells a finite number or a
date can stand in for it; `numeric?` and `dateLike?` are the readings that decide when.
-/

namespace FormRules

/-- The kinds of values. -/
inductive ValueKind where
  | null
  | boolean
  | number
  | text
  | date
deriving DecidableEq

namespace ValueKind

/-- The name of a kind. -/
def name : ValueKind → String
  | null => "null"
  | boolean => "boolean"
  | number => "number"
  | text => "text"
  | date => "date"

end ValueKind

/-- A value. -/
inductive Value where
  /-- The value of a field that was left out. -/
  | null
  | boolean (flag : Bool)
  | number (number : Number)
  | text (content : String)
  | date (date : Date)
deriving DecidableEq

namespace Value

/-- The kind of a value. -/
def kind : Value → ValueKind
  | null => .null
  | boolean _ => .boolean
  | number _ => .number
  | text _ => .text
  | date _ => .date

/-- Nothing was filled in: a null or an empty text. -/
def isBlank : Value → Bool
  | null => true
  | text content => content == ""
  | _ => false

/-- The flag of a boolean. -/
def asBoolean? : Value → Option Bool
  | boolean flag => some flag
  | _ => none

/-- The number of a numeric value. -/
def asNumber? : Value → Option Number
  | number value => some value
  | _ => none

/-- The content of a text. -/
def asText? : Value → Option String
  | text content => some content
  | _ => none

/-- The date of a date value. -/
def asDate? : Value → Option Date
  | date value => some value
  | _ => none

/-- The finite number that a text spells, blanks around it aside. -/
def readNumber? (content : String) : Option Number :=
  (Number.ofNumeral? (Text.trim content.toList)).filter Number.isFinite

/-- The date that a text spells, blanks around it aside. -/
def readDate? (content : String) : Option Date :=
  Date.ofText? content.toList

/-- The number of a value, or the finite number that its text spells. -/
def numeric? : Value → Option Number
  | number value => some value
  | text content => readNumber? content
  | _ => none

/-- The date of a value, or the date that its text spells. -/
def dateLike? : Value → Option Date
  | date value => some value
  | text content => readDate? content
  | _ => none

/-- The canonical text of a value. -/
def display : Value → String
  | null => "NULL"
  | boolean true => "TRUE"
  | boolean false => "FALSE"
  | number value => String.ofList value.text
  | text content => content
  | date value => String.ofList value.text

/-- Two values are the same: of one kind, and equal as that kind counts. A number that is no number
is not the same as itself, and the zeros of both signs are the same. -/
def same : Value → Value → Bool
  | null, null => true
  | boolean left, boolean right => left == right
  | number left, number right => left.same right
  | text left, text right => left == right
  | date left, date right => left == right
  | _, _ => false

end Value
end FormRules
