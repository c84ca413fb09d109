import FormRules.Number
import Std.Data.TreeMap

/-!
# JSON values

JSON with its numbers kept apart as integers and binary64 numbers. An object is the list of its
members in the order of the text; `Json.tree` is the finite map that it denotes, in which the last
of several members with one name counts.
-/

namespace FormRules

/-- A number of a JSON text. -/
inductive JsonNumber where
  /-- A number without point and exponent that fits 64 bits. -/
  | integer (value : Int)
  /-- Any other number. -/
  | decimal (value : Number)
deriving DecidableEq

/-- The binary64 number nearest to a number. -/
def JsonNumber.toNumber : JsonNumber → Number
  | integer value => Number.ofInt value
  | decimal value => value

/-- A JSON value. -/
inductive Json where
  | null
  | boolean (flag : Bool)
  | number (number : JsonNumber)
  | text (content : String)
  | array (items : List Json)
  | object (members : List (String × Json))

namespace Json

/-- The name of the kind of a value. -/
def kindName : Json → String
  | null => "null"
  | boolean _ => "boolean"
  | number _ => "number"
  | text _ => "string"
  | array _ => "array"
  | object _ => "object"

/-- A natural number as a value. -/
def natural (value : Nat) : Json :=
  number (.integer value)

/-- The finite map that a list of members denotes. -/
def tree (members : List (String × Json)) : Std.TreeMap String Json :=
  .ofList members

mutual

/-- The value with the members of every object in the order of their names, one for each name. -/
def sorted : Json → Json
  | array items => array (sortedItems items)
  | object members => object (tree (sortedMembers members)).toList
  | value => value

/-- The items of an array with their objects sorted. -/
def sortedItems : List Json → List Json
  | [] => []
  | head :: rest => head.sorted :: sortedItems rest

/-- The members of an object with their objects sorted. -/
def sortedMembers : List (String × Json) → List (String × Json)
  | [] => []
  | (name, value) :: rest => (name, value.sorted) :: sortedMembers rest

end

end Json

/-- What a client submits: named JSON values, in the order of the names. -/
abbrev Form := Std.TreeMap String Json

namespace Form

/-- The form as a JSON object. -/
def toJson (form : Form) : Json :=
  .object form.toList

end Form
end FormRules
