import FormRules.Json.Draft
import FormRules.Calendar.Instant
import FormRules.Uuid

/-!
# Reading typed data from JSON

A decoder takes a value of some type from a draft, or tells whether the text is malformed or the
data unfit. A shape describes a record by its fields in order: their names, how each is decoded
and what becomes of it if it is missing. A record is read from an object, whose unknown members are
skipped, or from an array of its fields in order. Faults of the text and of the data are met in
the order of the text.
-/

namespace FormRules.Json

/-- Why typed data cannot be read. -/
inductive Refusal where
  /-- The text is not JSON. -/
  | malformed
  /-- The text is JSON of another shape. -/
  | unfit
deriving DecidableEq

/-- Takes a value from a draft. -/
abbrev Decoder (Data : Type) := Draft → Except Refusal Data

namespace Decoder

/-- The refusal of a draft whose kind is wrong. Only a scalar is read to its end before it is
refused. -/
def misfit : Draft → Refusal
  | .broken | .number none | .text none => .malformed
  | _ => .unfit

/-- Refuses data as unfit unless there is some. -/
def fit {Data : Type} : Option Data → Except Refusal Data
  | some data => .ok data
  | none => .error .unfit

/-- A boolean. -/
def boolean : Decoder Bool
  | .boolean flag => .ok flag
  | draft => .error (misfit draft)

/-- A string. -/
def text : Decoder String
  | .text (some content) => .ok content
  | draft => .error (misfit draft)

/-- A natural number of at most 64 bits. -/
def natural : Decoder Nat
  | .number (some (.integer value)) => fit value.toNat?
  | draft => .error (misfit draft)

/-- Nothing, written as null, or a value. -/
def optional {Data : Type} (decoder : Decoder Data) : Decoder (Option Data)
  | .null => .ok none
  | draft => (decoder draft).map some

/-- An identifier. -/
def uuid : Decoder Uuid := fun draft => do
  fit (Uuid.ofText? (← text draft).toList)

/-- A time stamp. -/
def instant : Decoder Instant := fun draft => do
  fit (Instant.ofText? (← text draft).toList)

/-- Any value with containers nested at most so many levels deep. -/
def json (levels : Nat) : Decoder Json := fun draft =>
  match draft.toJson? levels with
  | some json => .ok json
  | none => .error .malformed

/-- An object with containers nested at most so many levels deep, itself included. -/
def form (levels : Nat) : Decoder Form
  | .object members closed =>
      match (Draft.object members closed).toJson? levels with
      | some (.object members) => .ok (Json.tree members)
      | _ => .error .malformed
  | draft => .error (misfit draft)

/-- An array of values of one type. -/
def list {Data : Type} (decoder : Decoder Data) : Decoder (List Data)
  | .array items closed => do
      let values ← items.mapM decoder
      if closed then .ok values else .error .malformed
  | draft => .error (misfit draft)

end Decoder

/-- One field of a record. -/
structure Shape.Field where
  name : String
  /-- Whether the value of the field can be read. -/
  check : Decoder Unit
  /-- An object may lack the field. -/
  mayLack : Bool
  /-- An array may end before the field. -/
  mayEnd : Bool

/-- The fields of a record, and how it is built from what was found of them. -/
structure Shape (Data : Type) where
  fields : List Shape.Field
  build : (String → Option Draft) → Except Refusal Data

namespace Shape

/-- A field that must be there. -/
def required {Data : Type} (name : String) (decoder : Decoder Data) : Shape Data where
  fields := [⟨name, fun draft => discard (decoder draft), false, false⟩]
  build found := (found name).elim (.error .unfit) decoder

/-- A field that an object may lack, which is the same as null. -/
def nullable {Data : Type} (name : String) (decoder : Decoder Data) : Shape (Option Data) where
  fields := [⟨name, fun draft => discard (decoder.optional draft), true, false⟩]
  build found := (found name).elim (.ok none) decoder.optional

/-- A field with a default. -/
def withDefault {Data : Type} (name : String) (decoder : Decoder Data) (default : Data) :
    Shape Data where
  fields := [⟨name, fun draft => discard (decoder draft), true, true⟩]
  build found := (found name).elim (.ok default) decoder

instance : Applicative Shape where
  pure data := ⟨[], fun _ => .ok data⟩
  seq shape argument :=
    ⟨shape.fields ++ (argument ()).fields, fun found => do
      let build ← shape.build found
      let data ← (argument ()).build found
      return build data⟩

/-- Collects the fields among the members of an object, in the order of the text. -/
def collect (fields : List Field) :
    List (String × Draft) → List (Option String × Draft) → Except Refusal (List (String × Draft))
  | found, [] => .ok found
  | _, (none, _) :: _ => .error .malformed
  | found, (some name, value) :: rest =>
      match fields.find? (·.name == name) with
      | some field =>
          if (found.lookup name).isSome then .error .unfit
          else do
            field.check value
            collect fields ((name, value) :: found) rest
      | none => if value.isComplete then collect fields found rest else .error .malformed

/-- Pairs the fields with the items of an array. -/
def pair (closed : Bool) : List Field → List Draft → Except Refusal (List (String × Draft))
  | [], [] => if closed then .ok [] else .error .malformed
  | [], _ :: _ => .error .malformed
  | field :: fields, [] =>
      if !closed then .error .malformed
      else if (field :: fields).all (·.mayEnd) then .ok []
      else .error .unfit
  | field :: fields, item :: items => do
      field.check item
      let rest ← pair closed fields items
      return (field.name, item) :: rest

/-- Reads a record. -/
def decode {Data : Type} (shape : Shape Data) : Decoder Data
  | .object members closed => do
      let found ← collect shape.fields [] members
      if !closed then .error .malformed
      else if shape.fields.all fun field => field.mayLack || (found.lookup field.name).isSome then
        shape.build fun name => found.lookup name
      else .error .unfit
  | .array items closed => do
      let found ← pair closed shape.fields items
      shape.build fun name => found.lookup name
  | draft => .error (Decoder.misfit draft)

/-- Reads a record from a JSON value; of members with one name the last one counts. -/
def ofJson? {Data : Type} (shape : Shape Data) (json : Json) : Option Data :=
  (shape.decode (Draft.ofJson json.sorted)).toOption

/-- Reads a record from the JSON text in bytes. -/
def ofBytes {Data : Type} (shape : Shape Data) (bytes : ByteArray) : Except Refusal Data := do
  let document := Draft.ofBytes bytes
  let data ← shape.decode document.value
  if document.alone then .ok data else .error .malformed

end Shape
end FormRules.Json
