import FormRules.Error
import FormRules.Json
import FormRules.Value

/-!
# Records

What expressions are evaluated on: named values. A record is made from a form by reading each of
its fields as a value, which fails for arrays and objects; of several such fields the one whose
name comes first is reported.
-/

namespace FormRules

/-- The value of a JSON scalar. -/
def Value.ofJson? : Json → Option Value
  | .null => some null
  | .boolean flag => some (boolean flag)
  | .number value => some (number value.toNumber)
  | .text content => some (text content)
  | .array _ | .object _ => none

/-- Named values. Names differ by case. -/
structure FieldRecord where
  fields : Std.TreeMap String Value

namespace FieldRecord

/-- The record without fields. -/
def empty : FieldRecord := ⟨∅⟩

/-- The record with one field set. -/
def insert (record : FieldRecord) (name : String) (value : Value) : FieldRecord :=
  ⟨record.fields.insert name value⟩

/-- The value of a field, if the record has it. -/
def get? (record : FieldRecord) (name : String) : Option Value :=
  record.fields[name]?

/-- The value that an expression sees for a field: null if the record lacks it. -/
def valueOf (record : FieldRecord) (name : String) : Value :=
  (record.get? name).getD .null

/-- The number of fields. -/
def size (record : FieldRecord) : Nat :=
  record.fields.size

/-- The record of a list of fields; of several with one name the last one counts. -/
def ofList (fields : List (String × Value)) : FieldRecord :=
  fields.foldl (fun record (name, value) => record.insert name value) empty

/-- The value of one field of a form. -/
def fieldOfJson (name : String) (json : Json) : Except RuleError Value :=
  match Value.ofJson? json with
  | some value => .ok value
  | none => .error (.unsupportedField name json.kindName)

/-- The record of a form. Fields are read in the order of their names. -/
def ofForm (form : Form) : Except RuleError FieldRecord :=
  form.toList.foldlM (fun record (name, json) => do
    let value ← fieldOfJson name json
    return record.insert name value) empty

/-- The record of a JSON value, which must be an object. -/
def ofJson : Json → Except RuleError FieldRecord
  | .object members => ofForm (Json.tree members)
  | json => .error (.invalidForm json.kindName)

theorem get?_empty (name : String) : empty.get? name = none := by
  simp [get?, empty]

theorem get?_insert (record : FieldRecord) (name : String) (value : Value) (other : String) :
    (record.insert name value).get? other =
      if name = other then some value else record.get? other := by
  simp only [get?, insert, Std.TreeMap.getElem?_insert, Std.LawfulEqCmp.compare_eq_iff_eq]

end FieldRecord
end FormRules
