import FormRules.Engine
import FormRules.Proofs.Form
import FormRules.Proofs.Number.Nearest

/-!
# Forms that are submitted

A form is taken over as a whole or not at all. If it has a record, the record has the value of each
field under the very name of the field, and nothing else. If it has none, its evaluation ends with
the error about the first field at fault before it calls upon the store, the cache or the metrics.
-/

namespace FormRules

/-- The value that a JSON scalar denotes. An integer denotes the binary64 number nearest to it. -/
inductive Json.Denotes : Json → Value → Prop where
  | null : Denotes .null .null
  | boolean (flag : Bool) : Denotes (.boolean flag) (.boolean flag)
  | integer (value : Int) (number : Number)
      (nearest : number.IsNearest (value < 0) (value.natAbs * Magnitude.unitsPerOne) 1) :
      Denotes (.number (.integer value)) (.number number)
  | decimal (number : Number) : Denotes (.number (.decimal number)) (.number number)
  | text (content : String) : Denotes (.text content) (.text content)

theorem Value.ofJson?_eq_some_iff {json : Json} {value : Value} :
    ofJson? json = some value ↔ json.Denotes value := by
  constructor
  · intro converted
    cases json with
    | array | object => nomatch converted
    | null => obtain rfl := Option.some.inj converted; exact .null
    | boolean flag => obtain rfl := Option.some.inj converted; exact .boolean flag
    | number number =>
        obtain rfl := Option.some.inj converted
        cases number with
        | integer value => exact .integer value _ (Number.ofInt_eq_iff.1 rfl)
        | decimal number => exact .decimal number
    | text content => obtain rfl := Option.some.inj converted; exact .text content
  · intro denotes
    cases denotes with
    | integer value number nearest =>
        exact congrArg (some ∘ Value.number) (Number.ofInt_eq_iff.2 nearest)
    | null | boolean | decimal | text => rfl

namespace FieldRecord

/-- A record has the values of a form under their names, and nothing else. -/
structure Mirrors (record : FieldRecord) (form : Form) : Prop where
  present : ∀ (name : String) (json : Json), form[name]? = some json →
    ∃ value, record.get? name = some value ∧ json.Denotes value
  absent : ∀ name : String, form[name]? = none → record.get? name = none
  size : record.size = form.size

theorem exists_ofForm_iff (form : Form) :
    (∃ record, ofForm form = .ok record) ↔ ¬ form.Nests := by
  obtain ⟨plain, read⟩ | ⟨name, json, first, refused⟩ := ofForm_cases form
  · exact iff_of_true read plain
  · refine iff_of_false ?_ (not_not_intro first.nests)
    rintro ⟨record, read⟩
    exact nomatch refused.symm.trans read

variable {form : Form} {record : FieldRecord}

theorem exists_denotes_of_ofForm (read : ofForm form = .ok record) {name : String} {json : Json}
    (found : form[name]? = some json) : ∃ value, json.Denotes value := by
  have plain := (exists_ofForm_iff form).1 ⟨record, read⟩
  have scalar : json.isContainer = false :=
    Bool.eq_false_iff.2 fun container => plain ⟨name, json, found, container⟩
  obtain ⟨value, converted⟩ := exists_fieldOfJson name scalar
  exact ⟨value, Value.ofJson?_eq_some_iff.1 (fieldOfJson_eq_ok_iff.1 converted)⟩

/-- A record has as many fields as its form. -/
theorem size_of_ofForm (read : ofForm form = .ok record) : record.size = form.size := by
  have same (name : String) : name ∈ record.fields ↔ name ∈ form := by
    have value_eq : record.fields[name]? = form[name]?.bind Value.ofJson? := get?_ofForm read name
    rw [Std.TreeMap.mem_iff_isSome_getElem?, Std.TreeMap.mem_iff_isSome_getElem?, value_eq]
    cases found : form[name]? with
    | none => rfl
    | some json =>
        obtain ⟨value, denotes⟩ := exists_denotes_of_ofForm read found
        rw [Option.bind_some, Value.ofJson?_eq_some_iff.2 denotes]
        rfl
  have perm : record.fields.keys.Perm form.keys :=
    (List.perm_ext_iff_of_nodup Std.TreeMap.nodup_keys Std.TreeMap.nodup_keys).2 fun {name} =>
      Std.TreeMap.mem_keys.trans ((same name).trans Std.TreeMap.mem_keys.symm)
  rw [size, ← Std.TreeMap.length_keys, perm.length_eq, Std.TreeMap.length_keys]

theorem mirrors_of_ofForm (read : ofForm form = .ok record) : record.Mirrors form where
  present name json found := by
    obtain ⟨value, denotes⟩ := exists_denotes_of_ofForm read found
    refine ⟨value, ?_, denotes⟩
    rw [get?_ofForm read, found, Option.bind_some, Value.ofJson?_eq_some_iff.2 denotes]
  absent name missed := by rw [get?_ofForm read, missed, Option.bind_none]
  size := size_of_ofForm read

/-- A form without a record is refused before anything else is done. -/
theorem run_evaluateForm_of_error {error : RuleError} (refused : ofForm form = .error error)
    (limits : Limits) (objectType : String) (today : Date) :
    (Engine.evaluateForm limits objectType form today).run = .done (.error error) := by
  rw [Engine.evaluateForm, refused]
  rfl

/-- A form with two fields at fault; of their names the one that begins with a capital letter has
the lesser bytes. -/
def nestedForm : Form :=
  Json.tree [("tags", .array []), ("Note", .text "urgent"), ("Total", .object [])]

/-- A form without fields at fault. The binary64 numbers next to its integer are `2 ^ 53` and
`2 ^ 53 + 2`. -/
def soundForm : Form :=
  Json.tree
    [("Note", .text "urgent"), ("Paid", .boolean true), ("Owner", .null),
      ("Total", .number (.integer 9007199254740993)),
      ("Rate", .number (.decimal (Decimal.toNumber false ⟨25, -2⟩)))]

/-- Half way between two numbers an integer denotes the even one. -/
theorem ofInt_halfway :
    ∃ magnitude, Number.ofInt 9007199254740993 = .finite false magnitude ∧
      magnitude.units = 2 ^ 53 * Magnitude.unitsPerOne := by
  have rounds : Magnitude.roundUnits ((9007199254740993 : Int).natAbs * Magnitude.unitsPerOne) 1 =
      2 ^ 53 * Magnitude.unitsPerOne := by
    decide +kernel
  have finite : 2 ^ 53 * Magnitude.unitsPerOne < Magnitude.limit := by decide +kernel
  have fits := Magnitude.fits_roundUnits
    ((9007199254740993 : Int).natAbs * Magnitude.unitsPerOne) 1
  rw [rounds] at fits
  generalize 2 ^ 53 * Magnitude.unitsPerOne = units at rounds finite fits
  exact ⟨⟨units, fits, finite⟩, Number.ofInt_of_roundUnits rounds, rfl⟩

end FieldRecord
end FormRules
