import FormRules.Proofs.Compilation
import FormRules.Proofs.Text.Bytes
import FormRules.Record

/-!
# Forms and records

A form has a record exactly if none of its values is an array or an object. Otherwise the record is
refused with an error about the first field whose value is one, in the order of the bytes of the
names. The record has the values of the form under their names, and nothing else.
-/

namespace FormRules

/-- Arrays and objects. -/
def Json.isContainer : Json → Bool
  | array _ | object _ => true
  | _ => false

namespace Form

/-- Some value of the form is an array or an object. -/
def Nests (form : Form) : Prop :=
  ∃ (name : String) (json : Json), form[name]? = some json ∧ json.isContainer = true

/-- Of the fields whose values are arrays or objects, this one has the name with the least
bytes. -/
structure NestsFirstAt (form : Form) (name : String) (json : Json) : Prop where
  found : form[name]? = some json
  container : json.isContainer = true
  first : ∀ (other : String) (otherJson : Json), form[other]? = some otherJson →
    otherJson.isContainer = true → other = name ∨ Text.bytes name < Text.bytes other

theorem NestsFirstAt.nests {form : Form} {name : String} {json : Json}
    (first : form.NestsFirstAt name json) : form.Nests :=
  ⟨name, json, first.found, first.container⟩

/-- Fields are listed in the order of the bytes of their names. -/
theorem nestsFirstAt_of_toList {form : Form} {front back : List (String × Json)}
    {name : String} {json : Json} (split : form.toList = front ++ (name, json) :: back)
    (plain : ∀ field ∈ front, field.2.isContainer = false) (container : json.isContainer = true) :
    form.NestsFirstAt name json := by
  have ordered : form.toList.Pairwise fun left right => compare left.1 right.1 = .lt :=
    Std.TreeMap.ordered_keys_toList
  rw [split] at ordered
  have behind := (List.pairwise_cons.1 (List.pairwise_append.1 ordered).2.1).1
  refine ⟨?_, container, fun other otherJson found nests => ?_⟩
  · exact Std.TreeMap.mem_toList_iff_getElem?_eq_some.1 (split ▸ List.mem_append_cons_self)
  · have listed : (other, otherJson) ∈ form.toList :=
      Std.TreeMap.mem_toList_iff_getElem?_eq_some.2 found
    rw [split] at listed
    rcases List.mem_append.1 listed with before | listed
    · exact absurd nests (by simp [plain _ before])
    rcases List.mem_cons.1 listed with same | listed
    · exact .inl (congrArg Prod.fst same)
    · exact .inr (Text.compare_eq_lt_iff.1 (behind _ listed))

end Form

namespace FieldRecord

theorem fieldOfJson_of_container (name : String) {json : Json}
    (container : json.isContainer = true) :
    fieldOfJson name json = .error (.unsupportedField name json.kindName) := by
  cases json with
  | array | object => rfl
  | _ => exact nomatch container

theorem exists_fieldOfJson (name : String) {json : Json} (plain : json.isContainer = false) :
    ∃ value, fieldOfJson name json = .ok value := by
  cases json with
  | array | object => exact nomatch plain
  | _ => exact ⟨_, rfl⟩

/-- The record with one more field of a form. -/
def readField (record : FieldRecord) (field : String × Json) : Except RuleError FieldRecord := do
  let value ← fieldOfJson field.1 field.2
  return record.insert field.1 value

theorem ofForm_eq (form : Form) : ofForm form = form.toList.foldlM readField empty := rfl

/-- Reading some fields into a record ends at the first one whose value is an array or an object. -/
theorem readFields_cases (fields : List (String × Json)) (record : FieldRecord) :
    (∃ filled, fields.foldlM readField record = .ok filled ∧
      ∀ field ∈ fields, field.2.isContainer = false) ∨
    ∃ front field back, fields = front ++ field :: back ∧
      (∀ other ∈ front, other.2.isContainer = false) ∧ field.2.isContainer = true ∧
      fields.foldlM readField record = .error (.unsupportedField field.1 field.2.kindName) := by
  induction fields generalizing record with
  | nil => exact .inl ⟨record, rfl, by simp⟩
  | cons field rest induction =>
      rw [List.foldlM_cons, readField]
      cases nests : field.2.isContainer with
      | true =>
          refine .inr ⟨[], field, rest, rfl, by simp, nests, ?_⟩
          rw [fieldOfJson_of_container field.1 nests]
          rfl
      | false =>
          obtain ⟨value, read⟩ := exists_fieldOfJson field.1 nests
          rw [read]
          obtain ⟨filled, result, others⟩ | ⟨front, other, back, rfl, plain, other_nests, result⟩ :=
            induction (record.insert field.1 value)
          · exact .inl ⟨filled, result, List.forall_mem_cons.2 ⟨nests, others⟩⟩
          · exact .inr ⟨field :: front, other, back, rfl,
              List.forall_mem_cons.2 ⟨nests, plain⟩, other_nests, result⟩

/-- Whether a form has a record. -/
theorem ofForm_cases (form : Form) :
    (¬ form.Nests ∧ ∃ record, ofForm form = .ok record) ∨
      ∃ name json, form.NestsFirstAt name json ∧
        ofForm form = .error (.unsupportedField name json.kindName) := by
  rw [ofForm_eq]
  obtain ⟨record, read, plain⟩ | ⟨front, field, back, split, plain, nests, refused⟩ :=
    readFields_cases form.toList empty
  · refine .inl ⟨?_, record, read⟩
    rintro ⟨name, json, found, nests⟩
    have listed := Std.TreeMap.mem_toList_iff_getElem?_eq_some.2 found
    simp [plain _ listed] at nests
  · exact .inr ⟨field.1, field.2, Form.nestsFirstAt_of_toList split plain nests, refused⟩

/-! ## The values of a record -/

theorem fieldOfJson_eq_ok_iff {name : String} {json : Json} {value : Value} :
    fieldOfJson name json = .ok value ↔ Value.ofJson? json = some value := by
  unfold fieldOfJson
  cases Value.ofJson? json <;> simp

section Reading

variable {fields : List (String × Json)} {record filled : FieldRecord} {name : String}

theorem exists_of_readFields_cons {field : String × Json}
    (read : (field :: fields).foldlM readField record = .ok filled) :
    ∃ value, Value.ofJson? field.2 = some value ∧
      fields.foldlM readField (record.insert field.1 value) = .ok filled := by
  rw [List.foldlM_cons] at read
  obtain ⟨next, first, others⟩ := bind_eq_ok.1 read
  obtain ⟨value, value_eq, next_eq⟩ := bind_eq_ok.1 first
  obtain rfl := Except.ok.inj next_eq
  exact ⟨value, fieldOfJson_eq_ok_iff.1 value_eq, others⟩

theorem get?_readFields_of_absent (read : fields.foldlM readField record = .ok filled)
    (absent : ∀ field ∈ fields, field.1 ≠ name) : filled.get? name = record.get? name := by
  induction fields generalizing record with
  | nil => rw [Except.ok.inj read]
  | cons field rest induction =>
      obtain ⟨value, -, others⟩ := exists_of_readFields_cons read
      obtain ⟨other, rest_absent⟩ := List.forall_mem_cons.1 absent
      rw [induction others rest_absent, get?_insert, if_neg other]

theorem get?_readFields_of_mem (read : fields.foldlM readField record = .ok filled)
    (distinct : fields.Pairwise (fun first second => ¬compare first.1 second.1 = .eq))
    {json : Json} (member : (name, json) ∈ fields) : filled.get? name = Value.ofJson? json := by
  induction fields generalizing record with
  | nil => exact nomatch member
  | cons field rest induction =>
      obtain ⟨value, value_eq, others⟩ := exists_of_readFields_cons read
      obtain ⟨head_distinct, rest_distinct⟩ := List.pairwise_cons.1 distinct
      rcases List.mem_cons.1 member with rfl | behind
      · have absent : ∀ field ∈ rest, field.1 ≠ name := fun field member same =>
          head_distinct field member (by rw [same]; exact Std.ReflCmp.compare_self)
        rw [get?_readFields_of_absent others absent, get?_insert, if_pos rfl, value_eq]
      · exact induction others rest_distinct behind

end Reading

/-- The record of a form has the values of its fields under their names. -/
theorem get?_ofForm {form : Form} {record : FieldRecord} (read : ofForm form = .ok record)
    (name : String) : record.get? name = form[name]?.bind Value.ofJson? := by
  rw [ofForm_eq] at read
  cases found : form[name]? with
  | none =>
      have absent : ∀ field ∈ form.toList, field.1 ≠ name := by
        rintro ⟨_, json⟩ member rfl
        have listed := Std.TreeMap.mem_toList_iff_getElem?_eq_some.1 member
        exact nomatch found.symm.trans listed
      rw [get?_readFields_of_absent read absent, get?_empty]
      rfl
  | some json =>
      exact get?_readFields_of_mem read Std.TreeMap.distinct_keys_toList
        (Std.TreeMap.mem_toList_iff_getElem?_eq_some.2 found)

end FieldRecord
end FormRules
