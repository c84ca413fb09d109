import FormRules.Json.Shape
import FormRules.Proofs.Compilation
import FormRules.Proofs.Text.Symbol
import Mathlib.Data.List.Forall2

/-!
# Records in documents

An object holds in a field the value of its one member of that name, and an array holds its items
in the fields in their order. Members beyond the fields are skipped, as long as they are JSON. What
a shape reads from a document is what it builds from the values that the document holds in its
fields.
-/

namespace FormRules.Json

namespace Draft

/-- The bytes of a text are read as the text is. -/
theorem ofBytes_toUTF8 (text : String) : ofBytes text.toUTF8 = ofText text := by
  rw [ofBytes, ofText, Text.symbols_toUTF8]

/-- The values of the members of a name. -/
def valuesOf (name : String) (members : List (Option String × Draft)) : List Draft :=
  (members.filter fun member => member.1 == some name).map Prod.snd

/-- Every member has a name, and those beyond some names have values without faults. -/
def Readable (names : List String) (members : List (Option String × Draft)) : Prop :=
  ∀ member ∈ members, ∃ name, member.1 = some name ∧ (name ∉ names → member.2.isComplete = true)

/-- A document holds the values that are found in the fields of a record, and no others. -/
inductive Holds (names : List String) (found : String → Option Draft) : Draft → Prop where
  | object {members : List (Option String × Draft)} (readable : Readable names members)
      (once : ∀ name ∈ names, valuesOf name members = (found name).toList) :
      Holds names found (.object members true)
  | array {items : List Draft} (all : names.map found = items.map some) :
      Holds names found (.array items true)

/-- The document is a string. -/
def IsText (draft : Draft) (content : String) : Prop :=
  draft = .text (some content)

/-- The document is a truth value. -/
def IsFlag (draft : Draft) (flag : Bool) : Prop :=
  draft = .boolean flag

/-- The document is a string that spells an identifier. -/
def IsUuid (draft : Draft) (id : Uuid) : Prop :=
  ∃ content, draft.IsText content ∧ Uuid.ofText? content.toList = some id

/-- The document has a value, with containers nested at most so many levels deep. -/
def IsJson (levels : Nat) (draft : Draft) (json : Json) : Prop :=
  draft.toJson? levels = some json

/-- A field has some data, unless it is missing or null. -/
inductive Gives {Data : Type} (is : Draft → Data → Prop) : Option Draft → Option Data → Prop where
  | missing : Gives is none none
  | null : Gives is (some .null) none
  | given {draft : Draft} {data : Data} (some_value : draft ≠ .null) (value : is draft data) :
      Gives is (some draft) (some data)

theorem valuesOf_cons_self (name : String) (value : Draft)
    (rest : List (Option String × Draft)) :
    valuesOf name ((some name, value) :: rest) = value :: valuesOf name rest := by
  simp [valuesOf]

theorem valuesOf_cons_of_ne {name other : String} (apart : other ≠ name) (value : Draft)
    (rest : List (Option String × Draft)) :
    valuesOf name ((some other, value) :: rest) = valuesOf name rest := by
  simp [valuesOf, apart]

end Draft

open Draft

/-! ## Decoders -/

namespace Decoder

theorem text_eq_ok_iff {draft : Draft} {content : String} :
    text draft = .ok content ↔ draft.IsText content := by
  constructor
  · intro decoded
    unfold text at decoded
    split at decoded
    · exact congrArg (Draft.text <| some ·) (Except.ok.inj decoded)
    · exact nomatch decoded
  · rintro rfl
    rfl

theorem boolean_eq_ok_iff {draft : Draft} {flag : Bool} :
    boolean draft = .ok flag ↔ draft.IsFlag flag := by
  constructor
  · intro decoded
    cases draft with
    | boolean other => exact congrArg Draft.boolean (Except.ok.inj decoded)
    | _ => exact nomatch decoded
  · rintro rfl
    rfl

theorem uuid_eq_ok_iff {draft : Draft} {id : Uuid} :
    uuid draft = .ok id ↔ draft.IsUuid id := by
  refine bind_eq_ok.trans ?_
  refine exists_congr fun content => and_congr text_eq_ok_iff ?_
  cases Uuid.ofText? content.toList <;> simp [fit]

theorem json_eq_ok_iff {levels : Nat} {draft : Draft} {value : Json} :
    json levels draft = .ok value ↔ draft.IsJson levels value := by
  unfold json IsJson
  cases draft.toJson? levels <;> simp

theorem optional_eq_ok_iff {Data : Type} {decoder : Decoder Data} {draft : Draft}
    {data : Option Data} :
    optional decoder draft = .ok data ↔
      Gives (fun draft data => decoder draft = .ok data) (some draft) data := by
  constructor
  · intro decoded
    unfold optional at decoded
    split at decoded
    · obtain rfl := Except.ok.inj decoded
      exact .null
    case h_2 some_value =>
      cases value_eq : decoder draft with
      | error refusal =>
          rw [value_eq] at decoded
          exact nomatch decoded
      | ok value =>
          rw [value_eq] at decoded
          obtain rfl := Except.ok.inj decoded
          exact .given some_value value_eq
  · rintro (_ | _ | ⟨some_value, value_eq⟩)
    · rfl
    · unfold optional
      split
      · contradiction
      · rw [value_eq]
        rfl

end Decoder

namespace Shape

/-! ## Shapes that depend on their fields -/

/-- The shape builds from the values of its fields alone, reads them all, and needs them all in an
array. -/
structure Regular {Data : Type} (shape : Shape Data) : Prop where
  congr : ∀ {found other : String → Option Draft},
    (∀ field ∈ shape.fields, found field.name = other field.name) →
      shape.build found = shape.build other
  checked : ∀ {found : String → Option Draft} {data : Data}, shape.build found = .ok data →
    ∀ field ∈ shape.fields, ∀ value, found field.name = some value → field.check value = .ok ()
  lacks : ∀ {found : String → Option Draft} {data : Data}, shape.build found = .ok data →
    ∀ field ∈ shape.fields, found field.name = none → field.mayLack = true
  whole : ∀ field ∈ shape.fields, field.mayEnd = false

theorem discard_eq_ok {Data : Type} {result : Except Refusal Data} {data : Data}
    (done : result = .ok data) : discard result = .ok () := by
  rw [done]
  rfl

section Fields

variable {Data : Type} (name : String) (decoder : Decoder Data) (found : String → Option Draft)

theorem build_required :
    (required name decoder).build found = (found name).elim (.error .unfit) decoder := rfl

theorem build_nullable :
    (nullable name decoder).build found = (found name).elim (.ok none) decoder.optional := rfl

theorem regular_required : (required name decoder).Regular where
  congr agree := by
    rw [build_required, build_required, List.forall_mem_singleton.1 agree]
  checked built := by
    refine List.forall_mem_singleton.2 fun value found_eq => ?_
    rw [build_required, found_eq] at built
    exact discard_eq_ok built
  lacks built := by
    refine List.forall_mem_singleton.2 fun missing => ?_
    rw [build_required, missing] at built
    exact nomatch built
  whole := by simp [required]

theorem regular_nullable : (nullable name decoder).Regular where
  congr agree := by
    rw [build_nullable, build_nullable, List.forall_mem_singleton.1 agree]
  checked built := by
    refine List.forall_mem_singleton.2 fun value found_eq => ?_
    rw [build_nullable, found_eq] at built
    exact discard_eq_ok built
  lacks _ := by simp [nullable]
  whole := by simp [nullable]

end Fields

theorem build_seq_eq_ok_iff {First Second : Type} {shape : Shape (First → Second)}
    {argument : Shape First} {found : String → Option Draft} {data : Second} :
    (shape <*> argument).build found = .ok data ↔
      ∃ build, shape.build found = .ok build ∧
        ∃ first, argument.build found = .ok first ∧ build first = data := by
  refine bind_eq_ok.trans (exists_congr fun build => and_congr_right fun _ => ?_)
  refine bind_eq_ok.trans (exists_congr fun first => and_congr_right fun _ => ?_)
  exact ⟨Except.ok.inj, congrArg _⟩

theorem build_map_eq_ok_iff {First Second : Type} {make : First → Second} {shape : Shape First}
    {found : String → Option Draft} {data : Second} :
    (make <$> shape).build found = .ok data ↔
      ∃ first, shape.build found = .ok first ∧ make first = data := by
  change (pure make <*> shape).build found = _ ↔ _
  rw [build_seq_eq_ok_iff]
  constructor
  · rintro ⟨_, ⟨⟩, found_first⟩
    exact found_first
  · exact fun found_first => ⟨make, rfl, found_first⟩

theorem regular_pure {Data : Type} (data : Data) : (pure data : Shape Data).Regular where
  congr _ := rfl
  checked _ := nofun
  lacks _ := nofun
  whole := nofun

theorem Regular.seq {First Second : Type} {shape : Shape (First → Second)}
    {argument : Shape First} (regular : shape.Regular) (argument_regular : argument.Regular) :
    (shape <*> argument).Regular where
  congr {found other} agree := by
    obtain ⟨agree, argument_agree⟩ := List.forall_mem_append.1 agree
    change (shape.build found >>= fun build => argument.build found >>= fun first =>
      pure (build first)) = _
    rw [regular.congr agree, argument_regular.congr argument_agree]
    rfl
  checked built := by
    obtain ⟨_, first, _, second, -⟩ := build_seq_eq_ok_iff.1 built
    exact List.forall_mem_append.2 ⟨regular.checked first, argument_regular.checked second⟩
  lacks built := by
    obtain ⟨_, first, _, second, -⟩ := build_seq_eq_ok_iff.1 built
    exact List.forall_mem_append.2 ⟨regular.lacks first, argument_regular.lacks second⟩
  whole := List.forall_mem_append.2 ⟨regular.whole, argument_regular.whole⟩

theorem Regular.map {First Second : Type} {shape : Shape First} (regular : shape.Regular)
    (make : First → Second) : (make <$> shape).Regular :=
  (regular_pure make).seq regular

/-! ## Values of fields -/

section Values

variable {Data : Type} {name : String} {decoder : Decoder Data} {found : String → Option Draft}

theorem build_required_eq_ok_iff {data : Data} :
    (required name decoder).build found = .ok data ↔
      ∃ value, found name = some value ∧ decoder value = .ok data := by
  rw [build_required]
  cases found name <;> simp

theorem build_nullable_eq_ok_iff {data : Option Data} :
    (nullable name decoder).build found = .ok data ↔
      Gives (fun draft data => decoder draft = .ok data) (found name) data := by
  rw [build_nullable]
  cases found name with
  | some value => exact Decoder.optional_eq_ok_iff
  | none =>
      constructor
      · intro built
        obtain rfl := Except.ok.inj built
        exact .missing
      · rintro ⟨⟩
        rfl

end Values

/-! ## Objects -/

/-- The names of the fields. -/
def names (fields : List Field) : List String :=
  fields.map (·.name)

theorem find?_eq_some_of_mem {fields : List Field} (distinct : (names fields).Nodup)
    {field : Field} (member : field ∈ fields) :
    fields.find? (·.name == field.name) = some field := by
  induction fields with
  | nil => exact nomatch member
  | cons first rest induction =>
      obtain ⟨fresh, rest_distinct⟩ := List.nodup_cons.1 distinct
      rcases List.mem_cons.1 member with rfl | behind
      · simp
      · have apart : first.name ≠ field.name := by
          rintro same
          exact fresh (List.mem_map.2 ⟨field, behind, same.symm⟩)
        rw [List.find?_cons_of_neg (by simpa using apart), induction rest_distinct behind]

theorem toList_eq_iff {Data : Type} {first second : Option Data} :
    first.toList = second.toList ↔ first = second := by
  cases first <;> cases second <;> simp

theorem length_toList_le {Data : Type} (data : Option Data) : data.toList.length ≤ 1 := by
  cases data <;> simp

/-- What was taken from the members before, and what stands in the members to come, is what is
found in the fields, each time once at most. -/
def Completes (fields : List Field) (taken : List (String × Draft))
    (members : List (Option String × Draft)) (found : String → Option Draft) : Prop :=
  ∀ field ∈ fields, (taken.lookup field.name).toList ++ valuesOf field.name members =
    (found field.name).toList

/-- The values of the members can be read as those of their fields. -/
def Checks (fields : List Field) (members : List (Option String × Draft)) : Prop :=
  ∀ field ∈ fields, ∀ value ∈ valuesOf field.name members, field.check value = .ok ()

section Collecting

variable {fields : List Field} {members : List (Option String × Draft)} {name : String}
  {value : Draft} {taken : List (String × Draft)} {found : String → Option Draft}

theorem completes_cons_of_unknown (unknown : ∀ field ∈ fields, field.name ≠ name) :
    Completes fields taken ((some name, value) :: members) found ↔
      Completes fields taken members found :=
  forall₂_congr fun field member => by rw [valuesOf_cons_of_ne (unknown field member).symm]

theorem checks_cons_of_unknown (unknown : ∀ field ∈ fields, field.name ≠ name) :
    Checks fields ((some name, value) :: members) ↔ Checks fields members :=
  forall₂_congr fun field member => by rw [valuesOf_cons_of_ne (unknown field member).symm]

/-- A value may be taken from the members that are to come, if none of its field was before. -/
theorem completes_cons_taken (fresh : taken.lookup name = none) :
    Completes fields ((name, value) :: taken) members found ↔
      Completes fields taken ((some name, value) :: members) found := by
  refine forall₂_congr fun field member => ?_
  by_cases same : field.name = name
  · subst same
    rw [valuesOf_cons_self, List.lookup_cons_self, fresh]
    rfl
  · rw [valuesOf_cons_of_ne (Ne.symm same), List.lookup_cons, beq_false_of_ne same]

theorem checks_cons_of_ok (distinct : (names fields).Nodup) {field : Field}
    (member : field ∈ fields) (passed : field.check value = .ok ()) :
    Checks fields ((some field.name, value) :: members) ↔ Checks fields members := by
  refine forall₂_congr fun other other_member => ?_
  by_cases same : other.name = field.name
  · have found := find?_eq_some_of_mem distinct other_member
    rw [same, find?_eq_some_of_mem distinct member] at found
    obtain rfl := Option.some.inj found
    rw [valuesOf_cons_self, List.forall_mem_cons]
    exact and_iff_right passed
  · rw [valuesOf_cons_of_ne (Ne.symm same)]

/-- The second of two values is one too many. -/
theorem not_completes_of_taken {field : Field} (member : field ∈ fields)
    (twice : (taken.lookup field.name).isSome = true) :
    ¬ Completes fields taken ((some field.name, value) :: members) found := by
  intro completes
  obtain ⟨earlier, taken_eq⟩ := Option.isSome_iff_exists.1 twice
  have few := length_toList_le (found field.name)
  rw [← completes field member, taken_eq, valuesOf_cons_self] at few
  simp at few

theorem not_checks_of_error {field : Field} (member : field ∈ fields) {refusal : Refusal}
    (refused : field.check value = .error refusal) :
    ¬ Checks fields ((some field.name, value) :: members) := by
  intro checks
  have passed := checks field member value
    (valuesOf_cons_self field.name value members ▸ List.mem_cons_self)
  exact nomatch refused.symm.trans passed

theorem readable_cons_of_mem {listed : List String} (member : name ∈ listed) :
    Readable listed ((some name, value) :: members) ↔ Readable listed members := by
  simp [Readable, member]

theorem readable_cons_of_notMem {listed : List String} (absent : name ∉ listed) :
    Readable listed ((some name, value) :: members) ↔
      value.isComplete = true ∧ Readable listed members := by
  simp [Readable, absent]

end Collecting

/-- Members are collected exactly if they can be read, each field occurs once at most, and its value
is one of the field. -/
theorem exists_collect_iff {fields : List Field} (distinct : (names fields).Nodup)
    (members : List (Option String × Draft)) (taken : List (String × Draft))
    (found : String → Option Draft) :
    (∃ result, collect fields taken members = .ok result ∧
        ∀ field ∈ fields, result.lookup field.name = found field.name) ↔
      Readable (names fields) members ∧ Completes fields taken members found ∧
        Checks fields members := by
  induction members generalizing taken with
  | nil => simp [collect, Readable, Completes, Checks, valuesOf, toList_eq_iff]
  | cons member rest induction =>
      obtain ⟨_ | name, value⟩ := member
      · simp [collect, Readable]
      rw [collect]
      cases known : fields.find? (·.name == name) with
      | none =>
          -- No field has the name: the member is skipped.
          have unknown : ∀ field ∈ fields, field.name ≠ name := by simpa using known
          have absent : name ∉ names fields := by simpa [names] using unknown
          rw [completes_cons_of_unknown unknown, checks_cons_of_unknown unknown,
            readable_cons_of_notMem absent]
          dsimp only
          split
          case isTrue complete => rw [induction, and_iff_right complete]
          case isFalse incomplete => simp [incomplete]
      | some field =>
          have member := List.mem_of_find?_eq_some known
          obtain rfl : field.name = name := by simpa using List.find?_some known
          dsimp only
          split
          case isTrue twice =>
            exact iff_of_false nofun fun collected =>
              not_completes_of_taken member twice collected.2.1
          case isFalse once =>
            have fresh := Option.not_isSome_iff_eq_none.1 once
            cases checked : field.check value with
            | error refusal =>
                exact iff_of_false nofun fun collected =>
                  not_checks_of_error member checked collected.2.2
            | ok done =>
                have listed : field.name ∈ names fields := List.mem_map_of_mem member
                rw [← completes_cons_taken fresh, checks_cons_of_ok distinct member checked,
                  readable_cons_of_mem listed, ← induction]
                rfl

/-! ## Arrays -/

theorem pair_eq_ok_iff {closed : Bool} {fields : List Field}
    (whole : ∀ field ∈ fields, field.mayEnd = false) {items : List Draft}
    {result : List (String × Draft)} :
    pair closed fields items = .ok result ↔
      closed = true ∧ List.Forall₂ (fun field item => field.check item = .ok ()) fields items ∧
        (names fields).zip items = result := by
  induction fields generalizing items result with
  | nil =>
      cases items with
      | nil => cases closed <;> simp [pair, names]
      | cons item rest => simp [pair]
  | cons field fields induction =>
      obtain ⟨field_whole, fields_whole⟩ := List.forall_mem_cons.1 whole
      cases items with
      | nil => cases closed <;> simp [pair, field_whole]
      | cons item rest =>
          refine bind_eq_ok.trans ?_
          rw [List.forall₂_cons]
          constructor
          · rintro ⟨_, passed, paired⟩
            obtain ⟨others, rest_paired, joined⟩ := bind_eq_ok.1 paired
            obtain ⟨ended, passes, rfl⟩ := (induction fields_whole).1 rest_paired
            exact ⟨ended, ⟨passed, passes⟩, Except.ok.inj joined⟩
          · rintro ⟨ended, ⟨passed, passes⟩, rfl⟩
            have rest_paired := (induction fields_whole).2 ⟨ended, passes, rfl⟩
            exact ⟨(), passed, bind_eq_ok.2 ⟨_, rest_paired, rfl⟩⟩

/-- What stands under the names of a list is what stands at their places. -/
theorem lookup_zip_iff {keys : List String} (distinct : keys.Nodup) {items : List Draft}
    (same : keys.length = items.length) (found : String → Option Draft) :
    (∀ name ∈ keys, (keys.zip items).lookup name = found name) ↔
      keys.map found = items.map some := by
  induction keys generalizing items with
  | nil =>
      obtain rfl := List.length_eq_zero_iff.1 same.symm
      simp
  | cons key rest induction =>
      obtain ⟨item, items, rfl⟩ := List.exists_cons_of_length_eq_add_one same.symm
      obtain ⟨fresh, rest_distinct⟩ := List.nodup_cons.1 distinct
      have others : ∀ name ∈ rest, (((key, item) :: rest.zip items).lookup name) =
          (rest.zip items).lookup name := fun name member => by
        have apart : name ≠ key := fun same => fresh (same ▸ member)
        rw [List.lookup_cons, beq_false_of_ne apart]
      rw [List.zip_cons_cons, List.forall_mem_cons, List.lookup_cons_self, List.map_cons,
        List.map_cons, List.cons.injEq, ← induction rest_distinct (by simpa using same), eq_comm]
      exact and_congr_right fun _ => forall₂_congr fun name member => by rw [others name member]

/-! ## Documents -/

section Documents

variable {Data : Type} {shape : Shape Data}

theorem completes_nil_iff {fields : List Field} {members : List (Option String × Draft)}
    {found : String → Option Draft} :
    Completes fields [] members found ↔
      ∀ name ∈ names fields, valuesOf name members = (found name).toList := by
  rw [names, List.forall_mem_map]
  rfl

theorem exists_holds_of_object (distinct : (names shape.fields).Nodup)
    {members : List (Option String × Draft)} {closed : Bool} {data : Data}
    (decoded : shape.decode (.object members closed) = .ok data) :
    ∃ found, (Draft.object members closed).Holds (names shape.fields) found ∧
      shape.build found = .ok data := by
  obtain ⟨result, collected, built⟩ := bind_eq_ok.1 decoded
  cases closed with
  | false => exact nomatch built
  | true =>
      obtain ⟨readable, completes, -⟩ :=
        (exists_collect_iff distinct members [] (result.lookup ·)).1
          ⟨result, collected, fun _ _ => rfl⟩
      refine ⟨(result.lookup ·), .object readable (completes_nil_iff.1 completes), ?_⟩
      simp only [Bool.not_true, Bool.false_eq_true, if_false] at built
      split at built
      · exact built
      · exact nomatch built

theorem decode_of_holds_object (regular : shape.Regular) (distinct : (names shape.fields).Nodup)
    {members : List (Option String × Draft)} {found : String → Option Draft} {data : Data}
    (readable : Readable (names shape.fields) members)
    (once : ∀ name ∈ names shape.fields, valuesOf name members = (found name).toList)
    (built : shape.build found = .ok data) :
    shape.decode (.object members true) = .ok data := by
  have checks : Checks shape.fields members := by
    intro field member value listed
    rw [once field.name (List.mem_map_of_mem member), Option.mem_toList] at listed
    exact regular.checked built field member value listed
  obtain ⟨result, collected, agree⟩ := (exists_collect_iff distinct members [] found).2
    ⟨readable, completes_nil_iff.2 once, checks⟩
  have full : shape.fields.all
      (fun field => field.mayLack || (result.lookup field.name).isSome) = true := by
    refine List.all_eq_true.2 fun field member => ?_
    rw [agree field member]
    cases found_eq : found field.name with
    | none => simp [regular.lacks built field member found_eq]
    | some value => simp
  refine bind_eq_ok.2 ⟨result, collected, ?_⟩
  rw [full, if_neg (by decide), if_pos rfl]
  exact (regular.congr agree).trans built

theorem exists_holds_of_array (regular : shape.Regular) (distinct : (names shape.fields).Nodup)
    {items : List Draft} {closed : Bool} {data : Data}
    (decoded : shape.decode (.array items closed) = .ok data) :
    ∃ found, (Draft.array items closed).Holds (names shape.fields) found ∧
      shape.build found = .ok data := by
  obtain ⟨result, paired, built⟩ := bind_eq_ok.1 decoded
  obtain ⟨rfl, passes, rfl⟩ := (pair_eq_ok_iff regular.whole).1 paired
  have same : (names shape.fields).length = items.length := by
    rw [names, List.length_map, passes.length_eq]
  exact ⟨_, .array ((lookup_zip_iff distinct same _).1 fun _ _ => rfl), built⟩

theorem decode_of_holds_array (regular : shape.Regular) (distinct : (names shape.fields).Nodup)
    {items : List Draft} {found : String → Option Draft} {data : Data}
    (all : (names shape.fields).map found = items.map some) (built : shape.build found = .ok data) :
    shape.decode (.array items true) = .ok data := by
  have same : (names shape.fields).length = items.length := by
    simpa using congrArg List.length all
  have founds : List.Forall₂ (fun field item => found field.name = some item)
      shape.fields items := by
    rw [names, List.map_map, ← List.forall₂_eq_eq_eq, List.forall₂_map_left_iff,
      List.forall₂_map_right_iff] at all
    exact all
  have passes : List.Forall₂ (fun field item => field.check item = .ok ()) shape.fields items := by
    rw [List.forall₂_iff_zip] at founds ⊢
    refine ⟨founds.1, fun {field item} paired => ?_⟩
    exact regular.checked built field (List.of_mem_zip paired).1 item (founds.2 paired)
  have agree := (lookup_zip_iff distinct same found).2 all
  refine bind_eq_ok.2 ⟨_, (pair_eq_ok_iff regular.whole).2 ⟨rfl, passes, rfl⟩, ?_⟩
  refine (regular.congr fun field member => ?_).trans built
  exact agree field.name (List.mem_map_of_mem member)

/-- What a shape reads from a document is built from what the document holds in its fields. -/
theorem decode_eq_ok_iff (regular : shape.Regular) (distinct : (names shape.fields).Nodup)
    {draft : Draft} {data : Data} :
    shape.decode draft = .ok data ↔
      ∃ found, draft.Holds (names shape.fields) found ∧ shape.build found = .ok data := by
  constructor
  · intro decoded
    cases draft with
    | object => exact exists_holds_of_object distinct decoded
    | array => exact exists_holds_of_array regular distinct decoded
    | _ => exact nomatch decoded
  · rintro ⟨found, ⟨readable, once⟩ | all, built⟩
    · exact decode_of_holds_object regular distinct readable once built
    · exact decode_of_holds_array regular distinct all built

theorem ofBytes_eq_ok_iff {bytes : ByteArray} {data : Data} :
    shape.ofBytes bytes = .ok data ↔
      ∃ draft, Draft.ofBytes bytes = ⟨draft, true⟩ ∧ shape.decode draft = .ok data := by
  rw [ofBytes]
  obtain ⟨value, alone⟩ := Draft.ofBytes bytes
  refine bind_eq_ok.trans ?_
  cases alone <;> simp [and_comm]

end Documents

end Shape
end FormRules.Json
