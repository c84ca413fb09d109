import FormRules.Proofs.Json.Record
import FormRules.Service.Handler

/-!
# What requests carry

The body of a request counts if it is announced as JSON, has two mebibytes at most, and is the text
of a document. A request is read exactly if its document holds in each field a value that the field
may have; then it has these values.
-/

namespace FormRules.Service

open Json Json.Draft Json.Shape

/-- The body of a request is the JSON text of a document. -/
structure HttpRequest.Carries (request : HttpRequest) (draft : Draft) : Prop where
  announced : request.contentType.any MediaType.isJson = true
  size : request.body.bytes.size ≤ 2097152
  document : Draft.ofBytes request.body.bytes = ⟨draft, true⟩

/-- A request carries an object type and a form, of which either may be missing or null. -/
def HttpRequest.Submits (request : HttpRequest) (asked : EvaluateRequest) : Prop :=
  ∃ draft found, request.Carries draft ∧ draft.Holds ["object_type", "form_data"] found ∧
    Gives IsText (found "object_type") asked.objectType ∧
    Gives (IsJson 126) (found "form_data") asked.formData

/-- A request carries a new rule. -/
def HttpRequest.Proposes (request : HttpRequest) (asked : CreateRequest) : Prop :=
  ∃ draft found, request.Carries draft ∧
    draft.Holds ["object_type", "expression", "error_message", "is_active", "created_by"] found ∧
    found "object_type" = some (.text (some asked.objectType)) ∧
    found "expression" = some (.text (some asked.expression)) ∧
    found "error_message" = some (.text (some asked.errorMessage)) ∧
    Gives IsFlag (found "is_active") asked.isActive ∧
    Gives IsUuid (found "created_by") asked.createdBy

/-- A request carries a change of a rule, in which every field may be missing or null. -/
def HttpRequest.Amends (request : HttpRequest) (asked : UpdateRequest) : Prop :=
  ∃ draft found, request.Carries draft ∧
    draft.Holds ["object_type", "expression", "error_message", "is_active"] found ∧
    Gives IsText (found "object_type") asked.objectType ∧
    Gives IsText (found "expression") asked.expression ∧
    Gives IsText (found "error_message") asked.errorMessage ∧
    Gives IsFlag (found "is_active") asked.isActive

section Reading

variable {request : HttpRequest}

theorem readBody_eq_ok_iff {Data : Type} {shape : Json.Shape Data} (regular : shape.Regular)
    (distinct : (names shape.fields).Nodup) {asked : Data} :
    readBody shape request = .ok asked ↔
      ∃ draft found, request.Carries draft ∧ draft.Holds (names shape.fields) found ∧
        shape.build found = .ok asked := by
  unfold readBody
  split
  case isTrue other =>
    refine iff_of_false nofun ?_
    rintro ⟨_, _, carries, -⟩
    simp [carries.announced] at other
  case isFalse announced =>
    split
    case isTrue long =>
      refine iff_of_false nofun ?_
      rintro ⟨_, _, carries, -⟩
      exact absurd carries.size (Nat.not_le.2 long)
    case isFalse short =>
      rw [mapError_eq_ok, ofBytes_eq_ok_iff]
      constructor
      · rintro ⟨draft, document, decoded⟩
        obtain ⟨found, holds, built⟩ := (decode_eq_ok_iff regular distinct).1 decoded
        exact ⟨draft, found, ⟨by simpa using announced, Nat.not_lt.1 short, document⟩, holds, built⟩
      · rintro ⟨draft, found, carries, holds, built⟩
        exact ⟨draft, carries.document, (decode_eq_ok_iff regular distinct).2 ⟨found, holds, built⟩⟩

theorem readBody_eq_ok_iff_submits {asked : EvaluateRequest} :
    readBody EvaluateRequest.shape request = .ok asked ↔ request.Submits asked := by
  have regular : EvaluateRequest.shape.Regular :=
    ((regular_nullable _ _).map _).seq (regular_nullable _ _)
  rw [readBody_eq_ok_iff regular (by decide)]
  refine exists₂_congr fun draft found => and_congr_right fun _ => and_congr_right fun _ => ?_
  obtain ⟨objectType, formData⟩ := asked
  simp [EvaluateRequest.shape, build_seq_eq_ok_iff, build_map_eq_ok_iff, build_nullable_eq_ok_iff,
    Decoder.text_eq_ok_iff, Decoder.json_eq_ok_iff, fieldDepth, greatestDepth]

theorem readBody_eq_ok_iff_proposes {asked : CreateRequest} :
    readBody CreateRequest.shape request = .ok asked ↔ request.Proposes asked := by
  have regular : CreateRequest.shape.Regular :=
    (((((regular_required _ _).map _).seq (regular_required _ _)).seq (regular_required _ _)).seq
      (regular_nullable _ _)).seq (regular_nullable _ _)
  rw [readBody_eq_ok_iff regular (by decide)]
  refine exists₂_congr fun draft found => and_congr_right fun _ => and_congr_right fun _ => ?_
  obtain ⟨objectType, expression, errorMessage, isActive, createdBy⟩ := asked
  simp [CreateRequest.shape, build_seq_eq_ok_iff, build_map_eq_ok_iff, build_nullable_eq_ok_iff,
    build_required_eq_ok_iff, Decoder.text_eq_ok_iff, Decoder.boolean_eq_ok_iff,
    Decoder.uuid_eq_ok_iff, IsText, and_assoc]

theorem readBody_eq_ok_iff_amends {asked : UpdateRequest} :
    readBody UpdateRequest.shape request = .ok asked ↔ request.Amends asked := by
  have regular : UpdateRequest.shape.Regular :=
    ((((regular_nullable _ _).map _).seq (regular_nullable _ _)).seq (regular_nullable _ _)).seq
      (regular_nullable _ _)
  rw [readBody_eq_ok_iff regular (by decide)]
  refine exists₂_congr fun draft found => and_congr_right fun _ => and_congr_right fun _ => ?_
  obtain ⟨objectType, expression, errorMessage, isActive⟩ := asked
  simp [UpdateRequest.shape, build_seq_eq_ok_iff, build_map_eq_ok_iff, build_nullable_eq_ok_iff,
    Decoder.text_eq_ok_iff, Decoder.boolean_eq_ok_iff, and_assoc]

end Reading
end FormRules.Service
