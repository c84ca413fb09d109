import FormRules.Service.Request

/-!
# Requests within their bounds

A request has no failures exactly if each of its texts is within its bounds. A request to evaluate
rules is split into its object type and its form exactly if it has both, and the form is an object.
-/

namespace FormRules.Service

/-! ## Checks -/

section Checks

variable {Data : Type} (field message : String)

theorem checkLength_eq_nil_iff (least greatest : Nat) (text : String) :
    checkLength field message least greatest text = [] ↔
      least ≤ text.length ∧ text.length ≤ greatest := by
  simp [checkLength]

theorem checkPresent_eq_nil_iff (data : Option Data) :
    checkPresent field message data = [] ↔ ∃ value, data = some value := by
  cases data <;> simp [checkPresent]

theorem checkOptional_eq_nil_iff (check : String → List FieldFailure) (text : Option String) :
    checkOptional check text = [] ↔ ∀ given ∈ text, check given = [] := by
  cases text <;> simp [checkOptional]

end Checks

/-! ## Requests -/

theorem EvaluateRequest.failures_eq_nil_iff (asked : EvaluateRequest) :
    asked.failures = [] ↔
      (∃ objectType, asked.objectType = some objectType ∧
        1 ≤ objectType.length ∧ objectType.length ≤ 255) ∧
      ∃ json, asked.formData = some json := by
  simp only [failures, List.append_eq_nil_iff, checkPresent_eq_nil_iff, checkOptional_eq_nil_iff,
    checkLength_eq_nil_iff, maxObjectTypeLength]
  constructor
  · rintro ⟨⟨⟨objectType, given⟩, length⟩, form⟩
    exact ⟨⟨objectType, given, length objectType given⟩, form⟩
  · rintro ⟨⟨objectType, given, length⟩, form⟩
    refine ⟨⟨⟨objectType, given⟩, ?_⟩, form⟩
    simp [given, length]

/-- A request to evaluate rules asks for an object type and a form. -/
theorem EvaluateRequest.parts_eq_ok_iff (asked : EvaluateRequest) (objectType : String)
    (form : Form) :
    asked.parts = .ok (objectType, form) ↔
      (1 ≤ objectType.length ∧ objectType.length ≤ 255) ∧
      ∃ members, asked = ⟨some objectType, some (.object members)⟩ ∧
        form = Json.tree members := by
  rw [parts]
  constructor
  · intro divided
    split at divided
    · exact nomatch divided
    case isFalse bounded =>
      obtain ⟨⟨named, given, length⟩, -⟩ :=
        asked.failures_eq_nil_iff.1 (Decidable.not_not.1 bounded)
      split at divided
      case h_1 members object_given form_given =>
        obtain ⟨rfl, rfl⟩ := Prod.mk.inj (Except.ok.inj divided)
        obtain rfl := Option.some.inj (object_given.symm.trans given)
        have whole : asked = ⟨asked.objectType, asked.formData⟩ := rfl
        rw [given, form_given] at whole
        exact ⟨length, members, whole, rfl⟩
      all_goals exact nomatch divided
  · rintro ⟨length, members, rfl, rfl⟩
    have bounded : failures ⟨some objectType, some (.object members)⟩ = [] :=
      (failures_eq_nil_iff _).2 ⟨⟨objectType, rfl, length⟩, _, rfl⟩
    simp [bounded]

theorem CreateRequest.failures_eq_nil_iff (asked : CreateRequest) :
    asked.failures = [] ↔
      (1 ≤ asked.objectType.length ∧ asked.objectType.length ≤ 255) ∧
      (1 ≤ asked.expression.length ∧ asked.expression.length ≤ 4096) ∧
      1 ≤ asked.errorMessage.length ∧ asked.errorMessage.length ≤ 1000 := by
  simp [failures, checkObjectType, checkExpression, checkErrorMessage, checkLength_eq_nil_iff,
    maxObjectTypeLength, maxExpressionLength, maxErrorMessageLength, and_assoc]

theorem UpdateRequest.failures_eq_nil_iff (asked : UpdateRequest) :
    asked.failures = [] ↔
      (∀ text ∈ asked.objectType, 1 ≤ text.length ∧ text.length ≤ 255) ∧
      (∀ text ∈ asked.expression, 1 ≤ text.length ∧ text.length ≤ 4096) ∧
      ∀ text ∈ asked.errorMessage, 1 ≤ text.length ∧ text.length ≤ 1000 := by
  simp [failures, checkObjectType, checkExpression, checkErrorMessage, checkOptional_eq_nil_iff,
    checkLength_eq_nil_iff, maxObjectTypeLength, maxExpressionLength, maxErrorMessageLength]

end FormRules.Service
