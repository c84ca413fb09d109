import FormRules.Proofs.Engine.Reference
import FormRules.Proofs.Engine.Submission
import FormRules.Proofs.Service.Bounds
import FormRules.Proofs.Service.Course
import FormRules.Proofs.Service.Reading

/-!
# The answer to a request to evaluate rules

Whatever a client sends and whatever the store does, the answer to a request to evaluate rules tells
of success or lists errors. A faulty request is answered without any call; any other one comes to
the reference outcome of the rules that apply, unless the store cannot list them. A store that says
of itself that the form is at fault is believed.
-/

namespace FormRules

/-- The error lies in the form that a client submits. -/
def RuleError.isFormError : RuleError → Bool
  | unsupportedField _ _ | invalidForm _ => true
  | _ => false

end FormRules

namespace FormRules.Service

open Engine

/-- What can be wrong with the data of a request to evaluate rules. -/
inductive EvaluateRequest.Invalid (asked : EvaluateRequest) : Prop where
  | noObjectType (missing : asked.objectType = none)
  | length (objectType : String) (given : asked.objectType = some objectType)
      (unbounded : ¬ (1 ≤ objectType.length ∧ objectType.length ≤ 255))
  | noForm (missing : asked.formData = none)
  | noObject (json : Json) (given : asked.formData = some json)
      (other : ∀ members, json ≠ .object members)
  /-- Some value of the form is an array or an object. -/
  | nesting (members : List (String × Json)) (given : asked.formData = some (.object members))
      (nests : Form.Nests (Json.tree members))

/-- A request to evaluate rules cannot be read or asks for nothing that can be evaluated. -/
inductive HttpRequest.Faulty (request : HttpRequest) : Prop where
  | unread (unreadable : ∀ asked, ¬ request.Submits asked)
  | invalid (asked : EvaluateRequest) (submits : request.Submits asked) (invalid : asked.Invalid)

/-- A request asks for the rules of an object type on the record of the form that it carries. -/
def HttpRequest.AsksFor (request : HttpRequest) (objectType : String) (record : FieldRecord) :
    Prop :=
  ∃ members, request.Submits ⟨some objectType, some (.object members)⟩ ∧
    record.Mirrors (Json.tree members)

/-- What the answer to a request to evaluate rules keeps to, whatever the request and the store. -/
structure EvaluationContract (limits : Limits) (today : Date) (engine : Engine)
    (request : HttpRequest) (status : Nat) (told : EvaluationResponse) : Prop where
  success : status = 200 ↔ told.success = true
  silence : told.success = true ↔ told.errors = []
  faulty : request.Faulty → status = 422 ∧
    ∃ detail, told.errors = ["Validation request is invalid: " ++ detail]
  outage : ¬ request.Faulty → ∀ error, engine.store.outages .listActive = some error →
    error.isFormError = false →
      status = 500 ∧ told.errors = ["An error occurred during validation"]
  /-- A store that fails with an error about the form is answered for like a faulty form. -/
  blame : ¬ request.Faulty → ∀ error, engine.store.outages .listActive = some error →
    error.isFormError = true →
      status = 422 ∧ told.errors = ["Validation request is invalid: " ++ error.display]
  evaluated : ¬ request.Faulty → engine.store.outages .listActive = none →
    ∃ objectType record rules, ∃ outcome : EvaluationOutcome,
      request.AsksFor objectType record ∧ engine.store.Applicable objectType rules ∧
      outcome.IsReference limits record today rules ∧
      told.errors = outcome.messages ∧ (told.errors ≠ [] → status = 422)

/-! ## Faulty requests -/

theorem EvaluateRequest.Invalid.not_parts {asked : EvaluateRequest} (invalid : asked.Invalid)
    {objectType : String} {form : Form} (parts : asked.parts = .ok (objectType, form)) :
    form.Nests := by
  obtain ⟨length, members, rfl, rfl⟩ := (asked.parts_eq_ok_iff objectType form).1 parts
  cases invalid with
  | noObjectType missing => exact nomatch missing
  | length other given unbounded =>
      obtain rfl := Option.some.inj given
      exact absurd length unbounded
  | noForm missing => exact nomatch missing
  | noObject json given other => exact absurd (Option.some.inj given).symm (other members)
  | nesting others given nests =>
      obtain rfl := Json.object.inj (Option.some.inj given)
      exact nests

/-- Data that is not invalid has an object type and a form with a record. -/
theorem EvaluateRequest.exists_parts {asked : EvaluateRequest} (valid : ¬ asked.Invalid) :
    ∃ objectType members record, asked = ⟨some objectType, some (.object members)⟩ ∧
      FieldRecord.ofForm (Json.tree members) = .ok record ∧
      asked.parts = .ok (objectType, Json.tree members) := by
  obtain ⟨_ | objectType, formData⟩ := asked
  · exact absurd (.noObjectType rfl) valid
  have length : 1 ≤ objectType.length ∧ objectType.length ≤ 255 := by
    by_contra unbounded
    exact valid (.length objectType rfl unbounded)
  match formData with
  | none => exact absurd (.noForm rfl) valid
  | some (.object members) =>
      obtain ⟨-, record, read⟩ | ⟨_, _, first, -⟩ :=
        FieldRecord.ofForm_cases (Json.tree members)
      · exact ⟨objectType, members, record, rfl, read,
          (parts_eq_ok_iff _ _ _).2 ⟨length, members, rfl, rfl⟩⟩
      · exact absurd (.nesting members rfl first.nests) valid
  | some .null | some (.boolean _) | some (.number _) | some (.text _) | some (.array _) =>
      exact absurd (.noObject _ rfl nofun) valid

section Handler

variable (settings : Settings) (occasion : Occasion) {request : HttpRequest}

/-- A faulty request is answered at once. -/
theorem evaluate_of_faulty (faulty : request.Faulty) :
    ∃ detail, evaluate settings occasion request =
      pure (.json 422
        (EvaluationResponse.mk false ["Validation request is invalid: " ++ detail]).toJson) := by
  cases faulty with
  | unread unreadable =>
      cases read : readBody EvaluateRequest.shape request with
      | ok asked => exact absurd (readBody_eq_ok_iff_submits.1 read) (unreadable asked)
      | error rejection =>
          simp only [evaluate, read]
          exact ⟨_, rfl⟩
  | invalid asked submits invalid =>
      have read := readBody_eq_ok_iff_submits.2 submits
      cases parted : asked.parts with
      | error messages =>
          simp only [evaluate, read, parted]
          exact ⟨_, rfl⟩
      | ok parts =>
          obtain ⟨objectType, form⟩ := parts
          obtain ⟨plain, -⟩ | ⟨name, json, -, refused⟩ := FieldRecord.ofForm_cases form
          · exact absurd (invalid.not_parts parted) plain
          · simp only [evaluate, read, parted, evaluateForm, refused]
            exact ⟨_, rfl⟩

theorem exists_asksFor (proper : ¬ request.Faulty) :
    ∃ objectType record, request.AsksFor objectType record ∧
      evaluate settings occasion request = do
        let result ← (evaluateRules settings.limits objectType record occasion.today).run
        return evaluationAnswer (result.map EvaluationOutcome.toResponse) := by
  cases read : readBody EvaluateRequest.shape request with
  | error rejection =>
      refine absurd (.unread fun asked submits => ?_) proper
      exact nomatch read.symm.trans (readBody_eq_ok_iff_submits.2 submits)
  | ok asked =>
      have submits := readBody_eq_ok_iff_submits.1 read
      have valid : ¬ asked.Invalid := fun invalid => proper (.invalid asked submits invalid)
      obtain ⟨objectType, members, record, rfl, recorded, parted⟩ :=
        EvaluateRequest.exists_parts valid
      refine ⟨objectType, record, ⟨members, submits, FieldRecord.mirrors_of_ofForm recorded⟩, ?_⟩
      simp only [evaluate, read, parted, evaluateForm, recorded]
      change (evaluateRules _ _ _ _ >>= _ : Attempt _).run >>= _ = _
      rw [ExceptT.run_bind, bind_assoc]
      refine bind_congr fun result => ?_
      cases result <;> rfl

end Handler

/-! ## Answers within the contract -/

namespace EvaluationContract

variable {limits : Limits} {today : Date} {engine : Engine} {request : HttpRequest}

theorem of_faulty (faulty : request.Faulty) (detail : String) :
    EvaluationContract limits today engine request 422
      ⟨false, ["Validation request is invalid: " ++ detail]⟩ where
  success := by simp
  silence := by simp
  faulty _ := ⟨rfl, detail, rfl⟩
  outage proper := absurd faulty proper
  blame proper := absurd faulty proper
  evaluated proper := absurd faulty proper

theorem of_outage (proper : ¬ request.Faulty) {error : RuleError}
    (failed : engine.store.outages .listActive = some error) (spared : error.isFormError = false) :
    EvaluationContract limits today engine request 500
      ⟨false, ["An error occurred during validation"]⟩ where
  success := by simp
  silence := by simp
  faulty faulty := absurd faulty proper
  outage _ _ _ _ := ⟨rfl, rfl⟩
  blame _ other other_failed blames := by
    obtain rfl := Option.some.inj (failed.symm.trans other_failed)
    exact absurd (spared.symm.trans blames) (by decide)
  evaluated _ answers := absurd (failed.symm.trans answers) (by simp)

theorem of_blame (proper : ¬ request.Faulty) {error : RuleError}
    (failed : engine.store.outages .listActive = some error) (blames : error.isFormError = true) :
    EvaluationContract limits today engine request 422
      ⟨false, ["Validation request is invalid: " ++ error.display]⟩ where
  success := by simp
  silence := by simp
  faulty faulty := absurd faulty proper
  outage _ other other_failed spared := by
    obtain rfl := Option.some.inj (failed.symm.trans other_failed)
    exact absurd (spared.symm.trans blames) (by decide)
  blame _ other other_failed _ := by
    obtain rfl := Option.some.inj (failed.symm.trans other_failed)
    exact ⟨rfl, rfl⟩
  evaluated _ answers := absurd (failed.symm.trans answers) (by simp)

theorem of_outcome (proper : ¬ request.Faulty)
    (answers : engine.store.outages .listActive = none) {objectType : String}
    {record : FieldRecord} (asks : request.AsksFor objectType record) {rules : List Rule}
    (applicable : engine.store.Applicable objectType rules) {outcome : EvaluationOutcome}
    (reference : outcome.IsReference limits record today rules) :
    EvaluationContract limits today engine request (if outcome.isValid then 200 else 422)
      outcome.toResponse where
  success := by simp [EvaluationOutcome.toResponse]
  silence := by simp [EvaluationOutcome.toResponse, EvaluationOutcome.isValid]
  faulty faulty := absurd faulty proper
  outage _ _ failed := absurd (failed.symm.trans answers) (by simp)
  blame _ _ failed := absurd (failed.symm.trans answers) (by simp)
  evaluated _ _ := by
    refine ⟨objectType, record, rules, outcome, asks, applicable, reference, rfl, ?_⟩
    simp [EvaluationOutcome.toResponse, EvaluationOutcome.isValid]

end EvaluationContract

/-- An error that does not lie in the form is told as a failure of the service. -/
theorem evaluationAnswer_of_error {error : RuleError} (spared : error.isFormError = false) :
    evaluationAnswer (.error error) = failedEvaluation := by
  cases error with
  | unsupportedField | invalidForm => exact nomatch spared
  | _ => rfl

/-- An error that lies in the form is told. -/
theorem evaluationAnswer_of_formError {error : RuleError} (blames : error.isFormError = true) :
    evaluationAnswer (.error error) = invalidEvaluation [error.display] := by
  cases error with
  | unsupportedField | invalidForm => rfl
  | _ => exact nomatch blames

/-- A proper request is answered for the failure of the store. -/
theorem exists_contract_of_outage {limits : Limits} {today : Date} {engine : Engine}
    {request : HttpRequest} (proper : ¬ request.Faulty) {error : RuleError}
    (failed : engine.store.outages .listActive = some error) :
    ∃ status told, evaluationAnswer (.error error) = .json status told.toJson ∧
      EvaluationContract limits today engine request status told := by
  cases blames : error.isFormError with
  | false => exact ⟨_, _, evaluationAnswer_of_error blames, .of_outage proper failed blames⟩
  | true => exact ⟨_, _, evaluationAnswer_of_formError blames, .of_blame proper failed blames⟩

theorem run_evaluate (settings : Settings) (occasion : Occasion) (request : HttpRequest)
    {engine : Engine} (sound : engine.Sound settings.limits) :
    ∃ status told,
      ((evaluate settings occasion request).run engine).1 = .json status told.toJson ∧
        EvaluationContract settings.limits occasion.today engine request status told := by
  -- Only what is left after the request has been checked depends on the state of the engine.
  by_cases faulty : request.Faulty
  · obtain ⟨detail, answered⟩ := evaluate_of_faulty settings occasion faulty
    exact ⟨_, _, by rw [answered]; rfl, .of_faulty faulty detail⟩
  obtain ⟨objectType, record, asks, evaluates⟩ := exists_asksFor settings occasion faulty
  rw [evaluates, Procedure.run_bind, Procedure.run_pure]
  cases failed : engine.store.outages .listActive with
  | some error =>
      rw [run_evaluateRules_of_outage failed]
      exact exists_contract_of_outage faulty failed
  | none =>
      rw [run_evaluateRules sound.faithful failed]
      have applicable : engine.store.Applicable objectType (engine.store.activeRules objectType) :=
        ⟨Store.activeRules_pairwise sound.keyed objectType, fun _ => Store.mem_activeRules⟩
      have reference := isReference_outcomeOf settings.limits record occasion.today
        (engine.store.activeRules objectType)
      exact ⟨_, _, rfl, .of_outcome faulty failed asks applicable reference⟩

/-- Asks about an order without a total. -/
def orderRequest : HttpRequest where
  method := "POST"
  target := "/api/validation_rules/evaluate"
  contentType := some "application/json"
  requestId := none
  body := "\x7b\"object_type\": \"Order\", \"form_data\": \x7b\"Total\": 0\x7d\x7d"

/-- The text of a JSON string. -/
def textOf? : Json → Option String
  | .text content => some content
  | _ => none

/-- The errors that a body lists. -/
def errorsIn : Body → List String
  | .json (.object [_, ("errors", .array errors)]) => errors.filterMap textOf?
  | _ => []

theorem errorsIn_toJson (told : EvaluationResponse) :
    errorsIn (.json told.toJson) = told.errors := by
  change (told.errors.map Json.text).filterMap textOf? = told.errors
  rw [List.filterMap_map]
  exact List.filterMap_some

example : ((answer ⟨.standard, .memory⟩ firstOccasion orderRequest).run
    (afterCourse ⟨.standard, .memory⟩ [rulePosted,
      .episode (.outages (.total "down"))])).1.status = 500 := by
  decide +kernel

end FormRules.Service
