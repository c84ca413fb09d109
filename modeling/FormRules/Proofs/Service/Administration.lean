import FormRules.Proofs.Engine.Administration
import FormRules.Proofs.Identifier
import FormRules.Proofs.Service.Bounds
import FormRules.Proofs.Service.Course
import FormRules.Proofs.Service.Reading

/-!
# The answer to a request to change rules

A request to create, change or remove a rule is made exactly if its texts are within their bounds,
its expression compiles and the rule that it is about is stored. Otherwise it is refused, and the
stored rules stay as they are. A request that cannot be read leaves the whole engine as it is.
-/

namespace FormRules.Service

open Engine

/-- A change of the stored rules that a client may ask for. -/
inductive Change where
  | create (asked : CreateRequest)
  | update (id : Uuid) (asked : UpdateRequest)
  | delete (id : Uuid)

/-- A request goes to where rules are created, changed or removed. -/
inductive HttpRequest.GoesToRules (request : HttpRequest) : Prop where
  | create (goes : request.GoesTo .post .rules)
  | update (segment : String) (goes : request.GoesTo .put (.rule segment))
  | delete (segment : String) (goes : request.GoesTo .delete (.rule segment))

/-- A request whose path and body are well formed asks for a change. -/
inductive HttpRequest.AsksTo (request : HttpRequest) : Change → Prop where
  | create {asked : CreateRequest} (goes : request.GoesTo .post .rules)
      (proposes : request.Proposes asked) : request.AsksTo (.create asked)
  | update {segment : String} {id : Uuid} {asked : UpdateRequest}
      (goes : request.GoesTo .put (.rule segment)) (named : Route.identifier? segment = some id)
      (amends : request.Amends asked) : request.AsksTo (.update id asked)
  | delete {segment : String} {id : Uuid} (goes : request.GoesTo .delete (.rule segment))
      (named : Route.identifier? segment = some id) : request.AsksTo (.delete id)

namespace Change

/-- The status of the answer if the change is made. -/
def success : Change → Nat
  | create _ => 201
  | update _ _ | delete _ => 200

/-- The texts are within their bounds, counted in characters, and the expression compiles. -/
def Valid (limits : Limits) : Change → Prop
  | create asked =>
      (1 ≤ asked.objectType.length ∧ asked.objectType.length ≤ 255) ∧
      (1 ≤ asked.expression.length ∧ asked.expression.length ≤ 4096) ∧
      (1 ≤ asked.errorMessage.length ∧ asked.errorMessage.length ≤ 1000) ∧
      limits.Admit asked.expression
  | update _ asked =>
      (∀ text ∈ asked.objectType, 1 ≤ text.length ∧ text.length ≤ 255) ∧
      (∀ text ∈ asked.expression, 1 ≤ text.length ∧ text.length ≤ 4096) ∧
      (∀ text ∈ asked.errorMessage, 1 ≤ text.length ∧ text.length ≤ 1000) ∧
      ∀ text ∈ asked.expression, limits.Admit text
  | delete _ => True

/-- The rule that the change is about is stored. -/
def Finds (store : Store) : Change → Prop
  | create _ => True
  | update id _ | delete id => ∃ rule, store.rules[id]? = some rule

/-- What the change makes of a store: the entries afterwards, and their number. -/
def Made (occasion : Occasion) (before after : Store) : Change → Prop
  | create asked =>
      (∀ id, after.rules[id]? =
        if occasion.freshId = id then
          some
            { id := occasion.freshId
              objectType := asked.objectType
              expression := asked.expression
              errorMessage := asked.errorMessage
              isActive := asked.isActive.getD true
              createdBy := asked.createdBy
              createdAt := occasion.now
              updatedAt := occasion.now }
        else before.rules[id]?) ∧
      (before.rules[occasion.freshId]? = none → after.size = before.size + 1)
  | update place asked =>
      (∀ id, after.rules[id]? =
        if place = id then
          before.rules[id]?.map fun rule =>
            { rule with
              objectType := asked.objectType.getD rule.objectType
              expression := asked.expression.getD rule.expression
              errorMessage := asked.errorMessage.getD rule.errorMessage
              isActive := asked.isActive.getD rule.isActive
              updatedAt := occasion.now }
        else before.rules[id]?) ∧
      after.size = before.size
  | delete place =>
      (∀ id, after.rules[id]? = if place = id then none else before.rules[id]?) ∧
      after.size + 1 = before.size

end Change

/-- What the answer to a request to change rules keeps to. -/
structure ChangeContract (limits : Limits) (occasion : Occasion) (before : Store)
    (change : Change) (status : Nat) (after : Store) : Prop where
  success : status = change.success ↔ change.Valid limits ∧ change.Finds before
  refused : status = 400 ↔ ¬ change.Valid limits
  missing : status = 404 ↔ change.Valid limits ∧ ¬ change.Finds before
  made : change.Valid limits → change.Finds before → change.Made occasion before after
  atomic : ¬ (200 ≤ status ∧ status < 300) → after.rules = before.rules

/-! ## Answers within the contract -/

namespace ChangeContract

variable {limits : Limits} {occasion : Occasion} {before after : Store} {change : Change}

theorem of_invalid (invalid : ¬ change.Valid limits) :
    ChangeContract limits occasion before change 400 before where
  success := by cases change <;> simp [Change.success, invalid]
  refused := by simp [invalid]
  missing := by simp [invalid]
  made valid := absurd valid invalid
  atomic _ := rfl

theorem of_missing (valid : change.Valid limits) (missed : ¬ change.Finds before) :
    ChangeContract limits occasion before change 404 before where
  success := by cases change <;> simp [Change.success, missed]
  refused := by simp [valid]
  missing := by simp [valid, missed]
  made _ found := absurd found missed
  atomic _ := rfl

theorem of_made (valid : change.Valid limits) (found : change.Finds before)
    (made : change.Made occasion before after) :
    ChangeContract limits occasion before change change.success after where
  success := by simp [valid, found]
  refused := by cases change <;> simp [Change.success, valid]
  missing := by cases change <;> simp [Change.success, found]
  made _ _ := made
  atomic failed := by cases change <;> simp [Change.success] at failed

end ChangeContract

theorem status_of_isExpressionError {error : RuleError}
    (expression : error.isExpressionError = true) :
    (errorResponse (.ofRuleError error)).status = 400 := by
  cases error with
  | lex | parse | eval => rfl
  | _ => exact nomatch expression

theorem status_missing (id : Uuid) :
    (errorResponse (.ofRuleError (Store.missing id))).status = 404 := by
  rw [Store.missing, ApiError.ofRuleError, String.toList_ofList, Uuid.ofText?_text]
  rfl

/-- The end of a change in the engine decides the answer. -/
theorem changeContract_of_ending {limits : Limits} {occasion : Occasion} {before after : Store}
    {change : Change} {Result : Type} {id : Uuid} {compiles stored : Prop}
    {effect : Store → Prop} {result : Except RuleError Result}
    (ending : Ending id compiles stored before effect result after)
    (valid : change.Valid limits ↔ compiles) (finds : change.Finds before ↔ stored)
    (made : stored → effect after → change.Made occasion before after) (encode : Result → Json) :
    ChangeContract limits occasion before change (respond change.success encode result).status
      after := by
  cases ending with
  | uncompiled rejects expression =>
      rw [respond, status_of_isExpressionError expression]
      exact .of_invalid (mt valid.1 rejects)
  | missing compiled missed =>
      rw [respond, status_missing]
      exact .of_missing (valid.2 compiled) (mt finds.1 missed)
  | changed compiled found effected =>
      exact .of_made (valid.2 compiled) (finds.2 found) (made found effected)

/-! ## Changes that are made -/

section Made

variable {occasion : Occasion} {id : Uuid} {before after : Store}

theorem made_create {asked : CreateRequest}
    (inserted : after = before.insert (.ofNew occasion.freshId occasion.now asked.toNewRule)) :
    (Change.create asked).Made occasion before after := by
  subst inserted
  exact ⟨fun id => before.getElem?_put occasion.freshId id _,
    fun fresh => Store.size_put_of_missing fresh _⟩

theorem made_update {asked : UpdateRequest}
    (replaces : Replaces id asked.toPatch occasion.now before after) :
    (Change.update id asked).Made occasion before after := by
  obtain ⟨rule, found, rfl⟩ := replaces
  refine ⟨fun other => ?_, Store.size_put_of_found found _⟩
  rw [Store.getElem?_put]
  split
  case isTrue same =>
    subst same
    rw [found]
    rfl
  case isFalse => rfl

theorem made_delete (found : ∃ rule, before.rules[id]? = some rule)
    (removed : after = before.remove id) : (Change.delete id).Made occasion before after := by
  obtain ⟨rule, found⟩ := found
  subst removed
  exact ⟨before.getElem?_remove id, Store.size_remove_of_found found⟩

end Made

/-! ## Handlers -/

section Handlers

variable {settings : Settings} {occasion : Occasion} {request : HttpRequest} {engine : Engine}
  (faithful : engine.cache.Faithful settings.limits) (answers : engine.store.outages = .none)

include faithful answers

theorem changeContract_createRule {asked : CreateRequest}
    (read : readBody CreateRequest.shape request = .ok asked) :
    ChangeContract settings.limits occasion engine.store (.create asked)
      ((createRule settings occasion request).run engine).1.status
      ((createRule settings occasion request).run engine).2.store := by
  unfold createRule
  rw [read]
  dsimp only
  have bounds := asked.failures_eq_nil_iff
  split
  case isTrue unbounded =>
    exact .of_invalid fun valid => unbounded (bounds.2 ⟨valid.1, valid.2.1, valid.2.2.1⟩)
  case isFalse bounded =>
    obtain ⟨type_length, expression_length, message_length⟩ :=
      bounds.1 (Decidable.not_not.1 bounded)
    obtain ⟨result, after, ran, ending⟩ :=
      ending_createRule faithful answers occasion.freshId occasion.now asked.toNewRule
    have attempted := run_of_response (fun _ _ => Response.rule.inj) ran
    rw [Procedure.run_bind, attempted, Procedure.run_pure]
    refine changeContract_of_ending ending ?_ .rfl (fun _ => made_create) Rule.toJson
    exact ⟨fun valid => valid.2.2.2,
      fun admits => ⟨type_length, expression_length, message_length, admits⟩⟩

theorem changeContract_updateRule {segment : String} {id : Uuid} {asked : UpdateRequest}
    (named : Route.identifier? segment = some id)
    (read : readBody UpdateRequest.shape request = .ok asked) :
    ChangeContract settings.limits occasion engine.store (.update id asked)
      ((updateRule settings occasion segment request).run engine).1.status
      ((updateRule settings occasion segment request).run engine).2.store := by
  unfold updateRule
  rw [named, read]
  dsimp only
  have bounds := asked.failures_eq_nil_iff
  split
  case isTrue unbounded =>
    exact .of_invalid fun valid => unbounded (bounds.2 ⟨valid.1, valid.2.1, valid.2.2.1⟩)
  case isFalse bounded =>
    obtain ⟨type_length, expression_length, message_length⟩ :=
      bounds.1 (Decidable.not_not.1 bounded)
    obtain ⟨result, after, ran, ending⟩ :=
      ending_updateRule faithful answers id asked.toPatch occasion.now
    have attempted := run_of_response (fun _ _ => Response.rule.inj) ran
    rw [Procedure.run_bind, attempted, Procedure.run_pure]
    refine changeContract_of_ending ending ?_ .rfl (fun _ => made_update) Rule.toJson
    exact ⟨fun valid => valid.2.2.2,
      fun admits => ⟨type_length, expression_length, message_length, admits⟩⟩

omit faithful in
theorem changeContract_deleteRule (limits : Limits) {segment : String} {id : Uuid}
    (named : Route.identifier? segment = some id) :
    ChangeContract limits occasion engine.store (.delete id)
      ((deleteRule segment).run engine).1.status ((deleteRule segment).run engine).2.store := by
  unfold deleteRule
  rw [named]
  dsimp only
  obtain ⟨result, after, ran, ending⟩ := ending_deleteRule limits answers id
  have attempted := run_of_response (fun _ _ => Response.removal.inj) ran
  rw [Procedure.run_bind, attempted, Procedure.run_pure]
  exact changeContract_of_ending ending .rfl .rfl made_delete _

end Handlers

/-! ## Requests that cannot be read -/

/-- The response refuses a request for its form, and nothing has been done. -/
structure Unread (before : Engine) (served : HttpResponse × Engine) : Prop where
  status : served.1.status ∈ [400, 413, 415, 422]
  untouched : served.2 = before

theorem unread_rejection (rejection : Rejection) (engine : Engine) :
    Unread engine ((return rejection.response : Procedure HttpResponse).run engine) :=
  ⟨show rejection.response.status ∈ _ by cases rejection <;> decide, rfl⟩

theorem unread_invalidPath (engine : Engine) :
    Unread engine ((return invalidPath : Procedure HttpResponse).run engine) :=
  ⟨show invalidPath.status ∈ _ by decide, rfl⟩

theorem unread_answer (settings : Settings) (occasion : Occasion) {request : HttpRequest}
    (engine : Engine) (goes : request.GoesToRules)
    (unreadable : ∀ change, ¬ request.AsksTo change) :
    Unread engine ((answer settings occasion request).run engine) := by
  cases goes with
  | create goes =>
      rw [answer_of_goesTo goes nofun, answerRoute, createRule]
      cases read : readBody CreateRequest.shape request with
      | error rejection => exact unread_rejection rejection engine
      | ok asked => exact absurd (.create goes (readBody_eq_ok_iff_proposes.1 read)) (unreadable _)
  | update segment goes =>
      rw [answer_of_goesTo goes nofun, answerRoute, updateRule]
      cases named : Route.identifier? segment with
      | none => exact unread_invalidPath engine
      | some id =>
          cases read : readBody UpdateRequest.shape request with
          | error rejection => exact unread_rejection rejection engine
          | ok asked =>
              exact absurd (.update goes named (readBody_eq_ok_iff_amends.1 read)) (unreadable _)
  | delete segment goes =>
      rw [answer_of_goesTo goes nofun, answerRoute, deleteRule]
      cases named : Route.identifier? segment with
      | none => exact unread_invalidPath engine
      | some id => exact absurd (.delete goes named) (unreadable _)

/-- Asks for another expression of the rule that was posted first, and for its rest. -/
def amendmentRequest : HttpRequest where
  method := "PUT"
  target := "/api/validation_rules/00000000-0000-0000-0000-000000000001"
  contentType := some "application/json"
  requestId := none
  body := "\x7b\"expression\": \"Total < 1\", \"is_active\": false\x7d"

/-- What a service answers its second request with. -/
def secondOccasion : Occasion :=
  { firstOccasion with freshId := ⟨2⟩, now := ⟨1, 0⟩ }

end FormRules.Service
