import FormRules.Expr.Evaluate

/-!
# What the value of an expression depends on

The leaves of an expression can be replaced by others of the same values without a change of its
value or its error. So a field stands for nothing but its value, however that value reads; and only
the fields that an expression refers to matter, and the date only if it is asked for.
-/

namespace FormRules

namespace Registry

/-- The language finds by name exactly what is in its table. -/
theorem builtin_eq_some_iff {name : String} {function : Function} :
    builtin[name]? = some function ↔ (name, function) ∈ builtinFunctions := by
  have distinct : builtinFunctions.Pairwise fun first second =>
      ¬compare first.1 second.1 = .eq := by simp [builtinFunctions]
  have found_of_mem {found : Function} (member : (name, found) ∈ builtinFunctions) :
      builtin[name]? = some found :=
    Std.TreeMap.getElem?_ofList_of_mem Std.ReflCmp.compare_self distinct member
  refine ⟨fun found => ?_, found_of_mem⟩
  cases listed : (builtinFunctions.map Prod.fst).contains name with
  | false =>
      have missing : builtin[name]? = none :=
        Std.TreeMap.getElem?_ofList_of_contains_eq_false listed
      exact nomatch missing.symm.trans found
  | true =>
      obtain ⟨⟨_, other⟩, member, rfl⟩ := List.mem_map.1 (List.contains_iff_mem.1 listed)
      obtain rfl := Option.some.inj ((found_of_mem member).symm.trans found)
      exact member

/-- A name stands for the function that tells the date. -/
def TellsDate (registry : Registry) (name : String) : Prop :=
  ∃ function, registry[name]? = some function ∧ function.builtin = .today

theorem eq_today_of_tellsDate {name : String} (tells : builtin.TellsDate name) :
    name = "TODAY" := by
  obtain ⟨function, found, date⟩ := tells
  have only : ∀ entry ∈ builtinFunctions, entry.2.builtin = .today → entry.1 = "TODAY" := by decide
  exact only _ (builtin_eq_some_iff.1 found) date

/-- Calls of other functions do not depend on the date. -/
theorem call_of_not_tellsDate {Effect : Type → Type} [Monad Effect] {Argument : Type}
    {registry : Registry} {name : String} (other : ¬registry.TellsDate name) (today tomorrow : Date)
    (evaluate : Argument → Effect (Except EvalError Value)) (arguments : List Argument) :
    registry.call today evaluate name arguments =
      registry.call tomorrow evaluate name arguments := by
  unfold call resolve
  cases found : registry[name]? with
  | none => rfl
  | some function =>
      obtain ⟨arity, builtin⟩ := function
      dsimp only
      cases arity.accepts arguments.length with
      | false => rfl
      | true =>
          cases builtin with
          | today => exact absurd ⟨_, found, rfl⟩ other
          | _ => rfl

end Registry

namespace FieldRecord

theorem valueOf_empty (name : String) : empty.valueOf name = .null := by
  rw [valueOf, get?_empty]
  rfl

theorem valueOf_insert (record : FieldRecord) (name : String) (value : Value) (other : String) :
    (record.insert name value).valueOf other =
      if name = other then value else record.valueOf other := by
  rw [valueOf, get?_insert]
  split <;> rfl

end FieldRecord

namespace Expr

mutual

/-- The names of the functions that an expression calls, in the order of the text and with
repetitions. -/
def functionNames : Expr → List String
  | literal _ => []
  | field _ => []
  | negate operand => operand.functionNames
  | binary _ left right => left.functionNames ++ right.functionNames
  | call function arguments => function :: allFunctionNames arguments

/-- The names of the functions that some expressions call. -/
def allFunctionNames : List Expr → List String
  | [] => []
  | head :: rest => head.functionNames ++ allFunctionNames rest

end

/-! ## Leaves -/

theorem evaluate_literal (context : Context) (value : Value) :
    (literal value).evaluate context = .ok value := by
  rw [evaluate]

theorem evaluate_field (context : Context) (name : String) :
    (field name).evaluate context = .ok (context.record.valueOf name) := by
  rw [evaluate]

section Leaves

variable (ofLiteral : Value → Expr) (ofField : String → Expr)

mutual

/-- The expression with other expressions in place of its leaves. -/
def replaceLeaves : Expr → Expr
  | literal value => ofLiteral value
  | field name => ofField name
  | negate operand => negate (replaceLeaves operand)
  | binary op left right => binary op (replaceLeaves left) (replaceLeaves right)
  | call function arguments => call function (replaceAllLeaves arguments)

/-- Some expressions with others in place of their leaves. -/
def replaceAllLeaves : List Expr → List Expr
  | [] => []
  | head :: rest => replaceLeaves head :: replaceAllLeaves rest

end

mutual

theorem replaceLeaves_self : ∀ expr : Expr, expr.replaceLeaves literal field = expr
  | literal _ => rfl
  | field _ => rfl
  | negate operand => congrArg negate (replaceLeaves_self operand)
  | binary op left right => by
      rw [replaceLeaves, replaceLeaves_self left, replaceLeaves_self right]
  | call function arguments => congrArg (call function) (replaceAllLeaves_self arguments)

theorem replaceAllLeaves_self : ∀ arguments : List Expr,
    replaceAllLeaves literal field arguments = arguments
  | [] => rfl
  | head :: rest => by
      rw [replaceAllLeaves, replaceLeaves_self head, replaceAllLeaves_self rest]

end

/-- The date is the same in two contexts, or none of some functions tells it. -/
def SameDate (context other : Context) (functions : List String) : Prop :=
  other.today = context.today ∨ ∀ name ∈ functions, ¬context.registry.TellsDate name

theorem SameDate.mono {context other : Context} {functions fewer : List String}
    (same : SameDate context other functions) (subset : fewer ⊆ functions) :
    SameDate context other fewer :=
  same.imp_right fun none name member => none name (subset member)

variable {ofLiteral : Value → Expr} {ofField : String → Expr} {context other : Context}

mutual

/-- Leaves with the same values make an expression with the same value, or with the same error. -/
theorem evaluate_replaceLeaves (registry_eq : other.registry = context.registry)
    (literals : ∀ value, (ofLiteral value).evaluate other = .ok value) : ∀ expr : Expr,
    (∀ name ∈ expr.fieldNames, (ofField name).evaluate other = .ok (context.record.valueOf name)) →
    SameDate context other expr.functionNames →
    (expr.replaceLeaves ofLiteral ofField).evaluate other = expr.evaluate context
  | literal value, _, _ => literals value
  | field name, fields, _ => fields name List.mem_cons_self
  | negate operand, fields, dates => by
      rw [replaceLeaves, evaluate, evaluate,
        evaluate_replaceLeaves registry_eq literals operand fields dates]
  | binary op left right, fields, dates => by
      have left_eq := evaluate_replaceLeaves registry_eq literals left
        (fun name member => fields name (List.mem_append_left _ member))
        (dates.mono (List.subset_append_left _ _))
      have right_eq := evaluate_replaceLeaves registry_eq literals right
        (fun name member => fields name (List.mem_append_right _ member))
        (dates.mono (List.subset_append_right _ _))
      rw [replaceLeaves, evaluate, evaluate, left_eq, right_eq]
  | call function arguments, fields, dates => by
      have arguments_eq := delayAll_replaceAllLeaves registry_eq literals arguments fields
        (dates.mono (List.subset_cons_self _ _))
      rw [replaceLeaves, evaluate, evaluate, arguments_eq, registry_eq]
      rcases dates with today_eq | others
      · rw [today_eq]
      · rw [Registry.call_of_not_tellsDate (others function List.mem_cons_self)]

theorem delayAll_replaceAllLeaves (registry_eq : other.registry = context.registry)
    (literals : ∀ value, (ofLiteral value).evaluate other = .ok value) : ∀ arguments : List Expr,
    (∀ name ∈ allFieldNames arguments,
      (ofField name).evaluate other = .ok (context.record.valueOf name)) →
    SameDate context other (allFunctionNames arguments) →
    delayAll other (replaceAllLeaves ofLiteral ofField arguments) = delayAll context arguments
  | [], _, _ => rfl
  | head :: rest, fields, dates => by
      have head_eq := evaluate_replaceLeaves registry_eq literals head
        (fun name member => fields name (List.mem_append_left _ member))
        (dates.mono (List.subset_append_left _ _))
      have rest_eq := delayAll_replaceAllLeaves registry_eq literals rest
        (fun name member => fields name (List.mem_append_right _ member))
        (dates.mono (List.subset_append_right _ _))
      rw [replaceAllLeaves, delayAll, delayAll, head_eq, rest_eq]

end

/-- The verdict depends on the value alone. -/
theorem evaluatePredicate_congr {expr replaced : Expr}
    (same : replaced.evaluate other = expr.evaluate context) :
    replaced.evaluatePredicate other = expr.evaluatePredicate context := by
  rw [evaluatePredicate, evaluatePredicate, same]

end Leaves

/-! ## Fields -/

/-- The expression with the values of a record written in place of the chosen fields. -/
def fillIn (record : FieldRecord) (chosen : String → Bool) (expr : Expr) : Expr :=
  expr.replaceLeaves literal fun name =>
    if chosen name then literal (record.valueOf name) else field name

/-- The value of a field is never read as code: the expression with the values of some fields
written in their places has the same value on any record with the same values in all other
fields. -/
theorem evaluate_fillIn (expr : Expr) (context : Context) (chosen : String → Bool)
    (other : FieldRecord)
    (agree : ∀ name, chosen name = false → other.valueOf name = context.record.valueOf name) :
    (expr.fillIn context.record chosen).evaluate { context with record := other } =
        expr.evaluate context ∧
      (expr.fillIn context.record chosen).evaluatePredicate { context with record := other } =
        expr.evaluatePredicate context := by
  let filled : Context := { context with record := other }
  have registry_eq : filled.registry = context.registry := rfl
  have fields (name : String) (_ : name ∈ expr.fieldNames) :
      (if chosen name then literal (context.record.valueOf name) else field name).evaluate filled =
        .ok (context.record.valueOf name) := by
    split
    case isTrue => exact evaluate_literal filled _
    case isFalse kept =>
      rw [evaluate_field]
      exact congrArg Except.ok (agree name (Bool.eq_false_iff.2 kept))
  have same : (expr.fillIn context.record chosen).evaluate filled = expr.evaluate context :=
    evaluate_replaceLeaves registry_eq (evaluate_literal filled) expr fields (.inl rfl)
  exact ⟨same, evaluatePredicate_congr same⟩

/-- A text that reads like code is compared as the text that it is. -/
theorem evaluate_fillIn_comment :
    let expr : Expr := .call "OR"
      [.binary .eq (.field "Comment") (.literal (.text "ok")), .call "ISBLANK" [.field "Total"]]
    let record := FieldRecord.empty.insert "Comment" (.text "ok\") OR (1 = 1")
    let context : Context := ⟨record, ⟨2024, 6, 1, by decide⟩, .builtin⟩
    let chosen (name : String) : Bool := name == "Comment"
    (∀ name, chosen name = false → FieldRecord.empty.valueOf name = record.valueOf name) ∧
      (expr.fillIn record chosen).evaluate { context with record := .empty } =
        expr.evaluate context := by
  intro expr record context chosen
  have agree (name : String) (kept : chosen name = false) :
      FieldRecord.empty.valueOf name = record.valueOf name := by
    rw [FieldRecord.valueOf_insert, if_neg (Ne.symm (beq_eq_false_iff_ne.1 kept))]
  exact ⟨agree, (evaluate_fillIn expr context chosen .empty agree).1⟩

/-- Two records have the same values in the fields that an expression refers to. -/
def AgreeOn (expr : Expr) (left right : FieldRecord) : Prop :=
  ∀ name ∈ expr.referencedFields, left.valueOf name = right.valueOf name

theorem mem_referencedFields {expr : Expr} {name : String} :
    name ∈ expr.referencedFields ↔ name ∈ expr.fieldNames := by
  rw [referencedFields, Std.TreeSet.mem_ofList, List.contains_iff_mem]

theorem evaluate_of_agreeOn {expr : Expr} {context other : Context}
    (registry_eq : other.registry = context.registry)
    (agree : expr.AgreeOn other.record context.record)
    (dates : SameDate context other expr.functionNames) :
    expr.evaluate other = expr.evaluate context := by
  have fields : ∀ name ∈ expr.fieldNames,
      (field name).evaluate other = .ok (context.record.valueOf name) := fun name member => by
    rw [evaluate_field, agree name (mem_referencedFields.2 member)]
  have replaced := evaluate_replaceLeaves registry_eq (evaluate_literal other) expr fields dates
  rwa [replaceLeaves_self] at replaced

/-- Nothing but the fields that an expression refers to and, through the function that tells it, the
date has an influence on its value, its error and its verdict. -/
theorem evaluate_depends (expr : Expr) (left right : FieldRecord)
    (agree : expr.AgreeOn left right) :
    (∀ today registry,
      expr.evaluate ⟨left, today, registry⟩ = expr.evaluate ⟨right, today, registry⟩ ∧
        expr.evaluatePredicate ⟨left, today, registry⟩ =
          expr.evaluatePredicate ⟨right, today, registry⟩) ∧
    ("TODAY" ∉ expr.functionNames → ∀ leftDay rightDay,
      expr.evaluate ⟨left, leftDay, .builtin⟩ = expr.evaluate ⟨right, rightDay, .builtin⟩ ∧
        expr.evaluatePredicate ⟨left, leftDay, .builtin⟩ =
          expr.evaluatePredicate ⟨right, rightDay, .builtin⟩) := by
  refine ⟨fun today registry => ?_, fun no_date leftDay rightDay => ?_⟩
  · have same : expr.evaluate ⟨left, today, registry⟩ = expr.evaluate ⟨right, today, registry⟩ :=
      evaluate_of_agreeOn rfl agree (.inl rfl)
    exact ⟨same, evaluatePredicate_congr same⟩
  · have same : expr.evaluate ⟨left, leftDay, .builtin⟩ =
        expr.evaluate ⟨right, rightDay, .builtin⟩ := by
      refine evaluate_of_agreeOn rfl agree (.inr fun name member tells => no_date ?_)
      exact Registry.eq_today_of_tellsDate tells ▸ member
    exact ⟨same, evaluatePredicate_congr same⟩

/-- A field that is missing counts as one without a value, and a field that is not referred to does
not count, whatever the day. -/
theorem evaluate_depends_missing_note :
    let expr : Expr := .call "AND"
      [.binary .lt (.field "Total") (.literal (.text "10")), .call "ISBLANK" [.field "Note"]]
    let left := (FieldRecord.empty.insert "Total" (.number .zero)).insert "Extra" (.boolean true)
    let right := (FieldRecord.empty.insert "Total" (.number .zero)).insert "Note" .null
    let leftDay : Date := ⟨2024, 2, 29, by decide⟩
    let rightDay : Date := ⟨2024, 6, 1, by decide⟩
    expr.AgreeOn left right ∧ "TODAY" ∉ expr.functionNames ∧
      expr.evaluate ⟨left, leftDay, .builtin⟩ = expr.evaluate ⟨right, rightDay, .builtin⟩ := by
  intro expr left right leftDay rightDay
  have agree : expr.AgreeOn left right := by
    intro name member
    have referred : name = "Total" ∨ name = "Note" := by
      simpa [expr, fieldNames, allFieldNames] using mem_referencedFields.1 member
    rcases referred with rfl | rfl <;>
      simp [left, right, FieldRecord.valueOf_insert, FieldRecord.valueOf_empty]
  have no_date : "TODAY" ∉ expr.functionNames := by
    simp [expr, functionNames, allFunctionNames]
  exact ⟨agree, no_date, ((evaluate_depends expr left right agree).2 no_date leftDay rightDay).1⟩

end Expr
end FormRules
