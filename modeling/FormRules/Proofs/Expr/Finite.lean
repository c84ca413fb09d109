import FormRules.Proofs.Expr.Outcome
import FormRules.Proofs.Form
import FormRules.Proofs.Grammar.Language
import FormRules.Proofs.Lexer.Sign
import FormRules.Proofs.Value.Coherence

/-!
# Finite numbers

Arithmetic fails rather than leave the finite numbers, and neither the tokens of an expression nor
the values of a form lie outside them. So every number that is computed is finite, and any two
numbers that meet in a comparison have an order.
-/

namespace FormRules

/-- Finite numbers have an order. -/
theorem Number.order?_ne_none_of_finite {left right : Number} (left_finite : left.isFinite = true)
    (right_finite : right.isFinite = true) : left.order? right ≠ none := by
  have placed : left ≠ .nan ∧ right ≠ .nan := by
    constructor <;> rintro rfl <;> contradiction
  exact Option.isSome_iff_ne_none.1 (Number.isSome_order?.2 placed)

namespace BinaryOp

variable {op : BinaryOp} {left right : Value}

theorem isFinite_of_apply {result : Number}
    (computed : op.apply left right = .ok (.number result)) : result.isFinite = true := by
  have results := apply_results op left right
  rw [computed] at results
  cases results with
  | number _ finite => exact finite

/-- A comparison of finite numbers has a verdict. -/
theorem exists_verdict_of_finite (compares : op.isArithmetic = false) {left right : Number}
    (left_finite : left.isFinite = true) (right_finite : right.isFinite = true) :
    ∃ verdict, op.apply (.number left) (.number right) = .ok (.boolean verdict) := by
  have results := apply_results op (.number left) (.number right)
  generalize op.apply (.number left) (.number right) = result at results
  cases results with
  | verdict _ verdict => exact ⟨verdict, rfl⟩
  | number computes | overflow computes | zeroDivisor computes =>
      exact nomatch compares.symm.trans computes
  | incompatible unfit =>
      exact absurd (unfit left right rfl rfl).2
        (Number.order?_ne_none_of_finite left_finite right_finite)

theorem exists_number_of_kind {value : Value} (kind_eq : "number" = value.kind.name) :
    ∃ number, value = .number number := by
  cases value with
  | number number => exact ⟨number, rfl⟩
  | _ => simp [Value.kind, ValueKind.name] at kind_eq

/-- Two numbers are refused as incompatible only if one of them is not finite. -/
theorem not_finite_of_incompatible {operator : String}
    (refused : op.apply left right = .error (.incompatibleOperands operator "number" "number")) :
    ∃ first second : Number, left = .number first ∧ right = .number second ∧
      ¬(first.isFinite = true ∧ second.isFinite = true) := by
  have results := apply_results op left right
  rw [refused] at results
  generalize error_eq : EvalError.incompatibleOperands operator "number" "number" = error at results
  cases results with
  | overflow | zeroDivisor => exact nomatch error_eq
  | incompatible unfit =>
      obtain ⟨-, left_kind, right_kind⟩ := EvalError.incompatibleOperands.inj error_eq
      obtain ⟨first, rfl⟩ := exists_number_of_kind left_kind
      obtain ⟨second, rfl⟩ := exists_number_of_kind right_kind
      refine ⟨first, second, rfl, rfl, ?_⟩
      rintro ⟨first_finite, second_finite⟩
      exact Number.order?_ne_none_of_finite first_finite second_finite
        (unfit first second rfl rfl).2

end BinaryOp

/-- The numbers of a record are finite. -/
def FieldRecord.Finite (record : FieldRecord) : Prop :=
  ∀ name number, record.get? name = some (.number number) → number.isFinite = true

namespace Expr

/-! ## Numbers of an expression -/

mutual

/-- The numbers that are written in an expression, in the order of the text. -/
def numberLiterals : Expr → List Number
  | literal value => value.asNumber?.toList
  | field _ => []
  | negate operand => operand.numberLiterals
  | binary _ left right => left.numberLiterals ++ right.numberLiterals
  | call _ arguments => allNumberLiterals arguments

/-- The numbers that are written in some expressions. -/
def allNumberLiterals : List Expr → List Number
  | [] => []
  | head :: rest => head.numberLiterals ++ allNumberLiterals rest

end

theorem numberLiterals_subset_of_mem {argument : Expr} {arguments : List Expr}
    (member : argument ∈ arguments) :
    argument.numberLiterals ⊆ allNumberLiterals arguments := by
  induction arguments with
  | nil => exact nomatch member
  | cons head rest induction =>
      rcases List.mem_cons.1 member with rfl | behind
      · exact List.subset_append_left _ _
      · exact List.subset_append_of_subset_right _ (induction behind)

/-- A part has no other numbers than the whole. -/
theorem Part.numberLiterals_subset {part expr : Expr} (inner : Part part expr) :
    part.numberLiterals ⊆ expr.numberLiterals := by
  induction inner with
  | whole => exact List.Subset.refl _
  | operand _ induction => exact induction
  | left _ _ _ induction => exact List.subset_append_of_subset_left _ induction
  | right _ _ _ induction => exact List.subset_append_of_subset_right _ induction
  | argument _ member _ induction =>
      exact List.Subset.trans induction (numberLiterals_subset_of_mem member)

section Evaluation

variable {context : Context}

/-- Of finite numbers, only finite ones are computed. -/
theorem isFinite_of_evaluate (record_finite : context.record.Finite) : ∀ expr : Expr,
    (∀ number ∈ expr.numberLiterals, number.isFinite = true) →
    ∀ {number : Number}, expr.evaluate context = .ok (.number number) → number.isFinite = true
  | literal value, literals, number, evaluates => by
      obtain rfl := Except.ok.inj ((evaluate_literal context value).symm.trans evaluates)
      exact literals number (List.mem_singleton_self number)
  | field name, _, number, evaluates => by
      have value_eq := Except.ok.inj ((evaluate_field context name).symm.trans evaluates)
      cases found : context.record.get? name with
      | none => simp [FieldRecord.valueOf, found] at value_eq
      | some value =>
          rw [FieldRecord.valueOf, found, Option.getD_some] at value_eq
          exact record_finite name number (found.trans (congrArg some value_eq))
  | negate operand, literals, number, evaluates => by
      rw [evaluate] at evaluates
      obtain ⟨value, operand_eq, negated⟩ := bind_eq_ok.1 evaluates
      cases value with
      | number inner =>
          obtain rfl := Value.number.inj (Except.ok.inj negated)
          rw [Number.isFinite_negate]
          exact isFinite_of_evaluate record_finite operand literals operand_eq
      | _ => cases negated
  | binary op left right, _, number, evaluates => by
      rw [evaluate] at evaluates
      obtain ⟨leftValue, -, applied⟩ := bind_eq_ok.1 evaluates
      obtain ⟨rightValue, -, computed⟩ := bind_eq_ok.1 applied
      exact BinaryOp.isFinite_of_apply computed
  | call function arguments, _, number, evaluates => by
      obtain ⟨error, -, call_eq⟩ | returns := evaluate_call_cases context function arguments
      · cases evaluates.symm.trans call_eq
      · rw [evaluates] at returns
        cases returns

/-- An expression stays within the finite numbers. -/
structure StaysFinite (context : Context) (expr : Expr) : Prop where
  /-- The value of a part is finite if it is a number. -/
  values : ∀ {part : Expr} {number : Number}, Part part expr →
    part.evaluate context = .ok (.number number) → number.isFinite = true
  /-- A comparison of two numbers has a verdict. -/
  comparisons : ∀ {op : BinaryOp} {left right : Expr} {leftNumber rightNumber : Number},
    Part (.binary op left right) expr → op.isArithmetic = false →
    left.evaluate context = .ok (.number leftNumber) →
    right.evaluate context = .ok (.number rightNumber) →
    ∃ verdict, (binary op left right).evaluate context = .ok (.boolean verdict)
  /-- The expression does not fail because of two numbers that cannot be compared. -/
  accepted : ∀ operator : String,
    expr.evaluate context ≠ .error (.incompatibleOperands operator "number" "number")

theorem staysFinite_of_literals (record_finite : context.record.Finite) {expr : Expr}
    (literals : ∀ number ∈ expr.numberLiterals, number.isFinite = true) :
    expr.StaysFinite context := by
  have values {part : Expr} {number : Number} (inner : Part part expr)
      (evaluates : part.evaluate context = .ok (.number number)) : number.isFinite = true :=
    isFinite_of_evaluate record_finite part
      (fun literal member => literals literal (inner.numberLiterals_subset member)) evaluates
  have operands {op : BinaryOp} {left right : Expr} (inner : Part (.binary op left right) expr) :
      Part left expr ∧ Part right expr :=
    ⟨((Part.whole left).left op right).trans inner, ((Part.whole right).right op left).trans inner⟩
  refine ⟨values, ?_, ?_⟩
  · intro op left right leftNumber rightNumber inner compares left_eq right_eq
    rw [evaluate, left_eq, right_eq]
    exact BinaryOp.exists_verdict_of_finite compares (values (operands inner).1 left_eq)
      (values (operands inner).2 right_eq)
  · intro operator fails
    obtain ⟨part, inner, raises⟩ := exists_raises expr fails
    obtain ⟨op, left, right, leftValue, rightValue, rfl, left_eq, right_eq, refused⟩ :=
      raises.exists_operation
    obtain ⟨first, second, rfl, rfl, not_finite⟩ := BinaryOp.not_finite_of_incompatible refused
    exact not_finite ⟨values (operands inner).1 left_eq, values (operands inner).2 right_eq⟩

end Evaluation

end Expr

/-! ## Numbers of tokens and forms -/

/-- The number that a token says. -/
def TokenKind.number? : TokenKind → Option Number
  | number value => some value
  | _ => none

theorem TokenKind.number?_eq_some_iff {kind : TokenKind} {value : Number} :
    kind.number? = some value ↔ kind = .number value := by
  cases kind <;> simp [number?]

namespace Grammar

theorem Joins.number?_eq_none {level : Level} {token : TokenKind} {op : BinaryOp}
    (joins : Joins level token op) : token.number? = none := by
  cases joins <;> rfl

mutual

/-- The numbers of an expression are those of its tokens. -/
theorem Phrase.numberLiterals_eq : ∀ {level : Level} (phrase : Phrase level),
    phrase.expr.numberLiterals = phrase.tokens.filterMap TokenKind.number?
  | _, .join token op joins left right => by
      rw [Phrase.expr, Phrase.tokens, Expr.numberLiterals, left.numberLiterals_eq,
        right.numberLiterals_eq, List.filterMap_append,
        List.filterMap_cons_none joins.number?_eq_none]
  | _, .lift _ inner => inner.numberLiterals_eq
  | _, .negation operand => operand.numberLiterals_eq
  | _, .number _ => rfl
  | _, .text _ => rfl
  | _, .field _ => rfl
  | _, .emptyCall _ => rfl
  | _, .call function arguments => by
      rw [Phrase.expr, Phrase.tokens, Expr.numberLiterals, arguments.numberLiterals_eq,
        List.filterMap_append]
      exact (List.append_nil _).symm
  | _, .group inner => by
      rw [Phrase.expr, Phrase.tokens, inner.numberLiterals_eq, List.filterMap_append]
      exact (List.append_nil _).symm

theorem Arguments.numberLiterals_eq : ∀ arguments : Arguments,
    Expr.allNumberLiterals arguments.exprs = arguments.tokens.filterMap TokenKind.number?
  | .last argument => by
      rw [Arguments.exprs, Arguments.tokens, Expr.allNumberLiterals, argument.numberLiterals_eq]
      exact List.append_nil _
  | .more argument rest => by
      rw [Arguments.exprs, Arguments.tokens, Expr.allNumberLiterals, argument.numberLiterals_eq,
        rest.numberLiterals_eq, List.filterMap_append]
      rfl

end

end Grammar

/-- A number that is read from a text is finite. -/
theorem Lexer.isFinite_of_mem_list {source : String} {tokens : List Token} {token : Token}
    {value : Number} (listed : Token.list source = .ok tokens) (member : token ∈ tokens)
    (kind_eq : token.kind = .number value) : value.isFinite = true := by
  obtain ⟨pieces, divides, rfl⟩ := exists_divides_of_list listed
  rcases exists_piece_of_mem_tokensOf member with rfl | ⟨front, piece, back, rfl, rfl⟩
  · exact nomatch kind_eq
  · have spells := (divides.of_mem (List.mem_append_right _ List.mem_cons_self)).2
    rw [show piece.kind = .number value from kind_eq] at spells
    obtain ⟨digit, tail, magnitude, -, ⟨-, rfl⟩ | ⟨-, rfl⟩⟩ := spells.number_cases <;> rfl

theorem Expr.isFinite_of_ofSource {limit : Nat} {source : String} {expr : Expr}
    (read : Expr.ofSource limit source = .ok expr) :
    ∀ number ∈ expr.numberLiterals, number.isFinite = true := by
  obtain ⟨tokens, listed, parsed⟩ := Expr.ofSource_eq_ok_iff.1 read
  obtain ⟨phrase, words_eq, rfl⟩ := Parser.derives_of_ofTokens parsed
  intro number literal
  rw [phrase.numberLiterals_eq, words_eq, List.mem_filterMap] at literal
  obtain ⟨kind, word, kind_eq⟩ := literal
  obtain ⟨token, member, rfl⟩ := List.mem_map.1 ((List.takeWhile_sublist _).subset word)
  exact Lexer.isFinite_of_mem_list listed member (TokenKind.number?_eq_some_iff.1 kind_eq)

/-- The numbers nearest to those of a form are finite. -/
def Form.Finite (form : Form) : Prop :=
  ∀ (name : String) (value : JsonNumber), form[name]? = some (.number value) →
    value.toNumber.isFinite = true

theorem FieldRecord.finite_of_ofForm {form : Form} {record : FieldRecord}
    (read : FieldRecord.ofForm form = .ok record) (finite : form.Finite) : record.Finite := by
  intro name number found
  rw [get?_ofForm read, Option.bind_eq_some_iff] at found
  obtain ⟨json, listed, converted⟩ := found
  cases json with
  | number value =>
      obtain rfl := Value.number.inj (Option.some.inj converted)
      exact finite name value listed
  | _ => exact nomatch converted

namespace Expr

/-- Where the numbers of the expression and of the record are finite, every number that is computed
is finite, and no comparison of two numbers is refused. Expressions that are read from a text and
records of forms are of this kind. -/
theorem evaluate_staysFinite :
    (∀ (expr : Expr) (context : Context),
      (∀ number ∈ expr.numberLiterals, number.isFinite = true) → context.record.Finite →
      expr.StaysFinite context) ∧
    ∀ (limits : Limits) (source : String) (compiled : CompiledExpression) (form : Form)
      (record : FieldRecord) (today : Date) (registry : Registry),
      CompiledExpression.ofSource limits source = .ok compiled →
      FieldRecord.ofForm form = .ok record → form.Finite →
      compiled.expr.StaysFinite ⟨record, today, registry⟩ := by
  constructor
  · intro expr context literals record_finite
    exact staysFinite_of_literals record_finite literals
  · intro limits source compiled form record today registry compiles read finite
    have expr_read := (CompiledExpression.ofSource_eq_ok_iff.1 compiles).2.1
    exact staysFinite_of_literals (FieldRecord.finite_of_ofForm read finite)
      (isFinite_of_ofSource expr_read)

/-- The negated remainder of a filled-in amount is finite and can be compared. -/
theorem evaluate_staysFinite_remainder :
    let source := "-(Amount % 7.5) < 2"
    let form : Form := Json.tree [("Amount", .number (.integer 10))]
    let today : Date := ⟨2024, 6, 1, by decide⟩
    ∃ compiled record, CompiledExpression.ofSource .standard source = .ok compiled ∧
      FieldRecord.ofForm form = .ok record ∧ form.Finite ∧
      compiled.expr.StaysFinite ⟨record, today, .builtin⟩ := by
  intro source form today
  have admitted : Limits.standard.Admit source := by decide +kernel
  obtain ⟨compiled, compiles⟩ := admitted
  obtain ⟨record, read⟩ : ∃ record, FieldRecord.ofForm form = .ok record := ⟨_, rfl⟩
  have listed : form.toList = [("Amount", .number (.integer 10))] := rfl
  have finite : form.Finite := by
    intro name value found
    have member := Std.TreeMap.mem_toList_iff_getElem?_eq_some.2 found
    rw [listed, List.mem_singleton] at member
    obtain ⟨-, json_eq⟩ := Prod.mk.inj member
    obtain rfl := Json.number.inj json_eq
    decide +kernel
  have stays := evaluate_staysFinite.2 .standard source compiled form record today .builtin
    compiles read finite
  exact ⟨compiled, record, compiles, read, finite, stays⟩

end Expr
end FormRules
