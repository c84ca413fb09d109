import FormRules.Proofs.Compilation
import FormRules.Proofs.Function.Junction

/-!
# How an evaluation ends

What an operator gives on two values and what a call gives on its arguments, case by case. An
expression without a value has a part that fails by itself, while all that this part evaluates has
values.
-/

namespace FormRules

namespace BinaryOp

/-- What an operator gives on two values. -/
inductive Results (op : BinaryOp) (left right : Value) : Except EvalError Value → Prop where
  | verdict (compares : op.isArithmetic = false) (verdict : Bool) :
      Results op left right (.ok (.boolean verdict))
  | number (computes : op.isArithmetic = true) {result : Number} (finite : result.isFinite = true) :
      Results op left right (.ok (.number result))
  | overflow (computes : op.isArithmetic = true) : Results op left right (.error .numericOverflow)
  | zeroDivisor (computes : op.isArithmetic = true) :
      Results op left right (.error .divisionByZero)
  /-- Two numbers are refused only if they are compared and have no order. -/
  | incompatible (unfit : ∀ first second : Number, left = .number first → right = .number second →
      op.isArithmetic = false ∧ first.order? second = none) :
      Results op left right (.error (op.incompatible left right))

section

variable (op : BinaryOp) (left right : Value)

theorem finiteResult_results (computes : op.isArithmetic = true) (result : Number) :
    Results op left right (finiteResult result) := by
  unfold finiteResult
  split
  case isTrue finite => exact .number computes finite
  case isFalse => exact .overflow computes

theorem divided_results (computes : op.isArithmetic = true)
    (operation : Number → Number → Number) (dividend divisor : Number) :
    Results op left right (divided operation dividend divisor) := by
  unfold divided
  split
  · exact .zeroDivisor computes
  · exact finiteResult_results op left right computes _

theorem ordered_results (compares : op.isArithmetic = false) (holds : Ordering → Bool) :
    Results op left right (op.ordered holds left right) := by
  unfold ordered
  split
  case h_1 => exact .verdict compares _
  case h_2 none =>
    refine .incompatible ?_
    rintro first second rfl rfl
    exact ⟨compares, none⟩

theorem arithmetic_results {compute : Number → Number → Except EvalError Value}
    (results : ∀ first second, Results op left right (compute first second)) :
    Results op left right (op.arithmetic compute left right) := by
  fun_cases arithmetic op compute left right with
  | case1 first second => exact results first second
  | case2 =>
      rename_i other
      exact .incompatible fun first second left_eq right_eq =>
        (other first second left_eq right_eq).elim

theorem apply_results : Results op left right (op.apply left right) := by
  cases op with
  | eq | notEq => exact .verdict rfl _
  | lt | ltEq | gt | gtEq => exact ordered_results _ left right rfl _
  | add | sub | mul =>
      exact arithmetic_results _ left right fun _ _ => finiteResult_results _ left right rfl _
  | div | mod =>
      exact arithmetic_results _ left right fun _ _ => divided_results _ left right rfl _ _ _

end

end BinaryOp

namespace Builtin

/-- What a function returns on arguments whose evaluation has no effects. -/
inductive Returns (arguments : List (Unit → Except EvalError Value)) :
    Except EvalError Value → Prop where
  | boolean (verdict : Bool) : Returns arguments (.ok (.boolean verdict))
  | date (today : Date) : Returns arguments (.ok (.date today))
  /-- The error of an argument is passed on. -/
  | failure {argument : Unit → Except EvalError Value} (member : argument ∈ arguments)
      {error : EvalError} (fails : argument () = .error error) : Returns arguments (.error error)
  | notBoolean {argument : Unit → Except EvalError Value} (member : argument ∈ arguments)
      {value : Value} (found : argument () = .ok value) (other : value.kind ≠ .boolean) :
      Returns arguments (.error (.typeMismatch "boolean" value.kind.name))

theorem Returns.behind {arguments : List (Unit → Except EvalError Value)}
    {result : Except EvalError Value} (returns : Returns arguments result)
    (argument : Unit → Except EvalError Value) : Returns (argument :: arguments) result := by
  cases returns with
  | boolean verdict => exact .boolean verdict
  | date today => exact .date today
  | failure member fails => exact .failure (List.mem_cons_of_mem _ member) fails
  | notBoolean member found other => exact .notBoolean (List.mem_cons_of_mem _ member) found other

theorem whileFlag_returns (flag : Bool) (arguments : List (Unit → Except EvalError Value)) :
    Returns arguments
      (Id.run (whileFlag (fun delayed => pure (delayed ())) flag arguments)) := by
  induction arguments with
  | nil => exact .boolean flag
  | cons argument rest induction =>
      rw [whileFlag_cons, pure_bind]
      rcases flag_or_decides flag (argument ()) with passes | ⟨result, decides⟩
      · rw [passes, proceed_flag]
        exact induction.behind argument
      · rw [proceed_of_decides decides]
        generalize found : argument () = outcome at decides
        cases decides with
        | opposite => exact .boolean _
        | failure error => exact .failure List.mem_cons_self found
        | notBoolean other => exact .notBoolean List.mem_cons_self found other

theorem blankness_returns (arguments : List (Unit → Except EvalError Value)) :
    Returns arguments (Id.run (blankness (fun delayed => pure (delayed ())) arguments)) := by
  cases arguments with
  | nil => exact .boolean true
  | cons argument rest =>
      change Returns _ ((argument ()).map _)
      cases found : argument () with
      | ok value => exact .boolean _
      | error error => exact .failure List.mem_cons_self found

theorem apply_returns (builtin : Builtin) (today : Date)
    (arguments : List (Unit → Except EvalError Value)) :
    Returns arguments
      (Id.run (builtin.apply (fun delayed => pure (delayed ())) today arguments)) := by
  cases builtin with
  | isBlank => exact blankness_returns arguments
  | today => exact .date today
  | conjunction => exact whileFlag_returns true arguments
  | disjunction => exact whileFlag_returns false arguments

end Builtin

/-- A name is refused because nothing has it, or because of the number of arguments. -/
theorem Registry.error_of_resolve {registry : Registry} {name : String} {count : Nat}
    {error : EvalError} (refused : registry.resolve name count = .error error) :
    error = .unknownFunction name ∨ ∃ expected, error = .arityMismatch name expected count := by
  unfold resolve at refused
  split at refused
  case h_1 => exact .inl (Except.error.inj refused).symm
  case h_2 function _ =>
    split at refused
    · exact nomatch refused
    · exact .inr ⟨_, (Except.error.inj refused).symm⟩

namespace Expr

/-! ## Parts of an expression -/

/-- An expression is the whole or a part of another one. -/
inductive Part : Expr → Expr → Prop where
  | whole (expr : Expr) : Part expr expr
  | operand {part operand : Expr} (inner : Part part operand) : Part part (.negate operand)
  | left {part left : Expr} (inner : Part part left) (op : BinaryOp) (right : Expr) :
      Part part (.binary op left right)
  | right {part right : Expr} (inner : Part part right) (op : BinaryOp) (left : Expr) :
      Part part (.binary op left right)
  | argument {part argument : Expr} (inner : Part part argument) {arguments : List Expr}
      (member : argument ∈ arguments) (function : String) : Part part (.call function arguments)

theorem Part.trans {part middle expr : Expr} (inner : Part part middle) (outer : Part middle expr) :
    Part part expr := by
  induction outer with
  | whole => exact inner
  | operand _ induction => exact induction.operand
  | left _ op right induction => exact induction.left op right
  | right _ op left induction => exact induction.right op left
  | argument _ member function induction => exact induction.argument member function

/-! ## Failing parts -/

/-- A call is refused, or it returns what its function does on the values of the arguments. -/
theorem evaluate_call_cases (context : Context) (function : String) (arguments : List Expr) :
    (∃ error, context.registry.resolve function arguments.length = .error error ∧
      (call function arguments).evaluate context = .error error) ∨
    Builtin.Returns (arguments.map fun argument _ => argument.evaluate context)
      ((call function arguments).evaluate context) := by
  rw [evaluate, delayAll_eq_map, Registry.call, List.length_map]
  cases context.registry.resolve function arguments.length with
  | error error => exact .inl ⟨error, rfl, rfl⟩
  | ok builtin => exact .inr (builtin.apply_returns _ _)

section Failure

variable {context : Context}

/-- An expression fails by itself: what it evaluates has values. -/
inductive Raises (context : Context) : Expr → EvalError → Prop where
  | negation {operand : Expr} {value : Value} (operand_eq : operand.evaluate context = .ok value)
      {error : EvalError} (fails : value.negated = .error error) :
      Raises context (.negate operand) error
  | operation {op : BinaryOp} {left right : Expr} {leftValue rightValue : Value}
      (left_eq : left.evaluate context = .ok leftValue)
      (right_eq : right.evaluate context = .ok rightValue) {error : EvalError}
      (fails : op.apply leftValue rightValue = .error error) :
      Raises context (.binary op left right) error
  | notBoolean {function : String} {arguments : List Expr} {argument : Expr}
      (member : argument ∈ arguments) {value : Value}
      (argument_eq : argument.evaluate context = .ok value) (other : value.kind ≠ .boolean) :
      Raises context (.call function arguments) (.typeMismatch "boolean" value.kind.name)
  | refusedCall {function : String} {arguments : List Expr} {error : EvalError}
      (refused : context.registry.resolve function arguments.length = .error error) :
      Raises context (.call function arguments) error

/-- The error of an expression is the error of a part that fails by itself. -/
theorem exists_raises : ∀ (expr : Expr) {error : EvalError},
    expr.evaluate context = .error error → ∃ part, Part part expr ∧ Raises context part error
  | literal value, error, fails => nomatch (evaluate_literal context value).symm.trans fails
  | field name, error, fails => nomatch (evaluate_field context name).symm.trans fails
  | negate operand, error, fails => by
      rw [evaluate] at fails
      rcases bind_eq_error.1 fails with operand_fails | ⟨value, operand_eq, refused⟩
      · obtain ⟨part, inner, raises⟩ := exists_raises operand operand_fails
        exact ⟨part, inner.operand, raises⟩
      · exact ⟨_, .whole _, .negation operand_eq refused⟩
  | binary op left right, error, fails => by
      rw [evaluate] at fails
      rcases bind_eq_error.1 fails with left_fails | ⟨leftValue, left_eq, later⟩
      · obtain ⟨part, inner, raises⟩ := exists_raises left left_fails
        exact ⟨part, inner.left op right, raises⟩
      · rcases bind_eq_error.1 later with right_fails | ⟨rightValue, right_eq, refused⟩
        · obtain ⟨part, inner, raises⟩ := exists_raises right right_fails
          exact ⟨part, inner.right op left, raises⟩
        · exact ⟨_, .whole _, .operation left_eq right_eq refused⟩
  | call function arguments, error, fails => by
      obtain ⟨other, refused, call_eq⟩ | returns := evaluate_call_cases context function arguments
      · obtain rfl := Except.error.inj (call_eq.symm.trans fails)
        exact ⟨_, .whole _, .refusedCall refused⟩
      · rw [fails] at returns
        cases returns with
        | failure member argument_fails =>
            obtain ⟨argument, listed, rfl⟩ := List.mem_map.1 member
            obtain ⟨part, inner, raises⟩ := exists_raises argument argument_fails
            exact ⟨part, inner.argument listed function, raises⟩
        | notBoolean member found other =>
            obtain ⟨argument, listed, rfl⟩ := List.mem_map.1 member
            exact ⟨_, .whole _, .notBoolean listed found other⟩

/-- An error about two operands is raised by an operation on them. -/
theorem Raises.exists_operation {part : Expr} {operator left right : String}
    (raises : Raises context part (.incompatibleOperands operator left right)) :
    ∃ op leftPart rightPart leftValue rightValue, part = .binary op leftPart rightPart ∧
      leftPart.evaluate context = .ok leftValue ∧ rightPart.evaluate context = .ok rightValue ∧
      op.apply leftValue rightValue = .error (.incompatibleOperands operator left right) := by
  cases raises with
  | @negation operand value operand_eq _ fails => cases value <;> exact nomatch fails
  | operation left_eq right_eq fails => exact ⟨_, _, _, _, _, rfl, left_eq, right_eq, fails⟩
  | refusedCall refused =>
      rcases Registry.error_of_resolve refused with unknown | ⟨expected, mismatch⟩
      · exact nomatch unknown
      · exact nomatch mismatch

end Failure

end Expr
end FormRules
