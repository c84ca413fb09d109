import FormRules.Expr
import FormRules.Function
import FormRules.Record
import FormRules.Value.Comparison

/-!
# The value of an expression

Expressions are evaluated on a record, at a date and with the functions of a registry. Operands are
evaluated from left to right; arithmetic takes numbers alone and fails where its result is not
finite.
-/

namespace FormRules

/-- What an expression is evaluated on. -/
structure Context where
  record : FieldRecord
  /-- The date that counts as the current one. -/
  today : Date
  registry : Registry := Registry.builtin

namespace BinaryOp

/-- The error of operands that the operator does not take. -/
def incompatible (op : BinaryOp) (left right : Value) : EvalError :=
  .incompatibleOperands op.symbol left.kind.name right.kind.name

/-- The arithmetic result, if it is finite. -/
def finiteResult (result : Number) : Except EvalError Value :=
  if result.isFinite then .ok (.number result) else .error .numericOverflow

/-- A quotient or remainder, which zero has none of. -/
def divided (operation : Number → Number → Number) (left right : Number) :
    Except EvalError Value :=
  if right.isZero then .error .divisionByZero else finiteResult (operation left right)

/-- The verdict on the order of two values, if they have one. -/
def ordered (op : BinaryOp) (holds : Ordering → Bool) (left right : Value) :
    Except EvalError Value :=
  match left.order? right with
  | some ordering => .ok (.boolean (holds ordering))
  | none => .error (op.incompatible left right)

/-- The result of arithmetic on two numbers. -/
def arithmetic (op : BinaryOp) (compute : Number → Number → Except EvalError Value) :
    Value → Value → Except EvalError Value
  | .number left, .number right => compute left right
  | left, right => .error (op.incompatible left right)

/-- The result of an operator on two values. -/
def apply (op : BinaryOp) (left right : Value) : Except EvalError Value :=
  match op with
  | eq => .ok (.boolean (left.looselyEqual right))
  | notEq => .ok (.boolean (!left.looselyEqual right))
  | lt => op.ordered (· == .lt) left right
  | ltEq => op.ordered (· != .gt) left right
  | gt => op.ordered (· == .gt) left right
  | gtEq => op.ordered (· != .lt) left right
  | add => op.arithmetic (fun a b => finiteResult (a.add b)) left right
  | sub => op.arithmetic (fun a b => finiteResult (a.sub b)) left right
  | mul => op.arithmetic (fun a b => finiteResult (a.mul b)) left right
  | div => op.arithmetic (divided Number.div) left right
  | mod => op.arithmetic (divided Number.rem) left right

end BinaryOp

/-- The value with the opposite sign. -/
def Value.negated : Value → Except EvalError Value
  | number value => .ok (.number value.negate)
  | other => .error (.typeMismatch ValueKind.number.name other.kind.name)

namespace Expr

mutual

/-- The value of an expression. -/
def evaluate (context : Context) : Expr → Except EvalError Value
  | literal value => .ok value
  | field name => .ok (context.record.valueOf name)
  | negate operand => do
      let value ← operand.evaluate context
      value.negated
  | binary op left right => do
      let leftValue ← left.evaluate context
      let rightValue ← right.evaluate context
      op.apply leftValue rightValue
  | call function arguments =>
      Id.run (context.registry.call context.today (fun delayed => pure (delayed ())) function
        (delayAll context arguments))

/-- The evaluations of expressions, each to be run when it is needed. -/
def delayAll (context : Context) : List Expr → List (Unit → Except EvalError Value)
  | [] => []
  | head :: rest => (fun _ => head.evaluate context) :: delayAll context rest

end

/-- The verdict of an expression that has to be boolean. -/
def evaluatePredicate (context : Context) (expr : Expr) : Except EvalError Bool := do
  match ← expr.evaluate context with
  | .boolean verdict => .ok verdict
  | other => .error (.nonBooleanResult other.kind.name)

/-- Evaluates an argument and notes that it was evaluated. -/
def evaluateNoted (context : Context) (argument : Expr) :
    StateM (List Expr) (Except EvalError Value) := do
  modify (· ++ [argument])
  return argument.evaluate context

/-- The result of a call, and the arguments that were evaluated for it, in order. -/
def traceCall (context : Context) (function : String) (arguments : List Expr) :
    Except EvalError Value × List Expr :=
  (context.registry.call context.today (evaluateNoted context) function arguments).run []

end Expr
end FormRules
