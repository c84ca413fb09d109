import FormRules.Value
import Std.Data.TreeSet

/-!
# Expressions

The trees of the expression language, their height and the fields they refer to. A call keeps its
arguments as they stand; whether the function exists and takes that many is found out when it is
evaluated.
-/

namespace FormRules

/-- The operators between two operands. -/
inductive BinaryOp where
  | add
  | sub
  | mul
  | div
  | mod
  | eq
  | notEq
  | lt
  | ltEq
  | gt
  | gtEq
deriving DecidableEq

namespace BinaryOp

/-- The spelling of an operator. -/
def symbol : BinaryOp → String
  | add => "+"
  | sub => "-"
  | mul => "*"
  | div => "/"
  | mod => "%"
  | eq => "="
  | notEq => "!="
  | lt => "<"
  | ltEq => "<="
  | gt => ">"
  | gtEq => ">="

/-- The operators that compute numbers. -/
def isArithmetic : BinaryOp → Bool
  | add | sub | mul | div | mod => true
  | _ => false

/-- How tightly an operator binds: equality least, then order, sums and products. -/
def precedence : BinaryOp → Nat
  | eq | notEq => 1
  | lt | ltEq | gt | gtEq => 2
  | add | sub => 3
  | mul | div | mod => 4

end BinaryOp

/-- An expression. -/
inductive Expr where
  | literal (value : Value)
  /-- The value of a field of the record, null if the record lacks it. -/
  | field (name : String)
  | negate (operand : Expr)
  | binary (op : BinaryOp) (left right : Expr)
  | call (function : String) (arguments : List Expr)

namespace Expr

mutual

/-- The height of an expression; a leaf has height one. -/
def height : Expr → Nat
  | literal _ => 1
  | field _ => 1
  | negate operand => 1 + operand.height
  | binary _ left right => 1 + max left.height right.height
  | call _ arguments => 1 + maxHeight arguments

/-- The greatest height among expressions, zero if there are none. -/
def maxHeight : List Expr → Nat
  | [] => 0
  | head :: rest => max head.height (maxHeight rest)

end

mutual

/-- The names of the fields in an expression, in the order of the text and with repetitions. -/
def fieldNames : Expr → List String
  | literal _ => []
  | field name => [name]
  | negate operand => operand.fieldNames
  | binary _ left right => left.fieldNames ++ right.fieldNames
  | call _ arguments => allFieldNames arguments

/-- The names of the fields in a list of expressions. -/
def allFieldNames : List Expr → List String
  | [] => []
  | head :: rest => head.fieldNames ++ allFieldNames rest

end

/-- The set of fields that an expression refers to. -/
def referencedFields (expr : Expr) : Std.TreeSet String :=
  .ofList expr.fieldNames

mutual

/-- Two expressions are the same if they have the same shape and the same values at the leaves. -/
def same : Expr → Expr → Bool
  | literal left, literal right => left.same right
  | field left, field right => left == right
  | negate left, negate right => left.same right
  | binary leftOp left₁ left₂, binary rightOp right₁ right₂ =>
      leftOp == rightOp && left₁.same right₁ && left₂.same right₂
  | call leftName left, call rightName right => leftName == rightName && allSame left right
  | _, _ => false

/-- Two lists of expressions are the same, one by one. -/
def allSame : List Expr → List Expr → Bool
  | [], [] => true
  | left :: lefts, right :: rights => left.same right && allSame lefts rights
  | _, _ => false

end

end Expr
end FormRules
