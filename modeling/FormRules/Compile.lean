import FormRules.Expr.Parser

/-!
# Compiling expressions

Compiling reads the tree of an expression within limits on the length of its text and on its depth,
and collects the fields that it refers to.
-/

namespace FormRules

/-- The resources that an expression may use. -/
structure Limits where
  /-- The greatest length of the text in bytes. -/
  maxExpressionLength : Nat
  /-- The greatest depth of the tree and of open constructs. -/
  maxDepth : Nat
deriving DecidableEq

namespace Limits

/-- The limits that apply where none are given. -/
def standard : Limits := ⟨4096, Expr.defaultMaxDepth⟩

end Limits

/-- An expression that was read. -/
structure CompiledExpression where
  /-- The text of the expression. -/
  source : String
  expr : Expr
  /-- The fields that the expression refers to. -/
  requiredFields : Std.TreeSet String

/-- The error of a text that is too long. -/
def ParseError.tooLong (length limit : Nat) : ParseError :=
  ⟨limit, s!"表达式长度 {length} 超过上限 {limit}"⟩

namespace CompiledExpression

/-- Compiles an expression within limits. -/
def ofSource (limits : Limits) (source : String) : Except RuleError CompiledExpression :=
  let length := source.utf8ByteSize
  if limits.maxExpressionLength < length then
    .error (.parse (.tooLong length limits.maxExpressionLength))
  else
    (Expr.ofSource limits.maxDepth source).map fun expr =>
      ⟨source, expr, expr.referencedFields⟩

end CompiledExpression
end FormRules
