import FormRules.Expr
import FormRules.Token.Quoted

/-!
# The canonical text of an expression

Every binary operation stands in parentheses and so does every negated operand, which makes the
text independent of precedence. Texts and dates are quoted; other literals are written as their
values are.
-/

namespace FormRules.Expr

/-- The text of a literal. -/
def literalText : Value → List Char
  | .text content => Quoted.quote content.toList
  | .date date => '"' :: date.text ++ ['"']
  | value => value.display.toList

mutual

/-- The characters of the canonical text of an expression. -/
def spelling : Expr → List Char
  | literal value => literalText value
  | field name => name.toList
  | negate operand => '-' :: '(' :: operand.spelling ++ [')']
  | binary op left right =>
      '(' :: left.spelling ++ ' ' :: op.symbol.toList ++ ' ' :: right.spelling ++ [')']
  | call function arguments => function.toList ++ '(' :: argumentsText arguments ++ [')']

/-- The texts of the arguments of a call, with commas between them. -/
def argumentsText : List Expr → List Char
  | [] => []
  | [argument] => argument.spelling
  | argument :: next :: rest =>
      argument.spelling ++ ',' :: ' ' :: argumentsText (next :: rest)

end

/-- The canonical text of an expression. -/
def display (expr : Expr) : String :=
  String.ofList expr.spelling

end FormRules.Expr
