import FormRules.Number.Shortest

/-!
# Tokens

The words of the expression language. Each token carries the byte offset at which it starts, and
its kind carries what it says.
-/

namespace FormRules

/-- What a token says. -/
inductive TokenKind where
  /-- The name of a field or of a function. -/
  | identifier (name : String)
  /-- A number, with the sign that belongs to it. -/
  | number (value : Number)
  /-- The content of a quoted text. -/
  | text (content : String)
  | plus
  | minus
  | star
  | slash
  | percent
  | less
  | lessEqual
  | greater
  | greaterEqual
  | equal
  | notEqual
  | leftParen
  | rightParen
  | comma
  | endOfText
deriving DecidableEq

/-- A token at its place in the expression. -/
structure Token where
  kind : TokenKind
  /-- The byte offset of the first character. -/
  position : Nat
deriving DecidableEq

namespace TokenKind

/-- An operand may end with this token, so that a minus behind it subtracts. -/
def endsOperand : TokenKind → Bool
  | identifier _ | number _ | text _ | rightParen => true
  | _ => false

/-- A short description for messages. -/
def describe : TokenKind → String
  | identifier name => s!"标识符 '{name}'"
  | number value => s!"数值 {String.ofList value.text}"
  | text content => s!"字符串 \"{content}\""
  | plus => "'+'"
  | minus => "'-'"
  | star => "'*'"
  | slash => "'/'"
  | percent => "'%'"
  | less => "'<'"
  | lessEqual => "'<='"
  | greater => "'>'"
  | greaterEqual => "'>='"
  | equal => "'='"
  | notEqual => "'!='"
  | leftParen => "'('"
  | rightParen => "')'"
  | comma => "','"
  | endOfText => "表达式结尾"

end TokenKind
end FormRules
