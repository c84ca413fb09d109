import FormRules.Error
import FormRules.Expr
import FormRules.Token.Lexer

/-!
# Reading an expression from its tokens

The reader goes once over the tokens and keeps the constructs that are still open on a stack: a
minus sign in front of its operand, a binary operation that waits for its right operand, a group in
parentheses and a call with the arguments read so far. When an operand is complete, the next token
decides which of the operations on the stack take it: all that bind at least as tightly, so that
operators associate to the left.

A limit bounds both the number of minus signs, groups and calls that are open at once and the
height of the trees that are built. The heights run along with the operands and are checked before
a node is built.
-/

namespace FormRules
namespace Parser

/-- Why the tokens are no expression. -/
inductive Fault where
  | emptyExpression
  | missingOperand
  | operandExpected (found : TokenKind)
  | surplusRightParen
  | surplusToken (found : TokenKind)
  /-- The parenthesis that was opened at a place is never closed. -/
  | unclosedParen (opening : Nat)
  | rightParenExpected (found : TokenKind)
  | trailingComma (function : String)
  | nestedTooDeep (limit : Nat)
  | treeTooHigh (limit : Nat)
deriving DecidableEq

namespace Fault

/-- The description of a fault. -/
def message : Fault → String
  | emptyExpression => "表达式为空"
  | missingOperand => "缺少操作数"
  | operandExpected found => s!"此处需要操作数, 却遇到 {found.describe}"
  | surplusRightParen => "多余的右括号"
  | surplusToken found => s!"表达式结束后出现多余的 {found.describe}"
  | unclosedParen opening => s!"位置 {opening} 的左括号缺少匹配的右括号"
  | rightParenExpected found => s!"此处需要 ')', 却遇到 {found.describe}"
  | trailingComma function => s!"函数 {function} 的参数列表末尾多了逗号"
  | nestedTooDeep limit => s!"表达式嵌套超过最大深度 {limit}"
  | treeTooHigh limit => s!"表达式语法树深度超过最大深度 {limit}"

/-- The fault at a place, as an error. -/
def error (fault : Fault) (position : Nat) : ParseError :=
  ⟨position, fault.message⟩

end Fault

/-- A complete operand, with the height that the limit is checked against. -/
structure Operand where
  expr : Expr
  height : Nat

/-- A construct that waits for its last part. -/
inductive Frame where
  /-- A minus sign, at its place. -/
  | negation (position : Nat)
  /-- A binary operation without its right operand, at the place of its operator. -/
  | operation (left : Operand) (op : BinaryOp) (position : Nat)
  /-- A group, at the place of its parenthesis. -/
  | group (opening : Nat)
  /-- A call with the arguments read so far, the last one first; its places are those of its name
  and of its parenthesis. -/
  | call (function : String) (position opening : Nat) (arguments : List Operand)

/-- The frames that count against the limit. -/
def Frame.isOpen : Frame → Bool
  | operation .. => false
  | _ => true

/-- How many constructs are open. -/
def depth (frames : List Frame) : Nat :=
  frames.countP Frame.isOpen

/-- What was read last. -/
inductive Focus where
  /-- Nothing that could end an operand: one has to follow. -/
  | operand
  /-- A name, which is a function if a parenthesis follows and a field otherwise. -/
  | name (name : String) (position : Nat)
  /-- A complete operand. -/
  | complete (operand : Operand)

/-- The state of the reader between two tokens. -/
structure State where
  /-- The open constructs, the innermost first. -/
  frames : List Frame
  focus : Focus

/-- Nothing is read. -/
def State.initial : State := ⟨[], .operand⟩

/-- A leaf of the tree. -/
def Operand.leaf (expr : Expr) : Operand := ⟨expr, 1⟩

/-- The operator that a token spells. -/
def binaryOp? : TokenKind → Option BinaryOp
  | .plus => some .add
  | .minus => some .sub
  | .star => some .mul
  | .slash => some .div
  | .percent => some .mod
  | .equal => some .eq
  | .notEqual => some .notEq
  | .less => some .lt
  | .lessEqual => some .ltEq
  | .greater => some .gt
  | .greaterEqual => some .gtEq
  | _ => none

/-- Opens a construct, if the limit admits one more. -/
def openFrame (limit : Nat) (frame : Frame) (position : Nat) (frames : List Frame) :
    Except ParseError State :=
  if depth frames < limit then .ok ⟨frame :: frames, .operand⟩
  else .error ((Fault.nestedTooDeep limit).error position)

/-- A new node, if the limit admits its height. -/
def build (limit : Nat) (expr : Expr) (height position : Nat) : Except ParseError Operand :=
  if height ≤ limit then .ok ⟨expr, height⟩
  else .error ((Fault.treeTooHigh limit).error position)

/-- Hands a complete operand to the minus signs and operations that take it, from the innermost
outwards, up to the first operation that binds less tightly than the bound. -/
def settle (limit bound : Nat) : List Frame → Operand → Except ParseError (List Frame × Operand)
  | .negation position :: frames, operand => do
      let node ← build limit (.negate operand.expr) (1 + operand.height) position
      settle limit bound frames node
  | .operation left op position :: frames, operand =>
      if bound ≤ op.precedence then do
        let node ← build limit (.binary op left.expr operand.expr)
          (1 + max left.height operand.height) position
        settle limit bound frames node
      else .ok (.operation left op position :: frames, operand)
  | frames, operand => .ok (frames, operand)

/-- The greatest of the heights of some operands, zero if there are none. -/
def greatestHeight (operands : List Operand) : Nat :=
  operands.foldr (fun operand height => max operand.height height) 0

/-- Closes a call. Its arguments come last one first. -/
def closeCall (limit : Nat) (function : String) (position : Nat) (arguments : List Operand)
    (frames : List Frame) : Except ParseError State := do
  let expr := Expr.call function (arguments.reverse.map Operand.expr)
  let node ← build limit expr (1 + greatestHeight arguments) position
  return ⟨frames, .complete node⟩

/-- Reads a token where an operand has to start. -/
def readOperand (limit : Nat) (frames : List Frame) (token : Token) : Except ParseError State :=
  match token.kind with
  | .number value => .ok ⟨frames, .complete (.leaf (.literal (.number value)))⟩
  | .text content => .ok ⟨frames, .complete (.leaf (.literal (.text content)))⟩
  | .identifier name => .ok ⟨frames, .name name token.position⟩
  | .minus => openFrame limit (.negation token.position) token.position frames
  | .leftParen => openFrame limit (.group token.position) token.position frames
  | .rightParen =>
      match frames with
      | .call function position _ [] :: outer => closeCall limit function position [] outer
      | .call function _ _ _ :: _ => .error ((Fault.trailingComma function).error token.position)
      | _ => .error ((Fault.operandExpected .rightParen).error token.position)
  | kind => .error ((Fault.operandExpected kind).error token.position)

/-- Reads a token behind an operand that no operation takes any more. -/
def readDelimiter (limit : Nat) (frames : List Frame) (operand : Operand) (token : Token) :
    Except ParseError State :=
  match frames, token.kind with
  | .group _ :: outer, .rightParen => .ok ⟨outer, .complete operand⟩
  | .call function position opening arguments :: outer, .comma =>
      .ok ⟨.call function position opening (operand :: arguments) :: outer, .operand⟩
  | .call function position _ arguments :: outer, .rightParen =>
      closeCall limit function position (operand :: arguments) outer
  | [], .rightParen => .error (Fault.surplusRightParen.error token.position)
  | [], kind => .error ((Fault.surplusToken kind).error token.position)
  | _, kind => .error ((Fault.rightParenExpected kind).error token.position)

/-- Reads a token behind a complete operand. -/
def readAfter (limit : Nat) (frames : List Frame) (operand : Operand) (token : Token) :
    Except ParseError State :=
  match binaryOp? token.kind with
  | some op => do
      let (outer, left) ← settle limit op.precedence frames operand
      return ⟨.operation left op token.position :: outer, .operand⟩
  | none => do
      let (outer, whole) ← settle limit 0 frames operand
      readDelimiter limit outer whole token

/-- Reads one token. -/
def step (limit : Nat) (state : State) (token : Token) : Except ParseError State :=
  match state.focus with
  | .operand => readOperand limit state.frames token
  | .name name position =>
      if token.kind = .leftParen then
        openFrame limit (.call name position token.position []) position state.frames
      else readAfter limit state.frames (.leaf (.field name)) token
  | .complete operand => readAfter limit state.frames operand token

/-- The whole expression, if nothing is open at the end of the text. -/
def finishOperand (limit : Nat) (frames : List Frame) (operand : Operand) (position : Nat) :
    Except ParseError Expr := do
  let (outer, whole) ← settle limit 0 frames operand
  match outer with
  | .group opening :: _ => .error ((Fault.unclosedParen opening).error position)
  | .call _ _ opening _ :: _ => .error ((Fault.unclosedParen opening).error position)
  | _ => .ok whole.expr

/-- The expression at the end of the text. -/
def finish (limit : Nat) (state : State) (position : Nat) : Except ParseError Expr :=
  match state.focus with
  | .operand =>
      match state.frames with
      | [] => .error (Fault.emptyExpression.error position)
      | _ => .error (Fault.missingOperand.error position)
  | .name name _ => finishOperand limit state.frames (.leaf (.field name)) position
  | .complete operand => finishOperand limit state.frames operand position

/-- Reads tokens up to the first end of the text. A list without one ends behind its last token. -/
def run (limit finalPosition : Nat) : State → List Token → Except ParseError Expr
  | state, [] => finish limit state finalPosition
  | state, token :: tokens =>
      if token.kind = .endOfText then finish limit state token.position
      else do
        let next ← step limit state token
        run limit finalPosition next tokens

/-- The place behind the last of some tokens. -/
def endPosition (tokens : List Token) : Nat :=
  (tokens.getLast?.map (·.position + 1)).getD 0

end Parser

namespace Expr

/-- The depth limit that applies where none is given. -/
def defaultMaxDepth : Nat := 64

/-- The expression that a list of tokens spells under a depth limit. -/
def ofTokens (limit : Nat) (tokens : List Token) : Except ParseError Expr :=
  Parser.run limit (Parser.endPosition tokens) Parser.State.initial tokens

/-- The expression that a text spells under a depth limit. -/
def ofSource (limit : Nat) (source : String) : Except RuleError Expr := do
  let tokens ← (Token.list source).mapError RuleError.lex
  (ofTokens limit tokens).mapError RuleError.parse

end Expr
end FormRules
