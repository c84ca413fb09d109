import FormRules.Proofs.Parser.Settling

/-!
# Reading by recursive descent

The reading of an expression as functions that call each other, one for each kind of construct. A
counter of the open constructs is raised when a construct is entered and lowered when it is left,
and a budget bounds how many calls are active at once. The constructs that the reader keeps on its
stack are here the calls that have not returned.
-/

namespace FormRules.Parser

/-- Why a descent ends without an expression. -/
inductive Halt where
  | fault (error : ParseError)
  /-- The counter of open constructs would have fallen below zero. -/
  | underflow
  /-- More calls than the budget allows would have been active. -/
  | exhausted

/-- The tokens from the current one on, and the counter of open constructs. -/
structure Cursor where
  tokens : List Token
  opened : Nat

namespace Cursor

/-- The current token. -/
def current (cursor : Cursor) : Token :=
  cursor.tokens.headD ⟨.endOfText, 0⟩

/-- Goes on to the next token, if there is one. -/
def advance : Cursor → Cursor
  | ⟨_ :: next :: rest, opened⟩ => ⟨next :: rest, opened⟩
  | cursor => cursor

/-- Counts one more construct, unless the limit is reached. -/
def enter (limit position : Nat) (cursor : Cursor) : Except Halt Cursor :=
  if cursor.opened + 1 ≤ limit then .ok ⟨cursor.tokens, cursor.opened + 1⟩
  else .error (.fault ((Fault.nestedTooDeep limit).error position))

/-- Counts one construct less. -/
def leave : Cursor → Except Halt Cursor
  | ⟨_, 0⟩ => .error .underflow
  | ⟨tokens, opened + 1⟩ => .ok ⟨tokens, opened⟩

/-- Goes past the parenthesis that closes the one opened at a place. -/
def expectRightParen (opening : Nat) (cursor : Cursor) : Except Halt Cursor :=
  match cursor.current.kind with
  | .rightParen => .ok cursor.advance
  | .endOfText => .error (.fault ((Fault.unclosedParen opening).error cursor.current.position))
  | kind => .error (.fault ((Fault.rightParenExpected kind).error cursor.current.position))

end Cursor

/-- What a function of the descent does: it reads something and goes on to the tokens behind it. -/
abbrev Reading (Result : Type) : Type :=
  Cursor → Except Halt (Result × Cursor)

/-- Rejects a node that would be too high. -/
def checkHeight (limit height position : Nat) : Except Halt Unit :=
  if limit < height then .error (.fault ((Fault.treeTooHigh limit).error position)) else .ok ()

/-- Reads on behind a left operand, of which the height runs along, while operators follow that
bind at least as tightly as the bound. The rounds only bound the repetition. -/
def readOperations (limit least : Nat) (operand : Nat → Reading Expr) :
    (rounds : Nat) → Expr → Nat → Reading Expr
  | 0, _, _, _ => .error .exhausted
  | rounds + 1, left, height, cursor =>
      match binaryOp? cursor.current.kind with
      | none => .ok (left, cursor)
      | some op =>
          if op.precedence < least then .ok (left, cursor)
          else do
            let (right, next) ← operand (op.precedence + 1) cursor.advance
            checkHeight limit (1 + max height right.height) cursor.current.position
            readOperations limit least operand rounds (.binary op left right)
              (1 + max height right.height) next

/-- Reads arguments behind some others, up to one that no comma follows. -/
def readArguments (function : String) (argument : Reading Expr) :
    (rounds : Nat) → List Expr → Reading (List Expr)
  | 0, _, _ => .error .exhausted
  | rounds + 1, given, cursor => do
      let (expr, next) ← argument cursor
      if next.current.kind = .comma then
        let behind := next.advance
        if behind.current.kind = .rightParen then
          .error (.fault ((Fault.trailingComma function).error behind.current.position))
        else readArguments function argument rounds (given ++ [expr]) behind
      else .ok (given ++ [expr], next)

mutual

/-- Reads an expression. -/
def readExpression (limit : Nat) : (budget : Nat) → Reading Expr
  | 0, _ => .error .exhausted
  | budget + 1, cursor => readBinary limit budget 0 cursor

/-- Reads an operand and the operations behind it that bind at least as tightly as the bound. -/
def readBinary (limit : Nat) : (budget least : Nat) → Reading Expr
  | 0, _, _ => .error .exhausted
  | budget + 1, least, cursor => do
      let (left, next) ← readUnary limit budget cursor
      readOperations limit least (fun tighter => readBinary limit budget tighter)
        next.tokens.length left left.height next

/-- Reads a primary with the minus signs in front of it. -/
def readUnary (limit : Nat) : (budget : Nat) → Reading Expr
  | 0, _ => .error .exhausted
  | budget + 1, cursor =>
      if cursor.current.kind = .minus then do
        let entered ← cursor.advance.enter limit cursor.current.position
        let (operand, next) ← readUnary limit budget entered
        let left ← next.leave
        checkHeight limit (1 + operand.height) cursor.current.position
        return (.negate operand, left)
      else readPrimary limit budget cursor

/-- Reads a literal, a field, a call or a group. -/
def readPrimary (limit : Nat) : (budget : Nat) → Reading Expr
  | 0, _ => .error .exhausted
  | budget + 1, cursor =>
      match cursor.current.kind with
      | .number value => .ok (.literal (.number value), cursor.advance)
      | .text content => .ok (.literal (.text content), cursor.advance)
      | .identifier name =>
          if cursor.advance.current.kind = .leftParen then
            readCall limit budget name cursor.current.position cursor.advance
          else .ok (.field name, cursor.advance)
      | .leftParen => do
          let entered ← cursor.advance.enter limit cursor.current.position
          let (expr, next) ← readExpression limit budget entered
          let left ← next.leave
          let closed ← left.expectRightParen cursor.current.position
          return (expr, closed)
      | .endOfText => .error (.fault (Fault.missingOperand.error cursor.current.position))
      | kind => .error (.fault ((Fault.operandExpected kind).error cursor.current.position))

/-- Reads the arguments of a call, from the parenthesis behind the name of the function on. -/
def readCall (limit : Nat) : (budget : Nat) → String → (position : Nat) → Reading Expr
  | 0, _, _, _ => .error .exhausted
  | budget + 1, function, position, cursor => do
      let entered ← cursor.advance.enter limit position
      let (arguments, next) ←
        if entered.current.kind = .rightParen then .ok ([], entered)
        else
          readArguments function (fun cursor => readExpression limit budget cursor)
            entered.tokens.length [] entered
      let left ← next.leave
      let closed ← left.expectRightParen cursor.current.position
      checkHeight limit (1 + Expr.maxHeight arguments) position
      return (.call function arguments, closed)

end

/-- Some tokens, with the end of the text behind them if it is not there. -/
def withEnd (tokens : List Token) : List Token :=
  match tokens.getLast? with
  | some ⟨.endOfText, _⟩ => tokens
  | _ => tokens ++ [⟨.endOfText, endPosition tokens⟩]

/-- Reads tokens as one whole expression. -/
def descend (limit budget : Nat) (tokens : List Token) : Except Halt Expr := do
  let cursor : Cursor := ⟨withEnd tokens, 0⟩
  if cursor.current.kind = .endOfText then
    .error (.fault (Fault.emptyExpression.error cursor.current.position))
  else
    let (expr, rest) ← readExpression limit budget cursor
    match rest.current.kind with
    | .endOfText => .ok expr
    | .rightParen => .error (.fault (Fault.surplusRightParen.error rest.current.position))
    | kind => .error (.fault ((Fault.surplusToken kind).error rest.current.position))

/-! ## Cursors -/

namespace Cursor

/-- The end of the text is still ahead. -/
def Sealed (cursor : Cursor) : Prop :=
  ∃ token ∈ cursor.tokens, token.kind = .endOfText

theorem Sealed.exists_rest {cursor : Cursor} (ended : cursor.Sealed) :
    ∃ rest, cursor.tokens = cursor.current :: rest := by
  obtain ⟨token, member, -⟩ := ended
  obtain ⟨_ | ⟨head, rest⟩, opened⟩ := cursor
  · exact absurd member List.not_mem_nil
  · exact ⟨rest, rfl⟩

/-- Before the end of the text, the cursor goes on by one token. -/
theorem Sealed.advance {cursor : Cursor} (ended : cursor.Sealed)
    (more : cursor.current.kind ≠ .endOfText) :
    cursor.tokens = cursor.current :: cursor.advance.tokens ∧
      cursor.advance.opened = cursor.opened ∧ cursor.advance.Sealed := by
  obtain ⟨token, member, last⟩ := ended
  match cursor, member with
  | ⟨[head], opened⟩, member =>
      obtain rfl := List.mem_singleton.1 member
      exact absurd last more
  | ⟨head :: next :: rest, opened⟩, member =>
      rcases List.mem_cons.1 member with rfl | behind
      · exact absurd last more
      · exact ⟨rfl, rfl, token, behind, last⟩

theorem nextBound_tokens (cursor : Cursor) :
    nextBound cursor.tokens =
      ((binaryOp? cursor.current.kind).map BinaryOp.precedence).getD 0 := by
  obtain ⟨_ | ⟨head, rest⟩, opened⟩ := cursor <;> rfl

theorem sealed_withEnd (tokens : List Token) : (⟨withEnd tokens, 0⟩ : Cursor).Sealed := by
  unfold withEnd
  split
  · next position last =>
      exact ⟨_, List.mem_of_getLast? last, rfl⟩
  · exact ⟨_, List.mem_append_right _ List.mem_cons_self, rfl⟩

end Cursor

end FormRules.Parser
