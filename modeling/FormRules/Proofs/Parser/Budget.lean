import FormRules.Proofs.Parser.Acceptance

/-!
# How many calls are active at once

Between two constructs the descent climbs through the strata of the grammar, of which there are
finitely many, and long chains of operators only repeat. So nine calls for each construct that the
limit admits and nine more are enough for every text, whatever its length. A text that climbs
through all strata in front of each call needs every one of them.
-/

namespace FormRules.Parser

/-- With every budget below a number of calls, a reading is given up. -/
def Needs (calls : Nat) (read : Nat → Except Halt (Expr × Cursor)) : Prop :=
  ∀ budget, budget < calls → read budget = .error .exhausted

/-- A function needs one call more than what it calls, if it gives up without a budget and whenever
what it calls gives up. -/
theorem Needs.call {calls : Nat} {read inner : Nat → Except Halt (Expr × Cursor)}
    (needs : Needs calls inner) (zero : read 0 = .error .exhausted)
    (passes_on : ∀ budget, inner budget = .error .exhausted →
      read (budget + 1) = .error .exhausted) : Needs (calls + 1) read
  | 0, _ => zero
  | budget + 1, below => passes_on budget (needs budget (Nat.lt_of_succ_lt_succ below))

theorem Needs.one {read : Nat → Except Halt (Expr × Cursor)} (zero : read 0 = .error .exhausted) :
    Needs 1 read
  | 0, _ => zero

/-! ## The calls of one construct -/

section Calls

variable {limit calls : Nat} {cursor : Cursor}

theorem needs_readExpression
    (binary : Needs calls fun budget => readBinary limit budget 0 cursor) :
    Needs (calls + 1) fun budget => readExpression limit budget cursor := by
  refine binary.call (by rw [readExpression]) fun budget short => ?_
  rw [readExpression]
  exact short

theorem needs_readBinary {least : Nat}
    (unary : Needs calls fun budget => readUnary limit budget cursor) :
    Needs (calls + 1) fun budget => readBinary limit budget least cursor := by
  refine unary.call (by rw [readBinary]) fun budget short => ?_
  rw [readBinary, short]
  rfl

theorem needs_readUnary (no_minus : cursor.current.kind ≠ .minus)
    (primary : Needs calls fun budget => readPrimary limit budget cursor) :
    Needs (calls + 1) fun budget => readUnary limit budget cursor := by
  refine primary.call (by rw [readUnary]) fun budget short => ?_
  rw [readUnary, if_neg no_minus]
  exact short

theorem needs_readPrimary {function : String} (named : cursor.current.kind = .identifier function)
    (opening : cursor.advance.current.kind = .leftParen)
    (call : Needs calls fun budget =>
      readCall limit budget function cursor.current.position cursor.advance) :
    Needs (calls + 1) fun budget => readPrimary limit budget cursor := by
  refine call.call (by rw [readPrimary]) fun budget short => ?_
  rw [readPrimary, named]
  exact (if_pos opening).trans short

theorem needs_readCall {function : String} {position : Nat} {inside : Cursor}
    (entered : cursor.advance.enter limit position = .ok inside)
    (argument : inside.current.kind ≠ .rightParen)
    (expression : Needs calls fun budget => readExpression limit budget inside) :
    Needs (calls + 1) fun budget => readCall limit budget function position cursor := by
  refine expression.call (by rw [readCall]) fun budget short => ?_
  have given_up (rounds : Nat) : readArguments function
      (fun cursor => readExpression limit budget cursor) rounds [] inside =
        .error .exhausted := by
    cases rounds with
    | zero => rfl
    | succ rounds =>
        rw [readArguments, short]
        rfl
  rw [readCall, entered]
  dsimp only [bind, Except.bind]
  rw [if_neg argument, given_up]

/-- A name in front of an operator is a field, or the budget is too small for it. -/
theorem readUnary_field (budget : Nat) {name : String} {place opened : Nat} {operator : Token}
    (no_call : operator.kind ≠ .leftParen) (rest : List Token) :
    readUnary limit budget ⟨⟨.identifier name, place⟩ :: operator :: rest, opened⟩ =
        .error .exhausted ∨
      readUnary limit budget ⟨⟨.identifier name, place⟩ :: operator :: rest, opened⟩ =
        .ok (.field name, ⟨operator :: rest, opened⟩) := by
  match budget with
  | 0 => exact .inl (by rw [readUnary])
  | 1 => exact .inl (by rw [readUnary]; rfl)
  | budget + 2 =>
      refine .inr ?_
      rw [readUnary, if_neg nofun, readPrimary]
      exact if_neg no_call

/-- In front of an operator, the budget is spent on the right operand. -/
theorem needs_readBinary_operation {least opened place : Nat} {name : String} {op : BinaryOp}
    {operator next : Token} {rest : List Token} (operates : binaryOp? operator.kind = some op)
    (no_call : operator.kind ≠ .leftParen) (tight : least ≤ op.precedence)
    (right : Needs calls fun budget =>
      readBinary limit budget (op.precedence + 1) ⟨next :: rest, opened⟩) :
    Needs (calls + 1) fun budget => readBinary limit budget least
      ⟨⟨.identifier name, place⟩ :: operator :: next :: rest, opened⟩ := by
  refine right.call (by rw [readBinary]) fun budget short => ?_
  rw [readBinary]
  rcases readUnary_field budget no_call (next :: rest) with unread | field
  · rw [unread]
    rfl
  · rw [field]
    change readOperations limit least _ ((next :: rest).length + 1) _ _ _ = _
    rw [readOperations, show binaryOp? (Cursor.current ⟨operator :: next :: rest, opened⟩).kind =
      some op from operates]
    refine (if_neg (Nat.not_lt_of_le tight)).trans ?_
    change (readBinary limit budget (op.precedence + 1) ⟨next :: rest, opened⟩ >>= _) = _
    rw [short]
    rfl

end Calls

/-! ## The steepest text -/

/-- A call behind an operator of every stratum. -/
def climb : List TokenKind :=
  [.identifier "a", .equal, .identifier "a", .less, .identifier "a", .plus, .identifier "a", .star,
    .identifier "f", .leftParen]

/-- So many nested calls, each behind an operator of every stratum. -/
def steep : Nat → List Token
  | 0 => [⟨.endOfText, 0⟩]
  | levels + 1 => climb.map (⟨·, 0⟩) ++ steep levels

theorem getLast?_steep (levels : Nat) : (steep levels).getLast? = some ⟨.endOfText, 0⟩ := by
  induction levels with
  | zero => rfl
  | succ levels induction =>
      rw [steep, List.getLast?_append, induction]
      rfl

variable {limit : Nat}

/-- An expression climbs over eight calls to the innermost one. -/
theorem needs_climb {calls levels opened : Nat}
    (call : Needs calls fun budget =>
      readCall limit budget "f" 0 ⟨⟨.leftParen, 0⟩ :: steep levels, opened⟩) :
    Needs (calls + 8) fun budget => readExpression limit budget ⟨steep (levels + 1), opened⟩ := by
  refine needs_readExpression ?_
  refine needs_readBinary_operation rfl nofun (Nat.zero_le _) ?_
  refine needs_readBinary_operation rfl nofun (Nat.le_refl _) ?_
  refine needs_readBinary_operation rfl nofun (Nat.le_refl _) ?_
  refine needs_readBinary_operation rfl nofun (Nat.le_refl _) ?_
  exact needs_readBinary (needs_readUnary nofun (needs_readPrimary rfl rfl call))

/-- Each construct that the limit still admits takes nine calls, and the last one that it refuses
takes nine more. -/
theorem needs_steep (levels : Nat) {opened : Nat} (limit_eq : opened + levels = limit) :
    Needs (9 * (levels + 1)) fun budget =>
      readExpression limit budget ⟨steep (levels + 1), opened⟩ := by
  induction levels generalizing opened with
  | zero => exact needs_climb (.one (by rw [readCall]))
  | succ levels induction =>
      have room : opened + 1 ≤ limit := by omega
      have inside := induction (show opened + 1 + levels = limit by omega)
      exact needs_climb (needs_readCall (Cursor.enter_of_le room 0) nofun inside)

/-- A budget of nine calls for each construct that the limit admits and nine more, whatever the
number of tokens, changes nothing about the reader. Every other budget gives up at worst, and one
call less is not enough for every text. -/
theorem descend_within_limit (limit : Nat) :
    (∀ tokens, descend limit (9 * (limit + 1)) tokens =
      (Expr.ofTokens limit tokens).mapError .fault) ∧
    (∀ budget tokens, descend limit budget tokens = .error .exhausted ∨
      descend limit budget tokens = (Expr.ofTokens limit tokens).mapError .fault) ∧
    ∃ tokens, descend limit (9 * limit + 8) tokens = .error .exhausted := by
  refine ⟨descend_eq_of_budget (Nat.le_refl _), fun budget tokens => ?_, steep (limit + 1), ?_⟩
  · exact (descend_exhausted_or_eq limit budget tokens).imp_left And.left
  · have short : readExpression limit (9 * limit + 8) ⟨steep (limit + 1), 0⟩ =
        .error .exhausted := needs_steep limit (Nat.zero_add limit) _ (by omega)
    have ended : withEnd (steep (limit + 1)) = steep (limit + 1) := by
      rw [withEnd, getLast?_steep]
    have more : (Cursor.current ⟨steep (limit + 1), 0⟩).kind ≠ .endOfText := by
      simp [steep, climb, Cursor.current]
    rw [descend, ended]
    refine (if_neg more).trans ?_
    rw [short]
    rfl

end FormRules.Parser
