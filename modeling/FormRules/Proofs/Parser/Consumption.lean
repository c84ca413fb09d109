import FormRules.Proofs.Grammar.Phrase
import FormRules.Proofs.Parser.Descent

/-!
# What lies between two cursors

The phrase or the arguments that a part of the tokens derives, within the limit on the constructs
that are open at once and on the height of the trees.
-/

namespace FormRules

namespace Grammar

/-- A phrase is one of each looser stratum as well. -/
theorem Phrase.loosen {tight : Level} (phrase : Phrase tight) (level : Level)
    (le : level.rank ≤ tight.rank) :
    ∃ whole : Phrase level, whole.tokens = phrase.tokens ∧ whole.expr = phrase.expr ∧
      whole.nesting = phrase.nesting := by
  by_cases same : level = tight
  · subst same
    exact ⟨phrase, rfl, rfl, rfl⟩
  · have loose : level ≠ .primary := by
      rintro rfl
      cases tight <;> simp_all [Level.rank]
    have next_le : level.next.rank ≤ tight.rank := by
      cases level <;> cases tight <;> simp_all [Level.rank, Level.next]
    obtain ⟨inner, tokens_eq, expr_eq, nesting_eq⟩ := phrase.loosen level.next next_le
    exact ⟨.lift loose inner, tokens_eq, expr_eq, nesting_eq⟩
termination_by 6 - level.rank
decreasing_by
  rw [Level.rank_next loose]
  cases level <;> simp_all [Level.rank]

end Grammar

namespace Parser

open Grammar

/-! ## What is consumed -/

/-- Between two cursors lie some words, with constructs among them that the limit admits. -/
structure Consumes (limit : Nat) (words : List TokenKind) (nesting : Nat)
    (before after : Cursor) : Prop where
  used : ∃ used : List Token, used.map Token.kind = words ∧ before.tokens = used ++ after.tokens
  nested : before.opened + nesting ≤ limit
  opened : after.opened = before.opened
  ended : after.Sealed

namespace Consumes

variable {limit : Nat}

theorem token {cursor : Cursor} (ended : cursor.Sealed) (admitted : cursor.opened ≤ limit)
    (more : cursor.current.kind ≠ .endOfText) :
    Consumes limit [cursor.current.kind] 0 cursor cursor.advance := by
  obtain ⟨tokens_eq, opened, sealed_advance⟩ := ended.advance more
  exact ⟨⟨[cursor.current], rfl, tokens_eq⟩, admitted, opened, sealed_advance⟩

theorem append {words added : List TokenKind} {nesting deeper : Nat}
    {before between after : Cursor} (first : Consumes limit words nesting before between)
    (second : Consumes limit added deeper between after) :
    Consumes limit (words ++ added) (max nesting deeper) before after := by
  obtain ⟨used, rfl, before_eq⟩ := first.used
  obtain ⟨usedNext, rfl, between_eq⟩ := second.used
  refine ⟨⟨used ++ usedNext, List.map_append, ?_⟩, ?_, second.opened.trans first.opened,
    second.ended⟩
  · rw [before_eq, between_eq, List.append_assoc]
  · have := first.nested
    have := second.nested
    have := first.opened
    omega

theorem refl {cursor : Cursor} (ended : cursor.Sealed) (admitted : cursor.opened ≤ limit) :
    Consumes limit [] 0 cursor cursor :=
  ⟨⟨[], rfl, rfl⟩, admitted, rfl, ended⟩

theorem leave {words : List TokenKind} {nesting opened : Nat} {tokens : List Token}
    {after : Cursor} (inner : Consumes limit words nesting ⟨tokens, opened + 1⟩ after) :
    after.leave = .ok ⟨after.tokens, opened⟩ := by
  obtain ⟨afterTokens, afterOpened⟩ := after
  obtain rfl : afterOpened = opened + 1 := inner.opened
  rfl

/-- The content of a construct counts once more from the token on that opens it. -/
theorem enclose {cursor after : Cursor} (ended : cursor.Sealed)
    (more : cursor.current.kind ≠ .endOfText) {words : List TokenKind} {nesting : Nat}
    (inner : Consumes limit words nesting ⟨cursor.advance.tokens, cursor.opened + 1⟩ after) :
    Consumes limit (cursor.current.kind :: words) (1 + nesting) cursor
      ⟨after.tokens, cursor.opened⟩ := by
  have nested : cursor.opened + 1 + nesting ≤ limit := inner.nested
  obtain ⟨used, rfl, tokens_eq⟩ := inner.used
  refine ⟨⟨cursor.current :: used, rfl, ?_⟩, by omega, rfl, inner.ended⟩
  rw [(ended.advance more).1, List.cons_append]
  exact congrArg _ tokens_eq

/-- A content in parentheses. -/
theorem parenthesize {cursor after : Cursor} (ended : cursor.Sealed)
    (opening : cursor.current.kind = .leftParen) {words : List TokenKind} {nesting : Nat}
    (inner : Consumes limit words nesting ⟨cursor.advance.tokens, cursor.opened + 1⟩ after)
    (closing : after.current.kind = .rightParen) :
    Consumes limit (.leftParen :: words ++ [.rightParen]) (1 + nesting) cursor
      (Cursor.mk after.tokens cursor.opened).advance := by
  have opened := enclose ended (by simp [opening]) inner
  have close : Consumes limit [after.current.kind] 0 ⟨after.tokens, cursor.opened⟩
      (Cursor.mk after.tokens cursor.opened).advance :=
    token opened.ended (Nat.le_trans (Nat.le_add_right _ _) opened.nested)
      (by change after.current.kind ≠ _; simp [closing])
  have whole := opened.append close
  rw [opening, closing, Nat.max_zero] at whole
  exact whole

end Consumes

/-- Between two cursors lies a phrase that stands for an expression. -/
structure Reads (limit : Nat) (level : Level) (expr : Expr) (before after : Cursor) : Prop where
  phrase : ∃ phrase : Phrase level, phrase.expr = expr ∧
    Consumes limit phrase.tokens phrase.nesting before after
  height_le : expr.height ≤ max limit 1

/-- Between two cursors lie arguments that stand for expressions. -/
structure ReadsArguments (limit : Nat) (exprs : List Expr) (before after : Cursor) : Prop where
  arguments : ∃ arguments : Arguments, arguments.exprs = exprs ∧
    Consumes limit arguments.tokens arguments.nesting before after
  height_le : Expr.maxHeight exprs ≤ max limit 1

namespace Reads

variable {limit : Nat} {expr : Expr} {before after : Cursor}

theorem opened {level : Level} (reads : Reads limit level expr before after) :
    after.opened = before.opened := by
  obtain ⟨_, _, consumes⟩ := reads.phrase
  exact consumes.opened

theorem ended {level : Level} (reads : Reads limit level expr before after) : after.Sealed := by
  obtain ⟨_, _, consumes⟩ := reads.phrase
  exact consumes.ended

theorem opened_le {level : Level} (reads : Reads limit level expr before after) :
    before.opened ≤ limit := by
  obtain ⟨_, _, consumes⟩ := reads.phrase
  exact Nat.le_trans (Nat.le_add_right _ _) consumes.nested

theorem loosen {tight : Level} (reads : Reads limit tight expr before after) (level : Level)
    (le : level.rank ≤ tight.rank) : Reads limit level expr before after := by
  obtain ⟨phrase, rfl, consumes⟩ := reads.phrase
  obtain ⟨whole, tokens_eq, expr_eq, nesting_eq⟩ := phrase.loosen level le
  refine ⟨⟨whole, expr_eq, ?_⟩, reads.height_le⟩
  rw [tokens_eq, nesting_eq]
  exact consumes

theorem join {level : Level} {left right : Expr} {between : Cursor} {op : BinaryOp}
    (left_reads : Reads limit level left before between)
    (joins : Joins level between.current.kind op)
    (right_reads : Reads limit level.next right between.advance after)
    (height_le : (Expr.binary op left right).height ≤ limit) :
    Reads limit level (.binary op left right) before after := by
  obtain ⟨first, rfl, first_consumes⟩ := left_reads.phrase
  obtain ⟨second, rfl, second_consumes⟩ := right_reads.phrase
  have admitted : between.opened ≤ limit :=
    Nat.le_trans (Nat.le_of_eq first_consumes.opened) left_reads.opened_le
  have operator := Consumes.token first_consumes.ended admitted joins.ne_endOfText
  refine ⟨⟨.join _ op joins first second, rfl, ?_⟩, Nat.le_trans height_le (Nat.le_max_left _ _)⟩
  have consumes := first_consumes.append (operator.append second_consumes)
  rw [Nat.zero_max] at consumes
  exact consumes

theorem leave {level : Level} {tokens : List Token} {opened : Nat}
    (reads : Reads limit level expr ⟨tokens, opened + 1⟩ after) :
    after.leave = .ok ⟨after.tokens, opened⟩ := by
  obtain ⟨_, _, consumes⟩ := reads.phrase
  exact consumes.leave

theorem negation {cursor : Cursor} (ended : cursor.Sealed) (minus : cursor.current.kind = .minus)
    (reads : Reads limit .unary expr ⟨cursor.advance.tokens, cursor.opened + 1⟩ after)
    (height_le : (Expr.negate expr).height ≤ limit) :
    Reads limit .unary (.negate expr) cursor ⟨after.tokens, cursor.opened⟩ := by
  obtain ⟨phrase, rfl, consumes⟩ := reads.phrase
  refine ⟨⟨.negation phrase, rfl, ?_⟩, Nat.le_trans height_le (Nat.le_max_left _ _)⟩
  have whole := consumes.enclose ended (by simp [minus])
  rw [minus] at whole
  exact whole

theorem group {cursor : Cursor} (ended : cursor.Sealed)
    (opening : cursor.current.kind = .leftParen)
    (reads : Reads limit .equality expr ⟨cursor.advance.tokens, cursor.opened + 1⟩ after)
    (closing : after.current.kind = .rightParen) :
    Reads limit .primary expr cursor (Cursor.mk after.tokens cursor.opened).advance := by
  obtain ⟨phrase, rfl, consumes⟩ := reads.phrase
  exact ⟨⟨.group phrase, rfl, consumes.parenthesize ended opening closing⟩, reads.height_le⟩

/-- A token that is a primary by itself. -/
theorem leaf {cursor : Cursor} (ended : cursor.Sealed) (admitted : cursor.opened ≤ limit)
    (phrase : Phrase .primary) (tokens_eq : phrase.tokens = [cursor.current.kind])
    (nesting_eq : phrase.nesting = 0) (height_eq : phrase.expr.height = 1)
    (more : cursor.current.kind ≠ .endOfText) :
    Reads limit .primary phrase.expr cursor cursor.advance := by
  refine ⟨⟨phrase, rfl, ?_⟩, height_eq ▸ Nat.le_max_right _ _⟩
  rw [tokens_eq, nesting_eq]
  exact .token ended admitted more

theorem length_le {level : Level} (reads : Reads limit level expr before after) :
    after.tokens.length ≤ before.tokens.length := by
  obtain ⟨_, _, consumes⟩ := reads.phrase
  obtain ⟨used, -, before_eq⟩ := consumes.used
  rw [before_eq, List.length_append]
  exact Nat.le_add_left _ _

/-- A single argument. -/
theorem single (reads : Reads limit .equality expr before after) :
    ReadsArguments limit [expr] before after := by
  obtain ⟨phrase, rfl, consumes⟩ := reads.phrase
  exact ⟨⟨.last phrase, rfl, consumes⟩, by simpa [Expr.maxHeight] using reads.height_le⟩

/-- An argument in front of others. -/
theorem cons {others : List Expr} {between : Cursor}
    (reads : Reads limit .equality expr before between) (comma : between.current.kind = .comma)
    (more : ReadsArguments limit others between.advance after) :
    ReadsArguments limit (expr :: others) before after := by
  obtain ⟨phrase, rfl, consumes⟩ := reads.phrase
  obtain ⟨arguments, rfl, more_consumes⟩ := more.arguments
  have admitted : between.opened ≤ limit :=
    Nat.le_trans (Nat.le_of_eq consumes.opened) reads.opened_le
  have separator := Consumes.token consumes.ended admitted (by simp [comma])
  refine ⟨⟨.more phrase arguments, rfl, ?_⟩, ?_⟩
  · have whole := consumes.append (separator.append more_consumes)
    rw [Nat.zero_max, comma] at whole
    exact whole
  · exact Nat.max_le.2 ⟨reads.height_le, more.height_le⟩

end Reads

namespace ReadsArguments

variable {limit : Nat} {exprs : List Expr} {before after : Cursor}

theorem ended (reads : ReadsArguments limit exprs before after) : after.Sealed := by
  obtain ⟨_, _, consumes⟩ := reads.arguments
  exact consumes.ended

theorem leave {tokens : List Token} {opened : Nat}
    (reads : ReadsArguments limit exprs ⟨tokens, opened + 1⟩ after) :
    after.leave = .ok ⟨after.tokens, opened⟩ := by
  obtain ⟨_, _, consumes⟩ := reads.arguments
  exact consumes.leave

end ReadsArguments

/-- A call, without arguments or with some. -/
theorem reads_call {limit : Nat} {function : String} {cursor after : Cursor}
    (ended : cursor.Sealed) (named : cursor.current.kind = .identifier function)
    (opening : cursor.advance.current.kind = .leftParen) {exprs : List Expr}
    (reads : (exprs = [] ∧ Consumes limit [] 0 ⟨cursor.advance.advance.tokens, cursor.opened + 1⟩
        after) ∨
      ReadsArguments limit exprs ⟨cursor.advance.advance.tokens, cursor.opened + 1⟩ after)
    (closing : after.current.kind = .rightParen)
    (height_le : (Expr.call function exprs).height ≤ limit) :
    Reads limit .primary (.call function exprs) cursor
      (Cursor.mk after.tokens cursor.opened).advance := by
  obtain ⟨-, opened_eq, advance_ended⟩ := ended.advance (by simp [named])
  have called {words : List TokenKind} {nesting : Nat}
      (inner : Consumes limit words nesting ⟨cursor.advance.advance.tokens, cursor.opened + 1⟩
        after) :
      Consumes limit (.identifier function :: .leftParen :: words ++ [.rightParen]) (1 + nesting)
        cursor (Cursor.mk after.tokens cursor.opened).advance := by
    have admitted := Nat.le_of_succ_le (Nat.le_trans (Nat.le_add_right _ _) inner.nested)
    rw [← opened_eq] at inner
    have name := Consumes.token ended admitted (by simp [named])
    have whole := name.append (inner.parenthesize advance_ended opening closing)
    rw [named, Nat.zero_max, opened_eq] at whole
    exact whole
  rcases reads with ⟨rfl, consumes⟩ | ⟨⟨arguments, rfl, consumes⟩, -⟩
  · exact ⟨⟨.emptyCall function, rfl, called consumes⟩,
      Nat.le_trans height_le (Nat.le_max_left _ _)⟩
  · exact ⟨⟨.call function arguments, rfl, called consumes⟩,
      Nat.le_trans height_le (Nat.le_max_left _ _)⟩

end Parser
end FormRules
