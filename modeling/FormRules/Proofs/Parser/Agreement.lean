import FormRules.Proofs.Parser.Constructs

/-!
# The descent and the reader agree

The calls of the descent that are active at once are at most nine for each construct that the limit
admits and nine more for the whole. With a budget of that many, the descent does what the reader
does on every text; with a smaller one it either does so too or gives up, and its counter never
falls below zero.
-/

namespace FormRules.Parser

open Grammar

variable {limit finalPosition : Nat}

mutual

theorem readExpression_outcome : ∀ (budget : Nat) {frames : List Frame} {cursor : Cursor},
    Awaits limit .equality frames cursor →
    Outcome limit finalPosition .equality frames cursor (budget < 9 * (limit - cursor.opened) + 9)
      (readExpression limit budget cursor)
  | 0, frames, cursor, awaits => by
      rw [readExpression]
      exact .exhausted (by omega)
  | budget + 1, frames, cursor, awaits => by
      rw [readExpression]
      have outcome := @readBinary_outcome budget 0 .equality frames cursor (by decide) (by decide)
        (by decide) awaits
      exact outcome.mono fun short => by
        simp only [Level.rank] at short
        omega

theorem readBinary_outcome : ∀ (budget least : Nat) {level : Level} {frames : List Frame}
    {cursor : Cursor}, least ≤ level.rank → level.rank ≤ max least 1 →
    level.rank ≤ Level.unary.rank → Awaits limit level frames cursor →
    Outcome limit finalPosition level frames cursor
      (budget < 9 * (limit - cursor.opened) + (9 - level.rank))
      (readBinary limit budget least cursor)
  | 0, _, level, frames, cursor, _, _, loose, _ => by
      have rank_le_five : level.rank ≤ 5 := loose
      rw [readBinary]
      exact .exhausted (by omega)
  | budget + 1, least, level, frames, cursor, least_le, rank_le, loose, awaits => by
      have left_outcome := readUnary_outcome budget
        { awaits with admits := fun tight => absurd tight (Nat.lt_irrefl _) }
      have rank_le_five : level.rank ≤ 5 := loose
      rw [readBinary]
      generalize readUnary limit budget cursor = result at left_outcome
      cases left_outcome with
      | exhausted short => exact .exhausted (by omega)
      | fault failed => exact .fault failed
      | @ok left next reads bound read =>
          -- Each right operand is of a tighter stratum than this one, so one call less is left
          -- for it and for every construct that it may open.
          refine readOperations_outcome least_le rank_le awaits.depth_eq awaits.admits ?_
            next.tokens.length reads loose (Nat.le_of_lt bound) (Nat.le_refl _) read
          intro outer token op joins outer_le waiting behind opened_eq behind_awaits
          have next_rank := Level.rank_next joins.loose
          have op_rank := joins.rank_eq
          have tight : outer.rank < 5 := joins.rank_lt_unary
          have right_outcome := readBinary_outcome budget (op.precedence + 1) (by omega) (by omega)
            (by rw [next_rank]; exact tight) behind_awaits
          exact right_outcome.mono fun short => by omega

theorem readUnary_outcome : ∀ (budget : Nat) {frames : List Frame} {cursor : Cursor},
    Awaits limit .unary frames cursor →
    Outcome limit finalPosition .unary frames cursor (budget < 9 * (limit - cursor.opened) + 3)
      (readUnary limit budget cursor)
  | 0, frames, cursor, awaits => by
      rw [readUnary]
      exact .exhausted (by omega)
  | budget + 1, frames, cursor, awaits => by
      rw [readUnary]
      by_cases minus : cursor.current.kind = .minus
      · rw [if_pos minus]
        refine negation_outcome awaits minus fun room inside => ?_
        exact (readUnary_outcome budget inside).mono fun short => by
          simp only at short
          omega
      · rw [if_neg minus]
        have outcome := readPrimary_outcome budget
          { awaits with admits := fun tight => absurd tight (by decide) } minus
        generalize readPrimary limit budget cursor = result at outcome
        cases outcome with
        | exhausted short => exact .exhausted (by omega)
        | fault failed => exact .fault failed
        | ok reads bound read =>
            exact .ok (reads.loosen .unary (by decide)) (nextBound_lt_unary _) read

theorem readPrimary_outcome : ∀ (budget : Nat) {frames : List Frame} {cursor : Cursor},
    Awaits limit .primary frames cursor → cursor.current.kind ≠ .minus →
    Outcome limit finalPosition .primary frames cursor (budget < 9 * (limit - cursor.opened) + 2)
      (readPrimary limit budget cursor)
  | 0, frames, cursor, awaits, _ => by
      rw [readPrimary]
      exact .exhausted (by omega)
  | budget + 1, frames, cursor, awaits, no_minus => by
      rw [readPrimary]
      cases kind : cursor.current.kind with
      | number value =>
          exact leaf_outcome awaits (.number value) (by rw [kind]; rfl) rfl rfl (by simp [kind])
            (by simp only [step, readOperand, kind, Phrase.expr])
      | text content =>
          exact leaf_outcome awaits (.text content) (by rw [kind]; rfl) rfl rfl (by simp [kind])
            (by simp only [step, readOperand, kind, Phrase.expr])
      | identifier name =>
          dsimp only
          by_cases opening : cursor.advance.current.kind = .leftParen
          · rw [if_pos opening]
            exact (readCall_outcome budget awaits kind opening).mono fun short => by omega
          · rw [if_neg opening]
            exact field_outcome awaits kind opening
      | leftParen =>
          refine group_outcome awaits kind fun room inside => ?_
          exact (readExpression_outcome budget inside).mono fun short => by
            simp only at short
            omega
      | minus => exact absurd kind no_minus
      | _ =>
          have outcome := @noOperand_outcome limit finalPosition frames cursor
            (budget + 1 < 9 * (limit - cursor.opened) + 2) awaits (by rw [kind]; exact id)
          rw [kind] at outcome
          exact outcome

theorem readCall_outcome : ∀ (budget : Nat) {function : String} {frames : List Frame}
    {cursor : Cursor}, Awaits limit .primary frames cursor →
    cursor.current.kind = .identifier function → cursor.advance.current.kind = .leftParen →
    Outcome limit finalPosition .primary frames cursor (budget < 9 * (limit - cursor.opened) + 1)
      (readCall limit budget function cursor.current.position cursor.advance)
  | 0, function, frames, cursor, awaits, named, opening => by
      rw [readCall]
      exact .exhausted (by omega)
  | budget + 1, function, frames, cursor, awaits, named, opening => by
      rw [readCall]
      refine call_outcome awaits named opening fun room inside => ?_
      refine readArguments_outcome (fun waiting behind behind_opened behind_awaits => ?_) _ frames
        [] rfl inside (Nat.le_refl _)
      have opened_eq : behind.opened = cursor.opened + 1 := behind_opened
      exact (readExpression_outcome budget behind_awaits).mono fun short => by omega

end

/-! ## Whole texts -/

/-- The words in front of the first end of the text. -/
def wordsOf (tokens : List Token) : List TokenKind :=
  (tokens.map Token.kind).takeWhile (· ≠ .endOfText)

theorem wordsOf_cons {token : Token} (more : token.kind ≠ .endOfText) (tokens : List Token) :
    wordsOf (token :: tokens) = token.kind :: wordsOf tokens := by
  rw [wordsOf, List.map_cons, List.takeWhile_cons_of_pos (by simpa using more)]
  rfl

theorem wordsOf_cons_of_end {token : Token} (last : token.kind = .endOfText)
    (tokens : List Token) : wordsOf (token :: tokens) = [] := by
  rw [wordsOf, List.map_cons, List.takeWhile_cons_of_neg (by simp [last])]

theorem wordsOf_append {used : List Token} (inside : ∀ token ∈ used, token.kind ≠ .endOfText)
    (rest : List Token) : wordsOf (used ++ rest) = used.map Token.kind ++ wordsOf rest := by
  rw [wordsOf, List.map_append, List.takeWhile_append_of_pos (by simpa using inside)]
  rfl

theorem wordsOf_append_of_end {used rest : List Token} {token : Token}
    (inside : ∀ kind ∈ used.map Token.kind, kind ≠ .endOfText)
    (last : token.kind = .endOfText) :
    wordsOf (used ++ token :: rest) = used.map Token.kind := by
  have words_inside : ∀ token ∈ used, token.kind ≠ .endOfText := by simpa using inside
  rw [wordsOf_append words_inside, wordsOf_cons_of_end last, List.append_nil]

theorem wordsOf_withEnd (tokens : List Token) : wordsOf (withEnd tokens) = wordsOf tokens := by
  unfold withEnd
  split
  · rfl
  · rw [wordsOf, List.map_append, List.takeWhile_append]
    split
    · next all_read =>
        rw [List.map_singleton, List.takeWhile_cons_of_neg (by simp), List.append_nil]
        exact ((List.takeWhile_prefix _).eq_of_length all_read).symm
    · rfl

theorem run_append_end (state : State) (tokens : List Token) :
    run limit finalPosition state (tokens ++ [⟨.endOfText, finalPosition⟩]) =
      run limit finalPosition state tokens := by
  induction tokens generalizing state with
  | nil => rfl
  | cons token rest induction =>
      rw [List.cons_append, run, run]
      simp only [induction]

/-- Putting the end of the text behind tokens changes nothing. -/
theorem ofTokens_eq_run_withEnd (limit : Nat) (tokens : List Token) :
    Expr.ofTokens limit tokens =
      run limit (endPosition tokens) .initial (withEnd tokens) := by
  unfold withEnd
  split
  · rfl
  · rw [run_append_end]
    rfl

/-- The descent reads a whole text as the reader does, and what it reads is derived by the words of
the text, unless its budget is smaller than nine calls for each level of nesting. -/
theorem descend_outcome (limit budget : Nat) (tokens : List Token) :
    (descend limit budget tokens = .error .exhausted ∧ budget < 9 * (limit + 1)) ∨
      (∃ error, descend limit budget tokens = .error (.fault error) ∧
        Expr.ofTokens limit tokens = .error error) ∨
      ∃ phrase : Phrase .equality, descend limit budget tokens = .ok phrase.expr ∧
        Expr.ofTokens limit tokens = .ok phrase.expr ∧ phrase.tokens = wordsOf tokens ∧
        phrase.nesting ≤ limit ∧ phrase.expr.height ≤ max limit 1 := by
  have ended := Cursor.sealed_withEnd tokens
  rw [ofTokens_eq_run_withEnd, descend]
  generalize cursor_eq : Cursor.mk (withEnd tokens) 0 = cursor at ended
  have tokens_eq : withEnd tokens = cursor.tokens := by rw [← cursor_eq]
  have opened_eq : cursor.opened = 0 := by rw [← cursor_eq]
  rw [tokens_eq]
  dsimp only
  by_cases empty : cursor.current.kind = .endOfText
  · rw [if_pos empty]
    exact .inr (.inl ⟨_, rfl, run_current_end ended empty⟩)
  · rw [if_neg empty]
    have awaits : Awaits limit .equality [] cursor :=
      ⟨opened_eq.symm, by omega, ended, fun _ => trivial, empty⟩
    have outcome := @readExpression_outcome limit (endPosition tokens) budget [] cursor awaits
    rw [opened_eq] at outcome
    generalize readExpression limit budget cursor = result at outcome
    cases outcome with
    | exhausted short => exact .inl ⟨rfl, by omega⟩
    | fault failed => exact .inr (.inl ⟨_, rfl, failed⟩)
    | @ok expr rest reads bound read =>
        have delimiter := binaryOp?_eq_none bound
        dsimp only [bind, Except.bind]
        refine .inr ?_
        by_cases last : rest.current.kind = .endOfText
        · obtain ⟨phrase, rfl, consumes⟩ := reads.phrase
          obtain ⟨used, used_kinds, cursor_tokens⟩ := consumes.used
          obtain ⟨behind, rest_eq⟩ := consumes.ended.exists_rest
          have inside := used_kinds ▸ phrase.ne_endOfText
          have words_eq : wordsOf tokens = phrase.tokens := by
            rw [← wordsOf_withEnd, tokens_eq, cursor_tokens, rest_eq,
              wordsOf_append_of_end inside last, used_kinds]
          have finished := read.trans ((run_current_end reads.ended last).trans rfl)
          refine .inr ⟨phrase, by rw [last], finished, words_eq.symm, ?_, reads.height_le⟩
          have nested := consumes.nested
          omega
        · by_cases surplus : rest.current.kind = .rightParen
          · refine .inl ⟨_, by rw [surplus], read.trans (run_current_error reads.ended last ?_)⟩
            rw [step_of_keeps (by exact trivial) delimiter]
            simp only [readDelimiter, surplus]
          · refine .inl ⟨(Fault.surplusToken rest.current.kind).error rest.current.position, ?_,
              read.trans (run_current_error reads.ended last ?_)⟩
            · split <;> simp_all
            · rw [step_of_keeps (by exact trivial) delimiter]
              unfold readDelimiter
              split <;> simp_all

end FormRules.Parser
