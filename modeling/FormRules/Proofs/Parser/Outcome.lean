import FormRules.Proofs.Parser.Complete
import FormRules.Proofs.Parser.Consumption

/-!
# What the descent says about the reader

A function of the descent, called where the reader expects an operand, reads the tokens of a phrase
and brings the reader to the complete operand; or it fails with the error of the reader; or it runs
short of its budget. The two loops of the descent keep this if the functions that they call do.
-/

namespace FormRules.Parser

open Grammar

/-- What a token at which an operand has to start cannot be, since the caller has looked at it. -/
def Expects : List Frame → TokenKind → Prop
  | [], kind => kind ≠ .endOfText
  | .call .. :: _, kind => kind ≠ .rightParen
  | _, _ => True

/-- The reader, with some constructs open, is in front of a phrase of a stratum. -/
structure Awaits (limit : Nat) (level : Level) (frames : List Frame) (cursor : Cursor) : Prop where
  depth_eq : depth frames = cursor.opened
  admitted : cursor.opened ≤ limit
  ended : cursor.Sealed
  admits : Admits level frames
  expects : Expects frames cursor.current.kind

/-- What a result of the descent says about the reader. -/
inductive Outcome (limit finalPosition : Nat) (level : Level) (frames : List Frame)
    (before : Cursor) (shortage : Prop) : Except Halt (Expr × Cursor) → Prop where
  | ok {expr : Expr} {after : Cursor} (reads : Reads limit level expr before after)
      (bound : nextBound after.tokens < level.rank)
      (read : run limit finalPosition ⟨frames, .operand⟩ before.tokens =
        run limit finalPosition ⟨frames, .complete (.of expr)⟩ after.tokens) :
      Outcome limit finalPosition level frames before shortage (.ok (expr, after))
  | fault {error : ParseError}
      (failed : run limit finalPosition ⟨frames, .operand⟩ before.tokens = .error error) :
      Outcome limit finalPosition level frames before shortage (.error (.fault error))
  | exhausted (short : shortage) :
      Outcome limit finalPosition level frames before shortage (.error .exhausted)

variable {limit finalPosition : Nat}

theorem Outcome.mono {level : Level} {frames : List Frame} {before : Cursor}
    {shortage larger : Prop} (enlarge : shortage → larger)
    {result : Except Halt (Expr × Cursor)}
    (outcome : Outcome limit finalPosition level frames before shortage result) :
    Outcome limit finalPosition level frames before larger result := by
  cases outcome with
  | ok reads bound read => exact .ok reads bound read
  | fault failed => exact .fault failed
  | exhausted short => exact .exhausted (enlarge short)

theorem precedence_pos (op : BinaryOp) : 0 < op.precedence := by
  cases op <;> decide

theorem nextBound_lt_unary (tokens : List Token) : nextBound tokens < Level.unary.rank := by
  cases tokens with
  | nil => decide
  | cons token rest =>
      cases operator : binaryOp? token.kind with
      | none =>
          rw [nextBound_cons_of_none operator]
          decide
      | some op =>
          rw [nextBound_cons_of_some operator]
          cases op <;> decide

theorem binaryOp?_eq_none {cursor : Cursor} (unbound : nextBound cursor.tokens < 1) :
    binaryOp? cursor.current.kind = none := by
  rw [Cursor.nextBound_tokens] at unbound
  cases operator : binaryOp? cursor.current.kind with
  | none => rfl
  | some op =>
      rw [operator] at unbound
      exact absurd (precedence_pos op) (Nat.not_lt_of_le (Nat.le_of_lt_succ unbound))

/-! ## Operations -/

/-- Reading on behind a left operand brings the reader to the largest phrase of the stratum. -/
theorem readOperations_outcome {least : Nat} {level : Level} (least_le : least ≤ level.rank)
    (rank_le : level.rank ≤ max least 1) {operand : Nat → Reading Expr} {frames : List Frame}
    {start : Cursor} {shortage : Prop} (depth_eq : depth frames = start.opened)
    (admits : Admits level frames)
    (operand_outcome : ∀ {outer : Level} {token : TokenKind} {op : BinaryOp},
      Joins outer token op → level.rank ≤ outer.rank → ∀ (waiting : List Frame) (cursor : Cursor),
      cursor.opened = start.opened → Awaits limit outer.next waiting cursor →
      Outcome limit finalPosition outer.next waiting cursor shortage
        (operand (op.precedence + 1) cursor))
    (rounds : Nat) {reached : Level} {left : Expr} {cursor : Cursor}
    (reads : Reads limit reached left start cursor) (reached_le : level.rank ≤ reached.rank)
    (bound : nextBound cursor.tokens ≤ reached.rank) (enough : cursor.tokens.length ≤ rounds)
    (read : run limit finalPosition ⟨frames, .operand⟩ start.tokens =
      run limit finalPosition ⟨frames, .complete (.of left)⟩ cursor.tokens) :
    Outcome limit finalPosition level frames start shortage
      (readOperations limit least operand rounds left left.height cursor) := by
  induction rounds generalizing reached left cursor with
  | zero =>
      obtain ⟨rest, tokens_eq⟩ := reads.ended.exists_rest
      rw [tokens_eq] at enough
      exact absurd enough (by simp)
  | succ rounds induction =>
      have next_eq := Cursor.nextBound_tokens cursor
      rw [readOperations]
      cases operator : binaryOp? cursor.current.kind with
      | none =>
          rw [operator] at next_eq
          exact .ok (reads.loosen level reached_le) (next_eq ▸ level.rank_pos) read
      | some op =>
          rw [operator] at next_eq
          replace next_eq : nextBound cursor.tokens = op.precedence := next_eq
          dsimp only
          by_cases loose : op.precedence < least
          · rw [if_pos loose]
            exact .ok (reads.loosen level reached_le) (by omega) read
          · rw [if_neg loose]
            obtain ⟨outer, joins⟩ := exists_joins_of_binaryOp? operator
            have outer_rank := joins.rank_eq
            have op_pos := precedence_pos op
            obtain ⟨tokens_eq, opened_eq, advance_ended⟩ :=
              reads.ended.advance joins.ne_endOfText
            have keeps : Keeps op.precedence frames :=
              (admits (by have := joins.rank_lt_unary; omega)).mono (by omega)
            have operated : step limit ⟨frames, .complete (.of left)⟩ cursor.current =
                .ok ⟨.operation (.of left) op cursor.current.position :: frames, .operand⟩ := by
              simp only [step, readAfter, operator, settle_of_keeps keeps]
              rfl
            have resumed := read.trans ((congrArg _ tokens_eq).trans
              (run_cons_of_step joins.ne_endOfText operated _))
            have right_outcome := operand_outcome joins (by omega)
              (.operation (.of left) op cursor.current.position :: frames) cursor.advance
              (opened_eq.trans reads.opened)
              ⟨by rw [depth_operation, depth_eq, opened_eq, reads.opened],
                by rw [opened_eq, reads.opened]; exact reads.opened_le, advance_ended,
                admits_operation joins _ _ _, trivial⟩
            generalize operand (op.precedence + 1) cursor.advance = result at right_outcome
            cases right_outcome with
            | exhausted short => exact .exhausted short
            | fault failed => exact .fault (resumed.trans failed)
            | @ok right next right_reads right_bound right_read =>
                have right_rank := Level.rank_next joins.loose
                have settles : settle limit (nextBound next.tokens)
                    (.operation (.of left) op cursor.current.position :: frames) (.of right) =
                      (build limit (.binary op left right) (1 + max left.height right.height)
                        cursor.current.position >>=
                          settle limit (nextBound next.tokens) frames) :=
                  settle_operation (by omega) _ _ _
                change Outcome _ _ _ _ _ _ (checkHeight limit (1 + max left.height right.height)
                  cursor.current.position >>= fun _ => readOperations limit least operand rounds
                    (.binary op left right) (1 + max left.height right.height) next)
                by_cases high : limit < 1 + max left.height right.height
                · rw [checkHeight, if_pos high]
                  refine .fault (resumed.trans (right_read.trans (run_complete_error ?_)))
                  rw [settles, build_of_lt high]
                  rfl
                · rw [checkHeight, if_neg high]
                  have low := Nat.le_of_not_lt high
                  have joined := (reads.loosen outer (by omega)).join joins right_reads
                    (by rw [Expr.height]; exact low)
                  have shorter := right_reads.length_le
                  have length_eq := congrArg List.length tokens_eq
                  rw [List.length_cons] at length_eq
                  have height_eq : 1 + max left.height right.height =
                      (Expr.binary op left right).height := by
                    rw [Expr.height]
                  rw [height_eq]
                  refine induction joined (by omega) (by omega) (by omega)
                    (resumed.trans (right_read.trans (run_complete_congr ?_)))
                  rw [settles, build_of_le low, height_eq]
                  rfl

/-! ## Arguments -/

/-- A call, with the arguments in front of the one that is read. -/
def Frame.calling (function : String) (position opening : Nat) (given : List Expr) : Frame :=
  .call function position opening (given.reverse.map .of)

theorem Frame.calling_concat (function : String) (position opening : Nat) (given : List Expr)
    (last : Expr) : Frame.calling function position opening (given ++ [last]) =
      .call function position opening (.of last :: given.reverse.map .of) := by
  rw [calling, List.reverse_append]
  rfl

/-- What a result of reading arguments behind some others says about the reader. -/
inductive ArgumentsOutcome (limit finalPosition : Nat) (calling : List Expr → Frame)
    (frames : List Frame) (given : List Expr) (before : Cursor) (shortage : Prop) :
    Except Halt (List Expr × Cursor) → Prop where
  | ok {others : List Expr} {last : Expr} {after : Cursor}
      (reads : ReadsArguments limit (others ++ [last]) before after)
      (bound : nextBound after.tokens < 1) (no_comma : after.current.kind ≠ .comma)
      (read : run limit finalPosition ⟨calling given :: frames, .operand⟩ before.tokens =
        run limit finalPosition ⟨calling (given ++ others) :: frames, .complete (.of last)⟩
          after.tokens) :
      ArgumentsOutcome limit finalPosition calling frames given before shortage
        (.ok (given ++ (others ++ [last]), after))
  | fault {error : ParseError}
      (failed : run limit finalPosition ⟨calling given :: frames, .operand⟩ before.tokens =
        .error error) :
      ArgumentsOutcome limit finalPosition calling frames given before shortage
        (.error (.fault error))
  | exhausted (short : shortage) :
      ArgumentsOutcome limit finalPosition calling frames given before shortage
        (.error .exhausted)

/-- Reading arguments brings the reader to the last one. -/
theorem readArguments_outcome {function : String} {position opening : Nat}
    {argument : Reading Expr} {opened : Nat} {shortage : Prop}
    (argument_outcome : ∀ (waiting : List Frame) (cursor : Cursor), cursor.opened = opened →
      Awaits limit .equality waiting cursor →
      Outcome limit finalPosition .equality waiting cursor shortage (argument cursor))
    (rounds : Nat) (frames : List Frame) (given : List Expr) {cursor : Cursor}
    (opened_eq : cursor.opened = opened)
    (awaits : Awaits limit .equality (.calling function position opening given :: frames) cursor)
    (enough : cursor.tokens.length ≤ rounds) :
    ArgumentsOutcome limit finalPosition (.calling function position opening) frames given cursor
      shortage (readArguments function argument rounds given cursor) := by
  induction rounds generalizing given cursor with
  | zero =>
      obtain ⟨rest, tokens_eq⟩ := awaits.ended.exists_rest
      rw [tokens_eq] at enough
      exact absurd enough (by simp)
  | succ rounds induction =>
      have first_outcome := argument_outcome _ cursor opened_eq awaits
      rw [readArguments]
      generalize argument cursor = result at first_outcome
      cases first_outcome with
      | exhausted short => exact .exhausted short
      | fault failed => exact .fault failed
      | @ok first next reads bound read =>
          change ArgumentsOutcome _ _ _ _ _ _ _ (if next.current.kind = .comma then _ else _)
          by_cases comma : next.current.kind = .comma
          · rw [if_pos comma]
            obtain ⟨tokens_eq, advance_opened, advance_ended⟩ :=
              reads.ended.advance (by simp [comma])
            have separated : step limit ⟨.calling function position opening given :: frames,
                .complete (.of first)⟩ next.current =
                  .ok ⟨.calling function position opening (given ++ [first]) :: frames,
                    .operand⟩ := by
              rw [step_of_keeps (by exact trivial) (by rw [comma]; rfl), Frame.calling_concat]
              simp only [readDelimiter, Frame.calling, comma]
            have resumed := read.trans ((congrArg _ tokens_eq).trans
              (run_cons_of_step (by simp [comma]) separated _))
            by_cases trailing : next.advance.current.kind = .rightParen
            · rw [if_pos trailing]
              have failed : step limit ⟨.calling function position opening (given ++ [first]) ::
                  frames, .operand⟩ next.advance.current = .error
                    ((Fault.trailingComma function).error next.advance.current.position) := by
                rw [Frame.calling_concat]
                simp only [step, readOperand, trailing]
              obtain ⟨rest, behind_eq⟩ := advance_ended.exists_rest
              exact .fault (resumed.trans ((congrArg _ behind_eq).trans
                (run_cons_of_fault (by simp [trailing]) failed rest)))
            · rw [if_neg trailing]
              have others_outcome := induction (given ++ [first])
                (advance_opened.trans (reads.opened.trans opened_eq))
                ⟨by rw [advance_opened, reads.opened]; exact awaits.depth_eq,
                  by rw [advance_opened, reads.opened]; exact awaits.admitted, advance_ended,
                  fun _ => trivial, trailing⟩
                (by
                  have := reads.length_le
                  have length_eq := congrArg List.length tokens_eq
                  rw [List.length_cons] at length_eq
                  omega)
              generalize readArguments function argument rounds (given ++ [first]) next.advance =
                result at others_outcome
              cases others_outcome with
              | exhausted short => exact .exhausted short
              | fault failed => exact .fault (resumed.trans failed)
              | @ok others last after others_reads others_bound no_comma others_read =>
                  rw [List.append_assoc] at others_read ⊢
                  exact .ok (reads.cons comma others_reads) others_bound no_comma
                    (resumed.trans others_read)
          · rw [if_neg comma]
            have single : ReadsArguments limit ([] ++ [first]) cursor next := reads.single
            refine .ok single bound comma ?_
            rw [List.append_nil]
            exact read

end FormRules.Parser
