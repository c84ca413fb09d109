import FormRules.Proofs.Parser.Outcome

/-!
# One construct of the descent

The descent reads a construct as the reader does if it reads the content so: what it does itself at
the opening and at the end of the construct is what the reader does at these tokens.
-/

namespace FormRules.Parser

open Grammar

variable {limit finalPosition : Nat}

theorem Awaits.depth_lt {level : Level} {frames : List Frame} {cursor : Cursor}
    (awaits : Awaits limit level frames cursor) (room : cursor.opened + 1 ≤ limit) :
    depth frames < limit := by
  rw [awaits.depth_eq]
  exact room

theorem Awaits.le_depth {level : Level} {frames : List Frame} {cursor : Cursor}
    (awaits : Awaits limit level frames cursor) (full : ¬cursor.opened + 1 ≤ limit) :
    limit ≤ depth frames := by
  rw [awaits.depth_eq]
  exact Nat.le_of_lt_succ (Nat.lt_of_not_le full)

theorem run_bind_current {state : State} {cursor : Cursor} (ended : cursor.Sealed)
    (more : cursor.current.kind ≠ .endOfText) :
    run limit finalPosition state cursor.tokens =
      (step limit state cursor.current >>= fun next =>
        run limit finalPosition next cursor.advance.tokens) :=
  (congrArg _ (ended.advance more).1).trans (run_cons more _)

/-- The reader reads on as it steps at the current token. -/
theorem run_current {state next : State} {cursor : Cursor} (ended : cursor.Sealed)
    (more : cursor.current.kind ≠ .endOfText)
    (stepped : step limit state cursor.current = .ok next) :
    run limit finalPosition state cursor.tokens =
      run limit finalPosition next cursor.advance.tokens :=
  (congrArg _ (ended.advance more).1).trans (run_cons_of_step more stepped _)

theorem run_current_error {state : State} {cursor : Cursor} {error : ParseError}
    (ended : cursor.Sealed) (more : cursor.current.kind ≠ .endOfText)
    (stepped : step limit state cursor.current = .error error) :
    run limit finalPosition state cursor.tokens = .error error :=
  (congrArg _ (ended.advance more).1).trans (run_cons_of_fault more stepped _)

theorem run_current_end {state : State} {cursor : Cursor} (ended : cursor.Sealed)
    (last : cursor.current.kind = .endOfText) :
    run limit finalPosition state cursor.tokens = finish limit state cursor.current.position := by
  obtain ⟨rest, tokens_eq⟩ := ended.exists_rest
  rw [tokens_eq, run, if_pos last]

/-! ## Closing parentheses -/

/-- A construct in parentheses, opened at a place, that a token can close but not continue. -/
def Frame.ClosedBy (opening : Nat) (kind : TokenKind) : Frame → Prop
  | .group place => place = opening
  | .call _ _ place _ => place = opening ∧ kind ≠ .comma
  | _ => False

theorem Cursor.expectRightParen_of_closing {cursor : Cursor} {opening : Nat}
    (closing : cursor.current.kind = .rightParen) :
    cursor.expectRightParen opening = .ok cursor.advance := by
  rw [expectRightParen, closing]

/-- Behind the content of parentheses, the descent finds the closing one or the reader's error. -/
theorem expectRightParen_outcome (frame : Frame) {frames : List Frame} {operand : Operand}
    {opening : Nat} {cursor : Cursor} (ended : cursor.Sealed)
    (unbound : nextBound cursor.tokens < 1)
    (closes : frame.ClosedBy opening cursor.current.kind) :
    (cursor.current.kind = .rightParen ∧
      cursor.expectRightParen opening = .ok cursor.advance) ∨
    ∃ error, cursor.expectRightParen opening = .error (.fault error) ∧
      run limit finalPosition ⟨frame :: frames, .complete operand⟩ cursor.tokens =
        .error error := by
  have delimiter := binaryOp?_eq_none unbound
  by_cases closing : cursor.current.kind = .rightParen
  · exact .inl ⟨closing, Cursor.expectRightParen_of_closing closing⟩
  · refine .inr ?_
    by_cases last : cursor.current.kind = .endOfText
    · refine ⟨_, by rw [Cursor.expectRightParen, last], ?_⟩
      rw [run_current_end ended last]
      cases frame with
      | group place => exact closes ▸ rfl
      | call _ _ place => exact closes.1 ▸ rfl
      | _ => exact closes.elim
    · refine ⟨(Fault.rightParenExpected cursor.current.kind).error cursor.current.position, ?_,
        run_current_error ended last ?_⟩
      · rw [Cursor.expectRightParen]
        split <;> simp_all
      · cases frame with
        | group place =>
            rw [step_of_keeps (by exact trivial) delimiter]
            unfold readDelimiter
            split <;> simp_all
        | call _ _ place =>
            have no_comma := closes.2
            rw [step_of_keeps (by exact trivial) delimiter]
            unfold readDelimiter
            split <;> simp_all
        | _ => exact closes.elim

/-! ## Opening constructs -/

theorem Cursor.enter_of_le {cursor : Cursor} (room : cursor.opened + 1 ≤ limit) (position : Nat) :
    cursor.enter limit position = .ok ⟨cursor.tokens, cursor.opened + 1⟩ :=
  if_pos room

theorem Cursor.enter_of_lt {cursor : Cursor} (full : ¬cursor.opened + 1 ≤ limit)
    (position : Nat) :
    cursor.enter limit position =
      .error (.fault ((Fault.nestedTooDeep limit).error position)) :=
  if_neg full

/-- The reader in front of the content of a construct that was just opened. -/
theorem Awaits.inside {level inner : Level} {frames : List Frame} {cursor : Cursor}
    (awaits : Awaits limit level frames cursor) (room : cursor.opened + 1 ≤ limit) (frame : Frame)
    (open_frame : frame.isOpen = true) {tokens : List Token}
    (ended : (Cursor.mk tokens (cursor.opened + 1)).Sealed)
    (admits : Admits inner (frame :: frames))
    (expects : Expects (frame :: frames) (Cursor.mk tokens (cursor.opened + 1)).current.kind) :
    Awaits limit inner (frame :: frames) ⟨tokens, cursor.opened + 1⟩ where
  depth_eq := by
    rw [depth, List.countP_cons_of_pos open_frame]
    exact congrArg (· + 1) awaits.depth_eq
  admitted := room
  ended := ended
  admits := admits
  expects := expects

/-! ## Whole constructs -/

/-- A call of which the closing parenthesis is read, unless its height is over the limit. -/
theorem closeCall_outcome {function : String} {frames : List Frame} {cursor : Cursor}
    (next : Cursor) {exprs : List Expr} {shortage : Prop} (ended : cursor.Sealed)
    (named : cursor.current.kind = .identifier function)
    (opening : cursor.advance.current.kind = .leftParen)
    (reads : (exprs = [] ∧
      Consumes limit [] 0 ⟨cursor.advance.advance.tokens, cursor.opened + 1⟩ next) ∨
        ReadsArguments limit exprs ⟨cursor.advance.advance.tokens, cursor.opened + 1⟩ next)
    (closing : next.current.kind = .rightParen)
    (read : run limit finalPosition ⟨frames, .operand⟩ cursor.tokens =
      (closeCall limit function cursor.current.position (exprs.reverse.map .of) frames >>=
        fun state => run limit finalPosition state
          (Cursor.mk next.tokens cursor.opened).advance.tokens)) :
    Outcome limit finalPosition .primary frames cursor shortage
      (checkHeight limit (1 + Expr.maxHeight exprs) cursor.current.position >>= fun _ =>
        .ok (.call function exprs, (Cursor.mk next.tokens cursor.opened).advance)) := by
  have height_eq : (Expr.call function exprs).height = 1 + Expr.maxHeight exprs := by
    rw [Expr.height]
  rw [closeCall_of, height_eq] at read
  by_cases high : limit < 1 + Expr.maxHeight exprs
  · rw [checkHeight, if_pos high]
    rw [build_of_lt high] at read
    exact .fault read
  · rw [checkHeight, if_neg high]
    have low := Nat.le_of_not_lt high
    rw [build_of_le low, ← height_eq] at read
    exact .ok (reads_call ended named opening reads closing (by rw [height_eq]; exact low))
      (Nat.lt_succ_of_lt (nextBound_lt_unary _)) read

/-- A token that is a whole operand by itself. -/
theorem leaf_outcome {frames : List Frame} {cursor : Cursor} {shortage : Prop}
    (awaits : Awaits limit .primary frames cursor) (phrase : Phrase .primary)
    (tokens_eq : phrase.tokens = [cursor.current.kind]) (flat : phrase.nesting = 0)
    (height_eq : phrase.expr.height = 1) (more : cursor.current.kind ≠ .endOfText)
    (stepped : step limit ⟨frames, .operand⟩ cursor.current =
      .ok ⟨frames, .complete (.leaf phrase.expr)⟩) :
    Outcome limit finalPosition .primary frames cursor shortage
      (.ok (phrase.expr, cursor.advance)) := by
  have reads := Reads.leaf awaits.ended awaits.admitted phrase tokens_eq flat height_eq more
  have leaf_eq : Operand.leaf phrase.expr = .of phrase.expr := by
    rw [Operand.leaf, Operand.of, height_eq]
  rw [leaf_eq] at stepped
  exact .ok reads (Nat.lt_succ_of_lt (nextBound_lt_unary _))
    (run_current awaits.ended more stepped)

/-- A name that no parenthesis follows. -/
theorem field_outcome {name : String} {frames : List Frame} {cursor : Cursor} {shortage : Prop}
    (awaits : Awaits limit .primary frames cursor) (named : cursor.current.kind = .identifier name)
    (no_call : cursor.advance.current.kind ≠ .leftParen) :
    Outcome limit finalPosition .primary frames cursor shortage
      (.ok (.field name, cursor.advance)) := by
  have more : cursor.current.kind ≠ .endOfText := by simp [named]
  have reads := Reads.leaf awaits.ended awaits.admitted
    (.field name) (by rw [named]; rfl) rfl rfl more
  have stepped : step limit ⟨frames, .operand⟩ cursor.current =
      .ok ⟨frames, .name name cursor.current.position⟩ := by
    simp only [step, readOperand, named]
  refine .ok reads (Nat.lt_succ_of_lt (nextBound_lt_unary _))
    ((run_current awaits.ended more stepped).trans (run_name _ _ ?_))
  intro token head_eq
  obtain ⟨rest, tokens_eq⟩ := reads.ended.exists_rest
  rw [tokens_eq] at head_eq
  exact Option.some.inj head_eq ▸ no_call

/-- A minus sign in front of an operand that the descent reads as the reader does. -/
theorem negation_outcome {frames : List Frame} {cursor : Cursor} {shortage : Prop}
    (awaits : Awaits limit .unary frames cursor) (minus : cursor.current.kind = .minus)
    {operand : Reading Expr}
    (operand_outcome : cursor.opened + 1 ≤ limit →
      Awaits limit .unary (.negation cursor.current.position :: frames)
        ⟨cursor.advance.tokens, cursor.opened + 1⟩ →
      Outcome limit finalPosition .unary (.negation cursor.current.position :: frames)
        ⟨cursor.advance.tokens, cursor.opened + 1⟩ shortage
        (operand ⟨cursor.advance.tokens, cursor.opened + 1⟩)) :
    Outcome limit finalPosition .unary frames cursor shortage (do
      let entered ← cursor.advance.enter limit cursor.current.position
      let (operand, next) ← operand entered
      let left ← next.leave
      checkHeight limit (1 + operand.height) cursor.current.position
      return (.negate operand, left)) := by
  have more : cursor.current.kind ≠ .endOfText := by simp [minus]
  obtain ⟨-, opened_eq, advance_ended⟩ := awaits.ended.advance more
  by_cases room : cursor.opened + 1 ≤ limit
  · rw [Cursor.enter_of_le (by rw [opened_eq]; exact room), opened_eq]
    have opened : step limit ⟨frames, .operand⟩ cursor.current =
        .ok ⟨.negation cursor.current.position :: frames, .operand⟩ := by
      simp only [step, readOperand, minus]
      exact openFrame_of_lt (awaits.depth_lt room) _ _
    have resumed := @run_current _ finalPosition _ _ _ awaits.ended more opened
    replace operand_outcome := operand_outcome room (awaits.inside room
      (.negation cursor.current.position) rfl advance_ended
      (fun tight => absurd tight (Nat.lt_irrefl _)) trivial)
    dsimp only [bind, Except.bind]
    generalize operand ⟨cursor.advance.tokens, cursor.opened + 1⟩ = result at operand_outcome
    cases operand_outcome with
    | exhausted short => exact .exhausted short
    | fault failed => exact .fault (resumed.trans failed)
    | @ok expr next reads bound read =>
        have settles : settle limit (nextBound next.tokens)
            (.negation cursor.current.position :: frames) (.of expr) =
              (build limit (.negate expr) (1 + expr.height) cursor.current.position >>=
                settle limit (nextBound next.tokens) frames) :=
          settle_negation _ _ _
        simp only [reads.leave, checkHeight]
        by_cases high : limit < 1 + expr.height
        · rw [if_pos high]
          refine .fault (resumed.trans (read.trans (run_complete_error ?_)))
          rw [settles, build_of_lt high]
          rfl
        · rw [if_neg high]
          have low := Nat.le_of_not_lt high
          refine .ok (.negation awaits.ended minus reads (by rw [Expr.height]; exact low))
            bound (resumed.trans (read.trans (run_complete_congr ?_)))
          rw [settles, build_of_le low, Operand.of, Expr.height]
          rfl
  · rw [Cursor.enter_of_lt (by rw [opened_eq]; exact room)]
    refine .fault (run_current_error awaits.ended more ?_)
    simp only [step, readOperand, minus]
    exact openFrame_of_le (awaits.le_depth room) _ _

/-- A group of which the descent reads the content as the reader does. -/
theorem group_outcome {frames : List Frame} {cursor : Cursor} {shortage : Prop}
    (awaits : Awaits limit .primary frames cursor) (opening : cursor.current.kind = .leftParen)
    {content : Reading Expr}
    (content_outcome : cursor.opened + 1 ≤ limit →
      Awaits limit .equality (.group cursor.current.position :: frames)
        ⟨cursor.advance.tokens, cursor.opened + 1⟩ →
      Outcome limit finalPosition .equality (.group cursor.current.position :: frames)
        ⟨cursor.advance.tokens, cursor.opened + 1⟩ shortage
        (content ⟨cursor.advance.tokens, cursor.opened + 1⟩)) :
    Outcome limit finalPosition .primary frames cursor shortage (do
      let entered ← cursor.advance.enter limit cursor.current.position
      let (expr, next) ← content entered
      let left ← next.leave
      let closed ← left.expectRightParen cursor.current.position
      return (expr, closed)) := by
  have more : cursor.current.kind ≠ .endOfText := by simp [opening]
  obtain ⟨-, opened_eq, advance_ended⟩ := awaits.ended.advance more
  by_cases room : cursor.opened + 1 ≤ limit
  · rw [Cursor.enter_of_le (by rw [opened_eq]; exact room), opened_eq]
    have opened : step limit ⟨frames, .operand⟩ cursor.current =
        .ok ⟨.group cursor.current.position :: frames, .operand⟩ := by
      simp only [step, readOperand, opening]
      exact openFrame_of_lt (awaits.depth_lt room) _ _
    have resumed := @run_current _ finalPosition _ _ _ awaits.ended more opened
    replace content_outcome := content_outcome room (awaits.inside room
      (.group cursor.current.position) rfl advance_ended (fun _ => trivial) trivial)
    dsimp only [bind, Except.bind]
    generalize content ⟨cursor.advance.tokens, cursor.opened + 1⟩ = result at content_outcome
    cases content_outcome with
    | exhausted short => exact .exhausted short
    | fault failed => exact .fault (resumed.trans failed)
    | @ok expr next reads bound read =>
        simp only [reads.leave]
        have left_ended : (Cursor.mk next.tokens cursor.opened).Sealed := reads.ended
        rcases expectRightParen_outcome (.group cursor.current.position) left_ended bound
          rfl with ⟨closing, expected⟩ | ⟨error, expected, failed⟩
        · rw [expected]
          refine .ok (.group awaits.ended opening reads closing)
            (Nat.lt_succ_of_lt (nextBound_lt_unary _))
            (resumed.trans (read.trans (run_current left_ended (by simp [closing]) ?_)))
          rw [step_of_keeps (by exact trivial) (by rw [closing]; rfl)]
          simp only [readDelimiter, closing]
        · rw [expected]
          exact .fault (resumed.trans (read.trans failed))
  · rw [Cursor.enter_of_lt (by rw [opened_eq]; exact room)]
    refine .fault (run_current_error awaits.ended more ?_)
    simp only [step, readOperand, opening]
    exact openFrame_of_le (awaits.le_depth room) _ _

/-- A call of which the descent reads the arguments as the reader does. -/
theorem call_outcome {function : String} {frames : List Frame} {cursor : Cursor} {shortage : Prop}
    (awaits : Awaits limit .primary frames cursor)
    (named : cursor.current.kind = .identifier function)
    (opening : cursor.advance.current.kind = .leftParen) {arguments : Reading (List Expr)}
    (arguments_outcome : cursor.opened + 1 ≤ limit →
      Awaits limit .equality (.calling function cursor.current.position
          cursor.advance.current.position [] :: frames)
        ⟨cursor.advance.advance.tokens, cursor.opened + 1⟩ →
      ArgumentsOutcome limit finalPosition
        (.calling function cursor.current.position cursor.advance.current.position) frames []
        ⟨cursor.advance.advance.tokens, cursor.opened + 1⟩ shortage
        (arguments ⟨cursor.advance.advance.tokens, cursor.opened + 1⟩)) :
    Outcome limit finalPosition .primary frames cursor shortage (do
      let entered ← cursor.advance.advance.enter limit cursor.current.position
      let (arguments, next) ←
        if entered.current.kind = .rightParen then .ok ([], entered) else arguments entered
      let left ← next.leave
      let closed ← left.expectRightParen cursor.advance.current.position
      checkHeight limit (1 + Expr.maxHeight arguments) cursor.current.position
      return (.call function arguments, closed)) := by
  have more : cursor.current.kind ≠ .endOfText := by simp [named]
  obtain ⟨-, opened_eq, advance_ended⟩ := awaits.ended.advance more
  obtain ⟨-, behind_eq, behind_ended⟩ := advance_ended.advance (by simp [opening])
  have named_step : step limit ⟨frames, .operand⟩ cursor.current =
      .ok ⟨frames, .name function cursor.current.position⟩ := by
    simp only [step, readOperand, named]
  have named_run := @run_current _ finalPosition _ _ _ awaits.ended more named_step
  by_cases room : cursor.opened + 1 ≤ limit
  · rw [Cursor.enter_of_le (by rw [behind_eq, opened_eq]; exact room), behind_eq, opened_eq]
    have opened : step limit ⟨frames, .name function cursor.current.position⟩
        cursor.advance.current = .ok ⟨.calling function cursor.current.position
          cursor.advance.current.position [] :: frames, .operand⟩ := by
      simp only [step, opening, if_true]
      exact openFrame_of_lt (awaits.depth_lt room) _ _
    have resumed := named_run.trans
      (run_current advance_ended (by simp [opening]) opened)
    dsimp only [bind, Except.bind]
    by_cases empty :
        (Cursor.mk cursor.advance.advance.tokens (cursor.opened + 1)).current.kind = .rightParen
    · rw [if_pos empty]
      have reads : Consumes limit [] 0 ⟨cursor.advance.advance.tokens, cursor.opened + 1⟩
          ⟨cursor.advance.advance.tokens, cursor.opened + 1⟩ := .refl behind_ended room
      have left_ended : (Cursor.mk cursor.advance.advance.tokens cursor.opened).Sealed :=
        behind_ended
      have closing : (Cursor.mk cursor.advance.advance.tokens cursor.opened).current.kind =
        .rightParen := empty
      simp only [reads.leave, Cursor.expectRightParen_of_closing closing]
      refine closeCall_outcome ⟨cursor.advance.advance.tokens, cursor.opened + 1⟩ awaits.ended
        named opening (.inl ⟨rfl, reads⟩) empty
        (resumed.trans ((run_bind_current left_ended (by simp [closing])).trans ?_))
      congr 1
      simp only [step, readOperand, closing]
      rfl
    · rw [if_neg empty]
      replace arguments_outcome := arguments_outcome room
        (awaits.inside room _ rfl behind_ended (fun _ => trivial) empty)
      generalize arguments ⟨cursor.advance.advance.tokens, cursor.opened + 1⟩ = result
        at arguments_outcome
      cases arguments_outcome with
      | exhausted short => exact .exhausted short
      | fault failed => exact .fault (resumed.trans failed)
      | @ok others last next reads bound no_comma read =>
          simp only [reads.leave]
          have left_ended : (Cursor.mk next.tokens cursor.opened).Sealed := reads.ended
          rcases expectRightParen_outcome (.calling function cursor.current.position
            cursor.advance.current.position others) left_ended bound ⟨rfl, no_comma⟩ with
            ⟨closing, expected⟩ | ⟨error, expected, failed⟩
          · simp only [expected]
            refine closeCall_outcome next awaits.ended named opening (.inr reads) closing
              (resumed.trans (read.trans
                ((run_bind_current left_ended (by simp [closing])).trans ?_)))
            congr 1
            rw [step_of_keeps (by exact trivial) (by rw [closing]; rfl),
              List.nil_append, List.nil_append, List.reverse_append]
            simp only [readDelimiter, Frame.calling, closing]
            rfl
          · simp only [expected]
            exact .fault (resumed.trans (read.trans failed))
  · rw [Cursor.enter_of_lt (by rw [behind_eq, opened_eq]; exact room)]
    refine .fault (named_run.trans (run_current_error advance_ended (by simp [opening]) ?_))
    simp only [step, opening, if_true]
    exact openFrame_of_le (awaits.le_depth room) _ _

/-- What no operand starts with. -/
theorem noOperand_outcome {frames : List Frame} {cursor : Cursor} {shortage : Prop}
    (awaits : Awaits limit .primary frames cursor)
    (missing : ¬StartsOperand cursor.current.kind) :
    Outcome limit finalPosition .primary frames cursor shortage
      (.error (.fault (if cursor.current.kind = .endOfText then
          Fault.missingOperand.error cursor.current.position
        else (Fault.operandExpected cursor.current.kind).error cursor.current.position))) := by
  have expects := awaits.expects
  cases kind : cursor.current.kind with
  | identifier | number | text | minus | leftParen =>
      rw [kind] at missing
      exact absurd trivial missing
  | endOfText =>
      rw [kind] at expects
      refine .fault ((run_current_end awaits.ended kind).trans ?_)
      cases frames with
      | nil => exact absurd rfl expects
      | cons frame frames => rfl
  | rightParen =>
      rw [kind] at expects
      refine .fault (run_current_error awaits.ended (by simp [kind]) ?_)
      simp only [step, readOperand, kind]
      split
      · exact absurd rfl expects
      · exact absurd rfl expects
      · rfl
  | _ =>
      exact .fault (run_current_error awaits.ended (by simp [kind])
        (by simp only [step, readOperand, kind]; rfl))

end FormRules.Parser
