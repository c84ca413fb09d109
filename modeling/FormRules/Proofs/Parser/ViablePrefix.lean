import FormRules.Proofs.Grammar.DepthLimit
import FormRules.Proofs.Parser.Weight

/-!
# Where reading fails

From every state that the reader comes to there is a way to complete the text: an operand if one is
missing, and a parenthesis for every group and call that is open. So if reading fails at a token,
what was read before that token could have been completed, and with the token it cannot.
-/

namespace FormRules.Parser

open Grammar

/-! ## Reading without a limit -/

/-- Some tokens lead from one state to another under every limit that does not interfere. -/
inductive Reaches : State → List Token → State → Prop where
  | refl (state : State) : Reaches state [] state
  | cons {state next final : State} {token : Token} {tokens : List Token}
      (more : token.kind ≠ .endOfText) (light : next.weight ≤ state.weight + 1)
      (steps : ∀ limit, state.weight + 1 ≤ limit → step limit state token = .ok next)
      (reaches : Reaches next tokens final) : Reaches state (token :: tokens) final

namespace Reaches

variable {state final : State} {tokens : List Token}

theorem more (reaches : Reaches state tokens final) :
    ∀ token ∈ tokens, token.kind ≠ .endOfText := by
  induction reaches with
  | refl => simp
  | cons more light steps reaches induction => exact List.forall_mem_cons.2 ⟨more, induction⟩

theorem weight_le (reaches : Reaches state tokens final) :
    final.weight ≤ state.weight + tokens.length := by
  induction reaches with
  | refl => exact Nat.le_refl _
  | cons more light steps reaches induction =>
      rw [List.length_cons]
      omega

theorem run_append (reaches : Reaches state tokens final) {limit : Nat}
    (large : state.weight + tokens.length ≤ limit) (finalPosition : Nat) (rest : List Token) :
    run limit finalPosition state (tokens ++ rest) = run limit finalPosition final rest := by
  induction reaches with
  | refl => rfl
  | cons more light steps reaches induction =>
      rw [List.length_cons] at large
      rw [List.cons_append, run_cons_of_step more (steps limit (by omega))]
      exact induction (by omega)

end Reaches

/-- Under every limit that does not interfere, a state has a fault at the next token. -/
inductive Fails : State → Token → Fault → Prop where
  | step {state : State} {token : Token} {fault : Fault} (more : token.kind ≠ .endOfText)
      (fails : ∀ limit, state.weight + 1 ≤ limit →
        step limit state token = .error (fault.error token.position)) : Fails state token fault
  | finish {state : State} {token : Token} {fault : Fault} (last : token.kind = .endOfText)
      (fails : ∀ limit position, state.weight ≤ limit →
        finish limit state position = .error (fault.error position)) : Fails state token fault

theorem Fails.run_cons {state : State} {token : Token} {fault : Fault}
    (fails : Fails state token fault) {limit : Nat} {rest : List Token}
    (large : state.weight + (wordsOf (token :: rest)).length ≤ limit) (finalPosition : Nat) :
    run limit finalPosition state (token :: rest) = .error (fault.error token.position) := by
  cases fails with
  | step more fails =>
      rw [wordsOf_cons more, List.length_cons] at large
      exact run_cons_of_fault more (fails limit (by omega)) rest
  | finish last fails =>
      rw [run, if_pos last]
      exact fails limit token.position (by omega)

/-- Tokens up to the end of the text are an expression, or there is a first token at which reading
fails. -/
theorem reads_or_fails (state : State) {tokens : List Token}
    (ended : ∃ token ∈ tokens, token.kind = .endOfText) :
    (∃ expr, ∀ limit finalPosition, state.weight + (wordsOf tokens).length ≤ limit →
      run limit finalPosition state tokens = .ok expr) ∨
    ∃ front offending rest next fault, tokens = front ++ offending :: rest ∧
      Reaches state front next ∧ Fails next offending fault := by
  induction tokens generalizing state with
  | nil => simp at ended
  | cons token tokens induction =>
      by_cases last : token.kind = .endOfText
      · obtain ⟨expr, finishes⟩ | ⟨fault, fails⟩ := uniform_finish state
        · refine .inl ⟨expr, fun limit finalPosition large => ?_⟩
          rw [run, if_pos last]
          exact finishes limit token.position (by omega)
        · exact .inr ⟨[], token, tokens, state, fault, rfl, .refl state, .finish last fails⟩
      · obtain ⟨next, light, steps⟩ | ⟨fault, fails⟩ := uniform_step state token
        · have still : ∃ token ∈ tokens, token.kind = .endOfText := by
            obtain ⟨other, member, end_eq⟩ := ended
            rcases List.mem_cons.1 member with rfl | behind
            · exact absurd end_eq last
            · exact ⟨other, behind, end_eq⟩
          obtain ⟨expr, reads⟩ | ⟨front, offending, rest, final, fault, rfl, reaches, fails⟩ :=
            induction next still
          · refine .inl ⟨expr, fun limit finalPosition large => ?_⟩
            rw [wordsOf_cons last, List.length_cons] at large
            rw [run_cons_of_step last (steps limit (by omega))]
            exact reads limit finalPosition (by omega)
          · exact .inr ⟨token :: front, offending, rest, final, fault, rfl,
              .cons last light steps reaches, fails⟩
        · exact .inr ⟨[], token, tokens, state, fault, rfl, .refl state, .step last fails⟩

/-! ## Completing a text -/

/-- The first word is that of the first token. -/
theorem exists_rest_of_wordsOf {tokens : List Token} {word : TokenKind} {words : List TokenKind}
    (words_eq : wordsOf tokens = word :: words) :
    ∃ token rest, tokens = token :: rest ∧ token.kind = word ∧ word ≠ .endOfText ∧
      wordsOf rest = words := by
  cases tokens with
  | nil => exact nomatch words_eq
  | cons token rest =>
      have more : token.kind ≠ .endOfText := by
        intro last
        rw [wordsOf_cons_of_end last] at words_eq
        exact nomatch words_eq
      rw [wordsOf_cons more, List.cons.injEq] at words_eq
      obtain ⟨rfl, rest_eq⟩ := words_eq
      exact ⟨token, rest, rfl, rfl, more, rest_eq⟩

/-- Some tokens are so many closing parentheses, up to the end of the text. -/
def Closes (tokens : List Token) (count : Nat) : Prop :=
  wordsOf tokens = List.replicate count .rightParen

section Closes

variable {tokens : List Token} {count : Nat}

theorem Closes.head (closes : Closes tokens 0) :
    ∀ token ∈ tokens.head?, token.kind = .endOfText := by
  intro token head
  obtain ⟨rest, rfl⟩ := List.head?_eq_some_iff.1 head
  refine Decidable.byContradiction fun more => ?_
  rw [Closes, wordsOf_cons more] at closes
  exact nomatch closes

theorem Closes.exists_rest (closes : Closes tokens (count + 1)) :
    ∃ token rest, tokens = token :: rest ∧ token.kind = .rightParen ∧ Closes rest count := by
  obtain ⟨token, rest, tokens_eq, kind_eq, -, closes⟩ := exists_rest_of_wordsOf closes
  exact ⟨token, rest, tokens_eq, kind_eq, closes⟩

theorem Closes.nextBound (closes : Closes tokens count) : nextBound tokens = 0 := by
  cases count with
  | zero =>
      cases tokens with
      | nil => rfl
      | cons token rest => exact nextBound_cons_of_none (by rw [closes.head token rfl]; rfl) rest
  | succ count =>
      obtain ⟨token, rest, rfl, closing, -⟩ := closes.exists_rest
      exact nextBound_cons_of_none (by rw [closing]; rfl) rest

theorem Closes.no_call (closes : Closes tokens count) :
    ∀ token ∈ tokens.head?, token.kind ≠ .leftParen := by
  cases count with
  | zero =>
      intro token head
      simp [closes.head token head]
  | succ count =>
      obtain ⟨token, rest, rfl, closing, -⟩ := closes.exists_rest
      exact no_call_cons (by simp [closing]) rest

end Closes

/-- How many parentheses are open. -/
def unclosed : List Frame → Nat
  | [] => 0
  | .negation _ :: frames | .operation .. :: frames => unclosed frames
  | .group _ :: frames | .call .. :: frames => unclosed frames + 1

/-- Behind a complete operand, a closing parenthesis for each open one completes the text. -/
theorem exists_run_of_closes {limit : Nat} (finalPosition : Nat) {frames : List Frame}
    {operand : Operand} {tokens : List Token} (large : weight frames + operand.height ≤ limit)
    (closes : Closes tokens (unclosed frames)) :
    ∃ expr, run limit finalPosition ⟨frames, .complete operand⟩ tokens = .ok expr := by
  induction frames generalizing operand tokens with
  | nil =>
      refine ⟨operand.expr, ?_⟩
      cases tokens with
      | nil => rfl
      | cons token rest =>
          rw [run, if_pos (closes.head token rfl)]
          rfl
  | cons frame frames induction =>
      rw [weight_cons] at large
      -- neither a parenthesis nor the end of the text binds: what waits for an operand takes it
      cases frame with
      | negation position =>
          let node : Operand := ⟨.negate operand.expr, 1 + operand.height⟩
          rw [Frame.weight] at large
          have settled : settle limit (nextBound tokens) (.negation position :: frames) operand =
              settle limit (nextBound tokens) frames node := by
            rw [settle_negation, build_of_le (by omega)]
            rfl
          rw [run_complete_congr settled]
          exact induction (by simp only [node]; omega) closes
      | operation left op position =>
          let node : Operand :=
            ⟨.binary op left.expr operand.expr, 1 + max left.height operand.height⟩
          rw [Frame.weight] at large
          have taken : nextBound tokens ≤ op.precedence := by
            rw [closes.nextBound]
            exact Nat.zero_le _
          have settled :
              settle limit (nextBound tokens) (.operation left op position :: frames) operand =
                settle limit (nextBound tokens) frames node := by
            rw [settle_operation taken, build_of_le (by omega)]
            rfl
          rw [run_complete_congr settled]
          exact induction (by simp only [node]; omega) closes
      | group opening =>
          obtain ⟨token, rest, rfl, closing, closes⟩ := closes.exists_rest
          have stepped : step limit ⟨.group opening :: frames, .complete operand⟩ token =
              .ok ⟨frames, .complete operand⟩ := by
            rw [step_of_keeps (by exact trivial) (by rw [closing]; rfl)]
            simp only [readDelimiter, closing]
          rw [run_cons_of_step (by simp [closing]) stepped]
          exact induction (by omega) closes
      | call function position opening arguments =>
          obtain ⟨token, rest, rfl, closing, closes⟩ := closes.exists_rest
          let node : Operand := ⟨.call function ((operand :: arguments).reverse.map Operand.expr),
            1 + greatestHeight (operand :: arguments)⟩
          have height_le := greatestHeight_le (operand :: arguments)
          rw [totalHeight_cons] at height_le
          rw [Frame.weight] at large
          have stepped : step limit
              ⟨.call function position opening arguments :: frames, .complete operand⟩ token =
                .ok ⟨frames, .complete node⟩ := by
            rw [step_of_keeps (by exact trivial) (by rw [closing]; rfl)]
            simp only [readDelimiter, closing]
            rw [closeCall, build_of_le (by omega)]
            rfl
          rw [run_cons_of_step (by simp [closing]) stepped]
          exact induction (by simp only [node]; omega) closes

/-- From every state there are words that complete the text. -/
theorem exists_completion (state : State) :
    ∃ words : List TokenKind, .endOfText ∉ words ∧
      ∀ limit finalPosition tokens, state.weight + 1 ≤ limit → wordsOf tokens = words →
        ∃ expr, run limit finalPosition state tokens = .ok expr := by
  obtain ⟨frames, focus⟩ := state
  cases focus with
  | operand =>
      refine ⟨.text "" :: List.replicate (unclosed frames) .rightParen, by simp, ?_⟩
      intro limit finalPosition tokens large words_eq
      obtain ⟨token, rest, rfl, kind_eq, -, closes⟩ := exists_rest_of_wordsOf words_eq
      have stepped : step limit ⟨frames, .operand⟩ token =
          .ok ⟨frames, .complete (.leaf (.literal (.text "")))⟩ := by
        simp only [step, readOperand, kind_eq]
      rw [run_cons_of_step (by simp [kind_eq]) stepped]
      exact exists_run_of_closes finalPosition large closes
  | name name position =>
      refine ⟨List.replicate (unclosed frames) .rightParen, by simp, ?_⟩
      intro limit finalPosition tokens large closes
      rw [run_name name position (Closes.no_call closes)]
      exact exists_run_of_closes finalPosition (Nat.le_of_succ_le large) closes
  | complete operand =>
      refine ⟨List.replicate (unclosed frames) .rightParen, by simp, ?_⟩
      intro limit finalPosition tokens large closes
      exact exists_run_of_closes finalPosition (Nat.le_of_succ_le large) closes

/-! ## The first token that makes a text hopeless -/

/-- Some further words complete the tokens to a text that is read as an expression, under every
limit that is no smaller than the number of its words. -/
def Viable (front : List Token) : Prop :=
  ∃ words : List TokenKind, .endOfText ∉ words ∧
    ∀ limit further, wordsOf further = words → (wordsOf (front ++ further)).length ≤ limit →
      ∃ expr, Expr.ofTokens limit (front ++ further) = .ok expr

/-- No text that begins with the tokens is read as an expression, under any limit. -/
def Hopeless (front : List Token) : Prop :=
  ∀ limit further expr, Expr.ofTokens limit (front ++ further) ≠ .ok expr

section Reaches

variable {front : List Token} {offending : Token} {next : State} {fault : Fault}

theorem weight_le_of_reaches (reaches : Reaches .initial front next) :
    next.weight ≤ front.length := by
  have weight_le := reaches.weight_le
  rwa [weight_initial, Nat.zero_add] at weight_le

theorem ofTokens_of_reaches (reaches : Reaches .initial front next) {limit : Nat}
    (large : front.length ≤ limit) (rest : List Token) :
    Expr.ofTokens limit (front ++ rest) = run limit (endPosition (front ++ rest)) next rest :=
  reaches.run_append (by rwa [weight_initial, Nat.zero_add]) _ rest

theorem viable_of_reaches (reaches : Reaches .initial front next) : Viable front := by
  obtain ⟨words, inside, completes⟩ := exists_completion next
  refine ⟨words, inside, fun limit further words_eq enough => ?_⟩
  have weight_le := weight_le_of_reaches reaches
  obtain ⟨expr, read⟩ := completes (front.length + 1) (endPosition (front ++ further)) further
    (by omega) words_eq
  rw [← ofTokens_of_reaches reaches (Nat.le_succ _)] at read
  exact ⟨expr, ofTokens_of_derives enough (derives_of_ofTokens read)⟩

theorem hopeless_of_fails (reaches : Reaches .initial front next)
    (fails : Fails next offending fault) : Hopeless (front ++ [offending]) := by
  intro limit further expr accepted
  have weight_le := weight_le_of_reaches reaches
  -- what a limit accepts, a larger one accepts too, and that one does not interfere
  let large := max limit (front.length + (wordsOf (offending :: further)).length)
  have larger : Expr.ofTokens large _ = _ := ofTokens_mono (Nat.le_max_left _ _) accepted
  rw [List.append_assoc, List.singleton_append, ofTokens_of_reaches reaches (by omega),
    fails.run_cons (by omega)] at larger
  exact nomatch larger

theorem not_accepted_of_fails (reaches : Reaches .initial front next)
    (fails : Fails next offending fault) (last : offending.kind = .endOfText) (limit : Nat)
    (expr : Expr) : Expr.ofTokens limit front ≠ .ok expr := by
  intro accepted
  have weight_le := weight_le_of_reaches reaches
  let large := max limit front.length
  have larger : Expr.ofTokens large _ = _ := ofTokens_mono (Nat.le_max_left _ _) accepted
  cases fails with
  | step more fails => exact more last
  | finish last fails =>
      rw [← List.append_nil front, ofTokens_of_reaches reaches (by omega), run,
        fails _ _ (by omega)] at larger
      simp at larger

end Reaches

/-- If reading fails under a limit that is no smaller than the number of words, the error is at the
first token that makes the text hopeless: what is in front of it can be completed to an expression,
but nothing that begins with it and what is in front of it is an expression. At the end of the text,
what is in front of it is no expression yet. -/
theorem ofTokens_fails_at_first_hopeless {limit : Nat} {tokens : List Token} {error : ParseError}
    (enough : (wordsOf tokens).length ≤ limit)
    (failed : Expr.ofTokens limit tokens = .error error) :
    ∃ front offending rest, withEnd tokens = front ++ offending :: rest ∧
      (∀ token ∈ front, token.kind ≠ .endOfText) ∧ error.position = offending.position ∧
      Viable front ∧ Hopeless (front ++ [offending]) ∧
      (offending.kind = .endOfText → ∀ limit expr, Expr.ofTokens limit front ≠ .ok expr) := by
  rw [ofTokens_eq_run_withEnd] at failed
  rw [← wordsOf_withEnd] at enough
  have ended : ∃ token ∈ withEnd tokens, token.kind = .endOfText := Cursor.sealed_withEnd tokens
  obtain ⟨expr, reads⟩ | ⟨front, offending, rest, next, fault, split, reaches, fails⟩ :=
    reads_or_fails .initial ended
  · have read := reads limit (endPosition tokens) (by rwa [weight_initial, Nat.zero_add])
    rw [failed] at read
    exact nomatch read
  · have weight_le := weight_le_of_reaches reaches
    rw [split, wordsOf_append reaches.more, List.length_append, List.length_map] at enough
    rw [split, reaches.run_append (by rw [weight_initial]; omega), fails.run_cons (by omega),
      Except.error.injEq] at failed
    exact ⟨front, offending, rest, split, reaches.more, by rw [← failed]; rfl,
      viable_of_reaches reaches, hopeless_of_fails reaches fails,
      not_accepted_of_fails reaches fails⟩

/-- Behind a comma, a call cannot be closed. -/
theorem ofTokens_fails_at_trailing_comma :
    let words : List TokenKind :=
      [.identifier "f", .leftParen, .identifier "a", .comma, .rightParen, .endOfText]
    let tokens : List Token := words.mapIdx fun position word => ⟨word, position⟩
    (wordsOf tokens).length ≤ 5 ∧
      Expr.ofTokens 5 tokens = .error ((Fault.trailingComma "f").error 4) ∧
      Viable (tokens.take 4) ∧ Hopeless (tokens.take 5) := by
  intro words tokens
  have enough : (wordsOf tokens).length ≤ 5 := by decide
  have failed : Expr.ofTokens 5 tokens = .error ((Fault.trailingComma "f").error 4) := rfl
  obtain ⟨front, offending, rest, split, -, place, viable, hopeless, -⟩ :=
    ofTokens_fails_at_first_hopeless enough failed
  -- each token is at its own place, so the place of the error tells how many tokens are in front
  have positions : tokens.map Token.position = List.range 6 := rfl
  have split_eq : tokens = front ++ offending :: rest := split
  have counted : (List.range 6)[front.length]? = some 4 := by
    rw [← positions, split_eq, List.getElem?_map, List.getElem?_append_right (Nat.le_refl _),
      Nat.sub_self]
    exact congrArg some place.symm
  obtain ⟨_, length_eq⟩ := List.getElem?_eq_some_iff.1 counted
  rw [List.getElem_range] at length_eq
  have before : tokens.take 4 = front := by
    rw [split_eq, ← length_eq, List.take_left]
  have through : tokens.take 5 = front ++ [offending] := by
    rw [split_eq, List.append_cons, List.take_left' (by simp [length_eq])]
  rw [before, through]
  exact ⟨enough, failed, viable, hopeless⟩

end FormRules.Parser
