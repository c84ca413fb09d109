import FormRules.Proofs.Grammar.Neighbours
import FormRules.Proofs.Parser.Acceptance

/-!
# The language of the reader

Without a limit that could interfere, the reader accepts exactly the words that the grammar derives
and builds the tree of their only derivation.
-/

namespace FormRules

namespace Grammar

/-- Some ways in which words fail to be an expression. -/
inductive Malformed : List TokenKind → Prop where
  /-- No operand stands at the front. -/
  | missingFirst {words : List TokenKind} (missing : ∀ head ∈ words.head?, ¬StartsOperand head) :
      Malformed words
  /-- No operand stands behind an operator, a comma or an opening parenthesis. -/
  | missingOperand (before after : List TokenKind) {word : TokenKind}
      (waits : word.endsOperand = false)
      (missing : ∀ next ∈ after.head?, ¬StartsOperand next)
      (no_empty : word = .leftParen → after.head? ≠ some .rightParen) :
      Malformed (before ++ word :: after)
  | trailingComma (before after : List TokenKind) :
      Malformed (before ++ .comma :: .rightParen :: after)
  /-- Empty parentheses stand elsewhere than behind a name. -/
  | emptyGroup (before after : List TokenKind)
      (no_call : ∀ name, before.getLast? ≠ some (.identifier name)) :
      Malformed (before ++ .leftParen :: .rightParen :: after)
  /-- Something follows a whole expression that does not continue it. -/
  | trailing (phrase : Phrase .equality) {word : TokenKind} (after : List TokenKind)
      (no_operator : ∀ level op, ¬Joins level word op)
      (no_call : word = .leftParen → ∀ name, phrase.tokens.getLast? ≠ some (.identifier name)) :
      Malformed (phrase.tokens ++ word :: after)

/-- Neighbours behind a token that waits for an operand. -/
theorem Fits.starts {previous : Option TokenKind} {first second : TokenKind}
    (fits : Fits previous first second) (waits : first.endsOperand = false) :
    StartsOperand second ∨ first = .leftParen ∧ second = .rightParen ∧
      ∃ name, previous = some (.identifier name) := by
  cases fits with
  | operator ends | comma ends | close ends => exact absurd (waits.symm.trans ends) (by decide)
  | call name => exact nomatch waits
  | operand _ starts => exact .inl starts
  | empty name => exact .inr ⟨rfl, rfl, name, rfl⟩

/-- Behind a whole expression, only an operator or a parenthesis behind a name continues it. -/
theorem Phrase.not_trailing {phrase whole : Phrase .equality} {word : TokenKind}
    {after : List TokenKind} (same : whole.tokens = phrase.tokens ++ word :: after)
    (no_operator : ∀ level op, ¬Joins level word op)
    (no_call : word = .leftParen → ∀ name, phrase.tokens.getLast? ≠ some (.identifier name)) :
    False := by
  by_cases paren : word = .leftParen
  · obtain ⟨front, last, tokens_eq, ends⟩ := phrase.wellFormed.ends
    have fits := whole.wellFormed.fitting front last word after
      (by rw [same, tokens_eq, List.append_assoc]; rfl)
    have names : ∀ name, last ≠ .identifier name := by
      rintro name rfl
      exact no_call paren name (by rw [tokens_eq, List.getLast?_concat])
    subst paren
    generalize front.getLast? = previous at fits
    cases fits with
    | operator _ joins => exact no_operator _ _ joins
    | call name => exact names name rfl
    | operand waits => exact absurd (waits.symm.trans ends) (by decide)
  · have ends : Level.equality.EndsBefore (word :: after) := by
      intro head head_eq
      obtain rfl := Option.some.inj head_eq
      exact ⟨paren, fun other op joins => absurd joins (no_operator other op)⟩
    have appended : phrase.tokens ++ word :: after = whole.tokens ++ [] := by
      rw [same, List.append_nil]
    have compared := phrase.starts_or_starts whole appended (Level.endsBefore_next ends)
      (Level.endsBefore_nil _)
    exact nomatch (eq_of_starts compared appended ends (Level.endsBefore_nil _)).2

/-- Malformed words have no derivation. -/
theorem Malformed.not_derives {words : List TokenKind} (malformed : Malformed words)
    (expr : Expr) : ¬Derives words expr := by
  rintro ⟨phrase, tokens_eq, -⟩
  have formed := phrase.wellFormed
  cases malformed with
  | missingFirst missing =>
      obtain ⟨head, tail, head_eq, starts⟩ := formed.starts
      exact missing head (by rw [← tokens_eq, head_eq]; rfl) starts
  | @missingOperand before after word waits missing no_empty =>
      cases after with
      | nil =>
          obtain ⟨front, last, last_eq, ends⟩ := formed.ends
          obtain rfl := last_eq_last (tokens_eq.symm.trans last_eq)
          exact absurd (waits.symm.trans ends) (by decide)
      | cons next after =>
          rcases (formed.fitting before word next after tokens_eq).starts waits with
            starts | ⟨rfl, rfl, -⟩
          · exact missing next rfl starts
          · exact no_empty rfl rfl
  | trailingComma before after =>
      rcases (formed.fitting before .comma .rightParen after tokens_eq).starts rfl with
        starts | ⟨comma, -⟩
      · exact starts
      · exact nomatch comma
  | emptyGroup before after no_call =>
      rcases (formed.fitting before .leftParen .rightParen after tokens_eq).starts rfl with
        starts | ⟨-, -, name, named⟩
      · exact starts
      · exact no_call name named
  | trailing inner after no_operator no_call =>
      exact Phrase.not_trailing tokens_eq no_operator no_call

end Grammar

namespace Parser

open Grammar

/-- Words that derive an expression are read if the limit is no smaller than their number. -/
theorem ofTokens_of_derives {limit : Nat} {tokens : List Token}
    (enough : (wordsOf tokens).length ≤ limit) {expr : Expr}
    (derives : Derives (wordsOf tokens) expr) : Expr.ofTokens limit tokens = .ok expr := by
  obtain ⟨phrase, tokens_eq, rfl⟩ := derives
  have nesting_le := phrase.nesting_le_length
  have height_le := phrase.height_le_length
  rw [tokens_eq] at nesting_le height_le
  exact ofTokens_of_phrase phrase tokens_eq (by omega) (by omega)

theorem derives_of_ofTokens {limit : Nat} {tokens : List Token} {expr : Expr}
    (accepted : Expr.ofTokens limit tokens = .ok expr) : Derives (wordsOf tokens) expr := by
  obtain ⟨phrase, tokens_eq, expr_eq, -⟩ := ofTokens_eq_ok_iff.1 accepted
  exact ⟨phrase, tokens_eq, expr_eq⟩

/-- Two operations of one stratum next to each other associate to the left. -/
theorem derives_left_associated {level : Level} {first : Phrase level}
    {second third : Phrase level.next} {token later : TokenKind} {op laterOp : BinaryOp}
    (joins : Joins level token op) (later_joins : Joins level later laterOp) :
    Derives (first.tokens ++ token :: second.tokens ++ later :: third.tokens)
      (.binary laterOp (.binary op first.expr second.expr) third.expr) := by
  obtain ⟨whole, tokens_eq, expr_eq, -⟩ :=
    (Phrase.join later laterOp later_joins (.join token op joins first second) third).loosen
      .equality level.rank_pos
  exact ⟨whole, tokens_eq, expr_eq⟩

/-- The reader accepts exactly what the grammar derives and answers with the tree of the only
derivation, in which operations of one stratum associate to the left. -/
theorem ofTokens_eq_ok_iff_derives {limit : Nat} {tokens : List Token}
    (enough : (wordsOf tokens).length ≤ limit) :
    (∀ expr, Expr.ofTokens limit tokens = .ok expr ↔ Derives (wordsOf tokens) expr) ∧
    (∀ phrase other : Phrase .equality, phrase.tokens = wordsOf tokens →
      other.tokens = wordsOf tokens → phrase = other) ∧
    (∀ (level : Level) (first : Phrase level) (second third : Phrase level.next)
      (token later : TokenKind) (op laterOp : BinaryOp),
      Joins level token op → Joins level later laterOp →
      wordsOf tokens = first.tokens ++ token :: second.tokens ++ later :: third.tokens →
      Expr.ofTokens limit tokens =
        .ok (.binary laterOp (.binary op first.expr second.expr) third.expr)) ∧
    (Malformed (wordsOf tokens) → ∀ expr, Expr.ofTokens limit tokens ≠ .ok expr) := by
  refine ⟨fun expr => ⟨derives_of_ofTokens, ofTokens_of_derives enough⟩, ?_, ?_, ?_⟩
  · intro phrase other tokens_eq other_eq
    exact Phrase.eq_of_tokens (tokens_eq.trans other_eq.symm)
  · intro level first second third token later op laterOp joins later_joins words_eq
    apply ofTokens_of_derives enough
    rw [words_eq]
    exact derives_left_associated joins later_joins
  · intro malformed expr accepted
    exact malformed.not_derives expr (derives_of_ofTokens accepted)

/-- Of three fields with minus signs between them, in front of the end of the text, the first two
are subtracted first. -/
theorem ofTokens_two_minus_signs :
    let words : List TokenKind :=
      [.identifier "a", .minus, .identifier "b", .minus, .identifier "c"]
    let tokens : List Token := words.map (⟨·, 0⟩) ++ [⟨.endOfText, 0⟩, ⟨.plus, 0⟩]
    (wordsOf tokens).length ≤ 5 ∧
      Expr.ofTokens 5 tokens =
        .ok (.binary .sub (.binary .sub (.field "a") (.field "b")) (.field "c")) := by
  intro words tokens
  have words_eq : wordsOf tokens = words := rfl
  have enough : (wordsOf tokens).length ≤ 5 := Nat.le_of_eq (congrArg List.length words_eq)
  let unary (name : String) : Phrase .unary := .lift (by decide) (.field name)
  let product (name : String) : Phrase .product := .lift (by decide) (unary name)
  let sum (name : String) : Phrase .sum := .lift (by decide) (product name)
  obtain ⟨-, -, left_associated, -⟩ := ofTokens_eq_ok_iff_derives enough
  exact ⟨enough, left_associated .sum (sum "a") (product "b") (product "c") .minus .minus .sub .sub
    .minus .minus words_eq⟩

end Parser
end FormRules
