import FormRules.Expr.Printer
import FormRules.Proofs.Lexer.Spelled
import FormRules.Proofs.Parser.Acceptance

/-!
# The canonical text of an expression reads back

The canonical text puts every operation in parentheses, so its words are a phrase that stands for
the expression, with at most two open constructs for each level of the tree.
-/

namespace FormRules

open Grammar Lexer

namespace Expr

mutual

/-- The literals are finite numbers and texts, and the names can be read as such. -/
def isReadable : Expr → Bool
  | literal (.number value) => value.isFinite
  | literal (.text _) => true
  | literal _ => false
  | field name => Lexeme.isName name
  | negate operand => operand.isReadable
  | binary _ left right => left.isReadable && right.isReadable
  | call function arguments => Lexeme.isName function && areReadable arguments

/-- Every expression of a list is readable. -/
def areReadable : List Expr → Bool
  | [] => true
  | head :: rest => head.isReadable && areReadable rest

end

theorem delimits_nil : Delimits [] := by
  simp [Delimits]

theorem delimits_cons {head : Char} (delimiter : head = ' ' ∨ head = ',' ∨ head = ')')
    (rest : List Char) : Delimits (head :: rest) := by
  intro next next_eq
  obtain rfl := Option.some.inj next_eq
  exact delimiter

/-- The canonical text of an expression is passed over as the words of a phrase for it. -/
structure ReadAs {level : Level} (expr : Expr) (phrase : Phrase level) : Prop where
  expr_eq : phrase.expr = expr
  nested : phrase.nesting + 1 ≤ 2 * expr.height
  passes : ∀ rest, Delimits rest → Passes false (expr.spelling ++ rest) phrase.tokens true rest

/-- The canonical texts of some expressions are passed over as the words of arguments for them. -/
structure ReadAsArguments (exprs : List Expr) (arguments : Arguments) : Prop where
  exprs_eq : arguments.exprs = exprs
  nested : arguments.nesting + 1 ≤ 2 * maxHeight exprs
  passes : ∀ rest, Passes false (argumentsText exprs ++ ')' :: rest) arguments.tokens true
    (')' :: rest)

theorem ReadAs.loosen {tight : Level} {expr : Expr} {phrase : Phrase tight}
    (read : ReadAs expr phrase) (level : Level) (le : level.rank ≤ tight.rank) :
    ∃ whole : Phrase level, ReadAs expr whole := by
  obtain ⟨whole, tokens_eq, expr_eq, nesting_eq⟩ := phrase.loosen level le
  refine ⟨whole, expr_eq.trans read.expr_eq, ?_, ?_⟩
  · rw [nesting_eq]
    exact read.nested
  · rw [tokens_eq]
    exact read.passes

/-- A text in parentheses is passed over as words in parentheses. -/
theorem passes_parentheses {before between : Bool} {text rest : List Char}
    {words : List TokenKind}
    (inner : Passes false (text ++ ')' :: rest) words between (')' :: rest)) :
    Passes before ('(' :: text ++ [')'] ++ rest) (.leftParen :: words ++ [.rightParen]) true
      rest := by
  have opening : Passes before ('(' :: (text ++ ')' :: rest)) [.leftParen] false
      (text ++ ')' :: rest) := passes_of_read rfl rfl
  have closing : Passes between (')' :: rest) [.rightParen] true rest := passes_of_read rfl rfl
  have text_eq : '(' :: text ++ [')'] ++ rest = '(' :: (text ++ ')' :: rest) := by simp
  rw [text_eq]
  exact (opening.trans inner).trans closing

/-- A name is passed over together with the arguments behind it. -/
theorem passes_call {before between : Bool} {function : String} {text rest : List Char}
    {words : List TokenKind} (named : Lexeme.isName function = true)
    (inner : Passes false (text ++ ')' :: rest) words between (')' :: rest)) :
    Passes before (function.toList ++ '(' :: text ++ [')'] ++ rest)
      (.identifier function :: .leftParen :: words ++ [.rightParen]) true rest := by
  have ends : ∀ head ∈ ('(' :: text ++ [')'] ++ rest).head?,
      Lexeme.continuesName head = false := by
    intro head member
    obtain rfl := Option.some.inj member
    decide
  have name : Passes before _ _ _ _ := passes_name named ends
  have group : Passes true _ _ _ _ := passes_parentheses inner
  have text_eq : function.toList ++ '(' :: text ++ [')'] ++ rest =
      function.toList ++ ('(' :: text ++ [')'] ++ rest) := by simp
  rw [text_eq]
  exact name.trans group

theorem spelling_number (value : Number) : (literal (.number value)).spelling = value.text := by
  rw [spelling, literalText, Value.display, String.toList_ofList]
  all_goals simp

/-! ## Expression by expression -/

/-- A literal or a field is read as the one word that it is written as. -/
theorem readAs_word {expr : Expr} {phrase : Phrase .primary} (expr_eq : phrase.expr = expr)
    (flat : phrase.nesting = 0)
    (passes : ∀ rest, Delimits rest →
      Passes false (expr.spelling ++ rest) phrase.tokens true rest) :
    ReadAs expr phrase where
  expr_eq := expr_eq
  nested := by
    have height_pos := expr.height_pos
    omega
  passes := passes

theorem exists_readAs_literal {value : Value} (readable : (literal value).isReadable = true) :
    ∃ phrase : Phrase .primary, ReadAs (literal value) phrase := by
  cases value with
  | null | boolean | date => exact nomatch readable
  | number value =>
      refine ⟨.number value, readAs_word rfl rfl fun rest delimits => ?_⟩
      rw [spelling_number]
      exact passes_number readable delimits
  | text content =>
      refine ⟨.text content, readAs_word rfl rfl fun rest _ => ?_⟩
      rw [spelling, literalText]
      exact passes_quote content rest

theorem readAs_field {name : String} (named : Lexeme.isName name = true) :
    ReadAs (.field name) (.field name) := by
  refine readAs_word rfl rfl fun rest delimits => ?_
  rw [spelling]
  refine passes_name named fun head member => ?_
  rcases delimits head member with rfl | rfl | rfl <;> decide

theorem readAs_negate {operand : Expr} {phrase : Phrase .equality} (read : ReadAs operand phrase) :
    ReadAs (.negate operand) (.negation (.lift (by decide) (.group phrase))) where
  expr_eq := by simp only [Phrase.expr, read.expr_eq]
  nested := by
    have nested := read.nested
    simp only [Phrase.nesting, height]
    omega
  passes rest _ := by
    have minus : Passes false ('-' :: ('(' :: operand.spelling ++ [')'] ++ rest)) [.minus] false
        ('(' :: operand.spelling ++ [')'] ++ rest) := passes_of_read rfl rfl
    have group : Passes false _ _ _ _ :=
      passes_parentheses (read.passes (')' :: rest) (delimits_cons (by simp) rest))
    rw [spelling, List.cons_append, List.cons_append]
    exact minus.trans group

/-- An operation is read as a group around it. -/
theorem exists_readAs_binary {op : BinaryOp} {left right : Expr}
    {leftPhrase rightPhrase : Phrase .unary} (left_read : ReadAs left leftPhrase)
    (right_read : ReadAs right rightPhrase) :
    ∃ phrase : Phrase .primary, ReadAs (.binary op left right) phrase := by
  obtain ⟨level, word, joins, symbol_passes⟩ := exists_passes_symbol op
  have level_lt := joins.rank_lt_unary
  have next_rank := Level.rank_next joins.loose
  obtain ⟨first, first_read⟩ := left_read.loosen level (Nat.le_of_lt level_lt)
  obtain ⟨second, second_read⟩ := right_read.loosen level.next (by rw [next_rank]; exact level_lt)
  obtain ⟨whole, whole_tokens, whole_expr, whole_nesting⟩ :=
    (Phrase.join word op joins first second).loosen .equality level.rank_pos
  refine ⟨.group whole, ?_, ?_, fun rest delimits => ?_⟩
  · simp only [Phrase.expr, whole_expr, first_read.expr_eq, second_read.expr_eq]
  · have left_nested := first_read.nested
    have right_nested := second_read.nested
    simp only [Phrase.nesting, whole_nesting, height]
    omega
  · have left_passes := first_read.passes
      (' ' :: (op.symbol.toList ++ ' ' :: (right.spelling ++ ')' :: rest)))
      (delimits_cons (by simp) _)
    have right_passes : Passes false (' ' :: (right.spelling ++ ')' :: rest)) second.tokens true
        (')' :: rest) :=
      (second_read.passes (')' :: rest) (delimits_cons (by simp) rest)).blank rfl
    have inner := (left_passes.trans (symbol_passes (right.spelling ++ ')' :: rest))).trans
      right_passes
    have tokens_eq : first.tokens ++ [word] ++ second.tokens = whole.tokens := by
      rw [whole_tokens, Phrase.tokens, List.append_assoc]
      rfl
    have text_eq : (binary op left right).spelling ++ rest =
        '(' :: (left.spelling ++ ' ' :: (op.symbol.toList ++ ' ' :: right.spelling)) ++ [')'] ++
          rest := by
      simp [spelling]
    have inner_eq : left.spelling ++
          ' ' :: (op.symbol.toList ++ ' ' :: (right.spelling ++ ')' :: rest)) =
        left.spelling ++ ' ' :: (op.symbol.toList ++ ' ' :: right.spelling) ++ ')' :: rest := by
      simp
    rw [tokens_eq, inner_eq] at inner
    rw [text_eq]
    exact passes_parentheses inner

theorem readAs_emptyCall {function : String} (named : Lexeme.isName function = true) :
    ReadAs (.call function []) (.emptyCall function) where
  expr_eq := rfl
  nested := by
    simp only [Phrase.nesting, height, maxHeight]
    decide
  passes rest _ := by
    have nothing : Passes false ([] ++ ')' :: rest) [] false (')' :: rest) := passes_nothing
    rw [spelling, argumentsText]
    exact passes_call named nothing

theorem readAs_call {function : String} {exprs : List Expr} {arguments : Arguments}
    (named : Lexeme.isName function = true) (read : ReadAsArguments exprs arguments) :
    ReadAs (.call function exprs) (.call function arguments) where
  expr_eq := congrArg (Expr.call function) read.exprs_eq
  nested := by
    have nested := read.nested
    simp only [Phrase.nesting, height]
    omega
  passes rest _ := by
    rw [spelling]
    exact passes_call named (read.passes rest)

theorem readAsArguments_last {expr : Expr} {phrase : Phrase .equality}
    (read : ReadAs expr phrase) : ReadAsArguments [expr] (.last phrase) where
  exprs_eq := congrArg ([·]) read.expr_eq
  nested := by
    have nested := read.nested
    simp only [Arguments.nesting, maxHeight]
    omega
  passes rest := read.passes (')' :: rest) (delimits_cons (by simp) rest)

theorem readAsArguments_more {expr next : Expr} {more : List Expr} {phrase : Phrase .equality}
    {arguments : Arguments} (read : ReadAs expr phrase)
    (more_read : ReadAsArguments (next :: more) arguments) :
    ReadAsArguments (expr :: next :: more) (.more phrase arguments) where
  exprs_eq := by simp only [Arguments.exprs, read.expr_eq, more_read.exprs_eq]
  nested := by
    have nested := read.nested
    have more_nested := more_read.nested
    rw [Arguments.nesting, maxHeight]
    omega
  passes rest := by
    have behind : Passes false (' ' :: (argumentsText (next :: more) ++ ')' :: rest))
        arguments.tokens true (')' :: rest) := (more_read.passes rest).blank rfl
    have comma : Passes true (',' :: ' ' :: (argumentsText (next :: more) ++ ')' :: rest))
        [.comma] false (' ' :: (argumentsText (next :: more) ++ ')' :: rest)) :=
      passes_of_read rfl rfl
    have first := read.passes (',' :: ' ' :: (argumentsText (next :: more) ++ ')' :: rest))
      (delimits_cons (by simp) _)
    have text_eq : argumentsText (expr :: next :: more) ++ ')' :: rest =
        expr.spelling ++ ',' :: ' ' :: (argumentsText (next :: more) ++ ')' :: rest) := by
      rw [argumentsText, List.append_assoc]
      rfl
    rw [text_eq]
    exact first.trans (comma.trans behind)

mutual

/-- Every readable expression is read back as a phrase that may stand in front of an operator. -/
theorem exists_readAs : ∀ expr : Expr, expr.isReadable = true →
    ∃ phrase : Phrase .unary, ReadAs expr phrase
  | literal value, readable => by
      obtain ⟨phrase, read⟩ := exists_readAs_literal readable
      exact read.loosen .unary (by decide)
  | field name, named => (readAs_field named).loosen .unary (by decide)
  | negate operand, readable => by
      obtain ⟨phrase, read⟩ := exists_readAs operand readable
      obtain ⟨whole, whole_read⟩ := read.loosen .equality (by decide)
      exact ⟨_, readAs_negate whole_read⟩
  | binary op left right, readable => by
      obtain ⟨left_readable, right_readable⟩ := (Bool.and_eq_true_iff ..).1 readable
      obtain ⟨leftPhrase, left_read⟩ := exists_readAs left left_readable
      obtain ⟨rightPhrase, right_read⟩ := exists_readAs right right_readable
      obtain ⟨phrase, read⟩ := exists_readAs_binary left_read right_read
      exact read.loosen .unary (by decide)
  | call function [], readable => by
      obtain ⟨named, -⟩ := (Bool.and_eq_true_iff ..).1 readable
      exact (readAs_emptyCall named).loosen .unary (by decide)
  | call function (argument :: more), readable => by
      obtain ⟨named, arguments_readable⟩ := (Bool.and_eq_true_iff ..).1 readable
      obtain ⟨arguments, read⟩ := exists_readAsArguments (argument :: more)
        (List.cons_ne_nil argument more) arguments_readable
      exact (readAs_call named read).loosen .unary (by decide)

/-- A call without arguments is a phrase of its own, so arguments are read only if there are
some. -/
theorem exists_readAsArguments : ∀ exprs : List Expr, exprs ≠ [] → areReadable exprs = true →
    ∃ arguments, ReadAsArguments exprs arguments
  | [], nonempty, _ => absurd rfl nonempty
  | [first], _, readable => by
      obtain ⟨first_readable, -⟩ := (Bool.and_eq_true_iff ..).1 readable
      obtain ⟨phrase, read⟩ := exists_readAs first first_readable
      obtain ⟨whole, whole_read⟩ := read.loosen .equality (by decide)
      exact ⟨_, readAsArguments_last whole_read⟩
  | first :: second :: more, _, readable => by
      obtain ⟨first_readable, more_readable⟩ := (Bool.and_eq_true_iff ..).1 readable
      obtain ⟨phrase, read⟩ := exists_readAs first first_readable
      obtain ⟨whole, whole_read⟩ := read.loosen .equality (by decide)
      obtain ⟨arguments, more_read⟩ := exists_readAsArguments (second :: more)
        (List.cons_ne_nil second more) more_readable
      exact ⟨_, readAsArguments_more whole_read more_read⟩

end

/-- The canonical text of a readable expression is made of words, and a limit of twice the height
reads them as the expression. -/
theorem ofTokens_list_display {expr : Expr} (readable : expr.isReadable = true) :
    ∃ tokens, Token.list expr.display = .ok tokens ∧
      ∀ limit, 2 * expr.height ≤ limit → Expr.ofTokens limit tokens = .ok expr := by
  obtain ⟨phrase, read⟩ := exists_readAs expr readable
  obtain ⟨whole, whole_read⟩ := read.loosen .equality (by decide)
  have passes := whole_read.passes [] delimits_nil
  have source_eq : expr.display.toList = expr.spelling ++ [] := by
    rw [display, String.toList_ofList, List.append_nil]
  rw [← source_eq] at passes
  obtain ⟨tokens, last, list_eq, words_eq, last_kind⟩ := exists_list_of_passes passes
  refine ⟨tokens ++ [last], list_eq, fun limit bound => ?_⟩
  have kinds : Parser.wordsOf (tokens ++ [last]) = whole.tokens := by
    rw [Parser.wordsOf_append_of_end (by rw [words_eq]; exact whole.ne_endOfText) last_kind,
      words_eq]
  have nested := whole_read.nested
  have nesting_le : whole.nesting ≤ limit := by omega
  have height_le : whole.expr.height ≤ max limit 1 := by
    rw [whole_read.expr_eq]
    omega
  rw [Parser.ofTokens_of_phrase whole kinds.symm nesting_le height_le, whole_read.expr_eq]

/-- A negated negative zero, compared with a quoted quotation mark, keeps its sign and its two
minus signs. -/
theorem ofTokens_list_display_negative_zero :
    let expr : Expr := .binary .eq (.negate (.literal (.number (.finite true .zero))))
      (.call "f" [.literal (.text "\""), .field "a"])
    expr.isReadable = true ∧ expr.display = "(-(-0) = f(\"\\\"\", a))" ∧
      ∃ tokens, Token.list expr.display = .ok tokens ∧ Expr.ofTokens 6 tokens = .ok expr := by
  intro expr
  have readable : expr.isReadable = true := by decide
  obtain ⟨tokens, list_eq, read⟩ := ofTokens_list_display readable
  exact ⟨readable, by decide, tokens, list_eq, read 6 (by decide)⟩

end Expr
end FormRules
