import FormRules.Proofs.Expr.Substitution
import FormRules.Proofs.Grammar.Language

/-!
# Signs of numbers

Where no operand ends in front of it, a number with a sign can be written in two words, a minus and
the number without the sign. The words derive an expression exactly if they did before, and in the
expression only the leaves with a sign become negations.
-/

namespace FormRules

namespace Expr

/-- The expression of a literal, with the sign of a number apart. -/
def literalWithSignApart : Value → Expr
  | .number (.finite true magnitude) => negate (literal (.number (.finite false magnitude)))
  | value => literal value

/-- The expression with the signs of its numbers apart. -/
def withSignsApart (expr : Expr) : Expr :=
  expr.replaceLeaves literalWithSignApart field

theorem evaluate_literalWithSignApart (context : Context) (value : Value) :
    (literalWithSignApart value).evaluate context = .ok value := by
  unfold literalWithSignApart
  split
  · rw [evaluate, evaluate_literal]
    rfl
  · exact evaluate_literal context value

/-- Negating a number is the number with the sign. -/
theorem evaluate_withSignsApart (expr : Expr) (context : Context) :
    expr.withSignsApart.evaluate context = expr.evaluate context :=
  evaluate_replaceLeaves rfl (evaluate_literalWithSignApart context) expr
    (fun name _ => evaluate_field context name) (.inl rfl)

end Expr

namespace Grammar

/-- The words that a word becomes when the sign of a number is taken apart. -/
def signApart : TokenKind → List TokenKind
  | .number (.finite true magnitude) => [.minus, .number (.finite false magnitude)]
  | word => [word]

theorem signApart_cases (word : TokenKind) :
    signApart word = [word] ∨ ∃ magnitude, word = .number (.finite true magnitude) := by
  unfold signApart
  split
  · exact .inr ⟨_, rfl⟩
  · exact .inl rfl

/-- No operand ends at the end of some words, so that another may begin. -/
def AwaitsOperand (words : List TokenKind) : Prop :=
  ∀ last ∈ words.getLast?, last.endsOperand = false

/-- No number with a sign stands behind an operand. -/
def SignsLead (words : List TokenKind) : Prop :=
  ∀ front magnitude back, words = front ++ .number (.finite true magnitude) :: back →
    AwaitsOperand front

/-! ## Taking signs apart -/

/-- Some words derive an expression from a stratum. -/
def DerivesFrom (level : Level) (words : List TokenKind) (expr : Expr) : Prop :=
  ∃ phrase : Phrase level, phrase.tokens = words ∧ phrase.expr = expr

theorem DerivesFrom.loosen {tight level : Level} {words : List TokenKind} {expr : Expr}
    (derives : DerivesFrom tight words expr) (le : level.rank ≤ tight.rank) :
    DerivesFrom level words expr := by
  obtain ⟨phrase, rfl, rfl⟩ := derives
  obtain ⟨whole, tokens_eq, expr_eq, -⟩ := phrase.loosen level le
  exact ⟨whole, tokens_eq, expr_eq⟩

/-- The right operands of binary operations may be negations. -/
theorem Joins.next_loose {level : Level} {token : TokenKind} {op : BinaryOp}
    (joins : Joins level token op) : level.next ≠ .primary := by
  cases joins <;> decide

theorem Joins.signApart {level : Level} {token : TokenKind} {op : BinaryOp}
    (joins : Joins level token op) : signApart token = [token] := by
  cases joins <;> rfl

mutual

/-- A phrase remains one when the signs of its numbers are taken apart, unless it must not be a
negation. -/
theorem Phrase.derives_signApart : ∀ {tight : Level} (phrase : Phrase tight) (level : Level),
    level ≠ .primary → level.rank ≤ tight.rank →
    DerivesFrom level (phrase.tokens.flatMap signApart) phrase.expr.withSignsApart
  | level, .join token op joins left right, looser, _, le => by
      obtain ⟨first, first_tokens, first_expr⟩ :=
        left.derives_signApart level joins.loose (Nat.le_refl _)
      obtain ⟨second, second_tokens, second_expr⟩ :=
        right.derives_signApart level.next joins.next_loose (Nat.le_refl _)
      refine DerivesFrom.loosen ⟨.join token op joins first second, ?_, ?_⟩ le
      · rw [Phrase.tokens, Phrase.tokens, List.flatMap_append, List.flatMap_cons, joins.signApart,
          first_tokens, second_tokens]
        rfl
      · rw [Phrase.expr, first_expr, second_expr]
        rfl
  | tight, .lift _ inner, level, loose, le =>
      inner.derives_signApart level loose (Nat.le_trans le tight.rank_le_next)
  | _, .negation operand, level, _, le => by
      obtain ⟨inner, inner_tokens, inner_expr⟩ :=
        operand.derives_signApart .unary (by decide) (Nat.le_refl _)
      refine DerivesFrom.loosen ⟨.negation inner, ?_, ?_⟩ le
      · rw [Phrase.tokens, Phrase.tokens, List.flatMap_cons, inner_tokens]
        rfl
      · rw [Phrase.expr, inner_expr]
        rfl
  | _, .number (.finite true magnitude), level, loose, le => by
      -- The stratum has negations, as it is not the tightest one.
      have le_unary : level.rank ≤ Level.unary.rank := by
        cases level <;> first | decide | contradiction
      exact DerivesFrom.loosen
        ⟨.negation (.lift (by decide) (.number (.finite false magnitude))), rfl, rfl⟩ le_unary
  | _, .number (.finite false magnitude), level, _, le =>
      DerivesFrom.loosen ⟨.number (.finite false magnitude), rfl, rfl⟩ le
  | _, .number (.infinite negative), level, _, le =>
      DerivesFrom.loosen ⟨.number (.infinite negative), rfl, rfl⟩ le
  | _, .number .nan, level, _, le => DerivesFrom.loosen ⟨.number .nan, rfl, rfl⟩ le
  | _, .text content, level, _, le => DerivesFrom.loosen ⟨.text content, rfl, rfl⟩ le
  | _, .field name, level, _, le => DerivesFrom.loosen ⟨.field name, rfl, rfl⟩ le
  | _, .emptyCall function, level, _, le => DerivesFrom.loosen ⟨.emptyCall function, rfl, rfl⟩ le
  | _, .call function arguments, level, _, le => by
      obtain ⟨others, others_tokens, others_exprs⟩ := arguments.derives_signApart
      refine DerivesFrom.loosen ⟨.call function others, ?_, ?_⟩ le
      · simp [Phrase.tokens, signApart, others_tokens]
      · rw [Phrase.expr, others_exprs]
        rfl
  | _, .group inner, level, _, le => by
      obtain ⟨other, other_tokens, other_expr⟩ :=
        inner.derives_signApart .equality (by decide) (Nat.le_refl _)
      refine DerivesFrom.loosen ⟨.group other, ?_, ?_⟩ le
      · simp [Phrase.tokens, signApart, other_tokens]
      · rw [Phrase.expr, other_expr]
        rfl

theorem Arguments.derives_signApart : ∀ arguments : Arguments, ∃ others : Arguments,
    others.tokens = arguments.tokens.flatMap signApart ∧
      others.exprs = Expr.replaceAllLeaves Expr.literalWithSignApart .field arguments.exprs
  | .last argument => by
      obtain ⟨other, tokens_eq, expr_eq⟩ :=
        argument.derives_signApart .equality (by decide) (Nat.le_refl _)
      exact ⟨.last other, tokens_eq, congrArg (fun expr => [expr]) expr_eq⟩
  | .more argument rest => by
      obtain ⟨other, tokens_eq, expr_eq⟩ :=
        argument.derives_signApart .equality (by decide) (Nat.le_refl _)
      obtain ⟨others, others_tokens, others_exprs⟩ := rest.derives_signApart
      refine ⟨.more other others, ?_, ?_⟩
      · simp [Arguments.tokens, signApart, tokens_eq, others_tokens]
      · rw [Arguments.exprs, expr_eq, others_exprs]
        rfl

end

/-! ## Putting signs back -/

theorem AwaitsOperand.of_cons {word : TokenKind} {words : List TokenKind}
    (awaits : AwaitsOperand (word :: words)) : AwaitsOperand words := by
  intro last last_eq
  apply awaits last
  rw [List.getLast?_cons, last_eq]
  rfl

theorem AwaitsOperand.of_append {front back : List TokenKind} {word : TokenKind}
    (awaits : AwaitsOperand (front ++ word :: back)) : AwaitsOperand back := by
  induction front with
  | nil => exact awaits.of_cons
  | cons head front induction => exact induction awaits.of_cons

theorem Phrase.not_awaitsOperand {level : Level} (phrase : Phrase level) :
    ¬AwaitsOperand phrase.tokens := by
  obtain ⟨front, last, tokens_eq, ends⟩ := phrase.wellFormed.ends
  intro awaits
  rw [tokens_eq] at awaits
  exact absurd (ends.symm.trans (awaits last List.getLast?_concat)) (by decide)

/-- A minus in front of a number stands on one side of another word, unless that is one of both. -/
theorem minus_number_cases {left right front back : List TokenKind} {word : TokenKind}
    {value : Number}
    (same : left ++ word :: right = front ++ .minus :: .number value :: back)
    (no_minus : word = .minus → left ≠ front) (no_number : word ≠ .number value) :
    (∃ between, left = front ++ .minus :: .number value :: between ∧
      back = between ++ word :: right) ∨
    ∃ between, front = left ++ word :: between ∧
      right = between ++ .minus :: .number value :: back := by
  rcases List.append_eq_append_iff.1 same with
    ⟨_ | ⟨head, between⟩, front_eq, right_eq⟩ | ⟨_ | ⟨head, between⟩, left_eq, back_eq⟩
  · exact absurd (by simpa using front_eq.symm) (no_minus (List.cons.inj right_eq).1)
  · obtain ⟨rfl, rfl⟩ := List.cons.inj right_eq
    exact .inr ⟨between, front_eq, rfl⟩
  · exact absurd (by simpa using left_eq) (no_minus (List.cons.inj back_eq).1.symm)
  · obtain ⟨rfl, behind_eq⟩ := List.cons.inj back_eq
    cases between with
    | nil => exact absurd (List.cons.inj behind_eq).1.symm no_number
    | cons next between =>
        obtain ⟨rfl, rfl⟩ := List.cons.inj behind_eq
        exact .inl ⟨between, left_eq, rfl⟩

/-- A minus in front of a number stands behind a word in front of both, unless it is that word. -/
theorem minus_number_behind {inner front back : List TokenKind} {word : TokenKind} {value : Number}
    (same : word :: inner = front ++ .minus :: .number value :: back) (no_minus : word ≠ .minus) :
    ∃ between, front = word :: between ∧ inner = between ++ .minus :: .number value :: back := by
  cases front with
  | nil => exact absurd (List.cons.inj same).1 no_minus
  | cons head between =>
      obtain ⟨rfl, rfl⟩ := List.cons.inj same
      exact ⟨between, rfl, rfl⟩

/-- A minus in front of a number stands in front of a closing parenthesis behind both. -/
theorem minus_number_before {inner front back : List TokenKind} {value : Number}
    (same : inner ++ [.rightParen] = front ++ .minus :: .number value :: back) :
    ∃ between, inner = front ++ .minus :: .number value :: between ∧
      back = between ++ [.rightParen] := by
  rcases minus_number_cases same nofun nofun with enclosed | ⟨between, -, none⟩
  · exact enclosed
  · exact absurd none (by simp)

/-- A prefix operand that begins with a number is that number. -/
theorem Phrase.eq_nil_of_number (phrase : Phrase .unary) {value : Number} {back : List TokenKind}
    (same : phrase.tokens = .number value :: back) : back = [] := by
  cases phrase with
  | join _ _ joins => exact nomatch joins
  | negation => simp [Phrase.tokens] at same
  | lift _ inner =>
      cases inner using Phrase.primary_cases with
      | number => exact (List.cons.inj same).2.symm
      | _ => simp [Phrase.tokens] at same

mutual

/-- A phrase remains one when a minus in front of a number becomes the sign of a number, unless the
minus subtracts. -/
theorem Phrase.exists_signed : ∀ {level : Level} (phrase : Phrase level)
    {front back : List TokenKind} {value : Number} (signed : Number), AwaitsOperand front →
    phrase.tokens = front ++ .minus :: .number value :: back →
    ∃ other : Phrase level, other.tokens = front ++ .number signed :: back
  | _, .join token op joins left right, front, back, value, signed, awaits, same => by
      have no_minus : token = .minus → left.tokens ≠ front := by
        rintro - rfl
        exact left.not_awaitsOperand awaits
      have no_number : token ≠ .number value := by cases joins <;> nofun
      rcases minus_number_cases same no_minus no_number with
        ⟨between, left_eq, rfl⟩ | ⟨between, rfl, right_eq⟩
      · obtain ⟨other, other_eq⟩ := left.exists_signed signed awaits left_eq
        exact ⟨.join token op joins other right, by simp [Phrase.tokens, other_eq]⟩
      · obtain ⟨other, other_eq⟩ := right.exists_signed signed awaits.of_append right_eq
        exact ⟨.join token op joins left other, by simp [Phrase.tokens, other_eq]⟩
  | _, .lift loose inner, front, back, value, signed, awaits, same => by
      obtain ⟨other, other_eq⟩ := inner.exists_signed signed awaits same
      exact ⟨.lift loose other, other_eq⟩
  | _, .negation operand, front, back, value, signed, awaits, same => by
      cases front with
      | nil =>
          -- The number by itself takes the place of the negation.
          obtain rfl := operand.eq_nil_of_number (List.cons.inj same).2
          exact ⟨.lift (by decide) (.number signed), rfl⟩
      | cons head between =>
          obtain ⟨rfl, operand_eq⟩ := List.cons.inj same
          obtain ⟨other, other_eq⟩ := operand.exists_signed signed awaits.of_cons operand_eq
          exact ⟨.negation other, by rw [Phrase.tokens, other_eq]; rfl⟩
  | _, .number _, front, back, value, signed, awaits, same
  | _, .text _, front, back, value, signed, awaits, same
  | _, .field _, front, back, value, signed, awaits, same => by
      obtain ⟨between, -, none⟩ := minus_number_behind same nofun
      exact absurd none (by simp)
  | _, .emptyCall function, front, back, value, signed, awaits, same => by
      obtain ⟨between, -, behind_eq⟩ := minus_number_behind same nofun
      obtain ⟨between, -, last_eq⟩ := minus_number_behind behind_eq nofun
      obtain ⟨between, -, none⟩ := minus_number_behind last_eq nofun
      exact absurd none (by simp)
  | _, .call function arguments, front, back, value, signed, awaits, same => by
      obtain ⟨behind, rfl, behind_eq⟩ := minus_number_behind same nofun
      obtain ⟨inside, rfl, inside_eq⟩ := minus_number_behind behind_eq nofun
      obtain ⟨between, arguments_eq, rfl⟩ := minus_number_before inside_eq
      obtain ⟨others, others_eq⟩ :=
        arguments.exists_signed signed awaits.of_cons.of_cons arguments_eq
      exact ⟨.call function others, by simp [Phrase.tokens, others_eq]⟩
  | _, .group inner, front, back, value, signed, awaits, same => by
      obtain ⟨inside, rfl, inside_eq⟩ := minus_number_behind same nofun
      obtain ⟨between, inner_eq, rfl⟩ := minus_number_before inside_eq
      obtain ⟨other, other_eq⟩ := inner.exists_signed signed awaits.of_cons inner_eq
      exact ⟨.group other, by simp [Phrase.tokens, other_eq]⟩

theorem Arguments.exists_signed : ∀ (arguments : Arguments) {front back : List TokenKind}
    {value : Number} (signed : Number), AwaitsOperand front →
    arguments.tokens = front ++ .minus :: .number value :: back →
    ∃ others : Arguments, others.tokens = front ++ .number signed :: back
  | .last argument, front, back, value, signed, awaits, same => by
      obtain ⟨other, other_eq⟩ := argument.exists_signed signed awaits same
      exact ⟨.last other, other_eq⟩
  | .more argument rest, front, back, value, signed, awaits, same => by
      rcases minus_number_cases same nofun nofun with
        ⟨between, argument_eq, rfl⟩ | ⟨between, rfl, rest_eq⟩
      · obtain ⟨other, other_eq⟩ := argument.exists_signed signed awaits argument_eq
        exact ⟨.more other rest, by simp [Arguments.tokens, other_eq]⟩
      · obtain ⟨others, others_eq⟩ := rest.exists_signed signed awaits.of_append rest_eq
        exact ⟨.more argument others, by simp [Arguments.tokens, others_eq]⟩

end

/-- Words with signs behind a front derive an expression if they do with the signs apart. -/
theorem exists_phrase_of_signApart {level : Level} (words : List TokenKind) :
    ∀ front, SignsLead (front ++ words) →
      (∃ phrase : Phrase level, phrase.tokens = front ++ words.flatMap signApart) →
      ∃ phrase : Phrase level, phrase.tokens = front ++ words := by
  -- The signs are put back from the front on, so that what stands before the next one is as in the
  -- words.
  induction words with
  | nil => exact fun _ _ derived => derived
  | cons word words induction =>
      intro front lead derived
      have continued : ∃ phrase : Phrase level,
          phrase.tokens = (front ++ [word]) ++ words.flatMap signApart := by
        obtain ⟨phrase, tokens_eq⟩ := derived
        rcases signApart_cases word with plain | ⟨magnitude, rfl⟩
        · rw [List.flatMap_cons, plain] at tokens_eq
          exact ⟨phrase, by simpa using tokens_eq⟩
        · have awaits := lead front magnitude words rfl
          obtain ⟨other, other_eq⟩ := phrase.exists_signed _ awaits tokens_eq
          exact ⟨other, by rw [other_eq, List.append_assoc]; rfl⟩
      have lead_behind : SignsLead ((front ++ [word]) ++ words) := by
        rwa [List.append_assoc]
      simpa using induction (front ++ [word]) lead_behind continued

/-- Words and the words with their signs apart derive an expression or both do not, and the leaves
with a sign are what the expressions differ in. -/
theorem derives_signApart_iff {words : List TokenKind} (lead : SignsLead words) (other : Expr) :
    Derives (words.flatMap signApart) other ↔
      ∃ expr, Derives words expr ∧ other = expr.withSignsApart := by
  constructor
  · rintro ⟨apart, apart_eq, rfl⟩
    obtain ⟨phrase, rfl⟩ := exists_phrase_of_signApart words [] lead ⟨apart, apart_eq⟩
    obtain ⟨same, same_eq, expr_eq⟩ :=
      phrase.derives_signApart .equality (by decide) (Nat.le_refl _)
    obtain rfl := Phrase.eq_of_tokens (apart_eq.trans same_eq.symm)
    exact ⟨phrase.expr, ⟨phrase, rfl, rfl⟩, expr_eq⟩
  · rintro ⟨expr, ⟨phrase, rfl, rfl⟩, rfl⟩
    exact phrase.derives_signApart .equality (by decide) (Nat.le_refl _)

end Grammar
end FormRules
