import FormRules.Proofs.Grammar.Phrase

/-!
# The grammar is unambiguous

Tokens have at most one derivation. A phrase cannot be compared with another one of its stratum by
its first operator alone, since the grammar recurs to the left: of two phrases that derive the
front of the same tokens, one is shown to go on where the other ends, by further operators of the
stratum. What follows both then decides whether they are the same.
-/

namespace FormRules.Grammar

/-- No phrase of a stratum that ends here can go on: what follows is no parenthesis, which would
turn a field into a call, and no operator of the stratum or a tighter one. -/
def Level.EndsBefore (level : Level) (rest : List TokenKind) : Prop :=
  ∀ token ∈ rest.head?, token ≠ .leftParen ∧
    ∀ (other : Level) (op : BinaryOp), Joins other token op → other.rank < level.rank

namespace Level

theorem endsBefore_nil (level : Level) : level.EndsBefore [] := by
  simp [EndsBefore]

theorem endsBefore_next {level : Level} {rest : List TokenKind} (ends : level.EndsBefore rest) :
    level.next.EndsBefore rest := by
  intro token head
  refine ⟨(ends token head).1, fun other op joins => ?_⟩
  exact Nat.lt_of_lt_of_le ((ends token head).2 other op joins) level.rank_le_next

/-- Behind an operator of a stratum, phrases of the next stratum end. -/
theorem next_endsBefore_of_joins {level : Level} {token : TokenKind} {op : BinaryOp}
    (joins : Joins level token op) (rest : List TokenKind) :
    level.next.EndsBefore (token :: rest) := by
  intro head head_eq
  obtain rfl := Option.some.inj head_eq
  refine ⟨by cases joins <;> simp, fun other otherOp joins' => ?_⟩
  rw [← (joins.unique joins').1, rank_next joins.loose]
  exact Nat.lt_succ_self _

theorem endsBefore_rightParen (level : Level) (rest : List TokenKind) :
    level.EndsBefore (.rightParen :: rest) := by
  intro head head_eq
  obtain rfl := Option.some.inj head_eq
  exact ⟨by simp, fun _ _ joins => nomatch joins⟩

theorem endsBefore_comma (level : Level) (rest : List TokenKind) :
    level.EndsBefore (.comma :: rest) := by
  intro head head_eq
  obtain rfl := Option.some.inj head_eq
  exact ⟨by simp, fun _ _ joins => nomatch joins⟩

end Level

namespace Phrase

/-- One phrase goes on from another by operators of their stratum, perhaps by none. -/
inductive Starts {level : Level} : Phrase level → Phrase level → Prop where
  | refl (phrase : Phrase level) : Starts phrase phrase
  | join {left whole : Phrase level} {right : Phrase level.next} {token : TokenKind}
      {op : BinaryOp} {joins : Joins level token op} :
      Starts (.join token op joins left right) whole → Starts left whole

/-- A phrase that goes on from another may go on by one more operator. -/
theorem Starts.snoc {level : Level} {left whole : Phrase level} (starts : left.Starts whole)
    {token : TokenKind} {op : BinaryOp} (joins : Joins level token op)
    (right : Phrase level.next) : left.Starts (.join token op joins whole right) := by
  induction starts with
  | refl phrase => exact .join (.refl _)
  | join _ induction => exact .join induction

/-- What a phrase adds to another from which it goes on. -/
theorem Starts.tokens_eq {level : Level} {left whole : Phrase level}
    (starts : left.Starts whole) :
    ∃ added, whole.tokens = left.tokens ++ added ∧
      (added = [] ∧ left = whole ∨
        ∃ token op tail, Joins level token op ∧ added = token :: tail) := by
  induction starts with
  | refl phrase => exact ⟨[], by simp, .inl ⟨rfl, rfl⟩⟩
  | @join left whole right token op joins _ induction =>
      obtain ⟨added, tokens_eq, _⟩ := induction
      refine ⟨token :: (right.tokens ++ added), ?_, .inr ⟨token, op, _, joins, rfl⟩⟩
      rw [tokens_eq, Phrase.tokens, List.append_assoc, List.cons_append]

/-- What follows a phrase that goes on from another also ends the next stratum behind the other. -/
theorem Starts.rest {level : Level} {left whole : Phrase level} (starts : left.Starts whole)
    {rest : List TokenKind} (ends : level.next.EndsBefore rest) :
    ∃ added, whole.tokens = left.tokens ++ added ∧ level.next.EndsBefore (added ++ rest) := by
  obtain ⟨added, tokens_eq, ⟨rfl, -⟩ | ⟨token, op, tail, joins, rfl⟩⟩ := starts.tokens_eq
  · exact ⟨[], tokens_eq, ends⟩
  · exact ⟨_, tokens_eq, Level.next_endsBefore_of_joins joins _⟩

/-- Phrases of which one goes on from the other are the same if their stratum ends behind both. -/
theorem eq_of_starts {level : Level} {left right : Phrase level}
    (starts : left.Starts right ∨ right.Starts left) {rest other : List TokenKind}
    (same : left.tokens ++ rest = right.tokens ++ other) (ends : level.EndsBefore rest)
    (other_ends : level.EndsBefore other) : left = right ∧ rest = other := by
  have determined {short long : Phrase level} (starts : short.Starts long)
      {behind beyond : List TokenKind} (ends : level.EndsBefore behind)
      (same : short.tokens ++ behind = long.tokens ++ beyond) : short = long := by
    obtain ⟨added, tokens_eq, ⟨-, equal⟩ | ⟨token, op, tail, joins, rfl⟩⟩ := starts.tokens_eq
    · exact equal
    · rw [tokens_eq, List.append_assoc] at same
      obtain rfl := List.append_cancel_left same
      exact absurd ((ends token rfl).2 level op joins) (Nat.lt_irrefl _)
  have equal : left = right := by
    rcases starts with starts | starts
    · exact determined starts ends same
    · exact (determined starts other_ends same.symm).symm
  subst equal
  exact ⟨rfl, List.append_cancel_left same⟩

/-- A primary phrase is neither an operation nor lifted from a tighter stratum. -/
@[elab_as_elim]
theorem primary_cases {motive : Phrase .primary → Prop}
    (number : ∀ value, motive (.number value)) (text : ∀ content, motive (.text content))
    (field : ∀ name, motive (.field name)) (emptyCall : ∀ function, motive (.emptyCall function))
    (call : ∀ function arguments, motive (.call function arguments))
    (group : ∀ inner, motive (.group inner)) (phrase : Phrase .primary) : motive phrase := by
  cases phrase with
  | join _ _ joins => exact nomatch joins
  | lift loose => exact absurd rfl loose
  | number value => exact number value
  | text content => exact text content
  | field name => exact field name
  | emptyCall function => exact emptyCall function
  | call function arguments => exact call function arguments
  | group inner => exact group inner

/-- A primary phrase does not begin with a minus sign. -/
theorem primary_tokens {level : Level} (phrase : Phrase level) (primary : level = .primary) :
    ∃ head tail, phrase.tokens = head :: tail ∧ head ≠ .minus := by
  subst primary
  cases phrase using primary_cases <;> exact ⟨_, _, rfl, by simp⟩

/-- A phrase goes on from its leading phrase of the next stratum, unless it is a negation. -/
theorem exists_leading : ∀ {level : Level} (loose : level ≠ .primary) (phrase : Phrase level),
    (∃ leading, (lift loose leading).Starts phrase) ∨
      level = .unary ∧ ∃ tail, phrase.tokens = .minus :: tail
  | _, loose, .join token op joins left right => by
      rcases exists_leading loose left with ⟨leading, starts⟩ | ⟨rfl, -⟩
      · exact .inl ⟨leading, starts.snoc joins right⟩
      · exact nomatch joins
  | _, _, .lift _ inner => .inl ⟨inner, .refl _⟩
  | _, _, .negation _ => .inr ⟨rfl, _, rfl⟩
  | _, loose, .number _ | _, loose, .text _ | _, loose, .field _ | _, loose, .emptyCall _
  | _, loose, .call _ _ | _, loose, .group _ => absurd rfl loose

end Phrase

/-- Arguments do not begin with the parenthesis that closes them. -/
theorem Arguments.append_ne_rightParen (arguments : Arguments) (rest behind : List TokenKind) :
    arguments.tokens ++ rest ≠ .rightParen :: behind := by
  obtain ⟨head, tail, tokens_eq, starts⟩ := arguments.exists_head
  intro same
  rw [tokens_eq] at same
  obtain rfl := (List.cons.inj same).1
  exact starts

mutual

/-- Of two phrases in front of the same tokens, one goes on from the other. -/
theorem Phrase.starts_or_starts : ∀ {level : Level} (phrase other : Phrase level)
    {rest behind : List TokenKind}, phrase.tokens ++ rest = other.tokens ++ behind →
    level.next.EndsBefore rest → level.next.EndsBefore behind →
    phrase.Starts other ∨ other.Starts phrase
  | level, .join token op joins left right, other, rest, behind, same, ends, other_ends => by
      have left_same : left.tokens ++ token :: (right.tokens ++ rest) = other.tokens ++ behind := by
        rw [← same, Phrase.tokens, List.append_assoc, List.cons_append]
      have compared := Phrase.starts_or_starts left other left_same
        (Level.next_endsBefore_of_joins joins _) other_ends
      rcases compared with starts | starts
      · -- The other phrase goes on behind the left operand too, so both have the same operator
        -- there, and their right operands end alike.
        cases starts with
        | refl =>
            exact .inr (.join (.refl _))
        | @join _ _ otherRight otherToken otherOp otherJoins starts =>
            obtain ⟨added, tokens_eq, added_ends⟩ := starts.rest other_ends
            have rights : token :: (right.tokens ++ rest) =
                otherToken :: (otherRight.tokens ++ (added ++ behind)) := by
              refine List.append_cancel_left (?_ : left.tokens ++ _ = left.tokens ++ _)
              rw [left_same, tokens_eq]
              simp only [Phrase.tokens, List.append_assoc, List.cons_append]
            obtain ⟨rfl, right_same⟩ := List.cons.inj rights
            obtain ⟨-, rfl⟩ := joins.unique otherJoins
            have rights_compared := Phrase.starts_or_starts right otherRight right_same
              (Level.endsBefore_next ends) (Level.endsBefore_next added_ends)
            obtain ⟨rfl, -⟩ := Phrase.eq_of_starts rights_compared right_same ends added_ends
            exact .inl starts
      · exact .inr (starts.snoc joins right)
  | level, .lift loose inner, other, rest, behind, same, ends, other_ends => by
      rcases Phrase.exists_leading loose other with ⟨leading, starts⟩ | ⟨rfl, tail, other_eq⟩
      · obtain ⟨added, tokens_eq, added_ends⟩ := starts.rest other_ends
        have inner_same : inner.tokens ++ rest = leading.tokens ++ (added ++ behind) := by
          rw [tokens_eq, List.append_assoc] at same
          exact same
        have compared := Phrase.starts_or_starts inner leading inner_same
          (Level.endsBefore_next ends) (Level.endsBefore_next added_ends)
        obtain ⟨rfl, -⟩ := Phrase.eq_of_starts compared inner_same ends added_ends
        exact .inl starts
      · obtain ⟨head, inner_tail, inner_eq, not_minus⟩ := Phrase.primary_tokens inner rfl
        rw [Phrase.tokens, inner_eq, other_eq] at same
        exact absurd (List.cons.inj same).1 not_minus
  | _, .negation operand, other, rest, behind, same, ends, other_ends => by
      cases other with
      | join _ _ joins => exact nomatch joins
      | lift _ inner =>
          obtain ⟨head, tail, inner_eq, not_minus⟩ := Phrase.primary_tokens inner rfl
          rw [Phrase.tokens, Phrase.tokens, inner_eq] at same
          exact absurd (List.cons.inj same).1.symm not_minus
      | negation otherOperand =>
          have compared := Phrase.starts_or_starts operand otherOperand (List.cons.inj same).2
            ends other_ends
          rcases compared with starts | starts <;> cases starts with
          | refl => exact .inl (.refl _)
          | @join _ _ _ _ _ joins => exact nomatch joins
  | _, .number value, other, rest, behind, same, ends, other_ends => by
      cases other using Phrase.primary_cases with
      | number =>
          obtain rfl := TokenKind.number.inj (List.cons.inj same).1
          exact .inl (.refl _)
      | _ => exact nomatch (List.cons.inj same).1
  | _, .text content, other, rest, behind, same, ends, other_ends => by
      cases other using Phrase.primary_cases with
      | text =>
          obtain rfl := TokenKind.text.inj (List.cons.inj same).1
          exact .inl (.refl _)
      | _ => exact nomatch (List.cons.inj same).1
  | _, .field name, other, rest, behind, same, ends, other_ends => by
      cases other using Phrase.primary_cases with
      | field =>
          obtain rfl := TokenKind.identifier.inj (List.cons.inj same).1
          exact .inl (.refl _)
      | emptyCall | call =>
          obtain rfl := (List.cons.inj same).2
          exact absurd rfl (ends _ rfl).1
      | _ => exact nomatch (List.cons.inj same).1
  | _, .emptyCall function, other, rest, behind, same, ends, other_ends => by
      cases other using Phrase.primary_cases with
      | emptyCall =>
          obtain rfl := TokenKind.identifier.inj (List.cons.inj same).1
          exact .inl (.refl _)
      | field =>
          obtain rfl := (List.cons.inj same).2
          exact absurd rfl (other_ends _ rfl).1
      | call otherFunction arguments =>
          obtain ⟨-, arguments_same⟩ : function = otherFunction ∧
              .rightParen :: rest = arguments.tokens ++ .rightParen :: behind := by
            simpa [Phrase.tokens] using same
          exact absurd arguments_same.symm (arguments.append_ne_rightParen _ _)
      | _ => exact nomatch (List.cons.inj same).1
  | _, .call function arguments, other, rest, behind, same, ends, other_ends => by
      cases other using Phrase.primary_cases with
      | emptyCall otherFunction =>
          obtain ⟨-, arguments_same⟩ : function = otherFunction ∧
              arguments.tokens ++ .rightParen :: rest = .rightParen :: behind := by
            simpa [Phrase.tokens] using same
          exact absurd arguments_same (arguments.append_ne_rightParen _ _)
      | field =>
          obtain rfl := (List.cons.inj same).2
          exact absurd rfl (other_ends _ rfl).1
      | call otherFunction others =>
          obtain rfl := TokenKind.identifier.inj (List.cons.inj same).1
          have arguments_same : arguments.tokens ++ .rightParen :: rest =
              others.tokens ++ .rightParen :: behind := by
            simpa [Phrase.tokens] using same
          obtain ⟨rfl, -⟩ := Arguments.eq_of_tokens arguments others arguments_same
          exact .inl (.refl _)
      | _ => exact nomatch (List.cons.inj same).1
  | _, .group inner, other, rest, behind, same, ends, other_ends => by
      cases other using Phrase.primary_cases with
      | group otherInner =>
          have inner_same : inner.tokens ++ .rightParen :: rest =
              otherInner.tokens ++ .rightParen :: behind := by
            simpa [Phrase.tokens] using same
          have compared := Phrase.starts_or_starts inner otherInner inner_same
            (Level.endsBefore_rightParen _ _) (Level.endsBefore_rightParen _ _)
          obtain ⟨rfl, -⟩ := Phrase.eq_of_starts compared inner_same
            (Level.endsBefore_rightParen _ _) (Level.endsBefore_rightParen _ _)
          exact .inl (.refl _)
      | _ => exact nomatch (List.cons.inj same).1

theorem Arguments.eq_of_tokens : ∀ (arguments others : Arguments) {rest behind : List TokenKind},
    arguments.tokens ++ .rightParen :: rest = others.tokens ++ .rightParen :: behind →
    arguments = others ∧ rest = behind
  | .last argument, .last other, rest, behind, same => by
      have compared := Phrase.starts_or_starts argument other same
        (Level.endsBefore_rightParen _ _) (Level.endsBefore_rightParen _ _)
      obtain ⟨rfl, tails⟩ := Phrase.eq_of_starts compared same
        (Level.endsBefore_rightParen _ _) (Level.endsBefore_rightParen _ _)
      exact ⟨rfl, (List.cons.inj tails).2⟩
  | .last argument, .more other others, rest, behind, same => by
      rw [Arguments.tokens, Arguments.tokens, List.append_assoc] at same
      have compared := Phrase.starts_or_starts argument other same
        (Level.endsBefore_rightParen _ _) (Level.endsBefore_comma _ _)
      obtain ⟨-, tails⟩ := Phrase.eq_of_starts compared same
        (Level.endsBefore_rightParen _ _) (Level.endsBefore_comma _ _)
      exact nomatch (List.cons.inj tails).1
  | .more argument more, .last other, rest, behind, same => by
      rw [Arguments.tokens, Arguments.tokens, List.append_assoc] at same
      have compared := Phrase.starts_or_starts argument other same
        (Level.endsBefore_comma _ _) (Level.endsBefore_rightParen _ _)
      obtain ⟨-, tails⟩ := Phrase.eq_of_starts compared same
        (Level.endsBefore_comma _ _) (Level.endsBefore_rightParen _ _)
      exact nomatch (List.cons.inj tails).1
  | .more argument more, .more other others, rest, behind, same => by
      rw [Arguments.tokens, Arguments.tokens, List.append_assoc, List.append_assoc] at same
      have compared := Phrase.starts_or_starts argument other same
        (Level.endsBefore_comma _ _) (Level.endsBefore_comma _ _)
      obtain ⟨rfl, tails⟩ := Phrase.eq_of_starts compared same
        (Level.endsBefore_comma _ _) (Level.endsBefore_comma _ _)
      obtain ⟨rfl, behind_eq⟩ := Arguments.eq_of_tokens more others (List.cons.inj tails).2
      exact ⟨rfl, behind_eq⟩

end

/-- Tokens have at most one derivation. -/
theorem Phrase.eq_of_tokens {phrase other : Phrase .equality}
    (same : phrase.tokens = other.tokens) : phrase = other := by
  have appended : phrase.tokens ++ [] = other.tokens ++ [] := by rw [same]
  have compared := phrase.starts_or_starts other appended
    (Level.endsBefore_nil _) (Level.endsBefore_nil _)
  exact (eq_of_starts compared appended (Level.endsBefore_nil _) (Level.endsBefore_nil _)).1

end FormRules.Grammar
