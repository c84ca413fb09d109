import FormRules.Proofs.Grammar.Unambiguous

/-!
# Which tokens stand next to each other

In the tokens of a phrase an operand follows every operator, comma and opening parenthesis, but for
the parentheses of a call without arguments; and behind an operand stands an operator, a comma, a
closing parenthesis or, if it is a name, an opening one. Words that break this have no derivation.
-/

namespace FormRules.Grammar

/-- Behind a token, if there is one, two others may stand next to each other. -/
inductive Fits : Option TokenKind → TokenKind → TokenKind → Prop where
  | operator {previous : Option TokenKind} {first second : TokenKind} {level : Level}
      {op : BinaryOp} (ends : first.endsOperand = true) (joins : Joins level second op) :
      Fits previous first second
  | comma {previous : Option TokenKind} {first : TokenKind} (ends : first.endsOperand = true) :
      Fits previous first .comma
  | close {previous : Option TokenKind} {first : TokenKind} (ends : first.endsOperand = true) :
      Fits previous first .rightParen
  | call {previous : Option TokenKind} (name : String) :
      Fits previous (.identifier name) .leftParen
  | operand {previous : Option TokenKind} {first second : TokenKind}
      (waits : first.endsOperand = false) (starts : StartsOperand second) :
      Fits previous first second
  | empty (name : String) : Fits (some (.identifier name)) .leftParen .rightParen

theorem Fits.of_none {first second : TokenKind} (fits : Fits none first second)
    (previous : Option TokenKind) : Fits previous first second := by
  cases fits with
  | operator ends joins => exact .operator ends joins
  | comma ends => exact .comma ends
  | close ends => exact .close ends
  | call name => exact .call name
  | operand waits starts => exact .operand waits starts

/-- Every two neighbours among some words may stand next to each other where they are. -/
def Fitting (words : List TokenKind) : Prop :=
  ∀ before first second after, words = before ++ first :: second :: after →
    Fits before.getLast? first second

theorem fitting_single (word : TokenKind) : Fitting [word] := by
  intro before first second after same
  have length_eq := congrArg List.length same
  simp only [List.length_append, List.length_cons, List.length_nil] at length_eq
  omega

theorem last_eq_last {front before : List TokenKind} {last first : TokenKind}
    (same : front ++ [last] = before ++ [first]) : last = first :=
  List.singleton_inj.1 (List.append_inj' same rfl).2

theorem Fitting.append {left right : List TokenKind} (left_fitting : Fitting left)
    (right_fitting : Fitting right)
    (boundary : ∀ before first second after, left = before ++ [first] → right = second :: after →
      Fits before.getLast? first second) : Fitting (left ++ right) := by
  intro before first second after same
  rcases List.append_eq_append_iff.1 same with
    ⟨behind, before_eq, right_eq⟩ | ⟨rest, left_eq, rest_eq⟩
  · have fits := right_fitting behind first second after right_eq
    rw [before_eq, List.getLast?_append]
    cases last : behind.getLast? with
    | none =>
        rw [last] at fits
        exact fits.of_none _
    | some previous =>
        rw [last] at fits
        exact fits
  · cases rest with
    | nil =>
        have fits := right_fitting [] first second after rest_eq.symm
        exact fits.of_none _
    | cons head rest =>
        obtain ⟨rfl, tail_eq⟩ := List.cons.inj rest_eq
        cases rest with
        | nil => exact boundary before _ second after left_eq tail_eq.symm
        | cons next rest =>
            obtain ⟨rfl, -⟩ := List.cons.inj tail_eq
            exact left_fitting before _ _ rest left_eq

/-- What the words of phrases have in common. -/
structure WellFormed (words : List TokenKind) : Prop where
  fitting : Fitting words
  starts : ∃ head tail, words = head :: tail ∧ StartsOperand head
  ends : ∃ front last, words = front ++ [last] ∧ last.endsOperand = true

namespace WellFormed

theorem single {word : TokenKind} (starts : StartsOperand word)
    (ends : word.endsOperand = true) : WellFormed [word] :=
  ⟨fitting_single word, ⟨word, [], rfl, starts⟩, ⟨[], word, rfl, ends⟩⟩

/-- A token in front of an operand that it waits for. -/
theorem cons {word : TokenKind} {words : List TokenKind} (waits : word.endsOperand = false)
    (formed : WellFormed words) : Fitting (word :: words) := by
  refine (fitting_single word).append formed.fitting ?_
  intro before first second after word_eq words_eq
  obtain ⟨head, tail, head_eq, starts⟩ := formed.starts
  obtain ⟨rfl, -⟩ := List.cons.inj (words_eq.symm.trans head_eq)
  obtain rfl := @last_eq_last [] before word first word_eq
  exact .operand waits starts

/-- Two operands with a token between them. -/
theorem separate {left right : List TokenKind} {word : TokenKind}
    (left_formed : WellFormed left) (right_formed : WellFormed right)
    (waits : word.endsOperand = false)
    (follows : ∀ previous first, first.endsOperand = true → Fits previous first word) :
    WellFormed (left ++ word :: right) := by
  obtain ⟨front, last, left_eq, last_ends⟩ := left_formed.ends
  refine ⟨left_formed.fitting.append (right_formed.cons waits) ?_, ?_, ?_⟩
  · intro before first second after left_eq' right_eq
    obtain ⟨rfl, -⟩ := List.cons.inj right_eq
    obtain rfl := last_eq_last (left_eq.symm.trans left_eq')
    exact follows _ _ last_ends
  · obtain ⟨head, tail, rfl, starts⟩ := left_formed.starts
    exact ⟨head, _, rfl, starts⟩
  · obtain ⟨behind, final, rfl, ends⟩ := right_formed.ends
    exact ⟨left ++ word :: behind, final, by simp, ends⟩

/-- An operand in parentheses. -/
theorem parenthesize {words : List TokenKind} (formed : WellFormed words) :
    WellFormed (.leftParen :: words ++ [.rightParen]) := by
  obtain ⟨front, last, words_eq, last_ends⟩ := formed.ends
  refine ⟨(formed.cons rfl).append (fitting_single _) ?_, ⟨_, _, rfl, trivial⟩, ⟨_, _, rfl, rfl⟩⟩
  intro before first second after left_eq right_eq
  obtain ⟨rfl, -⟩ := List.cons.inj right_eq
  rw [words_eq, ← List.cons_append] at left_eq
  obtain rfl := last_eq_last left_eq
  exact .close last_ends

/-- A name in front of a parenthesis. -/
theorem call (name : String) {words : List TokenKind}
    (formed : WellFormed (.leftParen :: words)) :
    WellFormed (.identifier name :: .leftParen :: words) := by
  refine ⟨(fitting_single _).append formed.fitting ?_, ⟨_, _, rfl, trivial⟩, ?_⟩
  · intro before first second after word_eq words_eq
    obtain ⟨rfl, -⟩ := List.cons.inj words_eq
    obtain rfl := @last_eq_last [] before (.identifier name) first word_eq
    exact .call name
  · obtain ⟨front, last, words_eq, ends⟩ := formed.ends
    exact ⟨.identifier name :: front, last, by rw [words_eq]; rfl, ends⟩

theorem emptyCall (name : String) :
    WellFormed [.identifier name, .leftParen, .rightParen] := by
  refine ⟨?_, ⟨_, _, rfl, trivial⟩, ⟨[.identifier name, .leftParen], _, rfl, rfl⟩⟩
  intro before first second after same
  match before, same with
  | [], same =>
      obtain ⟨rfl, rfl, -⟩ : .identifier name = first ∧ .leftParen = second ∧ _ := by
        simpa using same
      exact .call name
  | [word], same =>
      obtain ⟨rfl, rfl, rfl, -⟩ : .identifier name = word ∧ .leftParen = first ∧
          .rightParen = second ∧ _ := by simpa using same
      exact .empty name
  | _ :: _ :: before, same =>
      have length_eq := congrArg List.length same
      simp only [List.length_append, List.length_cons, List.length_nil] at length_eq
      omega

end WellFormed

mutual

theorem Phrase.wellFormed : ∀ {level : Level} (phrase : Phrase level), WellFormed phrase.tokens
  | _, .join token op joins left right =>
      left.wellFormed.separate right.wellFormed (by cases joins <;> rfl)
        fun _ _ ends => .operator ends joins
  | _, .lift _ inner => inner.wellFormed
  | _, .negation operand => by
      have formed := operand.wellFormed
      obtain ⟨front, last, tokens_eq, ends⟩ := formed.ends
      exact ⟨formed.cons rfl, ⟨_, _, rfl, trivial⟩,
        ⟨.minus :: front, last, by rw [Phrase.tokens, tokens_eq]; rfl, ends⟩⟩
  | _, .number _ | _, .text _ | _, .field _ => .single trivial rfl
  | _, .emptyCall function => .emptyCall function
  | _, .call function arguments => .call function arguments.wellFormed.parenthesize
  | _, .group inner => inner.wellFormed.parenthesize

theorem Arguments.wellFormed : ∀ arguments : Arguments, WellFormed arguments.tokens
  | .last argument => argument.wellFormed
  | .more argument rest =>
      argument.wellFormed.separate rest.wellFormed rfl fun _ _ ends => .comma ends

end

end FormRules.Grammar
