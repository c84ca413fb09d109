import Mathlib.Data.String.Basic
import FormRules.Proofs.Lexer.Division
import FormRules.Proofs.Grammar.Sign

/-!
# Signs in a text

The lexer reads a minus in front of a digit as the sign of a number exactly where no operand has
just ended, and there the reader would take it for a negation. So the sign could as well be a token
of its own: the reader accepts the same texts then, and the expressions have the same values.
-/

namespace FormRules

/-- The tokens that a token of a text becomes when the minus at the front of a number is taken
apart. -/
def Token.signApart (source : String) (token : Token) : List Token :=
  match token.kind with
  | .number value =>
      if String.Pos.Raw.get? source ⟨token.position⟩ = some '-' then
        [⟨.minus, token.position⟩, ⟨.number value.negate, token.position + 1⟩]
      else [token]
  | _ => [token]

namespace Text

theorem utf8Len_eq_byteWidth (text : List Char) : String.utf8Len text = byteWidth text := by
  rw [← String.utf8ByteSize_ofList, utf8ByteSize_ofList]

/-- The character at a byte offset is the first one behind a front of that width. -/
theorem get?_of_toList {source : String} {front : List Char} {head : Char} {tail : List Char}
    (parts : source.toList = front ++ head :: tail) :
    String.Pos.Raw.get? source ⟨byteWidth front⟩ = some head := by
  rw [← String.ofList_toList (s := source), parts, ← utf8Len_eq_byteWidth, String.get?_of_valid]
  rfl

end Text

namespace Number

theorem exists_nearest_eq {negative : Bool} {numerator denominator : Nat}
    (finite : (nearest negative numerator denominator).isFinite = true) :
    ∃ magnitude, nearest negative numerator denominator = .finite negative magnitude := by
  unfold nearest at finite ⊢
  split at finite
  · exact ⟨_, rfl⟩
  · exact nomatch finite

theorem exists_toNumber_eq {negative : Bool} {decimal : Decimal}
    (finite : (decimal.toNumber negative).isFinite = true) :
    ∃ magnitude, decimal.toNumber negative = .finite negative magnitude := by
  by_cases zero : decimal.digits = 0
  · exact ⟨.zero, if_pos zero⟩
  · rw [Decimal.toNumber_eq_nearest negative zero] at finite ⊢
    exact exists_nearest_eq finite

end Number

namespace Lexer

/-- A number is spelled with a minus at the front exactly if it has the sign. -/
theorem Spells.number_cases {spelling : List Char} {value : Number}
    (spells : Spells spelling (.number value)) :
    ∃ digit tail magnitude, digit.isDigit = true ∧
      (spelling = digit :: tail ∧ value = .finite false magnitude ∨
        spelling = '-' :: digit :: tail ∧ value = .finite true magnitude) := by
  cases spells with
  | @number _ decimal numeral finite =>
    obtain ⟨digit, tail, rfl, is_digit⟩ := numeral.exists_head
    obtain ⟨magnitude, value_eq⟩ := Number.exists_toNumber_eq finite
    exact ⟨digit, tail, magnitude, is_digit, .inl ⟨rfl, value_eq⟩⟩
  | negative numeral finite =>
    obtain ⟨digit, tail, rfl, is_digit⟩ := numeral.exists_head
    obtain ⟨magnitude, value_eq⟩ := Number.exists_toNumber_eq finite
    exact ⟨digit, tail, magnitude, is_digit, .inr ⟨rfl, by rw [value_eq]; rfl⟩⟩

/-- The token of a lexeme stands behind the text in front of the lexeme. -/
theorem exists_piece_of_mem_tokensOf {last position : Nat} {pieces : List Piece} {token : Token}
    (member : token ∈ tokensOf last position pieces) :
    token = ⟨.endOfText, last⟩ ∨ ∃ front piece back, pieces = front ++ piece :: back ∧
      token = ⟨piece.kind, position + Text.byteWidth (spread front ++ piece.gap)⟩ := by
  induction pieces generalizing position with
  | nil => exact .inl (List.mem_singleton.1 member)
  | cons first pieces induction =>
      rcases List.mem_cons.1 member with rfl | behind
      · exact .inr ⟨[], first, pieces, rfl, rfl⟩
      · rcases induction behind with ends | ⟨front, piece, back, rfl, rfl⟩
        · exact .inl ends
        · refine .inr ⟨first :: front, piece, back, rfl, ?_⟩
          simp only [spread, List.flatMap_cons, Text.byteWidth_append, Nat.add_assoc]

/-- At the place of a lexeme stands its first character. -/
theorem Divides.get?_place {source : String} {front back : List Piece} {piece : Piece}
    (divides : Divides false source.toList (front ++ piece :: back)) {head : Char}
    {tail : List Char} (spelling_eq : piece.spelling = head :: tail) :
    String.Pos.Raw.get? source ⟨Text.byteWidth (spread front ++ piece.gap)⟩ = some head := by
  obtain ⟨blanks, -, parts⟩ := divides.parts
  have placed : source.toList =
      (spread front ++ piece.gap) ++ head :: (tail ++ (spread back ++ blanks)) := by
    simp [parts, spread, spelling_eq]
  exact Text.get?_of_toList placed

/-- Taking a minus off the lexeme of a number is taking the sign off the number. -/
theorem map_kind_signApart {source : String} {pieces : List Piece}
    (divides : Divides false source.toList pieces) {token : Token}
    (member : token ∈ tokensOf source.utf8ByteSize 0 pieces) :
    (token.signApart source).map Token.kind = Grammar.signApart token.kind := by
  rcases exists_piece_of_mem_tokensOf member with rfl | ⟨front, piece, back, rfl, rfl⟩
  · rfl
  · have spells := (divides.of_mem (List.mem_append_right front List.mem_cons_self)).2
    obtain ⟨gap, spelling, kind⟩ := piece
    dsimp only at spells ⊢
    rw [Nat.zero_add]
    cases kind with
    | number value =>
        obtain ⟨digit, tail, magnitude, is_digit, ⟨rfl, rfl⟩ | ⟨rfl, rfl⟩⟩ := spells.number_cases
        · have no_minus : ¬some digit = some '-' := by
            rintro same
            obtain rfl := Option.some.inj same
            exact absurd is_digit (by decide)
          simp only [Token.signApart, divides.get?_place rfl]
          rw [if_neg no_minus]
          rfl
        · simp only [Token.signApart, divides.get?_place rfl]
          rfl
    | _ => rfl

/-- No operand ends in front of a number with a sign. -/
theorem Divides.before_sign {before : Bool} {text : List Char} {front back : List Piece}
    {piece : Piece} (divides : Divides before text (front ++ piece :: back)) {magnitude : Magnitude}
    (signed : piece.kind = .number (.finite true magnitude)) :
    front.getLast?.elim before (fun last => last.kind.endsOperand) = false := by
  induction front generalizing before text with
  | nil =>
      cases divides with
      | piece blanks spells longest behind =>
          dsimp only at signed
          subst signed
          obtain ⟨digit, tail, _, is_digit, ⟨-, same⟩ | ⟨rfl, -⟩⟩ := spells.number_cases
          · exact nomatch same
          · exact (longest.sign digit _ rfl is_digit).1 rfl
  | cons first front induction =>
      cases divides with
      | piece blanks spells longest behind =>
          have last := induction behind
          rw [List.getLast?_cons]
          cases ends : front.getLast? <;> rw [ends] at last <;> exact last

theorem Divides.signsLead {text : List Char} {pieces : List Piece}
    (divides : Divides false text pieces) : Grammar.SignsLead (pieces.map Piece.kind) := by
  intro front magnitude back words_eq
  obtain ⟨front, rest, rfl, rfl, rest_eq⟩ := List.map_eq_append_iff.1 words_eq
  obtain ⟨piece, back, rfl, signed, -⟩ := List.map_eq_cons_iff.1 rest_eq
  have last := divides.before_sign signed
  intro word word_eq
  rw [List.getLast?_map] at word_eq
  obtain ⟨piece, piece_eq, rfl⟩ := Option.map_eq_some_iff.1 word_eq
  rwa [piece_eq] at last

end Lexer

namespace Parser

open Grammar

/-- A sign is no end of the text. -/
theorem takeWhile_flatMap_signApart (kinds : List TokenKind) :
    (kinds.flatMap signApart).takeWhile (· ≠ .endOfText) =
      (kinds.takeWhile (· ≠ .endOfText)).flatMap signApart := by
  induction kinds with
  | nil => rfl
  | cons kind kinds induction =>
      rcases signApart_cases kind with plain | ⟨magnitude, rfl⟩
      · by_cases last : kind = .endOfText
        · subst last
          rfl
        · rw [List.flatMap_cons, plain, List.singleton_append,
            List.takeWhile_cons_of_pos (by simpa using last),
            List.takeWhile_cons_of_pos (by simpa using last), induction, List.flatMap_cons, plain,
            List.singleton_append]
      · rw [List.takeWhile_cons_of_pos (by simp), List.flatMap_cons, List.flatMap_cons, ← induction]
        rfl

/-- The words of a text with the signs of its numbers apart. -/
theorem wordsOf_signApart {source : String} {tokens : List Token}
    (listed : Token.list source = .ok tokens) :
    wordsOf (tokens.flatMap (Token.signApart source)) = (wordsOf tokens).flatMap signApart ∧
      SignsLead (wordsOf tokens) := by
  obtain ⟨pieces, divides, rfl⟩ := Lexer.exists_divides_of_list listed
  constructor
  · rw [wordsOf, wordsOf, ← takeWhile_flatMap_signApart, List.map_flatMap, List.flatMap_map]
    congr 1
    exact List.flatMap_congr fun token member => Lexer.map_kind_signApart divides member
  · obtain ⟨words, tokens_eq, kinds_eq, inner⟩ := (Lexer.places_of_divides divides).closed
    rw [tokens_eq, wordsOf_append_of_end (by simpa using inner) rfl, kinds_eq]
    exact divides.signsLead

theorem length_le_signApart (words : List TokenKind) :
    words.length ≤ (words.flatMap signApart).length := by
  induction words with
  | nil => exact Nat.le_refl _
  | cons word words induction =>
      rw [List.flatMap_cons, List.length_append, List.length_cons]
      rcases signApart_cases word with plain | ⟨magnitude, rfl⟩
      · rw [plain, List.length_singleton]
        omega
      · have two : (signApart (.number (.finite true magnitude))).length = 2 := rfl
        omega

/-- Reading a minus as the sign of a number is invisible: the reader accepts the tokens of a text if
and only if it accepts them with every such minus as a token of its own, and then both expressions
have the same value or error, on every record and at every date. -/
theorem ofTokens_signApart {source : String} {tokens : List Token}
    (listed : Token.list source = .ok tokens) {limit : Nat}
    (enough : (wordsOf (tokens.flatMap (Token.signApart source))).length ≤ limit) :
    ((∃ expr, Expr.ofTokens limit tokens = .ok expr) ↔
      ∃ other, Expr.ofTokens limit (tokens.flatMap (Token.signApart source)) = .ok other) ∧
    ∀ expr other, Expr.ofTokens limit tokens = .ok expr →
      Expr.ofTokens limit (tokens.flatMap (Token.signApart source)) = .ok other →
      other = expr.withSignsApart ∧
        ∀ context, other.evaluate context = expr.evaluate context := by
  obtain ⟨words_eq, lead⟩ := wordsOf_signApart listed
  have shorter : (wordsOf tokens).length ≤ limit := by
    rw [words_eq] at enough
    exact Nat.le_trans (length_le_signApart _) enough
  -- The reader accepts what the grammar derives, and there the signs can be taken apart.
  have apart_iff (other : Expr) :
      Expr.ofTokens limit (tokens.flatMap (Token.signApart source)) = .ok other ↔
        ∃ expr, Expr.ofTokens limit tokens = .ok expr ∧ other = expr.withSignsApart := by
    have apart_derives := derives_signApart_iff lead other
    rw [← words_eq] at apart_derives
    constructor
    · intro accepted
      obtain ⟨expr, derives, rfl⟩ := apart_derives.1 (derives_of_ofTokens accepted)
      exact ⟨expr, ofTokens_of_derives shorter derives, rfl⟩
    · rintro ⟨expr, accepted, rfl⟩
      exact ofTokens_of_derives enough (apart_derives.2 ⟨expr, derives_of_ofTokens accepted, rfl⟩)
  refine ⟨⟨?_, ?_⟩, ?_⟩
  · rintro ⟨expr, accepted⟩
    exact ⟨expr.withSignsApart, (apart_iff _).2 ⟨expr, accepted, rfl⟩⟩
  · rintro ⟨other, accepted⟩
    obtain ⟨expr, whole, -⟩ := (apart_iff other).1 accepted
    exact ⟨expr, whole⟩
  · intro expr other accepted apart
    obtain ⟨same, same_accepted, rfl⟩ := (apart_iff other).1 apart
    obtain rfl := Except.ok.inj (accepted.symm.trans same_accepted)
    exact ⟨rfl, Expr.evaluate_withSignsApart expr⟩

/-- Behind a field, a minus in front of a number with a sign subtracts, and the sign is a token of
its own when it is taken apart. -/
theorem ofTokens_signApart_subtrahend :
    let source := "a - -2"
    let tokens : List Token := [⟨.identifier "a", 0⟩, ⟨.minus, 2⟩, ⟨.number (.ofInt (-2)), 4⟩,
      ⟨.endOfText, 6⟩]
    let apart : List Token := [⟨.identifier "a", 0⟩, ⟨.minus, 2⟩, ⟨.minus, 4⟩,
      ⟨.number (.ofInt 2), 5⟩, ⟨.endOfText, 6⟩]
    let expr : Expr := .binary .sub (.field "a") (.literal (.number (.ofInt (-2))))
    let other : Expr := .binary .sub (.field "a") (.negate (.literal (.number (.ofInt 2))))
    Token.list source = .ok tokens ∧ tokens.flatMap (Token.signApart source) = apart ∧
      (wordsOf apart).length ≤ 4 ∧ Expr.ofTokens 4 tokens = .ok expr ∧
      Expr.ofTokens 4 apart = .ok other ∧
      ∀ context, other.evaluate context = expr.evaluate context := by
  intro source tokens apart expr other
  have listed : Token.list source = .ok tokens := by decide +kernel
  have apart_eq : tokens.flatMap (Token.signApart source) = apart := by decide +kernel
  have enough : (wordsOf apart).length ≤ 4 := by decide
  have accepted : Expr.ofTokens 4 tokens = .ok expr := rfl
  have apart_accepted : Expr.ofTokens 4 apart = .ok other := rfl
  have invisible := ofTokens_signApart listed (apart_eq.symm ▸ enough)
  rw [apart_eq] at invisible
  obtain ⟨-, same⟩ := invisible.2 expr other accepted apart_accepted
  exact ⟨listed, apart_eq, enough, accepted, apart_accepted, same⟩

end Parser
end FormRules
