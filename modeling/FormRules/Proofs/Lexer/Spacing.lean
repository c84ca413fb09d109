import FormRules.Proofs.Lexer.Division
import FormRules.Proofs.Parser.Acceptance

/-!
# Blanks between lexemes

The lexemes of a text may stand apart as they like. Put down again in their order with other blanks,
at least one between neighbours, they are read as the same words, also those that touched before,
and the words make the same expression. Blanks inside a quoted text are part of its lexeme.
-/

namespace FormRules

namespace Lexeme

/-- No blank belongs to a name. -/
theorem continuesName_of_isBlank {character : Char} (blank : Text.isBlank character = true) :
    continuesName character = false := by
  refine Bool.eq_false_iff.2 fun continues => ?_
  have solid : Text.isBlank character = false := by
    simp only [continuesName, Char.isAlphanum, Bool.or_eq_true, beq_iff_eq] at continues
    rcases continues with (letter | digit) | rfl
    · have range := Text.toNat_of_isAlpha letter
      exact Text.isBlank_eq_false (by omega) (by omega)
    · have range : 0x30 ≤ character.toNat ∧ character.toNat ≤ 0x39 :=
        Char.isDigit_iff_toNat.1 digit
      exact Text.isBlank_eq_false (by omega) (by omega)
    · rfl
  exact Bool.eq_false_iff.1 solid blank

theorem isDigit_of_isBlank {character : Char} (blank : Text.isBlank character = true) :
    character.isDigit = false := by
  have other := continuesName_of_isBlank blank
  simp only [continuesName, Char.isAlphanum, Bool.or_eq_false_iff] at other
  exact other.1.2

end Lexeme

namespace Lexer

/-- A text is some spellings in turn with blanks behind them, at least one between neighbours. -/
inductive Spaced : List (List Char) → List Char → Prop where
  | nothing : Spaced [] []
  | lexeme (spelling : List Char) {gap rest : List Char} {spellings : List (List Char)}
      (blanks : ∀ character ∈ gap, Text.isBlank character = true)
      (apart : spellings ≠ [] → gap ≠ []) (spaced : Spaced spellings rest) :
      Spaced (spelling :: spellings) (spelling ++ (gap ++ rest))

/-- What stands behind the first lexeme starts with a blank, if there is anything. -/
theorem Spaced.isBlank_of_head {spellings : List (List Char)} {gap rest : List Char}
    (spaced : Spaced spellings rest)
    (blanks : ∀ character ∈ gap, Text.isBlank character = true)
    (apart : spellings ≠ [] → gap ≠ []) :
    ∀ next ∈ (gap ++ rest).head?, Text.isBlank next = true := by
  intro next follows
  cases gap with
  | cons space gap =>
      obtain rfl := Option.some.inj follows
      exact blanks space List.mem_cons_self
  | nil =>
      cases spaced with
      | nothing => exact nomatch follows
      | lexeme => exact absurd rfl (apart (List.cons_ne_nil _ _))

theorem goesOn_of_isBlank {space : Char} (blank : Text.isBlank space = true) (kind : TokenKind) :
    goesOn kind space = false := by
  cases kind with
  | identifier name => exact Lexeme.continuesName_of_isBlank blank
  | number value => exact Lexeme.isDigit_of_isBlank blank
  | _ => rfl

/-- A blank lengthens no lexeme, and no minus in front of one is a sign. -/
theorem Longest.respace {before : Bool} {spelling rest other : List Char} {kind : TokenKind}
    (longest : Longest before spelling kind rest) (nonempty : spelling ≠ [])
    (blank : ∀ next ∈ other.head?, Text.isBlank next = true) :
    Longest before spelling kind other where
  ends next follows := goesOn_of_isBlank (blank next follows) kind
  equals _ follows := nomatch blank '=' follows
  sign digit tail parts is_digit := by
    match spelling with
    | [] => exact absurd rfl nonempty
    | [_] =>
        -- A minus by itself: a digit behind it would be a blank.
        obtain ⟨-, rfl⟩ := List.cons.inj parts
        have solid := Lexeme.isDigit_of_isBlank (blank digit rfl)
        exact nomatch is_digit.symm.trans solid
    | _ :: _ :: spelling =>
        obtain ⟨rfl, behind⟩ := List.cons.inj parts
        obtain ⟨rfl, -⟩ := List.cons.inj behind
        exact longest.sign _ (spelling ++ rest) rfl is_digit

/-- The lexemes of a text divide every text in which they stand in turn with blanks between them. -/
theorem Divides.respace {before : Bool} {text : List Char} {pieces : List Piece}
    (divides : Divides before text pieces) {lead body : List Char}
    (blanks : ∀ character ∈ lead, Text.isBlank character = true)
    (spaced : Spaced (pieces.map Piece.spelling) body) :
    ∃ others, Divides before (lead ++ body) others ∧
      others.map Piece.kind = pieces.map Piece.kind := by
  induction divides generalizing lead body with
  | blank =>
      cases spaced with
      | nothing =>
          rw [List.append_nil]
          exact ⟨[], .blank blanks, rfl⟩
  | @piece before gap spelling rest kind pieces _ spells longest _ induction =>
      cases spaced with
      | lexeme _ gap_blanks apart spaced =>
          obtain ⟨head, tail, spelling_eq, -⟩ := spells.exists_head
          have nonempty : spelling ≠ [] := spelling_eq ▸ List.cons_ne_nil head tail
          have longest := longest.respace nonempty (spaced.isBlank_of_head gap_blanks apart)
          obtain ⟨others, divides, kinds_eq⟩ := induction gap_blanks spaced
          exact ⟨⟨lead, spelling, kind⟩ :: others, .piece blanks spells longest divides,
            congrArg (List.cons kind) kinds_eq⟩

theorem map_kind_tokensOf (last position : Nat) (pieces : List Piece) :
    (tokensOf last position pieces).map Token.kind =
      pieces.map Piece.kind ++ [.endOfText] := by
  obtain ⟨words, tokens_eq, kinds_eq⟩ := exists_tokensOf_eq last position pieces
  rw [tokens_eq, List.map_append, kinds_eq]
  rfl

end Lexer

namespace Parser

/-- Which expression tokens are read as depends on their kinds only, not on their places. -/
theorem ofTokens_eq_ok_iff_of_kinds {tokens others : List Token}
    (kinds_eq : others.map Token.kind = tokens.map Token.kind) {limit : Nat} {expr : Expr} :
    Expr.ofTokens limit others = .ok expr ↔ Expr.ofTokens limit tokens = .ok expr := by
  rw [ofTokens_eq_ok_iff, ofTokens_eq_ok_iff, wordsOf, wordsOf, kinds_eq]

end Parser

namespace Lexer

/-- Blanks between lexemes do not matter: with any others, the lexemes of a text are read as the
same words, and under every limit the reader accepts both texts with the same tree or neither. -/
theorem list_respaced {source : String} {tokens : List Token}
    (listed : Token.list source = .ok tokens) :
    ∃ pieces, Divides false source.toList pieces ∧
      tokens = tokensOf source.utf8ByteSize 0 pieces ∧
      ∀ lead body, (∀ character ∈ lead, Text.isBlank character = true) →
        Spaced (pieces.map Piece.spelling) body →
        ∃ others, Token.list (String.ofList (lead ++ body)) = .ok others ∧
          others.map Token.kind = tokens.map Token.kind ∧
          ∀ limit expr, Expr.ofTokens limit others = .ok expr ↔
            Expr.ofTokens limit tokens = .ok expr := by
  obtain ⟨pieces, divides, rfl⟩ := exists_divides_of_list listed
  refine ⟨pieces, divides, rfl, fun lead body blanks spaced => ?_⟩
  obtain ⟨respaced, respaced_divides, kinds_eq⟩ := divides.respace blanks spaced
  rw [← String.toList_ofList (l := lead ++ body)] at respaced_divides
  have words_eq (last : Nat) : (tokensOf last 0 respaced).map Token.kind =
      (tokensOf source.utf8ByteSize 0 pieces).map Token.kind := by
    rw [map_kind_tokensOf, map_kind_tokensOf, kinds_eq]
  exact ⟨_, respaced_divides.list, words_eq _, fun limit expr =>
    Parser.ofTokens_eq_ok_iff_of_kinds (words_eq _)⟩

/-- A field, a minus sign and a negative number that touched are the same words when they stand
apart. -/
theorem list_respaced_touching :
    let source := "a--2"
    let other := "\u3000a - -2\n"
    let tokens : List Token := [⟨.identifier "a", 0⟩, ⟨.minus, 1⟩, ⟨.number (.ofInt (-2)), 2⟩,
      ⟨.endOfText, 4⟩]
    Token.list source = .ok tokens ∧ ∃ others, Token.list other = .ok others ∧
      others.map Token.kind = tokens.map Token.kind ∧
      ∀ limit expr, Expr.ofTokens limit others = .ok expr ↔
        Expr.ofTokens limit tokens = .ok expr := by
  intro source other tokens
  have listed : Token.list source = .ok tokens := by decide +kernel
  have field : Lexeme.read false 'a' ['-', '-', '2'] =
      .ok ⟨.identifier "a", ['a'], ['-', '-', '2']⟩ := rfl
  have minus : Lexeme.read true '-' ['-', '2'] = .ok ⟨.minus, ['-'], ['-', '2']⟩ := rfl
  have number : Lexeme.read false '-' ['2'] =
      .ok ⟨.number (.ofInt (-2)), ['-', '2'], []⟩ := by
    have parts : (Lexeme.read false '-' ['2']).map
        (fun lexeme => (lexeme.kind, lexeme.spelling, lexeme.rest)) =
          .ok (.number (.ofInt (-2)), ['-', '2'], []) := by decide +kernel
    obtain ⟨⟨kind, spelling, rest⟩, read, ⟨⟩⟩ := map_eq_ok.1 parts
    exact read
  have divided : Divides false ['a', '-', '-', '2'] _ :=
    .of_read rfl field (.of_read rfl minus (.of_read rfl number (.blank (by simp))))
  have spaced : Spaced [['a'], ['-'], ['-', '2']] ['a', ' ', '-', ' ', '-', '2', '\n'] :=
    .lexeme _ (List.forall_mem_singleton.2 rfl) nofun
      (.lexeme _ (List.forall_mem_singleton.2 rfl) nofun
        (.lexeme _ (List.forall_mem_singleton.2 rfl) nofun .nothing))
  obtain ⟨pieces, divides, -, respaced⟩ := list_respaced listed
  rw [show source.toList = ['a', '-', '-', '2'] by decide +kernel] at divides
  obtain rfl := divides.unique divided
  exact ⟨listed, respaced ['\u3000'] _ (List.forall_mem_singleton.2 rfl) spaced⟩

end Lexer
end FormRules
