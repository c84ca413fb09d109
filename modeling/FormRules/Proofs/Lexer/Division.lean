import Mathlib.Data.List.TakeWhile
import FormRules.Proofs.Compilation
import FormRules.Proofs.Lexer.Spelling

/-!
# Dividing a text

A text divides into blanks and lexemes in turn, none of which could be longer. The lexer finds the
tokens of a text exactly if it divides so, and then there is only one way to divide it: nothing is
skipped, and no token begins anywhere else.
-/

namespace FormRules

namespace Text

theorem utf8ByteSize_ofList (text : List Char) :
    (String.ofList text).utf8ByteSize = byteWidth text := by
  induction text with
  | nil => rfl
  | cons head tail induction =>
      rw [String.ofList_cons, String.utf8ByteSize_append, String.utf8ByteSize_singleton, induction,
        byteWidth_cons]

theorem byteWidth_toList (source : String) : byteWidth source.toList = source.utf8ByteSize := by
  rw [← utf8ByteSize_ofList, String.ofList_toList]

end Text

namespace Lexer

/-- A lexeme and the blanks in front of it. -/
structure Piece where
  gap : List Char
  spelling : List Char
  kind : TokenKind

/-- A text is pieces and some blanks behind them. The token before a lexeme decides what a minus
is. -/
inductive Divides : Bool → List Char → List Piece → Prop where
  | blank {before : Bool} {text : List Char}
      (blanks : ∀ character ∈ text, Text.isBlank character = true) : Divides before text []
  | piece {before : Bool} {gap spelling rest : List Char} {kind : TokenKind}
      {pieces : List Piece} (blanks : ∀ character ∈ gap, Text.isBlank character = true)
      (spells : Spells spelling kind) (longest : Longest before spelling kind rest)
      (divides : Divides kind.endsOperand rest pieces) :
      Divides before (gap ++ (spelling ++ rest)) (⟨gap, spelling, kind⟩ :: pieces)

/-- The tokens of pieces from a byte offset on, closed by the end of the text. -/
def tokensOf (last : Nat) : Nat → List Piece → List Token
  | _, [] => [⟨.endOfText, last⟩]
  | position, piece :: pieces =>
      let start := position + Text.byteWidth piece.gap
      ⟨piece.kind, start⟩ :: tokensOf last (start + Text.byteWidth piece.spelling) pieces

/-- The text of pieces. -/
def spread (pieces : List Piece) : List Char :=
  pieces.flatMap fun piece => piece.gap ++ piece.spelling

/-- What the tokens of a text have to do with its pieces. -/
structure Places (source : String) (pieces : List Piece) (tokens : List Token) : Prop where
  /-- Nothing is dropped. -/
  text : ∃ blanks, (∀ character ∈ blanks, Text.isBlank character = true) ∧
    source.toList = spread pieces ++ blanks
  /-- Everything outside the lexemes is blank. -/
  gaps : ∀ piece ∈ pieces, ∀ character ∈ piece.gap, Text.isBlank character = true
  lexemes : ∀ piece ∈ pieces, piece.spelling ≠ []
  /-- There is a token for each lexeme, and then the text ends. -/
  closed : ∃ words, tokens = words ++ [⟨.endOfText, source.utf8ByteSize⟩] ∧
    words.map Token.kind = pieces.map Piece.kind ∧ ∀ word ∈ words, word.kind ≠ .endOfText
  /-- Every token stands at the byte offset of its lexeme. -/
  offset : ∀ front piece back, pieces = front ++ piece :: back →
    tokens[front.length]? = some ⟨piece.kind, Text.byteWidth (spread front ++ piece.gap)⟩
  increasing : tokens.Pairwise fun earlier later => earlier.position < later.position

/-! ## One piece -/

section Pieces

variable {before : Bool} {text : List Char} {piece : Piece} {pieces others : List Piece}

/-- Neither a blank nor a lexeme starts with a point. -/
theorem Divides.head_ne_point (divides : Divides before text pieces) :
    text.head? ≠ some '.' := by
  intro point
  cases divides with
  | blank blanks =>
      have blank := blanks '.' (List.mem_of_mem_head? point)
      exact nomatch blank
  | @piece _ gap spelling rest _ _ blanks spells =>
      obtain ⟨head, tail, rfl, -, other⟩ := spells.exists_head
      cases gap with
      | nil => exact other (Option.some.inj point)
      | cons space gap =>
          obtain rfl := Option.some.inj point
          have blank := blanks '.' List.mem_cons_self
          exact nomatch blank

theorem Divides.of_nil (divides : Divides before text []) :
    text.dropWhile Text.isBlank = [] := by
  cases divides with
  | blank blanks => exact List.dropWhile_eq_nil_iff.2 blanks

/-- The first piece of a text is the lexeme that is read off it behind its leading blanks. -/
theorem Divides.of_cons (divides : Divides before text (piece :: pieces)) :
    text.takeWhile Text.isBlank = piece.gap ∧ ∃ head tail rest,
      text.dropWhile Text.isBlank = head :: tail ∧ head :: tail = piece.spelling ++ rest ∧
      Lexeme.read before head tail = .ok ⟨piece.kind, piece.spelling, rest⟩ ∧
      Divides piece.kind.endsOperand rest pieces := by
  cases divides with
  | @piece _ gap spelling rest kind _ blanks spells longest divides =>
      obtain ⟨head, tail, rfl, solid, -⟩ := spells.exists_head
      have ends : ∀ next ∈ (head :: tail ++ rest).head?, Text.isBlank next = false := by
        rintro next follows
        obtain rfl := Option.some.inj follows
        exact solid
      obtain ⟨gap_eq, body_eq⟩ := Text.span_append blanks ends
      have read := read_of_spells spells longest (fun _ => divides.head_ne_point) rfl
      exact ⟨gap_eq, head, tail ++ rest, rest, body_eq, rfl, read, divides⟩

/-- A text divides in one way at most. -/
theorem Divides.unique (divides : Divides before text pieces)
    (others_divide : Divides before text others) : pieces = others := by
  -- Both first pieces are what the lexer reads off the text, so that the same text is left.
  induction pieces generalizing before text others with
  | nil =>
      cases others with
      | nil => rfl
      | cons other others =>
          obtain ⟨-, head, tail, rest, body_eq, -, -, -⟩ := others_divide.of_cons
          exact nomatch divides.of_nil.symm.trans body_eq
  | cons piece pieces induction =>
      obtain ⟨gap_eq, head, tail, rest, body_eq, -, read, behind⟩ := divides.of_cons
      cases others with
      | nil => exact nomatch others_divide.of_nil.symm.trans body_eq
      | cons other others =>
          obtain ⟨other_gap_eq, _, _, other_rest, other_body_eq, -, other_read, other_behind⟩ :=
            others_divide.of_cons
          obtain ⟨rfl, rfl⟩ := List.cons.inj (body_eq.symm.trans other_body_eq)
          obtain ⟨kind_eq, spelling_eq, rfl⟩ :=
            Lexeme.mk.inj (Except.ok.inj (read.symm.trans other_read))
          obtain ⟨gap, spelling, kind⟩ := piece
          obtain ⟨other_gap, other_spelling, other_kind⟩ := other
          dsimp only at gap_eq other_gap_eq kind_eq spelling_eq behind other_behind
          subst gap_eq other_gap_eq kind_eq spelling_eq
          rw [induction behind other_behind]

/-! ## The lexer -/

/-- The pieces of a text are found one by one. -/
theorem Divides.listFrom (divides : Divides before text pieces) (position : Nat) :
    Token.listFrom before position text =
      .ok (tokensOf (position + Text.byteWidth text) position pieces) := by
  induction pieces generalizing before text position with
  | nil =>
      have all_blank := List.dropWhile_eq_nil_iff.1 divides.of_nil
      rw [Token.listFrom_of_blank divides.of_nil, List.takeWhile_eq_self_iff.2 all_blank]
      rfl
  | cons piece pieces induction =>
      obtain ⟨gap_eq, head, tail, rest, body_eq, parts, read, behind⟩ := divides.of_cons
      have text_eq : text = piece.gap ++ (piece.spelling ++ rest) := by
        rw [← gap_eq, ← parts, ← body_eq, List.takeWhile_append_dropWhile]
      rw [Token.listFrom_of_read body_eq read, induction behind, gap_eq, text_eq,
        Text.byteWidth_append, Text.byteWidth_append]
      simp only [Except.map, tokensOf, Nat.add_assoc]

/-- A text is its leading blanks, the lexeme behind them and what the lexeme leaves. -/
theorem parts_of_read {head : Char} {tail : List Char} {lexeme : Lexeme}
    (body_eq : text.dropWhile Text.isBlank = head :: tail)
    (read : Lexeme.read before head tail = .ok lexeme) :
    text = text.takeWhile Text.isBlank ++ (lexeme.spelling ++ lexeme.rest) := by
  rw [(Lexeme.spelling_append_rest read).1, ← body_eq, List.takeWhile_append_dropWhile]

/-- A lexeme that was read is the first piece of the text, if what it leaves divides. -/
theorem Divides.of_read {head : Char} {tail : List Char} {lexeme : Lexeme}
    (body_eq : text.dropWhile Text.isBlank = head :: tail)
    (read : Lexeme.read before head tail = .ok lexeme)
    (divides : Divides lexeme.kind.endsOperand lexeme.rest pieces) :
    Divides before text
      (⟨text.takeWhile Text.isBlank, lexeme.spelling, lexeme.kind⟩ :: pieces) := by
  have fits := fits_of_read read
  have blanks : ∀ character ∈ text.takeWhile Text.isBlank, Text.isBlank character = true :=
    List.all_eq_true.1 List.all_takeWhile
  have divided := Divides.piece blanks fits.spells fits.longest divides
  rwa [← parts_of_read body_eq read] at divided

/-- What was read into tokens divides. -/
theorem exists_divides_of_listFrom {position : Nat} {tokens : List Token}
    (read : Token.listFrom before position text = .ok tokens) :
    ∃ pieces, Divides before text pieces := by
  -- A lexeme that was read fits in front of the rest, which divides by induction.
  fun_induction Token.listFrom before position text generalizing tokens with
  | case1 before position text start =>
      rename_i blank
      exact ⟨[], .blank (List.dropWhile_eq_nil_iff.1 blank)⟩
  | case2 => exact nomatch read
  | case3 before position text start head tail body_eq lexeme read_eq shorter =>
      rename_i induction
      obtain ⟨others, behind, -⟩ := map_eq_ok.1 read
      obtain ⟨pieces, divides⟩ := induction behind
      exact ⟨_, .of_read body_eq read_eq divides⟩

theorem Divides.list {source : String} (divides : Divides false source.toList pieces) :
    Token.list source = .ok (tokensOf source.utf8ByteSize 0 pieces) := by
  rw [Token.list, divides.listFrom, Nat.zero_add, Text.byteWidth_toList]

theorem exists_divides_of_list {source : String} {tokens : List Token}
    (listed : Token.list source = .ok tokens) :
    ∃ pieces, Divides false source.toList pieces ∧
      tokens = tokensOf source.utf8ByteSize 0 pieces := by
  obtain ⟨pieces, divides⟩ := exists_divides_of_listFrom listed
  exact ⟨pieces, divides, Except.ok.inj (listed.symm.trans divides.list)⟩

/-! ## Places of tokens -/

theorem Divides.parts (divides : Divides before text pieces) :
    ∃ blanks, (∀ character ∈ blanks, Text.isBlank character = true) ∧
      text = spread pieces ++ blanks := by
  induction divides with
  | @blank _ text blanks => exact ⟨text, blanks, rfl⟩
  | piece _ _ _ _ induction =>
      obtain ⟨blanks, all_blank, rest_eq⟩ := induction
      refine ⟨blanks, all_blank, ?_⟩
      simp only [spread, List.flatMap_cons, List.append_assoc] at rest_eq ⊢
      rw [rest_eq]

theorem Divides.of_mem (divides : Divides before text pieces) (member : piece ∈ pieces) :
    (∀ character ∈ piece.gap, Text.isBlank character = true) ∧
      Spells piece.spelling piece.kind := by
  induction divides with
  | blank => exact nomatch member
  | piece blanks spells _ _ induction =>
      obtain rfl | behind := List.mem_cons.1 member
      · exact ⟨blanks, spells⟩
      · exact induction behind

theorem Spells.ne_endOfText {spelling : List Char} {kind : TokenKind}
    (spells : Spells spelling kind) : kind ≠ .endOfText := by
  rintro rfl
  exact nomatch spells

theorem exists_tokensOf_eq (last position : Nat) (pieces : List Piece) :
    ∃ words, tokensOf last position pieces = words ++ [⟨.endOfText, last⟩] ∧
      words.map Token.kind = pieces.map Piece.kind := by
  induction pieces generalizing position with
  | nil => exact ⟨[], rfl, rfl⟩
  | cons piece pieces induction =>
      obtain ⟨words, tokens_eq, kinds_eq⟩ := induction _
      exact ⟨_ :: words, congrArg (List.cons _) tokens_eq, congrArg (List.cons _) kinds_eq⟩

theorem tokensOf_offset (last position : Nat) (front back : List Piece) (piece : Piece) :
    (tokensOf last position (front ++ piece :: back))[front.length]? =
      some ⟨piece.kind, position + Text.byteWidth (spread front ++ piece.gap)⟩ := by
  induction front generalizing position with
  | nil => rfl
  | cons first front induction =>
      rw [List.cons_append, tokensOf, List.length_cons, List.getElem?_cons_succ, induction]
      simp only [spread, List.flatMap_cons, Text.byteWidth_append, Nat.add_assoc]

/-- Tokens stand at growing offsets, none of them in front of the text. -/
theorem Divides.increasing (divides : Divides before text pieces) (position : Nat) :
    (tokensOf (position + Text.byteWidth text) position pieces).Pairwise
        (fun earlier later => earlier.position < later.position) ∧
      ∀ token ∈ tokensOf (position + Text.byteWidth text) position pieces,
        position ≤ token.position := by
  induction divides generalizing position with
  | blank => simp [tokensOf]
  | @piece _ gap spelling rest kind pieces _ spells _ _ induction =>
      obtain ⟨head, tail, spelling_eq, -⟩ := spells.exists_head
      have width : 0 < Text.byteWidth spelling :=
        Text.byteWidth_pos (spelling_eq ▸ List.cons_ne_nil head tail)
      obtain ⟨ordered, bounded⟩ :=
        induction (position + Text.byteWidth gap + Text.byteWidth spelling)
      have last_eq : position + Text.byteWidth (gap ++ (spelling ++ rest)) =
          position + Text.byteWidth gap + Text.byteWidth spelling + Text.byteWidth rest := by
        simp only [Text.byteWidth_append, Nat.add_assoc]
      rw [last_eq, tokensOf]
      dsimp only
      refine ⟨List.pairwise_cons.2 ⟨fun token member => ?_, ordered⟩, fun token member => ?_⟩
      · have behind := bounded token member
        dsimp only
        omega
      · obtain rfl | member := List.mem_cons.1 member
        · exact Nat.le_add_right _ _
        · have behind := bounded token member
          omega

end Pieces

theorem places_of_divides {source : String} {pieces : List Piece}
    (divides : Divides false source.toList pieces) :
    Places source pieces (tokensOf source.utf8ByteSize 0 pieces) where
  text := divides.parts
  gaps piece member := (divides.of_mem member).1
  lexemes piece member := by
    obtain ⟨head, tail, spelling_eq, -⟩ := (divides.of_mem member).2.exists_head
    exact spelling_eq ▸ List.cons_ne_nil head tail
  closed := by
    obtain ⟨words, tokens_eq, kinds_eq⟩ := exists_tokensOf_eq source.utf8ByteSize 0 pieces
    refine ⟨words, tokens_eq, kinds_eq, fun word member => ?_⟩
    have kind_member : word.kind ∈ pieces.map Piece.kind :=
      kinds_eq ▸ List.mem_map_of_mem member
    obtain ⟨piece, piece_member, kind_eq⟩ := List.mem_map.1 kind_member
    exact kind_eq ▸ (divides.of_mem piece_member).2.ne_endOfText
  offset := by
    rintro front piece back rfl
    rw [tokensOf_offset, Nat.zero_add]
  increasing := by
    have increasing := (divides.increasing 0).1
    rwa [Nat.zero_add, Text.byteWidth_toList] at increasing

/-- The lexer accepts exactly the texts that divide into blanks and lexemes, each the longest in its
place. Such a text divides in one way only, and the tokens are those of the lexemes, at the byte
offsets of the lexemes. -/
theorem list_divides (source : String) :
    (∀ tokens, Token.list source = .ok tokens ↔
      ∃ pieces, Divides false source.toList pieces ∧
        tokens = tokensOf source.utf8ByteSize 0 pieces) ∧
    (∀ pieces others, Divides false source.toList pieces →
      Divides false source.toList others → pieces = others) ∧
    ((¬ ∃ pieces, Divides false source.toList pieces) →
      ∃ error, Token.list source = .error error) ∧
    ∀ pieces, Divides false source.toList pieces →
      Places source pieces (tokensOf source.utf8ByteSize 0 pieces) := by
  have listed (pieces : List Piece) (divides : Divides false source.toList pieces) :
      Token.list source = .ok (tokensOf source.utf8ByteSize 0 pieces) := by
    rw [Token.list, divides.listFrom, Nat.zero_add, Text.byteWidth_toList]
  refine ⟨fun tokens => ⟨fun read => ?_, ?_⟩, fun _ _ => Divides.unique, fun none => ?_,
    fun _ => places_of_divides⟩
  · obtain ⟨pieces, divides⟩ := exists_divides_of_listFrom read
    exact ⟨pieces, divides, Except.ok.inj (read.symm.trans (listed pieces divides))⟩
  · rintro ⟨pieces, divides, rfl⟩
    exact listed pieces divides
  · cases read : Token.list source with
    | error error => exact ⟨error, rfl⟩
    | ok tokens => exact absurd (exists_divides_of_listFrom read) none

end Lexer
end FormRules
