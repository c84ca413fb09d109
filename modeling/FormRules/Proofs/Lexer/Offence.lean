import FormRules.Proofs.Lexer.Division

/-!
# The first offence

Where the lexer fails, the text in front of the reported place is whole lexemes and blanks, and what
stands there is a fault that is described here without the lexer. No lexeme in front of the place
depends on what follows, so that the front of the text has the same tokens by itself.
-/

namespace FormRules

namespace Lexer

/-- What can be wrong with a number that digits begin. -/
inductive BadNumber : LexFault → List Char → Prop where
  /-- The digits end in a point without a digit behind it. -/
  | point {digits rest : List Char} (nonempty : digits ≠ [])
      (all_digits : ∀ digit ∈ digits, digit.isDigit = true)
      (bare : ∀ next ∈ rest.head?, next.isDigit = false) :
      BadNumber .pointWithoutDigits (digits ++ '.' :: rest)
  /-- The whole numeral denotes no finite number. -/
  | outOfRange {numeral rest : List Char} {decimal : Decimal}
      (spells : Decimal.Spells numeral decimal)
      (infinite : (decimal.toNumber false).isFinite = false)
      (ends : ∀ next ∈ rest.head?, next.isDigit = false) :
      BadNumber (.numberOutOfRange numeral) (numeral ++ rest)

/-- A text begins with an offence. Where no operand has just ended, the minus in front of a number
is part of it. -/
inductive Offends : Bool → LexFault → List Char → Prop where
  | exclamation {before : Bool} {tail : List Char} (alone : tail.head? ≠ some '=') :
      Offends before .loneExclamation ('!' :: tail)
  /-- No quote closes the text behind a quote. -/
  | unclosed {before : Bool} {quote : Char} {tail : List Char}
      (encloses : Quoted.isQuote quote = true)
      (never_closed : ∀ body content rest, Quoted.Spells quote body content →
        tail ≠ body ++ quote :: rest) :
      Offends before .unclosedText (quote :: tail)
  | number {before : Bool} {fault : LexFault} {text : List Char} (bad : BadNumber fault text) :
      Offends before fault text
  | negative {fault : LexFault} {text : List Char} (bad : BadNumber fault text) :
      Offends false fault ('-' :: text)
  /-- The character is no blank, and no spelling of any token starts with it. -/
  | unknown {before : Bool} {head : Char} {tail : List Char}
      (solid : Text.isBlank head = false)
      (starts_none : ∀ spelling kind, Spells spelling kind → spelling.head? ≠ some head) :
      Offends before (.unknownCharacter head) (head :: tail)

/-! ## Faults that were found -/

section Reading

variable {before : Bool} {head : Char} {text tail : List Char} {fault : LexFault}

/-- A number is not cut off only because of a point without digits behind it. -/
theorem badNumber_of_splitNumber (digit : text.head?.any Char.isDigit = true)
    (failed : Lexeme.splitNumber text = .error fault) : BadNumber fault text := by
  have whole_append := Text.spanDigits_append text
  unfold Lexeme.splitNumber at failed
  dsimp only at failed
  split at failed
  case h_1 rest rest_eq =>
    split at failed
    case isTrue no_fraction =>
      obtain rfl := Except.error.inj failed
      rw [← whole_append, rest_eq]
      refine .point ?_ (List.all_eq_true.1 List.all_takeWhile) ?_
      · obtain ⟨head, follows, is_digit⟩ := (Option.any_eq_true ..).1 digit
        obtain ⟨tail, rfl⟩ := List.head?_eq_some_iff.1 follows
        simp [Text.spanDigits, is_digit]
      · intro next follows
        obtain ⟨tail, rfl⟩ := List.head?_eq_some_iff.1 follows
        cases is_digit : next.isDigit with
        | false => rfl
        | true => simp [Text.spanDigits, is_digit] at no_fraction
    case isFalse => cases failed
  case h_2 => cases failed

theorem badNumber_of_number (digit : text.head?.any Char.isDigit = true)
    (failed : Lexeme.number text = .error fault) : BadNumber fault text := by
  unfold Lexeme.number at failed
  split at failed
  case h_1 other split =>
    obtain rfl := Except.error.inj failed
    exact badNumber_of_splitNumber digit split
  case h_2 numeral rest split =>
    obtain ⟨⟨decimal, spells⟩, ends⟩ := Lexeme.exists_spells_of_splitNumber digit split
    rw [spells.ofNumeral?, Option.filter_some] at failed
    cases finite : (decimal.toNumber false).isFinite with
    | true =>
        rw [finite] at failed
        exact nomatch failed
    | false =>
        rw [finite] at failed
        obtain rfl := Except.error.inj failed
        rw [← Lexeme.splitNumber_append split]
        exact .outOfRange spells finite ends

/-- A minus in front of a number changes nothing about its faults. -/
theorem number_eq_error_of_negativeNumber (failed : Lexeme.negativeNumber text = .error fault) :
    Lexeme.number text = .error fault := by
  unfold Lexeme.negativeNumber at failed
  unfold Lexeme.number
  split at failed
  case h_1 other split => exact failed
  case h_2 numeral rest split =>
    split at failed
    case h_1 => exact nomatch failed
    case h_2 none => exact failed

theorem offends_of_quoted (encloses : Quoted.isQuote head = true)
    (failed : Lexeme.quoted head tail = .error fault) : Offends before fault (head :: tail) := by
  have no_backslash : head ≠ '\\' := by
    rintro rfl
    exact nomatch encloses
  unfold Lexeme.quoted at failed
  split at failed
  case h_1 => exact nomatch failed
  case h_2 unread =>
    obtain rfl := Except.error.inj failed
    refine .unclosed encloses fun body content rest spells closed => ?_
    have read := spells.read? no_backslash rest
    rw [← closed, unread] at read
    exact nomatch read

/-- Whatever cannot be read is an offence. -/
theorem offends_of_read (solid : Text.isBlank head = false)
    (failed : Lexeme.read before head tail = .error fault) :
    Offends before fault (head :: tail) := by
  have reads := Lexeme.reads_read before head tail
  rw [failed] at reads
  cases reads with
  | single kind read => exact nomatch read
  | withEquals kind longer read => exact nomatch read
  | notEqual rest follows read => exact nomatch read
  | name starts read => exact nomatch read
  | negative minus signs read =>
      obtain ⟨operand, digit⟩ := (Bool.and_eq_true_iff ..).1 signs
      obtain rfl : before = false := by simpa using operand
      subst minus
      exact .negative (badNumber_of_number digit (number_eq_error_of_negativeNumber read.symm))
  | exclamation mark alone read =>
      subst mark
      obtain rfl := Except.error.inj read
      refine .exclamation fun follows => ?_
      obtain ⟨rest, rfl⟩ := List.head?_eq_some_iff.1 follows
      exact alone rest rfl
  | quoted encloses read => exact offends_of_quoted encloses read.symm
  | number digit read => exact .number (badNumber_of_number digit read.symm)
  | unknown no_mark no_quote no_digit no_name read =>
      obtain rfl := Except.error.inj read
      refine .unknown solid fun spelling kind spells starts => ?_
      cases spells with
      | name named =>
          obtain ⟨first, others, name_eq, is_start, -⟩ := Lexeme.exists_of_isName named
          rw [name_eq] at starts
          obtain rfl := Option.some.inj starts
          exact no_name is_start
      | number numeral =>
          obtain ⟨first, others, rfl, digit⟩ := numeral.exists_head
          obtain rfl := Option.some.inj starts
          exact no_digit digit
      | text encloses =>
          obtain rfl := Option.some.inj starts
          exact no_quote encloses
      | _ =>
          -- The other lexemes begin with marks.
          obtain rfl := Option.some.inj starts
          exact no_mark (by decide)

end Reading

/-! ## The text in front of an offence -/

/-- What does not lengthen a lexeme does not lengthen it when the text ends earlier. -/
theorem Longest.of_append {before : Bool} {spelling front rest : List Char} {kind : TokenKind}
    (longest : Longest before spelling kind (front ++ rest)) :
    Longest before spelling kind front where
  ends next follows := longest.ends next (by
    rw [List.head?_append, Option.mem_def.1 follows]
    rfl)
  equals mark follows := longest.equals mark (by
    rw [List.head?_append, follows]
    rfl)
  sign digit tail parts is_digit := longest.sign digit (tail ++ rest) (by
    rw [← List.append_assoc, parts]
    rfl) is_digit

/-- An operand has ended behind some words, which may be none. -/
def operandEnds (before : Bool) (words : List TokenKind) : Bool :=
  words.getLast?.elim before TokenKind.endsOperand

theorem operandEnds_cons (before : Bool) (word : TokenKind) (words : List TokenKind) :
    operandEnds before (word :: words) = operandEnds word.endsOperand words := by
  rw [operandEnds, operandEnds, List.getLast?_cons]
  cases words.getLast? <;> rfl

/-- Where the lexer fails, the text in front divides and an offence follows. -/
theorem exists_offence_of_listFrom {before : Bool} {position : Nat} {text : List Char}
    {error : LexError} (failed : Token.listFrom before position text = .error error) :
    ∃ pieces front rest fault, text = front ++ rest ∧ rest ≠ [] ∧ Divides before front pieces ∧
      Offends (operandEnds before (pieces.map Piece.kind)) fault rest ∧
      error = fault.error (position + Text.byteWidth front) := by
  fun_induction Token.listFrom before position text with
  | case1 => cases failed
  | case2 before position text start head tail body_eq fault read =>
      obtain rfl := Except.error.inj failed
      have solid : Text.isBlank head = false :=
        Text.stops_dropWhile Text.isBlank text head (by rw [body_eq]; rfl)
      refine ⟨[], text.takeWhile Text.isBlank, head :: tail, fault, ?_, List.cons_ne_nil _ _,
        .blank (List.all_eq_true.1 List.all_takeWhile), offends_of_read solid read, rfl⟩
      rw [← body_eq, List.takeWhile_append_dropWhile]
  | case3 before position text start head tail body_eq lexeme read shorter induction =>
      obtain ⟨pieces, front, rest, fault, rest_eq, nonempty, divides, offends, rfl⟩ :=
        induction (map_eq_error.1 failed)
      have parts := parts_of_read body_eq read
      have fits := fits_of_read read
      have longest := fits.longest
      rw [rest_eq] at longest parts
      have blanks : ∀ character ∈ text.takeWhile Text.isBlank, Text.isBlank character = true :=
        List.all_eq_true.1 List.all_takeWhile
      have divided := Divides.piece blanks fits.spells longest.of_append divides
      refine ⟨_, _, rest, fault, ?_, nonempty, divided, ?_, ?_⟩
      · exact parts.trans (by simp only [List.append_assoc])
      · rw [List.map_cons, operandEnds_cons]
        exact offends
      · simp only [Text.byteWidth_append, start, Nat.add_assoc]

/-- Where the lexer fails, it fails at a character of the text: what stands in front has tokens of
its own, up to that place, and what begins there is the offence that the error describes. -/
theorem list_fails_at_first_offence {source : String} {error : LexError}
    (failed : Token.list source = .error error) :
    String.Pos.Raw.IsValid source ⟨error.position⟩ ∧ error.position < source.utf8ByteSize ∧
    ∃ front rest words fault, source = front ++ rest ∧ front.utf8ByteSize = error.position ∧
      Token.list front = .ok (words ++ [⟨.endOfText, error.position⟩]) ∧
      Offends (operandEnds false (words.map Token.kind)) fault rest.toList ∧
      error = fault.error error.position := by
  obtain ⟨pieces, front, rest, fault, source_eq, nonempty, divides, offends, error_eq⟩ :=
    exists_offence_of_listFrom failed
  have whole : source = .ofList front ++ .ofList rest := by
    rw [← String.ofList_append, ← source_eq, String.ofList_toList]
  have place : (String.ofList front).utf8ByteSize = error.position := by
    rw [Text.utf8ByteSize_ofList, error_eq]
    exact (Nat.zero_add _).symm
  obtain ⟨words, tokens_eq, kinds_eq⟩ := exists_tokensOf_eq error.position 0 pieces
  refine ⟨?_, ?_, .ofList front, .ofList rest, words, fault, whole, place, ?_, ?_, ?_⟩
  · rw [String.Pos.Raw.isValid_iff_exists_append]
    exact ⟨.ofList front, .ofList rest, whole, by rw [← place]; rfl⟩
  · have positive := Text.byteWidth_pos nonempty
    rw [whole, String.utf8ByteSize_append, place, Text.utf8ByteSize_ofList]
    omega
  · rw [← String.toList_ofList (l := front)] at divides
    rw [divides.list, place, tokens_eq]
  · rw [kinds_eq, String.toList_ofList]
    exact offends
  · rw [error_eq]
    rfl

/-- Behind an operator, a negative number without digits behind its point is reported at its sign,
which stands at the seventh byte behind a character of two bytes. -/
theorem list_fails_at_negative_number :
    let source := "'é' = -1.x"
    let error := LexFault.pointWithoutDigits.error 7
    Token.list source = .error error ∧ String.Pos.Raw.IsValid source ⟨7⟩ ∧
      7 < source.utf8ByteSize ∧
      ∃ front rest words fault, source = front ++ rest ∧ front.utf8ByteSize = 7 ∧
        Token.list front = .ok (words ++ [⟨.endOfText, 7⟩]) ∧
        Offends (operandEnds false (words.map Token.kind)) fault rest.toList ∧
        error = fault.error 7 := by
  intro source error
  have failed : Token.list source = .error error := by decide +kernel
  exact ⟨failed, list_fails_at_first_offence failed⟩

end Lexer
end FormRules
