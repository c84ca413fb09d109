import FormRules.Error
import FormRules.Text.Blank
import FormRules.Text.Width
import FormRules.Token
import FormRules.Token.Quoted
import FormRules.Number.Decimal

/-!
# Splitting an expression into tokens

A text is blanks and lexemes in turn. The lexeme at the head of a text is the longest one that
starts there, and no character is dropped: `Lexeme.read?` returns the spelling next to the token,
and `spelling_append_rest` says that spelling and rest make up the text. A minus in front of a
digit belongs to the number unless an operand has just ended.
-/

namespace FormRules

/-- Why no lexeme starts at a place. -/
inductive LexFault where
  /-- An exclamation mark without the equals sign of `!=`. -/
  | loneExclamation
  | unclosedText
  | pointWithoutDigits
  /-- The digits spell no finite number. -/
  | numberOutOfRange (literal : List Char)
  | unknownCharacter (character : Char)
deriving DecidableEq

namespace LexFault

/-- The description of a fault. -/
def message : LexFault → String
  | loneExclamation => "'!' 只能用于 '!='"
  | unclosedText => "字符串未闭合"
  | pointWithoutDigits => "小数点后缺少数字"
  | numberOutOfRange literal => s!"无效的数值 '{String.ofList literal}'"
  | unknownCharacter character => s!"无法识别的字符 '{character}'"

/-- The fault at a place, as an error. -/
def error (fault : LexFault) (position : Nat) : LexError :=
  ⟨position, fault.message⟩

end LexFault

/-- A lexeme at the head of a text. -/
structure Lexeme where
  kind : TokenKind
  /-- The characters of the lexeme. -/
  spelling : List Char
  /-- The text behind the lexeme. -/
  rest : List Char

namespace Lexeme

/-- The letters and the underscore that may open a name. -/
def startsName (character : Char) : Bool :=
  character.isAlpha || character == '_'

/-- The characters that may continue a name. -/
def continuesName (character : Char) : Bool :=
  character.isAlphanum || character == '_'

/-- A lexeme of one character. -/
def single (kind : TokenKind) (head : Char) (tail : List Char) : Lexeme :=
  ⟨kind, [head], tail⟩

/-- A lexeme that an equals sign lengthens to another one. -/
def withEquals (kind longer : TokenKind) (head : Char) : List Char → Lexeme
  | '=' :: tail => ⟨longer, [head, '='], tail⟩
  | tail => ⟨kind, [head], tail⟩

/-- The characters of an unsigned number and the text behind them. A point must have a digit behind
it. -/
def splitNumber (text : List Char) : Except LexFault (List Char × List Char) :=
  let (whole, rest) := Text.spanDigits text
  match rest with
  | '.' :: tail =>
      let (fraction, rest) := Text.spanDigits tail
      if fraction = [] then .error .pointWithoutDigits
      else .ok (whole ++ '.' :: fraction, rest)
  | _ => .ok (whole, rest)

/-- The number at the head of a text, which must be finite. -/
def number (text : List Char) : Except LexFault Lexeme :=
  match splitNumber text with
  | .error fault => .error fault
  | .ok (literal, rest) =>
      match (Number.ofNumeral? literal).filter Number.isFinite with
      | some value => .ok ⟨.number value, literal, rest⟩
      | none => .error (.numberOutOfRange literal)

/-- The number behind a minus sign that belongs to it. -/
def negativeNumber (text : List Char) : Except LexFault Lexeme :=
  match splitNumber text with
  | .error fault => .error fault
  | .ok (literal, rest) =>
      match (Number.ofNumeral? literal).filter Number.isFinite with
      | some value => .ok ⟨.number value.negate, '-' :: literal, rest⟩
      | none => .error (.numberOutOfRange literal)

/-- The text at the head of a text, behind its opening quote. -/
def quoted (quote : Char) (text : List Char) : Except LexFault Lexeme :=
  match Quoted.read? quote text with
  | some reading =>
      .ok ⟨.text (String.ofList reading.content), quote :: reading.spelling, reading.rest⟩
  | none => .error .unclosedText

/-- The name at the head of a text. -/
def name (text : List Char) : Lexeme :=
  let spelling := text.takeWhile continuesName
  ⟨.identifier (String.ofList spelling), spelling, text.dropWhile continuesName⟩

/-- The lexeme at the head of a text that does not start with a blank. -/
def read (afterOperand : Bool) (head : Char) (tail : List Char) : Except LexFault Lexeme :=
  match head with
  | '(' => .ok (single .leftParen head tail)
  | ')' => .ok (single .rightParen head tail)
  | ',' => .ok (single .comma head tail)
  | '+' => .ok (single .plus head tail)
  | '*' => .ok (single .star head tail)
  | '/' => .ok (single .slash head tail)
  | '%' => .ok (single .percent head tail)
  | '-' =>
      if !afterOperand && tail.head?.any Char.isDigit then negativeNumber tail
      else .ok (single .minus head tail)
  | '<' => .ok (withEquals .less .lessEqual head tail)
  | '>' => .ok (withEquals .greater .greaterEqual head tail)
  | '=' => .ok (withEquals .equal .equal head tail)
  | '!' =>
      match tail with
      | '=' :: rest => .ok ⟨.notEqual, [head, '='], rest⟩
      | _ => .error .loneExclamation
  | _ =>
      if Quoted.isQuote head then quoted head tail
      else if head.isDigit then number (head :: tail)
      else if startsName head then .ok (name (head :: tail))
      else .error (.unknownCharacter head)

/-- The characters other than quotes and letters that begin lexemes. -/
def marks : List Char :=
  ['(', ')', ',', '+', '*', '/', '%', '-', '<', '>', '=', '!']

/-- How the lexeme at the head of a text is read, by its first character. -/
inductive Reads (afterOperand : Bool) (head : Char) (tail : List Char)
    (result : Except LexFault Lexeme) : Prop where
  | single (kind : TokenKind) (read : result = .ok (single kind head tail))
  | withEquals (kind longer : TokenKind) (read : result = .ok (withEquals kind longer head tail))
  | negative (minus : head = '-') (signs : (!afterOperand && tail.head?.any Char.isDigit) = true)
      (read : result = negativeNumber tail)
  | notEqual (rest : List Char) (follows : tail = '=' :: rest)
      (read : result = .ok ⟨.notEqual, [head, '='], rest⟩)
  | exclamation (mark : head = '!') (alone : ∀ rest, tail ≠ '=' :: rest)
      (read : result = .error .loneExclamation)
  | quoted (encloses : Quoted.isQuote head = true) (read : result = quoted head tail)
  | number (digit : head.isDigit = true) (read : result = number (head :: tail))
  | name (starts : startsName head = true) (read : result = .ok (name (head :: tail)))
  | unknown (no_mark : head ∉ marks) (no_quote : ¬ Quoted.isQuote head = true)
      (no_digit : ¬ head.isDigit = true) (no_name : ¬ startsName head = true)
      (read : result = .error (.unknownCharacter head))

/-- The branch of a first character that no other branch takes. -/
theorem reads_of_not_mem_marks {afterOperand : Bool} {head : Char} {tail : List Char}
    (no_mark : head ∉ marks) :
    Reads afterOperand head tail
      (if Quoted.isQuote head then quoted head tail
        else if head.isDigit then number (head :: tail)
        else if startsName head then .ok (name (head :: tail))
        else .error (.unknownCharacter head)) := by
  split
  case isTrue encloses => exact .quoted encloses rfl
  case isFalse no_quote =>
    split
    case isTrue digit => exact .number digit rfl
    case isFalse no_digit =>
      split
      case isTrue starts => exact .name starts rfl
      case isFalse no_name => exact .unknown no_mark no_quote no_digit no_name rfl

theorem reads_read (afterOperand : Bool) (head : Char) (tail : List Char) :
    Reads afterOperand head tail (read afterOperand head tail) := by
  unfold read
  split
  all_goals first
    | exact .single _ rfl
    | exact .withEquals _ _ rfl
    | exact reads_of_not_mem_marks (by simp [marks]; and_intros <;> assumption)
    | skip
  · split
    case isTrue signs => exact .negative rfl signs rfl
    case isFalse => exact .single _ rfl
  · split
    case h_1 rest => exact .notEqual rest rfl rfl
    case h_2 alone => exact .exclamation rfl alone rfl

/-- The lexeme is a non-empty front of the text. -/
def SplitsOff (lexeme : Lexeme) (text : List Char) : Prop :=
  lexeme.spelling ++ lexeme.rest = text ∧ lexeme.spelling ≠ []

theorem splitsOff_single (kind : TokenKind) (head : Char) (tail : List Char) :
    (single kind head tail).SplitsOff (head :: tail) := by
  simp [single, SplitsOff]

theorem splitsOff_withEquals (kind longer : TokenKind) (head : Char) (tail : List Char) :
    (withEquals kind longer head tail).SplitsOff (head :: tail) := by
  unfold withEquals
  split <;> simp [SplitsOff]

theorem splitNumber_append {text literal rest : List Char}
    (split : splitNumber text = .ok (literal, rest)) : literal ++ rest = text := by
  unfold splitNumber at split
  have whole := Text.spanDigits_append text
  dsimp only at split
  split at split
  case h_1 tail rest_eq =>
    have fraction := Text.spanDigits_append tail
    split at split
    · simp at split
    · obtain ⟨rfl, rfl⟩ := Prod.mk.inj (Except.ok.inj split)
      rw [List.append_assoc, List.cons_append, fraction, ← rest_eq, whole]
  case h_2 =>
    obtain ⟨rfl, rfl⟩ := Prod.mk.inj (Except.ok.inj split)
    exact whole

theorem splitsOff_number {head : Char} {tail : List Char} {lexeme : Lexeme}
    (digit : head.isDigit = true) (read : number (head :: tail) = .ok lexeme) :
    lexeme.SplitsOff (head :: tail) := by
  unfold number at read
  split at read
  · simp at read
  case h_2 literal rest split =>
    split at read
    · obtain rfl := Except.ok.inj read
      refine ⟨splitNumber_append split, ?_⟩
      rintro (rfl : literal = [])
      simp only [splitNumber, Text.spanDigits, List.takeWhile_cons, digit, if_true] at split
      split at split
      · split at split <;> simp at split
      · simp at split
    · simp at read

theorem splitsOff_negativeNumber {tail : List Char} {lexeme : Lexeme}
    (read : negativeNumber tail = .ok lexeme) : lexeme.SplitsOff ('-' :: tail) := by
  unfold negativeNumber at read
  split at read
  · simp at read
  case h_2 literal rest split =>
    split at read
    · obtain rfl := Except.ok.inj read
      exact ⟨congrArg (List.cons '-') (splitNumber_append split), List.cons_ne_nil _ _⟩
    · simp at read

theorem splitsOff_quoted {quote : Char} {tail : List Char} {lexeme : Lexeme}
    (read : quoted quote tail = .ok lexeme) : lexeme.SplitsOff (quote :: tail) := by
  unfold quoted at read
  split at read
  case h_1 reading reading_eq =>
    obtain rfl := Except.ok.inj read
    have parts := Quoted.spelling_append_rest reading_eq
    exact ⟨congrArg (List.cons quote) parts.1, List.cons_ne_nil _ _⟩
  · simp at read

theorem continuesName_of_startsName {character : Char} (starts : startsName character = true) :
    continuesName character = true := by
  simp only [startsName, continuesName, Char.isAlphanum, Bool.or_eq_true] at starts ⊢
  rcases starts with letter | underscore
  · exact .inl (.inl letter)
  · exact .inr underscore

theorem splitsOff_name {head : Char} {tail : List Char} (starts : startsName head = true) :
    (name (head :: tail)).SplitsOff (head :: tail) := by
  refine ⟨List.takeWhile_append_dropWhile, ?_⟩
  simp [name, continuesName_of_startsName starts]

/-- Reading a lexeme loses nothing and always advances. -/
theorem spelling_append_rest {afterOperand : Bool} {head : Char} {tail : List Char}
    {lexeme : Lexeme} (read_eq : read afterOperand head tail = .ok lexeme) :
    lexeme.SplitsOff (head :: tail) := by
  have reads := reads_read afterOperand head tail
  rw [read_eq] at reads
  cases reads with
  | single kind read =>
      obtain rfl := Except.ok.inj read
      exact splitsOff_single ..
  | withEquals kind longer read =>
      obtain rfl := Except.ok.inj read
      exact splitsOff_withEquals ..
  | negative minus signs read =>
      subst minus
      exact splitsOff_negativeNumber read.symm
  | notEqual rest follows read =>
      obtain rfl := Except.ok.inj read
      simp [SplitsOff, follows]
  | exclamation mark alone read => exact nomatch read
  | quoted encloses read => exact splitsOff_quoted read.symm
  | number digit read => exact splitsOff_number digit read.symm
  | name starts read =>
      obtain rfl := Except.ok.inj read
      exact splitsOff_name starts
  | unknown no_mark no_quote no_digit no_name read => exact nomatch read

theorem length_rest_lt {lexeme : Lexeme} {text : List Char} (splits : lexeme.SplitsOff text) :
    lexeme.rest.length < text.length := by
  obtain ⟨parts, nonempty⟩ := splits
  have positive := List.length_pos_iff.2 nonempty
  rw [← parts, List.length_append]
  omega

/-- What is left behind a lexeme and the blanks before it is shorter than the text. -/
theorem length_rest_lt_of_read {afterOperand : Bool} {text tail : List Char} {head : Char}
    {lexeme : Lexeme} (body_eq : text.dropWhile Text.isBlank = head :: tail)
    (read_eq : read afterOperand head tail = .ok lexeme) :
    lexeme.rest.length < text.length := by
  have shorter := length_rest_lt (spelling_append_rest read_eq)
  have body := (text.dropWhile_sublist Text.isBlank).length_le
  rw [body_eq] at body
  omega

end Lexeme

namespace Token

/-- The tokens of a text that starts at a byte offset, closed by the end of the text. -/
def listFrom (afterOperand : Bool) (position : Nat) (text : List Char) :
    Except LexError (List Token) :=
  let start := position + Text.byteWidth (text.takeWhile Text.isBlank)
  match body_eq : text.dropWhile Text.isBlank with
  | [] => .ok [⟨.endOfText, start⟩]
  | head :: tail =>
      match read_eq : Lexeme.read afterOperand head tail with
      | .error fault => .error (fault.error start)
      | .ok lexeme =>
          have : lexeme.rest.length < text.length :=
            Lexeme.length_rest_lt_of_read body_eq read_eq
          (listFrom lexeme.kind.endsOperand (start + Text.byteWidth lexeme.spelling)
            lexeme.rest).map (⟨lexeme.kind, start⟩ :: ·)
termination_by text.length

/-- The tokens of an expression. -/
def list (source : String) : Except LexError (List Token) :=
  listFrom false 0 source.toList

end Token
end FormRules
