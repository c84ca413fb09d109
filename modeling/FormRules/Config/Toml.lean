import FormRules.Config.Setting
import FormRules.Text.ByteOrder
import FormRules.Text.Reader

/-!
# Settings in TOML

Reads a document of headers and assignments into a tree of settings. This is the part of TOML that
a configuration is written in: values are strings on one line, integers, decimals and booleans, and
keys may be quoted and dotted; lists, tables within a line, dates and strings on several lines are
left out. No name is defined twice: a header opens a table that no header and no dotted key has
defined before, and a dotted key extends only tables that dotted keys have made.
-/

namespace FormRules.Config.Toml

open Text Text.Reader

/-! ## Words and strings -/

/-- The blanks within a line. -/
def isSpace (character : Char) : Bool :=
  character == ' ' || character == '\t'

/-- The characters that no line may hold as they are. -/
def isControl (character : Char) : Bool :=
  (character.toNat < 0x20 && character != '\t') || character.toNat == 0x7F

/-- The characters of a key without quotes. -/
def isKeyCharacter (character : Char) : Bool :=
  character.isAlphanum || character == '_' || character == '-'

/-- The characters of a value without quotes. -/
def isWordCharacter (character : Char) : Bool :=
  isKeyCharacter character || character == '+' || character == '.'

/-- Any blanks within a line. -/
def spaces : Reader Unit := do
  discard (run isSpace)

/-- The character whose code point hexadecimal digits spell. -/
def scalarOfHex? (digits : List Char) : Option Char := do
  let values ← digits.mapM hexDigitValue?
  let point := values.foldl (fun value digit => 16 * value + digit) 0
  if valid : point.isValidChar then some (Char.ofNatAux point valid) else none

/-- The character that a backslash and a mark stand for. -/
def escaped? : Char → Option Char
  | 'b' => some '\x08'
  | 't' => some '\t'
  | 'n' => some '\n'
  | 'f' => some '\x0C'
  | 'r' => some '\r'
  | 'e' => some '\x1B'
  | '"' => some '"'
  | '\\' => some '\\'
  | _ => none

/-- A string with escapes behind its opening quote, up to and with the closing one. -/
def basicString : Reader (List Char)
  | [] => none
  | '"' :: rest => some ([], rest)
  | '\\' :: 'x' :: a :: b :: rest => do
      let head ← scalarOfHex? [a, b]
      (basicString rest).map fun (content, rest) => (head :: content, rest)
  | '\\' :: 'u' :: a :: b :: c :: d :: rest => do
      let head ← scalarOfHex? [a, b, c, d]
      (basicString rest).map fun (content, rest) => (head :: content, rest)
  | '\\' :: 'U' :: a :: b :: c :: d :: e :: f :: g :: h :: rest => do
      let head ← scalarOfHex? [a, b, c, d, e, f, g, h]
      (basicString rest).map fun (content, rest) => (head :: content, rest)
  | '\\' :: mark :: rest => do
      let head ← escaped? mark
      (basicString rest).map fun (content, rest) => (head :: content, rest)
  | head :: rest =>
      if isControl head || head == '\\' then none
      else (basicString rest).map fun (content, rest) => (head :: content, rest)

/-- A string without escapes behind its opening quote, up to and with the closing one. -/
def literalString : Reader (List Char) := do
  let content ← run fun (character : Char) => character != '\'' && !isControl character
  literal '\''
  return content

/-- A string of either kind, with both of its quotes. -/
def quotedString : Reader (List Char)
  | '"' :: rest => basicString rest
  | '\'' :: rest => literalString rest
  | _ => none

/-! ## Numbers -/

/-- Digits without the underscores among them, each of which must stand between two digits. -/
def ungrouped? (isDigit : Char → Bool) : List Char → Option (List Char)
  | [] => none
  | [digit] => if isDigit digit then some [digit] else none
  | digit :: '_' :: rest | digit :: rest =>
      if isDigit digit then (ungrouped? isDigit rest).map (digit :: ·) else none

/-- As many digits as there are, at least one, without the underscores among them. -/
def groupedDigits (isDigit : Char → Bool) : Reader (List Char) := do
  let spelled ← run fun (character : Char) => isDigit character || character == '_'
  ofOption (ungrouped? isDigit spelled)

/-- Decimal digits without leading zeros. -/
def wholeDigits : Reader (List Char) := do
  let digits ← groupedDigits Char.isDigit
  require (digits.length == 1 || digits.head? != some '0')
  return digits

/-- A sign, if one comes next. -/
def sign : Reader (Option Char) :=
  optional fun (character : Char) => character == '+' || character == '-'

/-- An integer of 64 bits as a setting. -/
def integerSetting? (value : Int) : Option Setting :=
  if -(2 ^ 63) ≤ value ∧ value < 2 ^ 63 then some (.integer value) else none

/-- A decimal integer. -/
def decimalInteger : Reader Setting := do
  let negative := (← sign) == some '-'
  ofOption (integerSetting? (Number.signed negative (digitsValue (← wholeDigits))))

/-- The value of the digits of an integer in a base that is a power of two. -/
def digitsValueIn (base : Nat) (digits : List Char) : Nat :=
  digits.foldl (fun value digit => base * value + (hexDigitValue? digit).getD 0) 0

/-- An integer in a base other than ten, with the letter that marks the base. -/
def markedInteger (mark : Char) (base : Nat) : Reader Setting := do
  literal '0'
  literal mark
  let digits ← groupedDigits fun (digit : Char) => (hexDigitValue? digit).any (· < base)
  ofOption (integerSetting? (digitsValueIn base digits))

/-- The point and the digits behind it, if a point comes next. -/
def fraction : Reader (List Char) := do
  match ← optional (· == '.') with
  | some point => return point :: (← groupedDigits Char.isDigit)
  | none => return []

/-- The mark, the sign and the digits of an exponent, if a mark comes next. -/
def exponent : Reader (List Char) := do
  match ← optional (·.toLower == 'e') with
  | some mark => return mark :: (← sign).toList ++ (← groupedDigits Char.isDigit)
  | none => return []

/-- A decimal with a fraction or an exponent, unless it is too large. -/
def decimalNumber : Reader Setting := do
  let signPart := (← sign).toList
  let wholePart ← wholeDigits
  let fractionPart ← fraction
  let exponentPart ← exponent
  require (!fractionPart.isEmpty || !exponentPart.isEmpty)
  let number ← ofOption
    (Number.ofNumeral? (signPart ++ wholePart ++ fractionPart ++ exponentPart))
  require number.isFinite
  return .decimal number

/-- One of the words for numbers beyond the finite ones. -/
def wordNumber : Reader Setting := do
  let negative := (← sign) == some '-'
  match String.ofList (← run Char.isAlpha) with
  | "inf" => return .decimal (.infinite negative)
  | "nan" => return .decimal .nan
  | _ => refuse

/-- One of the words for truth values. -/
def flag : Reader Setting := do
  match String.ofList (← run Char.isAlpha) with
  | "true" => return .boolean true
  | "false" => return .boolean false
  | _ => refuse

/-- The forms of a value without quotes. -/
def wordForms : List (Reader Setting) :=
  [flag, decimalInteger, markedInteger 'x' 16, markedInteger 'o' 8, markedInteger 'b' 2,
   decimalNumber, wordNumber]

/-- A value. -/
def value : Reader Setting := fun text =>
  match text with
  | '"' :: _ | '\'' :: _ => (quotedString text).map fun (content, rest) =>
      (.text (String.ofList content), rest)
  | _ =>
      let word := text.takeWhile isWordCharacter
      (wordForms.findSome? (·.all? word)).map (·, text.dropWhile isWordCharacter)

/-! ## Statements -/

/-- A statement of a document. -/
inductive Statement where
  /-- Opens a table. -/
  | header (path : Path)
  /-- Defines a setting of the table that was opened last. -/
  | assignment (path : Path) (value : Setting)

/-- One name of a key. -/
def keyPart : Reader String := fun text =>
  match text with
  | '"' :: _ | '\'' :: _ => (quotedString text).map fun (content, rest) =>
      (String.ofList content, rest)
  | _ => match text.takeWhile isKeyCharacter with
      | [] => none
      | name => some (String.ofList name, text.dropWhile isKeyCharacter)

/-- The names of a key of up to so many names, with points between them. -/
def keyParts : Nat → Reader Path
  | 0 => refuse
  | most + 1 => do
      let name ← keyPart
      spaces
      match ← optional (· == '.') with
      | some _ =>
          spaces
          return name :: (← keyParts most)
      | none => return [name]

/-- A key. Each of its names takes a character at least. -/
def key : Reader Path := fun text => keyParts text.length text

/-- A header. -/
def header : Reader Statement := do
  literal '['
  spaces
  let path ← key
  literal ']'
  return .header path

/-- An assignment. -/
def assignment : Reader Statement := do
  let path ← key
  literal '='
  spaces
  return .assignment path (← value)

/-- The statement of a line, if the line has one. -/
def statement : Reader (Option Statement) := fun text =>
  match text with
  | [] | '#' :: _ => some (none, text)
  | '[' :: _ => (header text).map fun (found, rest) => (some found, rest)
  | _ => (assignment text).map fun (found, rest) => (some found, rest)

/-- A comment up to the end of its line, if one comes next. -/
def comment : Reader Unit
  | '#' :: rest => if rest.any isControl then none else some ((), [])
  | text => some ((), text)

/-- A line. -/
def line : Reader (Option Statement) := do
  spaces
  let found ← statement
  spaces
  comment
  return found

/-- The lines of a text. A line feed ends a line, and so does a carriage return before one. -/
def lines : List Char → List (List Char)
  | [] => [[]]
  | '\r' :: '\n' :: rest => [] :: lines rest
  | '\n' :: rest => [] :: lines rest
  | head :: rest => match lines rest with
      | [] => [[head]]
      | first :: others => (head :: first) :: others

/-! ## Documents -/

/-- What the statements of a document have defined so far. -/
structure Document where
  settings : Setting
  /-- The tables that headers have opened. -/
  headed : List Path
  /-- The tables that dotted keys have made. -/
  dotted : List Path
  /-- The table that was opened last. -/
  current : Path

namespace Document

/-- The document without statements. -/
def blank : Document := ⟨.empty, [], [], []⟩

/-- No scalar stands at a path. -/
def leavesRoom (document : Document) (path : Path) : Bool :=
  (document.settings.find? path).all Setting.isTable

/-- The non-empty beginnings of a path that are shorter than it. -/
def tablesAbove (path : Path) : List Path :=
  (List.range (path.length - 1)).map fun (count : Nat) => path.take (count + 1)

/-- Opens a table that nothing but headers of its own tables has mentioned before. -/
def open? (document : Document) (path : Path) : Option Document :=
  if (tablesAbove path).all document.leavesRoom ∧ document.leavesRoom path ∧
      path ∉ document.headed ∧ path ∉ document.dotted then
    some { document with
      settings := Setting.empty.place path (some document.settings)
      headed := path :: document.headed
      current := path }
  else none

/-- Defines a setting of the current table. -/
def assign? (document : Document) (path : Path) (setting : Setting) : Option Document :=
  let tables := (tablesAbove path).map (document.current ++ ·)
  let place := document.current ++ path
  let extendable (table : Path) : Bool :=
    document.leavesRoom table && !document.headed.contains table
  let isNew (table : Path) : Bool := (document.settings.find? table).isNone
  let own (table : Path) : Bool := isNew table || document.dotted.contains table
  if tables.all extendable ∧ tables.getLast?.all own ∧ isNew place then
    some { document with
      settings := setting.place place (some document.settings)
      dotted := tables.filter isNew ++ document.dotted }
  else none

/-- Adds a statement, if the document allows it. -/
def add? (document : Document) : Statement → Option Document
  | .header path => document.open? path
  | .assignment path setting => document.assign? path setting

end Document

/-- The settings of a document, unless it is malformed. -/
def read? (text : List Char) : Option Setting := do
  let found ← (lines (withoutByteOrderMark text)).mapM line.all?
  let document ← (found.filterMap id).foldlM Document.add? Document.blank
  return document.settings

end FormRules.Config.Toml
