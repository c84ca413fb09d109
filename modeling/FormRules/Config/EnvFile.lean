import FormRules.Text.Alphanumeric
import FormRules.Text.Blank
import FormRules.Text.ByteOrder

/-!
# Files of variables

Reads the assignments of an environment file. A line ends at a line feed outside quotes; a value may
be quoted, and outside single quotes it may refer to variables. The first line that cannot be read
ends the reading, and a variable that is already set keeps its value.
-/

namespace FormRules.Config.EnvFile

/-- Variables with their values. The first of several with one name counts. -/
abbrev Variables := List (String × String)

/-! ## Lines -/

/-- Where a text stands between its lines. -/
inductive LineState where
  | plain
  | blank
  | escape
  | single
  | singleEscape
  | double
  | doubleEscape
  | comment
deriving DecidableEq

namespace LineState

/-- The state behind a character that opens something. -/
def opened (character : Char) : LineState :=
  match character with
  | '\\' => escape
  | '"' => double
  | '\'' => single
  | _ => plain

/-- The state behind a character. A comment begins only behind a blank. -/
def next (state : LineState) (character : Char) : LineState :=
  match state with
  | blank => if character = '#' then comment else opened character
  | escape => plain
  | plain =>
      if Text.isBlank character && character != '\n' && character != '\r' then blank
      else opened character
  | double => match character with
      | '\\' => doubleEscape
      | '"' => plain
      | _ => double
  | doubleEscape => double
  | single => match character with
      | '\\' => singleEscape
      | '\'' => plain
      | _ => single
  | singleEscape => single
  | comment => comment

/-- The text before a comment, and the state behind the text. -/
def scan (state : LineState) : List Char → List Char × LineState
  | [] => ([], state)
  | head :: rest =>
      match state.next head with
      | comment => ([], comment)
      | after =>
          let (before, final) := scan after rest
          (head :: before, final)

end LineState

/-- The pieces of a text up to and with each line feed. -/
def pieces : List Char → List (List Char)
  | [] => []
  | '\n' :: rest => ['\n'] :: pieces rest
  | head :: rest => match pieces rest with
      | [] => [[head]]
      | first :: others => (head :: first) :: others

/-- The lines made of pieces, of which some are pending. Pieces that no line end follows are
dropped. -/
def joined (pending : List Char) (state : LineState) : List (List Char) → List (List Char)
  | [] => []
  | piece :: rest =>
      let text := pending ++ piece
      if (Text.trimStart text).head? = some '#' then [] :: joined [] .plain rest
      else match state.scan piece with
        | (before, .comment) => (pending ++ before) :: joined [] .plain rest
        | (_, .plain) => text :: joined [] .plain rest
        | (_, after) => joined text after rest

/-! ## Values -/

/-- Where the reading of a value stands. -/
inductive ValueState where
  /-- Inside double quotes, or outside any. -/
  | plain (quoted : Bool)
  /-- Inside single quotes. -/
  | single
  /-- Behind a backslash. -/
  | escape (quoted : Bool)
  /-- In the name of a variable, of which a part is read. -/
  | name (quoted : Bool) (read : List Char)
  /-- In the name of a variable between braces. -/
  | braced (quoted : Bool) (read : List Char)
  /-- Behind the value. -/
  | ended

/-- The character that a backslash and a mark stand for. -/
def escaped? (mark : Char) : Option Char :=
  if mark = 'n' then some '\n'
  else if ['\\', '\'', '"', '$', ' '].contains mark then some mark
  else none

/-- The value that a text spells. -/
def value? (valueOf : List Char → List Char) : ValueState → List Char → Option (List Char)
  | .plain quoted, [] => if quoted then none else some []
  | .plain quoted, head :: rest =>
      if head = '$' then value? valueOf (.name quoted []) rest
      else if head = '\\' then value? valueOf (.escape quoted) rest
      else if head = '"' then value? valueOf (.plain (!quoted)) rest
      else if !quoted && head == '\'' then value? valueOf .single rest
      else if !quoted && (head == ' ' || head == '\t') then value? valueOf .ended rest
      else (value? valueOf (.plain quoted) rest).map (head :: ·)
  | .single, [] => none
  | .single, head :: rest =>
      if head = '\'' then value? valueOf (.plain false) rest
      else (value? valueOf .single rest).map (head :: ·)
  | .escape quoted, [] => if quoted then none else some []
  | .escape quoted, mark :: rest => do
      let head ← escaped? mark
      (value? valueOf (.plain quoted) rest).map (head :: ·)
  | .name quoted read, [] => if quoted then none else some (valueOf read)
  | .name quoted read, head :: rest =>
      if Text.isAlphanumeric head then value? valueOf (.name quoted (read ++ [head])) rest
      else if head = '\x7b' ∧ read = [] then value? valueOf (.braced quoted []) rest
      else if head = '$' then
        (value? valueOf (.name quoted []) rest).map (valueOf read ++ ·)
      else (value? valueOf (.plain quoted) rest).map (valueOf read ++ head :: ·)
  | .braced _ _, [] => none
  | .braced quoted read, head :: rest =>
      if head = '\x7d' then (value? valueOf (.plain quoted) rest).map (valueOf read ++ ·)
      else value? valueOf (.braced quoted (read ++ [head])) rest
  | .ended, [] => some []
  | .ended, head :: rest =>
      if head = ' ' ∨ head = '\t' then value? valueOf .ended rest
      else if head = '#' then some []
      else none

/-! ## Assignments -/

/-- What a line says. -/
inductive Line where
  | empty
  | assignment (name value : String)

/-- The characters of the name of a variable. -/
def isNameCharacter (character : Char) : Bool :=
  character.isAlphanum || character == '_' || character == '.'

/-- The name of a variable at the head of a text, and what follows it and any blanks. -/
def name? : List Char → Option (List Char × List Char)
  | [] => none
  | head :: rest =>
      if head.isAlpha || head == '_' then
        let name := (head :: rest).takeWhile isNameCharacter
        let after := (head :: rest).dropWhile isNameCharacter
        some (name, Text.trimStart after)
      else none

/-- What follows an equals sign and any blanks. -/
def afterEquals? : List Char → Option (List Char)
  | '=' :: rest => some (Text.trimStart rest)
  | _ => none

/-- The name that a line assigns to, and the text of the value. A word for exporting may stand
before the name, or may be the name itself. -/
def target? (text : List Char) : Option (List Char × List Char) := do
  let (first, rest) ← name? text
  match afterEquals? rest with
  | some spelled => return (first, spelled)
  | none =>
      if first = "export".toList then
        let (second, rest) ← name? rest
        return (second, ← afterEquals? rest)
      else none

/-- What a line says, unless it is malformed. -/
def line? (valueOf : List Char → List Char) (text : List Char) : Option Line :=
  match Text.trim text with
  | [] | '#' :: _ => some .empty
  | content => do
      let (name, spelled) ← target? content
      let value ← match spelled with
        | [] | '#' :: _ => some []
        | _ => value? valueOf (.plain false) spelled
      return .assignment (String.ofList name) (String.ofList value)

/-- The value of a variable; one that is not set has the empty value. -/
def valueIn (bindings : Variables) (name : List Char) : List Char :=
  ((bindings.lookup (String.ofList name)).getD "").toList

/-- Sets a variable that is not set. -/
def Variables.setIfUnset (bindings : Variables) (name value : String) : Variables :=
  if (bindings.lookup name).isSome then bindings else bindings ++ [(name, value)]

/-- The variables after the assignments of lines, up to the first malformed line. -/
def assignAll (bindings : Variables) : List (List Char) → Variables
  | [] => bindings
  | text :: rest =>
      match line? (valueIn bindings) text with
      | none => bindings
      | some .empty => assignAll bindings rest
      | some (.assignment name value) => assignAll (bindings.setIfUnset name value) rest

/-- The variables after the assignments of a file. -/
def load (bindings : Variables) (content : String) : Variables :=
  assignAll bindings (joined [] .plain (pieces (Text.withoutByteOrderMark content.toList)))

end FormRules.Config.EnvFile
