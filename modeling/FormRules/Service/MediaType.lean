/-!
# Media types

Whether the content type of a request announces JSON: the type `application` with the subtype
`json` or a subtype with the suffix `+json`, in any case and with any well-formed parameters.
-/

namespace FormRules.Service.MediaType

/-- The marks that tokens may contain beside letters and digits. -/
def tokenMarks : List Char :=
  ['!', '#', '$', '%', '&', '\'', '*', '+', '-', '.', '^', '_', '\x60', '|', '~']

/-- The characters of tokens. -/
def isTokenCharacter (character : Char) : Bool :=
  character.isAlphanum || tokenMarks.contains character

/-- The characters that may stand between quotes. -/
def isQuotable (character : Char) : Bool :=
  0x1F < character.toNat && character.toNat != 0x7F

/-- The characters that a header may contain to be read as text. -/
def isVisible (character : Char) : Bool :=
  character == '\t' || (0x20 ≤ character.toNat && character.toNat < 0x7F)

/-- Where in the parameters a reader is. -/
inductive Place where
  /-- Before the name of a parameter. -/
  | start
  | name
  /-- Behind the equals sign. -/
  | equals
  | value
  /-- Behind the opening quote, where any character belongs to the value. -/
  | opened
  | quoted
  /-- Behind the closing quote. -/
  | closed
deriving DecidableEq

namespace Place

/-- Reads one character. -/
def next? : Place → Char → Option Place
  | start, character =>
      if character = ' ' then some start
      else if isTokenCharacter character then some name else none
  | name, character =>
      if character = '=' then some equals
      else if isTokenCharacter character then some name else none
  | equals, character =>
      if character = '"' then some opened
      else if isTokenCharacter character then some value else none
  | value, character =>
      if character = ';' then some start
      else if isTokenCharacter character then some value else none
  | opened, character => if isQuotable character then some quoted else none
  | quoted, character =>
      if character = '"' then some closed
      else if isQuotable character then some quoted else none
  | closed, character =>
      if character = ';' then some start else if character = ' ' then some closed else none

/-- The parameters may end here. -/
def mayEnd : Place → Bool
  | start | equals | value | closed => true
  | name | opened | quoted => false

end Place

/-- The parameters behind the first semicolon are well-formed. -/
def parametersValid (text : List Char) : Bool :=
  ((text.foldlM Place.next? Place.start).map Place.mayEnd).getD false

/-- The subtype in front of its last suffix, and the suffix. A plus sign at the start opens none. -/
def splitSuffix (subtype : List Char) : List Char × Option (List Char) :=
  let reversed := subtype.reverse
  let suffix := (reversed.takeWhile (· != '+')).reverse
  let front := (reversed.dropWhile (· != '+')).drop 1
  if front = [] then (subtype, none) else (front.reverse, some suffix)

/-- The content type announces JSON. -/
def isJson (header : String) : Bool :=
  let text := header.toList.map Char.toLower
  let type := text.takeWhile isTokenCharacter
  match text.dropWhile isTokenCharacter with
  | '/' :: rest =>
      let subtype := rest.takeWhile isTokenCharacter
      let (front, suffix) := splitSuffix subtype
      let wellFormed :=
        match rest.dropWhile isTokenCharacter with
        | [] => true
        | ';' :: parameters => subtype != [] && parametersValid parameters
        | _ => false
      header.toList.all isVisible && type == "application".toList && wellFormed &&
        (front == "json".toList || suffix == some "json".toList)
  | _ => false

end FormRules.Service.MediaType
