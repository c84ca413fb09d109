import FormRules.Json
import FormRules.Number.Decimal
import FormRules.Text.Reader
import FormRules.Text.Symbol

/-!
# The lexemes of JSON

A JSON text is split into its punctuation, words, numbers and strings. Some defects of a lexeme do
not stop the reading, because they matter only if its value is asked for: a number beyond the
largest binary64 number, and in a string an escape that names half of a surrogate pair or a byte
that belongs to no character. Any other defect is a fault, and nothing is read behind it.

A number without point and exponent is an integer if it fits 64 bits. Any other number is the
product or quotient of two binary64 numbers, the significand and a power of ten, each rounded; the
significand takes as many digits as fit 64 bits.
-/

namespace FormRules.Json

/-- The greatest significand, and the greatest integer. -/
def greatestNatural : Nat := 2 ^ 64 - 1

/-- The negated least integer. -/
def greatestNegated : Nat := 2 ^ 63

/-- Takes digits into a significand as long as it fits: the significand and the digits left out. -/
def takeDigits (significand : Nat) : List Char → Nat × List Char
  | [] => (significand, [])
  | digit :: rest =>
      let longer := 10 * significand + Text.digitValue digit
      if longer ≤ greatestNatural then takeDigits longer rest else (significand, digit :: rest)

/-- The greatest exponent of ten that has a binary64 number. -/
def greatestPower : Nat := 308

/-- The binary64 number nearest to a power of ten. -/
def powerOfTen (exponent : Nat) : Number :=
  Decimal.toNumber false ⟨1, exponent⟩

/-- Divides by a power of ten, in steps as large as binary64 powers of ten allow. -/
def divideByPower (number : Number) (exponent : Nat) : Number :=
  if number.isZero ∨ exponent ≤ greatestPower then number.div (powerOfTen exponent)
  else divideByPower (number.div (powerOfTen greatestPower)) (exponent - greatestPower)
termination_by exponent
decreasing_by simp only [greatestPower] at *; omega

/-- The number with a significand and an exponent of ten, unless it is too large. -/
def scale? (negative : Bool) (significand : Nat) (exponent : Int) : Option Number :=
  let whole := Number.ofInt significand
  let scaled :=
    if significand = 0 then whole
    else if exponent < 0 then divideByPower whole exponent.natAbs
    else if exponent ≤ greatestPower then whole.mul (powerOfTen exponent.toNat)
    else .infinite false
  if scaled.isFinite then some (if negative then scaled.negate else scaled) else none

/-- The number that the parts of a numeral denote, unless it is too large. -/
def numberOfParts? (negative : Bool) (whole fraction : List Char) (exponent : Option Int) :
    Option JsonNumber :=
  let (significand, beyond) := takeDigits 0 whole
  if fraction = [] ∧ exponent = none ∧ beyond = [] then
    if !negative then some (.integer significand)
    else if significand ≠ 0 ∧ significand ≤ greatestNegated then some (.integer (-significand))
    else some (.decimal (Number.ofInt significand).negate)
  else
    let (significand, leftOut) := takeDigits significand fraction
    let taken := fraction.length - leftOut.length
    let shift := exponent.getD 0 + beyond.length - taken
    (scale? negative significand shift).map .decimal

/-- A lexeme of a JSON text. -/
inductive Lexeme where
  | openArray
  | closeArray
  | openObject
  | closeObject
  | comma
  | colon
  | null
  | boolean (flag : Bool)
  /-- A number, which is missing if it is too large. -/
  | number (number : Option JsonNumber)
  /-- A string, which is missing if some part of it is no character. -/
  | text (content : Option String)
  /-- Something else. -/
  | fault

/-- The blanks between lexemes. -/
def isGap (symbol : Text.Symbol) : Bool :=
  symbol.any fun (character : Char) =>
    character == ' ' || character == '\n' || character == '\r' || character == '\t'

/-- Reads the exponent of a number, if it has one. -/
def exponentReader : Text.Reader (Option Int) := do
  match ← Text.Reader.optional fun head => head == 'e' || head == 'E' with
  | none => return none
  | some _ =>
      let sign ← Text.Reader.optional fun head => head == '-' || head == '+'
      let digits ← Text.Reader.digits
      return some (Number.signed (sign == some '-') (Text.digitsValue digits))

/-- Reads the fraction of a number, if it has one. -/
def fractionReader : Text.Reader (List Char) := do
  match ← Text.Reader.optional (· == '.') with
  | none => return []
  | some _ => Text.Reader.digits

/-- The characters of numbers. -/
def isNumberCharacter (character : Char) : Bool :=
  character.isDigit || ['+', '-', '.', 'e', 'E'].contains character

/-- Reads a number. A number of several digits does not start with zero. -/
def numberReader : Text.Reader Lexeme := do
  let sign ← Text.Reader.optional (· == '-')
  let whole ← Text.Reader.digits
  Text.Reader.require (whole.head? != some '0' || whole.length == 1)
  let fraction ← fractionReader
  let exponent ← exponentReader
  return .number (numberOfParts? sign.isSome whole fraction exponent)

/-- Reads the number at the head of a text. -/
def readNumber? (source : List Text.Symbol) : Option (Lexeme × List Text.Symbol) := do
  let (spelled, after) := Text.spanSymbols isNumberCharacter source
  let (lexeme, rest) ← numberReader spelled
  return (lexeme, rest.map some ++ after)

/-- The code unit of four hexadecimal digits. -/
def unitOf? (digits : List Char) : Option Nat := do
  let values ← digits.mapM Text.hexDigitValue?
  return values.foldl (fun value digit => 16 * value + digit) 0

/-- The code unit opens a surrogate pair. -/
def isHighSurrogate (unit : Nat) : Bool := 0xD800 ≤ unit && unit < 0xDC00

/-- The code unit closes a surrogate pair. -/
def isLowSurrogate (unit : Nat) : Bool := 0xDC00 ≤ unit && unit < 0xE000

/-- The character of a surrogate pair. -/
def pairCharacter (high low : Nat) : Char :=
  Char.ofNat (0x10000 + (high - 0xD800) * 0x400 + (low - 0xDC00))

/-- One element of a string. -/
inductive Element where
  /-- A character. -/
  | character (character : Char)
  /-- A code unit written as an escape. -/
  | escaped (unit : Nat)
  /-- A byte that belongs to no character. -/
  | stray

/-- The character that a one-letter escape stands for. -/
def shortEscape? : Char → Option Char
  | '"' => some '"'
  | '\\' => some '\\'
  | '/' => some '/'
  | 'b' => some '\x08'
  | 'f' => some '\x0c'
  | 'n' => some '\n'
  | 'r' => some '\r'
  | 't' => some '\t'
  | _ => none

/-- Reads the elements of a string behind its opening quote, up to the closing one. -/
def readElements? : List Text.Symbol → Option (List Element × List Text.Symbol)
  | [] => none
  | none :: rest => do
      let (elements, behind) ← readElements? rest
      return (.stray :: elements, behind)
  | some '"' :: rest => some ([], rest)
  | some '\\' :: some 'u' :: some a :: some b :: some c :: some d :: rest => do
      let unit ← unitOf? [a, b, c, d]
      let (elements, behind) ← readElements? rest
      return (.escaped unit :: elements, behind)
  | some '\\' :: some letter :: rest => do
      let character ← shortEscape? letter
      let (elements, behind) ← readElements? rest
      return (.character character :: elements, behind)
  | some head :: rest => do
      if head.toNat < 0x20 || head == '\\' then none
      else
        let (elements, behind) ← readElements? rest
        return (.character head :: elements, behind)

/-- The characters of a string, unless some part of it is none. -/
def joinElements? : List Element → Option (List Char)
  | [] => some []
  | .stray :: _ => none
  | .character head :: rest => (joinElements? rest).map (head :: ·)
  | .escaped high :: .escaped low :: rest =>
      if isHighSurrogate high then
        if isLowSurrogate low then (joinElements? rest).map (pairCharacter high low :: ·) else none
      else if isLowSurrogate high then none
      else (joinElements? (.escaped low :: rest)).map (Char.ofNat high :: ·)
  | .escaped unit :: rest =>
      if isHighSurrogate unit || isLowSurrogate unit then none
      else (joinElements? rest).map (Char.ofNat unit :: ·)

/-- Reads a given word. -/
def readWord? (word : String) (lexeme : Lexeme) (source : List Text.Symbol) :
    Option (Lexeme × List Text.Symbol) :=
  let letters := word.toList.map some
  if letters.isPrefixOf source then some (lexeme, source.drop letters.length) else none

/-- Reads the lexeme at the head of a text. -/
def Lexeme.read? (head : Char) (tail : List Text.Symbol) : Option (Lexeme × List Text.Symbol) :=
  match head with
  | '[' => some (.openArray, tail)
  | ']' => some (.closeArray, tail)
  | '\x7b' => some (.openObject, tail)
  | '\x7d' => some (.closeObject, tail)
  | ',' => some (.comma, tail)
  | ':' => some (.colon, tail)
  | 'n' => readWord? "ull" .null tail
  | 't' => readWord? "rue" (.boolean true) tail
  | 'f' => readWord? "alse" (.boolean false) tail
  | '"' =>
      (readElements? tail).map fun (elements, rest) =>
        (.text ((joinElements? elements).map String.ofList), rest)
  | _ => readNumber? (some head :: tail)

/-- The lexemes of a text, up to the first fault, so many at most. -/
def lexemesWithin : Nat → List Text.Symbol → List Lexeme
  | 0, _ => []
  | most + 1, source =>
      match source.dropWhile isGap with
      | [] => []
      | none :: _ => [.fault]
      | some head :: tail =>
          match Lexeme.read? head tail with
          | none => [.fault]
          | some (lexeme, rest) => lexeme :: lexemesWithin most rest

/-- The lexemes of a text, up to the first fault. Every lexeme takes a character, so that there are
at most as many as the text is long. -/
def lexemes (source : List Text.Symbol) : List Lexeme :=
  lexemesWithin (source.length + 1) source

end FormRules.Json
