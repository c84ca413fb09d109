import FormRules.Json
import FormRules.Number.Shortest

/-!
# Writing JSON

Compact JSON text. A number that is not an integer has its shortest digits, the last of which is
even where two decimals are equally near: positional with at least one decimal for magnitudes from
`10 ^ (-5)` to `10 ^ 16`, and with an exponent beyond them.
-/

namespace FormRules

/-- Where the positional notation of JSON numbers ends: at this power of ten. -/
def Json.positionalBound : Int := 16

/-- Where the positional notation of JSON numbers begins: above this power of ten. -/
def Json.positionalStart : Int := -5

/-- How JSON numbers decide between equally near decimals. -/
def Json.numberTie : Decimal.Tie := .even

/-- The text of a decimal in a JSON document. -/
def Decimal.jsonText (decimal : Decimal) : List Char :=
  let digits := Text.decimalDigits decimal.digits
  let place := digits.length + decimal.exponent
  if Json.positionalStart < place ∧ place ≤ Json.positionalBound then
    if 0 ≤ decimal.exponent then decimal.positional ++ ['.', '0'] else decimal.positional
  else
    let fraction := digits.drop 1
    let exponent := place - 1
    digits.take 1 ++ (if fraction = [] then [] else '.' :: fraction) ++
      'e' :: (if exponent < 0 then ['-'] else []) ++ Text.decimalDigits exponent.natAbs

/-- The text of a finite number in a JSON document; there is none for other numbers, which are
written as null. -/
def Number.jsonText : Number → List Char
  | finite negative magnitude =>
      signText negative ++
        (if magnitude.units = 0 then ['0', '.', '0']
          else (Decimal.shortest Json.numberTie magnitude).jsonText)
  | _ => "null".toList

namespace Json

/-- Appends one character of a JSON string. -/
def writeCharacter (text : String) (character : Char) : String :=
  if character = '"' then text ++ "\\\""
  else if character = '\\' then text ++ "\\\\"
  else if character = '\n' then text ++ "\\n"
  else if character = '\r' then text ++ "\\r"
  else if character = '\t' then text ++ "\\t"
  else if character = '\x08' then text ++ "\\b"
  else if character = '\x0c' then text ++ "\\f"
  else if character.toNat < 0x20 then
    text ++ "\\u00" ++ String.ofList
      [Nat.digitChar (character.toNat / 16), Nat.digitChar (character.toNat % 16)]
  else text.push character

/-- Appends a JSON string. -/
def writeText (text content : String) : String :=
  (content.foldl writeCharacter (text.push '"')).push '"'

/-- Appends a number. -/
def writeNumber (text : String) : JsonNumber → String
  | .integer value => text ++ toString value
  | .decimal value => text ++ String.ofList value.jsonText

mutual

/-- Appends a value. -/
def write (text : String) : Json → String
  | null => text ++ "null"
  | boolean true => text ++ "true"
  | boolean false => text ++ "false"
  | number value => writeNumber text value
  | Json.text content => writeText text content
  | array items => (writeItems (text.push '[') true items).push ']'
  | object members => (writeMembers (text.push '\x7b') true members).push '\x7d'

/-- Appends the items of an array, with commas between them. -/
def writeItems (text : String) (first : Bool) : List Json → String
  | [] => text
  | item :: rest =>
      writeItems (write (if first then text else text.push ',') item) false rest

/-- Appends the members of an object, with commas between them. -/
def writeMembers (text : String) (first : Bool) : List (String × Json) → String
  | [] => text
  | (name, value) :: rest =>
      let named := writeText (if first then text else text.push ',') name
      writeMembers (write (named.push ':') value) false rest

end

/-- The compact text of a value. -/
def print (json : Json) : String :=
  write "" json

end Json
end FormRules
