import FormRules.Number
import FormRules.Text.Digits

/-!
# Decimal numerals

The number nearest to an integer times a power of ten, and the grammar of the numerals that denote
one: an optional sign, digits with at most one point among or beside them, and an optional decimal
exponent; the words for the infinities and for the undefined number are numerals too.
-/

namespace FormRules

/-- A decimal magnitude: an integer times a power of ten. -/
structure Decimal where
  /-- The integer factor. -/
  digits : Nat
  /-- The exponent of ten. -/
  exponent : Int
deriving DecidableEq

namespace Decimal

/-- Powers of ten of this size exceed every finite magnitude, and so do their inverses the least
one. -/
def exponentBound : Nat := 400

/-- The number of the given sign nearest to a decimal magnitude. An exponent so far out that the
outcome is settled is cut, so that no larger power of ten has to be formed. -/
def toNumber (negative : Bool) (decimal : Decimal) : Number :=
  if decimal.digits = 0 then Number.finite negative .zero
  else if 0 ≤ decimal.exponent then
    let power := 10 ^ min decimal.exponent.toNat exponentBound
    Number.nearest negative (decimal.digits * power * Magnitude.unitsPerOne) 1
  else
    let power := 10 ^ min decimal.exponent.natAbs (decimal.digits.log2 + exponentBound)
    Number.nearest negative (decimal.digits * Magnitude.unitsPerOne) power

/-- Reads the exponent part of a numeral, which may be missing. -/
def readExponent? : List Char → Option Int
  | [] => some 0
  | mark :: text =>
      if mark.toLower = 'e' then
        let (negative, digits) := Text.readSign text
        if digits ≠ [] ∧ digits.all Char.isDigit then
          some (Number.signed negative (Text.digitsValue digits))
        else none
      else none

/-- Reads an unsigned numeral made of digits. -/
def read? (text : List Char) : Option Decimal :=
  let (whole, afterWhole) := Text.spanDigits text
  let (fraction, afterFraction) :=
    match afterWhole with
    | '.' :: rest => Text.spanDigits rest
    | _ => ([], afterWhole)
  let digits := whole ++ fraction
  if digits = [] then none
  else (readExponent? afterFraction).map fun exponent =>
    ⟨Text.digitsValue digits, exponent - fraction.length⟩

end Decimal

namespace Number

/-- The words for an infinity, in lower case. -/
def infinityWords : List (List Char) :=
  ["inf".toList, "infinity".toList]

/-- The word for the undefined number, in lower case. -/
def nanWord : List Char := "nan".toList

/-- The number that a numeral denotes. -/
def ofNumeral? (text : List Char) : Option Number :=
  let (negative, unsigned) := Text.readSign text
  let word := unsigned.map Char.toLower
  if infinityWords.contains word then some (infinite negative)
  else if word = nanWord then some nan
  else (Decimal.read? unsigned).map (Decimal.toNumber negative)

end Number
end FormRules
