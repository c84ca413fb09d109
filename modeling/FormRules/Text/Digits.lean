/-!
# Digits

Reading and writing runs of ASCII digits, decimal ones above all. `spanDigits` cuts a text behind
its leading digits, and `digitsValue` is the number that a run of digits spells in base ten.
-/

namespace FormRules.Text

/-- The number that one ASCII digit stands for. -/
def digitValue (digit : Char) : Nat :=
  digit.toNat - '0'.toNat

/-- The number that a run of ASCII digits spells, most significant digit first. -/
def digitsValue (digits : List Char) : Nat :=
  digits.foldl (fun value digit => 10 * value + digitValue digit) 0

/-- The number that one hexadecimal digit of either case stands for. -/
def hexDigitValue? (digit : Char) : Option Nat :=
  if digit.isDigit then some (digitValue digit)
  else if 'a' ≤ digit ∧ digit ≤ 'f' then some (digit.toNat - 'a'.toNat + 10)
  else if 'A' ≤ digit ∧ digit ≤ 'F' then some (digit.toNat - 'A'.toNat + 10)
  else none

/-- The leading digits of a text, and the text after them. -/
def spanDigits (text : List Char) : List Char × List Char :=
  (text.takeWhile Char.isDigit, text.dropWhile Char.isDigit)

/-- Up to `most` leading digits of a text, and the text after them. -/
def spanDigitsAtMost (most : Nat) (text : List Char) : List Char × List Char :=
  let digits := (text.take most).takeWhile Char.isDigit
  (digits, text.drop digits.length)

/-- The decimal digits of a number; zero is written `0`. -/
def decimalDigits (value : Nat) : List Char :=
  Nat.toDigits 10 value

/-- The decimal digits of a number with leading zeros up to the given width. -/
def paddedDigits (width value : Nat) : List Char :=
  let digits := decimalDigits value
  List.replicate (width - digits.length) '0' ++ digits

/-- An optional sign at the head of a text: whether it is a minus, and the text after it. -/
def readSign : List Char → Bool × List Char
  | '-' :: rest => (true, rest)
  | '+' :: rest => (false, rest)
  | text => (false, text)

theorem spanDigits_append (text : List Char) : (spanDigits text).1 ++ (spanDigits text).2 = text :=
  List.takeWhile_append_dropWhile

end FormRules.Text
