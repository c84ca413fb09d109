import FormRules.Text.Digits

/-!
# Universally unique identifiers

A 128-bit identifier, ordered as a number. It is written as hyphenated groups of lower-case
hexadecimal digits, and read from that form in any case, bare, in braces or behind its URN scheme,
or from the digits alone.
-/

namespace FormRules

/-- A 128-bit identifier. -/
structure Uuid where
  /-- The bits, most significant first in the text. -/
  bits : BitVec 128
deriving DecidableEq

namespace Uuid

/-- Identifiers are ordered as numbers. -/
instance : Ord Uuid := ⟨compareOn fun id => id.bits.toNat⟩

instance : Std.TransOrd Uuid :=
  inferInstanceAs (Std.TransCmp (compareOn fun id : Uuid => id.bits.toNat))

instance : Std.LawfulEqOrd Uuid where
  eq_of_compare := by
    intro left right equal
    have numbers : left.bits.toNat = right.bits.toNat := Nat.compare_eq_eq.1 equal
    cases left
    cases right
    simpa [BitVec.toNat_inj] using numbers

/-- The identifier that 32 hexadecimal digits spell. -/
def ofHex? (digits : List Char) : Option Uuid :=
  if digits.length = 32 then
    (digits.mapM Text.hexDigitValue?).map fun values =>
      ⟨BitVec.ofNat 128 (values.foldl (fun number value => 16 * number + value) 0)⟩
  else none

/-- The lengths of the hyphenated groups. -/
def groupLengths : List Nat := [8, 4, 4, 4, 12]

/-- The digits of a hyphenated text, group by group. -/
def ungroup? : List Nat → List Char → Option (List Char)
  | [], [] => some []
  | [], _ :: _ => none
  | [length], text => if text.length = length then some text else none
  | length :: lengths, text =>
      match text.drop length with
      | '-' :: rest => (ungroup? lengths rest).map (text.take length ++ ·)
      | _ => none

/-- The identifier of a hyphenated text. -/
def ofHyphenated? (text : List Char) : Option Uuid :=
  (ungroup? groupLengths text).bind ofHex?

/-- The scheme that may stand before a hyphenated text, in lower case. -/
def urnScheme : List Char := "urn:uuid:".toList

/-- The identifier that a text denotes. -/
def ofText? (text : List Char) : Option Uuid :=
  if text.length = 32 then ofHex? text
  else if text.length = 38 ∧ text.head? = some '{' ∧ text.getLast? = some '}' then
    ofHyphenated? (text.drop 1).dropLast
  else if urnScheme.isPrefixOf (text.map Char.toLower) then
    ofHyphenated? (text.drop urnScheme.length)
  else ofHyphenated? text

/-- The digits in groups with hyphens between them. -/
def group : List Nat → List Char → List Char
  | [], digits => digits
  | [_], digits => digits
  | length :: lengths, digits => digits.take length ++ '-' :: group lengths (digits.drop length)

/-- The hyphenated text of an identifier. -/
def text (id : Uuid) : List Char :=
  let digits := Nat.toDigits 16 id.bits.toNat
  group groupLengths (List.replicate (32 - digits.length) '0' ++ digits)

end Uuid
end FormRules
