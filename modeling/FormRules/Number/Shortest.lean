import FormRules.Number.Decimal

/-!
# The shortest decimal text of a number

A finite number is written with the fewest significant digits that read back as it; of two such
decimals the nearer one is taken, and where both are equally near, a rule of the format decides. The
canonical text is positional for every exponent, and takes the larger one of them. Every magnitude
has an exact decimal, which reads back whatever its length, so the search for a shorter one always
has an answer to fall back on.
-/

namespace FormRules
namespace Decimal

/-- The decimal with its trailing zeros moved into the exponent. -/
def withoutTrailingZeros (digits : Nat) (exponent : Int) : Decimal :=
  if digits ≠ 0 ∧ digits % 10 = 0 then withoutTrailingZeros (digits / 10) (exponent + 1)
  else ⟨digits, exponent⟩
termination_by digits
decreasing_by omega

/-- The exact decimal of a count of least units: the least unit is a power of five times a power of
ten. -/
def ofUnits (units : Nat) : Decimal :=
  ⟨units * 5 ^ Magnitude.unitPlaces, -(Magnitude.unitPlaces : Int)⟩

/-- A count of least units as a quotient in multiples of a power of ten. -/
def inPowersOfTen (units : Nat) (exponent : Int) : Nat × Nat :=
  if 0 ≤ exponent then (units, Magnitude.unitsPerOne * 10 ^ exponent.toNat)
  else (units * 10 ^ exponent.natAbs, Magnitude.unitsPerOne)

/-- The exponent of the least power of ten above a positive count of least units. -/
def pointPlace (units : Nat) : Int :=
  let scaled := units * 10 ^ exponentBound / Magnitude.unitsPerOne
  (Text.decimalDigits scaled).length - (exponentBound : Int)

/-- The decimal reads back as the positive number of this magnitude. -/
def readsBackAs (magnitude : Magnitude) (decimal : Decimal) : Bool :=
  decimal.toNumber false == .finite false magnitude

/-- Which of two decimals is taken that are equally near to a magnitude. -/
inductive Tie where
  | larger
  /-- The one whose last digit is even. -/
  | even
deriving DecidableEq

/-- Whether the lower one of two equally near decimals is taken, given its digits. -/
def Tie.takesLower (tie : Tie) (lowerDigits : Nat) : Bool :=
  tie == .even && lowerDigits % 2 == 0

/-- The better of the two decimals around a magnitude on one decimal grid, among those that read
back. -/
def onGrid? (tie : Tie) (magnitude : Magnitude) (exponent : Int) : Option Decimal :=
  let (numerator, denominator) := inPowersOfTen magnitude.units exponent
  let lower : Decimal := ⟨numerator / denominator, exponent⟩
  let upper : Decimal := ⟨numerator / denominator + 1, exponent⟩
  let twice := 2 * (numerator % denominator)
  let lowerFirst := twice < denominator || (twice == denominator && tie.takesLower lower.digits)
  let nearer := if lowerFirst then [lower, upper] else [upper, lower]
  nearer.find? (readsBackAs magnitude)

/-- The most significant digits that any binary64 magnitude needs to be read back. -/
def mostDigits : Nat := 17

/-- The shortest decimal that reads back as a magnitude. -/
def shortest (tie : Tie) (magnitude : Magnitude) : Decimal :=
  let place := pointPlace magnitude.units
  let found := (List.range mostDigits).findSome? fun (index : Nat) =>
    onGrid? tie magnitude (place - (index + 1))
  let decimal := found.getD (ofUnits magnitude.units)
  withoutTrailingZeros decimal.digits decimal.exponent

/-- The positional text of a decimal. -/
def positional (decimal : Decimal) : List Char :=
  let digits := Text.decimalDigits decimal.digits
  if 0 ≤ decimal.exponent then
    if decimal.digits = 0 then digits else digits ++ List.replicate decimal.exponent.toNat '0'
  else
    let places := decimal.exponent.natAbs
    let padded := List.replicate (places + 1 - digits.length) '0' ++ digits
    padded.take (padded.length - places) ++ '.' :: padded.drop (padded.length - places)

end Decimal

namespace Number

/-- How the canonical text decides between equally near decimals. -/
def textTie : Decimal.Tie := .larger

/-- The minus sign of a text of a negative number. -/
def signText (negative : Bool) : List Char :=
  if negative then ['-'] else []

/-- The canonical text of a number. -/
def text : Number → List Char
  | nan => "NaN".toList
  | infinite negative => signText negative ++ "inf".toList
  | finite negative magnitude =>
      signText negative ++
        (if magnitude.units = 0 then ['0'] else (Decimal.shortest textTie magnitude).positional)

end Number
end FormRules
