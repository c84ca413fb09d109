import FormRules.Number.Magnitude

/-!
# Numbers

The binary64 numbers with their order and arithmetic. There is one value that is no number; every
other one has a place on the line of unit counts, where the infinities stand just beyond the
largest finite magnitudes. Comparison is the comparison of places.
-/

namespace FormRules

/-- A binary64 number. -/
inductive Number where
  /-- The result of an undefined operation. It has no place in the order. -/
  | nan
  /-- One of the two infinities. -/
  | infinite (negative : Bool)
  /-- A finite number. Zero has two signs. -/
  | finite (negative : Bool) (magnitude : Magnitude)
deriving DecidableEq

namespace Number

/-- The integer with the given sign and absolute value. -/
def signed (negative : Bool) (absolute : Nat) : Int :=
  if negative then -(absolute : Int) else absolute

/-- The place of a number on the line of unit counts. -/
def place? : Number → Option Int
  | nan => none
  | infinite negative => some (signed negative Magnitude.limit)
  | finite negative magnitude => some (signed negative magnitude.units)

/-- The order of two numbers, unless one has no place. -/
def order? (left right : Number) : Option Ordering :=
  match left.place?, right.place? with
  | some leftPlace, some rightPlace => some (compare leftPlace rightPlace)
  | _, _ => none

/-- Two numbers are the same value if they have the same place. -/
def same (left right : Number) : Bool :=
  left.order? right == some .eq

/-- The finite numbers. -/
def isFinite : Number → Bool
  | finite _ _ => true
  | _ => false

/-- Zero of either sign. -/
def isZero (number : Number) : Bool :=
  number.place? == some 0

/-- Positive zero. -/
def zero : Number := finite false .zero

/-- The number of the opposite sign. -/
def negate : Number → Number
  | nan => nan
  | infinite negative => infinite (!negative)
  | finite negative magnitude => finite (!negative) magnitude

/-- The number nearest to a signed quotient of unit counts. -/
def nearest (negative : Bool) (numerator denominator : Nat) : Number :=
  match Magnitude.nearest? numerator denominator with
  | some magnitude => finite negative magnitude
  | none => infinite negative

/-- The number nearest to an integer. -/
def ofInt (value : Int) : Number :=
  nearest (value < 0) (value.natAbs * Magnitude.unitsPerOne) 1

/-- The sum, rounded once. An exact zero is negative only if both terms are negative zeros. -/
def add : Number → Number → Number
  | nan, _ | _, nan => nan
  | infinite left, infinite right => if left = right then infinite left else nan
  | infinite left, finite _ _ => infinite left
  | finite _ _, infinite right => infinite right
  | finite left leftMagnitude, finite right rightMagnitude =>
      let sum := signed left leftMagnitude.units + signed right rightMagnitude.units
      if sum = 0 then finite (left && right) .zero else nearest (sum < 0) sum.natAbs 1

/-- The difference, rounded once. -/
def sub (left right : Number) : Number :=
  left.add right.negate

/-- The product, rounded once. -/
def mul : Number → Number → Number
  | nan, _ | _, nan => nan
  | infinite left, infinite right => infinite (left != right)
  | infinite left, finite right magnitude | finite left magnitude, infinite right =>
      if magnitude.units = 0 then nan else infinite (left != right)
  | finite left leftMagnitude, finite right rightMagnitude =>
      nearest (left != right) (leftMagnitude.units * rightMagnitude.units) Magnitude.unitsPerOne

/-- The quotient, rounded once. -/
def div : Number → Number → Number
  | nan, _ | _, nan => nan
  | infinite _, infinite _ => nan
  | infinite left, finite right _ => infinite (left != right)
  | finite left _, infinite right => finite (left != right) .zero
  | finite left leftMagnitude, finite right rightMagnitude =>
      if rightMagnitude.units = 0 then
        if leftMagnitude.units = 0 then nan else infinite (left != right)
      else
        nearest (left != right) (leftMagnitude.units * Magnitude.unitsPerOne) rightMagnitude.units

/-- The remainder of the quotient truncated toward zero; it is exact and has the dividend's sign. -/
def rem : Number → Number → Number
  | nan, _ | _, nan => nan
  | infinite _, _ => nan
  | finite left magnitude, infinite _ => finite left magnitude
  | finite left leftMagnitude, finite _ rightMagnitude =>
      if rightMagnitude.units = 0 then nan else finite left (leftMagnitude.mod rightMagnitude)

theorem isFinite_negate (number : Number) : number.negate.isFinite = number.isFinite := by
  cases number <;> rfl

end Number
end FormRules
