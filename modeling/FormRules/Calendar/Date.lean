import FormRules.Text.Reader

/-!
# Calendar dates

The dates of the Gregorian calendar, extended to all years of a wide range. The text of a date is
`year-month-day`; a year beyond four digits carries its sign. Reading is more liberal than
writing: blanks may stand before each number and leading zeros may be left out.
-/

namespace FormRules

namespace Calendar

/-- The leap years of the Gregorian calendar. -/
def isLeapYear (year : Int) : Bool :=
  year % 4 == 0 && (year % 100 != 0 || year % 400 == 0)

/-- The number of days of a month. -/
def monthLength (year : Int) : Nat → Nat
  | 2 => if isLeapYear year then 29 else 28
  | 4 | 6 | 9 | 11 => 30
  | _ => 31

/-- The first year that has dates. -/
def firstYear : Int := -262143

/-- The last year that has dates. -/
def lastYear : Int := 262142

/-- The year, month and day name a date. -/
def IsDate (year : Int) (month day : Nat) : Prop :=
  (firstYear ≤ year ∧ year ≤ lastYear) ∧ (1 ≤ month ∧ month ≤ 12) ∧
    (1 ≤ day ∧ day ≤ monthLength year month)

instance (year : Int) (month day : Nat) : Decidable (IsDate year month day) :=
  inferInstanceAs (Decidable (_ ∧ _ ∧ _))

/-- The text of a year: four digits, or a sign and at least four digits outside their range. -/
def yearText (year : Int) : List Char :=
  if year < 0 then '-' :: Text.paddedDigits 4 year.natAbs
  else if year ≤ 9999 then Text.paddedDigits 4 year.natAbs
  else '+' :: Text.paddedDigits 4 year.natAbs

/-- The text of a year, month and day. -/
def dateText (year : Int) (month day : Nat) : List Char :=
  yearText year ++ '-' :: Text.paddedDigits 2 month ++ '-' :: Text.paddedDigits 2 day

end Calendar

/-- A calendar date. -/
structure Date where
  /-- Years before the year 1 count down through zero. -/
  year : Int
  /-- From 1 to 12. -/
  month : Nat
  /-- From 1 to the length of the month. -/
  day : Nat
  /-- The parts name a date. -/
  isDate : Calendar.IsDate year month day
deriving DecidableEq

namespace Date

/-- The date with these parts, if there is one. -/
def ofParts? (year : Int) (month day : Nat) : Option Date :=
  if isDate : Calendar.IsDate year month day then some ⟨year, month, day, isDate⟩ else none

/-- Dates are ordered by year, month and day. -/
def order (left right : Date) : Ordering :=
  (compare left.year right.year).then
    ((compare left.month right.month).then (compare left.day right.day))

/-- The text of a date. -/
def text (date : Date) : List Char :=
  Calendar.dateText date.year date.month date.day

/-- Reads a year behind blanks: with a sign it may have any number of digits, without one at most
four. -/
def yearReader : Text.Reader Int := do
  Text.Reader.blanks
  match ← Text.Reader.optional fun head => head == '-' || head == '+' with
  | some sign =>
      let digits ← Text.Reader.digits
      return if sign = '-' then -(Text.digitsValue digits : Int) else Text.digitsValue digits
  | none =>
      let digits ← Text.Reader.digitsAtMost 4
      return Text.digitsValue digits

/-- Reads a part of one or two digits behind blanks. -/
def partReader : Text.Reader Nat := do
  Text.Reader.blanks
  let digits ← Text.Reader.digitsAtMost 2
  return Text.digitsValue digits

/-- Reads a date whose parts may lack their leading zeros. -/
def reader : Text.Reader Date := do
  let year ← yearReader
  Text.Reader.literal '-'
  let month ← partReader
  Text.Reader.literal '-'
  let day ← partReader
  Text.Reader.ofOption (ofParts? year month day)

@[ext]
theorem ext {left right : Date} (year_eq : left.year = right.year)
    (month_eq : left.month = right.month) (day_eq : left.day = right.day) : left = right := by
  cases left
  cases right
  simp_all

end Date
end FormRules
