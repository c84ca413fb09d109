import FormRules.Calendar.Stamp
import FormRules.Number

/-!
# Instants

A moment counted in seconds from the start of 1970, with the nanoseconds of its second; a leap
second counts as the second billion of the second before it. Instants are ordered by these two
counts. They are read from a time stamp that tolerates blanks and missing zeros, and written in
Coordinated Universal Time.
-/

namespace FormRules

namespace Calendar

/-- The days in the 400 years after which the calendar repeats. -/
def cycleDays : Int := 146097

/-- The number of days from the first of March of the year zero to the start of 1970. -/
def epochOffset : Int := 719468

/-- The number of days from the start of 1970 to a date. Years are taken to begin in March, so that
the leap day is the last of its year. -/
def dayNumber (year : Int) (month day : Nat) : Int :=
  let marchYear := if month ≤ 2 then year - 1 else year
  let marchMonth := (month + 9) % 12
  let dayOfYear := (153 * marchMonth + 2) / 5 + day - 1
  365 * marchYear + marchYear / 4 - marchYear / 100 + marchYear / 400 + dayOfYear - epochOffset

/-- The year, month and day of a day number. -/
def dayParts (number : Int) : Int × Nat × Nat :=
  let sinceMarch := number + epochOffset
  let cycle := sinceMarch / cycleDays
  let dayOfCycle := (sinceMarch % cycleDays).toNat
  let yearOfCycle :=
    (dayOfCycle - dayOfCycle / 1460 + dayOfCycle / 36524 - dayOfCycle / 146096) / 365
  let dayOfYear := dayOfCycle - (365 * yearOfCycle + yearOfCycle / 4 - yearOfCycle / 100)
  let marchMonth := (5 * dayOfYear + 2) / 153
  let day := dayOfYear - (153 * marchMonth + 2) / 5 + 1
  let month := if marchMonth < 10 then marchMonth + 3 else marchMonth - 9
  let year := yearOfCycle + cycle * 400
  (if month ≤ 2 then year + 1 else year, month, day)

/-- The seconds of a day. -/
def daySeconds : Int := 86400

/-- The nanoseconds of a second. -/
def secondNanoseconds : Nat := 1000000000

end Calendar

/-- A moment in time. -/
structure Instant where
  /-- Whole seconds since the start of 1970. -/
  second : Int
  /-- Nanoseconds into the second, a leap second being its second billion. -/
  nanosecond : Nat
deriving DecidableEq

namespace Instant

/-- Instants are ordered by their seconds and then by their nanoseconds. -/
def order (left right : Instant) : Ordering :=
  (compare left.second right.second).then (compare left.nanosecond right.nanosecond)

/-- The fraction of a second in the fewest of three, six or nine digits that hold it. -/
def fractionText (nanosecond : Nat) : List Char :=
  if nanosecond = 0 then []
  else if nanosecond % 1000000 = 0 then '.' :: Text.paddedDigits 3 (nanosecond / 1000000)
  else if nanosecond % 1000 = 0 then '.' :: Text.paddedDigits 6 (nanosecond / 1000)
  else '.' :: Text.paddedDigits 9 nanosecond

/-- The text of an instant in Coordinated Universal Time. -/
def text (instant : Instant) : List Char :=
  let (year, month, day) := Calendar.dayParts (instant.second / Calendar.daySeconds)
  let secondOfDay := (instant.second % Calendar.daySeconds).toNat
  let leap := Calendar.secondNanoseconds ≤ instant.nanosecond
  let second := secondOfDay % 60 + if leap then 1 else 0
  let nanosecond := instant.nanosecond % Calendar.secondNanoseconds
  Calendar.dateText year month day ++ 'T' :: Text.paddedDigits 2 (secondOfDay / 3600) ++
    ':' :: Text.paddedDigits 2 (secondOfDay / 60 % 60) ++
    ':' :: Text.paddedDigits 2 second ++ fractionText nanosecond ++ ['Z']

/-- Skips the mark between two parts, blanks before it included. -/
def skipMark (mark : Char) : Text.Reader Unit := do
  Text.Reader.blanks
  Text.Reader.literal mark

/-- Reads a part up to a greatest value. -/
def partReader (greatest : Nat) : Text.Reader Nat := do
  let value ← Date.partReader
  Text.Reader.require (value ≤ greatest)
  return value

/-- Reads a fraction of a second in nanoseconds; digits beyond the ninth are dropped. -/
def fractionReader : Text.Reader Nat := do
  match ← Text.Reader.optional (· == '.') with
  | none => return 0
  | some _ =>
      let digits ← Text.Reader.digits
      let kept := digits.take 9
      return Text.digitsValue (kept ++ List.replicate (9 - kept.length) '0')

/-- Reads the seconds by which the zone of a stamp runs ahead. The hours and minutes of an offset
may be parted by colons and blanks. -/
def offsetReader : Text.Reader Int := do
  let rest ← get
  if (rest.take 3).map Char.toLower = "utc".toList then
    set (rest.drop 3)
    return 0
  match ← Text.Reader.optional Calendar.isZuluMark with
  | some _ => return 0
  | none =>
      let sign ← Text.Reader.satisfying Calendar.isOffsetSign
      let hours ← Calendar.twoDigits 99
      discard (Text.Reader.run fun character => character == ':' || Text.isBlank character)
      let minutes ← Calendar.twoDigits 59
      let seconds := (hours * 3600 + minutes * 60 : Nat)
      Text.Reader.require (seconds < Calendar.daySeconds)
      return Number.signed (sign != '+') seconds

/-- Reads a time stamp whose parts may stand behind blanks and lack their leading zeros. -/
def reader : Text.Reader Instant := do
  let year ← Date.yearReader
  skipMark '-'
  let month ← Date.partReader
  skipMark '-'
  let day ← Date.partReader
  discard (Text.Reader.satisfying Calendar.isTimeMark)
  let hour ← partReader 23
  skipMark ':'
  let minute ← partReader 59
  skipMark ':'
  let second ← partReader 60
  let nanosecond ← fractionReader
  Text.Reader.blanks
  let offset ← offsetReader
  Text.Reader.blanks
  let date ← Text.Reader.ofOption (Date.ofParts? year month day)
  let days := Calendar.dayNumber date.year date.month date.day
  let leap := second == 60
  let secondOfDay := hour * 3600 + minute * 60 + if leap then 59 else second
  let instant := days * Calendar.daySeconds + secondOfDay - offset
  let (utcYear, _, _) := Calendar.dayParts (instant / Calendar.daySeconds)
  Text.Reader.require (Calendar.firstYear ≤ utcYear && utcYear ≤ Calendar.lastYear)
  return ⟨instant, nanosecond + if leap then Calendar.secondNanoseconds else 0⟩

/-- The instant that a time stamp denotes. -/
def ofText? (text : List Char) : Option Instant :=
  reader.all? text

end Instant
end FormRules
