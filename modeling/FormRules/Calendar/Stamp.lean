import FormRules.Calendar.Date

/-!
# Time stamps in texts

The strict time stamp of the Internet date format: full-width parts, a time of day and a zone
offset. A text that is such a stamp also serves as a date, namely as the local date of the stamp.
-/

namespace FormRules
namespace Calendar

/-- The signs that may open a zone offset. -/
def isOffsetSign (character : Char) : Bool :=
  character == '+' || character == '-' || character == '\u2212'

/-- The letters and the blank that may part the date from the time of day. -/
def isTimeMark (character : Char) : Bool :=
  character == 'T' || character == 't' || character == ' '

/-- The letters that stand for the zone without offset. -/
def isZuluMark (character : Char) : Bool :=
  character == 'Z' || character == 'z'

/-- Reads a number of exactly two digits up to a greatest one. -/
def twoDigits (greatest : Nat) : Text.Reader Nat := do
  let digits ← Text.Reader.digitsExactly 2
  Text.Reader.require (Text.digitsValue digits ≤ greatest)
  return Text.digitsValue digits

/-- Skips the fraction of a second, if there is one. -/
def skipFraction : Text.Reader Unit := do
  if (← Text.Reader.optional (· == '.')).isSome then
    discard Text.Reader.digits

/-- Skips a strict zone offset of less than a day. -/
def skipOffset : Text.Reader Unit := do
  if (← Text.Reader.optional isZuluMark).isNone then
    discard (Text.Reader.satisfying isOffsetSign)
    discard (twoDigits 23)
    Text.Reader.literal ':'
    discard (twoDigits 59)

/-- Reads a strict time stamp for its local date. -/
def stampReader : Text.Reader Date := do
  let year ← Text.Reader.digitsExactly 4
  Text.Reader.literal '-'
  let month ← twoDigits 12
  Text.Reader.literal '-'
  let day ← twoDigits 31
  discard (Text.Reader.satisfying isTimeMark)
  discard (twoDigits 23)
  Text.Reader.literal ':'
  discard (twoDigits 59)
  Text.Reader.literal ':'
  discard (twoDigits 60)
  skipFraction
  skipOffset
  Text.Reader.ofOption (Date.ofParts? (Text.digitsValue year) month day)

end Calendar

namespace Date

/-- The date that a text denotes: the text of a date, or else a strict time stamp. Blanks around it
are dropped. -/
def ofText? (text : List Char) : Option Date :=
  let trimmed := Text.trim text
  (reader.all? trimmed).orElse fun _ => Calendar.stampReader.all? trimmed

end Date
end FormRules
