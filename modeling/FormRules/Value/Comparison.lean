import FormRules.Value

/-!
# Comparing values

Equality is defined for all pairs of values, order only for pairs of one comparable kind and for a
text beside the number or date that it spells. A null equals nothing but a null.
-/

namespace FormRules.Value

/-- A number beside a text: by value if the text spells a number, by canonical text otherwise. -/
def numberEqualsText (value : Number) (content : String) : Bool :=
  match readNumber? content with
  | some spelled => value.same spelled
  | none => String.ofList value.text == content

/-- A date beside a text equals it if the text spells that date. -/
def dateEqualsText (value : Date) (content : String) : Bool :=
  readDate? content == some value

/-- Equality as the language counts it; values of other mixed kinds are unequal. -/
def looselyEqual : Value → Value → Bool
  | null, null => true
  | number left, number right => left.same right
  | number value, text content | text content, number value => numberEqualsText value content
  | text left, text right => left == right
  | boolean left, boolean right => left == right
  | date left, date right => left == right
  | date value, text content | text content, date value => dateEqualsText value content
  | _, _ => false

/-- The order of two values, unless they cannot be ordered. Two texts are ordered by code points
even if both spell numbers or dates. -/
def order? : Value → Value → Option Ordering
  | number left, number right => left.order? right
  | text left, text right => some (compare left right)
  | date left, date right => some (left.order right)
  | date left, text right => (readDate? right).map left.order
  | text left, date right => (readDate? left).map (·.order right)
  | number left, text right => (readNumber? right).bind left.order?
  | text left, number right => (readNumber? left).bind (·.order? right)
  | _, _ => none

end FormRules.Value
