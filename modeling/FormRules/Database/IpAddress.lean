import FormRules.Text.Digits

/-!
# Addresses of hosts

The texts of numeric host addresses: four decimal bytes with points between them, or up to eight
hexadecimal groups with colons between them, of which one run of zero groups may be left out.
-/

namespace FormRules.Database.IpAddress

/-- A byte in decimal digits without leading zeros. -/
def isByte (text : String) : Bool :=
  let digits := text.toList
  digits ≠ [] && digits.length ≤ 3 && digits.all Char.isDigit && Text.digitsValue digits < 256 &&
    (digits.length = 1 || digits.head? ≠ some '0')

/-- Four decimal bytes. -/
def isFourBytes (text : String) : Bool :=
  let bytes := text.splitOn "."
  bytes.length = 4 && bytes.all isByte

/-- A group of up to four hexadecimal digits. -/
def isGroup (text : String) : Bool :=
  let digits := text.toList
  digits ≠ [] && digits.length ≤ 4 && digits.all fun (digit : Char) =>
    (Text.hexDigitValue? digit).isSome

/-- The number of groups that texts stand for, of which the last one may be four bytes, which stand
for two groups. -/
def groupCount? : List String → Option Nat
  | [] => some 0
  | [last] => if isGroup last then some 1 else if isFourBytes last then some 2 else none
  | head :: rest => if isGroup head then (groupCount? rest).map (· + 1) else none

/-- The number of groups that a text with colons stands for; an empty text stands for none. -/
def groupsIn? (text : String) : Option Nat :=
  if text = "" then some 0 else groupCount? (text.splitOn ":")

/-- Eight groups, of which a run may be left out. -/
def isGroups (text : String) : Bool :=
  match text.splitOn "::" with
  | [whole] => groupsIn? whole == some 8
  | [before, after] =>
      !before.contains '.' &&
        match groupsIn? before, groupsIn? after with
        | some left, some right => left + right ≤ 7
        | _, _ => false
  | _ => false

/-- An address of either form. -/
def isAddress (text : String) : Bool :=
  isFourBytes text || isGroups text

end FormRules.Database.IpAddress
