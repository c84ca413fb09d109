import FormRules.Text.Blank
import FormRules.Text.Digits

/-!
# Readers

A reader takes a value from the head of a text, or refuses. `Reader.all?` is the value of a text
that a reader takes to its end.
-/

namespace FormRules.Text

/-- Takes a value from the head of a text and leaves the rest, or refuses. -/
abbrev Reader (Value : Type) := StateT (List Char) Option Value

namespace Reader

/-- The value of a text that the reader takes whole. -/
def all? {Value : Type} (reader : Reader Value) (text : List Char) : Option Value :=
  match reader.run text with
  | some (value, []) => some value
  | _ => none

/-- Refuses. -/
def refuse {Value : Type} : Reader Value := fun _ => none

/-- The value of an option, if there is one. -/
def ofOption {Value : Type} (value? : Option Value) : Reader Value :=
  fun text => value?.map (·, text)

/-- Refuses unless the condition holds. -/
def require (condition : Bool) : Reader Unit :=
  fun text => if condition then some ((), text) else none

/-- One character of a class. -/
def satisfying (accepted : Char → Bool) : Reader Char
  | [] => none
  | head :: rest => if accepted head then some (head, rest) else none

/-- One given character. -/
def literal (expected : Char) : Reader Unit := do
  discard (satisfying (· == expected))

/-- The longest run of characters of a class, which may be empty. -/
def run (accepted : Char → Bool) : Reader (List Char) :=
  fun text => some (text.takeWhile accepted, text.dropWhile accepted)

/-- Any blanks. -/
def blanks : Reader Unit :=
  fun text => some ((), trimStart text)

/-- A character of a class, if one comes next. -/
def optional (accepted : Char → Bool) : Reader (Option Char)
  | [] => some (none, [])
  | head :: rest => if accepted head then some (some head, rest) else some (none, head :: rest)

/-- As many digits as there are, at least one. -/
def digits : Reader (List Char) :=
  fun text => match spanDigits text with
    | ([], _) => none
    | taken => some taken

/-- As many digits as there are up to a number of them, at least one. -/
def digitsAtMost (most : Nat) : Reader (List Char) :=
  fun text => match spanDigitsAtMost most text with
    | ([], _) => none
    | taken => some taken

/-- Exactly a number of digits. -/
def digitsExactly (count : Nat) : Reader (List Char) := do
  let taken ← digitsAtMost count
  require (taken.length == count)
  return taken

end Reader
end FormRules.Text
