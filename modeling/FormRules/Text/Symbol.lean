/-!
# Symbols of texts in bytes

Bytes need not be a text in UTF-8. They are read as symbols: the characters that they spell, and
between them the bytes that belong to none.
-/

namespace FormRules.Text

/-- A character, or a byte that belongs to no character. -/
abbrev Symbol := Option Char

/-- The symbols of bytes from a place on, so many at most. -/
def symbolsWithin (bytes : ByteArray) : Nat → Nat → List Symbol
  | 0, _ => []
  | most + 1, place =>
      if place < bytes.size then
        match bytes.utf8DecodeChar? place with
        | some character => some character ::
            symbolsWithin bytes most (place + character.utf8Size)
        | none => none :: symbolsWithin bytes most (place + 1)
      else []

/-- The symbols of bytes. Every symbol takes a byte at least. -/
def symbols (bytes : ByteArray) : List Symbol :=
  symbolsWithin bytes bytes.size 0

/-- The leading characters of a class, and the symbols after them. -/
def spanSymbols (accepted : Char → Bool) : List Symbol → List Char × List Symbol
  | some head :: rest =>
      if accepted head then
        let (taken, after) := spanSymbols accepted rest
        (head :: taken, after)
      else ([], some head :: rest)
  | source => ([], source)

end FormRules.Text
