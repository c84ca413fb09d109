/-!
# Quoted texts

Inside quotes a backslash takes away the meaning of the enclosing quote and of a backslash; before
any other character it stands for itself. `escape` is the inverse that writes a text between double
quotes.
-/

namespace FormRules.Quoted

/-- The two characters that may enclose a text. -/
def isQuote (character : Char) : Bool :=
  character == '"' || character == '\''

/-- A quoted text behind its opening quote. -/
structure Reading where
  /-- The text without escapes. -/
  content : List Char
  /-- What was read, up to and with the closing quote. -/
  spelling : List Char
  /-- What follows the closing quote. -/
  rest : List Char

/-- Reads up to the first closing quote that is not escaped, if there is one. -/
def read? (quote : Char) : List Char → Option Reading
  | [] => none
  | '\\' :: [] => none
  | '\\' :: escaped :: text =>
      (read? quote text).map fun reading =>
        { reading with
          content :=
            if escaped = quote ∨ escaped = '\\' then escaped :: reading.content
            else '\\' :: escaped :: reading.content
          spelling := '\\' :: escaped :: reading.spelling }
  | head :: text =>
      if head = quote then some ⟨[], [head], text⟩
      else (read? quote text).map fun reading =>
        { reading with content := head :: reading.content, spelling := head :: reading.spelling }

/-- The content of a text between double quotes, with quotes and backslashes escaped. -/
def escape : List Char → List Char
  | [] => []
  | head :: text =>
      if head = '"' ∨ head = '\\' then '\\' :: head :: escape text else head :: escape text

/-- A text between double quotes. -/
def quote (text : List Char) : List Char :=
  '"' :: escape text ++ ['"']

/-- Reading loses nothing and always reads the closing quote. -/
theorem spelling_append_rest {quote : Char} {text : List Char} {reading : Reading}
    (read : read? quote text = some reading) :
    reading.spelling ++ reading.rest = text ∧ reading.spelling ≠ [] := by
  fun_induction read? quote text generalizing reading with
  | case1 => simp at read
  | case2 => simp at read
  | case3 escaped text ih =>
    obtain ⟨inner, inner_read, rfl⟩ := Option.map_eq_some_iff.1 read
    simp [(ih inner_read).1]
  | case4 text =>
    obtain rfl := Option.some.inj read
    simp
  | case5 head text _ _ _ ih =>
    obtain ⟨inner, inner_read, rfl⟩ := Option.map_eq_some_iff.1 read
    simp [(ih inner_read).1]

end FormRules.Quoted
