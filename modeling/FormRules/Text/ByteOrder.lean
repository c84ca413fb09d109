/-!
# Byte order marks

The mark that may open the text of a file and belongs to its encoding, not to what it says.
-/

namespace FormRules.Text

/-- The mark of a byte order. -/
def byteOrderMark : Char := '\uFEFF'

/-- The text without one mark at its head. -/
def withoutByteOrderMark (text : List Char) : List Char :=
  if text.head? = some byteOrderMark then text.drop 1 else text

end FormRules.Text
