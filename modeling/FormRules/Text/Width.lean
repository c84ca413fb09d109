/-!
# Byte widths

The number of bytes that a text takes in UTF-8, in which positions and lengths of expressions are
counted.
-/

namespace FormRules.Text

/-- The number of bytes of a text in UTF-8. -/
def byteWidth (text : List Char) : Nat :=
  text.foldr (fun character width => character.utf8Size + width) 0

@[simp]
theorem byteWidth_cons (head : Char) (tail : List Char) :
    byteWidth (head :: tail) = head.utf8Size + byteWidth tail := rfl

theorem byteWidth_append (front back : List Char) :
    byteWidth (front ++ back) = byteWidth front + byteWidth back := by
  induction front with
  | nil => exact (Nat.zero_add _).symm
  | cons head front induction =>
      rw [List.cons_append, byteWidth_cons, byteWidth_cons, induction, Nat.add_assoc]

theorem byteWidth_pos {text : List Char} (nonempty : text ≠ []) : 0 < byteWidth text := by
  cases text with
  | nil => contradiction
  | cons head tail =>
      have positive := head.utf8Size_pos
      rw [byteWidth_cons]
      omega

end FormRules.Text
