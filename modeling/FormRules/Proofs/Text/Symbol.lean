import FormRules.Text.Symbol

/-!
# Texts as symbols

The bytes of a text are read as its characters, and no byte of them stands alone.
-/

namespace FormRules.Text

theorem size_utf8Encode_singleton (character : Char) :
    [character].utf8Encode.size = character.utf8Size := by
  rw [List.utf8Encode_singleton, List.size_toByteArray, String.length_utf8EncodeChar]

theorem utf8DecodeChar?_append_utf8Encode (front : ByteArray) (head : Char) (rest : List Char) :
    (front ++ (head :: rest).utf8Encode).utf8DecodeChar? front.size = some head := by
  rw [ByteArray.utf8DecodeChar?_eq_utf8DecodeChar?_extract,
    ByteArray.extract_append_eq_right rfl ByteArray.size_append,
    List.utf8DecodeChar?_utf8Encode_cons]

theorem symbolsWithin_append_utf8Encode (text : List Char) {most : Nat}
    (enough : text.utf8Encode.size ≤ most) (front : ByteArray) :
    symbolsWithin (front ++ text.utf8Encode) most front.size = text.map some := by
  induction text generalizing most front with
  | nil =>
      cases most <;> simp [symbolsWithin]
  | cons head rest induction =>
      have encoded : (head :: rest).utf8Encode.size = head.utf8Size + rest.utf8Encode.size := by
        rw [List.utf8Encode_cons, ByteArray.size_append, size_utf8Encode_singleton]
      have wide := head.utf8Size_pos
      obtain ⟨most, rfl⟩ : ∃ fewer, most = fewer + 1 := ⟨most - 1, by omega⟩
      have inside : front.size < (front ++ (head :: rest).utf8Encode).size := by
        rw [ByteArray.size_append]
        omega
      -- The bytes of the first character join those in front.
      have enough_rest : rest.utf8Encode.size ≤ most := by omega
      have next := induction enough_rest (front ++ [head].utf8Encode)
      rw [ByteArray.size_append, size_utf8Encode_singleton, ByteArray.append_assoc,
        ← List.utf8Encode_cons] at next
      rw [symbolsWithin, if_pos inside, utf8DecodeChar?_append_utf8Encode]
      exact congrArg (some head :: ·) next

/-- The symbols of the bytes of a text are its characters. -/
theorem symbols_toUTF8 (text : String) : symbols text.toUTF8 = text.toList.map some := by
  have bytes_eq : text.toUTF8 = ByteArray.empty ++ text.toList.utf8Encode := by
    rw [String.toUTF8_eq_toByteArray, String.utf8Encode_toList, ByteArray.empty_append]
  have same_size : text.toList.utf8Encode.size = text.toUTF8.size := by
    rw [String.utf8Encode_toList, String.toUTF8_eq_toByteArray]
  have enough := Nat.le_of_eq same_size
  rw [symbols, ← symbolsWithin_append_utf8Encode text.toList enough ByteArray.empty, ← bytes_eq]
  rfl

end FormRules.Text
