import FormRules.Text.Width
import Mathlib.Data.List.Lex

/-!
# The order of bytes

Texts are compared character by character. Their bytes in UTF-8 have the same order: of two
characters the one with the lesser code point has the lesser bytes, at the first byte in which they
differ.
-/

namespace FormRules.Text

/-- The bytes of a text in UTF-8. -/
def bytes (text : String) : List UInt8 :=
  text.toUTF8.data.toList

theorem bytes_eq (text : String) : bytes text = text.toList.flatMap String.utf8EncodeChar := by
  rw [bytes, String.toUTF8_eq_toByteArray, ← String.utf8Encode_toList, List.utf8Encode,
    List.data_toByteArray]

/-! ## One character -/

/-- A byte that is no greater decides the order, unless it is the same. -/
theorem byte_cons_lt {left right : Nat} {leftRest rightRest : List UInt8} (fits : right < 256)
    (le : left ≤ right) (rest : left = right → leftRest < rightRest) :
    UInt8.ofNat left :: leftRest < UInt8.ofNat right :: rightRest := by
  rcases Nat.lt_or_eq_of_le le with less | same
  · refine .rel ?_
    rw [UInt8.lt_iff_toNat_lt, UInt8.toNat_ofNat_of_lt' fits,
      UInt8.toNat_ofNat_of_lt' (less.trans fits)]
    exact less
  · rw [same]
    exact .cons (rest same)

/-- The bytes of a lesser character are lesser, whatever follows. -/
theorem utf8EncodeChar_append_lt {left right : Char} (before : left < right)
    (leftRest rightRest : List UInt8) :
    String.utf8EncodeChar left ++ leftRest < String.utf8EncodeChar right ++ rightRest := by
  have less : left.val.toNat < right.val.toNat := UInt32.lt_iff_toNat_lt.1 before
  have valid : right.val.toNat < 0x110000 := by
    rcases right.valid with low | high <;> omega
  unfold String.utf8EncodeChar
  generalize left.val.toNat = leftCode at less ⊢
  generalize right.val.toNat = rightCode at less valid ⊢
  dsimp only
  repeat' split
  -- codes whose bytes all agree would be the same
  all_goals
    repeat refine byte_cons_lt (by omega) (by omega) fun _ => ?_
    omega

/-! ## Texts -/

theorem flatMap_utf8EncodeChar_lt {left right : List Char} (before : left < right) :
    left.flatMap String.utf8EncodeChar < right.flatMap String.utf8EncodeChar := by
  induction before with
  | @nil head tail =>
      obtain ⟨first, rest, encoded⟩ := List.exists_cons_of_ne_nil
        (String.utf8EncodeChar_ne_nil (c := head))
      rw [List.flatMap_nil, List.flatMap_cons, encoded]
      exact .nil
  | rel before => exact utf8EncodeChar_append_lt before _ _
  | cons _ induction => exact List.append_left_lt induction

theorem compare_eq_lt_iff_toList {left right : String} :
    compare left right = .lt ↔ left.toList < right.toList := by
  change compareOfLessAndEq left right = .lt ↔ _
  rw [compareOfLessAndEq_eq_lt]
  rfl

/-- Texts are ordered as their bytes are. -/
theorem compare_eq_lt_iff {left right : String} :
    compare left right = .lt ↔ bytes left < bytes right := by
  rw [compare_eq_lt_iff_toList, bytes_eq, bytes_eq]
  refine ⟨flatMap_utf8EncodeChar_lt, fun before => ?_⟩
  refine Classical.byContradiction fun not_before => ?_
  rcases List.le_iff_lt_or_eq.1 (List.not_lt.1 not_before) with behind | same
  · exact List.lt_asymm before (flatMap_utf8EncodeChar_lt behind)
  · rw [same] at before
    exact List.lt_irrefl _ before

end FormRules.Text
