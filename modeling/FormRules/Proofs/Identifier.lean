import FormRules.Uuid

/-!
# The text of an identifier reads back

An identifier is written as 32 hexadecimal digits in hyphenated groups. Grouping digits and taking
the groups apart again are inverse to each other, and so are the two ways between a number and its
digits.
-/

namespace FormRules

namespace Text

theorem hexDigitValue?_digitChar {value : Nat} (small : value < 16) :
    hexDigitValue? value.digitChar = some value := by
  have all : ∀ value < 16, hexDigitValue? (Nat.digitChar value) = some value := by decide
  exact all value small

/-- The number that hexadecimal digits spell, if they are all digits. -/
def hexDigitsValue? (digits : List Char) : Option Nat :=
  (digits.mapM hexDigitValue?).map (List.foldl (fun number value => 16 * number + value) 0)

theorem hexDigitsValue?_concat {digits : List Char} {number value : Nat} {digit : Char}
    (spelled : hexDigitsValue? digits = some number) (read : hexDigitValue? digit = some value) :
    hexDigitsValue? (digits ++ [digit]) = some (16 * number + value) := by
  obtain ⟨values, digits_read, rfl⟩ := Option.map_eq_some_iff.1 spelled
  simp [hexDigitsValue?, List.mapM_append, digits_read, read]

theorem hexDigitsValue?_toDigits (number : Nat) :
    hexDigitsValue? (Nat.toDigits 16 number) = some number := by
  induction number using Nat.strongRecOn with
  | _ number induction =>
    by_cases small : number < 16
    · rw [Nat.toDigits_of_lt_base small]
      simp [hexDigitsValue?, hexDigitValue?_digitChar small]
    · have large : 16 ≤ number := Nat.le_of_not_lt small
      have quotient : number / 16 < number := Nat.div_lt_self (by omega) (by decide)
      have remainder : number % 16 < 16 := Nat.mod_lt _ (by decide)
      rw [Nat.toDigits_of_base_le (by decide) large,
        hexDigitsValue?_concat (induction _ quotient) (hexDigitValue?_digitChar remainder),
        Nat.div_add_mod]

theorem hexDigitsValue?_zeros_append {digits : List Char} {number : Nat} (count : Nat)
    (spelled : hexDigitsValue? digits = some number) :
    hexDigitsValue? (List.replicate count '0' ++ digits) = some number := by
  obtain ⟨values, digits_read, rfl⟩ := Option.map_eq_some_iff.1 spelled
  have zero : hexDigitValue? '0' = some 0 := rfl
  induction count with
  | zero => simp [hexDigitsValue?, digits_read]
  | succ count induction =>
      obtain ⟨zeros, zeros_read, same⟩ := Option.map_eq_some_iff.1 induction
      simp [hexDigitsValue?, List.replicate_succ, zero, zeros_read, same]

theorem toNat_le_of_hexDigitValue? {digit : Char} {value : Nat}
    (read : hexDigitValue? digit = some value) : digit.toNat ≤ 'f'.toNat := by
  unfold hexDigitValue? at read
  split at read
  case isTrue decimal => exact Nat.le_trans (Char.isDigit_iff_toNat.1 decimal).2 (by decide)
  case isFalse =>
    split at read
    case isTrue lower => exact UInt32.le_iff_toNat_le.1 lower.2
    case isFalse =>
      split at read
      case isTrue upper => exact Nat.le_trans (UInt32.le_iff_toNat_le.1 upper.2) (by decide)
      case isFalse => exact nomatch read

/-- No hexadecimal digit opens the name of the scheme of an identifier. -/
theorem toLower_ne_of_hexDigitValue? {digit : Char} {value : Nat}
    (read : hexDigitValue? digit = some value) : digit.toLower ≠ 'u' := by
  have all : ∀ code ≤ 'f'.toNat, hexDigitValue? (Char.ofNat code) ≠ none →
      (Char.ofNat code).toLower ≠ 'u' := by decide
  have apart := all digit.toNat (toNat_le_of_hexDigitValue? read)
  rw [Char.ofNat_toNat, read] at apart
  exact apart (by simp)

end Text

namespace Uuid

theorem ungroup?_group {lengths : List Nat} (nonempty : lengths ≠ []) {digits : List Char}
    (total : lengths.foldr (· + ·) 0 = digits.length) :
    ungroup? lengths (group lengths digits) = some digits := by
  induction lengths generalizing digits with
  | nil => contradiction
  | cons length lengths induction =>
      cases lengths with
      | nil =>
          rw [group, ungroup?, if_pos (by simpa using total.symm)]
      | cons next lengths =>
          rw [List.foldr_cons] at total
          have inside : length ≤ digits.length := by omega
          have taken : (digits.take length).length = length := List.length_take_of_le inside
          have rest : ungroup? (next :: lengths) (group (next :: lengths) (digits.drop length)) =
              some (digits.drop length) :=
            induction (by simp) (by rw [List.length_drop]; omega)
          have front (back : List Char) : (digits.take length ++ back).take length =
              digits.take length := by
            rw [List.take_append_of_le_length (Nat.le_of_eq taken.symm),
              List.take_of_length_le (Nat.le_of_eq taken)]
          have back (back : List Char) : (digits.take length ++ back).drop length = back :=
            List.drop_left' taken
          rw [group, ungroup?]
          · rw [back]
            change (ungroup? (next :: lengths) _).map _ = _
            rw [rest, front, Option.map_some, List.take_append_drop]
          all_goals simp

theorem ofHex?_of_hexDigitsValue? {digits : List Char} {number : Nat}
    (length : digits.length = 32) (spelled : Text.hexDigitsValue? digits = some number) :
    ofHex? digits = some ⟨BitVec.ofNat 128 number⟩ := by
  obtain ⟨values, read, rfl⟩ := Option.map_eq_some_iff.1 spelled
  rw [ofHex?, if_pos length, read]
  rfl

/-- An identifier is written as groups of its digits. -/
theorem exists_text_eq_group (id : Uuid) :
    ∃ digits, id.text = group groupLengths digits ∧ digits.length = 32 ∧
      Text.hexDigitsValue? digits = some id.bits.toNat := by
  have bounded : id.bits.toNat < 16 ^ 32 := id.bits.isLt
  have short : (Nat.toDigits 16 id.bits.toNat).length ≤ 32 :=
    (Nat.length_toDigits_le_iff (by decide) (by decide)).2 bounded
  refine ⟨_, rfl, ?_, ?_⟩
  · rw [List.length_append, List.length_replicate]
    omega
  · exact Text.hexDigitsValue?_zeros_append _ (Text.hexDigitsValue?_toDigits _)

/-- The text of an identifier denotes it. -/
theorem ofText?_text (id : Uuid) : ofText? id.text = some id := by
  obtain ⟨digits, text_eq, length, spelled⟩ := id.exists_text_eq_group
  have ungrouped : ofHyphenated? id.text = some id := by
    rw [text_eq, ofHyphenated?, ungroup?_group (by decide) (by rw [length]; rfl),
      Option.bind_some, ofHex?_of_hexDigitsValue? length spelled, BitVec.ofNat_toNat,
      BitVec.setWidth_eq]
  have text_length : id.text.length = 36 := by
    rw [text_eq]
    simp [group, groupLengths, length]
  have no_scheme : urnScheme.isPrefixOf (id.text.map Char.toLower) = false := by
    cases digits with
    | nil => exact absurd length (by decide)
    | cons head tail =>
        obtain ⟨values, read, -⟩ := Option.map_eq_some_iff.1 spelled
        rw [List.mapM_cons] at read
        obtain ⟨value, head_read, -⟩ := Option.bind_eq_some_iff.1 read
        have apart := Text.toLower_ne_of_hexDigitValue? head_read
        rw [text_eq]
        change ('u' == head.toLower && _) = false
        rw [Bool.and_eq_false_iff]
        exact .inl (beq_false_of_ne apart.symm)
  rw [ofText?, if_neg (by omega), if_neg (by omega), no_scheme, if_neg (by decide), ungrouped]

end Uuid
end FormRules
