import FormRules.Proofs.Number.Rounding
import FormRules.Token.Lexer

/-!
# The text of a number reads back

The text of a finite number is an optional minus sign and a plain numeral: digits, with a point
among them at most. The numeral denotes the magnitude of the number, and it is cut off whole from a
longer text that goes on with neither a digit nor a point.
-/

namespace FormRules

namespace Text

theorem digitsValue_decimalDigits (value : Nat) : digitsValue (decimalDigits value) = value :=
  Nat.ofDigitChars_ten_toDigits

theorem digitsValue_append_zeros (digits : List Char) (count : Nat) :
    digitsValue (digits ++ List.replicate count '0') = digitsValue digits * 10 ^ count := by
  change Nat.ofDigitChars 10 _ 0 = Nat.ofDigitChars 10 _ 0 * _
  rw [Nat.ofDigitChars_append, Nat.ofDigitChars_replicate_zero, Nat.mul_comm]

theorem digitsValue_zeros_append (count : Nat) (digits : List Char) :
    digitsValue (List.replicate count '0' ++ digits) = digitsValue digits := by
  change Nat.ofDigitChars 10 _ 0 = Nat.ofDigitChars 10 _ 0
  rw [Nat.ofDigitChars_append, Nat.ofDigitChars_replicate_zero, Nat.mul_zero]

theorem isDigit_of_mem_decimalDigits {value : Nat} {digit : Char}
    (member : digit ∈ decimalDigits value) : digit.isDigit = true :=
  Nat.isDigit_of_mem_toDigits (by decide) (by decide) member

theorem isDigit_of_mem_zeros {count : Nat} {digit : Char}
    (member : digit ∈ List.replicate count '0') : digit.isDigit = true := by
  rw [(List.mem_replicate.1 member).2]
  rfl

theorem toLower_of_isDigit {character : Char} (digit : character.isDigit = true) :
    character.toLower = character := by
  unfold Char.toLower
  rw [dif_neg]
  rintro ⟨upper, -⟩
  have above : 65 ≤ character.toNat := UInt32.le_iff_toNat_le.1 upper
  have below : character.toNat ≤ 57 := (Char.isDigit_iff_toNat.1 digit).2
  omega

/-- A run of digits is cut off whole in front of anything else. -/
theorem spanDigits_append_of_digits {digits : List Char} (rest : List Char)
    (all_digits : ∀ digit ∈ digits, digit.isDigit = true)
    (ends : ∀ head ∈ rest.head?, head.isDigit = false) :
    spanDigits (digits ++ rest) = (digits, rest) := by
  have none : rest.takeWhile Char.isDigit = [] ∧ rest.dropWhile Char.isDigit = rest := by
    cases rest with
    | nil => exact ⟨rfl, rfl⟩
    | cons head tail =>
        have other := ends head rfl
        exact ⟨List.takeWhile_cons_of_neg (by simp [other]),
          List.dropWhile_cons_of_neg (by simp [other])⟩
  rw [spanDigits, List.takeWhile_append_of_pos all_digits, List.dropWhile_append_of_pos all_digits,
    none.1, none.2, List.append_nil]

end Text

namespace Decimal

/-- A text is a plain numeral of a decimal: digits, perhaps with a point among them. -/
inductive Spells : List Char → Decimal → Prop where
  | whole {digits : List Char} (nonempty : digits ≠ [])
      (all_digits : ∀ digit ∈ digits, digit.isDigit = true) :
      Spells digits ⟨Text.digitsValue digits, 0⟩
  | point {whole fraction : List Char} (whole_nonempty : whole ≠ [])
      (fraction_nonempty : fraction ≠ [])
      (whole_digits : ∀ digit ∈ whole, digit.isDigit = true)
      (fraction_digits : ∀ digit ∈ fraction, digit.isDigit = true) :
      Spells (whole ++ '.' :: fraction)
        ⟨Text.digitsValue (whole ++ fraction), -(fraction.length : Int)⟩

namespace Spells

variable {text : List Char} {decimal : Decimal}

theorem exists_head (spells : Spells text decimal) :
    ∃ head tail, text = head :: tail ∧ head.isDigit = true := by
  cases spells with
  | whole nonempty all_digits =>
      obtain ⟨head, tail, rfl⟩ := List.exists_cons_of_ne_nil nonempty
      exact ⟨head, tail, rfl, all_digits head List.mem_cons_self⟩
  | point nonempty _ all_digits _ =>
      obtain ⟨head, tail, rfl⟩ := List.exists_cons_of_ne_nil nonempty
      exact ⟨head, _, rfl, all_digits head List.mem_cons_self⟩

theorem read? (spells : Spells text decimal) : Decimal.read? text = some decimal := by
  cases spells with
  | @whole digits nonempty all_digits =>
      have split := Text.spanDigits_append_of_digits [] all_digits (by simp)
      rw [List.append_nil] at split
      unfold Decimal.read?
      simp only [split, List.append_nil, if_neg nonempty, readExponent?, Option.map_some,
        List.length_nil]
      rfl
  | @point whole fraction whole_nonempty fraction_nonempty whole_digits fraction_digits =>
      have split := Text.spanDigits_append_of_digits ('.' :: fraction) whole_digits (by simp)
      have fraction_split := Text.spanDigits_append_of_digits [] fraction_digits (by simp)
      rw [List.append_nil] at fraction_split
      have nonempty : whole ++ fraction ≠ [] := by simp [whole_nonempty]
      unfold Decimal.read?
      simp only [split, fraction_split, if_neg nonempty, readExponent?, Option.map_some,
        Int.zero_sub]

/-- A plain numeral behind a sign denotes the number of that sign nearest to its decimal. -/
theorem ofNumeral?_signText (spells : Spells text decimal) (negative : Bool) :
    Number.ofNumeral? (Number.signText negative ++ text) = some (decimal.toNumber negative) := by
  obtain ⟨head, tail, rfl, digit⟩ := spells.exists_head
  have lower : head.toLower = head := Text.toLower_of_isDigit digit
  have no_letter {letter : Char} (letters : letter.isDigit = false) : head ≠ letter := by
    rintro rfl
    exact absurd (letters.symm.trans digit) (by decide)
  have split : Text.readSign (Number.signText negative ++ head :: tail) =
      (negative, head :: tail) := by
    cases negative with
    | true => rfl
    | false =>
        change Text.readSign (head :: tail) = _
        unfold Text.readSign
        split <;> simp_all
  have no_infinity : Number.infinityWords.contains (head :: tail.map Char.toLower) = false := by
    simp [Number.infinityWords, @no_letter 'i' rfl]
  have no_nan : head :: tail.map Char.toLower ≠ Number.nanWord := by
    simp [Number.nanWord, @no_letter 'n' rfl]
  unfold Number.ofNumeral?
  simp only [split, List.map_cons, lower, no_infinity, Bool.false_eq_true, if_false,
    if_neg no_nan, spells.read?, Option.map_some]

/-- A plain numeral denotes the number nearest to its decimal. -/
theorem ofNumeral? (spells : Spells text decimal) :
    Number.ofNumeral? text = some (decimal.toNumber false) :=
  spells.ofNumeral?_signText false

/-- A plain numeral is cut off whole in front of a text that does not continue it. -/
theorem splitNumber (spells : Spells text decimal) {rest : List Char}
    (ends : ∀ head ∈ rest.head?, head.isDigit = false ∧ head ≠ '.') :
    Lexeme.splitNumber (text ++ rest) = .ok (text, rest) := by
  cases spells with
  | @whole digits nonempty all_digits =>
      have split := Text.spanDigits_append_of_digits rest all_digits fun head member =>
        (ends head member).1
      unfold Lexeme.splitNumber
      simp only [split]
      cases rest with
      | nil => rfl
      | cons head tail =>
          have other := (ends head rfl).2
          split
          · next same =>
              obtain ⟨rfl, -⟩ := List.cons.inj same
              exact absurd rfl other
          · rfl
  | @point whole fraction whole_nonempty fraction_nonempty whole_digits fraction_digits =>
      have split := Text.spanDigits_append_of_digits ('.' :: (fraction ++ rest)) whole_digits
        (by simp)
      have fraction_split := Text.spanDigits_append_of_digits rest fraction_digits
        fun head member => (ends head member).1
      unfold Lexeme.splitNumber
      rw [List.append_assoc, List.cons_append]
      simp only [split, fraction_split, if_neg fraction_nonempty]

end Spells

/-- The positional text of a decimal is a plain numeral of its number. -/
theorem exists_spells_positional {decimal : Decimal} (nonzero : decimal.digits ≠ 0) :
    ∃ spelled, Spells decimal.positional spelled ∧
      spelled.toNumber false = decimal.toNumber false := by
  obtain ⟨digits, exponent⟩ := decimal
  dsimp only at nonzero
  have digits_nonempty : Text.decimalDigits digits ≠ [] := Nat.toDigits_ne_nil
  unfold positional
  dsimp only
  by_cases sign : 0 ≤ exponent
  · obtain ⟨power, rfl⟩ := Int.eq_ofNat_of_zero_le sign
    rw [if_pos sign, if_neg nonzero, Int.toNat_natCast]
    have spells : Spells (Text.decimalDigits digits ++ List.replicate power '0') _ :=
      .whole (by simp [digits_nonempty]) fun digit member => by
        rcases List.mem_append.1 member with member | member
        · exact Text.isDigit_of_mem_decimalDigits member
        · exact Text.isDigit_of_mem_zeros member
    refine ⟨_, spells, ?_⟩
    rw [Text.digitsValue_append_zeros, Text.digitsValue_decimalDigits]
    have power_nonzero : 10 ^ power ≠ 0 := Nat.ne_of_gt (Nat.pow_pos (by decide))
    refine toNumber_congr false (Nat.mul_ne_zero nonzero power_nonzero) nonzero ?_
    change numerator ⟨_, ((0 : Nat) : Int)⟩ * _ = _ * denominator ⟨_, ((0 : Nat) : Int)⟩
    simp only [numerator_natCast, denominator_natCast, Nat.pow_zero, Nat.mul_one]
  · obtain ⟨places, rfl⟩ : ∃ places : Nat, exponent = -(places : Int) :=
      ⟨exponent.natAbs, by omega⟩
    rw [if_neg sign, Int.natAbs_neg, Int.natAbs_natCast]
    generalize padded_eq : List.replicate (places + 1 - (Text.decimalDigits digits).length) '0' ++
      Text.decimalDigits digits = padded
    have padded_digits : ∀ digit ∈ padded, digit.isDigit = true := by
      rw [← padded_eq]
      intro digit member
      rcases List.mem_append.1 member with member | member
      · exact Text.isDigit_of_mem_zeros member
      · exact Text.isDigit_of_mem_decimalDigits member
    have length_le : places + 1 ≤ padded.length := by
      rw [← padded_eq, List.length_append, List.length_replicate]
      omega
    have value_eq : Text.digitsValue padded = digits := by
      rw [← padded_eq, Text.digitsValue_zeros_append, Text.digitsValue_decimalDigits]
    have fraction_length : (padded.drop (padded.length - places)).length = places := by
      rw [List.length_drop]
      omega
    have spells := @Spells.point (padded.take (padded.length - places))
      (padded.drop (padded.length - places))
      (by rw [← List.length_pos_iff, List.length_take]; omega)
      (by rw [← List.length_pos_iff, fraction_length]; omega)
      (fun digit member => padded_digits digit (List.mem_of_mem_take member))
      (fun digit member => padded_digits digit (List.mem_of_mem_drop member))
    rw [List.take_append_drop, value_eq, fraction_length] at spells
    exact ⟨_, spells, rfl⟩

end Decimal

namespace Number

/-- The text of a finite number is a plain numeral of its magnitude behind the sign. -/
theorem exists_spells_text (negative : Bool) (magnitude : Magnitude) :
    ∃ numeral decimal, (finite negative magnitude).text = signText negative ++ numeral ∧
      Decimal.Spells numeral decimal ∧ decimal.toNumber false = finite false magnitude := by
  by_cases zero : magnitude.units = 0
  · have magnitude_eq : Magnitude.zero = magnitude := Magnitude.ext zero.symm
    refine ⟨['0'], ⟨0, 0⟩, ?_, .whole (by simp) (by simp), ?_⟩
    · rw [text, if_pos zero]
    · rw [← magnitude_eq]
      rfl
  · have reads := Decimal.toNumber_shortest textTie zero
    have nonzero : (Decimal.shortest textTie magnitude).digits ≠ 0 := by
      intro none
      rw [Decimal.toNumber, if_pos none] at reads
      exact zero (congrArg Magnitude.units (Number.finite.inj reads).2.symm)
    obtain ⟨decimal, spells, same⟩ := Decimal.exists_spells_positional nonzero
    exact ⟨_, decimal, by rw [text, if_neg zero], spells, same.trans reads⟩

end Number
end FormRules
