import Mathlib.Data.List.TakeWhile
import FormRules.Calendar.Stamp
import FormRules.Proofs.Lexer.Spelling

/-!
# The text of a date

The parts of a date are written with leading zeros to a fixed width, a year of more than four digits
and a negative one with their sign. The text of every date is read back as that date.
-/

namespace FormRules

namespace Text

/-! ## Digits of a fixed width -/

section Padded

variable {width value : Nat}

theorem digitsValue_paddedDigits (width value : Nat) :
    digitsValue (paddedDigits width value) = value := by
  rw [paddedDigits, digitsValue_zeros_append, digitsValue_decimalDigits]

theorem isDigit_of_mem_paddedDigits {digit : Char} (member : digit ∈ paddedDigits width value) :
    digit.isDigit = true := by
  rcases List.mem_append.1 member with zero | digit
  · exact isDigit_of_mem_zeros zero
  · exact isDigit_of_mem_decimalDigits digit

theorem exists_paddedDigits_eq (width value : Nat) :
    ∃ head tail, paddedDigits width value = head :: tail ∧ head.isDigit = true := by
  have nonempty : paddedDigits width value ≠ [] :=
    List.append_ne_nil_of_right_ne_nil _ Nat.toDigits_ne_nil
  obtain ⟨head, tail, padded_eq⟩ := List.exists_cons_of_ne_nil nonempty
  exact ⟨head, tail, padded_eq, isDigit_of_mem_paddedDigits (padded_eq ▸ List.mem_cons_self)⟩

theorem length_paddedDigits (positive : 0 < width) (fits : value < 10 ^ width) :
    (paddedDigits width value).length = width := by
  have length_le : (decimalDigits value).length ≤ width :=
    (Nat.length_toDigits_le_iff (by decide) positive).2 fits
  rw [paddedDigits, List.length_append, List.length_replicate]
  omega

end Padded

/-! ## Texts without blanks at an end -/

theorem isBlank_of_isDigit {character : Char} (digit : character.isDigit = true) :
    isBlank character = false := by
  have above : 48 ≤ character.toNat := (Char.isDigit_iff_toNat.1 digit).1
  have below : character.toNat ≤ 57 := (Char.isDigit_iff_toNat.1 digit).2
  exact isBlank_eq_false (by omega) (by omega)

theorem trimStart_eq_self {text : List Char} (starts : ∀ head ∈ text.head?, isBlank head = false) :
    trimStart text = text := by
  cases text with
  | nil => rfl
  | cons head tail => exact List.dropWhile_cons_of_neg (by simp [starts head rfl])

theorem trim_eq_self {text : List Char} (starts : ∀ head ∈ text.head?, isBlank head = false)
    (ends : ∀ last ∈ text.getLast?, isBlank last = false) : trim text = text := by
  rw [← List.head?_reverse] at ends
  rw [trim, trimStart_eq_self starts, trimStart_eq_self ends, List.reverse_reverse]

namespace Reader

/-! ## What readers take -/

/-- A reader goes on where the one before it has stopped. -/
theorem bind_of_eq {First Second : Type} {reader : Reader First} {text rest : List Char}
    {value : First} (taken : reader text = some (value, rest)) (next : First → Reader Second) :
    (reader >>= next) text = next value rest := by
  change (reader text).bind _ = _
  rw [taken]
  rfl

theorem all?_of_eq {Value : Type} {reader : Reader Value} {text : List Char} {value : Value}
    (taken : reader text = some (value, [])) : reader.all? text = some value := by
  simp only [all?, StateT.run, taken]

theorem blanks_of_solid {text : List Char} (solid : ∀ head ∈ text.head?, isBlank head = false) :
    blanks text = some ((), text) := by
  rw [blanks, trimStart_eq_self solid]

theorem optional_of_accepted {accepted : Char → Bool} {head : Char} (accepts : accepted head = true)
    (rest : List Char) : optional accepted (head :: rest) = some (some head, rest) :=
  if_pos accepts

theorem optional_of_refused {accepted : Char → Bool} {head : Char}
    (refuses : accepted head = false) (rest : List Char) :
    optional accepted (head :: rest) = some (none, head :: rest) :=
  if_neg (by simp [refuses])

theorem literal_cons (character : Char) (rest : List Char) :
    literal character (character :: rest) = some ((), rest) := by
  have taken : satisfying (· == character) (character :: rest) = some (character, rest) :=
    if_pos (beq_self_eq_true character)
  exact bind_of_eq taken fun _ => pure ()

theorem digits_append (run rest : List Char) (nonempty : run ≠ [])
    (all_digits : ∀ digit ∈ run, digit.isDigit = true)
    (ends : ∀ head ∈ rest.head?, head.isDigit = false) :
    digits (run ++ rest) = some (run, rest) := by
  rw [digits, spanDigits_append_of_digits rest all_digits ends]
  cases run with
  | nil => exact absurd rfl nonempty
  | cons => rfl

theorem digitsAtMost_append (run rest : List Char) (nonempty : run ≠ [])
    (all_digits : ∀ digit ∈ run, digit.isDigit = true) :
    digitsAtMost run.length (run ++ rest) = some (run, rest) := by
  have span : spanDigitsAtMost run.length (run ++ rest) = (run, rest) := by
    rw [spanDigitsAtMost, List.take_left, List.takeWhile_eq_self_iff.2 all_digits, List.drop_left]
  rw [digitsAtMost, span]
  cases run with
  | nil => exact absurd rfl nonempty
  | cons => rfl

end Reader
end Text

namespace Date

open Text Reader

section Year

variable (magnitude : Nat) (rest : List Char)

theorem yearReader_signed {sign : Char} (signs : sign = '-' ∨ sign = '+') :
    yearReader (sign :: (paddedDigits 4 magnitude ++ '-' :: rest)) =
      some (if sign = '-' then -(magnitude : Int) else magnitude, '-' :: rest) := by
  obtain ⟨head, tail, padded_eq, -⟩ := exists_paddedDigits_eq 4 magnitude
  have taken := digits_append (paddedDigits 4 magnitude) ('-' :: rest) (by simp [padded_eq])
    (fun _ => isDigit_of_mem_paddedDigits) (by simp)
  have solid : isBlank sign = false := by rcases signs with rfl | rfl <;> decide
  have accepts : (sign == '-' || sign == '+') = true := by rcases signs with rfl | rfl <;> decide
  rw [yearReader, bind_of_eq (blanks_of_solid (by simpa using solid)),
    bind_of_eq (optional_of_accepted accepts _)]
  dsimp only
  rw [bind_of_eq taken, digitsValue_paddedDigits]
  rfl

theorem yearReader_unsigned (fits : magnitude < 10000) :
    yearReader (paddedDigits 4 magnitude ++ '-' :: rest) =
      some ((magnitude : Int), '-' :: rest) := by
  obtain ⟨head, tail, padded_eq, digit⟩ := exists_paddedDigits_eq 4 magnitude
  have taken := digitsAtMost_append (paddedDigits 4 magnitude) ('-' :: rest)
    (by simp [padded_eq]) fun _ => isDigit_of_mem_paddedDigits
  rw [length_paddedDigits (by decide) fits] at taken
  have no_sign : (head == '-' || head == '+') = false := by
    rw [Bool.or_eq_false_iff, beq_eq_false_iff_ne, beq_eq_false_iff_ne]
    constructor <;> rintro rfl <;> exact absurd digit (by decide)
  rw [padded_eq] at taken ⊢
  rw [yearReader, bind_of_eq (blanks_of_solid (by simp [isBlank_of_isDigit digit])),
    List.cons_append, bind_of_eq (optional_of_refused no_sign _)]
  dsimp only
  rw [← List.cons_append, bind_of_eq taken, ← padded_eq, digitsValue_paddedDigits]
  rfl

/-- A year is read back with its sign. -/
theorem yearReader_yearText (year : Int) :
    yearReader (Calendar.yearText year ++ '-' :: rest) = some (year, '-' :: rest) := by
  unfold Calendar.yearText
  split
  case isTrue negative =>
    rw [List.cons_append, yearReader_signed _ rest (.inl rfl), if_pos rfl]
    congr 2
    omega
  case isFalse positive =>
    have magnitude_eq : (year.natAbs : Int) = year := by omega
    split
    case isTrue plain => rw [yearReader_unsigned _ rest (by omega), magnitude_eq]
    case isFalse =>
      rw [List.cons_append, yearReader_signed _ rest (.inr rfl), if_neg (by decide), magnitude_eq]

end Year

theorem partReader_paddedDigits {value : Nat} (fits : value < 100) (rest : List Char) :
    partReader (paddedDigits 2 value ++ rest) = some (value, rest) := by
  obtain ⟨head, tail, padded_eq, digit⟩ := exists_paddedDigits_eq 2 value
  have solid : ∀ head ∈ (paddedDigits 2 value ++ rest).head?, isBlank head = false := by
    simp [padded_eq, isBlank_of_isDigit digit]
  have taken := digitsAtMost_append (paddedDigits 2 value) rest (by simp [padded_eq])
    fun _ => isDigit_of_mem_paddedDigits
  rw [length_paddedDigits (by decide) fits] at taken
  rw [partReader, bind_of_eq (blanks_of_solid solid), bind_of_eq taken, digitsValue_paddedDigits]
  rfl

theorem ofParts?_self (date : Date) : ofParts? date.year date.month date.day = some date :=
  dif_pos date.isDate

theorem month_lt (date : Date) : date.month < 100 := by
  obtain ⟨-, ⟨-, month_le⟩, -⟩ := date.isDate
  omega

theorem day_lt (date : Date) : date.day < 100 := by
  obtain ⟨-, -, -, day_le⟩ := date.isDate
  have month_le : Calendar.monthLength date.year date.month ≤ 31 := by
    unfold Calendar.monthLength
    split <;> (try split) <;> omega
  omega

theorem reader_text (date : Date) : reader date.text = some (date, []) := by
  have month_taken := partReader_paddedDigits date.month_lt ('-' :: paddedDigits 2 date.day)
  have day_taken := partReader_paddedDigits date.day_lt []
  rw [List.append_nil] at day_taken
  rw [text, Calendar.dateText, List.append_assoc, List.cons_append, reader,
    bind_of_eq (yearReader_yearText _ _), bind_of_eq (literal_cons _ _), bind_of_eq month_taken,
    bind_of_eq (literal_cons _ _), bind_of_eq day_taken, ofOption, ofParts?_self]
  rfl

/-- A date is written without blanks. -/
theorem isBlank_of_mem_text {date : Date} {character : Char} (member : character ∈ date.text) :
    isBlank character = false := by
  have solid {width value : Nat} (member : character ∈ paddedDigits width value) :
      isBlank character = false :=
    isBlank_of_isDigit (isDigit_of_mem_paddedDigits member)
  have solid_behind {sign : Char} (signs : isBlank sign = false) {width value : Nat}
      (member : character ∈ sign :: paddedDigits width value) : isBlank character = false := by
    rcases List.mem_cons.1 member with rfl | member
    · exact signs
    · exact solid member
  rcases List.mem_append.1 member with member | day
  · rcases List.mem_append.1 member with year | month
    · unfold Calendar.yearText at year
      split at year
      · exact solid_behind (by decide) year
      · split at year
        · exact solid year
        · exact solid_behind (by decide) year
    · exact solid_behind (by decide) month
  · exact solid_behind (by decide) day

/-- The text of any date denotes that date. -/
theorem ofText?_text (date : Date) : ofText? date.text = some date := by
  have trimmed : trim date.text = date.text :=
    trim_eq_self (fun _ head => isBlank_of_mem_text (List.mem_of_head? head))
      fun _ last => isBlank_of_mem_text (List.mem_of_getLast? last)
  rw [ofText?, trimmed, all?_of_eq date.reader_text]
  rfl

end Date
end FormRules
