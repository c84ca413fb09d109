import FormRules.Proofs.Calendar.Text
import FormRules.Proofs.Text.Bytes
import FormRules.Proofs.Value.Coherence

/-!
# Dates beside their texts

Digits of a fixed width are ordered as the numbers that they spell, so that among the dates whose
years have four digits the earlier one has the lesser text. Comparisons of such dates therefore come
out alike, whichever of the two is given as a date and whichever as its text.
-/

namespace FormRules

namespace Text

/-! ## The order of digits -/

theorem append_lt_append {left right : List Char} (before : left < right)
    (length_eq : left.length = right.length) (leftRest rightRest : List Char) :
    left ++ leftRest < right ++ rightRest := by
  induction before with
  | nil => simp at length_eq
  | rel before => exact .rel before
  | cons _ induction => exact .cons (induction (Nat.succ.inj length_eq))

theorem digitsValue_cons (digit : Char) (digits : List Char) :
    digitsValue (digit :: digits) =
      10 ^ digits.length * digitValue digit + digitsValue digits := by
  change Nat.ofDigitChars 10 (digit :: digits) 0 = _
  rw [Nat.ofDigitChars_cons, Nat.ofDigitChars_eq_ofDigitChars_zero, Nat.mul_zero, Nat.zero_add]
  rfl

theorem digitValue_le {digit : Char} (is_digit : digit.isDigit = true) : digitValue digit ≤ 9 := by
  have below : digit.toNat ≤ 57 := (Char.isDigit_iff_toNat.1 is_digit).2
  have zero : '0'.toNat = 48 := rfl
  rw [digitValue]
  omega

theorem digitValue_lt {left right : Char} (left_digit : left.isDigit = true)
    (before : left < right) : digitValue left < digitValue right := by
  have above : 48 ≤ left.toNat := (Char.isDigit_iff_toNat.1 left_digit).1
  have before : left.toNat < right.toNat := before
  have zero : '0'.toNat = 48 := rfl
  rw [digitValue, digitValue]
  omega

theorem digitsValue_cons_lt (digit : Char) {digits : List Char}
    (rest_lt : digitsValue digits < 10 ^ digits.length) :
    digitsValue (digit :: digits) < 10 ^ digits.length * (digitValue digit + 1) := by
  rw [digitsValue_cons, Nat.mul_succ]
  exact Nat.add_lt_add_left rest_lt _

theorem digitsValue_lt {digits : List Char}
    (all_digits : ∀ digit ∈ digits, digit.isDigit = true) :
    digitsValue digits < 10 ^ digits.length := by
  induction digits with
  | nil => decide
  | cons digit digits induction =>
      have value_le := digitValue_le (all_digits digit List.mem_cons_self)
      have rest_lt := induction fun other member => all_digits other (List.mem_cons_of_mem _ member)
      rw [List.length_cons, Nat.pow_succ]
      exact (digitsValue_cons_lt digit rest_lt).trans_le (Nat.mul_le_mul_left _ (by omega))

/-- Of two runs of digits of one length, the one that comes first spells the lesser number. -/
theorem digitsValue_lt_of_lt {left right : List Char} (before : left < right)
    (left_digits : ∀ digit ∈ left, digit.isDigit = true)
    (length_eq : left.length = right.length) : digitsValue left < digitsValue right := by
  induction before with
  | nil => simp at length_eq
  | @rel leftHead left rightHead right before =>
      have rest_lt := digitsValue_lt fun other member =>
        left_digits other (List.mem_cons_of_mem _ member)
      have head_lt := digitValue_lt (left_digits leftHead List.mem_cons_self) before
      calc
        digitsValue (leftHead :: left)
          < 10 ^ left.length * (digitValue leftHead + 1) := digitsValue_cons_lt leftHead rest_lt
        _ ≤ 10 ^ left.length * digitValue rightHead := Nat.mul_le_mul_left _ head_lt
        _ ≤ digitsValue (rightHead :: right) := by
          rw [digitsValue_cons, ← Nat.succ.inj length_eq]
          exact Nat.le_add_right _ _
  | @cons head left right _ induction =>
      have rest_lt := induction (fun other member =>
        left_digits other (List.mem_cons_of_mem _ member)) (Nat.succ.inj length_eq)
      rw [digitsValue_cons, digitsValue_cons, Nat.succ.inj length_eq]
      exact Nat.add_lt_add_left rest_lt _

/-- Numbers that are padded to one width are ordered as their digits. -/
theorem paddedDigits_lt {width left right : Nat} (positive : 0 < width) (less : left < right)
    (fits : right < 10 ^ width) : paddedDigits width left < paddedDigits width right := by
  have length_eq : (paddedDigits width right).length = (paddedDigits width left).length := by
    rw [length_paddedDigits positive fits, length_paddedDigits positive (less.trans fits)]
  refine Classical.byContradiction fun not_before => ?_
  rcases List.le_iff_lt_or_eq.1 (List.not_lt.1 not_before) with behind | same
  · have greater := digitsValue_lt_of_lt behind (fun _ => isDigit_of_mem_paddedDigits) length_eq
    rw [digitsValue_paddedDigits, digitsValue_paddedDigits] at greater
    omega
  · have equal := congrArg digitsValue same
    rw [digitsValue_paddedDigits, digitsValue_paddedDigits] at equal
    omega

theorem paddedDigits_append_lt {width left right : Nat} (positive : 0 < width) (less : left < right)
    (fits : right < 10 ^ width) (leftRest rightRest : List Char) :
    paddedDigits width left ++ leftRest < paddedDigits width right ++ rightRest := by
  refine append_lt_append (paddedDigits_lt positive less fits) ?_ leftRest rightRest
  rw [length_paddedDigits positive fits, length_paddedDigits positive (less.trans fits)]

theorem compare_ofList_eq_lt {left right : List Char} :
    compare (String.ofList left) (String.ofList right) = .lt ↔ left < right := by
  rw [compare_eq_lt_iff_toList, String.toList_ofList, String.toList_ofList]

end Text

namespace Date

open Text

/-! ## The order of the texts of dates -/

/-- A year that is written with four digits and without a sign. -/
def HasPlainYear (date : Date) : Prop :=
  0 ≤ date.year ∧ date.year ≤ 9999

instance (date : Date) : Decidable date.HasPlainYear :=
  inferInstanceAs (Decidable (_ ∧ _))

variable {left right : Date}

theorem text_of_plainYear (plain : left.HasPlainYear) :
    left.text = paddedDigits 4 left.year.natAbs ++
      ('-' :: (paddedDigits 2 left.month ++ '-' :: paddedDigits 2 left.day)) := by
  have yearText_eq : Calendar.yearText left.year = paddedDigits 4 left.year.natAbs := by
    rw [Calendar.yearText, if_neg (Int.not_lt.2 plain.1), if_pos plain.2]
  rw [text, Calendar.dateText, yearText_eq, List.append_assoc, List.cons_append]

theorem text_lt_text (left_plain : left.HasPlainYear) (right_plain : right.HasPlainYear)
    (before : left.order right = .lt) : left.text < right.text := by
  obtain ⟨left_from, left_to⟩ := left_plain
  obtain ⟨right_from, right_to⟩ := right_plain
  rw [text_of_plainYear ⟨left_from, left_to⟩, text_of_plainYear ⟨right_from, right_to⟩]
  simp only [order, Ordering.then_eq_lt, Int.compare_eq_lt, Nat.compare_eq_lt,
    Std.LawfulEqCmp.compare_eq_iff_eq] at before
  rcases before with year_lt | ⟨year_eq, month_lt | ⟨month_eq, day_lt⟩⟩
  · exact paddedDigits_append_lt (by decide) (by omega) (by omega) _ _
  · rw [year_eq]
    exact List.append_left_lt
      (.cons (paddedDigits_append_lt (by decide) month_lt right.month_lt _ _))
  · rw [year_eq, month_eq]
    exact List.append_left_lt (.cons (List.append_left_lt
      (.cons (paddedDigits_lt (by decide) day_lt right.day_lt))))

/-- Dates with plain years are ordered as their texts. -/
theorem compare_text (left_plain : left.HasPlainYear) (right_plain : right.HasPlainYear) :
    compare (String.ofList left.text) (String.ofList right.text) = left.order right := by
  cases ordered : left.order right with
  | lt => exact compare_ofList_eq_lt.2 (text_lt_text left_plain right_plain ordered)
  | eq =>
      rw [order_eq_iff.1 ordered]
      exact Std.ReflCmp.compare_self
  | gt =>
      have swapped : right.order left = .lt := by rw [← order_swap left right, ordered]; rfl
      have text_swap : compare (String.ofList left.text) (String.ofList right.text) =
          (compare (String.ofList right.text) (String.ofList left.text)).swap :=
        Std.OrientedCmp.eq_swap
      rw [text_swap, compare_ofList_eq_lt.2 (text_lt_text right_plain left_plain swapped)]
      rfl

end Date

namespace Value

/-! ## Comparing dates and their texts -/

/-- A value stands for a date: it is the date, or the text of it. -/
inductive StandsFor (date : Date) : Value → Prop where
  | date : StandsFor date (.date date)
  | text : StandsFor date (.text (Value.date date).display)

variable {left right : Date} {leftValue rightValue : Value}

theorem readDate?_display (date : Date) : readDate? (Value.date date).display = some date := by
  rw [readDate?, display, String.toList_ofList, Date.ofText?_text]

theorem order?_of_standsFor (left_plain : left.HasPlainYear) (right_plain : right.HasPlainYear)
    (left_stands : StandsFor left leftValue) (right_stands : StandsFor right rightValue) :
    leftValue.order? rightValue = some (left.order right) := by
  cases left_stands with
  | date =>
      cases right_stands with
      | date => rfl
      | text => rw [order?, readDate?_display, Option.map_some]
  | text =>
      cases right_stands with
      | date => rw [order?, readDate?_display, Option.map_some]
      | text => exact congrArg some (Date.compare_text left_plain right_plain)

end Value

namespace BinaryOp

/-- What a comparison says of two values in a given order. -/
def verdict : BinaryOp → Ordering → Bool
  | eq, ordering => ordering == .eq
  | notEq, ordering => ordering != .eq
  | lt, ordering => ordering == .lt
  | ltEq, ordering => ordering != .gt
  | gt, ordering => ordering == .gt
  | gtEq, ordering => ordering != .lt
  | _, _ => false

theorem apply_of_order? {op : BinaryOp} (compares : op.isArithmetic = false) {left right : Value}
    {ordering : Ordering} (ordered : left.order? right = some ordering) :
    op.apply left right = .ok (.boolean (op.verdict ordering)) := by
  have equal := Value.looselyEqual_of_order? ordered
  cases op with
  | add | sub | mul | div | mod => nomatch compares
  | eq => rw [apply, equal]; rfl
  | notEq => rw [apply, equal]; rfl
  | lt | ltEq | gt | gtEq => exact Value.ordered_of_order? _ _ ordered

/-- Two dates with plain years compare alike, whichever of them is given as a date and whichever as
its text: every comparison has the verdict that the order of the dates gives. -/
theorem apply_of_standsFor {left right : Date} (left_plain : left.HasPlainYear)
    (right_plain : right.HasPlainYear) {op : BinaryOp} (compares : op.isArithmetic = false)
    {leftValue rightValue : Value} (left_stands : Value.StandsFor left leftValue)
    (right_stands : Value.StandsFor right rightValue) :
    op.apply leftValue rightValue = .ok (.boolean (op.verdict (left.order right))) :=
  apply_of_order? compares
    (Value.order?_of_standsFor left_plain right_plain left_stands right_stands)

theorem apply_of_standsFor_deadline :
    BinaryOp.ltEq.apply (.text "0987-12-31") (.text "2024-03-09") = .ok (.boolean true) ∧
      BinaryOp.ltEq.apply (.text "0987-12-31") (.date ⟨2024, 3, 9, by decide⟩) =
        .ok (.boolean true) :=
  have start : Value.StandsFor ⟨987, 12, 31, by decide⟩ (.text "0987-12-31") := .text
  have deadline : Value.StandsFor ⟨2024, 3, 9, by decide⟩ (.text "2024-03-09") := .text
  ⟨apply_of_standsFor (by decide) (by decide) rfl start deadline,
    apply_of_standsFor (by decide) (by decide) rfl start .date⟩

end BinaryOp
end FormRules
