import FormRules.Proofs.Value.Dates

/-!
# Values beside their canonical texts

The canonical text of a finite number or of a date is read back as that number or date, so that the
two compare as equal values do. The texts of the infinities and of the value that is no number are
not read as numbers; there equality falls back on comparing texts, and comes to the same verdict.
-/

namespace FormRules

namespace Decimal.Spells

variable {text : List Char} {decimal : Decimal}

theorem isBlank_of_mem (spells : Spells text decimal) {character : Char}
    (member : character ∈ text) : Text.isBlank character = false := by
  cases spells with
  | whole _ all_digits => exact Text.isBlank_of_isDigit (all_digits character member)
  | point _ _ whole_digits fraction_digits =>
      rcases List.mem_append.1 member with whole | behind
      · exact Text.isBlank_of_isDigit (whole_digits character whole)
      · rcases List.mem_cons.1 behind with rfl | fraction
        · decide
        · exact Text.isBlank_of_isDigit (fraction_digits character fraction)

/-- A plain numeral behind a sign has no blanks to be dropped. -/
theorem trim_signText_append (spells : Spells text decimal) (negative : Bool) :
    Text.trim (Number.signText negative ++ text) = Number.signText negative ++ text := by
  have solid : ∀ character ∈ Number.signText negative ++ text,
      Text.isBlank character = false := by
    intro character member
    rcases List.mem_append.1 member with sign | member
    · cases negative with
      | true => rw [List.mem_singleton.1 sign]; decide
      | false => nomatch sign
    · exact spells.isBlank_of_mem member
  exact Text.trim_eq_self (fun _ head => solid _ (List.mem_of_head? head))
    fun _ last => solid _ (List.mem_of_getLast? last)

end Decimal.Spells

namespace Number

theorem same_self {number : Number} (placed : number ≠ .nan) : number.same number = true := by
  cases number with
  | nan => exact absurd rfl placed
  | infinite | finite => simp [same, order?, place?]

end Number

namespace Value

/-! ## Reading a canonical text -/

/-- The canonical text of a finite number spells that number, the sign of a zero included. -/
theorem readNumber?_display (negative : Bool) (magnitude : Magnitude) :
    readNumber? (number (.finite negative magnitude)).display =
      some (.finite negative magnitude) := by
  obtain ⟨numeral, decimal, text_eq, spells, reads⟩ :=
    Number.exists_spells_text negative magnitude
  rw [readNumber?, display, String.toList_ofList, text_eq, spells.trim_signText_append negative,
    spells.ofNumeral?_signText negative, Decimal.toNumber_eq_finite reads negative]
  rfl

/-- The text of a number that is not finite spells no number that values could have. -/
theorem readNumber?_display_of_not_finite {value : Number} (not_finite : value.isFinite = false) :
    readNumber? (number value).display = none := by
  cases value with
  | nan => decide
  | infinite negative => cases negative <;> decide
  | finite => nomatch not_finite

/-! ## Equality and order -/

/-- A value and its canonical text are equal, whichever of them stands on the left. -/
def EqualsDisplay (value : Value) : Prop :=
  BinaryOp.eq.apply value (.text value.display) = .ok (.boolean true) ∧
    BinaryOp.eq.apply (.text value.display) value = .ok (.boolean true)

/-- Of a value and its canonical text neither comes first, whichever of them stands on the left. -/
def TiesDisplay (value : Value) : Prop :=
  ∀ op verdict, (op, verdict) ∈ [(BinaryOp.ltEq, true), (.gtEq, true), (.lt, false), (.gt, false)] →
    op.apply value (.text value.display) = .ok (.boolean verdict) ∧
      op.apply (.text value.display) value = .ok (.boolean verdict)

theorem equalsDisplay_of_looselyEqual {value : Value}
    (equal : value.looselyEqual (.text value.display) = true) : EqualsDisplay value := by
  refine ⟨by rw [BinaryOp.apply, equal], ?_⟩
  rw [BinaryOp.apply, looselyEqual_comm, equal]

theorem looselyEqual_display (value : Number) :
    (number value).looselyEqual (.text (number value).display) = true := by
  rw [looselyEqual, numberEqualsText]
  cases finite : value.isFinite with
  | false =>
      rw [readNumber?_display_of_not_finite finite]
      exact beq_self_eq_true _
  | true =>
      cases value with
      | nan | infinite => exact absurd finite Bool.false_ne_true
      | finite negative magnitude =>
          rw [readNumber?_display]
          exact Number.same_self (by simp)

/-- Values that tie with their canonical text equal it and are neither before nor behind it. -/
theorem tiesDisplay_of_order? {value : Value}
    (tie : value.order? (.text value.display) = some .eq) : TiesDisplay value := by
  have swapped : (Value.text value.display).order? value = some .eq := by
    rw [← order?_swap, tie]
    rfl
  intro op verdict member
  simp only [List.mem_cons, List.not_mem_nil, or_false, Prod.mk.injEq] at member
  rcases member with ⟨rfl, rfl⟩ | ⟨rfl, rfl⟩ | ⟨rfl, rfl⟩ | ⟨rfl, rfl⟩ <;>
    exact ⟨BinaryOp.apply_of_order? rfl tie, BinaryOp.apply_of_order? rfl swapped⟩

/-- Every number, be it finite or not, and every date equals its canonical text; and of a finite
number or a date and its canonical text neither comes first. -/
theorem equals_display :
    (∀ value : Number, EqualsDisplay (.number value)) ∧
      (∀ value : Date, EqualsDisplay (.date value)) ∧
      (∀ (negative : Bool) (magnitude : Magnitude),
        TiesDisplay (.number (.finite negative magnitude))) ∧
      ∀ value : Date, TiesDisplay (.date value) := by
  refine ⟨fun value => equalsDisplay_of_looselyEqual (looselyEqual_display value),
    fun value => equalsDisplay_of_looselyEqual ?_,
    fun negative magnitude => tiesDisplay_of_order? ?_, fun value => tiesDisplay_of_order? ?_⟩
  · rw [looselyEqual, dateEqualsText, readDate?_display]
    exact beq_self_eq_true _
  · rw [order?, readNumber?_display, Option.bind_some]
    exact congrArg some (Std.ReflCmp.compare_self)
  · rw [order?, readDate?_display, Option.map_some, Date.order_eq_iff.2 rfl]

/-- What is no number equals its own text, as all numbers do, though it does not equal itself. -/
example : BinaryOp.eq.apply (.number .nan) (.text "NaN") = .ok (.boolean true) := by decide

end Value
end FormRules
