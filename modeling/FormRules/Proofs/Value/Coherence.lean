import FormRules.Expr.Evaluate

/-!
# The six comparisons are one order

Equality and order decide about pairs of values by separate rules, each with its own readings of
texts. They agree nevertheless: two values that can be ordered are equal exactly if neither comes
first, and values that are exchanged are ordered the other way round.
-/

namespace FormRules

namespace Number

variable (left right : Number)

/-- Numbers that are exchanged are ordered the other way round, or not at all as before. -/
theorem order?_swap : (left.order? right).map Ordering.swap = right.order? left := by
  unfold order?
  cases left.place? <;> cases right.place? <;> simp [Int.compare_swap]

theorem same_comm : left.same right = right.same left := by
  rw [same, same, ← order?_swap left right]
  cases left.order? right with
  | none => rfl
  | some ordering => cases ordering <;> rfl

variable {left right}

theorem same_of_order? {ordering : Ordering} (ordered : left.order? right = some ordering) :
    left.same right = (ordering == .eq) := by
  rw [same, ordered]
  cases ordering <;> rfl

theorem isSome_place? : left.place?.isSome = true ↔ left ≠ nan := by
  cases left <;> simp [place?]

/-- Two numbers have an order unless one is no number. -/
theorem isSome_order? : (left.order? right).isSome = true ↔ left ≠ nan ∧ right ≠ nan := by
  rw [← isSome_place?, ← isSome_place?, order?]
  cases left.place? <;> cases right.place? <;> simp

end Number

namespace Date

theorem order_swap (left right : Date) : (left.order right).swap = right.order left := by
  simp only [order, Ordering.swap_then, Int.compare_swap, Nat.compare_swap]

theorem order_eq_iff {left right : Date} : left.order right = .eq ↔ left = right := by
  simp only [order, Ordering.then_eq_eq, Std.LawfulEqCmp.compare_eq_iff_eq]
  constructor
  · rintro ⟨year_eq, month_eq, day_eq⟩
    exact Date.ext year_eq month_eq day_eq
  · rintro rfl
    exact ⟨rfl, rfl, rfl⟩

theorem beq_eq_order (left right : Date) : (left == right) = (left.order right == .eq) := by
  rw [Bool.eq_iff_iff, beq_iff_eq, beq_iff_eq, order_eq_iff]

end Date

namespace Value

/-- Two values can be ordered: both are of one kind that has an order, or one is a text that spells
a value of the kind of the other. -/
inductive Comparable : Value → Value → Prop where
  | numbers {left right : Number} (left_placed : left ≠ .nan) (right_placed : right ≠ .nan) :
      Comparable (.number left) (.number right)
  | texts (left right : String) : Comparable (.text left) (.text right)
  | dates (left right : Date) : Comparable (.date left) (.date right)
  | numberText {value spelled : Number} {content : String} (placed : value ≠ .nan)
      (spells : readNumber? content = some spelled) :
      Comparable (.number value) (.text content)
  | textNumber {value spelled : Number} {content : String} (placed : value ≠ .nan)
      (spells : readNumber? content = some spelled) :
      Comparable (.text content) (.number value)
  | dateText {spelled : Date} {content : String} (value : Date)
      (spells : readDate? content = some spelled) : Comparable (.date value) (.text content)
  | textDate {spelled : Date} {content : String} (value : Date)
      (spells : readDate? content = some spelled) : Comparable (.text content) (.date value)

/-- A number that is read from a text is one. -/
theorem ne_nan_of_readNumber? {content : String} {spelled : Number}
    (spells : readNumber? content = some spelled) : spelled ≠ .nan := by
  obtain ⟨-, finite⟩ := Option.filter_eq_some_iff.1 spells
  rintro rfl
  exact nomatch finite

/-! ## The order of two values -/

/-- Values that are exchanged are ordered the other way round, or not at all as before. -/
theorem order?_swap (left right : Value) :
    (left.order? right).map Ordering.swap = right.order? left := by
  cases left <;> cases right <;> try rfl
  case number.number left right => exact Number.order?_swap left right
  case number.text value content =>
    simp only [order?, Option.map_bind]
    exact Option.bind_congr fun spelled _ => Number.order?_swap value spelled
  case text.number content value =>
    simp only [order?, Option.map_bind]
    exact Option.bind_congr fun spelled _ => Number.order?_swap spelled value
  case text.text left right =>
    exact congrArg some Std.OrientedCmp.eq_swap.symm
  case text.date content value =>
    simp only [order?, Option.map_map]
    exact Option.map_congr fun spelled _ => Date.order_swap spelled value
  case date.text value content =>
    simp only [order?, Option.map_map]
    exact Option.map_congr fun spelled _ => Date.order_swap value spelled
  case date.date left right => exact congrArg some (Date.order_swap left right)

theorem isSome_order?_of_comparable {left right : Value} (comparable : Comparable left right) :
    (left.order? right).isSome = true := by
  cases comparable with
  | numbers left_placed right_placed => exact Number.isSome_order?.2 ⟨left_placed, right_placed⟩
  | texts | dates => rfl
  | numberText placed spells =>
      simp only [order?, spells, Option.bind_some]
      exact Number.isSome_order?.2 ⟨placed, ne_nan_of_readNumber? spells⟩
  | textNumber placed spells =>
      simp only [order?, spells, Option.bind_some]
      exact Number.isSome_order?.2 ⟨ne_nan_of_readNumber? spells, placed⟩
  | dateText value spells | textDate value spells => simp [order?, spells]

theorem comparable_of_order? {left right : Value} {ordering : Ordering}
    (ordered : left.order? right = some ordering) : Comparable left right := by
  fun_cases order? left right with
  | case1 left right =>
      obtain ⟨left_placed, right_placed⟩ :=
        Number.isSome_order?.1 (Option.isSome_of_eq_some ordered)
      exact .numbers left_placed right_placed
  | case2 left right => exact .texts left right
  | case3 left right => exact .dates left right
  | case4 value content =>
      obtain ⟨spelled, spells, -⟩ := Option.map_eq_some_iff.1 ordered
      exact .dateText value spells
  | case5 content value =>
      obtain ⟨spelled, spells, -⟩ := Option.map_eq_some_iff.1 ordered
      exact .textDate value spells
  | case6 value content =>
      obtain ⟨spelled, spells, ordered⟩ := Option.bind_eq_some_iff.1 ordered
      exact .numberText (Number.isSome_order?.1 (Option.isSome_of_eq_some ordered)).1 spells
  | case7 content value =>
      obtain ⟨spelled, spells, ordered⟩ := Option.bind_eq_some_iff.1 ordered
      exact .textNumber (Number.isSome_order?.1 (Option.isSome_of_eq_some ordered)).2 spells
  | case8 => simp_all [order?]

/-! ## Equality beside order -/

theorem looselyEqual_comm (left right : Value) :
    left.looselyEqual right = right.looselyEqual left := by
  cases left <;> cases right <;> try rfl
  case number.number left right => exact Number.same_comm left right
  case boolean.boolean | text.text | date.date => exact Bool.beq_comm

/-- Values that can be ordered are equal exactly if neither comes first. -/
theorem looselyEqual_of_order? {left right : Value} {ordering : Ordering}
    (ordered : left.order? right = some ordering) :
    left.looselyEqual right = (ordering == .eq) := by
  cases comparable_of_order? ordered with
  | numbers => exact Number.same_of_order? ordered
  | texts left right =>
      obtain rfl := Option.some.inj ordered
      change (left == right) = (compare left right == .eq)
      rw [Bool.eq_iff_iff, beq_iff_eq, beq_iff_eq, Std.LawfulEqCmp.compare_eq_iff_eq]
  | dates left right =>
      obtain rfl := Option.some.inj ordered
      exact Date.beq_eq_order left right
  | @numberText value spelled content placed spells =>
      simp only [order?, spells, Option.bind_some] at ordered
      simp only [looselyEqual, numberEqualsText, spells]
      exact Number.same_of_order? ordered
  | @textNumber value spelled content placed spells =>
      simp only [order?, spells, Option.bind_some] at ordered
      simp only [looselyEqual, numberEqualsText, spells]
      rw [Number.same_comm]
      exact Number.same_of_order? ordered
  | @dateText spelled content value spells =>
      simp only [order?, spells, Option.map_some, Option.some.injEq] at ordered
      simp only [looselyEqual, dateEqualsText, spells]
      rw [← ordered, ← Date.beq_eq_order, Bool.beq_comm]
      rfl
  | @textDate spelled content value spells =>
      simp only [order?, spells, Option.map_some, Option.some.injEq] at ordered
      simp only [looselyEqual, dateEqualsText, spells]
      rw [← ordered, ← Date.beq_eq_order]
      rfl

/-! ## The six verdicts -/

section Verdicts

variable {left right : Value} {ordering : Ordering}

theorem ordered_of_order? (op : BinaryOp) (holds : Ordering → Bool)
    (ordered : left.order? right = some ordering) :
    op.ordered holds left right = .ok (.boolean (holds ordering)) := by
  rw [BinaryOp.ordered, ordered]

theorem exists_ordered_eq_error_iff (op : BinaryOp) (holds : Ordering → Bool) :
    (∃ error, op.ordered holds left right = .error error) ↔ left.order? right = none := by
  unfold BinaryOp.ordered
  cases left.order? right <;> simp

/-- An operator has no verdict on two values. -/
def Refuses (op : BinaryOp) (left right : Value) : Prop :=
  ∃ error, op.apply left right = .error error

/-- The operators of order refuse the values that have none. -/
theorem refuses_iff {op : BinaryOp} (orders : op ∈ [BinaryOp.lt, .ltEq, .gt, .gtEq]) :
    Refuses op left right ↔ left.order? right = none := by
  simp only [List.mem_cons, List.not_mem_nil, or_false] at orders
  rcases orders with rfl | rfl | rfl | rfl <;> exact exists_ordered_eq_error_iff _ _

theorem refuses_iff_not_comparable {op : BinaryOp}
    (orders : op ∈ [BinaryOp.lt, .ltEq, .gt, .gtEq]) :
    Refuses op left right ↔ ¬Comparable left right := by
  rw [refuses_iff orders, ← Option.not_isSome_iff_eq_none]
  refine not_congr ⟨fun some => ?_, isSome_order?_of_comparable⟩
  obtain ⟨ordering, ordered⟩ := Option.isSome_iff_exists.1 some
  exact comparable_of_order? ordered

variable (left right)

/-- The six comparisons of two values are those of one order. -/
structure Coherent : Prop where
  /-- Equality always has a verdict, the same one from either side, and inequality has the opposite
  verdict. -/
  equality : ∃ equal, BinaryOp.eq.apply left right = .ok (.boolean equal) ∧
    BinaryOp.eq.apply right left = .ok (.boolean equal) ∧
    BinaryOp.notEq.apply left right = .ok (.boolean !equal)
  refusal : Refuses .lt left right ↔ ¬Comparable left right
  /-- The operators of order refuse the same values, from either side. -/
  refused_alike : ∀ op ∈ [BinaryOp.ltEq, .gt, .gtEq],
    Refuses .lt left right ↔ Refuses op left right
  refused_swapped : Refuses .lt left right ↔ Refuses .lt right left
  /-- Of two values that are not refused, the left one is before, equal to or behind the right one,
  and all verdicts say which. -/
  verdicts : ¬Refuses .lt left right → ∃ before equal behind,
    [before, equal, behind].count true = 1 ∧
    BinaryOp.lt.apply left right = .ok (.boolean before) ∧
    BinaryOp.eq.apply left right = .ok (.boolean equal) ∧
    BinaryOp.gt.apply left right = .ok (.boolean behind) ∧
    BinaryOp.ltEq.apply left right = .ok (.boolean (before || equal)) ∧
    BinaryOp.gtEq.apply left right = .ok (.boolean (behind || equal)) ∧
    BinaryOp.gt.apply right left = .ok (.boolean before)
  /-- Where there is an order, equality tells whether neither value comes first. -/
  agreement : ∀ ordering, left.order? right = some ordering →
    (left.looselyEqual right = true ↔ ordering = .eq)

variable {left right}

theorem verdicts_of_order? (ordered : left.order? right = some ordering) :
    ∃ before equal behind, [before, equal, behind].count true = 1 ∧
      BinaryOp.lt.apply left right = .ok (.boolean before) ∧
      BinaryOp.eq.apply left right = .ok (.boolean equal) ∧
      BinaryOp.gt.apply left right = .ok (.boolean behind) ∧
      BinaryOp.ltEq.apply left right = .ok (.boolean (before || equal)) ∧
      BinaryOp.gtEq.apply left right = .ok (.boolean (behind || equal)) ∧
      BinaryOp.gt.apply right left = .ok (.boolean before) := by
  have swapped : right.order? left = some ordering.swap := by
    rw [← order?_swap, ordered]
    rfl
  have equal := looselyEqual_of_order? ordered
  refine ⟨ordering == .lt, ordering == .eq, ordering == .gt, ?_, ordered_of_order? _ _ ordered,
    ?_, ordered_of_order? _ _ ordered, ?_, ?_, ?_⟩
  · cases ordering <;> rfl
  · rw [BinaryOp.apply, equal]
  · refine (ordered_of_order? _ _ ordered).trans ?_
    cases ordering <;> rfl
  · refine (ordered_of_order? _ _ ordered).trans ?_
    cases ordering <;> rfl
  · refine (ordered_of_order? _ _ swapped).trans ?_
    cases ordering <;> rfl

end Verdicts

/-- The six comparisons of any two values are those of one order: equality is symmetric and always
decided, the operators of order refuse the same values, and otherwise exactly one of less, equal
and greater holds, from which the other verdicts follow. -/
theorem comparisons_coherent (left right : Value) : Coherent left right where
  equality := by
    refine ⟨left.looselyEqual right, rfl, ?_, rfl⟩
    rw [BinaryOp.apply, looselyEqual_comm]
  refusal := refuses_iff_not_comparable (by simp)
  refused_alike op orders := by
    rw [refuses_iff (by simp), refuses_iff (List.mem_cons_of_mem _ orders)]
  refused_swapped := by
    rw [refuses_iff (by simp), refuses_iff (by simp), ← order?_swap left right,
      Option.map_eq_none_iff]
  verdicts accepted := by
    have some_order := mt (refuses_iff (by simp)).2 accepted
    obtain ⟨ordering, ordered⟩ := Option.ne_none_iff_exists'.1 some_order
    exact verdicts_of_order? ordered
  agreement ordering ordered := by
    rw [looselyEqual_of_order? ordered]
    cases ordering <;> decide

end Value
end FormRules
