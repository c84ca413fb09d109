import FormRules.Proofs.Number.Rounding

/-!
# The nearest binary64 number

A quotient is rounded to that count of units with 53 significant bits which lies nearest to it, and
of two equally near to the one that ends in more zero bits. No other count is the nearest.
-/

namespace FormRules

/-- How far a count lies from a quotient, in parts of its denominator. -/
def gap (numerator denominator count : Nat) : Nat :=
  ((numerator : Int) - (count * denominator : Nat)).natAbs

section Division

variable (numerator : Nat) {denominator : Nat}

theorem gap_floor (denominator : Nat) :
    gap numerator denominator (numerator / denominator) = numerator % denominator := by
  have division := Nat.div_add_mod' numerator denominator
  unfold gap
  omega

theorem gap_ceiling (positive : 0 < denominator) :
    gap numerator denominator (numerator / denominator + 1) =
      denominator - numerator % denominator := by
  have division := Nat.div_add_mod' numerator denominator
  have remainder := Nat.mod_lt numerator positive
  rw [gap, Nat.succ_mul]
  omega

theorem le_gap_of_lt {count : Nat} (low : count < numerator / denominator) :
    denominator ≤ gap numerator denominator count := by
  obtain ⟨steps, quotient⟩ := Nat.exists_eq_add_of_lt low
  have division := Nat.div_add_mod' numerator denominator
  rw [quotient, Nat.succ_mul, Nat.add_mul] at division
  unfold gap
  omega

theorem le_gap_of_gt (positive : 0 < denominator) {count : Nat}
    (high : numerator / denominator + 1 < count) :
    denominator ≤ gap numerator denominator count := by
  obtain ⟨steps, rfl⟩ := Nat.exists_eq_add_of_lt high
  have division := Nat.div_add_mod' numerator denominator
  have remainder := Nat.mod_lt numerator positive
  rw [gap, Nat.succ_mul, Nat.add_mul, Nat.succ_mul]
  omega

/-- A quotient is rounded to its floor or to the number above, whichever is nearer. -/
theorem roundDiv_cases (denominator : Nat) :
    roundDiv numerator denominator = numerator / denominator ∧
        2 * (numerator % denominator) ≤ denominator ∧
        (2 * (numerator % denominator) = denominator → 2 ∣ numerator / denominator) ∨
      roundDiv numerator denominator = numerator / denominator + 1 ∧
        denominator ≤ 2 * (numerator % denominator) ∧
        (2 * (numerator % denominator) = denominator → 2 ∣ numerator / denominator + 1) := by
  unfold roundDiv
  dsimp only
  split
  · omega
  · split <;> omega

/-- No whole number is nearer to a quotient than the one that it is rounded to, and another that is
as near is odd while that one is even. -/
theorem gap_roundDiv (positive : 0 < denominator) (other : Nat) :
    gap numerator denominator (roundDiv numerator denominator) ≤
        gap numerator denominator other ∧
      (other ≠ roundDiv numerator denominator →
        gap numerator denominator (roundDiv numerator denominator) =
          gap numerator denominator other →
        2 ∣ roundDiv numerator denominator ∧ ¬ 2 ∣ other) := by
  have remainder := Nat.mod_lt numerator positive
  have floor := gap_floor numerator denominator
  have ceiling := gap_ceiling numerator positive
  have place : other = numerator / denominator ∨ other = numerator / denominator + 1 ∨
      denominator ≤ gap numerator denominator other := by
    rcases Nat.lt_trichotomy other (numerator / denominator) with below | same | above
    · exact .inr (.inr (le_gap_of_lt numerator below))
    · exact .inl same
    · rcases Nat.lt_or_eq_of_le (Nat.succ_le_of_lt above) with beyond | next
      · exact .inr (.inr (le_gap_of_gt numerator positive beyond))
      · exact .inr (.inl next.symm)
  rcases roundDiv_cases numerator denominator with ⟨rounded, near, even⟩ | ⟨rounded, near, even⟩ <;>
    rw [rounded]
  all_goals
    rcases place with rfl | rfl | far <;> omega

end Division

namespace Magnitude

/-- Of all counts with 53 significant bits none lies nearer to a quotient, and one that lies as
near ends in fewer zero bits. -/
structure Nearest (numerator denominator units : Nat) : Prop where
  fits : Fits units
  least (other : Nat) : Fits other →
    gap numerator denominator units ≤ gap numerator denominator other
  even (other : Nat) : Fits other → other ≠ units →
    gap numerator denominator units = gap numerator denominator other →
    ∃ bits, 2 ^ bits ∣ units ∧ ¬ 2 ^ bits ∣ other

variable {numerator denominator units other : Nat}

theorem Nearest.unique (nearest : Nearest numerator denominator units)
    (other_nearest : Nearest numerator denominator other) : units = other := by
  refine Decidable.by_contra fun different => ?_
  have same : gap numerator denominator units = gap numerator denominator other :=
    Nat.le_antisymm (nearest.least other other_nearest.fits)
      (other_nearest.least units nearest.fits)
  obtain ⟨bits, divides, not_divides⟩ :=
    nearest.even other other_nearest.fits (Ne.symm different) same
  obtain ⟨otherBits, other_divides, other_not_divides⟩ :=
    other_nearest.even units nearest.fits different same.symm
  rcases Nat.le_total bits otherBits with fewer | fewer
  · exact not_divides (Nat.dvd_trans (Nat.pow_dvd_pow 2 fewer) other_divides)
  · exact other_not_divides (Nat.dvd_trans (Nat.pow_dvd_pow 2 fewer) divides)

theorem gap_mul_two_pow (count bits : Nat) :
    gap numerator denominator (count * 2 ^ bits) =
      gap numerator (denominator * 2 ^ bits) count := by
  rw [gap, gap, Nat.mul_assoc, Nat.mul_comm (2 ^ bits)]

theorem two_pow_le_of_surplusBits {units : Nat} (surplus : 0 < surplusBits units) :
    2 ^ 52 * 2 ^ surplusBits units ≤ units := by
  unfold surplusBits at surplus ⊢
  rw [← Nat.pow_add, Nat.add_sub_cancel' (by omega)]
  exact Nat.log2_self_le (by rintro rfl; simp at surplus)

/-- A count with a bit that a quotient gives up lies below the counts that keep all the others. -/
theorem lt_of_not_dvd (fits : Fits other) (finer : ¬ 2 ^ surplusBits units ∣ other) :
    other < 2 ^ 52 * 2 ^ surplusBits units := by
  obtain ⟨shift, divides, bound⟩ := fits
  have fewer : shift < surplusBits units :=
    Nat.lt_of_not_le fun more => finer (Nat.dvd_trans (Nat.pow_dvd_pow 2 more) divides)
  have powers : 2 ^ 53 * 2 ^ shift ≤ 2 ^ 52 * 2 ^ surplusBits units := by
    rw [← Nat.pow_add, ← Nat.pow_add]
    exact Nat.pow_le_pow_right (by decide) (by omega)
  refine Nat.lt_of_le_of_ne (Nat.le_trans bound powers) ?_
  rintro rfl
  exact finer (Nat.dvd_mul_left _ _)

/-- Below a quotient, the lesser count is farther from it. -/
theorem gap_lt_gap {count : Nat} (positive : 0 < denominator) (less : other < count)
    (below : count ≤ numerator / denominator) :
    gap numerator denominator count < gap numerator denominator other := by
  have total : count * denominator ≤ numerator :=
    (Nat.le_div_iff_mul_le positive).1 below
  have scaled : other * denominator < count * denominator :=
    Nat.mul_lt_mul_of_pos_right less positive
  unfold gap
  omega

/-- The counts that end in as many zero bits are compared as whole numbers are. All other ones lie
below the size of the quotient, and are farther from it. -/
theorem gap_roundUnits (positive : 0 < denominator) (fits : Fits other) :
    gap numerator denominator (roundUnits numerator denominator) ≤
        gap numerator denominator other ∧
      (other ≠ roundUnits numerator denominator →
        gap numerator denominator (roundUnits numerator denominator) =
          gap numerator denominator other →
        ∃ bits, 2 ^ bits ∣ roundUnits numerator denominator ∧ ¬ 2 ^ bits ∣ other) := by
  unfold roundUnits
  dsimp only
  generalize shift_eq : surplusBits (numerator / denominator) = shift
  have positive_scaled : 0 < denominator * 2 ^ shift :=
    Nat.mul_pos positive (Nat.two_pow_pos shift)
  have rounded (count : Nat) := gap_roundDiv numerator positive_scaled count
  rw [gap_mul_two_pow]
  by_cases coarse : 2 ^ shift ∣ other
  · obtain ⟨count, rfl⟩ := coarse
    have last_bit (multiple : Nat) : 2 ^ (shift + 1) ∣ multiple * 2 ^ shift ↔ 2 ∣ multiple := by
      rw [Nat.pow_succ', Nat.mul_dvd_mul_iff_right (Nat.two_pow_pos shift)]
    rw [Nat.mul_comm _ count, gap_mul_two_pow]
    obtain ⟨least, even⟩ := rounded count
    refine ⟨least, fun different same => ?_⟩
    obtain ⟨even, odd⟩ := even (fun equal => different (by rw [equal])) same
    exact ⟨shift + 1, (last_bit _).2 even, mt (last_bit count).1 odd⟩
  · subst shift_eq
    have small := lt_of_not_dvd fits coarse
    have surplus : 0 < surplusBits (numerator / denominator) :=
      Nat.pos_of_ne_zero fun none => coarse (by rw [none]; exact Nat.one_dvd other)
    have farther := gap_lt_gap positive small (two_pow_le_of_surplusBits surplus)
    rw [gap_mul_two_pow] at farther
    have nearer := Nat.lt_of_le_of_lt (rounded (2 ^ 52)).1 farther
    exact ⟨Nat.le_of_lt nearer, fun _ same => absurd same (Nat.ne_of_lt nearer)⟩

/-- A quotient is rounded to the count that is nearest to it. -/
theorem nearest_roundUnits (numerator : Nat) (positive : 0 < denominator) :
    Nearest numerator denominator (roundUnits numerator denominator) where
  fits := fits_roundUnits numerator denominator
  least _ fits := (gap_roundUnits positive fits).1
  even _ fits := (gap_roundUnits positive fits).2

end Magnitude

namespace Number

/-- The number of a sign that is nearest to a quotient of unit counts. It is infinite if the nearest
count is beyond the finite ones. -/
inductive IsNearest (negative : Bool) (numerator denominator : Nat) : Number → Prop where
  | finite (magnitude : Magnitude)
      (nearest : Magnitude.Nearest numerator denominator magnitude.units) :
      IsNearest negative numerator denominator (.finite negative magnitude)
  | infinite (units : Nat) (nearest : Magnitude.Nearest numerator denominator units)
      (large : Magnitude.limit ≤ units) :
      IsNearest negative numerator denominator (.infinite negative)

variable {negative : Bool} {numerator denominator : Nat}

theorem IsNearest.unique {number other : Number}
    (nearest : IsNearest negative numerator denominator number)
    (other_nearest : IsNearest negative numerator denominator other) : number = other := by
  cases nearest with
  | finite magnitude nearest =>
      cases other_nearest with
      | finite other other_nearest =>
          exact congrArg _ (Magnitude.ext (nearest.unique other_nearest))
      | infinite units other_nearest large =>
          rw [← nearest.unique other_nearest] at large
          exact absurd magnitude.finite (Nat.not_lt_of_le large)
  | infinite units nearest large =>
      cases other_nearest with
      | finite magnitude other_nearest =>
          rw [nearest.unique other_nearest] at large
          exact absurd magnitude.finite (Nat.not_lt_of_le large)
      | infinite => rfl

theorem isNearest_nearest (positive : 0 < denominator) :
    IsNearest negative numerator denominator (nearest negative numerator denominator) := by
  have rounded := Magnitude.nearest_roundUnits numerator positive
  unfold nearest
  rcases Nat.lt_or_ge (Magnitude.roundUnits numerator denominator) Magnitude.limit with
    small | large
  · rw [Magnitude.nearest?_of_lt small]
    exact .finite _ rounded
  · rw [Magnitude.nearest?_of_le large]
    exact .infinite _ rounded large

theorem nearest_eq_iff (positive : 0 < denominator) {number : Number} :
    nearest negative numerator denominator = number ↔
      IsNearest negative numerator denominator number := by
  constructor
  · rintro rfl
    exact isNearest_nearest positive
  · exact (isNearest_nearest positive).unique

theorem ofInt_eq_iff {value : Int} {number : Number} :
    ofInt value = number ↔
      number.IsNearest (value < 0) (value.natAbs * Magnitude.unitsPerOne) 1 :=
  nearest_eq_iff Nat.one_pos

theorem nearest_of_roundUnits {magnitude : Magnitude}
    (rounds : Magnitude.roundUnits numerator denominator = magnitude.units) :
    nearest negative numerator denominator = .finite negative magnitude := by
  unfold nearest
  rw [Magnitude.nearest?_eq_some rounds]

theorem ofInt_of_roundUnits {value : Int} {magnitude : Magnitude}
    (rounds : Magnitude.roundUnits (value.natAbs * Magnitude.unitsPerOne) 1 = magnitude.units) :
    ofInt value = .finite (value < 0) magnitude :=
  nearest_of_roundUnits rounds

end Number
end FormRules
