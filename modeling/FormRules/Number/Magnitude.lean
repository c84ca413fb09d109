/-!
# Binary64 magnitudes

A finite binary64 magnitude is held as a whole count of the least positive one, `2 ^ (-1074)`, so
that order, exact sums and remainders are those of the naturals. Rounding a quotient to the
nearest magnitude, with ties to even, is the only inexact operation.
-/

namespace FormRules

-- Powers are those of core, also where another library brings its own.
attribute [instance (high), default_instance (high)] instPowNat

/-- The integer nearest to `numerator / denominator`, the even one of two equally near. -/
def roundDiv (numerator denominator : Nat) : Nat :=
  let quotient := numerator / denominator
  let twice := 2 * (numerator % denominator)
  if twice < denominator then quotient
  else if denominator < twice then quotient + 1
  else quotient + quotient % 2

theorem roundDiv_le (numerator denominator : Nat) :
    roundDiv numerator denominator ≤ numerator / denominator + 1 := by
  unfold roundDiv
  dsimp only
  split
  · omega
  · split <;> omega

namespace Magnitude

/-- The binary places of the least unit behind the point. -/
def unitPlaces : Nat := 1074

/-- The bits of the greatest count of units of a magnitude. -/
def limitBits : Nat := 2098

/-- How many least units make one. -/
def unitsPerOne : Nat := 2 ^ unitPlaces

/-- The count of units at which magnitudes stop being finite. -/
def limit : Nat := 2 ^ limitBits

theorem limit_pos : 0 < limit :=
  Nat.two_pow_pos limitBits

/-- The count has at most 53 significant bits. -/
def Fits (units : Nat) : Prop :=
  ∃ shift, 2 ^ shift ∣ units ∧ units ≤ 2 ^ 53 * 2 ^ shift

theorem fits_of_le {units : Nat} (small : units ≤ 2 ^ 53) : Fits units :=
  ⟨0, Nat.one_dvd units, by simpa using small⟩

/-- A remainder of two counts with 53 significant bits needs no more bits itself. -/
theorem fits_mod {units divisor : Nat} (fits : Fits units) (divisor_fits : Fits divisor) :
    Fits (units % divisor) := by
  rcases Nat.eq_zero_or_pos divisor with rfl | positive
  · simpa using fits
  obtain ⟨shift, divides, bound⟩ := fits
  obtain ⟨divisorShift, divisor_divides, divisor_bound⟩ := divisor_fits
  rcases Nat.le_total shift divisorShift with lower | lower
  · have divides_divisor : 2 ^ shift ∣ divisor :=
      Nat.dvd_trans (Nat.pow_dvd_pow 2 lower) divisor_divides
    exact ⟨shift, (Nat.dvd_mod_iff divides_divisor).2 divides,
      Nat.le_trans (Nat.mod_le units divisor) bound⟩
  · have divides_units : 2 ^ divisorShift ∣ units :=
      Nat.dvd_trans (Nat.pow_dvd_pow 2 lower) divides
    exact ⟨divisorShift, (Nat.dvd_mod_iff divisor_divides).2 divides_units,
      Nat.le_trans (Nat.le_of_lt (Nat.mod_lt units positive)) divisor_bound⟩

/-- How many low bits a count of this size gives up to keep 53. -/
def surplusBits (units : Nat) : Nat := units.log2 - 52

/-- The count with 53 significant bits nearest to `numerator / denominator`, ties to even. -/
def roundUnits (numerator denominator : Nat) : Nat :=
  let shift := surplusBits (numerator / denominator)
  roundDiv numerator (denominator * 2 ^ shift) * 2 ^ shift

theorem lt_of_surplusBits (units : Nat) : units < 2 ^ 53 * 2 ^ surplusBits units := by
  have upper : units < 2 ^ (units.log2 + 1) := Nat.lt_log2_self
  have exponents : 2 ^ (units.log2 + 1) ≤ 2 ^ (53 + surplusBits units) := by
    apply Nat.pow_le_pow_right (by omega)
    unfold surplusBits
    omega
  rw [← Nat.pow_add]
  exact Nat.lt_of_lt_of_le upper exponents

theorem fits_roundUnits (numerator denominator : Nat) :
    Fits (roundUnits numerator denominator) := by
  refine ⟨surplusBits (numerator / denominator), Nat.dvd_mul_left _ _, ?_⟩
  refine Nat.mul_le_mul_right _ ?_
  refine Nat.le_trans (roundDiv_le _ _) ?_
  rw [← Nat.div_div_eq_div_mul]
  have below := Nat.div_lt_of_lt_mul
    (Nat.mul_comm _ _ ▸ lt_of_surplusBits (numerator / denominator))
  omega

end Magnitude

/-- A finite binary64 magnitude, counted in units of `2 ^ (-1074)`. -/
structure Magnitude where
  /-- The count of least units. -/
  units : Nat
  /-- A binary64 significand has 53 bits. -/
  fits : Magnitude.Fits units
  /-- Larger values are infinite. -/
  finite : units < Magnitude.limit
deriving DecidableEq

namespace Magnitude

/-- The magnitude of zero. -/
def zero : Magnitude :=
  ⟨0, fits_of_le (Nat.zero_le _), limit_pos⟩

/-- The magnitude nearest to a quotient of unit counts, or nothing if that is no finite one. -/
def nearest? (numerator denominator : Nat) : Option Magnitude :=
  if finite : roundUnits numerator denominator < limit then
    some ⟨roundUnits numerator denominator, fits_roundUnits numerator denominator, finite⟩
  else none

/-- The remainder of one magnitude divided by another is exact. -/
def mod (magnitude divisor : Magnitude) : Magnitude :=
  ⟨magnitude.units % divisor.units, fits_mod magnitude.fits divisor.fits,
    Nat.lt_of_le_of_lt (Nat.mod_le _ _) magnitude.finite⟩

@[ext]
theorem ext {left right : Magnitude} (units_eq : left.units = right.units) : left = right := by
  cases left
  cases right
  simp_all

end Magnitude
end FormRules
