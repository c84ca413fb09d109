import FormRules.Number.Shortest

/-!
# Rounding a quotient

The number nearest to a quotient depends on the quotient alone, is exact where the quotient is a
magnitude, and is settled early for very large and very small ones. So a decimal is rounded as its
exact quotient is, and moving zeros between its digits and its exponent changes nothing.
-/

namespace FormRules

theorem roundDiv_mul_left {scale : Nat} (positive : 0 < scale) (numerator denominator : Nat) :
    roundDiv (scale * numerator) (scale * denominator) = roundDiv numerator denominator := by
  have twice_lt (left right : Nat) :
      2 * (scale * left) < scale * right ↔ 2 * left < right := by
    rw [Nat.mul_left_comm]
    exact Nat.mul_lt_mul_left positive
  have lt_twice (left right : Nat) :
      scale * left < 2 * (scale * right) ↔ left < 2 * right := by
    rw [Nat.mul_left_comm]
    exact Nat.mul_lt_mul_left positive
  simp only [roundDiv, Nat.mul_div_mul_left _ _ positive, Nat.mul_mod_mul_left, twice_lt,
    lt_twice]

theorem roundDiv_of_dvd {numerator denominator : Nat} (positive : 0 < denominator)
    (divides : denominator ∣ numerator) :
    roundDiv numerator denominator = numerator / denominator := by
  have remainder := Nat.mod_eq_zero_of_dvd divides
  rw [roundDiv, remainder]
  exact if_pos positive

theorem div_le_roundDiv (numerator denominator : Nat) :
    numerator / denominator ≤ roundDiv numerator denominator := by
  unfold roundDiv
  dsimp only
  split
  · exact Nat.le_refl _
  · split <;> omega

namespace Magnitude

theorem roundUnits_mul_left {scale : Nat} (positive : 0 < scale) (numerator denominator : Nat) :
    roundUnits (scale * numerator) (scale * denominator) = roundUnits numerator denominator := by
  simp only [roundUnits, Nat.mul_div_mul_left _ _ positive, Nat.mul_assoc,
    roundDiv_mul_left positive]

/-- The bits that a magnitude gives up are zero already. -/
theorem two_pow_surplusBits_dvd {units : Nat} (fits : Fits units) :
    2 ^ surplusBits units ∣ units := by
  obtain ⟨shift, divides, bound⟩ := fits
  rcases Nat.eq_zero_or_pos units with rfl | positive
  · exact Nat.dvd_zero _
  · rw [← Nat.pow_add] at bound
    rcases Nat.lt_or_eq_of_le bound with below | top
    · refine Nat.dvd_trans (Nat.pow_dvd_pow 2 ?_) divides
      have bits := (Nat.log2_lt (Nat.ne_of_gt positive)).2 below
      unfold surplusBits
      omega
    · rw [top, surplusBits, Nat.log2_two_pow]
      exact Nat.pow_dvd_pow 2 (Nat.sub_le _ _)

theorem roundUnits_one {units : Nat} (fits : Fits units) : roundUnits units 1 = units := by
  have divides := two_pow_surplusBits_dvd fits
  have positive : 0 < 2 ^ surplusBits units := Nat.two_pow_pos _
  rw [roundUnits, Nat.div_one, Nat.one_mul, roundDiv_of_dvd positive divides]
  exact Nat.div_mul_cancel divides

/-- A quotient that is no finite magnitude does not round to one. -/
theorem limit_le_roundUnits {numerator denominator : Nat}
    (large : limit ≤ numerator / denominator) : limit ≤ roundUnits numerator denominator := by
  have positive : 0 < numerator / denominator := Nat.lt_of_lt_of_le limit_pos large
  have bits : limitBits ≤ (numerator / denominator).log2 :=
    (Nat.le_log2 (Nat.ne_of_gt positive)).2 large
  have kept : surplusBits (numerator / denominator) ≤ (numerator / denominator).log2 :=
    Nat.sub_le _ _
  calc
    limit ≤ 2 ^ (numerator / denominator).log2 := Nat.pow_le_pow_right (by decide) bits
    _ = 2 ^ ((numerator / denominator).log2 - surplusBits (numerator / denominator)) *
          2 ^ surplusBits (numerator / denominator) := by
        rw [← Nat.pow_add, Nat.sub_add_cancel kept]
    _ ≤ roundUnits numerator denominator := by
        refine Nat.mul_le_mul_right _ (Nat.le_trans ?_ (div_le_roundDiv _ _))
        rw [← Nat.div_div_eq_div_mul, Nat.le_div_iff_mul_le (Nat.two_pow_pos _), ← Nat.pow_add,
          Nat.sub_add_cancel kept]
        exact Nat.log2_self_le (Nat.ne_of_gt positive)

/-- A quotient below half of the least unit rounds to zero. -/
theorem roundUnits_eq_zero {numerator denominator : Nat} (small : 2 * numerator < denominator) :
    roundUnits numerator denominator = 0 := by
  have below : numerator < denominator := by omega
  have quotient : numerator / denominator = 0 := Nat.div_eq_of_lt below
  have shift : surplusBits 0 = 0 := rfl
  rw [roundUnits, quotient, shift, Nat.pow_zero, Nat.mul_one, Nat.mul_one, roundDiv,
    Nat.mod_eq_of_lt below, quotient]
  exact if_pos small

theorem nearest?_of_lt {numerator denominator : Nat}
    (small : roundUnits numerator denominator < limit) :
    nearest? numerator denominator =
      some ⟨roundUnits numerator denominator, fits_roundUnits _ _, small⟩ :=
  dif_pos small

theorem nearest?_of_le {numerator denominator : Nat}
    (large : limit ≤ roundUnits numerator denominator) : nearest? numerator denominator = none :=
  dif_neg (Nat.not_lt_of_le large)

/-- A quotient that rounds to the units of a magnitude rounds to it. -/
theorem nearest?_eq_some {numerator denominator : Nat} {magnitude : Magnitude}
    (units_eq : roundUnits numerator denominator = magnitude.units) :
    nearest? numerator denominator = some magnitude := by
  have small : roundUnits numerator denominator < limit := units_eq ▸ magnitude.finite
  rw [nearest?_of_lt small]
  exact congrArg some (Magnitude.ext units_eq)

end Magnitude

namespace Number

open Magnitude

variable {negative : Bool}

/-- Equal quotients have the same nearest number. -/
theorem nearest_congr {numerator denominator otherNumerator otherDenominator : Nat}
    (positive : 0 < denominator) (otherPositive : 0 < otherDenominator)
    (cross : numerator * otherDenominator = otherNumerator * denominator) :
    nearest negative numerator denominator =
      nearest negative otherNumerator otherDenominator := by
  have units_eq : roundUnits numerator denominator =
      roundUnits otherNumerator otherDenominator := by
    rw [← roundUnits_mul_left otherPositive numerator denominator,
      ← roundUnits_mul_left positive otherNumerator otherDenominator,
      Nat.mul_comm otherDenominator numerator, cross, Nat.mul_comm otherNumerator,
      Nat.mul_comm otherDenominator]
  have same : nearest? numerator denominator = nearest? otherNumerator otherDenominator := by
    rcases Nat.lt_or_ge (roundUnits otherNumerator otherDenominator) limit with small | large
    · rw [nearest?_of_lt small]
      exact nearest?_eq_some units_eq
    · rw [nearest?_of_le large, nearest?_of_le (units_eq ▸ large)]
  unfold nearest
  rw [same]

theorem nearest_units (magnitude : Magnitude) :
    nearest negative magnitude.units 1 = finite negative magnitude := by
  unfold nearest
  rw [nearest?_eq_some (roundUnits_one magnitude.fits)]

/-- The sign has no part in the rounding. -/
theorem nearest_eq_finite {numerator denominator : Nat} {magnitude : Magnitude}
    (rounds : nearest false numerator denominator = finite false magnitude) (negative : Bool) :
    nearest negative numerator denominator = finite negative magnitude := by
  unfold nearest at rounds ⊢
  cases found : nearest? numerator denominator with
  | some rounded =>
      rw [found] at rounds
      exact congrArg (finite negative) (Number.finite.inj rounds).2
  | none => simp only [found, reduceCtorEq] at rounds

theorem nearest_of_large {numerator denominator : Nat}
    (large : limit ≤ numerator / denominator) :
    nearest negative numerator denominator = infinite negative := by
  unfold nearest
  rw [nearest?_of_le (limit_le_roundUnits large)]

theorem nearest_of_small {numerator denominator : Nat} (small : 2 * numerator < denominator) :
    nearest negative numerator denominator = finite negative .zero := by
  have units_eq : roundUnits numerator denominator = Magnitude.zero.units :=
    roundUnits_eq_zero small
  unfold nearest
  rw [nearest?_eq_some units_eq]

end Number

namespace Decimal

open Magnitude

/-- The least units of a decimal, over its denominator. -/
def numerator (decimal : Decimal) : Nat :=
  decimal.digits * 10 ^ decimal.exponent.toNat * unitsPerOne

def denominator (decimal : Decimal) : Nat :=
  10 ^ (-decimal.exponent).toNat

theorem denominator_pos (decimal : Decimal) : 0 < decimal.denominator :=
  Nat.pow_pos (by decide)

theorem numerator_natCast (digits power : Nat) :
    numerator ⟨digits, (power : Int)⟩ = digits * 10 ^ power * unitsPerOne :=
  rfl

theorem denominator_natCast (digits power : Nat) : denominator ⟨digits, (power : Int)⟩ = 1 := by
  have none : (-(power : Int)).toNat = 0 := by omega
  unfold denominator
  dsimp only
  rw [none, Nat.pow_zero]

theorem numerator_neg (digits places : Nat) :
    numerator ⟨digits, -(places : Int)⟩ = digits * unitsPerOne := by
  have none : (-(places : Int)).toNat = 0 := by omega
  unfold numerator
  dsimp only
  rw [none, Nat.pow_zero, Nat.mul_one]

theorem denominator_neg (digits places : Nat) :
    denominator ⟨digits, -(places : Int)⟩ = 10 ^ places := by
  unfold denominator
  dsimp only
  rw [Int.neg_neg, Int.toNat_natCast]

theorem two_pow_le_ten_pow (exponent : Nat) : 2 ^ (3 * exponent) ≤ 10 ^ exponent := by
  rw [Nat.pow_mul]
  exact Nat.pow_le_pow_left (by decide) exponent

theorem limit_le_of_exponentBound {digits power : Nat} (nonzero : digits ≠ 0)
    (far : exponentBound ≤ power) : limit ≤ digits * 10 ^ power * unitsPerOne := by
  have bits : 2 ^ (limitBits - unitPlaces) ≤ 10 ^ power :=
    calc
      2 ^ (limitBits - unitPlaces) ≤ 2 ^ (3 * power) := by
        apply Nat.pow_le_pow_right (by decide)
        unfold limitBits unitPlaces
        unfold exponentBound at far
        omega
      _ ≤ 10 ^ power := two_pow_le_ten_pow power
  have split : limit = 2 ^ (limitBits - unitPlaces) * unitsPerOne := by
    unfold limit unitsPerOne
    rw [← Nat.pow_add, Nat.sub_add_cancel (by decide)]
  rw [split]
  exact Nat.mul_le_mul_right _
    (Nat.le_trans bits (Nat.le_mul_of_pos_left _ (Nat.pos_of_ne_zero nonzero)))

theorem lt_of_exponentBound {digits power : Nat}
    (far : digits.log2 + exponentBound ≤ power) : 2 * (digits * unitsPerOne) < 10 ^ power :=
  calc
    2 * (digits * unitsPerOne) < 2 * (2 ^ (digits.log2 + 1) * unitsPerOne) := by
      have below : digits < 2 ^ (digits.log2 + 1) := Nat.lt_log2_self
      have positive : 0 < unitsPerOne := Nat.two_pow_pos _
      exact Nat.mul_lt_mul_of_pos_left (Nat.mul_lt_mul_of_pos_right below positive) (by decide)
    _ = 2 ^ (digits.log2 + 1 + unitPlaces + 1) := by
      rw [unitsPerOne, ← Nat.pow_add, Nat.pow_succ _ (digits.log2 + 1 + unitPlaces), Nat.mul_comm]
    _ ≤ 2 ^ (3 * power) := by
      apply Nat.pow_le_pow_right (by decide)
      unfold unitPlaces
      unfold exponentBound at far
      omega
    _ ≤ 10 ^ power := two_pow_le_ten_pow power

/-- Cutting the exponent changes no outcome: a decimal is rounded as its exact quotient is. -/
theorem toNumber_eq_nearest (negative : Bool) {decimal : Decimal} (nonzero : decimal.digits ≠ 0) :
    decimal.toNumber negative =
      Number.nearest negative decimal.numerator decimal.denominator := by
  obtain ⟨digits, exponent⟩ := decimal
  dsimp only at nonzero
  unfold toNumber
  rw [if_neg nonzero]
  dsimp only
  by_cases sign : 0 ≤ exponent
  · obtain ⟨power, rfl⟩ := Int.eq_ofNat_of_zero_le sign
    rw [if_pos sign, numerator_natCast, denominator_natCast, Int.toNat_natCast]
    rcases Nat.le_total power exponentBound with near | far
    · rw [Nat.min_eq_left near]
    · have cut := limit_le_of_exponentBound nonzero (Nat.le_refl exponentBound)
      have full := limit_le_of_exponentBound nonzero far
      rw [← Nat.div_one (_ * _ * _)] at cut full
      rw [Nat.min_eq_right far, Number.nearest_of_large cut, Number.nearest_of_large full]
  · obtain ⟨places, rfl⟩ : ∃ places : Nat, exponent = -(places : Int) :=
      ⟨exponent.natAbs, by omega⟩
    rw [if_neg sign, numerator_neg, denominator_neg, Int.natAbs_neg, Int.natAbs_natCast]
    rcases Nat.le_total places (digits.log2 + exponentBound) with near | far
    · rw [Nat.min_eq_left near]
    · have cut := lt_of_exponentBound (Nat.le_refl (digits.log2 + exponentBound))
      have full := lt_of_exponentBound far
      rw [Nat.min_eq_right far, Number.nearest_of_small cut, Number.nearest_of_small full]

theorem toNumber_eq_finite {decimal : Decimal} {magnitude : Magnitude}
    (reads : decimal.toNumber false = .finite false magnitude) (negative : Bool) :
    decimal.toNumber negative = .finite negative magnitude := by
  by_cases zero : decimal.digits = 0
  · rw [toNumber, if_pos zero] at reads ⊢
    rw [(Number.finite.inj reads).2]
  · rw [toNumber_eq_nearest _ zero] at reads ⊢
    exact Number.nearest_eq_finite reads negative

/-- Decimals of the same value are rounded to the same number. -/
theorem toNumber_congr (negative : Bool) {decimal other : Decimal}
    (nonzero : decimal.digits ≠ 0) (other_nonzero : other.digits ≠ 0)
    (cross : decimal.numerator * other.denominator = other.numerator * decimal.denominator) :
    decimal.toNumber negative = other.toNumber negative := by
  rw [toNumber_eq_nearest negative nonzero, toNumber_eq_nearest negative other_nonzero]
  exact Number.nearest_congr decimal.denominator_pos other.denominator_pos cross

theorem numerator_mul_denominator_tenth (digits : Nat) (exponent : Int) :
    numerator ⟨digits, exponent + 1⟩ * denominator ⟨10 * digits, exponent⟩ =
      numerator ⟨10 * digits, exponent⟩ * denominator ⟨digits, exponent + 1⟩ := by
  have powers : 10 ^ (exponent + 1).toNat * 10 ^ (-exponent).toNat =
      10 * 10 ^ exponent.toNat * 10 ^ (-(exponent + 1)).toNat := by
    rw [← Nat.pow_succ', ← Nat.pow_add, ← Nat.pow_add]
    congr 1
    omega
  calc
    digits * 10 ^ (exponent + 1).toNat * unitsPerOne * 10 ^ (-exponent).toNat =
        digits * unitsPerOne * (10 ^ (exponent + 1).toNat * 10 ^ (-exponent).toNat) := by
      simp only [Nat.mul_assoc, Nat.mul_comm, Nat.mul_left_comm]
    _ = 10 * digits * 10 ^ exponent.toNat * unitsPerOne * 10 ^ (-(exponent + 1)).toNat := by
      rw [powers]
      simp only [Nat.mul_assoc, Nat.mul_comm, Nat.mul_left_comm]

/-- Moving trailing zeros into the exponent keeps the number. -/
theorem toNumber_withoutTrailingZeros (negative : Bool) (decimal : Decimal) :
    (withoutTrailingZeros decimal.digits decimal.exponent).toNumber negative =
      decimal.toNumber negative := by
  obtain ⟨digits, exponent⟩ := decimal
  fun_induction withoutTrailingZeros digits exponent with
  | case1 digits exponent trailing induction =>
      obtain ⟨nonzero, divides⟩ := trailing
      have digits_eq : digits = 10 * (digits / 10) := by omega
      rw [induction]
      refine toNumber_congr negative (by dsimp only; omega) nonzero ?_
      rw [digits_eq, Nat.mul_div_cancel_left _ (by decide)]
      exact numerator_mul_denominator_tenth _ _
  | case2 digits exponent _ => rfl

/-- A binary fraction is a decimal one, since each factor two needs a factor five. -/
theorem toNumber_mul_five_pow (negative : Bool) {units : Nat} (nonzero : units ≠ 0)
    (places : Nat) :
    toNumber negative ⟨units * 5 ^ places, -(places : Int)⟩ =
      Number.nearest negative (units * unitsPerOne) (2 ^ places) := by
  have five_pow : 5 ^ places ≠ 0 := Nat.ne_of_gt (Nat.pow_pos (by decide))
  rw [toNumber_eq_nearest negative (Nat.mul_ne_zero nonzero five_pow), numerator_neg,
    denominator_neg]
  refine Number.nearest_congr (Nat.pow_pos (by decide)) (Nat.two_pow_pos places) ?_
  have ten_pow : 10 ^ places = 5 ^ places * 2 ^ places := Nat.mul_pow 5 2 places
  rw [ten_pow]
  simp only [Nat.mul_assoc, Nat.mul_comm, Nat.mul_left_comm]

/-- The exact decimal of a magnitude reads back as it. -/
theorem toNumber_ofUnits (negative : Bool) {magnitude : Magnitude}
    (nonzero : magnitude.units ≠ 0) :
    (ofUnits magnitude.units).toNumber negative = .finite negative magnitude := by
  unfold ofUnits
  rw [toNumber_mul_five_pow negative nonzero, ← Number.nearest_units]
  refine Number.nearest_congr (Nat.two_pow_pos _) Nat.one_pos ?_
  unfold unitsPerOne
  rw [Nat.mul_one]

theorem toNumber_of_onGrid? {tie : Tie} {magnitude : Magnitude} {exponent : Int}
    {decimal : Decimal} (found : onGrid? tie magnitude exponent = some decimal) :
    decimal.toNumber false = .finite false magnitude := by
  unfold onGrid? at found
  generalize inPowersOfTen magnitude.units exponent = quotient at found
  have reads : readsBackAs magnitude decimal = true := List.find?_some found
  exact eq_of_beq reads

/-- The shortest decimal of a magnitude reads back as it. -/
theorem toNumber_shortest (tie : Tie) {magnitude : Magnitude} (nonzero : magnitude.units ≠ 0) :
    (shortest tie magnitude).toNumber false = .finite false magnitude := by
  have fallback := toNumber_ofUnits false nonzero
  unfold shortest
  dsimp only
  rw [toNumber_withoutTrailingZeros]
  generalize ofUnits magnitude.units = exactly at fallback
  cases found : (List.range mostDigits).findSome? fun (index : Nat) =>
      onGrid? tie magnitude (pointPlace magnitude.units - (index + 1)) with
  | none =>
      rw [Option.getD_none]
      exact fallback
  | some decimal =>
      obtain ⟨index, -, on_grid⟩ := List.exists_of_findSome?_eq_some found
      exact toNumber_of_onGrid? on_grid

end Decimal
end FormRules
