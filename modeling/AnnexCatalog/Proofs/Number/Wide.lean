import AnnexCatalog.Number.Wide
import AnnexCatalog.Proofs.Number.Arithmetic

/-! # Decimal numbers of few digits

A decimal number that is made a double step by step becomes the nearest double, as long as it has few
digits (`Decimal.approximate_of_isShort`). Each step multiplies by a tenth, with an error far smaller
than the distance of two doubles (`Wide.Tidy.times_tenth`), and a decimal number of few digits does not
come that near to a point halfway between two doubles.
-/

namespace AnnexCatalog

namespace Wide

open Binary64

/-! ### Products -/

/-- Two doubles are multiplied exactly if the products of their halves are doubles: those of a first
half lie on a coarser grid, so that what is lost of their sum is found again. -/
theorem ofProduct_eq (first second : Binary64) {outer inner other last : Nat} (exponent : Nat)
    (outerIs : first.front * second.front = ⟨outer⟩)
    (innerIs : first.front * (second - second.front) = ⟨inner⟩)
    (otherIs : (first - first.front) * second.front = ⟨other⟩)
    (lastIs : (first - first.front) * (second - second.front) = ⟨last⟩)
    (outerGrid : 2 ^ 26 * 2 ^ exponent ∣ outer) (innerGrid : 2 ^ 26 * 2 ^ exponent ∣ inner)
    (otherGrid : 2 ^ 26 * 2 ^ exponent ∣ other) (lastGrid : 2 ^ exponent ∣ last)
    (large : 2 ^ 53 ≤ outer) (outerSize : outer + (inner + other) ≤ 2 ^ 105 * 2 ^ exponent)
    (innerSize : inner + other ≤ 3 * 2 ^ 77 * 2 ^ exponent)
    (lastSize : last ≤ 2 ^ 52 * 2 ^ exponent)
    (finite : 2 * (outer + (inner + other) + last) ≤ infiniteUnits) :
    ∃ product : Nat, ofProduct first second =
        ⟨⟨product⟩, ⟨((outer + (inner + other) + last : Nat) : Int) - product⟩⟩ ∧
      2 ^ 53 * ((outer + (inner + other) : Nat) - (product : Int)).natAbs ≤
        outer + (inner + other) := by
  have coarse : 2 ^ 26 * 2 ^ exponent = 2 ^ (26 + exponent) := (Nat.pow_add ..).symm
  have some := Nat.two_pow_pos exponent
  have totalGrid : 2 ^ 26 * 2 ^ exponent ∣ outer + (inner + other) :=
    outerGrid.add (innerGrid.add otherGrid)
  have productGrid : 2 ^ 26 * 2 ^ exponent ∣ rounded (outer + (inner + other)) 1 := by
    have kept := dvd_rounded Nat.one_pos (coarse ▸ totalGrid)
    rwa [Nat.mul_one, ← coarse] at kept
  have enough : 2 ^ 53 ≤ outer + (inner + other) := Nat.le_add_right_of_le large
  have error := mul_natAbs_rounded_sub_le enough
  have product := add_natCast enough (by omega)
  generalize rounded (outer + (inner + other)) 1 = rounding at error productGrid product
  have onGrid {units : Int} (multiple : ((2 ^ 26 * 2 ^ exponent : Nat) : Int) ∣ units)
      (short : units.natAbs ≤ 2 ^ 79 * 2 ^ exponent) : IsRepresentable units.natAbs := by
    refine isRepresentable_of_dvd (26 + exponent) ?_ (by omega)
    rwa [coarse, Nat.cast_pow] at multiple
  have sum : (⟨(inner : Nat)⟩ + ⟨(other : Nat)⟩ : Binary64) = ⟨(inner + other : Nat)⟩ := by
    refine add_of_isRepresentable (onGrid ?_ ?_) ?_ (Nat.cast_add inner other).symm
    · exact Int.natCast_dvd_natCast.mpr (innerGrid.add otherGrid)
    · omega
    · omega
  have lead : (⟨(outer : Nat)⟩ - ⟨(rounding : Nat)⟩ : Binary64) = ⟨(outer : Int) - rounding⟩ := by
    refine sub_of_isRepresentable (onGrid ?_ ?_) ?_ rfl
    · exact (Int.natCast_dvd_natCast.mpr outerGrid).sub (Int.natCast_dvd_natCast.mpr productGrid)
    · omega
    · omega
  have missing : (⟨(outer : Int) - rounding⟩ + ⟨(inner + other : Nat)⟩ : Binary64) =
      ⟨((outer + (inner + other) : Nat) : Int) - rounding⟩ := by
    refine add_of_isRepresentable (onGrid ?_ ?_) ?_ ?_
    · exact (Int.natCast_dvd_natCast.mpr totalGrid).sub (Int.natCast_dvd_natCast.mpr productGrid)
    · omega
    · omega
    · dsimp only
      omega
  have lost : (⟨((outer + (inner + other) : Nat) : Int) - rounding⟩ + ⟨(last : Nat)⟩ : Binary64) =
      ⟨((outer + (inner + other) + last : Nat) : Int) - rounding⟩ := by
    have fine : (2 ^ exponent : Nat) ∣ 2 ^ 26 * 2 ^ exponent := Nat.dvd_mul_left _ _
    refine add_of_isRepresentable (isRepresentable_of_dvd exponent ?_ ?_) ?_ ?_
    · have whole : ((2 ^ exponent : Nat) : Int) ∣
          ((outer + (inner + other) + last : Nat) : Int) - rounding :=
        (Int.natCast_dvd_natCast.mpr ((fine.trans totalGrid).add lastGrid)).sub
          (Int.natCast_dvd_natCast.mpr (fine.trans productGrid))
      rwa [Nat.cast_pow] at whole
    · omega
    · omega
    · dsimp only
      omega
  refine ⟨rounding, ?_, error⟩
  rw [ofProduct, outerIs, innerIs, otherIs, lastIs, sum, product, lead, missing, lost]

/-! ### A tenth -/

/-- The first part of a tenth. -/
theorem high_divisors : divisors.first.high.units * 2 ^ 55 = 3602879701896397 * oneUnits := by
  decide +kernel

/-- The second part of a tenth. -/
theorem low_divisors : divisors.first.low.units * 2 ^ 110 = -7205759403792794 * oneUnits := by
  decide +kernel

/-- The first half of a tenth. -/
theorem front_tenth : divisors.first.high.front = ⟨(53687091 * 2 ^ 1045 : Nat)⟩ := by
  decide +kernel

/-- The second half of a tenth. -/
theorem back_tenth :
    divisors.first.high - divisors.first.high.front = ⟨(13421773 * 2 ^ 1019 : Nat)⟩ := by
  decide +kernel

/-- A significand is put together from its halves. -/
theorem mul_pow_eq_halves (significand place : Nat) :
    significand * 2 ^ (place + 55) =
      2 ^ 81 * (significand / 2 ^ 26 * 2 ^ place) +
        2 ^ 55 * (significand % 2 ^ 26 * 2 ^ place) := by
  calc significand * 2 ^ (place + 55) =
        (2 ^ 26 * (significand / 2 ^ 26) + significand % 2 ^ 26) * 2 ^ (place + 55) := by
          rw [Nat.div_add_mod]
    _ = _ := by ring

/-- The product with a tenth is put together from the products of the halves. -/
theorem tenth_mul_eq_halves (significand place : Nat) :
    3602879701896397 * (significand * 2 ^ place) =
      significand / 2 ^ 26 * 53687091 * 2 ^ (place + 52) +
        (significand / 2 ^ 26 * 13421773 * 2 ^ (place + 26) +
          significand % 2 ^ 26 * 53687091 * 2 ^ (place + 26)) +
        significand % 2 ^ 26 * 13421773 * 2 ^ place := by
  calc 3602879701896397 * (significand * 2 ^ place) =
        3602879701896397 *
          ((2 ^ 26 * (significand / 2 ^ 26) + significand % 2 ^ 26) * 2 ^ place) := by
          rw [Nat.div_add_mod]
    _ = _ := by ring

/-- The product of a double and of the first part of a tenth is exact. -/
theorem ofProduct_tenth {significand place : Nat}
    (grid : spacing (significand * 2 ^ (place + 55)) = 2 ^ (place + 55))
    (least : 2 ^ 52 ≤ significand) (most : significand < 2 ^ 53)
    (finite : 4 * (significand * 2 ^ (place + 55)) ≤ infiniteUnits) :
    ∃ product : Nat,
      ofProduct ⟨(significand * 2 ^ (place + 55) : Nat)⟩ divisors.first.high =
        ⟨⟨product⟩, ⟨((3602879701896397 * (significand * 2 ^ place) : Nat) : Int) - product⟩⟩ ∧
      2 ^ 53 * (((3602879701896397 * (significand * 2 ^ place) : Nat) : Int) - product).natAbs ≤
        significand * 2 ^ (place + 55) := by
  have front := front_natCast grid
  have back := sub_front_natCast grid (by omega)
  -- Everything is a multiple of the halves on the finest grid.
  have wholeLeast := Nat.mul_le_mul_right (2 ^ place)
    (show 2 ^ 26 ≤ significand / 2 ^ 26 by omega)
  have wholeMost := Nat.mul_le_mul_right (2 ^ place)
    (show significand / 2 ^ 26 ≤ 2 ^ 27 by omega)
  have partMost := Nat.mul_le_mul_right (2 ^ place)
    (show significand % 2 ^ 26 ≤ 2 ^ 26 by omega)
  have unit := Nat.two_pow_pos place
  have outer : significand / 2 ^ 26 * 53687091 * 2 ^ (place + 52) =
      53687091 * 2 ^ 52 * (significand / 2 ^ 26 * 2 ^ place) := by ring
  have inner : significand / 2 ^ 26 * 13421773 * 2 ^ (place + 26) =
      13421773 * 2 ^ 26 * (significand / 2 ^ 26 * 2 ^ place) := by ring
  have other : significand % 2 ^ 26 * 53687091 * 2 ^ (place + 26) =
      53687091 * 2 ^ 26 * (significand % 2 ^ 26 * 2 ^ place) := by ring
  have last : significand % 2 ^ 26 * 13421773 * 2 ^ place =
      13421773 * (significand % 2 ^ 26 * 2 ^ place) := by ring
  have high := mul_pow_eq_halves significand place
  have total := tenth_mul_eq_halves significand place
  rw [total]
  have outerIs := mul_natCast (by omega : significand / 2 ^ 26 * 53687091 ≤ 2 ^ 53)
    (by omega : place + 55 + 26 + 1045 = place + 52 + 1074) (by omega)
  have innerIs := mul_natCast (by omega : significand / 2 ^ 26 * 13421773 ≤ 2 ^ 53)
    (by omega : place + 55 + 26 + 1019 = place + 26 + 1074) (by omega)
  have otherIs := mul_natCast (by omega : significand % 2 ^ 26 * 53687091 ≤ 2 ^ 53)
    (by omega : place + 55 + 1045 = place + 26 + 1074) (by omega)
  have lastIs := mul_natCast (by omega : significand % 2 ^ 26 * 13421773 ≤ 2 ^ 53)
    (by omega : place + 55 + 1019 = place + 1074) (by omega)
  rw [← front_tenth, ← front] at outerIs
  rw [← back_tenth, ← front] at innerIs
  rw [← front_tenth, ← back] at otherIs
  rw [← back_tenth, ← back] at lastIs
  obtain ⟨product, same, error⟩ := ofProduct_eq _ _ place outerIs innerIs otherIs lastIs
    ⟨53687091 * 2 ^ 26 * (significand / 2 ^ 26), by ring⟩
    ⟨significand / 2 ^ 26 * 13421773, by ring⟩ ⟨significand % 2 ^ 26 * 53687091, by ring⟩
    (Nat.dvd_mul_left _ _) (by omega) (by omega) (by omega) (by omega) (by omega)
  refine ⟨product, same, ?_⟩
  omega

/-- The significand of a double that is not small. -/
theorem exists_significand {units : Nat} (exact : IsRepresentable units) (large : 2 ^ 108 ≤ units) :
    ∃ significand place, units = significand * 2 ^ (place + 55) ∧
      spacing (significand * 2 ^ (place + 55)) = 2 ^ (place + 55) ∧
        2 ^ 52 ≤ significand ∧ significand < 2 ^ 53 := by
  obtain ⟨exponent, grid⟩ := exists_spacing_eq units
  obtain ⟨significand, split⟩ := exact
  have least := mul_spacing_le_of_le (show 2 ^ 53 ≤ units by omega)
  have most := lt_mul_spacing units
  rw [grid] at split least most
  have enough : 55 < exponent := by
    have bound : 2 ^ 108 < 2 ^ (53 + exponent) := by
      rw [Nat.pow_add]
      exact Nat.lt_of_le_of_lt large most
    have order := (Nat.pow_lt_pow_iff_right (by decide)).mp bound
    omega
  have whole : units = significand * 2 ^ exponent := by rw [split, Nat.mul_comm]
  rw [whole] at grid least most
  refine ⟨significand, exponent - 55, ?_⟩
  rw [Nat.sub_add_cancel (Nat.le_of_lt enough)]
  exact ⟨whole, grid, Nat.le_of_mul_le_mul_right least (Nat.two_pow_pos exponent),
    Nat.lt_of_mul_lt_mul_right most⟩

/-! ### Steps -/

/-- The exact sum of the parts, in units. -/
def value (number : Wide) : ℚ :=
  number.high.units + number.low.units

/-- A positive number inside the finite range, the second part of which is what the first has lost by
rounding. -/
structure Tidy (number : Wide) : Prop where
  exact : IsRepresentable number.high.units.natAbs
  finite : 4 * (number.high.units : ℚ) ≤ infiniteUnits
  small : |(number.low.units : ℚ)| ≤ number.high.units / 2 ^ 52

/-- The product of a double and the first part of a tenth, with what is lost, is exact. -/
theorem Tidy.ofProduct_tenth {number : Wide} (tidy : number.Tidy)
    (large : 2 ^ 200 ≤ (number.high.units : ℚ)) :
    ∃ product lost : Int, ofProduct number.high divisors.first.high = ⟨⟨product⟩, ⟨lost⟩⟩ ∧
      0 ≤ product ∧
      (product + lost : ℚ) = number.high.units * 3602879701896397 / 2 ^ 55 ∧
      |(lost : ℚ)| ≤ number.high.units / 2 ^ 53 := by
  obtain ⟨exact, finite, -⟩ := tidy
  obtain ⟨high, units⟩ : ∃ high : Nat, number.high.units = high := by
    refine Int.eq_ofNat_of_zero_le ?_
    have least : (0 : ℚ) ≤ number.high.units := by linarith
    exact_mod_cast least
  have same : number.high = ⟨(high : Nat)⟩ := congrArg Binary64.mk units
  rw [same] at exact finite large ⊢
  dsimp only at exact finite large ⊢
  rw [Int.natAbs_natCast] at exact
  have least : 2 ^ 200 ≤ high := by exact_mod_cast large
  have most : 4 * high ≤ infiniteUnits := by exact_mod_cast finite
  obtain ⟨significand, place, whole, grid, below, above⟩ := exists_significand exact (by omega)
  rw [whole] at most
  obtain ⟨product, split, error⟩ := Wide.ofProduct_tenth grid below above most
  rw [whole]
  refine ⟨product, _, split, Int.natCast_nonneg product, ?_, ?_⟩
  · push_cast
    rw [pow_add]
    field_simp
    ring
  · have bound : ((2 ^ 53 * _ : Nat) : ℚ) ≤ _ := Nat.cast_le.mpr error
    rw [Nat.cast_mul, Nat.cast_natAbs, Int.cast_abs] at bound
    rw [le_div_iff₀ (by positivity), mul_comm]
    exact_mod_cast bound

/-- What the product with a tenth has beside its first part is far from rounding it. -/
theorem Tidy.abs_rest_sub_le {number : Wide} (tidy : number.Tidy)
    (large : 2 ^ 200 ≤ (number.high.units : ℚ)) {lost : Int}
    (lostSmall : |(lost : ℚ)| ≤ number.high.units / 2 ^ 53) :
    |((number.high * divisors.first.low + number.low * divisors.first.high + ⟨lost⟩).units : ℚ) -
        (number.high.units * (-7205759403792794 / 2 ^ 110) +
          number.low.units * (3602879701896397 / 2 ^ 55) + lost : ℚ)| ≤
      number.high.units / 2 ^ 102 := by
  obtain ⟨-, finite, small⟩ := tidy
  have firstError := abs_mul_sub_le number.high divisors.first.low (number.high.units / 2 ^ 57)
    low_divisors (abs_le.mpr ⟨by linarith, by linarith⟩) (by linarith)
  obtain ⟨below, above⟩ := abs_le.mp small
  have secondError := abs_mul_sub_le number.low divisors.first.high (number.high.units / 2 ^ 55)
    high_divisors (abs_le.mpr ⟨by linarith, by linarith⟩) (by linarith)
  generalize number.high * divisors.first.low = first at firstError ⊢
  generalize number.low * divisors.first.high = second at secondError ⊢
  generalize (number.high.units : ℚ) = high at *
  generalize (number.low.units : ℚ) = low at *
  obtain ⟨firstBelow, firstAbove⟩ := abs_le.mp firstError
  obtain ⟨secondBelow, secondAbove⟩ := abs_le.mp secondError
  have sumError := abs_add_sub_le first second (high / 2 ^ 53)
    (abs_le.mpr ⟨by linarith, by linarith⟩) (by linarith)
  generalize first + second = sum at sumError ⊢
  obtain ⟨sumBelow, sumAbove⟩ := abs_le.mp sumError
  obtain ⟨lostBelow, lostAbove⟩ := abs_le.mp lostSmall
  have restError := abs_add_sub_le sum ⟨lost⟩ (high / 2 ^ 51)
    (abs_le.mpr ⟨by linarith, by linarith⟩) (by linarith)
  obtain ⟨restBelow, restAbove⟩ := abs_le.mp restError
  exact abs_le.mpr ⟨by linarith, by linarith⟩

/-- A number is multiplied by a tenth with an error of no more than 2^-90 of it. -/
theorem Tidy.times_tenth {number : Wide} (tidy : number.Tidy)
    (large : 2 ^ 200 ≤ (number.high.units : ℚ)) :
    ∃ next, number.times divisors.first = some next ∧ next.Tidy ∧
      number.high.units ≤ 16 * (next.high.units : ℚ) ∧
      |10 * next.value - number.value| ≤ number.value / 2 ^ 90 := by
  obtain ⟨product, lost, split, positive, whole, lostSmall⟩ := tidy.ofProduct_tenth large
  have restError := tidy.abs_rest_sub_le large lostSmall
  obtain ⟨-, finite, small⟩ := tidy
  rw [times, split]
  dsimp only
  generalize number.high * divisors.first.low + number.low * divisors.first.high + ⟨lost⟩ = rest
    at restError ⊢
  rw [value]
  generalize (number.high.units : ℚ) = high at *
  generalize (number.low.units : ℚ) = low at *
  obtain ⟨below, above⟩ := abs_le.mp small
  obtain ⟨lostBelow, lostAbove⟩ := abs_le.mp lostSmall
  obtain ⟨restBelow, restAbove⟩ := abs_le.mp restError
  obtain ⟨lead, tail, kept⟩ := add_sub_add ⟨product⟩ rest
    (by linarith) (by linarith) (abs_le.mpr ⟨by linarith, by linarith⟩)
  obtain ⟨leadBelow, leadAbove⟩ := abs_le.mp lead
  obtain ⟨keptBelow, keptAbove⟩ := abs_le.mp kept
  rw [isFinite_of_abs_lt ⟨product⟩ (abs_lt.mpr ⟨by linarith, by linarith⟩),
    isFinite_of_abs_lt (⟨product⟩ + rest) (abs_lt.mpr ⟨by linarith, by linarith⟩)]
  refine ⟨_, rfl, ⟨isRepresentable_ofUnits _ Nat.one_pos, ?_, tail⟩, ?_, ?_⟩
  · linarith
  · linarith
  · rw [value]
    exact abs_le.mpr ⟨by linarith, by linarith⟩

/-- A few factors of a tenth make an error of no more than 2^-89 of the number each. -/
theorem Tidy.timesRepeatedly_tenth {number : Wide} {count : Nat} (tidy : number.Tidy)
    (few : count ≤ 9) (large : 2 ^ (200 + 4 * count) ≤ (number.high.units : ℚ)) :
    ∃ last, timesRepeatedly divisors.first count number = some last ∧ last.Tidy ∧
      2 ^ 200 ≤ (last.high.units : ℚ) ∧
      |10 ^ count * last.value - number.value| ≤ count * number.value / 2 ^ 89 := by
  induction count generalizing number with
  | zero => exact ⟨number, rfl, tidy, large, by simp⟩
  | succ count step =>
      have most : (count : ℚ) ≤ 9 := by exact_mod_cast Nat.le_of_succ_le few
      have enough : (2 : ℚ) ^ (200 + 4 * (count + 1)) = 16 * 2 ^ (200 + 4 * count) := by ring
      have least : (2 : ℚ) ^ 200 ≤ 2 ^ (200 + 4 * count) :=
        pow_le_pow_right₀ (by norm_num) (Nat.le_add_right _ _)
      obtain ⟨next, first, nextTidy, order, error⟩ := tidy.times_tenth (by linarith)
      obtain ⟨last, rest, lastTidy, size, lastError⟩ :=
        step nextTidy (Nat.le_of_succ_le few) (by linarith)
      refine ⟨last, ?_, lastTidy, size, ?_⟩
      · rw [timesRepeatedly, first, Option.bind_some, rest]
      obtain ⟨below, above⟩ := abs_le.mp error
      obtain ⟨lastBelow, lastAbove⟩ := abs_le.mp lastError
      obtain ⟨smallBelow, -⟩ := abs_le.mp tidy.small
      have positive : 0 ≤ number.value := by
        rw [value]
        linarith
      have grown := mul_le_mul_of_nonneg_left above (Nat.cast_nonneg (α := ℚ) count)
      have few := mul_le_mul_of_nonneg_right most positive
      rw [pow_succ]
      push_cast
      refine abs_le.mpr ⟨?_, ?_⟩ <;> linarith

/-! ### Words -/

/-- A whole number of 64 bits is the sum of the parts that are made of it, to the nearest double. -/
theorem add_ofWord {word : Nat} (short : word < 2 ^ 64) :
    (ofWord word).high + (ofWord word).low = ofInt word := by
  obtain ⟨whole, high, near⟩ := exists_ofInt_eq short
  rw [ofWord]
  dsimp only
  split
  · have exact : IsRepresentable (ofInt word).units.natAbs := by
      rw [ofInt_eq_ofUnits]
      exact isRepresentable_ofUnits _ Nat.one_pos
    have finite : (ofInt word).units.natAbs ≤ infiniteUnits := by
      rw [ofInt_eq_ofUnits, natAbs_units_ofUnits]
      exact Nat.min_le_right ..
    exact add_of_isRepresentable exact finite (Int.add_zero _)
  · have positive : (oneUnits : Int) ≠ 0 := by exact_mod_cast oneUnits_pos.ne'
    have quotient : ((whole * oneUnits : Nat) : Int) / oneUnits = whole := by
      rw [Nat.cast_mul, Int.mul_ediv_cancel _ positive]
    calc ofInt word + ofInt (word - (ofInt word).units / oneUnits) =
          ⟨(whole * oneUnits : Nat)⟩ + ⟨(word - whole) * oneUnits⟩ := by
            rw [high, quotient, ofInt_eq near]
      _ = ofUnits (word * oneUnits) 1 := by
          change ofUnits ((whole * oneUnits : Nat) + (word - whole) * oneUnits) 1 = _
          rw [Nat.cast_mul]
          ring_nf
      _ = ofInt word := (ofInt_eq_ofUnits word).symm

/-- What is reached by few steps from a word that is a double. -/
theorem shift_of_few (number : Wide) (factors : Factors) {places : Nat} (few : places < 10) :
    number.shift factors places = timesRepeatedly factors.first places number := by
  rw [shift, Nat.div_eq_of_lt (by omega), Nat.mod_eq_of_lt (by omega), Nat.div_eq_of_lt few,
    Nat.mod_eq_of_lt few]
  rfl

/-- A word of 53 binary digits is a double, and nothing is lost of it. -/
theorem ofWord_eq {word : Nat} (short : word < 2 ^ 53) :
    ofWord word = ⟨⟨(word * oneUnits : Nat)⟩, ⟨0⟩⟩ := by
  have high : ofInt word = ⟨(word * oneUnits : Nat)⟩ := by
    rw [ofInt_eq (by omega), Nat.cast_mul]
  have positive : (oneUnits : Int) ≠ 0 := by exact_mod_cast oneUnits_pos.ne'
  have quotient : ((word * oneUnits : Nat) : Int) / oneUnits = word := by
    rw [Nat.cast_mul, Int.mul_ediv_cancel _ positive]
  have nothing : ofInt (word - word) = ⟨0⟩ := by
    rw [Int.sub_self, ofInt_eq (by decide), Int.zero_mul]
  rw [ofWord, high, quotient, nothing]
  split <;> rfl

/-- A word that is exact on its own has nothing left for the low part. -/
theorem tidy_ofWord {word : Nat} (short : word < 2 ^ 53) : (ofWord word).Tidy := by
  have finite := oneUnits_mul_le word (by omega)
  rw [ofWord_eq short]
  refine ⟨?_, ?_, ?_⟩
  · obtain ⟨scale, one⟩ : ∃ scale, scale = 1074 := ⟨_, rfl⟩
    rw [Int.natAbs_natCast, oneUnits_eq one]
    exact isRepresentable_mul_two_pow (Nat.le_of_lt short) scale
  · dsimp only
    generalize word * oneUnits = product at finite ⊢
    generalize infiniteUnits = limit at finite ⊢
    exact_mod_cast finite
  · rw [Int.cast_zero, abs_zero, Int.cast_natCast]
    exact div_nonneg (Nat.cast_nonneg _) (by positivity)

/-- A large tidy number is a whole number of units, and stays finite when it is rounded. -/
theorem Tidy.exists_units_eq {number : Wide} (tidy : number.Tidy)
    (large : 2 ^ 200 ≤ (number.high.units : ℚ)) :
    ∃ units : Nat, number.high.units + number.low.units = units ∧ number.value = units ∧
      rounded units 1 ≤ infiniteUnits := by
  obtain ⟨below, above⟩ := abs_le.mp tidy.small
  have finite := tidy.finite
  obtain ⟨units, sum⟩ : ∃ units : Nat, number.high.units + number.low.units = units := by
    refine Int.eq_ofNat_of_zero_le ?_
    have least : (0 : ℚ) ≤ number.high.units + number.low.units := by linarith
    exact_mod_cast least
  have total : number.value = units := by
    rw [value, ← Int.cast_add, sum, Int.cast_natCast]
  rw [value] at total
  have least : 2 ^ 53 ≤ units := by
    have least : (2 : ℚ) ^ 53 ≤ units := by linarith
    exact_mod_cast least
  have room : 2 * units ≤ infiniteUnits := by
    have room : 2 * (units : ℚ) ≤ infiniteUnits := by linarith
    exact_mod_cast room
  have error := mul_natAbs_rounded_sub_le least
  exact ⟨units, sum, total, by omega⟩

/-- The errors of a few factors of a tenth are far smaller than what is multiplied. -/
theorem mul_natAbs_sub_le_of_error {product units places : Nat} (few : places ≤ 9)
    (error : |10 ^ places * (units : ℚ) - product| ≤ places * product / 2 ^ 89) :
    2 ^ 80 * ((product : Nat) - (units * 10 ^ places : Nat) : Int).natAbs ≤ product := by
  have count : (places : ℚ) ≤ 9 := by exact_mod_cast few
  have most := mul_le_mul_of_nonneg_right count (Nat.cast_nonneg (α := ℚ) product)
  have close : 2 ^ 80 * |(product : ℚ) - (units * 10 ^ places : Nat)| ≤ product := by
    rw [abs_sub_comm, Nat.cast_mul, Nat.cast_pow, Nat.cast_ofNat, mul_comm (units : ℚ)]
    linarith only [error, most]
  rw [← Nat.cast_le (α := ℚ), Nat.cast_mul, Nat.cast_natAbs, Int.cast_abs, Int.cast_sub,
    Int.cast_natCast, Int.cast_natCast, Nat.cast_pow, Nat.cast_ofNat]
  exact close

/-- A word divided by a few tens is rounded to the double nearest to the quotient. -/
theorem exists_shift_eq {word places : Nat} (some : word ≠ 0) (short : word < 2 ^ 53)
    (few : places ≤ 9) :
    ∃ last, (ofWord word).shift divisors places = Option.some last ∧
      last.high + last.low = ⟨rounded (word * oneUnits) (10 ^ places)⟩ ∧
        rounded (word * oneUnits) (10 ^ places) ≤ infiniteUnits := by
  obtain ⟨scale, one⟩ : ∃ scale, scale = 1074 := ⟨_, rfl⟩
  have start : (ofWord word).value = (word * oneUnits : Nat) := by
    rw [value, ofWord_eq short, Int.cast_zero, add_zero, Int.cast_natCast]
  have large : (2 : ℚ) ^ (200 + 4 * places) ≤ (ofWord word).high.units := by
    have least : 2 ^ (200 + 4 * places) ≤ word * oneUnits := by
      rw [oneUnits_eq one]
      exact (Nat.pow_le_pow_right (by decide) (by omega)).trans
        (Nat.le_mul_of_pos_left _ (Nat.pos_of_ne_zero some))
    rw [ofWord_eq short, Int.cast_natCast]
    exact_mod_cast least
  obtain ⟨last, reached, tidy, size, error⟩ :=
    (tidy_ofWord short).timesRepeatedly_tenth few large
  obtain ⟨units, sum, total, inside⟩ := tidy.exists_units_eq size
  rw [start, total] at error
  have near := mul_natAbs_sub_le_of_error few error
  rw [oneUnits_eq one] at near ⊢
  rw [← rounded_eq_of_near short few (by omega) some near]
  refine ⟨last, ?_, ?_, inside⟩
  · rw [shift_of_few _ _ (by omega), reached]
  · change ofUnits (last.high.units + last.low.units) 1 = _
    rw [sum, ofUnits_natCast inside]

end Wide

namespace Decimal

open Binary64

/-- The zeros at the end of a coefficient do not count. -/
theorem exists_reduce_eq (coefficient places : Nat) :
    ∃ taken, coefficient = (reduce coefficient places).1 * 10 ^ taken ∧
      places = (reduce coefficient places).2 + taken := by
  induction places generalizing coefficient with
  | zero => exact ⟨0, by simp [reduce]⟩
  | succ places step =>
      rw [reduce]
      split
      · next multiple =>
          obtain ⟨taken, split, rest⟩ := step (coefficient / 10)
          refine ⟨taken + 1, ?_, ?_⟩
          · rw [pow_succ, ← Nat.mul_assoc, ← split]
            omega
          · omega
      · exact ⟨0, by simp⟩

/-- A coefficient that stays short may take its places exactly. -/
theorem extend_eq {coefficient places : Nat} (short : coefficient * 10 ^ places < 2 ^ 53) :
    extend coefficient places = (coefficient * 10 ^ places, 0) := by
  induction places generalizing coefficient with
  | zero => simp [extend]
  | succ places step =>
      have next : 10 * coefficient * 10 ^ places = coefficient * 10 ^ (places + 1) := by ring
      have positive : 0 < 10 ^ (places + 1) := Nat.pow_pos (by decide)
      have least := Nat.le_mul_of_pos_right coefficient positive
      have room : coefficient < Wide.largestWord / 10 :=
        (Nat.lt_of_le_of_lt least short).trans (by decide)
      rw [extend, if_pos room, step (next ▸ short), next]

/-- Twenty digits are inside the range of the nearest doubles. -/
theorem toBinary64_eq {decimal : Decimal} (short : decimal.coefficient < 10 ^ 20)
    (least : -20 ≤ decimal.exponent) (most : decimal.exponent ≤ 20) :
    decimal.toBinary64 =
      ofRatio decimal.negative (decimal.coefficient * 10 ^ decimal.exponent.toNat)
        (10 ^ (-decimal.exponent).toNat) := by
  have length : (Nat.toDigits 10 decimal.coefficient).length ≤ 20 :=
    (Nat.length_toDigits_le_iff (by decide) (by decide)).mpr short
  rw [toBinary64]
  split
  · next tiny =>
      have zero : decimal.coefficient = 0 := tiny.resolve_right (by omega)
      rw [zero, Nat.zero_mul, ofRatio_zero _ (Nat.pow_pos (by decide))]
  · rw [if_neg (by omega)]
    split
    · next whole =>
        have none : (-decimal.exponent).toNat = 0 := by omega
        rw [none]
        rfl
    · next part =>
        have none : decimal.exponent.toNat = 0 := by omega
        rw [none, Nat.pow_zero, Nat.mul_one]
        rfl

/-- The double that is reached is the nearest one if the magnitude is rounded to it. -/
theorem approximate_eq_of_magnitude {negative : Bool} {coefficient : Nat} {exponent : Int}
    {number : Wide} (short : coefficient < 10 ^ 20) (least : -20 ≤ exponent) (most : exponent ≤ 20)
    (reached : magnitude? coefficient exponent = some number)
    (sum : number.high + number.low =
      ofRatio false (coefficient * 10 ^ exponent.toNat) (10 ^ (-exponent).toNat)) :
    (⟨negative, coefficient, exponent⟩ : Decimal).approximate =
      (⟨negative, coefficient, exponent⟩ : Decimal).toBinary64 := by
  rw [approximate, reached, toBinary64_eq short least most]
  dsimp only
  rw [sum, ofRatio, ofRatio, if_neg Bool.false_ne_true]

/-- A whole number of 64 bits is approximated by the nearest double. -/
theorem approximate_of_whole {negative : Bool} {coefficient : Nat} (short : coefficient < 2 ^ 64) :
    (⟨negative, coefficient, 0⟩ : Decimal).approximate =
      (⟨negative, coefficient, 0⟩ : Decimal).toBinary64 := by
  have reached : magnitude? coefficient 0 = some (Wide.ofWord coefficient) := rfl
  refine approximate_eq_of_magnitude (short.trans (by decide)) (by decide) (by decide) reached ?_
  rw [Wide.add_ofWord short, ofInt_natCast_eq]
  simp only [Int.neg_zero, Int.toNat_zero, Nat.pow_zero, Nat.mul_one]

theorem reduce_zero (places : Nat) : reduce 0 places = (0, 0) := by
  induction places with
  | zero => rfl
  | succ places step => rw [reduce, if_pos (Nat.zero_mod 10), Nat.zero_div, step]

/-- Zero has no places. -/
theorem magnitude?_zero (exponent : Int) : magnitude? 0 exponent = some (Wide.ofWord 0) := by
  cases exponent with
  | ofNat places =>
      rw [magnitude?, extend_eq (by rw [Nat.zero_mul]; decide), Nat.zero_mul]
      rfl
  | negSucc places =>
      rw [magnitude?, reduce_zero]
      rfl

theorem approximate_of_zero {decimal : Decimal} (zero : decimal.coefficient = 0) :
    decimal.approximate = decimal.toBinary64 := by
  have nothing : (Wide.ofWord 0).high + (Wide.ofWord 0).low = ⟨0⟩ := by
    rw [Wide.add_ofWord (by decide), Nat.cast_zero, ofInt_eq (by decide), Int.zero_mul]
  have target : decimal.toBinary64 = ⟨0⟩ := if_pos (Or.inl zero)
  rw [approximate, zero, magnitude?_zero, target]
  dsimp only
  rw [nothing, Int.neg_zero, ite_self]

/-- Places that a word has room for make it longer. -/
theorem magnitude?_ofNat {coefficient places : Nat} (short : coefficient * 10 ^ places < 2 ^ 53) :
    magnitude? coefficient (.ofNat places) = some (Wide.ofWord (coefficient * 10 ^ places)) := by
  rw [magnitude?, extend_eq short]
  rfl

/-- A few places after the point make a word a quotient. -/
theorem exists_magnitude?_negSucc {coefficient places : Nat} (nonzero : coefficient ≠ 0)
    (short : coefficient < 2 ^ 53) (few : places < 9) :
    ∃ last, magnitude? coefficient (.negSucc places) = some last ∧
      last.high + last.low = ofRatio false coefficient (10 ^ (places + 1)) := by
  obtain ⟨taken, split, rest⟩ := exists_reduce_eq coefficient (places + 1)
  rw [magnitude?]
  generalize reduce coefficient (places + 1) = reduced at split rest ⊢
  obtain ⟨word, steps⟩ := reduced
  dsimp only at split rest ⊢
  have positive : 0 < 10 ^ taken := Nat.pow_pos (by decide)
  have wordSome : word ≠ 0 := by
    rintro rfl
    exact nonzero (split.trans (Nat.zero_mul _))
  have wordShort : word < 2 ^ 53 :=
    Nat.lt_of_le_of_lt (Nat.le_mul_of_pos_right word positive) (split ▸ short)
  obtain ⟨last, reached, sum, finite⟩ :=
    Wide.exists_shift_eq wordSome wordShort (show steps ≤ 9 by omega)
  refine ⟨last, reached, ?_⟩
  have same : rounded (coefficient * oneUnits) (10 ^ (places + 1)) =
      rounded (word * oneUnits) (10 ^ steps) := by
    rw [rest, Nat.pow_add, split, Nat.mul_right_comm, rounded_scaled _ _ positive]
  rw [sum, ofRatio, if_neg Bool.false_ne_true, nearestUnits_eq, same, Nat.min_eq_left finite]

/-- A decimal number of few digits: they are below 2^53, and at most nine places from the point. -/
def IsShort (decimal : Decimal) : Prop :=
  decimal.coefficient * 10 ^ decimal.exponent.toNat < 2 ^ 53 ∧ decimal.exponent.natAbs ≤ 9

instance (decimal : Decimal) : Decidable decimal.IsShort :=
  inferInstanceAs (Decidable (_ ∧ _))

theorem IsShort.coefficient_lt {decimal : Decimal} (short : decimal.IsShort) :
    decimal.coefficient < 2 ^ 53 :=
  Nat.lt_of_le_of_lt (Nat.le_mul_of_pos_right _ (Nat.pow_pos (by decide))) short.1

/-- A decimal number of few digits is approximated by the nearest double. -/
theorem approximate_of_isShort {decimal : Decimal} (isShort : decimal.IsShort) :
    decimal.approximate = decimal.toBinary64 := by
  by_cases zero : decimal.coefficient = 0
  · exact approximate_of_zero zero
  have shorter := isShort.coefficient_lt
  obtain ⟨short, few⟩ := isShort
  obtain ⟨negative, coefficient, exponent⟩ := decimal
  dsimp only at zero shorter short few
  rcases Int.eq_nat_or_neg exponent with ⟨places, rfl | rfl⟩
  · rw [Int.toNat_natCast] at short
    refine approximate_eq_of_magnitude (shorter.trans (by decide)) (by omega) (by omega)
      (magnitude?_ofNat short) ?_
    rw [Wide.add_ofWord (Nat.lt_trans short (by decide)), ofInt_natCast_eq, Int.toNat_natCast,
      Int.toNat_neg_natCast, Nat.pow_zero]
  · cases places with
    | zero => exact approximate_of_whole (shorter.trans (by decide))
    | succ places =>
        obtain ⟨last, reached, sum⟩ :=
          exists_magnitude?_negSucc zero shorter (show places < 9 by omega)
        refine approximate_eq_of_magnitude (shorter.trans (by decide)) (by omega) (by omega)
          reached ?_
        rw [sum, Int.toNat_neg_natCast, Int.neg_neg, Int.toNat_natCast, Nat.pow_zero, Nat.mul_one]

end Decimal

end AnnexCatalog
