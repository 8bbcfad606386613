import AnnexCatalog.Number.Arithmetic
import Mathlib.Algebra.Field.Rat
import Mathlib.Algebra.Order.Field.Basic
import Mathlib.Algebra.Order.Ring.Rat
import Mathlib.Data.Nat.Cast.Order.Field
import Mathlib.Tactic.FieldSimp
import Mathlib.Tactic.Linarith
import Mathlib.Tactic.Positivity
import Mathlib.Tactic.Ring

/-! # Rounding to doubles

A fraction of units is rounded to a double, and no double is nearer to it (`rounded_closest`). So it
misses by no more than 2^-53 of the fraction, or half a unit where that is small. What is very near to
a decimal number of few digits is rounded to the same double as that number (`rounded_eq_of_near`),
since no such number is near to a point halfway between two doubles without being that point.
-/

namespace AnnexCatalog.Binary64

/-! ### Rounding to integers -/

/-- The nearest integer misses a fraction by at most a half. -/
theorem roundHalfEven_bounds (numerator : Nat) {denominator : Nat} (positive : 0 < denominator) :
    2 * numerator ≤ 2 * (roundHalfEven numerator denominator * denominator) + denominator ∧
      2 * (roundHalfEven numerator denominator * denominator) ≤ 2 * numerator + denominator := by
  have whole := Nat.div_add_mod numerator denominator
  have inside := Nat.mod_lt numerator positive
  have commuted := Nat.mul_comm denominator (numerator / denominator)
  unfold roundHalfEven
  dsimp only
  split
  · rw [Nat.add_mul, Nat.one_mul]
    omega
  · omega

/-- A fraction is rounded alike in other terms. -/
theorem roundHalfEven_mul_right (numerator denominator : Nat) {factor : Nat}
    (positive : 0 < factor) :
    roundHalfEven (numerator * factor) (denominator * factor) =
      roundHalfEven numerator denominator := by
  unfold roundHalfEven
  dsimp only
  rw [Nat.mul_div_mul_right _ _ positive, Nat.mul_mod_mul_right, ← Nat.mul_assoc]
  have less : denominator * factor < 2 * (numerator % denominator) * factor ↔
      denominator < 2 * (numerator % denominator) := Nat.mul_lt_mul_right positive
  have same : 2 * (numerator % denominator) * factor = denominator * factor ↔
      2 * (numerator % denominator) = denominator := Nat.mul_left_inj (Nat.ne_of_gt positive)
  simp only [less, same]

/-- An integer is not rounded. -/
theorem roundHalfEven_mul (quotient : Nat) {denominator : Nat} (positive : 0 < denominator) :
    roundHalfEven (quotient * denominator) denominator = quotient := by
  unfold roundHalfEven
  dsimp only
  rw [Nat.mul_mod_left, Nat.mul_div_cancel _ positive, if_neg]
  omega

/-! ### Spacing -/

/-- The distance between neighbouring numbers is a power of two. -/
theorem exists_spacing_eq (units : Nat) : ∃ exponent, spacing units = 2 ^ exponent := by
  unfold spacing
  split
  · exact ⟨0, rfl⟩
  · exact ⟨_, rfl⟩

theorem spacing_pos (units : Nat) : 0 < spacing units := by
  obtain ⟨exponent, same⟩ := exists_spacing_eq units
  exact same ▸ Nat.two_pow_pos exponent

/-- 2^52 spaces are not more than a magnitude that is not small. -/
theorem mul_spacing_le_of_le {units : Nat} (large : 2 ^ 53 ≤ units) :
    2 ^ 52 * spacing units ≤ units := by
  have some : units ≠ 0 := by omega
  have enough : 53 ≤ units.log2 := (Nat.le_log2 some).mpr large
  have least := Nat.log2_self_le some
  have split : 2 ^ units.log2 = 2 ^ 52 * Nat.pow 2 (units.log2 - 52) := by
    change _ = 2 ^ 52 * 2 ^ (units.log2 - 52)
    rw [← Nat.pow_add]
    congr 1
    omega
  have large' : ¬ units < Nat.pow 2 53 := Nat.not_lt.mpr large
  rw [spacing, if_neg large']
  omega

/-- 2^52 spaces are not more than a magnitude, unless it is small. -/
theorem mul_spacing_le (units : Nat) : 2 ^ 52 * spacing units ≤ units + 2 ^ 52 := by
  rcases Nat.lt_or_ge units (2 ^ 53) with small | large
  · have fine : units < Nat.pow 2 53 := small
    rw [spacing, if_pos fine]
    omega
  · exact Nat.le_add_right_of_le (mul_spacing_le_of_le large)

/-- 2^53 spaces are more than the magnitude. -/
theorem lt_mul_spacing (units : Nat) : units < 2 ^ 53 * spacing units := by
  unfold spacing
  split
  · next small => exact (Nat.mul_one (2 ^ 53)).symm ▸ small
  · next large =>
      have some : units ≠ 0 := by
        rintro rfl
        exact large (by decide)
      have enough : 53 ≤ units.log2 := (Nat.le_log2 some).mpr (Nat.not_lt.mp large)
      have most := Nat.lt_log2_self (n := units)
      have split : 2 ^ (units.log2 + 1) = 2 ^ 53 * Nat.pow 2 (units.log2 - 52) := by
        change _ = 2 ^ 53 * 2 ^ (units.log2 - 52)
        rw [← Nat.pow_add]
        congr 1
        omega
      omega

/-- Larger magnitudes have coarser grids. -/
theorem spacing_dvd_spacing {first second : Nat} (least : first ≤ second) :
    spacing first ∣ spacing second := by
  unfold spacing
  split
  · exact Nat.one_dvd _
  · next large =>
      rw [if_neg (by omega)]
      have some : first ≠ 0 := by
        rintro rfl
        exact large (by decide)
      have logs : first.log2 ≤ second.log2 :=
        (Nat.le_log2 (by omega)).mpr (Nat.le_trans (Nat.log2_self_le some) least)
      exact Nat.pow_dvd_pow 2 (by omega)


/-! ### Magnitudes of doubles -/

/-- A magnitude that some double has. -/
def IsRepresentable (units : Nat) : Prop :=
  spacing units ∣ units

/-- A significand of 53 binary digits is that of a double. -/
theorem isRepresentable_mul_two_pow {significand : Nat} (short : significand ≤ 2 ^ 53)
    (exponent : Nat) : IsRepresentable (significand * 2 ^ exponent) := by
  obtain ⟨grid, same⟩ := exists_spacing_eq (significand * 2 ^ exponent)
  rw [IsRepresentable, same]
  rcases Nat.lt_or_ge (significand * 2 ^ exponent) (2 ^ 53) with small | large
  · have small' : significand * 2 ^ exponent < Nat.pow 2 53 := small
    rw [spacing, if_pos small'] at same
    rw [← same]
    exact Nat.one_dvd _
  · have least := mul_spacing_le_of_le large
    rw [same, ← Nat.pow_add] at least
    rcases Nat.lt_or_eq_of_le short with below | most
    · have bound : 2 ^ (52 + grid) < 2 ^ (53 + exponent) := by
        rw [Nat.pow_add 2 53]
        exact Nat.lt_of_le_of_lt least (Nat.mul_lt_mul_of_pos_right below (Nat.two_pow_pos _))
      have order := (Nat.pow_lt_pow_iff_right (by decide)).mp bound
      exact (Nat.pow_dvd_pow 2 (by omega)).mul_left _
    · rw [most, ← Nat.pow_add] at least ⊢
      have order := (Nat.pow_le_pow_iff_right (by decide)).mp least
      exact Nat.pow_dvd_pow 2 (by omega)

/-- The fraction of units rounded to the nearest magnitude, however large that is. -/
def rounded (numerator denominator : Nat) : Nat :=
  let grid := spacing (numerator / denominator)
  roundHalfEven numerator (denominator * grid) * grid

/-- What is beyond the finite range is rounded to its end. -/
theorem nearestUnits_eq (numerator denominator : Nat) :
    nearestUnits numerator denominator =
      min (rounded (numerator * oneUnits) denominator) infiniteUnits := rfl

/-- One has 1074 binary digits more than the unit. -/
theorem oneUnits_eq {exponent : Nat} (one : exponent = 1074) : oneUnits = 2 ^ exponent := by
  rw [one]
  decide +kernel

theorem oneUnits_pos : 0 < oneUnits := by
  decide +kernel

/-- A fraction is rounded alike in other terms. -/
theorem rounded_scaled (numerator denominator : Nat) {scale : Nat} (positive : 0 < scale) :
    rounded (numerator * scale) (denominator * scale) = rounded numerator denominator := by
  rw [rounded, rounded, Nat.mul_div_mul_right _ _ positive, Nat.mul_right_comm,
    roundHalfEven_mul_right _ _ positive]

/-- The magnitude nearest to a fraction of units. -/
theorem nearestUnits_scaled (numerator denominator : Nat) :
    nearestUnits numerator (denominator * oneUnits) =
      min (rounded numerator denominator) infiniteUnits := by
  rw [nearestUnits_eq, rounded_scaled numerator denominator oneUnits_pos]

/-- The least magnitude with a spacing is on the coarser grid. -/
theorem spacing_mul_two_pow (exponent : Nat) :
    spacing (2 ^ 52 * 2 ^ exponent) = 2 ^ exponent := by
  rw [← Nat.pow_add, spacing, Nat.log2_two_pow, Nat.add_sub_cancel_left]
  split
  · next small =>
      have below : 2 ^ (52 + exponent) < 2 ^ 53 := small
      have order := (Nat.pow_lt_pow_iff_right (by decide)).mp below
      have none : exponent = 0 := by omega
      rw [none]
      rfl
  · rfl

section Rounded

variable (numerator : Nat) {denominator : Nat} (positive : 0 < denominator)
include positive

/-- A fraction is rounded by at most half the distance between the numbers next to it. -/
theorem rounded_bounds :
    2 * numerator ≤
        2 * (rounded numerator denominator * denominator) +
          denominator * spacing (numerator / denominator) ∧
      2 * (rounded numerator denominator * denominator) ≤
        2 * numerator + denominator * spacing (numerator / denominator) := by
  have bounds := roundHalfEven_bounds numerator
    (Nat.mul_pos positive (spacing_pos (numerator / denominator)))
  have same : roundHalfEven numerator (denominator * spacing (numerator / denominator)) *
      (denominator * spacing (numerator / denominator)) =
        rounded numerator denominator * denominator := by
    rw [rounded, Nat.mul_comm denominator, ← Nat.mul_assoc]
  rwa [same] at bounds

/-- The magnitude of a double is not rounded. -/
theorem rounded_mul_of_isRepresentable {units : Nat} (exact : IsRepresentable units) :
    rounded (units * denominator) denominator = units := by
  obtain ⟨quotient, whole⟩ := exact
  have split : units * denominator = quotient * (denominator * spacing units) := by
    calc units * denominator = spacing units * quotient * denominator :=
          congrArg (· * denominator) whole
      _ = quotient * (denominator * spacing units) := by
          rw [Nat.mul_comm (spacing units), Nat.mul_assoc, Nat.mul_comm denominator]
  rw [rounded, Nat.mul_div_cancel _ positive, split,
    roundHalfEven_mul _ (Nat.mul_pos positive (spacing_pos units)), Nat.mul_comm]
  exact whole.symm

/-- What is rounded is the magnitude of a double. -/
theorem isRepresentable_rounded : IsRepresentable (rounded numerator denominator) := by
  obtain ⟨exponent, same⟩ := exists_spacing_eq (numerator / denominator)
  have upper := (rounded_bounds numerator positive).2
  have top : numerator < 2 ^ 53 * spacing (numerator / denominator) * denominator :=
    (Nat.div_lt_iff_lt_mul positive).mp (lt_mul_spacing _)
  have room := Nat.mul_pos positive (spacing_pos (numerator / denominator))
  have short : roundHalfEven numerator (denominator * spacing (numerator / denominator)) ≤
      2 ^ 53 := by
    by_contra long
    have least := Nat.mul_le_mul_right (denominator * spacing (numerator / denominator))
      (Nat.not_le.mp long)
    have whole : rounded numerator denominator * denominator =
        roundHalfEven numerator (denominator * spacing (numerator / denominator)) *
          (denominator * spacing (numerator / denominator)) := by
      rw [rounded, Nat.mul_comm denominator, ← Nat.mul_assoc]
    rw [whole] at upper
    rw [Nat.succ_mul] at least
    have commuted : 2 ^ 53 * spacing (numerator / denominator) * denominator =
        2 ^ 53 * (denominator * spacing (numerator / denominator)) := by
      rw [Nat.mul_assoc, Nat.mul_comm (spacing _)]
    omega
  rw [rounded]
  rw [same] at short ⊢
  exact isRepresentable_mul_two_pow short exponent

/-- What is a whole multiple of a power of two is rounded to one. -/
theorem dvd_rounded {units exponent : Nat} (multiple : 2 ^ exponent ∣ units) :
    2 ^ exponent ∣ rounded (units * denominator) denominator := by
  obtain ⟨grid, same⟩ := exists_spacing_eq units
  rcases Nat.le_total exponent grid with fine | coarse
  · rw [rounded, Nat.mul_div_cancel _ positive, same]
    exact (Nat.pow_dvd_pow 2 fine).mul_left _
  · have exact : IsRepresentable units := by
      rw [IsRepresentable, same]
      exact (Nat.pow_dvd_pow 2 coarse).trans multiple
    rwa [rounded_mul_of_isRepresentable positive exact]

/-- A multiple of the grid is not nearer to a fraction than the one that it is rounded to. -/
theorem rounded_closest_of_dvd {units : Nat}
    (multiple : spacing (numerator / denominator) ∣ units) :
    ((numerator : Int) - (rounded numerator denominator * denominator : Nat)).natAbs ≤
      ((numerator : Int) - (units * denominator : Nat)).natAbs := by
  obtain ⟨lower, upper⟩ := rounded_bounds numerator positive
  obtain ⟨other, rfl⟩ := multiple
  have whole : rounded numerator denominator * denominator =
      roundHalfEven numerator (denominator * spacing (numerator / denominator)) *
        (denominator * spacing (numerator / denominator)) := by
    rw [rounded, Nat.mul_comm denominator, ← Nat.mul_assoc]
  have moved : spacing (numerator / denominator) * other * denominator =
      other * (denominator * spacing (numerator / denominator)) := by
    rw [Nat.mul_comm (spacing _), Nat.mul_assoc, Nat.mul_comm denominator]
  have width : denominator * spacing (numerator / denominator) =
      1 * (denominator * spacing (numerator / denominator)) := (Nat.one_mul _).symm
  rw [whole] at lower upper ⊢
  rw [moved]
  generalize roundHalfEven numerator (denominator * spacing (numerator / denominator)) = best
    at lower upper ⊢
  generalize denominator * spacing (numerator / denominator) = grid at lower upper ⊢
  rcases Nat.lt_trichotomy best other with below | rfl | above
  · have step := Nat.mul_le_mul_right grid (Nat.succ_le_of_lt below)
    rw [Nat.succ_mul] at step
    omega
  · exact Nat.le_refl _
  · have step := Nat.mul_le_mul_right grid (Nat.succ_le_of_lt above)
    rw [Nat.succ_mul] at step
    omega

/-- No double is nearer to a fraction than the one that it is rounded to. -/
theorem rounded_closest {units : Nat} (exact : IsRepresentable units) :
    ((numerator : Int) - (rounded numerator denominator * denominator : Nat)).natAbs ≤
      ((numerator : Int) - (units * denominator : Nat)).natAbs := by
  obtain ⟨exponent, same⟩ := exists_spacing_eq (numerator / denominator)
  by_cases multiple : spacing (numerator / denominator) ∣ units
  · exact rounded_closest_of_dvd numerator positive multiple
  -- A double off the grid lies below the least magnitude with that grid, which is nearer.
  have least : 2 ^ 52 * 2 ^ exponent ≤ numerator / denominator := by
    rw [← same]
    refine mul_spacing_le_of_le ?_
    by_contra small
    have fine : numerator / denominator < Nat.pow 2 53 := Nat.not_le.mp small
    rw [spacing, if_pos fine] at multiple
    exact multiple (Nat.one_dvd _)
  have below : units < 2 ^ 52 * 2 ^ exponent := by
    by_contra above
    have divides := spacing_dvd_spacing (Nat.not_lt.mp above)
    rw [spacing_mul_two_pow] at divides
    exact multiple (same ▸ divides.trans exact)
  have nearest := rounded_closest_of_dvd numerator positive
    (same ▸ Nat.dvd_mul_left _ _ : spacing (numerator / denominator) ∣ 2 ^ 52 * 2 ^ exponent)
  have reached := (Nat.le_div_iff_mul_le positive).mp least
  have shorter := Nat.mul_le_mul_right denominator (Nat.le_of_lt below)
  omega

/-- A fraction is rounded by no more than 2^-53 of it, or half a unit where it is small. -/
theorem abs_rounded_sub_le :
    |(rounded numerator denominator : ℚ) - numerator / denominator| ≤
      numerator / denominator / 2 ^ 53 + 1 / 2 := by
  obtain ⟨lower, upper⟩ := rounded_bounds numerator positive
  have some : (0 : ℚ) < denominator := Nat.cast_pos.mpr positive
  have grid : (2 ^ 52 * spacing (numerator / denominator) : ℚ) ≤
      numerator / denominator + 2 ^ 52 := by
    have least : (2 ^ 52 * spacing (numerator / denominator) : ℚ) ≤
        (numerator / denominator : ℕ) + 2 ^ 52 := mod_cast mul_spacing_le (numerator / denominator)
    have floor : ((numerator / denominator : ℕ) : ℚ) ≤ numerator / denominator := Nat.cast_div_le
    linarith
  generalize spacing (numerator / denominator) = space at lower upper grid
  generalize rounded numerator denominator = best at lower upper ⊢
  have below : (2 * numerator : ℚ) ≤ 2 * (best * denominator) + denominator * space :=
    mod_cast lower
  have above : (2 * (best * denominator) : ℚ) ≤ 2 * numerator + denominator * space :=
    mod_cast upper
  have value : (numerator : ℚ) = numerator / denominator * denominator := by field_simp
  generalize (numerator / denominator : ℚ) = fraction at value grid ⊢
  rw [value] at below above
  have least : 2 * fraction ≤ 2 * best + space := by
    refine le_of_mul_le_mul_right ?_ some
    linarith
  have most : 2 * best ≤ 2 * fraction + space := by
    refine le_of_mul_le_mul_right ?_ some
    linarith
  rw [abs_le]
  constructor <;> linarith

end Rounded

/-! ### Short decimal numbers -/

/-- An integer that is not small is rounded by no more than 2^-53 of it. -/
theorem mul_natAbs_rounded_sub_le {units : Nat} (large : 2 ^ 53 ≤ units) :
    2 ^ 53 * ((units : Int) - rounded units 1).natAbs ≤ units := by
  obtain ⟨lower, upper⟩ := rounded_bounds units Nat.one_pos
  have grid := mul_spacing_le_of_le large
  rw [Nat.div_one, Nat.one_mul, Nat.mul_one] at lower upper
  omega

/-- A decimal number of few digits is not close to a point halfway between two doubles, unless it is
that point. -/
theorem eq_halfway {coefficient places scale first second : Nat} (short : coefficient < 2 ^ 53)
    (few : places ≤ 9) (firstExact : IsRepresentable first) (secondExact : IsRepresentable second)
    (firstLarge : coefficient * 2 ^ scale ≤ 4 * (first * 10 ^ places))
    (secondLarge : coefficient * 2 ^ scale ≤ 4 * (second * 10 ^ places))
    (near : 2 ^ 80 * (2 * (coefficient * 2 ^ scale : Nat) -
      ((first + second) * 10 ^ places : Nat) : Int).natAbs ≤ 2 * (coefficient * 2 ^ scale)) :
    2 * (coefficient * 2 ^ scale) = (first + second) * 10 ^ places := by
  obtain ⟨grid, same⟩ := exists_spacing_eq (min first second)
  have ten : 10 ^ places = 2 ^ places * 5 ^ places := by rw [← Nat.mul_pow]
  have onGrid {units : Nat} (exact : IsRepresentable units) (least : min first second ≤ units) :
      2 ^ grid ∣ units := same ▸ (spacing_dvd_spacing least).trans exact
  have sum : 2 ^ (grid + places) ∣ (first + second) * 10 ^ places := by
    rw [Nat.pow_add, ten]
    exact Nat.mul_dvd_mul ((onGrid firstExact (Nat.min_le_left ..)).add
      (onGrid secondExact (Nat.min_le_right ..))) (Nat.dvd_mul_right _ _)
  have size : coefficient * 2 ^ scale < 2 ^ 79 * 2 ^ (grid + places) := by
    have most := lt_mul_spacing (min first second)
    have five : 5 ^ places ≤ 2 ^ 21 :=
      (Nat.pow_le_pow_right (by decide) few).trans (by decide)
    have least : coefficient * 2 ^ scale ≤ 4 * (min first second * 10 ^ places) := by
      rcases Nat.le_total first second with order | order
      · rwa [Nat.min_eq_left order]
      · rwa [Nat.min_eq_right order]
    rw [same] at most
    calc coefficient * 2 ^ scale ≤ 4 * (min first second * 10 ^ places) := least
      _ ≤ 4 * (2 ^ 53 * 2 ^ grid * (2 ^ places * 2 ^ 21)) := by
          rw [ten]
          gcongr
      _ = 2 ^ 76 * 2 ^ (grid + places) := by ring
      _ < 2 ^ 79 * 2 ^ (grid + places) :=
          Nat.mul_lt_mul_of_pos_right (by decide) (Nat.two_pow_pos _)
  have least : 2 ^ min scale (grid + places) ∣
      (2 * (coefficient * 2 ^ scale : Nat) -
        ((first + second) * 10 ^ places : Nat) : Int).natAbs := by
    rw [← Int.natCast_dvd]
    refine Int.dvd_sub (Int.natCast_dvd_natCast.mpr ?_ |>.mul_left 2)
      (Int.natCast_dvd_natCast.mpr ?_)
    · exact (Nat.pow_dvd_pow 2 (Nat.min_le_left ..)).mul_left _
    · exact (Nat.pow_dvd_pow 2 (Nat.min_le_right ..)).trans sum
  by_contra apart
  -- What is on a grid and smaller than its spacing is zero.
  have wide := Nat.le_of_dvd (by omega) least
  rcases Nat.le_total scale (grid + places) with coarse | fine
  · rw [Nat.min_eq_left coarse] at wide
    have below := Nat.mul_lt_mul_of_pos_right short (Nat.two_pow_pos scale)
    omega
  · rw [Nat.min_eq_right fine] at wide
    omega

/-- A decimal number that is halfway between two integers is a double, if it has few digits. -/
theorem exists_eq_of_halfway {coefficient places scale sum : Nat} (room : places ≤ scale)
    (halfway : 2 * (coefficient * 2 ^ scale) = sum * 10 ^ places) :
    ∃ significand ≤ coefficient,
      coefficient * 2 ^ scale = significand * 2 ^ (scale - places) * 10 ^ places := by
  have ten : 10 ^ places = 5 ^ places * 2 ^ places := by rw [← Nat.mul_pow]
  have divides : 5 ^ places ∣ 2 ^ (scale + 1) * coefficient := by
    refine ⟨sum * 2 ^ places, ?_⟩
    calc 2 ^ (scale + 1) * coefficient = 2 * (coefficient * 2 ^ scale) := by ring
      _ = 5 ^ places * (sum * 2 ^ places) := by
          rw [halfway, ten]
          ring
  have coprime : Nat.Coprime (5 ^ places) (2 ^ (scale + 1)) := Nat.Coprime.pow _ _ (by decide)
  obtain ⟨significand, rfl⟩ := coprime.dvd_of_dvd_mul_left divides
  refine ⟨significand, Nat.le_mul_of_pos_left _ (Nat.pow_pos (by decide)), ?_⟩
  have split : 2 ^ scale = 2 ^ (scale - places) * 2 ^ places := by
    rw [← Nat.pow_add, Nat.sub_add_cancel room]
  rw [split, ten]
  ring

/-- What is very near to a decimal number of few digits is rounded to the same double. -/
theorem rounded_eq_of_near {coefficient places scale units : Nat} (short : coefficient < 2 ^ 53)
    (few : places ≤ 9) (room : 100 ≤ scale) (some : coefficient ≠ 0)
    (near : 2 ^ 80 * ((coefficient * 2 ^ scale : Nat) - (units * 10 ^ places : Nat) : Int).natAbs ≤
      coefficient * 2 ^ scale) :
    rounded units 1 = rounded (coefficient * 2 ^ scale) (10 ^ places) := by
  have positive : 0 < 10 ^ places := Nat.pow_pos (by decide)
  have ten : 10 ^ places ≤ 2 ^ 30 := (Nat.pow_le_pow_right (by decide) few).trans (by decide)
  have large : 2 ^ 100 ≤ coefficient * 2 ^ scale :=
    (Nat.pow_le_pow_right (by decide) room).trans
      (Nat.le_mul_of_pos_left _ (Nat.pos_of_ne_zero some))
  have enough : 2 ^ 53 ≤ units := by
    by_contra small
    have below := Nat.mul_le_mul (Nat.le_of_lt (Nat.not_le.mp small)) ten
    omega
  have exact := isRepresentable_rounded units Nat.one_pos
  have otherExact := isRepresentable_rounded (coefficient * 2 ^ scale) positive
  have closest := rounded_closest units Nat.one_pos otherExact
  have otherClosest := rounded_closest (coefficient * 2 ^ scale) positive exact
  have half : coefficient * 2 ^ scale ≤ 4 * (rounded units 1 * 10 ^ places) := by
    have error := mul_natAbs_rounded_sub_le enough
    have twice := Nat.mul_le_mul_right (10 ^ places)
      (show units ≤ 2 * rounded units 1 by omega)
    rw [Nat.mul_assoc] at twice
    omega
  have otherHalf : coefficient * 2 ^ scale ≤
      4 * (rounded (coefficient * 2 ^ scale) (10 ^ places) * 10 ^ places) := by
    have least := (rounded_bounds (coefficient * 2 ^ scale) positive).1
    have grid := Nat.mul_le_mul_left (10 ^ places)
      (mul_spacing_le (coefficient * 2 ^ scale / 10 ^ places))
    have floor := Nat.mul_div_le (coefficient * 2 ^ scale) (10 ^ places)
    rw [Nat.mul_add, Nat.mul_left_comm] at grid
    omega
  by_contra apart
  have halfway := eq_halfway short few exact otherExact half otherHalf (by
    rw [Nat.add_mul]
    rcases Nat.lt_or_gt_of_ne apart with below | above
    · have order := Nat.mul_lt_mul_of_pos_right below positive
      have side := Nat.mul_le_mul_right (10 ^ places) (by omega :
        2 * units ≤ rounded units 1 + rounded (coefficient * 2 ^ scale) (10 ^ places))
      rw [Nat.mul_assoc, Nat.add_mul] at side
      omega
    · have order := Nat.mul_lt_mul_of_pos_right above positive
      have side := Nat.mul_le_mul_right (10 ^ places) (by omega :
        rounded units 1 + rounded (coefficient * 2 ^ scale) (10 ^ places) ≤ 2 * units)
      rw [Nat.mul_assoc, Nat.add_mul] at side
      omega)
  obtain ⟨significand, most, whole⟩ := exists_eq_of_halfway (by omega) halfway
  have kept := rounded_mul_of_isRepresentable positive
    (isRepresentable_mul_two_pow (by omega : significand ≤ 2 ^ 53) (scale - places))
  rw [← whole] at kept
  rw [← kept] at whole
  rw [Nat.add_mul] at halfway
  exact apart (Nat.eq_of_mul_eq_mul_right positive (by omega))

end AnnexCatalog.Binary64
