import AnnexCatalog.Proofs.Number.Rounding

/-! # Sums, differences and products of doubles

What is a double is computed exactly; everything else misses by no more than 2^-53 of a bound, or
half a unit. The digits of a sum that its double has lost are found again by subtracting
(`add_sub_add`), and a significand is the sum of its halves, which are multiplied exactly.
-/

namespace AnnexCatalog.Binary64

/-! ### Fractions -/

/-- A ratio is rounded in units without its sign, which is kept. -/
theorem units_ofRatio (negative : Bool) (numerator denominator : Nat) :
    (ofRatio negative numerator denominator).units =
      if negative then -(nearestUnits numerator denominator : Int)
      else nearestUnits numerator denominator := by
  rw [ofRatio]
  split <;> rfl

/-- What is a number is not rounded. -/
theorem ofUnits_of_isRepresentable {numerator units : Int} {denominator : Nat}
    (positive : 0 < denominator) (exact : IsRepresentable units.natAbs)
    (finite : units.natAbs ≤ infiniteUnits) (whole : numerator = units * denominator) :
    ofUnits numerator denominator = ⟨units⟩ := by
  have magnitude : numerator.natAbs = units.natAbs * denominator := by
    rw [whole, Int.natAbs_mul, Int.natAbs_natCast]
  have sign : numerator < 0 ↔ units < 0 := by
    have some : (0 : Int) < denominator := Int.natCast_pos.mpr positive
    rw [whole]
    refine ⟨fun below => ?_, fun below => Int.mul_neg_of_neg_of_pos below some⟩
    by_contra above
    exact absurd (Int.mul_nonneg (Int.not_lt.mp above) some.le) (Int.not_le.mpr below)
  rw [ofUnits, ofRatio, nearestUnits_scaled, magnitude,
    rounded_mul_of_isRepresentable positive exact, Nat.min_eq_left finite]
  simp only [sign, decide_eq_true_eq]
  split
  · congr 1
    omega
  · congr 1
    omega

/-- A positive fraction inside the finite range is the double that it is rounded to. -/
theorem ofUnits_natCast {numerator denominator : Nat}
    (finite : rounded numerator denominator ≤ infiniteUnits) :
    ofUnits numerator denominator = ⟨rounded numerator denominator⟩ := by
  have sign : ¬ (numerator : Int) < 0 := by omega
  rw [ofUnits, ofRatio, nearestUnits_scaled, Int.natAbs_natCast, Nat.min_eq_left finite,
    decide_eq_false sign]
  rfl

/-- A fraction inside the finite range is rounded by no more than 2^-53 of it, or half a unit. -/
theorem abs_ofUnits_sub_le (numerator : Int) {denominator : Nat} (positive : 0 < denominator)
    (finite : |(numerator / denominator : ℚ)| * 2 + 1 ≤ infiniteUnits) :
    |((ofUnits numerator denominator).units : ℚ) - numerator / denominator| ≤
      |(numerator / denominator : ℚ)| / 2 ^ 53 + 1 / 2 := by
  have error := abs_rounded_sub_le numerator.natAbs positive
  have magnitude : |(numerator / denominator : ℚ)| = (numerator.natAbs : ℚ) / denominator := by
    rw [abs_div, Nat.abs_cast, Nat.cast_natAbs, Int.cast_abs]
  have inside : rounded numerator.natAbs denominator ≤ infiniteUnits := by
    have top := (abs_le.mp error).2
    have bound : (rounded numerator.natAbs denominator : ℚ) ≤ infiniteUnits := by
      have sign : (0 : ℚ) ≤ numerator.natAbs / denominator :=
        div_nonneg (Nat.cast_nonneg _) (Nat.cast_nonneg _)
      rw [magnitude] at finite
      linarith
    exact_mod_cast bound
  rw [ofUnits, units_ofRatio, nearestUnits_scaled, Nat.min_eq_left inside, magnitude]
  simp only [decide_eq_true_eq]
  split
  · next below =>
      have flipped : (numerator : ℚ) = -(numerator.natAbs : ℚ) := by
        rw [Nat.cast_natAbs, abs_of_neg below, Int.cast_neg, neg_neg]
      rw [flipped, neg_div, Int.cast_neg, Int.cast_natCast, ← neg_sub', abs_neg]
      exact error
  · next above =>
      have same : (numerator : ℚ) = (numerator.natAbs : ℚ) := by
        rw [Nat.cast_natAbs, abs_of_nonneg (Int.not_lt.mp above)]
      rw [same, Int.cast_natCast]
      exact error

/-! ### Operations -/

section Operations

variable {left right : Binary64}

/-- A sum that is a double is not rounded. -/
theorem add_of_isRepresentable {units : Int} (exact : IsRepresentable units.natAbs)
    (finite : units.natAbs ≤ infiniteUnits) (sum : left.units + right.units = units) :
    left + right = ⟨units⟩ :=
  ofUnits_of_isRepresentable Nat.one_pos exact finite (sum.trans (Int.mul_one units).symm)

/-- A difference that is a double is not rounded. -/
theorem sub_of_isRepresentable {units : Int} (exact : IsRepresentable units.natAbs)
    (finite : units.natAbs ≤ infiniteUnits) (difference : left.units - right.units = units) :
    left - right = ⟨units⟩ :=
  ofUnits_of_isRepresentable Nat.one_pos exact finite (difference.trans (Int.mul_one units).symm)

/-- A product that is a double is not rounded. -/
theorem mul_of_isRepresentable {units : Int} (exact : IsRepresentable units.natAbs)
    (finite : units.natAbs ≤ infiniteUnits)
    (product : left.units * right.units = units * oneUnits) : left * right = ⟨units⟩ :=
  ofUnits_of_isRepresentable oneUnits_pos exact finite product

/-- The magnitude of a rounded fraction. -/
theorem natAbs_units_ofUnits (numerator : Int) (denominator : Nat) :
    (ofUnits numerator denominator).units.natAbs =
      min (rounded numerator.natAbs denominator) infiniteUnits := by
  rw [ofUnits, units_ofRatio, nearestUnits_scaled]
  split <;> omega

/-- What is rounded is the magnitude of a double. -/
theorem isRepresentable_ofUnits (numerator : Int) {denominator : Nat} (positive : 0 < denominator) :
    IsRepresentable (ofUnits numerator denominator).units.natAbs := by
  rw [natAbs_units_ofUnits]
  rcases Nat.le_total (rounded numerator.natAbs denominator) infiniteUnits with inside | beyond
  · rw [Nat.min_eq_left inside]
    exact isRepresentable_rounded _ positive
  · rw [Nat.min_eq_right beyond]
    exact Nat.dvd_of_mod_eq_zero (by decide +kernel)

/-- A sum inside a bound is rounded by no more than 2^-53 of the bound, or half a unit. -/
theorem abs_add_sub_le (left right : Binary64) (bound : ℚ)
    (within : |(left.units + right.units : ℚ)| ≤ bound) (finite : bound * 2 + 1 ≤ infiniteUnits) :
    |((left + right).units : ℚ) - (left.units + right.units)| ≤ bound / 2 ^ 53 + 1 / 2 := by
  have error := abs_ofUnits_sub_le (left.units + right.units) Nat.one_pos
  rw [Nat.cast_one, div_one, Int.cast_add] at error
  exact (error (by linarith)).trans (by linarith)

/-- A difference inside a bound is rounded by no more than 2^-53 of the bound, or half a unit. -/
theorem abs_sub_sub_le (left right : Binary64) (bound : ℚ)
    (within : |(left.units - right.units : ℚ)| ≤ bound) (finite : bound * 2 + 1 ≤ infiniteUnits) :
    |((left - right).units : ℚ) - (left.units - right.units)| ≤ bound / 2 ^ 53 + 1 / 2 := by
  have error := abs_ofUnits_sub_le (left.units - right.units) Nat.one_pos
  rw [Nat.cast_one, div_one, Int.cast_sub] at error
  exact (error (by linarith)).trans (by linarith)

/-- A product inside a bound is rounded by no more than 2^-53 of the bound, or half a unit. -/
theorem abs_mul_sub_le (left right : Binary64) (bound : ℚ) {factor : Int} {place : Nat}
    (value : right.units * 2 ^ place = factor * oneUnits)
    (within : |(left.units * (factor / 2 ^ place) : ℚ)| ≤ bound)
    (finite : bound * 2 + 1 ≤ infiniteUnits) :
    |((left * right).units : ℚ) - left.units * (factor / 2 ^ place)| ≤ bound / 2 ^ 53 + 1 / 2 := by
  have positive : (0 : ℚ) < oneUnits := Nat.cast_pos.mpr oneUnits_pos
  have quotient : (right.units : ℚ) / oneUnits = factor / 2 ^ place := by
    rw [div_eq_div_iff positive.ne' (by positivity)]
    exact_mod_cast value
  have product : ((left.units * right.units : Int) / oneUnits : ℚ) =
      left.units * (factor / 2 ^ place) := by
    rw [Int.cast_mul, mul_div_assoc, quotient]
  have error := abs_ofUnits_sub_le (left.units * right.units) oneUnits_pos
  rw [product] at error
  exact (error (by linarith)).trans (by linarith)

/-- A multiple of a power of two is a double if it has 53 binary digits before that power. -/
theorem isRepresentable_of_dvd {units : Int} (exponent : Nat)
    (multiple : (2 ^ exponent : Int) ∣ units) (short : units.natAbs ≤ 2 ^ 53 * 2 ^ exponent) : IsRepresentable units.natAbs := by
  obtain ⟨quotient, rfl⟩ := multiple
  have magnitude : (2 ^ exponent * quotient).natAbs = quotient.natAbs * 2 ^ exponent := by
    rw [Int.natAbs_mul, Int.natAbs_pow, Nat.mul_comm]
    rfl
  rw [magnitude] at short ⊢
  exact isRepresentable_mul_two_pow (Nat.le_of_mul_le_mul_right short (Nat.two_pow_pos _)) _

/-- The sum of two magnitudes is rounded as an integer. -/
theorem add_natCast {first second : Nat} (large : 2 ^ 53 ≤ first + second)
    (finite : 2 * (first + second) ≤ infiniteUnits) :
    (⟨(first : Nat)⟩ + ⟨(second : Nat)⟩ : Binary64) = ⟨(rounded (first + second) 1 : Nat)⟩ := by
  have error := mul_natAbs_rounded_sub_le large
  exact ofUnits_natCast (by omega)

end Operations

theorem isFinite_of_abs_lt (number : Binary64) (inside : |(number.units : ℚ)| < infiniteUnits) :
    number.isFinite = true := by
  rw [← Int.cast_abs, Int.abs_eq_natAbs] at inside
  exact decide_eq_true (by exact_mod_cast inside)

/-- What the sum of a double and of a much smaller one has lost is found again by subtracting, up to
2^-98 of it. -/
theorem add_sub_add (first second : Binary64) (large : 2 ^ 190 ≤ (first.units : ℚ))
    (finite : 4 * (first.units : ℚ) ≤ infiniteUnits)
    (small : |(second.units : ℚ)| ≤ first.units / 2 ^ 48) :
    |((first + second).units : ℚ) - (first.units + second.units)| ≤ first.units / 2 ^ 52 ∧
    |((first - (first + second) + second).units : ℚ)| ≤ (first + second).units / 2 ^ 52 ∧
    |((first + second).units + (first - (first + second) + second).units : ℚ) -
      (first.units + second.units)| ≤ first.units / 2 ^ 98 := by
  obtain ⟨smallBelow, smallAbove⟩ := abs_le.mp small
  have sum := abs_add_sub_le first second (first.units + first.units / 2 ^ 48)
    (abs_le.mpr ⟨by linarith, by linarith⟩)
    (by linarith)
  generalize first + second = next at sum ⊢
  obtain ⟨sumBelow, sumAbove⟩ := abs_le.mp sum
  have lack := abs_sub_sub_le first next (first.units / 2 ^ 47)
    (abs_le.mpr ⟨by linarith, by linarith⟩) (by linarith)
  generalize first - next = lacking at lack ⊢
  obtain ⟨lackBelow, lackAbove⟩ := abs_le.mp lack
  have tail := abs_add_sub_le lacking second (first.units / 2 ^ 46)
    (abs_le.mpr ⟨by linarith, by linarith⟩) (by linarith)
  generalize lacking + second = rest at tail ⊢
  obtain ⟨tailBelow, tailAbove⟩ := abs_le.mp tail
  refine ⟨abs_le.mpr ⟨?_, ?_⟩, abs_le.mpr ⟨?_, ?_⟩, abs_le.mpr ⟨?_, ?_⟩⟩ <;> linarith

/-! ### Halves -/

/-- The first half of a significand. -/
theorem front_natCast {significand exponent : Nat}
    (grid : spacing (significand * 2 ^ exponent) = 2 ^ exponent) :
    front ⟨(significand * 2 ^ exponent : Nat)⟩ =
      ⟨(significand / 2 ^ 26 * 2 ^ (exponent + 26) : Nat)⟩ := by
  have split : 2 ^ exponent * Nat.pow 2 26 = 2 ^ (exponent + 26) := (Nat.pow_add ..).symm
  rw [front]
  dsimp only
  rw [Int.natAbs_natCast, grid, split, ← Int.ofNat_tdiv, Nat.pow_add, Nat.mul_comm (2 ^ exponent),
    Nat.mul_div_mul_right _ _ (Nat.two_pow_pos exponent), ← Nat.cast_mul]

/-- The second half of a significand. -/
theorem sub_front_natCast {significand exponent : Nat}
    (grid : spacing (significand * 2 ^ exponent) = 2 ^ exponent)
    (finite : significand * 2 ^ exponent ≤ infiniteUnits) :
    (⟨(significand * 2 ^ exponent : Nat)⟩ - front ⟨(significand * 2 ^ exponent : Nat)⟩ : Binary64) =
      ⟨(significand % 2 ^ 26 * 2 ^ exponent : Nat)⟩ := by
  have most := Nat.mul_le_mul_right (2 ^ exponent) (Nat.mod_le significand (2 ^ 26))
  have short : significand % 2 ^ 26 ≤ 2 ^ 53 := by omega
  have split : significand / 2 ^ 26 * 2 ^ (exponent + 26) + significand % 2 ^ 26 * 2 ^ exponent =
      significand * 2 ^ exponent := by
    calc significand / 2 ^ 26 * 2 ^ (exponent + 26) + significand % 2 ^ 26 * 2 ^ exponent =
          (2 ^ 26 * (significand / 2 ^ 26) + significand % 2 ^ 26) * 2 ^ exponent := by ring
      _ = significand * 2 ^ exponent := by rw [Nat.div_add_mod]
  rw [front_natCast grid]
  refine sub_of_isRepresentable ?_ ?_ ?_
  · rw [Int.natAbs_natCast]
    exact isRepresentable_mul_two_pow short exponent
  · rw [Int.natAbs_natCast]
    exact most.trans finite
  · dsimp only
    omega

/-- Doubles of few digits are multiplied exactly. -/
theorem mul_natCast {first second exponent other place : Nat} (short : first * second ≤ 2 ^ 53)
    (places : exponent + other = place + 1074)
    (finite : first * second * 2 ^ place ≤ infiniteUnits) :
    (⟨(first * 2 ^ exponent : Nat)⟩ * ⟨(second * 2 ^ other : Nat)⟩ : Binary64) =
      ⟨(first * second * 2 ^ place : Nat)⟩ := by
  obtain ⟨scale, one⟩ : ∃ scale, scale = 1074 := ⟨_, rfl⟩
  rw [← one] at places
  refine mul_of_isRepresentable ?_ ?_ ?_
  · rw [Int.natAbs_natCast]
    exact isRepresentable_mul_two_pow short place
  · rwa [Int.natAbs_natCast]
  · have product : first * 2 ^ exponent * (second * 2 ^ other) =
        first * second * 2 ^ place * oneUnits := by
      calc first * 2 ^ exponent * (second * 2 ^ other) =
            first * second * (2 ^ exponent * 2 ^ other) := by ring
        _ = first * second * (2 ^ place * 2 ^ scale) := by rw [← Nat.pow_add, places, Nat.pow_add]
        _ = first * second * 2 ^ place * oneUnits := by
            rw [oneUnits_eq one]
            ring
    dsimp only
    rw [← Nat.cast_mul, ← Nat.cast_mul, product]

/-! ### Whole numbers -/

/-- Whole numbers of 64 binary digits are far inside the finite range. -/
theorem oneUnits_mul_le (word : Nat) (short : word ≤ 2 ^ 64) :
    4 * (word * oneUnits) ≤ infiniteUnits :=
  (Nat.mul_le_mul_left 4 (Nat.mul_le_mul_right oneUnits short)).trans (by decide +kernel)

/-- A whole number is rounded as a fraction of units is. -/
theorem ofInt_eq_ofUnits (number : Int) : ofInt number = ofUnits (number * oneUnits) 1 := by
  have sign : number * oneUnits < 0 ↔ number < 0 := by
    refine ⟨fun below => ?_, fun below => Int.mul_neg_of_neg_of_pos below (mod_cast oneUnits_pos)⟩
    by_contra above
    exact absurd (Int.mul_nonneg (Int.not_lt.mp above) (Int.natCast_nonneg oneUnits))
      (Int.not_le.mpr below)
  rw [ofInt, ofUnits, ofRatio, ofRatio, nearestUnits_scaled, nearestUnits_eq, Int.natAbs_mul,
    Int.natAbs_natCast]
  simp only [sign]

/-- A whole number of 53 binary digits is a double. -/
theorem ofInt_eq {number : Int} (short : number.natAbs ≤ 2 ^ 53) :
    ofInt number = ⟨number * oneUnits⟩ := by
  have finite := oneUnits_mul_le _ (short.trans (by decide))
  rw [ofInt_eq_ofUnits]
  refine ofUnits_of_isRepresentable Nat.one_pos ?_ ?_ (Int.mul_one _).symm
  · rw [Int.natAbs_mul, Int.natAbs_natCast]
    obtain ⟨scale, one⟩ : ∃ scale, scale = 1074 := ⟨_, rfl⟩
    rw [oneUnits_eq one]
    exact isRepresentable_mul_two_pow short scale
  · rw [Int.natAbs_mul, Int.natAbs_natCast]
    omega

/-- A natural number of 64 binary digits is rounded inside the finite range. -/
theorem ofInt_natCast {word : Nat} (short : word ≤ 2 ^ 64) :
    ofInt word = ⟨rounded (word * oneUnits) 1⟩ := by
  have finite := oneUnits_mul_le word short
  have inside : rounded (word * oneUnits) 1 ≤ infiniteUnits := by
    have small : 2 ^ 54 ≤ infiniteUnits := by decide +kernel
    rcases Nat.lt_or_ge (word * oneUnits) (2 ^ 53) with little | large
    · have error := (rounded_bounds (word * oneUnits) Nat.one_pos).2
      have fine : word * oneUnits < Nat.pow 2 53 := little
      rw [Nat.div_one, spacing, if_pos fine] at error
      omega
    · have error := mul_natAbs_rounded_sub_le large
      omega
  rw [ofInt_eq_ofUnits, ← Nat.cast_mul]
  exact ofUnits_natCast inside

/-- The double of a whole number of 64 bits is a whole number, and less than 2^53 away. -/
theorem exists_ofInt_eq {word : Nat} (short : word < 2 ^ 64) :
    ∃ whole : Nat, ofInt word = ⟨(whole * oneUnits : Nat)⟩ ∧
      ((word : Int) - whole).natAbs ≤ 2 ^ 53 := by
  have positive := oneUnits_pos
  rcases Nat.lt_or_ge word (2 ^ 53) with few | large
  · refine ⟨word, ?_, ?_⟩
    · rw [ofInt_eq (by omega), Nat.cast_mul]
    · omega
  · obtain ⟨scale, one⟩ : ∃ scale, scale = 1074 := ⟨_, rfl⟩
    have multiple : oneUnits ∣ rounded (word * oneUnits) 1 := by
      rw [oneUnits_eq one]
      have kept := dvd_rounded Nat.one_pos (Nat.dvd_mul_left (2 ^ scale) word)
      rwa [Nat.mul_one] at kept
    obtain ⟨whole, split⟩ := multiple
    rw [Nat.mul_comm oneUnits] at split
    refine ⟨whole, ?_, ?_⟩
    · rw [ofInt_natCast (Nat.le_of_lt short), split]
    · have enough := Nat.mul_le_mul large (Nat.succ_le_of_lt positive)
      have error := mul_natAbs_rounded_sub_le (show 2 ^ 53 ≤ word * oneUnits by omega)
      rw [split, Nat.cast_mul, Nat.cast_mul, ← Int.sub_mul, Int.natAbs_mul, Int.natAbs_natCast,
        ← Nat.mul_assoc] at error
      have near := Nat.le_of_mul_le_mul_right error positive
      omega

/-- Zero is the number nearest to zero. -/
theorem ofRatio_zero (negative : Bool) {denominator : Nat} (positive : 0 < denominator) :
    ofRatio negative 0 denominator = ⟨0⟩ := by
  have nothing : rounded (0 * oneUnits) denominator = 0 := by
    have none : IsRepresentable 0 := Nat.dvd_zero _
    have kept := rounded_mul_of_isRepresentable positive none
    rwa [Nat.zero_mul] at kept ⊢
  rw [ofRatio, nearestUnits_eq, nothing, Nat.zero_min]
  cases negative <;> rfl

/-- A natural number has no sign. -/
theorem ofInt_natCast_eq (number : Nat) : ofInt number = ofRatio false number 1 := by
  rw [ofInt, decide_eq_false (by omega), Int.natAbs_natCast]

/-- A whole number is a fraction, the sign of which stands apart. -/
theorem ofInt_eq_ofRatio (negative : Bool) (magnitude : Nat) :
    ofInt (if negative then -(magnitude : Int) else magnitude) = ofRatio negative magnitude 1 := by
  cases negative with
  | false => exact ofInt_natCast_eq magnitude
  | true =>
      rw [if_pos rfl, ofInt, Int.natAbs_neg, Int.natAbs_natCast]
      rcases Nat.eq_zero_or_pos magnitude with rfl | positive
      · rw [ofRatio_zero _ Nat.one_pos, ofRatio_zero _ Nat.one_pos]
      · rw [decide_eq_true (by omega)]

end AnnexCatalog.Binary64
