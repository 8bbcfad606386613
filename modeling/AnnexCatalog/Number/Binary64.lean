/-! # Double-precision numbers as exact integers

Every finite double-precision number is a whole multiple of 2^-1074, so a number is kept as that
multiple. The order of numbers is then the order of integers, and the two zeros are one number. A
magnitude of 2^1024 stands for everything beyond the finite range.
-/

namespace AnnexCatalog

/-- A double-precision number, counted in units of 2^-1074. -/
structure Binary64 where
  units : Int
deriving DecidableEq, Repr

namespace Binary64

instance : LT Binary64 := ⟨fun left right => left.units < right.units⟩
instance : LE Binary64 := ⟨fun left right => left.units ≤ right.units⟩

instance (left right : Binary64) : Decidable (left < right) :=
  inferInstanceAs (Decidable (left.units < right.units))

instance (left right : Binary64) : Decidable (left ≤ right) :=
  inferInstanceAs (Decidable (left.units ≤ right.units))

/-- The number one, in units. -/
def oneUnits : Nat := Nat.pow 2 1074

/-- The magnitude, in units, from which on a number is infinite: 2^1024. -/
def infiniteUnits : Nat := Nat.pow 2 2098

/-- The quotient rounded to the nearest integer; a half goes to the even neighbour. -/
def roundHalfEven (numerator denominator : Nat) : Nat :=
  let quotient := numerator / denominator
  let remainder := numerator % denominator
  if denominator < 2 * remainder ∨ (2 * remainder = denominator ∧ quotient % 2 = 1) then
    quotient + 1
  else quotient

/-- The distance, in units, between neighbouring numbers at a magnitude: the significand has 53
binary digits, and no number is finer than one unit. -/
def spacing (units : Nat) : Nat :=
  if units < Nat.pow 2 53 then 1 else Nat.pow 2 (units.log2 - 52)

/-- The magnitude, in units, nearest to a non-negative fraction. -/
def nearestUnits (numerator denominator : Nat) : Nat :=
  let scaled := numerator * oneUnits
  let grid := spacing (scaled / denominator)
  min (roundHalfEven scaled (denominator * grid) * grid) infiniteUnits

/-- The number nearest to a fraction with the given sign. -/
def ofRatio (negative : Bool) (numerator denominator : Nat) : Binary64 :=
  if negative then ⟨-(nearestUnits numerator denominator : Int)⟩
  else ⟨nearestUnits numerator denominator⟩

/-- The number nearest to an integer. -/
def ofInt (value : Int) : Binary64 :=
  ofRatio (decide (value < 0)) value.natAbs 1

def isFinite (number : Binary64) : Bool :=
  decide (number.units.natAbs < infiniteUnits)

/-- The bit pattern of the interchange format; zero has the positive sign. -/
def toBits (number : Binary64) : Nat :=
  let magnitude := number.units.natAbs
  let sign := if number.units < 0 then Nat.pow 2 63 else 0
  if magnitude < Nat.pow 2 52 then sign + magnitude
  else
    let shift := magnitude.log2 - 52
    sign + (shift + 1) * Nat.pow 2 52 + (magnitude / Nat.pow 2 shift - Nat.pow 2 52)

end Binary64

end AnnexCatalog
