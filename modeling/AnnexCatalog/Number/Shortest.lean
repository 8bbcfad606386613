import AnnexCatalog.Number.Binary64

/-! # The fewest decimal digits that read back

Among the decimal numerals that round to a given double, the shortest is chosen, and of several
shortest the one nearest to the double, or the even one where two are equally near. The search goes
from coarse powers of ten to fine ones and stops at the first that has a multiple in the interval of
values rounding to the double.
-/

namespace AnnexCatalog

namespace Binary64

/-- The values that round to one magnitude, in quarters of a unit: the ends, and whether they belong
to the interval. -/
structure Neighbourhood where
  low : Nat
  value : Nat
  high : Nat
  closed : Bool

/-- The interval of values that round to a magnitude. Below a power of two the numbers lie twice as
close, and the ends belong to the magnitude with the even significand. -/
def neighbourhood (units : Nat) : Neighbourhood :=
  let above := spacing units
  let below := spacing (units - 1)
  ⟨4 * units - 2 * below, 4 * units, 4 * units + 2 * above, units / above % 2 == 0⟩

/-- Whether a fraction of quarter units lies in the interval. -/
def Neighbourhood.holds (range : Neighbourhood) (numerator denominator : Nat) : Bool :=
  if range.closed then
    range.low * denominator ≤ numerator && numerator ≤ range.high * denominator
  else
    range.low * denominator < numerator && numerator < range.high * denominator

/-- The multiples of `10 ^ exponent` next to a magnitude that round to it; if both do, the nearer
one, and the even one if they are equally near. -/
def multipleAt (range : Neighbourhood) (exponent : Int) : Option Nat :=
  let top := Nat.pow 2 1076 * Nat.pow 10 exponent.toNat
  let bottom := Nat.pow 10 (-exponent).toNat
  let lower := range.value * bottom / top
  let upper := lower + 1
  let lowerHolds := lower ≠ 0 ∧ range.holds (lower * top) bottom
  let upperHolds := range.holds (upper * top) bottom = true
  if lowerHolds ∧ upperHolds then
    let down := range.value * bottom - lower * top
    let up := upper * top - range.value * bottom
    if down < up ∨ (down = up ∧ lower % 2 = 0) then some lower else some upper
  else if lowerHolds then some lower
  else if upperHolds then some upper
  else none

/-- Search the powers of ten from `exponent` downwards, at most `steps` of them. -/
def shortestFrom (range : Neighbourhood) : (steps : Nat) → (exponent : Int) → Nat × Int
  | 0, exponent => (0, exponent)
  | steps + 1, exponent =>
      match multipleAt range exponent with
      | some digits => (digits, exponent)
      | none => shortestFrom range steps (exponent - 1)

/-- A power of ten above a positive magnitude, at most two places from its first digit. The binary
logarithm is scaled by 30103 / 100000, a little more than the decimal logarithm of two. -/
def decimalBound (units : Nat) : Int :=
  ((units.log2 : Int) - 1073) * 30103 / 100000 + 1

/-- The shortest digits of a magnitude and the power of ten that they count; zero is `0`. Twenty
powers are enough, as seventeen digits always read back. -/
def shortest (units : Nat) : Nat × Int :=
  if units = 0 then (0, 0) else shortestFrom (neighbourhood units) 20 (decimalBound units)

/-- Digits with a point after the first `position` of them, with zeros where digits run out. -/
def positional (digits : List Char) (position : Int) : List Char × List Char :=
  if position ≤ 0 then (['0'], List.replicate (-position).toNat '0' ++ digits)
  else
    let whole := digits.take position.toNat
    (whole ++ List.replicate (position.toNat - digits.length) '0', digits.drop position.toNat)

/-- The text of a number without an exponent: the shortest digits, with a point only before digits
of a fraction. -/
def toText (number : Binary64) : String :=
  let (digits, exponent) := shortest number.units.natAbs
  let written := Nat.toDigits 10 digits
  let (whole, part) := positional written (written.length + exponent)
  let body := if part.isEmpty then whole else whole ++ '.' :: part
  String.ofList (if number.units < 0 then '-' :: body else body)

/-- The text of a number in a data document: positional with a fraction from 10^-5 up to below
10^16, scientific beyond. -/
def toDocumentText (number : Binary64) : String :=
  let (digits, exponent) := shortest number.units.natAbs
  let written := Nat.toDigits 10 digits
  let position := written.length + exponent
  let body :=
    if digits = 0 ∨ (-5 < position ∧ position ≤ 16) then
      let (whole, part) := positional written position
      whole ++ '.' :: (if part.isEmpty then ['0'] else part)
    else
      written.take 1 ++ (if written.length = 1 then [] else '.' :: written.drop 1) ++
        'e' :: (toString (position - 1)).toList
  String.ofList (if number.units < 0 then '-' :: body else body)

end Binary64

end AnnexCatalog
