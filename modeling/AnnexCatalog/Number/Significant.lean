import AnnexCatalog.Number.Shortest

/-! # Fifteen significant digits

The text under which a stored number is searched: at most fifteen significant digits, a half rounded
away from zero, no trailing zeros but always one digit after the point, and an exponent when the
first digit stands beyond the fifteenth place before the point or the fourth place after it.
-/

namespace AnnexCatalog

namespace Binary64

/-- The value of a magnitude divided by a power of ten, rounded to the nearest integer; a half goes
up. -/
def roundedAt (units : Nat) (exponent : Int) : Nat :=
  let numerator := units * Nat.pow 10 (-exponent).toNat
  let denominator := Nat.pow 2 1074 * Nat.pow 10 exponent.toNat
  (2 * numerator + denominator) / (2 * denominator)

/-- The power of ten at the first digit of a magnitude, searched from `exponent` downwards. -/
def leadingFrom (units : Nat) : (steps : Nat) → (exponent : Int) → Int
  | 0, exponent => exponent
  | steps + 1, exponent =>
      if Nat.pow 2 1074 * Nat.pow 10 exponent.toNat ≤ units * Nat.pow 10 (-exponent).toNat then
        exponent
      else leadingFrom units steps (exponent - 1)

/-- Fifteen significant digits of a magnitude and the power of ten of the first one. Rounding up
may lengthen the digits by one place, which moves the first digit. -/
def significant (units : Nat) : List Char × Int :=
  if units = 0 then (['0'], 0)
  else
    let leading := leadingFrom units 3 (decimalBound units)
    let digits := Nat.toDigits 10 (roundedAt units (leading - 14))
    (digits.take 15, leading + (digits.length - 15 : Nat))

def dropZeros (digits : List Char) : List Char :=
  (digits.reverse.dropWhile (· == '0')).reverse

/-- The text of a stored number as searches see it. -/
def toStoredText (number : Binary64) : String :=
  let (digits, leading) := significant number.units.natAbs
  let body :=
    if leading < -4 ∨ 14 < leading then
      let part := dropZeros (digits.drop 1)
      let size := Nat.toDigits 10 leading.natAbs
      digits.take 1 ++ '.' :: (if part.isEmpty then ['0'] else part) ++
        'e' :: (if leading < 0 then '-' else '+') ::
          (if size.length < 2 then '0' :: size else size)
    else
      let (whole, part) := positional digits (leading + 1)
      whole ++ '.' :: (if (dropZeros part).isEmpty then ['0'] else dropZeros part)
  String.ofList (if number.units < 0 then '-' :: body else body)

end Binary64

end AnnexCatalog
