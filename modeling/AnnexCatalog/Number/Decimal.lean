import AnnexCatalog.Number.Binary64
import AnnexCatalog.Text.Blank

/-! # Decimal numerals

A numeral is an optional sign, digits with at most one point among them, and an optional exponent;
at least one digit stands before the exponent, and an exponent has at least one digit. A number that
is read this way is rounded once, from the exact decimal value to the nearest double.
-/

namespace AnnexCatalog

open Text

/-- The value `coefficient * 10 ^ exponent` with a sign. -/
structure Decimal where
  negative : Bool
  coefficient : Nat
  exponent : Int
deriving DecidableEq, Repr

namespace Decimal

/-- The number that a run of ASCII digits denotes. -/
def ofDigits (digits : List Char) : Nat :=
  digits.foldl (fun total digit => 10 * total + (digit.toNat - '0'.toNat)) 0

/-- Split off an optional leading sign; the flag tells a minus. -/
def sign : List Char → Bool × List Char
  | '-' :: rest => (true, rest)
  | '+' :: rest => (false, rest)
  | rest => (false, rest)

/-- The exponent that a text denotes, the whole text being consumed: nothing at all, or a mark, an
optional sign and digits. -/
def exponent? : List Char → Option Int
  | [] => some 0
  | mark :: rest =>
      let (negative, digits) := sign rest
      if (mark = 'e' ∨ mark = 'E') ∧ digits ≠ [] ∧ digits.all Char.isDigit then
        some (if negative then -(ofDigits digits : Int) else ofDigits digits)
      else none

/-- The digits after a point, and what follows them; without a point there are none. -/
def fraction : List Char → List Char × List Char
  | '.' :: rest => (rest.takeWhile Char.isDigit, rest.dropWhile Char.isDigit)
  | rest => ([], rest)

def read? (text : List Char) : Option Decimal :=
  let (negative, body) := sign text
  let whole := body.takeWhile Char.isDigit
  let (part, rest) := fraction (body.dropWhile Char.isDigit)
  if whole = [] ∧ part = [] then none
  else (exponent? rest).map fun exponent =>
    ⟨negative, ofDigits (whole ++ part), exponent - part.length⟩

/-- The double nearest to a decimal value. Values beyond the range in either direction are decided
by their size alone. -/
def toBinary64 (decimal : Decimal) : Binary64 :=
  let size := decimal.exponent + (Nat.toDigits 10 decimal.coefficient).length
  if decimal.coefficient = 0 ∨ size < -400 then ⟨0⟩
  else if 400 < size then Binary64.ofRatio decimal.negative (Nat.pow 10 400) 1
  else if 0 ≤ decimal.exponent then
    Binary64.ofRatio decimal.negative (decimal.coefficient * Nat.pow 10 decimal.exponent.toNat) 1
  else
    Binary64.ofRatio decimal.negative decimal.coefficient
      (Nat.pow 10 (-decimal.exponent).toNat)

end Decimal

/-- The finite number that a text denotes, blanks around it apart. -/
def Binary64.parse? (text : String) : Option Binary64 :=
  ((Decimal.read? (trim text.toList)).map Decimal.toBinary64).filter Binary64.isFinite

/-- The integer of 64 bits that a text denotes: an optional sign and digits. -/
def parseInt64? (text : List Char) : Option Int :=
  let (negative, digits) := Decimal.sign text
  let magnitude := Decimal.ofDigits digits
  if digits = [] ∨ !digits.all Char.isDigit then none
  else if negative then
    if magnitude ≤ Nat.pow 2 63 then some (-(magnitude : Int)) else none
  else if magnitude < Nat.pow 2 63 then some magnitude
  else none

/-- The natural number of 64 bits that a text denotes: an optional plus and digits. -/
def parseNat64? (text : List Char) : Option Nat :=
  let digits := match text with
    | '+' :: rest => rest
    | rest => rest
  if digits ≠ [] ∧ digits.all Char.isDigit ∧ Decimal.ofDigits digits < Nat.pow 2 64 then
    some (Decimal.ofDigits digits)
  else none

end AnnexCatalog
