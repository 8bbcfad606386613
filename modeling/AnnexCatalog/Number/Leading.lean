import AnnexCatalog.Number.Wide

/-! # The number a text begins with

A value that is stored as text is compared as the number at its beginning: ASCII blanks are passed
over, then the longest numeral counts, and a text that begins with none is zero. Of the digits as many
are taken as 64 bits hold for sure; the others only count as places.
-/

namespace AnnexCatalog

/-- The blanks that may stand before a number. -/
def isAsciiBlank (c : Char) : Bool :=
  c == ' ' || ('\t'.toNat ≤ c.toNat && c.toNat ≤ '\r'.toNat)

namespace Decimal

/-- The coefficient from which on no more digits are taken. -/
def coefficientLimit : Nat := (Nat.pow 2 64 - 10) / 10

/-- Take one more digit where there is room. A digit that is taken moves the point by `taken`, and
one that is not by `skipped`. -/
def takeDigit (taken skipped : Int) (decimal : Decimal) (digit : Char) : Decimal :=
  if decimal.coefficient < coefficientLimit then
    { decimal with
      coefficient := 10 * decimal.coefficient + (digit.toNat - '0'.toNat)
      exponent := decimal.exponent + taken }
  else { decimal with exponent := decimal.exponent + skipped }

/-- One more digit of an exponent, which does not grow beyond five digits. -/
def takeExponentDigit (exponent : Nat) (digit : Char) : Nat :=
  if exponent < 10000 then 10 * exponent + (digit.toNat - '0'.toNat) else 10000

/-- The exponent at the beginning of a text; a mark without digits is no exponent. -/
def leadingExponent : List Char → Int
  | [] => 0
  | mark :: rest =>
      let (negative, body) := sign rest
      let exponent := (body.takeWhile Char.isDigit).foldl takeExponentDigit 0
      if mark = 'e' ∨ mark = 'E' then if negative then -(exponent : Int) else exponent else 0

/-- What is taken of the decimal number at the beginning of a text. -/
def leading (text : List Char) : Decimal :=
  let (negative, body) := sign text
  let whole := (body.takeWhile Char.isDigit).foldl (takeDigit 0 1) ⟨negative, 0, 0⟩
  let (part, rest) := fraction (body.dropWhile Char.isDigit)
  let digits := part.foldl (takeDigit (-1) 0) whole
  { digits with exponent := digits.exponent + leadingExponent rest }

end Decimal

/-- The number at the beginning of a text. -/
def Binary64.leading (text : List Char) : Binary64 :=
  (Decimal.leading (text.dropWhile isAsciiBlank)).approximate

end AnnexCatalog
