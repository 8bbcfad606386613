import AnnexCatalog.Number.Arithmetic
import AnnexCatalog.Number.Decimal

/-! # Numbers of twice the precision

A number is kept as the sum of two doubles, of which the second makes up for what the first has lost
by rounding. A decimal number is made a double by multiplying its digits by powers of ten, one after
another and each of them rounded in this way, so the outcome is very near to the decimal number, but
not always the double that is nearest to it.
-/

namespace AnnexCatalog

/-- The sum of two doubles. -/
structure Wide where
  high : Binary64
  low : Binary64
deriving DecidableEq, Repr

namespace Wide

open Binary64

/-- The largest double below 2^64. -/
def largestWord : Nat := Nat.pow 2 64 - Nat.pow 2 11

/-- A number of 64 bits; what its double has lost makes up the second part, unless it has been
rounded up to 2^64. -/
def ofWord (word : Nat) : Wide :=
  let high := ofInt word
  ⟨high, if ofInt largestWord < high then ⟨0⟩ else ofInt (word - high.units / oneUnits)⟩

/-- The product of two positive doubles, and what its double has lost. The doubles are multiplied in
halves, so that the products of the halves can be held by doubles. -/
def ofProduct (first second : Binary64) : Wide :=
  let back := first - first.front
  let otherBack := second - second.front
  let outer := first.front * second.front
  let inner := first.front * otherBack + back * second.front
  let product := outer + inner
  ⟨product, outer - product + inner + back * otherBack⟩

/-- The product of two positive numbers; none where it leaves the finite range. -/
def times (first second : Wide) : Option Wide :=
  let product := ofProduct first.high second.high
  let rest := first.high * second.low + first.low * second.high + product.low
  let high := product.high + rest
  if product.high.isFinite && high.isFinite then some ⟨high, product.high - high + rest⟩ else none

def timesRepeatedly (factor : Wide) : (count : Nat) → Wide → Option Wide
  | 0, number => some number
  | count + 1, number => (number.times factor).bind (timesRepeatedly factor count)

/-- The factors that stand for the hundredth, the tenth and the first power of ten. -/
structure Factors where
  hundredth : Wide
  tenth : Wide
  first : Wide

def multipliers : Factors where
  hundredth := ⟨Decimal.toBinary64 ⟨false, 1, 100⟩,
    Decimal.toBinary64 ⟨true, 15902891109759918046, 64⟩⟩
  tenth := ⟨ofInt (Nat.pow 10 10), ⟨0⟩⟩
  first := ⟨ofInt 10, ⟨0⟩⟩

def divisors : Factors where
  hundredth := ⟨Decimal.toBinary64 ⟨false, 1, -100⟩,
    Decimal.toBinary64 ⟨true, 199918998026028836196, -137⟩⟩
  tenth := ⟨Decimal.toBinary64 ⟨false, 1, -10⟩,
    Decimal.toBinary64 ⟨true, 36432197315497741579, -46⟩⟩
  first := ⟨Decimal.toBinary64 ⟨false, 1, -1⟩,
    Decimal.toBinary64 ⟨true, 55511151231257827021, -37⟩⟩

/-- A number times a power of ten, in as few steps as the factors allow. -/
def shift (number : Wide) (factors : Factors) (places : Nat) : Option Wide :=
  ((timesRepeatedly factors.hundredth (places / 100) number).bind
    (timesRepeatedly factors.tenth (places % 100 / 10))).bind
      (timesRepeatedly factors.first (places % 10))

end Wide

namespace Decimal

/-- Take as many as possible of the given places into a coefficient of 64 bits. -/
def extend : (coefficient places : Nat) → Nat × Nat
  | coefficient, 0 => (coefficient, 0)
  | coefficient, places + 1 =>
      if coefficient < Wide.largestWord / 10 then extend (10 * coefficient) places
      else (coefficient, places + 1)

/-- Take as many zeros as possible, but no more than the given places, from the end of a
coefficient. -/
def reduce : (coefficient places : Nat) → Nat × Nat
  | coefficient, 0 => (coefficient, 0)
  | coefficient, places + 1 =>
      if coefficient % 10 = 0 then reduce (coefficient / 10) places else (coefficient, places + 1)

/-- The magnitude of a decimal number with a coefficient of 64 bits, as it is reached by multiplying
by powers of ten; none where it leaves the finite range. -/
def magnitude? (coefficient : Nat) : (exponent : Int) → Option Wide
  | .ofNat places =>
      let (extended, rest) := extend coefficient places
      (Wide.ofWord extended).shift Wide.multipliers rest
  | .negSucc places =>
      let (reduced, rest) := reduce coefficient (places + 1)
      (Wide.ofWord reduced).shift Wide.divisors rest

/-- The double that is reached from a decimal number by multiplying by powers of ten. -/
def approximate (decimal : Decimal) : Binary64 :=
  let magnitude := match magnitude? decimal.coefficient decimal.exponent with
    | some number => number.high + number.low
    | none => ⟨Binary64.infiniteUnits⟩
  if decimal.negative then ⟨-magnitude.units⟩ else magnitude

end Decimal

end AnnexCatalog
