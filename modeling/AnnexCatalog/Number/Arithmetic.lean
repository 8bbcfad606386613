import AnnexCatalog.Number.Binary64

/-! # Rounded arithmetic

Sums, differences and products of double-precision numbers, each rounded once to the nearest double.
-/

namespace AnnexCatalog

namespace Binary64

/-- The number nearest to a fraction of units. -/
def ofUnits (numerator : Int) (denominator : Nat) : Binary64 :=
  ofRatio (decide (numerator < 0)) numerator.natAbs (denominator * oneUnits)

instance : Add Binary64 := ⟨fun left right => ofUnits (left.units + right.units) 1⟩
instance : Sub Binary64 := ⟨fun left right => ofUnits (left.units - right.units) 1⟩
instance : Mul Binary64 := ⟨fun left right => ofUnits (left.units * right.units) oneUnits⟩

/-- The number without the last 26 of the 53 binary digits of its significand. -/
def front (number : Binary64) : Binary64 :=
  let grid := spacing number.units.natAbs * Nat.pow 2 26
  ⟨number.units.tdiv grid * grid⟩

end Binary64

end AnnexCatalog
