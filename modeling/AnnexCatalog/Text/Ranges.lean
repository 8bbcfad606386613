/-! # Tables over code points

A property of characters is a sorted list of closed ranges, and a partial map between characters is
a sorted list of runs. A look-up walks its table and stops at the first entry beyond the code point.
-/

namespace AnnexCatalog.Text

/-- Closed ranges of code points, in ascending order and without overlap. -/
abbrev Ranges := List (Nat × Nat)

/-- Whether a code point lies in one of the ranges. -/
def Ranges.covers : Ranges → Nat → Bool
  | [], _ => false
  | (first, last) :: rest, point =>
      if point < first then false
      else if point ≤ last then true
      else Ranges.covers rest point

/-- Characters from `first` to `last`, every `step` code points, with the images that start at
`image` and keep the same distances. A run of step zero sends all its characters to `image`. -/
structure Run where
  first : Nat
  last : Nat
  step : Nat
  image : Nat

/-- The image of a code point under one run that reaches it. -/
def Run.image? (run : Run) (point : Nat) : Option Nat :=
  if run.step = 0 then some run.image
  else if (point - run.first) % run.step = 0 then some (run.image + (point - run.first))
  else none

/-- The image of a code point under a sorted table of runs. -/
def imageIn : List Run → Nat → Option Nat
  | [], _ => none
  | run :: rest, point =>
      if point < run.first then none
      else if point ≤ run.last then run.image? point
      else imageIn rest point

end AnnexCatalog.Text
