import AnnexCatalog.Number.Decimal

/-! # Numbers and ranges in queries

A range is written as two numbers joined by a minus sign. Minus signs also begin numbers and their
exponents, so the joint is the first minus sign with a number on either side.
-/

namespace AnnexCatalog.Query

/-- The number that a value of a filter denotes. -/
def numberOf? (text : List Char) : Option Binary64 :=
  Binary64.parse? (String.ofList text)

/-- The parts before and after each minus sign of a text. -/
def splitsAtMinus : List Char → List (List Char × List Char)
  | [] => []
  | c :: rest =>
      let later := (splitsAtMinus rest).map fun (before, after) => (c :: before, after)
      if c = '-' then ([], rest) :: later else later

/-- The two numbers of a range. -/
def splitRange? (word : List Char) : Option (List Char × List Char) :=
  (splitsAtMinus word).find? fun (low, high) => (numberOf? low).isSome && (numberOf? high).isSome

/-- Whether a number lies above another. -/
def isAbove (first second : List Char) : Bool :=
  match numberOf? first, numberOf? second with
  | some first, some second => second < first
  | _, _ => false

end AnnexCatalog.Query
