import AnnexCatalog.Catalog.Basic
import AnnexCatalog.Text.LowerCase
import AnnexCatalog.Text.Pieces

/-! # Conditions on rows

A condition is what a query becomes: something that holds of a row, does not hold of it, or has no
outcome because a value is missing. A column may be without value; whatever stands in the other
tables is looked up there by the number of the row. A condition that is settled counts a missing
outcome as false, so it divides the rows together with its negation.
-/

namespace AnnexCatalog

open Text

/-- The outcome of a condition; none where a missing value leaves it open. -/
abbrev Truth := Option Bool

namespace Truth

/-- Whether both hold: one that fails decides. -/
def both : Truth → Truth → Truth
  | some false, _ => some false
  | _, some false => some false
  | some true, some true => some true
  | _, _ => none

/-- Whether one of two holds: one that holds decides. -/
def either : Truth → Truth → Truth
  | some true, _ => some true
  | _, some true => some true
  | some false, some false => some false
  | _, _ => none

/-- Whether a condition fails. -/
def negation (truth : Truth) : Truth :=
  truth.map not

/-- The outcome, where a missing one counts as false. -/
def settle (truth : Truth) : Bool :=
  truth.getD false

end Truth

/-- The text as which a value is compared without regard to case. A number is converted to its
stored text first, or else taken as it is shown. -/
def Scalar.folded (converted : Bool) : Scalar → String
  | .text value => lower value
  | value => if converted then lower value.searched else value.shown

/-- How a number is compared with another. -/
inductive Relation where
  | equal
  | above
  | below
  | atLeast
  | atMost
deriving DecidableEq, Repr

def Relation.holds (relation : Relation) (value bound : Binary64) : Bool :=
  match relation with
  | .equal => value = bound
  | .above => bound < value
  | .below => value < bound
  | .atLeast => bound ≤ value
  | .atMost => value ≤ bound

/-- The comparison of two numbers that may be missing. -/
def Relation.truth (relation : Relation) (value bound : Option Binary64) : Truth :=
  match value, bound with
  | some value, some bound => some (relation.holds value bound)
  | _, _ => none

/-- A test of one value, which may be missing. -/
inductive Test where
  /-- The folded text has a part in it. -/
  | contains (converted : Bool) (part : String)
  /-- The folded text is the given one. -/
  | equals (converted : Bool) (text : String)
  /-- There is a value, and it stands in a relation to a bound as a number. -/
  | compares (relation : Relation) (bound : Option Binary64)
  /-- There is a value, and it lies between two bounds as a number. -/
  | within (low high : Option Binary64)
  | never
deriving DecidableEq, Repr

def Test.truth (test : Test) (value : Option Scalar) : Truth :=
  match test with
  | .contains converted part =>
      value.map fun value => occursIn part.toList (value.folded converted).toList
  | .equals converted text => value.map fun value => value.folded converted = text
  | .compares relation bound =>
      Truth.both (some value.isSome) (relation.truth (value.map Scalar.asNumber) bound)
  | .within low high =>
      let number := value.map Scalar.asNumber
      Truth.both (some value.isSome)
        (Truth.both (Relation.truth .atLeast number low) (Relation.truth .atMost number high))
  | .never => some false

inductive Condition where
  | always
  /-- The value in the column of a field passes a test. -/
  | column (field : Field) (test : Test)
  | presence (flag : Bool)
  /-- A field is marked as empty. -/
  | marked (field : Field)
  /-- A value of a field that is kept one by one passes a test. -/
  | member (field : Field) (test : Test)
  /-- The index has a phrase. -/
  | indexed (phrase : List Char)
  | either (first second : Condition)
  | settled (condition : Condition)
  | negation (condition : Condition)
deriving DecidableEq, Repr

def Row.column? (row : Row) (field : Field) : Option Scalar :=
  match field with
  | .path => some (.text row.path)
  | .present => some (.integer (if row.present then 1 else 0))
  | field => row.scalars.lookup field

/-- Whether a phrase stands in one of the indexed texts; a phrase without tokens stands nowhere. -/
def phraseStands (phrase : List Token) (indexed : List (List Token)) : Bool :=
  !phrase.isEmpty && indexed.any (hasPhrase phrase)

namespace Condition

/-- What a condition says about a row. -/
def truth (catalog : Catalog) (row : Row) : Condition → Truth
  | always => some true
  | column field test => test.truth (row.column? field)
  | presence flag => some (row.present == flag)
  | marked field =>
      some (catalog.emptyMarks.any fun mark => mark.id == row.id && mark.field == field)
  | member field test =>
      some (catalog.memberships.any fun entry =>
        entry.id == row.id && entry.field == field &&
          (test.truth (some (.text entry.value))).settle)
  | indexed phrase =>
      some (catalog.index.any fun entry =>
        entry.id == row.id && phraseStands (tokens phrase) entry.tokens)
  | either first second => Truth.either (first.truth catalog row) (second.truth catalog row)
  | settled condition => some (condition.truth catalog row).settle
  | negation condition => (condition.truth catalog row).negation

/-- Whether a condition is the same for all rows. -/
def isConstant : Condition → Bool
  | always => true
  | either first second => first.isConstant && second.isConstant
  | settled condition | negation condition => condition.isConstant
  | _ => false

/-- Whether a condition has to be looked up in another table for each row anew. -/
def isCorrelated : Condition → Bool
  | marked _ | member _ _ => true
  | either first second => first.isCorrelated || second.isCorrelated
  | settled condition | negation condition => condition.isCorrelated
  | _ => false

/-- Whether a condition looks into another table than that of the rows. -/
def looksUp : Condition → Bool
  | marked _ | member _ _ | indexed _ => true
  | either first second => first.looksUp || second.looksUp
  | settled condition | negation condition => condition.looksUp
  | _ => false

/-- Whether a condition has a phrase that the index cannot look up. -/
def isUnreadable : Condition → Bool
  | indexed phrase => phrase.contains '\x00'
  | either first second => first.isUnreadable || second.isUnreadable
  | settled condition | negation condition => condition.isUnreadable
  | _ => false

end Condition

end AnnexCatalog
