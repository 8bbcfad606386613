import AnnexCatalog.Catalog.Item
import AnnexCatalog.Query.Basic
import AnnexCatalog.Search.Condition
import AnnexCatalog.Text.Alphanumeric

/-! # What a query means

The meaning of a query is stated on items as they are read, and on the fields that are marked as
empty, without the tables of the catalog and the conditions that a query becomes.
-/

namespace AnnexCatalog

open Text

namespace Item

/-- The values of a field as they are stored: that of its column and those that are kept one by
one. -/
def stored (item : Item) (field : Field) : List Scalar :=
  (item.scalar? field).toList ++ (item.members field).map .text

/-- The texts that the text index covers: the values of every indexed field, and the path. -/
def indexedTexts (item : Item) : List String :=
  Field.textIndexed.map (fun field => " ".intercalate (item.values field)) ++ [item.path]

/-- The texts in the columns of the indexed fields, and the path. -/
def columnTexts (item : Item) : List String :=
  (Field.textIndexed.filterMap item.scalar?).map Scalar.searched ++ [item.path]

end Item

/-- Whether a text has a part in it, without regard to case. -/
def hasPart (part text : String) : Bool :=
  occursIn (lower part).toList (lower text).toList

namespace Query

/-- Whether a number compares with the bounds of a filter as its operator asks. A bound that is no
number compares with nothing. -/
def Filter.compares (filter : Filter) (number : Binary64) : Bool :=
  let bound := Binary64.parse? filter.value
  match filter.operator with
  | .above => bound.any fun low => low < number
  | .below => bound.any fun high => number < high
  | .atLeast => bound.any fun low => low ≤ number
  | .atMost => bound.any fun high => number ≤ high
  | .range => (bound.any fun low => low ≤ number) &&
      (Binary64.parse? (filter.valueEnd.getD filter.value)).any fun high => number ≤ high
  | _ => false

/-- Whether a filter accepts a value of a text field, of the crates or of the path. -/
def Filter.acceptsText (filter : Filter) (text : String) : Bool :=
  match filter.operator with
  | .contains => hasPart filter.value text
  | .exact => lower text == lower filter.value
  | _ => filter.compares (Binary64.leading text.toList)

/-- Whether a filter accepts a stored value of a numeric field. -/
def Filter.acceptsStored (filter : Filter) (value : Scalar) : Bool :=
  match filter.operator with
  | .contains => hasPart filter.value value.searched
  | .exact =>
      match Binary64.parse? filter.value with
      | some number => value.asNumber == number
      | none => lower value.searched == lower filter.value
  | _ => filter.compares value.asNumber

/-- Whether a filter holds of an item, its sign apart. -/
def Filter.holds (item : Item) (marks : List Field) (filter : Filter) : Bool :=
  if filter.operator = .empty then marks.contains filter.field
  else match filter.field.kind with
    | .presence => item.present == (filter.value == "true")
    | .text | .group | .path => (item.values filter.field).any filter.acceptsText
    | .real | .integer => (item.stored filter.field).any filter.acceptsStored

/-- A filter on texts holds of an item if it accepts one of the values shown. -/
theorem Filter.holds_of_texts {filter : Filter} (stated : filter.operator ≠ .empty)
    (texts : filter.field.kind = .text ∨ filter.field.kind = .group ∨ filter.field.kind = .path)
    (item : Item) (marks : List Field) :
    filter.holds item marks = (item.values filter.field).any filter.acceptsText := by
  rw [holds, if_neg stated]
  rcases texts with kind | kind | kind
  all_goals rw [kind]

/-- A filter on numbers holds of an item if it accepts one of the values stored. -/
theorem Filter.holds_of_numbers {filter : Filter} (stated : filter.operator ≠ .empty)
    (numeric : filter.field.isNumeric = true) (item : Item) (marks : List Field) :
    filter.holds item marks = (item.stored filter.field).any filter.acceptsStored := by
  rw [holds, if_neg stated]
  rcases Field.isNumeric_iff.mp numeric with kind | kind
  all_goals rw [kind]

/-- Whether a text term holds of an item, its sign apart. A blank term holds of every item; a term
with letters or digits is a phrase of one of the indexed texts, and any other occurs in a column. -/
def termHolds (item : Item) (term : String) : Bool :=
  let body := trim term.toList
  if body.isEmpty then true
  else if body.any isAlphanumeric then
    phraseStands (tokens body) (item.indexedTexts.map fun text => tokens text.toList)
  else item.columnTexts.any (hasPart (String.ofList body))

/-- Whether the positive form of a clause holds of an item. -/
def Clause.affirms (item : Item) (marks : List Field) : Clause → Bool
  | .text term _ => termHolds item term
  | .filter test => test.holds item marks

/-- Whether a clause holds of an item: a negated one where its positive form does not. -/
def Clause.holds (item : Item) (marks : List Field) (clause : Clause) : Bool :=
  if clause.negated then !clause.affirms item marks else clause.affirms item marks

/-- Whether a query holds of an item: its groups are all empty, or all clauses of one hold. -/
def holds (item : Item) (marks : List Field) (query : Query) : Bool :=
  query.groups.all List.isEmpty ||
    query.groups.any fun group => group.all (Clause.holds item marks)

end Query

end AnnexCatalog
