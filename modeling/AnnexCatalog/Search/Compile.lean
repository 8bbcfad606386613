import AnnexCatalog.Query.Basic
import AnnexCatalog.Search.Condition
import AnnexCatalog.Text.Alphanumeric

/-! # What a query becomes

A filter becomes a test of the column of its field, of the values that are kept one by one, or of
both. A text term is looked up in the text index, where the last token counts as a beginning; a term
without letters and digits has no tokens and is looked for in the columns. Every clause is settled
before it is negated. A group is a list of conditions, and a group without clauses holds always.
-/

namespace AnnexCatalog.Query

open Text

/-- The test that a filter makes of a value. A bound that is no number compares with nothing. -/
def Filter.test (filter : Filter) : Test :=
  let numeric := filter.field.isNumeric
  let bound := Binary64.parse? filter.value
  match filter.operator with
  | .contains => .contains numeric (lower filter.value)
  | .exact =>
      match if numeric then bound else none with
      | some number => .compares .equal (some number)
      | none => .equals numeric (lower filter.value)
  | .above => .compares .above bound
  | .below => .compares .below bound
  | .atLeast => .compares .atLeast bound
  | .atMost => .compares .atMost bound
  | .range => .within bound (Binary64.parse? (filter.valueEnd.getD filter.value))
  | .empty => .never

/-- The condition of a filter, its sign apart. -/
def Filter.condition (filter : Filter) : Condition :=
  if filter.operator = .empty then .marked filter.field
  else match filter.field.kind with
    | .presence => .presence (filter.value == "true")
    | .group => .member filter.field filter.test
    | .path => .column filter.field filter.test
    | .text | .real | .integer =>
        .either (.column filter.field filter.test) (.member filter.field filter.test)

/-- The condition that a text stands in one of the indexed columns. -/
def literalCondition (text : String) : Condition :=
  let test := Test.contains false (lower text)
  [.title, .album, .genre, .path].foldl
    (fun condition field => .either condition (.column field test)) (.column .artist test)

/-- The condition of a text term, its sign apart; a blank term excludes nothing. -/
def termCondition (value : String) : Condition :=
  let body := trim value.toList
  if body.isEmpty then .always
  else if body.any isAlphanumeric then .indexed body
  else literalCondition (String.ofList body)

/-- The condition of a clause with the given sign. -/
def signed (negated : Bool) (condition : Condition) : Condition :=
  if negated then .negation (.settled condition) else .settled condition

def Clause.condition : Clause → Condition
  | .text value negated => signed negated (termCondition value)
  | .filter test => signed test.negated test.condition

def groupConditions (group : List Clause) : List Condition :=
  if group.isEmpty then [.always] else group.map Clause.condition

/-- The groups of conditions that a query becomes. -/
def conditions (query : Query) : List (List Condition) :=
  if query.isMatchAll then [[.always]] else query.groups.map groupConditions

end AnnexCatalog.Query
