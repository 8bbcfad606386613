import AnnexCatalog.Query.Basic
import AnnexCatalog.Text.Blank

/-! # Writing a query

Clauses are separated by spaces and groups by bars. A value is written between quotes where it would
otherwise be read as something else than one word.
-/

namespace AnnexCatalog.Query

open Text

def needsQuotes (value : List Char) : Bool :=
  match value with
  | [] => true
  | first :: _ =>
      ['-', '=', '<', '>'].contains first ||
        value.any (fun c => isBlank c || c == '|' || c == ':') || value == ['O', 'R']

def renderValue (value : String) : List Char :=
  if needsQuotes value.toList then '"' :: value.toList ++ ['"'] else value.toList

/-- The written form of a filter after its colon. -/
def Filter.renderTest (filter : Filter) : List Char :=
  match filter.operator with
  | .contains => renderValue filter.value
  | .exact => '=' :: renderValue filter.value
  | .above => '>' :: filter.value.toList
  | .below => '<' :: filter.value.toList
  | .atLeast => '>' :: '=' :: filter.value.toList
  | .atMost => '<' :: '=' :: filter.value.toList
  | .range => filter.value.toList ++ '-' :: (filter.valueEnd.getD filter.value).toList
  | .empty => ['"', '"']

def renderSign (negated : Bool) : List Char :=
  if negated then ['-'] else []

def Clause.render : Clause → List Char
  | .text value negated => renderSign negated ++ renderValue value
  | .filter condition =>
      renderSign condition.negated ++ condition.field.name.toList ++ ':' :: condition.renderTest

def renderGroup (clauses : List Clause) : List Char :=
  [' '].intercalate (clauses.map Clause.render)

def render (query : Query) : String :=
  String.ofList ([' ', '|', ' '].intercalate (query.groups.map renderGroup))

end AnnexCatalog.Query
