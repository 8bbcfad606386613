import AnnexCatalog.Query.Basic
import AnnexCatalog.Text.Blank

/-! # The values that a query binds

Every value that a query compares with is bound to a parameter of its own, also where a filter is
tried on a column and on the values that are kept one by one. A database refuses a query with too
many parameters.
-/

namespace AnnexCatalog.Query

open Text

/-- The most parameters that a database accepts. -/
def parameterLimit : Nat := 32766

/-- The values with which a filter compares a value of its field. -/
def Filter.bounds (filter : Filter) : Nat :=
  match filter.operator with
  | .range => 2
  | .empty => 0
  | _ => 1

/-- The parameters of a filter. Among values that are kept one by one, those of a field are found by
its name, which is bound as well. -/
def Filter.parameters (filter : Filter) : Nat :=
  if filter.operator = .empty then 1
  else match filter.field.kind with
    | .presence => 0
    | .group => 1 + filter.bounds
    | .path => filter.bounds
    | .text | .real | .integer => filter.bounds + (1 + filter.bounds)

def Clause.parameters : Clause → Nat
  | .text value _ => if (trim value.toList).isEmpty then 0 else 1
  | .filter condition => condition.parameters

/-- The parameters of a query are those of all its clauses. -/
def parameters (query : Query) : Nat :=
  query.groups.flatten.foldr (fun clause total => clause.parameters + total) 0

end AnnexCatalog.Query
