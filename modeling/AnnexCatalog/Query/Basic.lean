import AnnexCatalog.Field

/-! # Queries

A query is a disjunction of groups, and a group is a conjunction of clauses. A clause is a free text
term or a filter on one field, either of them possibly negated. A query without clauses holds of
every item.
-/

namespace AnnexCatalog

namespace Query

/-- How a filter compares the values of its field. -/
inductive Operator where
  /-- The value occurs inside, without regard to case. -/
  | contains
  /-- The value is equal, without regard to case or as a number. -/
  | exact
  | above
  | below
  | atLeast
  | atMost
  /-- From `value` up to and including `valueEnd`. -/
  | range
  /-- The log names the field but leaves it without values. -/
  | empty
deriving DecidableEq, Repr

/-- A condition on one field. Only a range looks at `valueEnd`; a range without it ends where it
starts. -/
structure Filter where
  field : Field
  operator : Operator
  value : String
  valueEnd : Option String := none
  negated : Bool := false
deriving DecidableEq, Repr

inductive Clause where
  /-- A term that is looked up in the text index. -/
  | text (value : String) (negated : Bool)
  | filter (condition : Filter)
deriving DecidableEq, Repr

namespace Clause

/-- Whether a clause asks for the items on which its condition fails. -/
def negated : Clause → Bool
  | .text _ negated => negated
  | .filter condition => condition.negated

def withSign (negated : Bool) : Clause → Clause
  | .text value _ => .text value negated
  | .filter condition => .filter { condition with negated }

/-- The condition that an item is available locally. -/
def present : Clause :=
  .filter { field := .present, operator := .exact, value := "true" }

end Clause

end Query

/-- Groups of clauses; the query holds where all clauses of some group hold. -/
structure Query where
  groups : List (List Query.Clause)
deriving DecidableEq, Repr

namespace Query

/-- The query that holds of every item. -/
def all : Query := ⟨[]⟩

/-- Whether a query has no clause at all and so holds of every item. -/
def isMatchAll (query : Query) : Bool :=
  query.groups.all List.isEmpty

/-- The query restricted to items that are available locally. -/
def requirePresent (query : Query) : Query :=
  ⟨(if query.groups.isEmpty then [[]] else query.groups).map (· ++ [Clause.present])⟩

end Query

end AnnexCatalog
