import AnnexCatalog.Search.Depth
import AnnexCatalog.Search.Parameters
import AnnexCatalog.Search.Verdict

/-! # Searching the catalog

A search returns the items on which a query holds, in the order of their numbers, and stops when it
has as many as were asked for. A count goes through all rows. A query that nests too deep or has too
many values is refused before any row is looked at.
-/

namespace AnnexCatalog

namespace Query

/-- The first `limit` rows with a positive verdict; none if a trial before that fails. -/
def collect (verdict : Row → Verdict) : (limit : Option Nat) → List Row → Option (List Row)
  | some 0, _ => some []
  | _, [] => some []
  | limit, row :: rest =>
      match verdict row with
      | none => none
      | some false => collect verdict limit rest
      | some true => (collect verdict (limit.map (· - 1)) rest).map (row :: ·)

/-- The number of rows with a positive verdict; none if a trial fails. -/
def tally (verdict : Row → Verdict) : List Row → Option Nat
  | [] => some 0
  | row :: rest =>
      match verdict row with
      | none => none
      | some holds => (tally verdict rest).map (· + if holds then 1 else 0)

/-- From here on a limit is no number of rows. -/
def limitBound : Nat := Nat.pow 2 63

/-- Whether a database refuses a query, whatever rows there are. -/
def isRefused (query : Query) : Bool :=
  isTooDeep query.conditions || parameterLimit < query.parameters

end Query

namespace Catalog

/-- The items of a catalog on which a query holds, at most `limit` of them; none where the search
fails. -/
def search? (catalog : Catalog) (query : Query) (limit : Option Nat) : Option (List Item) :=
  if query.isRefused || limit.any (Query.limitBound ≤ ·) then none
  else (Query.collect (Condition.groupsVerdict catalog query.conditions) limit catalog.rows).map
    catalog.attach

/-- The number of items on which a query holds; none where the search fails. -/
def count? (catalog : Catalog) (query : Query) : Option Nat :=
  if query.isRefused then none
  else Query.tally (Condition.groupsVerdict catalog query.conditions) catalog.rows

end Catalog

end AnnexCatalog
