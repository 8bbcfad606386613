import AnnexCatalog.Collection.TextMap
import AnnexCatalog.Field

/-! # Memberships

Values that are kept one by one stand in a table of their own, each with the number of its item and
its field. They are read for a limited number of items at a time, in the order of items, names of
fields and values, and gathered by item and field.
-/

namespace AnnexCatalog

/-- One value of a field of an item. -/
structure Membership where
  id : Nat
  field : Field
  value : String
deriving DecidableEq

namespace Membership

/-- Whether a membership is read no later than another. -/
def notAfter (first second : Membership) : Bool :=
  first.id < second.id ||
    (first.id == second.id &&
      (first.field.name < second.field.name ||
        (first.field.name == second.field.name && first.value ≤ second.value)))

/-- The memberships of some items, in the order in which they are read. -/
def select (table : List Membership) (ids : List Nat) : List Membership :=
  (table.filter fun entry => ids.contains entry.id).mergeSort notAfter

/-- One more value under the name of its field. -/
def put (gathered : TextMap (List String)) (entry : Membership) : TextMap (List String) :=
  gathered.insert entry.field.name ((gathered.get? entry.field.name).getD [] ++ [entry.value])

/-- The values of one item, by the names of their fields. -/
def gather (entries : List Membership) (id : Nat) : TextMap (List String) :=
  (entries.filter fun entry => entry.id == id).foldl put TextMap.empty

/-- The number of items for which memberships are read at a time. -/
def portionSize : Nat := 500

/-- A list in portions of a size, where `started` is the portion begun. -/
def portionsFrom {α : Type} (size : Nat) (started : List α) : List α → List (List α)
  | [] => if started.isEmpty then [] else [started]
  | next :: rest =>
      if started.length + 1 < size then portionsFrom size (started ++ [next]) rest
      else (started ++ [next]) :: portionsFrom size [] rest

/-- A list in portions of a size; the last one may be smaller. -/
def portions {α : Type} (size : Nat) (list : List α) : List (List α) :=
  portionsFrom size [] list

/-- The memberships of items, read portion by portion. -/
def read (table : List Membership) (ids : List Nat) : List Membership :=
  (portions portionSize ids).flatMap (select table)

end Membership

end AnnexCatalog
