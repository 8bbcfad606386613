import AnnexCatalog.Collection.TextMap
import AnnexCatalog.Field
import AnnexCatalog.Log.Replay
import AnnexCatalog.Number.Leading
import AnnexCatalog.Number.Shortest
import AnnexCatalog.Number.Significant

/-! # What the catalog keeps of a log

A metadata field that a log names is kept in one of three ways: it is empty, it has one value in its
column, or it has several values that are kept one by one. Crates are always kept one by one. Names
that mean the same field are taken together. A single value of a numeric field has to be a number;
one that is none is left out and counted as a warning.
-/

namespace AnnexCatalog

open Text

/-- A value in a column. -/
inductive Scalar where
  | text (value : String)
  | real (value : Binary64)
  | integer (value : Int)
deriving DecidableEq, Repr

namespace Scalar

/-- The integer that a value of an integer field denotes; what follows a slash does not count. -/
def integerOf? (value : String) : Option Int :=
  parseInt64? (trim (value.toList.takeWhile (· != '/')))

def read? (kind : Field.Kind) (value : String) : Option Scalar :=
  match kind with
  | .real => (Binary64.parse? value).map .real
  | .integer => (integerOf? value).map .integer
  | _ => some (.text value)

def shown : Scalar → String
  | .text value => value
  | .real value => value.toText
  | .integer value => toString value

def searched : Scalar → String
  | .text value => value
  | .real value => value.toStoredText
  | .integer value => toString value

def asNumber : Scalar → Binary64
  | .text value => Binary64.leading value.toList
  | .real value => value
  | .integer value => Binary64.ofInt value

end Scalar

/-- How the values of a field are kept. -/
inductive Holding where
  /-- The log names the field but leaves it without values. -/
  | empty
  | scalar (value : Scalar)
  | members (values : TextSet)
deriving DecidableEq

/-- The metadata of an item as it is written: the values in columns, the values that are kept one by
one, and the fields that the log names but leaves without values. All are in the order of the
fields, and the values of one field in ascending order. -/
structure Metadata where
  scalars : List (Field × Scalar)
  members : List (Field × String)
  empties : List Field
deriving DecidableEq

/-- The metadata of fields that are kept in the given ways. -/
def Metadata.ofHoldings (held : List (Field × Holding)) : Metadata where
  scalars := held.filterMap fun
    | (field, .scalar value) => some (field, value)
    | _ => none
  members := held.flatMap fun
    | (field, .members values) => values.toList.map fun value => (field, value)
    | _ => []
  empties := held.filterMap fun
    | (field, .empty) => some field
    | _ => none

/-- The way in which the values of a field are kept. Only a single value that should be a number can
fail. -/
def Holding.ofValues? (field : Field) (values : TextSet) : Option Holding :=
  match values.toList with
  | [] => some .empty
  | [value] =>
      if field.kind = .group then some (.members values)
      else (Scalar.read? field.kind value).map .scalar
  | _ => some (.members values)

/-- The metadata fields that a log names, with the values of all their names together. -/
def assigned (fields : Log.Fields) : List (Field × TextSet) :=
  let named := fields.entries.filterMap fun (name, values) =>
    (Field.ofName? name).map fun field => (field, values)
  Field.metadata.filterMap fun field =>
    match named.filter fun entry => entry.1 = field with
    | [] => none
    | sets => some (field, sets.foldl (fun all entry => TextSet.union all entry.2) TextMap.empty)

/-- What the catalog takes from a log: the metadata, and the number of warnings. -/
structure Digest where
  metadata : Metadata
  warnings : Nat
deriving DecidableEq

/-- Read a log for the catalog. -/
def Digest.ofLog (content : String) : Digest :=
  let decoded := Log.decode content
  let held := (assigned decoded.fields).map fun (field, values) =>
    (field, Holding.ofValues? field values)
  { metadata := .ofHoldings (held.filterMap fun (field, holding) =>
      holding.map fun holding => (field, holding))
    warnings := decoded.warnings.length + (held.filter fun entry => entry.2.isNone).length }

end AnnexCatalog
